import L8Tunnel.Claims.Announce
import L8Tunnel.Claims.Log
import L8Tunnel.Common.LiveView

/-! # What the edges and relays are told of the routing
(tun/live/sink.go, tun/common/liveview.go) -/

namespace L8Tunnel.Live
open Base Claims Common Engine

/-- The sink pushes to edges and relays every change but `Updated`. -/
def pushed : Claims.Event → Bool
  | .tunnelChanged _ change => change ≠ .updated
  | _ => false

/-- `fetch` takes only these rows. -/
def Routable (t : TunLiveTunnel) : Prop :=
  t.name ≠ "" ∧ t.simulated = false ∧ t.state = .active

def RoutesName (e : Engine) (key : String) (dest : String × Bool) : Prop :=
  ∃ t, e.tunnels.get t.name = some t ∧ Routable t ∧ (key = t.name ∨ key ∈ t.domains) ∧
    dest = (t.relayId, t.accessToken)

def RoutesPort (e : Engine) (port : Int32) (dest : String × String) : Prop :=
  ∃ t, e.tunnels.get t.name = some t ∧ Routable t ∧ port ∈ Engine.ports t ∧ dest = (t.relayId, t.name)

def SameRouting (e e' : Engine) : Prop :=
  (∀ key dest, RoutesName e key dest ↔ RoutesName e' key dest) ∧
    ∀ port dest, RoutesPort e port dest ↔ RoutesPort e' port dest

def toldSince (e e' : Engine) : List Claims.Event := e'.sink.drop e.sink.length
instance (t : TunLiveTunnel) : Decidable (Routable t) := inferInstanceAs (Decidable (_ ∧ _ ∧ _))
def keys (t : TunLiveTunnel) : List String := t.name :: t.domains

theorem addTunnel_get (c : LiveCopy) (t : TunLiveTunnel) :
    (∀ key, (c.addTunnel t).byName.get key =
        if Routable t ∧ key ∈ keys t then some t else c.byName.get key) ∧
      ∀ p, (c.addTunnel t).byPort.get p =
        if Routable t ∧ p ∈ ports t then some t else c.byPort.get p := by
  have hroutable : Routable t ↔ ¬ (t.name = "" ∨ t.simulated = true ∨ t.state ≠ .active) := by
    simp [Routable]
  unfold LiveCopy.addTunnel
  by_cases h : t.name = "" ∨ t.simulated = true ∨ t.state ≠ .active
  · rw [if_pos h]
    have hnot : ¬ Routable t := fun hr => hroutable.mp hr h
    exact ⟨fun key => by simp [hnot], fun p => by simp [hnot]⟩
  · rw [if_neg h]
    have hr : Routable t := hroutable.mpr h
    refine ⟨fun key => ?_, fun p => ?_⟩
    · have hadd := Index.get_add c.byName t (keys t) key
      rw [← if_congr (and_iff_right hr) rfl rfl] at hadd
      exact hadd
    · have hadd := Index.get_add c.byPort t (ports t) p
      rw [← if_congr (and_iff_right hr) rfl rfl] at hadd
      rw [← hadd]
      unfold ports
      by_cases h0 : t.publicPort = 0
      · simp [h0, Index.add]
      · simp [h0, Index.add]

theorem foldl_last {σ α : Type} {f : σ → α → σ} (entry : σ → Option α) {P : α → Prop}
    [DecidablePred P] (h : ∀ s a, entry (f s a) = if P a then some a else entry s) (l : List α)
    (s : σ) : entry (l.foldl f s) = (l.reverse.find? P).or (entry s) := by
  induction l generalizing s with
  | nil => rfl
  | cons a l ih =>
    rw [List.foldl_cons, ih, h, List.reverse_cons, List.find?_append]
    by_cases ha : P a
    · simp [ha]
    · simp [ha]

theorem find_unique_iff {α : Type} {l : List α} {P : α → Prop} [DecidablePred P]
    (hone : ∀ a ∈ l, ∀ b ∈ l, P a → P b → a = b) (a : α) :
    l.find? (fun a => P a) = some a ↔ a ∈ l ∧ P a := by
  constructor
  · intro hfind
    exact ⟨List.mem_of_find?_eq_some hfind, by simpa using List.find?_some hfind⟩
  · rintro ⟨hmem, ha⟩
    cases hfind : l.find? fun a => P a with
    | none => exact absurd (decide_eq_true ha) (List.find?_eq_none.mp hfind a hmem)
    | some b =>
      have hb : P b := by simpa using List.find?_some hfind
      rw [hone b (List.mem_of_find?_eq_some hfind) a hmem hb ha]

theorem foldl_last_iff {σ α : Type} {f : σ → α → σ} (entry : σ → Option α) {P : α → Prop}
    [DecidablePred P] (h : ∀ s a, entry (f s a) = if P a then some a else entry s) {l : List α}
    {s : σ} (hnone : entry s = none) (hone : ∀ a ∈ l, ∀ b ∈ l, P a → P b → a = b) (a : α) :
    entry (l.foldl f s) = some a ↔ a ∈ l ∧ P a := by
  rw [foldl_last entry h, hnone, Option.or_none, find_unique_iff, List.mem_reverse]
  intro a ha b hb
  exact hone a (List.mem_reverse.mp ha) b (List.mem_reverse.mp hb)

theorem addRelays_byName (rs : List TunRelay) (c : LiveCopy) :
    (rs.foldl LiveCopy.addRelay c).byName = c.byName ∧
      (rs.foldl LiveCopy.addRelay c).byPort = c.byPort := by
  induction rs generalizing c with
  | nil => exact ⟨rfl, rfl⟩
  | cons r rs ih =>
    rw [List.foldl_cons, (ih _).1, (ih _).2]
    unfold LiveCopy.addRelay
    split
    · exact ⟨rfl, rfl⟩
    · exact ⟨rfl, rfl⟩

theorem fetch_byName_iff {rows : List TunLiveTunnel} {k : String}
    (hone : ∀ t ∈ rows, ∀ u ∈ rows, k ∈ keys t → k ∈ keys u → t = u) (relays : List TunRelay)
    (t : TunLiveTunnel) :
    (LiveCopy.fetch rows relays).byName.get k = some t ↔ t ∈ rows ∧ Routable t ∧ k ∈ keys t := by
  unfold LiveCopy.fetch
  rw [(addRelays_byName relays _).1]
  exact foldl_last_iff (s := {}) (·.byName.get k) (fun c t => (addTunnel_get c t).1 k)
    (GoMap.get_empty k) (fun t ht u hu htk huk => hone t ht u hu htk.2 huk.2) t

theorem fetch_byPort_iff {rows : List TunLiveTunnel} {p : Int32}
    (hone : ∀ t ∈ rows, ∀ u ∈ rows, p ∈ ports t → p ∈ ports u → t = u) (relays : List TunRelay)
    (t : TunLiveTunnel) :
    (LiveCopy.fetch rows relays).byPort.get p = some t ↔ t ∈ rows ∧ Routable t ∧ p ∈ ports t := by
  unfold LiveCopy.fetch
  rw [(addRelays_byName relays _).2]
  exact foldl_last_iff (s := {}) (·.byPort.get p) (fun c t => (addTunnel_get c t).2 p)
    (GoMap.get_empty p) (fun t ht u hu htp hup => hone t ht u hu htp.2 hup.2) t

/-- From rows that are the engine's records, no two with a name, domain or port in common,
`fetch` builds the routing that `RoutesName` and `RoutesPort` speak of. -/
theorem fetch_routing {e : Engine} {rows : List TunLiveTunnel} (relays : List TunRelay)
    (hrows : ∀ t, t ∈ rows ↔ e.tunnels.get t.name = some t)
    (hkeys : ∀ t ∈ rows, ∀ u ∈ rows, ∀ k, k ∈ keys t → k ∈ keys u → t = u)
    (hports : ∀ t ∈ rows, ∀ u ∈ rows, ∀ p, p ∈ ports t → p ∈ ports u → t = u) :
    (∀ k dest, RoutesName e k dest ↔ ∃ t, (LiveCopy.fetch rows relays).byName.get k = some t ∧
      dest = (t.relayId, t.accessToken)) ∧
    ∀ p dest, RoutesPort e p dest ↔ ∃ t, (LiveCopy.fetch rows relays).byPort.get p = some t ∧
      dest = (t.relayId, t.name) := by
  refine ⟨fun k dest => exists_congr fun t => ?_, fun p dest => exists_congr fun t => ?_⟩
  · rw [fetch_byName_iff fun t ht u hu => hkeys t ht u hu k, hrows, keys, List.mem_cons, and_assoc,
      and_assoc]
  · rw [fetch_byPort_iff fun t ht u hu => hports t ht u hu p, hrows, and_assoc, and_assoc]

/-- The two records route alike. -/
structure Alike (r r' : TunLiveTunnel) : Prop where
  name : r'.name = r.name
  relayId : r'.relayId = r.relayId
  state : r'.state = r.state
  publicPort : r'.publicPort = r.publicPort
  accessToken : r'.accessToken = r.accessToken
  simulated : r'.simulated = r.simulated
  domains : ∀ d, d ∈ r'.domains ↔ d ∈ r.domains

variable {r r' rec : TunLiveTunnel} {e e' : Engine} {cfg : Config} {env : Env}
  {req : TunClaimRequest} {n : String} {c : Call}

theorem Alike.symm (h : Alike r r') : Alike r' r :=
  ⟨h.name.symm, h.relayId.symm, h.state.symm, h.publicPort.symm, h.accessToken.symm,
    h.simulated.symm, fun d => (h.domains d).symm⟩

theorem Alike.routable (h : Alike r r') (hr : Routable r) : Routable r' :=
  ⟨h.name ▸ hr.1, h.simulated ▸ hr.2.1, h.state ▸ hr.2.2⟩

def Keeps (e e' : Engine) : Prop :=
  ∀ n r, e.tunnels.get n = some r → r.state = .active →
    ∃ r', e'.tunnels.get n = some r' ∧ Alike r r'

theorem Keeps.routes (h : Keeps e e') :
    (∀ key dest, RoutesName e key dest → RoutesName e' key dest) ∧
      ∀ port dest, RoutesPort e port dest → RoutesPort e' port dest := by
  constructor
  · rintro key dest ⟨r, hr, hroute, hkey, rfl⟩
    obtain ⟨r', hr', ha⟩ := h r.name r hr hroute.2.2
    refine ⟨r', ha.name ▸ hr', ha.routable hroute, ?_, by rw [ha.relayId, ha.accessToken]⟩
    rw [ha.name, ha.domains]
    exact hkey
  · rintro port dest ⟨r, hr, hroute, hport, rfl⟩
    obtain ⟨r', hr', ha⟩ := h r.name r hr hroute.2.2
    refine ⟨r', ha.name ▸ hr', ha.routable hroute, ?_, by rw [ha.relayId, ha.name]⟩
    rw [mem_ports, ha.publicPort]
    exact (mem_ports r port).mp hport

def place (e : Engine) (n : String) : Option (String × TunLiveState × Int32) :=
  (e.tunnels.get n).map fun t => (t.relayId, t.state, t.publicPort)

theorem setTunnel_place (e : Engine) (rec : TunLiveTunnel) :
    ∃ change, (e.setTunnel rec).sink = e.sink ++ [.tunnelChanged rec change] ∧
      (change = .updated → ∀ n, place (e.setTunnel rec) n = place e n) := by
  have hplace : ∀ old, e.tunnels.get rec.name = some old → old.relayId = rec.relayId →
      old.state = rec.state → old.publicPort = rec.publicPort →
      ∀ n, place (e.setTunnel rec) n = place e n := by
    intro old hold hrelay hstate hport n
    unfold place
    rw [setTunnel_tunnels, Table.get_put]
    by_cases hn : n = rec.name
    · rw [if_pos hn, hn, hold, Option.map_some, Option.map_some, hrelay, hstate, hport]
    · rw [if_neg hn]
  unfold setTunnel at hplace ⊢
  cases h : e.tunnels.get rec.name with
  | none => exact ⟨.created, rfl, fun hc => by cases hc⟩
  | some old =>
    simp only [h] at hplace
    dsimp only
    split
    · exact ⟨.moved, rfl, fun hc => by cases hc⟩
    next hsame =>
      simp only [not_or, not_not] at hsame
      exact ⟨.updated, rfl, fun _ => by
        simpa [hsame] using hplace old rfl hsame.1 hsame.2.1 hsame.2.2⟩

theorem told_quiet (h : Told e e') :
    ∃ ev, e'.sink = e.sink ++ [ev] ∧ (pushed ev = false → ∀ n, place e' n = place e n) := by
  cases h with
  | setTunnel rec =>
    obtain ⟨change, hsink, hquiet⟩ := setTunnel_place e rec
    exact ⟨_, hsink, fun hp => hquiet (by simpa [pushed] using hp)⟩
  | @deleteTunnel name rec hrec =>
    unfold deleteTunnel
    rw [hrec]
    exact ⟨_, rfl, fun hp => by simp [pushed] at hp⟩
  | setAgent a => exact ⟨_, rfl, fun _ _ => rfl⟩
  | deleteAgent ha => exact ⟨_, rfl, fun _ _ => rfl⟩
  | setRelay r => exact ⟨_, rfl, fun _ _ => rfl⟩
  | deleteRelay hr => exact ⟨_, rfl, fun _ _ => rfl⟩
  | command cmd => exact ⟨_, rfl, fun _ _ => rfl⟩

theorem tells_quiet (h : Tells e e') :
    ∃ evs, e'.sink = e.sink ++ evs ∧
      ((∀ ev ∈ evs, pushed ev = false) → ∀ n, place e' n = place e n) := by
  induction h with
  | refl => exact ⟨[], (List.append_nil _).symm, fun _ _ => rfl⟩
  | tail _ ht ih =>
    obtain ⟨evs, hsink, hquiet⟩ := ih
    obtain ⟨ev, hsink', hquiet'⟩ := told_quiet ht
    refine ⟨evs ++ [ev], by rw [hsink', hsink, List.append_assoc], fun hall n => ?_⟩
    rw [hquiet' (hall ev (by simp)), hquiet fun ev' hev => hall ev' (by simp [hev])]

def ClaimsPort (t r : TunLiveTunnel) : Prop :=
  if hasPort t.type ∧ t.accessToken = false then t.publicPort = 0 ∨ t.publicPort = r.publicPort
  else r.publicPort = 0

def InPlace (req : TunClaimRequest) (t r : TunLiveTunnel) : Prop :=
  r.state = .active ∧ r.relayId = req.relayId ∧
    ((req.kind = .claim ∧ ClaimsPort t r) ∨
      (req.kind = .announce ∧ t.publicPort = r.publicPort ∧
        (t.state = .unspecified ∨ t.state = .active)))

def SameTargets (t r : TunLiveTunnel) : Prop :=
  (∀ d, d ∈ t.domains ↔ d ∈ r.domains) ∧ t.accessToken = r.accessToken ∧ t.simulated = r.simulated

def ListsSameTargets (e : Engine) : Call → Prop
  | .handle req => ∀ t ∈ req.tunnels, ∀ r, e.tunnels.get t.name = some r → InPlace req t r →
      SameTargets t r
  | _ => True

theorem check_port {spec : TunLiveTunnel} {st : Staged}
    (h : e.check cfg env req spec st = .ok rec) :
    rec = { claimed env req spec with publicPort := rec.publicPort } ∧ ClaimsPort spec rec := by
  refine ⟨(check_ok h).1, ?_⟩
  have hport := (checked h).port
  unfold Engine.PortFor at hport
  unfold ClaimsPort
  split at hport
  next hp =>
    rw [if_pos hp]
    by_cases h0 : spec.publicPort = 0
    · exact .inl h0
    · exact .inr (port_wanted (wantedPort_requested _ _ h0) h0 hport).symm
  next hp =>
    rw [if_neg hp]
    exact hport

theorem stageAll_from {specs : List TunLiveTunnel} {st st' : Staged}
    (h : e.stageAll cfg env req specs st = .ok st') (hrec : st'.recs.get n = some rec) :
    st.recs.get n = some rec ∨ ∃ spec ∈ specs, ∃ st1, e.check cfg env req spec st1 = .ok rec := by
  induction specs generalizing st with
  | nil =>
    cases h
    exact .inl hrec
  | cons spec specs ih =>
    unfold stageAll at h
    split at h
    · cases h
    split at h
    · cases h
    split at h
    · cases h
    next rec1 hc =>
    rcases ih h with hput | ⟨spec1, hmem, hfrom⟩
    · have hput' : (st.recs.put rec1).get n = some rec := hput
      rw [Table.get_put] at hput'
      split at hput'
      · cases hput'
        exact .inr ⟨spec, List.mem_cons_self, st, hc⟩
      · exact .inl hput'
    · exact .inr ⟨spec1, List.mem_cons_of_mem spec hmem, hfrom⟩

theorem claim_from (h : (e.claim cfg env req).1.tunnels.get n = some rec) :
    e.tunnels.get n = some rec ∨
      ∃ spec ∈ req.tunnels, ∃ st, e.check cfg env req spec st = .ok rec := by
  unfold claim at h
  split at h
  · exact .inl h
  split at h
  · exact .inl h
  split at h
  · exact .inl h
  next st hst =>
  dsimp only at h
  rw [(told_same _ _).tunnels] at h
  rcases foldl_setTunnel_get h with ⟨hmem, _⟩ | ⟨hget, _⟩
  · obtain ⟨spec, _, hget⟩ := List.mem_filterMap.mp hmem
    rcases stageAll_from hst hget with hnone | hfrom
    · exact absurd hnone (by simp [Staged.none])
    · exact .inr hfrom
  · exact .inl hget

theorem alike_of_place (hplace : place e' n = place e n) (hr : e.tunnels.get n = some r)
    (hr' : e'.tunnels.get n = some r') (hsame : SameTargets r' r) : Alike r r' := by
  unfold place at hplace
  rw [hr, hr', Option.map_some, Option.map_some, Option.some.injEq, Prod.mk.injEq,
    Prod.mk.injEq] at hplace
  exact ⟨(Table.key_of_get hr').trans (Table.key_of_get hr).symm, hplace.1, hplace.2.1,
    hplace.2.2, hsame.2.1, hsame.2.2, hsame.1⟩

theorem sameTargets_refl (r : TunLiveTunnel) : SameTargets r r := ⟨fun _ => Iff.rfl, rfl, rfl⟩

theorem sameTargets_of_same (h : Same r r') : SameTargets r' r := by
  rw [h]
  exact sameTargets_refl r

theorem quiet_targets (h : ListsSameTargets e c)
    (hplace : ∀ n, place (e.call cfg env c) n = place e n) (hr : e.tunnels.get n = some r)
    (hact : r.state = .active) (hr' : (e.call cfg env c).tunnels.get n = some r') :
    SameTargets r' r := by
  have hn := hplace n
  unfold place at hn
  rw [hr, hr', Option.map_some, Option.map_some, Option.some.injEq, Prod.mk.injEq,
    Prod.mk.injEq] at hn
  obtain ⟨hrelay, hstate, hport⟩ := hn
  rcases e.call_cases cfg env c with hup | ⟨req, recs, rfl, hk, _⟩ | ⟨req, _, _, rfl, hann, _⟩
  · obtain ⟨r0, hr0, hsame⟩ := hup.kept hr'
    rw [hr, Option.some.injEq] at hr0
    exact sameTargets_of_same (hr0 ▸ hsame)
  · have hclaim : (e.handle cfg env req).1 = e ∨
        (e.handle cfg env req).1 = (e.claim cfg env req).1 := by
      unfold handle
      rw [hk]
      split
      · exact .inl rfl
      · exact .inr rfl
    have hget : e.tunnels.get n = some r' ∨
        ∃ spec ∈ req.tunnels, ∃ st, e.check cfg env req spec st = .ok r' := by
      have hcall : (e.handle cfg env req).1.tunnels.get n = some r' := hr'
      rcases hclaim with hsame | hsame
      · exact .inl (hsame ▸ hcall)
      · exact claim_from (hsame ▸ hcall)
    rcases hget with hkept | ⟨spec, hmem, st, hcheck⟩
    · rw [hr, Option.some.injEq] at hkept
      exact hkept ▸ sameTargets_refl r
    · obtain ⟨heq, hp⟩ := check_port hcheck
      have hname : spec.name = n := by
        rw [← Table.key_of_get hr', heq]
        rfl
      have hplaced : InPlace req spec r := by
        refine ⟨hact, ?_, .inl ⟨hk, ?_⟩⟩
        · rw [← hrelay, heq]
          rfl
        · unfold ClaimsPort at hp ⊢
          rw [← hport]
          exact hp
      have htargets := h spec hmem r (hname ▸ hr) hplaced
      rw [heq]
      exact htargets
  · have hcall : (e.announce cfg env req).1.tunnels.get n = some r' := by
      have hhandle : (e.call cfg env (.handle req)) = (e.announce cfg env req).1 := by
        show (e.handle cfg env req).1 = _
        unfold handle
        rw [if_neg hann.2.1, hann.1]
      exact hhandle ▸ hr'
    rw [announce_get hann] at hcall
    split at hcall
    · obtain ⟨t, ht, rfl⟩ := Option.map_eq_some_iff.mp hcall
      obtain ⟨hmem, _, hname⟩ := mem_listings.mp (List.mem_of_getLast? ht)
      refine h t hmem r (hname ▸ hr) ⟨hact, hrelay.symm, .inr ⟨hann.1, hport, ?_⟩⟩
      rw [hact] at hstate
      unfold listed at hstate
      by_cases hu : t.state = .unspecified
      · exact .inl hu
      · exact .inr (by simpa [hu] using hstate)
    · rw [hr, Option.map_some, Option.some.injEq] at hcall
      rw [← hcall]
      unfold unreported
      split
      · exact sameTargets_refl r
      · exact sameTargets_refl r

theorem keeps_of_quiet (h : ListsSameTargets e c)
    (hplace : ∀ n, place (e.call cfg env c) n = place e n) :
    Keeps e (e.call cfg env c) ∧ Keeps (e.call cfg env c) e := by
  have halike : ∀ n r r', e.tunnels.get n = some r →
      (e.call cfg env c).tunnels.get n = some r' → r.state = .active → Alike r r' :=
    fun n r r' hr hr' hact =>
      alike_of_place (hplace n) hr hr' (quiet_targets h hplace hr hact hr')
  have hboth : ∀ n, ((e.call cfg env c).tunnels.get n).isSome = (e.tunnels.get n).isSome := by
    intro n
    simpa [place] using congrArg Option.isSome (hplace n)
  constructor
  · intro n r hr hact
    have hsome : ((e.call cfg env c).tunnels.get n).isSome := by rw [hboth, hr]; rfl
    obtain ⟨r', hr'⟩ := Option.isSome_iff_exists.mp hsome
    exact ⟨r', hr', halike n r r' hr hr' hact⟩
  · intro n r' hr' hact
    have hsome : (e.tunnels.get n).isSome := by rw [← hboth, hr']; rfl
    obtain ⟨r, hr⟩ := Option.isSome_iff_exists.mp hsome
    have hstate : r'.state = r.state := by
      have hn := hplace n
      unfold place at hn
      rw [hr, hr', Option.map_some, Option.map_some, Option.some.injEq, Prod.mk.injEq,
        Prod.mk.injEq] at hn
      exact hn.2.1
    exact ⟨r, hr, (halike n r r' hr hr' (hstate ▸ hact)).symm⟩

/-- A call that changes the routing pushes a change to the edges and relays, as
long as a claim or an announcement that leaves an ACTIVE record on its relay
and port lists the domains and flags the record has. -/
theorem routing_change_pushed (cfg : Config) (e : Engine) (env : Env) (c : Call)
    (h : ListsSameTargets e c) (hdiff : ¬ SameRouting e (e.call cfg.withDefaults env c)) :
    ∃ ev ∈ toldSince e (e.call cfg.withDefaults env c), pushed ev = true := by
  obtain ⟨evs, hsink, hquiet⟩ := tells_quiet (e.call_tells cfg.withDefaults env c)
  have htold : toldSince e (e.call cfg.withDefaults env c) = evs := by
    rw [toldSince, hsink, List.drop_left]
  rw [htold]
  by_contra hnone
  have hplace := hquiet fun ev hev => by
    cases hp : pushed ev with
    | false => rfl
    | true => exact absurd ⟨ev, hev, hp⟩ hnone
  obtain ⟨hkeep, hback⟩ := keeps_of_quiet h hplace
  exact hdiff ⟨fun key dest => ⟨hkeep.routes.1 key dest, hback.routes.1 key dest⟩,
    fun port dest => ⟨hkeep.routes.2 port dest, hback.routes.2 port dest⟩⟩

def reclaim (session : String) (tunnels : List TunLiveTunnel) : Call :=
  .handle { kind := .claim, relayId := "r0", sessionId := session, agentId := "a1"
            tokenId := "tok1", tunnels := tunnels }

def plainTunnel : TunLiveTunnel := { name := "n", type := .http, domains := ["d.org"] }

def servedPlain : Engine :=
  Engine.new.after sampleConfig [({ now := 0 }, reclaim "s1" [plainTunnel])]

theorem servedPlain_tunnels (t : TunLiveTunnel) (h : servedPlain.tunnels.get t.name = some t) :
    t = { plainTunnel with
          relayId := "r0", sessionId := "s1", agentId := "a1", tokenId := "tok1"
          state := .active } := by
  have hmem := (Table.mem_values _ t).mpr h
  have hvalues : servedPlain.tunnels.values = [{ plainTunnel with
      relayId := "r0", sessionId := "s1", agentId := "a1", tokenId := "tok1"
      state := .active }] := by decide
  rw [hvalues] at hmem
  exact List.mem_singleton.mp hmem

theorem second_tunnel_pushed :
    ∃ ev ∈ toldSince servedPlain (servedPlain.call sampleConfig.withDefaults { now := 0 }
      (reclaim "s2" [plainTunnel, { name := "m", type := .http }])), pushed ev = true := by
  refine routing_change_pushed sampleConfig servedPlain { now := 0 } _ ?_ ?_
  · intro t ht r hr _
    have hrec := servedPlain_tunnels r (Table.key_of_get hr ▸ hr)
    rcases List.mem_cons.mp ht with rfl | ht
    · rw [hrec]
      exact ⟨fun _ => Iff.rfl, rfl, rfl⟩
    · rw [List.mem_singleton.mp ht] at hr
      exact absurd (show servedPlain.tunnels.get "m" = none by decide) (by simp [hr])
  · intro hsame
    obtain ⟨t, ht, _, hkey, _⟩ := (hsame.1 "m" ("r0", false)).mpr
      ⟨{ name := "m", type := .http, relayId := "r0", sessionId := "s2", agentId := "a1"
         tokenId := "tok1", state := .active }, by decide, by decide, .inl rfl, rfl⟩
    rw [servedPlain_tunnels t ht] at hkey
    exact absurd hkey (by decide)

/-- The agent's next session asks for one more domain: the edges hear nothing of
it. -/
theorem added_domain_not_pushed :
    Run (Claims.Step sampleConfig) new [({ now := 0 }, reclaim "s1" [plainTunnel])]
        servedPlain ∧
      ¬ SameRouting servedPlain (servedPlain.call sampleConfig.withDefaults { now := 0 }
        (reclaim "s2" [{ plainTunnel with domains := ["d.org", "e.org"] }])) ∧
      ∀ ev ∈ toldSince servedPlain (servedPlain.call sampleConfig.withDefaults { now := 0 }
        (reclaim "s2" [{ plainTunnel with domains := ["d.org", "e.org"] }])), pushed ev = false := by
  refine ⟨run_after sampleConfig new _, ?_, by decide⟩
  intro hsame
  obtain ⟨t, ht, _, hkey, _⟩ := (hsame.1 "e.org" ("r0", false)).mpr
    ⟨{ plainTunnel with
        relayId := "r0", sessionId := "s2", agentId := "a1", tokenId := "tok1", state := .active
        domains := ["d.org", "e.org"] }, by decide, by decide, .inr (by decide), rfl⟩
  rw [servedPlain_tunnels t ht] at hkey
  exact absurd hkey (by decide)

end L8Tunnel.Live
