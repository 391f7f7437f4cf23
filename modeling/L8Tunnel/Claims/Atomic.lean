import L8Tunnel.Claims.Single

/-! # A claim is atomic and grants what the rules allow -/

namespace L8Tunnel.Claims
open Base Registry

def InRange (rules : Rules) (p : Int32) : Prop :=
  rules.portMin ≤ p.toInt ∧ p.toInt ≤ rules.portMax

/-- The rules' range is one that `ParsePortRange` gives, and the request keeps to it. -/
structure RangeFits (cfg : Config) (req : TunClaimRequest) : Prop where
  rules : 1 ≤ cfg.rules.portMin ∧ cfg.rules.portMin ≤ cfg.rules.portMax ∧
    cfg.rules.portMax ≤ 65535
  portMin : req.portMin = 0 ∨ InRange cfg.rules req.portMin
  portMax : req.portMax = 0 ∨ InRange cfg.rules req.portMax

def takenFrom (e : Engine) (req : TunClaimRequest) (spec : TunLiveTunnel) : Option TunLiveTunnel :=
  (e.tunnels.get spec.name).filter fun old => old.state = .active ∧ old.relayId ≠ req.relayId

def Event.isCommand : Event → Bool
  | .command _ => true
  | _ => false

def connected (e : Engine) (tokenID : String) : ℕ :=
  e.tunnels.values.countP fun t => t.tokenId = tokenID ∧ t.state = .active

/-- No record of another name has the record's port or one of its domains. -/
structure Alone (e : Engine) (rec : TunLiveTunnel) : Prop where
  port : rec.publicPort ≠ 0 → ∀ n other, e.tunnels.get n = some other → n ≠ rec.name →
    other.publicPort ≠ rec.publicPort
  domains : ∀ d ∈ rec.domains, ∀ n other, e.tunnels.get n = some other → n ≠ rec.name →
    d ∉ other.domains

/-- `rec` is the listing `spec` as the request's relay, agent, token and session have it,
with a port of the rules' range if its type has one: the requested port, if any. -/
structure Grant (cfg : Config) (env : Env) (req : TunClaimRequest) (e e' : Engine)
    (spec rec : TunLiveTunnel) : Prop where
  listing : rec = { Engine.claimed env req spec with publicPort := rec.publicPort }
  active : rec.state = .active
  relayId : rec.relayId = req.relayId
  agentId : rec.agentId = req.agentId
  tokenId : rec.tokenId = req.tokenId
  sessionId : rec.sessionId = req.sessionId
  holder : ∀ old, e.tunnels.get spec.name = some old → old.tokenId = req.tokenId ∧
    (old.state = .active → old.agentId = req.agentId ∧ old.sessionId ≠ req.sessionId)
  site : env.isSiteName (spec.name ++ "." ++ cfg.rules.baseDomain) = false
  reserved : ∀ r ∈ env.reservations, r.name = spec.name → r.tokenId = req.tokenId
  ported : if hasPort spec.type ∧ spec.accessToken = false then
    rec.publicPort ≠ 0 ∧ InRange cfg.rules rec.publicPort ∧
      (spec.publicPort ≠ 0 → rec.publicPort = spec.publicPort) else rec.publicPort = 0
  portReserved : rec.publicPort ≠ 0 → ∀ r ∈ env.reservations, r.name ≠ spec.name →
    r.publicPort ≠ rec.publicPort
  before : Alone e rec
  after : Alone e' rec

/-- What an accepted CLAIM does, over all its listings. -/
structure Grants (cfg : Config) (env : Env) (req : TunClaimRequest) (e e' : Engine) : Prop where
  once : (req.tunnels.map (·.name)).Nodup
  granted : ∀ spec ∈ req.tunnels, ∃ rec, e'.tunnels.get spec.name = some rec ∧
    Grant cfg env req e e' spec rec
  others : ∀ n, (∀ spec ∈ req.tunnels, spec.name ≠ n) → e'.tunnels.get n = e.tunnels.get n
  rest : e'.agents = e.agents ∧ e'.relays = e.relays
  capped : 0 < req.maxTunnels.toInt → (connected e' req.tokenId : ℤ) ≤ req.maxTunnels.toInt
  told : ∃ events, e'.sink = e.sink ++ events ∧
    events.filter Event.isCommand = (req.tunnels.filterMap (takenFrom e req)).map Engine.takenOver

theorem firstFree_between {free : Int32 → Bool} {hi lo q : Int32} {fuel : ℕ}
    (hhi : hi.toInt ≤ 65535) (hlo : 0 ≤ lo.toInt) (h : firstFree free hi fuel lo = some q) :
    lo.toInt ≤ q.toInt ∧ q.toInt ≤ hi.toInt := by
  induction fuel generalizing lo with
  | zero => cases h
  | succ fuel ih =>
    unfold firstFree at h
    split at h
    next hle =>
      rw [Int32.le_iff_toInt_le] at hle
      split at h
      · cases h
        exact ⟨Int.le_refl _, hle⟩
      · -- the counter does not wrap below 65535
        have hnext : (lo + 1).toInt = lo.toInt + 1 := toInt_succ (by omega)
        obtain ⟨h1, h2⟩ := ih (by omega) h
        exact ⟨by omega, h2⟩
    next => cases h

section
variable {cfg : Config} {env : Env} {req : TunClaimRequest} {e : Engine}

theorem RangeFits.bounds (h : RangeFits cfg req) :
    cfg.rules.portMin ≤ (Engine.portRange cfg req).1.toInt ∧
      (Engine.portRange cfg req).2.toInt ≤ cfg.rules.portMax := by
  obtain ⟨h1, h2, h3⟩ := h.rules
  unfold Engine.portRange
  split
  · dsimp only
    rw [toInt_ofInt (by omega) (by omega), toInt_ofInt (by omega) (by omega)]
    exact ⟨Int.le_refl _, Int.le_refl _⟩
  next hmin =>
    refine ⟨(h.portMin.resolve_left hmin).1, ?_⟩
    rcases h.portMax with h0 | hin
    · have hzero : (0 : Int32).toInt = 0 := rfl
      rw [h0, hzero]
      omega
    · exact hin.2

variable {spec rec : TunLiveTunnel} {reservations : List TunReservation} {st : Staged}
  {recs : Table TunLiveTunnel.name}

theorem port_inRange (hfits : RangeFits cfg req) {holder : Option TunLiveTunnel}
    {resv : Option TunReservation} {staged : GoMap Int32 String} {p : Int32}
    (h : e.port cfg req spec holder resv reservations staged = .ok p) : InRange cfg.rules p := by
  obtain ⟨hlo, hhi⟩ := hfits.bounds
  obtain ⟨h1, h2, h3⟩ := hfits.rules
  unfold Engine.port at h
  dsimp only at h
  split at h
  next hprev =>
    cases h
    obtain ⟨-, hge, hle, -⟩ := hprev
    rw [Int32.le_iff_toInt_le] at hge hle
    exact ⟨by omega, by omega⟩
  split at h
  · split at h
    · cases h
    next hin =>
    split at h
    · cases h
    · cases h
      rw [Int32.lt_iff_toInt_lt, Int32.lt_iff_toInt_lt, toInt_ofInt (by omega) (by omega),
        toInt_ofInt (by omega) (by omega)] at hin
      exact ⟨by omega, by omega⟩
  · split at h
    next q hq =>
      cases h
      obtain ⟨hge, hle⟩ := firstFree_between (by omega) (by omega) hq
      exact ⟨by omega, by omega⟩
    next => cases h

theorem registryDecide_capped {holder : Option Holder} {tokenID agentID : String}
    {active maxTunnels : ℤ} {d : Decision}
    (h : registryDecide holder tokenID agentID active maxTunnels = .ok d) :
    ¬ (0 < maxTunnels ∧ maxTunnels ≤ active) := by
  unfold registryDecide at h
  intro hcap
  cases holder with
  | none =>
    dsimp only at h
    rw [if_pos hcap] at h
    cases h
  | some held =>
    dsimp only at h
    rw [if_pos hcap] at h
    split at h
    · cases h
    split at h
    · cases h
    · cases h

theorem checked_ported (hfits : RangeFits cfg req) (h : Engine.Checked e cfg env req spec st rec) :
    if hasPort spec.type ∧ spec.accessToken = false then
      rec.publicPort ≠ 0 ∧ InRange cfg.rules rec.publicPort ∧
        (spec.publicPort ≠ 0 → rec.publicPort = spec.publicPort) else rec.publicPort = 0 := by
  have hport := h.port
  unfold Engine.PortFor at hport
  split at hport
  next hgets =>
    rw [if_pos hgets]
    obtain ⟨hlow, hhigh⟩ := port_inRange hfits hport
    refine ⟨fun hzero => ?_, ⟨hlow, hhigh⟩, fun hspec => ?_⟩
    · have h0 : (0 : Int32).toInt = 0 := rfl
      have hpos := hfits.rules.1
      rw [hzero, h0] at hlow
      omega
    · exact Engine.port_wanted (Engine.wantedPort_requested _ _ hspec) hspec hport
  next hgets => rwa [if_neg hgets]

theorem mem_reservationOf (hone : reservations.Pairwise fun r r' => r.name ≠ r'.name)
    {r : TunReservation} (hr : r ∈ reservations) : reservationOf reservations r.name = some r := by
  have hfold : ∀ (rs : List TunReservation) (name : String) (found : Option TunReservation),
      (∀ r ∈ rs, r.name ≠ name) →
      rs.foldl (fun resv r => if r.name = name then some r else resv) found = found := by
    intro rs name found hne
    induction rs with
    | nil => rfl
    | cons x rs ih =>
      rw [List.foldl_cons, if_neg (hne x List.mem_cons_self)]
      exact ih fun r hr => hne r (List.mem_cons_of_mem _ hr)
  unfold reservationOf
  generalize hfound : (none : Option TunReservation) = found
  clear hfound
  induction reservations generalizing found with
  | nil => cases hr
  | cons x rs ih =>
    obtain ⟨hx, hrest⟩ := List.pairwise_cons.mp hone
    rw [List.foldl_cons]
    rcases List.mem_cons.mp hr with rfl | hr
    · rw [if_pos rfl]
      exact hfold rs r.name _ fun r' hr' heq => hx r' hr' heq.symm
    · exact ih hrest hr _

def load (e : Engine) (tokenID : String) (recs : Table TunLiveTunnel.name) : ℤ :=
  (e.tunnels.values.countP fun t =>
    t.tokenId = tokenID ∧ t.state = .active ∧ recs.get t.name = none : ℕ) + recs.map.len

theorem load_put (tokenID : String) (hnew : recs.get rec.name = none) :
    load e tokenID (recs.put rec) = e.active tokenID rec.name recs + 1 := by
  have hlen : (recs.put rec).map.len = recs.map.len + 1 := by
    have hout : rec.name ∉ recs.map := by
      rw [← AList.lookup_eq_none]
      exact hnew
    show (AList.insert rec.name rec recs.map).entries.length = _
    rw [AList.entries_insert_of_notMem hout]
    rfl
  have hcount : e.tunnels.values.countP (fun t =>
      t.tokenId = tokenID ∧ t.state = .active ∧ (recs.put rec).get t.name = none) =
      e.tunnels.values.countP (fun t =>
        t.tokenId = tokenID ∧ t.name ≠ rec.name ∧ t.state = .active ∧ recs.get t.name = none) := by
    refine List.countP_congr fun t _ => ?_
    simp only [decide_eq_true_eq, Table.get_put]
    by_cases hn : t.name = rec.name
    · simp [hn]
    · simp [hn]
  unfold load Engine.active
  rw [hlen, hcount]
  push_cast
  omega

/-- The loop of `check` over the listings, from one staging to the next. -/
structure Looped (req : TunClaimRequest) (e : Engine)
    (specs : List TunLiveTunnel) (st st' : Staged) : Prop where
  once : (specs.map (·.name)).Nodup
  fresh : ∀ spec ∈ specs, st.recs.get spec.name = none
  keys : ∀ n rec, st'.recs.get n = some rec → st.recs.get n = some rec ∨
    ∃ spec ∈ specs, spec.name = n
  takeovers : st'.takeovers = st.takeovers ++ specs.filterMap (takenFrom e req)
  capped : 0 < req.maxTunnels.toInt → specs ≠ [] →
    load e req.tokenId st'.recs ≤ req.maxTunnels.toInt

theorem stage_takeovers (hname : rec.name = spec.name) :
    (e.stage req st rec).takeovers = st.takeovers ++ (takenFrom e req spec).toList := by
  unfold Engine.stage takenFrom
  dsimp only
  rw [hname]
  cases e.tunnels.get spec.name with
  | none => simp
  | some old =>
    dsimp only
    rw [Option.filter_some]
    by_cases htaken : old.state = .active ∧ old.relayId ≠ req.relayId
    · rw [if_pos htaken, if_pos (by simpa using htaken)]
      rfl
    · rw [if_neg htaken, if_neg (by simpa using htaken), Option.toList_none, List.append_nil]

theorem stageAll_looped {specs : List TunLiveTunnel} {st' : Staged}
    (h : e.stageAll cfg env req specs st = .ok st') : Looped req e specs st st' := by
  induction specs generalizing st with
  | nil =>
    cases h
    refine ⟨List.nodup_nil, fun s hs => ?_, fun n rec hr => .inl hr, ?_,
      fun _ hne => absurd rfl hne⟩
    · cases hs
    · rw [List.filterMap_nil, List.append_nil]
  | cons spec specs ih =>
    unfold Engine.stageAll at h
    split at h
    · cases h
    split at h
    · cases h
    next hnew =>
    split at h
    · cases h
    next rec hc =>
    obtain ⟨heq, -⟩ := Engine.check_ok hc
    obtain ⟨d, hdec⟩ := (Engine.checked hc).decision
    have hcap := registryDecide_capped hdec
    have hname : rec.name = spec.name := by
      rw [heq]
      rfl
    have hnone : st.recs.get spec.name = none := by simpa using hnew
    have hput : (e.stage req st rec).recs = st.recs.put rec := rfl
    obtain ⟨honce, hfresh, hkeys, htake, hload⟩ := ih h
    -- the names that follow are neither staged before nor this one
    have hrest : ∀ s ∈ specs, s.name ≠ spec.name ∧ st.recs.get s.name = none := by
      intro s hs
      have hget := hfresh s hs
      rw [hput, Table.get_put, hname] at hget
      split at hget
      · cases hget
      next hne => exact ⟨hne, hget⟩
    refine ⟨?_, ?_, fun n r hr => ?_, ?_, fun hmax _ => ?_⟩
    · rw [List.map_cons, List.nodup_cons]
      refine ⟨fun hmem => ?_, honce⟩
      obtain ⟨s, hs, hsn⟩ := List.mem_map.mp hmem
      exact (hrest s hs).1 hsn
    · exact List.forall_mem_cons.mpr ⟨hnone, fun s hs => (hrest s hs).2⟩
    · rcases hkeys n r hr with hget | ⟨s, hs, hspec⟩
      · rw [hput, Table.get_put] at hget
        split at hget
        next hn =>
          cases hget
          rw [hname] at hn
          exact .inr ⟨spec, List.mem_cons_self, hn.symm⟩
        next => exact .inl hget
      · exact .inr ⟨s, List.mem_cons_of_mem _ hs, hspec⟩
    · rw [htake, stage_takeovers hname, List.append_assoc, List.filterMap_cons]
      cases takenFrom e req spec <;> rfl
    · by_cases hlast : specs = []
      · subst hlast
        cases h
        rw [hput, load_put _ (by rw [hname]; exact hnone), hname]
        omega
      · exact hload hmax hlast

theorem claim_inv (h : (e.claim cfg env req).2.error = .unspecified) :
    ∃ st, e.stageAll cfg env req req.tunnels .none = .ok st ∧ req.tunnels ≠ [] ∧
      e.claim cfg env req =
        (st.takeovers.foldl (fun e old => e.report (Engine.takenOver old))
          ((req.tunnels.filterMap fun spec => st.recs.get spec.name).foldl Engine.setTunnel e),
        { tunnels := req.tunnels.filterMap fun spec => st.recs.get spec.name }) := by
  unfold Engine.claim at h ⊢
  split at h
  · cases h
  next hne =>
  rw [if_neg hne]
  split at h
  · cases h
  next hids =>
  rw [if_neg hids]
  split at h
  next r hr => exact absurd h (Engine.stageAll_refused hr)
  next st hst =>
    rw [hst]
    exact ⟨st, rfl, hne, rfl⟩

theorem foldl_setTunnel_absent {recs : List TunLiveTunnel} {n : String}
    (h : ∀ v ∈ recs, v.name ≠ n) :
    (recs.foldl Engine.setTunnel e).tunnels.get n = e.tunnels.get n := by
  induction recs generalizing e with
  | nil => rfl
  | cons v recs ih =>
    obtain ⟨hv, hrest⟩ := List.forall_mem_cons.mp h
    rw [List.foldl_cons, ih hrest, Engine.setTunnel_tunnels,
      Table.get_put_ne _ _ fun hn => hv hn.symm]

theorem stored_get (hkeys : ∀ n rec, st.recs.get n = some rec → ∃ spec ∈ req.tunnels, spec.name = n)
    (n : String) :
    ((req.tunnels.filterMap fun spec => st.recs.get spec.name).foldl Engine.setTunnel
      e).tunnels.get n = (st.recs.get n).or (e.tunnels.get n) := by
  cases hrec : st.recs.get n with
  | none =>
    rw [Option.none_or]
    refine foldl_setTunnel_absent fun v hv hn => ?_
    have hget := Staged.get_of_mem hv
    rw [hn, hrec] at hget
    cases hget
  | some rec =>
    obtain ⟨spec, hspec, hn⟩ := hkeys n rec hrec
    have hin : rec ∈ req.tunnels.filterMap (fun spec => st.recs.get spec.name) :=
      List.mem_filterMap.mpr ⟨spec, hspec, by rw [hn]; exact hrec⟩
    have hname : rec.name = n := Table.key_of_get hrec
    cases hget : ((req.tunnels.filterMap fun spec => st.recs.get spec.name).foldl
        Engine.setTunnel e).tunnels.get n with
    | none => exact absurd hname (Engine.foldl_setTunnel_none hget rec hin)
    | some rec' =>
      rcases Engine.foldl_setTunnel_get hget with ⟨hin', hn'⟩ | ⟨-, hout⟩
      · have hsame := Staged.get_of_mem hin'
        rw [hn', hrec] at hsame
        rw [← hsame]
        rfl
      · exact absurd hname (hout rec hin)

theorem foldl_setTunnel_rest (recs : List TunLiveTunnel) :
    (recs.foldl Engine.setTunnel e).agents = e.agents ∧
    (recs.foldl Engine.setTunnel e).relays = e.relays ∧
    ∃ events, (recs.foldl Engine.setTunnel e).sink = e.sink ++ events ∧
      events.filter Event.isCommand = [] := by
  induction recs generalizing e with
  | nil => exact ⟨rfl, rfl, [], by simp, rfl⟩
  | cons rec recs ih =>
    obtain ⟨hagents, hrelays, events, hsink, hnone⟩ := ih (e := e.setTunnel rec)
    obtain ⟨hrelays', hagents'⟩ := Engine.setTunnel_rest e rec
    obtain ⟨change, hone⟩ : ∃ change,
        (e.setTunnel rec).sink = e.sink ++ [.tunnelChanged rec change] := by
      unfold Engine.setTunnel
      cases e.tunnels.get rec.name <;> exact ⟨_, rfl⟩
    refine ⟨hagents.trans hagents', hrelays.trans hrelays',
      .tunnelChanged rec change :: events, ?_, ?_⟩
    · rw [List.foldl_cons, hsink, hone, List.append_assoc]
      rfl
    · exact hnone

theorem foldl_report (olds : List TunLiveTunnel) :
    (olds.foldl (fun e old => e.report (Engine.takenOver old)) e).agents = e.agents ∧
    (olds.foldl (fun e old => e.report (Engine.takenOver old)) e).relays = e.relays ∧
    (olds.foldl (fun e old => e.report (Engine.takenOver old)) e).sink =
      e.sink ++ olds.map Engine.takenOver := by
  induction olds generalizing e with
  | nil => exact ⟨rfl, rfl, by simp⟩
  | cons old olds ih =>
    obtain ⟨hagents, hrelays, hsink⟩ := ih (e := e.report (Engine.takenOver old))
    refine ⟨hagents, hrelays, ?_⟩
    rw [List.foldl_cons, hsink, List.map_cons]
    simp [Engine.report]

theorem connected_le_load {e' : Engine} (tokenID : String)
    (h : ∀ n, e'.tunnels.get n = (recs.get n).or (e.tunnels.get n)) :
    (connected e' tokenID : ℤ) ≤ load e tokenID recs := by
  have hsub : ∀ n ∈ e'.tunnels.map.keys.filter (fun n => (e'.tunnels.map.get n).any fun t =>
      decide (t.tokenId = tokenID ∧ t.state = .active)),
      n ∈ e.tunnels.map.keys.filter (fun n => (e.tunnels.map.get n).any fun t =>
        decide (t.tokenId = tokenID ∧ t.state = .active ∧ recs.get t.name = none)) ++
        recs.map.keys := by
    intro n hn
    have hany := (List.mem_filter.mp hn).2
    have hget : e'.tunnels.map.get n = (recs.get n).or (e.tunnels.get n) := h n
    cases hrec : recs.get n with
    | some rec => exact List.mem_append_right _ ((GoMap.mem_keys _ _).mpr ⟨rec, hrec⟩)
    | none =>
      rw [hget, hrec, Option.none_or] at hany
      cases hold : e.tunnels.get n with
      | none =>
        rw [hold] at hany
        cases hany
      | some t =>
        rw [hold] at hany
        have hname : t.name = n := Table.key_of_get hold
        refine List.mem_append_left _ (List.mem_filter.mpr
          ⟨(GoMap.mem_keys _ _).mpr ⟨t, hold⟩, ?_⟩)
        have hmap : e.tunnels.map.get n = some t := hold
        rw [hmap]
        simp only [Option.any_some, decide_eq_true_eq] at hany ⊢
        exact ⟨hany.1, hany.2, by rw [hname]; exact hrec⟩
  have hlen := (List.subperm_of_subset (e'.tunnels.map.keys_nodup.filter _) hsub).length_le
  rw [List.length_append] at hlen
  have hkeys : recs.map.keys.length = recs.map.len := List.length_map ..
  unfold connected load
  rw [show e'.tunnels.values = e'.tunnels.map.entries.map (·.2) from rfl,
    show e.tunnels.values = e.tunnels.map.entries.map (·.2) from rfl, GoMap.countP_values,
    GoMap.countP_values]
  omega

end

section
variable {cfg : Config} {env : Env} {req : TunClaimRequest} {e : Engine}

theorem Indexed.alone (h : Indexed e) {rec : TunLiveTunnel}
    (hrec : e.tunnels.get rec.name = some rec) : Alone e rec where
  port hp n other hn hne heq :=
    h.exclusive.port rec.name n rec other hrec hn (fun hr => hne hr.symm) hp heq.symm
  domains d hd n other hn hne hin :=
    h.exclusive.domain rec.name n rec other hrec hn (fun hr => hne hr.symm) d hd hin

theorem Indexed.alone_of_free (h : Indexed e) {rec : TunLiveTunnel}
    (hadm : Admitted e env req rec) : Alone e rec where
  port hp n other hn hne heq := by
    have hmem : rec.publicPort ∈ Engine.ports rec := (Engine.mem_ports _ _).mpr ⟨rfl, hp⟩
    have hother : rec.publicPort ∈ Engine.ports other :=
      (Engine.mem_ports _ _).mpr ⟨heq.symm, hp⟩
    exact hne (owner_eq h.ports (fun r hr => (h.unnamed r hr).1) (hadm.port _ hmem)
      ((h.ports _ n).mpr ⟨other, hn, hother⟩))
  domains d hd n other hn hne hin :=
    hne (owner_eq h.domains (fun r hr => (h.unnamed r hr).2) (hadm.domain d hd)
      ((h.domains d n).mpr ⟨other, hn, hin⟩))

theorem takenOver_commands (olds : List TunLiveTunnel) :
    (olds.map Engine.takenOver).filter Event.isCommand = olds.map Engine.takenOver := by
  rw [List.filter_eq_self]
  intro ev hev
  obtain ⟨old, -, rfl⟩ := List.mem_map.mp hev
  rfl

theorem claim_grants (hx : Indexed e) (hfits : RangeFits cfg req)
    (hone : env.reservations.Pairwise fun r r' => r.name ≠ r'.name)
    (h : (e.claim cfg env req).2.error = .unspecified) :
    Grants cfg env req e (e.claim cfg env req).1 := by
  obtain ⟨st, hst, hne, hclaim⟩ := claim_inv h
  have hg := Staged.stageAll_good hst Staged.none_good
  obtain ⟨honce, -, hkeys, htake, hcap⟩ := stageAll_looped hst
  have hspecs : ∀ n rec, st.recs.get n = some rec → ∃ spec ∈ req.tunnels, spec.name = n :=
    fun n rec hr => (hkeys n rec hr).resolve_left (by simp [Staged.none])
  rw [hclaim]
  dsimp only
  generalize hrecs : (req.tunnels.filterMap fun spec => st.recs.get spec.name).foldl
    Engine.setTunnel e = e1
  have hstored : ∀ n, e1.tunnels.get n = (st.recs.get n).or (e.tunnels.get n) := fun n =>
    hrecs ▸ stored_get hspecs n
  have hindexed : Indexed e1 := hrecs ▸ hx.granted (hg.granted req.tunnels)
  obtain ⟨hagents, hrelays, events, hsink, hquiet⟩ := foldl_setTunnel_rest (e := e)
    (req.tunnels.filterMap fun spec => st.recs.get spec.name)
  rw [hrecs] at hagents hrelays hsink
  obtain ⟨hagents', hrelays', hsink'⟩ := foldl_report (e := e1) st.takeovers
  have hsame := Engine.told_same st.takeovers e1
  have hall := hindexed.same hsame
  generalize List.foldl (fun e old => e.report (Engine.takenOver old)) e1 st.takeovers = e2
    at hagents' hrelays' hsink' hsame hall
  have hget : ∀ n, e2.tunnels.get n = (st.recs.get n).or (e.tunnels.get n) := fun n => by
    rw [hsame.tunnels]
    exact hstored n
  refine ⟨honce, fun spec hspec => ?_, fun n hn => ?_,
    ⟨hagents'.trans hagents, hrelays'.trans hrelays⟩, fun hmax => ?_,
    events ++ st.takeovers.map Engine.takenOver, ?_, ?_⟩
  · obtain ⟨rec, staged, hrec, hchecked⟩ := (Engine.stageAll_checked hst).2 spec hspec
    have hname : rec.name = spec.name := Table.key_of_get hrec
    have hadm := hg.admitted _ rec hrec
    have hrec2 : e2.tunnels.get spec.name = some rec := by
      rw [hget, hrec]
      rfl
    refine ⟨rec, hrec2, hchecked.record, hadm.active, hadm.relayId, hadm.agentId, hadm.tokenId,
      hadm.sessionId, hname ▸ hadm.holder, hchecked.site, fun r hr hrn => ?_,
      checked_ported hfits hchecked, fun hp r hr hrn heq => ?_, hx.alone_of_free hadm,
      hall.alone (hname ▸ hrec2)⟩
    · refine hadm.reserved r ?_
      rw [hname, ← hrn]
      exact mem_reservationOf hone hr
    · exact hrn ((hadm.reserved_port hp hr heq).trans hname)
  · have hnone : st.recs.get n = none := by
      cases hrec : st.recs.get n with
      | none => rfl
      | some rec =>
        obtain ⟨spec, hspec, hsn⟩ := hspecs n rec hrec
        exact absurd hsn (hn spec hspec)
    rw [hget, hnone, Option.none_or]
  · exact Int.le_trans (connected_le_load req.tokenId hget) (hcap hmax hne)
  · rw [hsink', hsink, List.append_assoc]
  · have htakeovers : st.takeovers = req.tunnels.filterMap (takenFrom e req) := htake
    rw [List.filter_append, hquiet, List.nil_append, takenOver_commands, htakeovers]

/-- A CLAIM that is refused leaves the engine as it was and tells nobody
anything; one that is accepted grants exactly its listings, as the rules allow. -/
def Atomic (cfg : Config) (env : Env) (req : TunClaimRequest) (e : Engine) : Prop :=
  ((e.handle cfg env req).2.error ≠ .unspecified → (e.handle cfg env req).1 = e) ∧
    ((e.handle cfg env req).2.error = .unspecified →
      Grants cfg env req e (e.handle cfg env req).1)

theorem claim_is_atomic (hx : Indexed e) (hfits : RangeFits cfg req)
    (hone : env.reservations.Pairwise fun r r' => r.name ≠ r'.name) (hkind : req.kind = .claim) :
    Atomic cfg env req e := by
  unfold Atomic
  unfold Engine.handle
  by_cases hid : req.relayId = ""
  · rw [if_pos hid]
    exact ⟨fun _ => rfl, fun h => by cases h⟩
  rw [if_neg hid, hkind]
  refine ⟨fun href => ?_, claim_grants hx hfits hone⟩
  rcases e.claim_cases cfg env req with ⟨r, -, hr⟩ | ⟨recs, olds, -, -, -, hok⟩
  · rw [hr]
  · rw [hok] at href
    exact absurd rfl href

end

def claimPort : TunClaimRequest :=
  { kind := .claim, relayId := "r1", sessionId := "s1", agentId := "A", tokenId := "T"
    maxTunnels := 2, tunnels := [{ name := "a", type := .tcp, publicPort := 22000 }] }

def claimTwo : TunClaimRequest :=
  { claimPort with
    relayId := "r2", sessionId := "s2"
    tunnels := [{ name := "a", type := .tcp },
      { name := "b", type := .tls, domains := ["b.example.org"] }] }

def claimedOnce : Engine := Engine.new.after sampleConfig [({ now := 0 }, .handle claimPort)]

/-- The agent comes back through another relay with one tunnel more: the tunnel it had
keeps its port, and the first relay is told. -/
theorem claim_is_atomic_takeover :
    (claimedOnce.handle sampleConfig { now := 0 } claimTwo).2.error = .unspecified ∧
    (claimedOnce.handle sampleConfig { now := 0 } claimTwo).2.tunnels.map (·.publicPort) =
      [22000, 0] ∧
    (claimTwo.tunnels.filterMap (takenFrom claimedOnce claimTwo)).map (·.relayId) = ["r1"] ∧
    Grants sampleConfig { now := 0 } claimTwo claimedOnce
      (claimedOnce.handle sampleConfig { now := 0 } claimTwo).1 := by
  have hx : Indexed claimedOnce := by
    refine Indexed.step Engine.new ({ now := 0 }, .handle claimPort) _ Indexed.new ⟨?_, rfl⟩
    intro req hreq hann
    cases hreq
    exact absurd hann.1 (by decide)
  have hfits : RangeFits sampleConfig claimTwo := ⟨by decide, .inl rfl, .inl rfl⟩
  exact ⟨rfl, rfl, rfl, (claim_is_atomic hx hfits .nil rfl).2 rfl⟩

def reservedTwice : Env :=
  { now := 0
    reservations := [{ reservationId := "1", name := "a", tokenId := "U" },
      { reservationId := "2", name := "a", tokenId := "T" }] }

def fromZero : Config := { rules := { baseDomain := "example.com", portMin := 0, portMax := 22999 } }

def claimAny : TunClaimRequest :=
  { claimPort with tunnels := [{ name := "a", type := .tcp }, { name := "b", type := .tcp }] }

/-- Each of the three conditions is needed. If a directory lists a name twice, only its
last reservation counts; the port of a record without a name is given away; and a range
that starts at 0 grants the port 0, twice. -/
theorem claim_not_atomic :
    (RangeFits sampleConfig claimPort ∧ Indexed Engine.new ∧
      ¬ Atomic sampleConfig reservedTwice claimPort Engine.new) ∧
    (RangeFits sampleConfig claimPort ∧
      Index.Exact Engine.ports unnamedHolder.tunnels unnamedHolder.byPort ∧
      Index.Exact TunLiveTunnel.domains unnamedHolder.tunnels unnamedHolder.byDomain ∧
      ¬ Atomic sampleConfig { now := 0 } claimPort unnamedHolder) ∧
    (claimAny.portMin = 0 ∧ claimAny.portMax = 0 ∧ Indexed Engine.new ∧
      (Engine.new.handle fromZero { now := 0 } claimAny).2.tunnels.map (·.publicPort) = [0, 0] ∧
      ¬ Atomic fromZero { now := 0 } claimAny Engine.new) := by
  have hfits : RangeFits sampleConfig claimPort := ⟨by decide, .inl rfl, .inl rfl⟩
  obtain ⟨hports, hdomains, hheld⟩ := unnamedHolder_exact
  refine ⟨⟨hfits, Indexed.new, fun h => ?_⟩, ⟨hfits, hports, hdomains, fun h => ?_⟩,
    rfl, rfl, Indexed.new, rfl, fun h => ?_⟩
  · obtain ⟨rec, -, hgrant⟩ := (h.2 rfl).granted _ List.mem_cons_self
    exact absurd (hgrant.reserved _ List.mem_cons_self rfl) (by decide)
  · obtain ⟨rec, hrec, hgrant⟩ := (h.2 rfl).granted _ List.mem_cons_self
    cases hrec
    exact hgrant.before.port (by decide) "" unnamed hheld (by decide) rfl
  · obtain ⟨rec, hrec, hgrant⟩ := (h.2 rfl).granted _ List.mem_cons_self
    cases hrec
    exact hgrant.ported.1 rfl

end L8Tunnel.Claims
