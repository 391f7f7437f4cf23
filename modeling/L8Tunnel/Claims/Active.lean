import L8Tunnel.Claims.Announce

/-! # The sessions the engine believes to serve a name -/

namespace L8Tunnel.Claims
open Base Engine

/-- The name is served by the relay, for the session. -/
def ActiveFor (relayId : String) (e : Engine) (n sessionId : String) : Prop :=
  ∃ r, e.tunnels.get n = some r ∧ r.state = .active ∧ r.relayId = relayId ∧
    r.sessionId = sessionId

instance (relayId : String) (e : Engine) (n sessionId : String) :
    Decidable (ActiveFor relayId e n sessionId) :=
  decidable_of_iff ((e.tunnels.get n).any fun r =>
    r.state = .active ∧ r.relayId = relayId ∧ r.sessionId = sessionId) (by
    unfold ActiveFor
    cases e.tunnels.get n <;> simp)

def Owned (relayId : String) (e : Engine) : Prop :=
  ∀ n r, e.tunnels.get n = some r → r.relayId = relayId

variable {relayId n s s' : String} {e e' : Engine} {cfg : Config} {env : Env}
  {req : TunClaimRequest}

theorem ActiveFor.unique (h : ActiveFor relayId e n s) (h' : ActiveFor relayId e n s') : s = s' := by
  obtain ⟨r, hr, _, _, hs⟩ := h
  obtain ⟨r', hr', _, _, hs'⟩ := h'
  have heq : r = r' := Option.some.inj (hr.symm.trans hr')
  rw [← hs, ← hs', heq]

theorem ActiveFor.relay_unique {relayId' : String} (h : ActiveFor relayId e n s)
    (h' : ActiveFor relayId' e n s) : relayId = relayId' := by
  obtain ⟨r, hr, _, hrelay, _⟩ := h
  obtain ⟨r', hr', _, hrelay', _⟩ := h'
  have heq : r = r' := Option.some.inj (hr.symm.trans hr')
  rw [← hrelay, ← hrelay', heq]

theorem activeFor_congr (h : e'.tunnels.get n = e.tunnels.get n) :
    ActiveFor relayId e' n s ↔ ActiveFor relayId e n s := by
  unfold ActiveFor
  rw [h]

theorem activeFor_none (h : e.tunnels.get n = none) : ¬ ActiveFor relayId e n s := by
  rintro ⟨r, hr, _⟩
  rw [h] at hr
  cases hr

theorem activeFor_some {r : TunLiveTunnel} (h : e.tunnels.get n = some r) :
    ActiveFor relayId e n s ↔ r.state = .active ∧ r.relayId = relayId ∧ r.sessionId = s := by
  constructor
  · rintro ⟨r', hr', hrest⟩
    cases h.symm.trans hr'
    exact hrest
  · exact fun hrest => ⟨r, h, hrest⟩

theorem Owned.upkeep (h : Owned relayId e) (hu : Upkeep e e') : Owned relayId e' := by
  intro n r hr
  obtain ⟨r₀, hr₀, hsame⟩ := hu.kept hr
  exact hsame.relayId.trans (h n r₀ hr₀)

theorem Owned.stored (h : Owned relayId e) {recs : List TunLiveTunnel}
    (hrecs : ∀ r ∈ recs, r.relayId = relayId) : Owned relayId (recs.foldl setTunnel e) := by
  intro n r hr
  rcases foldl_setTunnel_get hr with ⟨hm, _⟩ | ⟨hold, _⟩
  · exact hrecs r hm
  · exact h n r hold

theorem Owned.same (h : Owned relayId e) (hs : SameTunnels e e') : Owned relayId e' := by
  intro n r hr
  rw [hs.tunnels] at hr
  exact h n r hr

theorem Owned.handle (h : Owned req.relayId e) (cfg : Config) (env : Env) :
    Owned req.relayId (e.handle cfg env req).1 := by
  rcases e.call_cases cfg env (.handle req) with
    hu | ⟨_, recs, hc, _, hg, hsame⟩ | ⟨_, e1, us, hc, _, hs, _, hup⟩
  · exact h.upkeep hu
  · cases hc
    exact (h.stored fun r hr => (hg.admitted r hr).relayId).same hsame
  · cases hc
    refine ((h.same hs).stored fun r hr => ?_).upkeep hup
    obtain ⟨t, _, rfl⟩ := List.mem_map.mp hr
    rfl

namespace Engine

theorem park_get (e : Engine) (cfg : Config) (env : Env) (req : TunClaimRequest) (n : String) :
    (e.park cfg env req).tunnels.get n =
      if n ∈ req.names then
        (e.tunnels.get n).map fun r => if servedBy req r then
          parked (if req.graceUntil = 0 then unix (env.now + cfg.grace) else req.graceUntil) r
        else r
      else e.tunnels.get n := by
  unfold park
  rw [rewriteOnes_get]
  · refine if_congr Iff.rfl (congrArg (Option.map · _) (funext fun r => ?_)) rfl
    by_cases h : servedBy req r = true
    · simp [h]
    · simp [h]
  · intro r r' h
    split at h
    · cases h
      rfl
    · cases h
  · intro r r' h
    split at h
    next hserved =>
      cases h
      have hagain : ∀ grace, servedBy req (parked grace r) = true := fun _ => hserved
      simp only [hagain, if_true, Option.getD_some]
      rfl
    next => cases h

theorem release_get (e : Engine) (req : TunClaimRequest) (n : String) :
    (e.release req).tunnels.get n =
      if n ∈ req.names ∧ (e.tunnels.get n).any (servedBy req) = true then none
      else e.tunnels.get n := by
  unfold release
  induction req.names generalizing e with
  | nil => simp
  | cons name names ih =>
    rw [List.foldl_cons, ih]
    have hone : (if (e.tunnels.get name).any (servedBy req) then e.deleteTunnel name
        else e).tunnels.get n =
        if n = name ∧ (e.tunnels.get n).any (servedBy req) = true then none
        else e.tunnels.get n := by
      by_cases hn : n = name
      · subst hn
        by_cases hs : (e.tunnels.get n).any (servedBy req) = true
        · simp [hs, deleteTunnel_get]
        · simp [hs]
      · by_cases hs : (e.tunnels.get name).any (servedBy req) = true
        · simp [hs, hn, deleteTunnel_get]
        · simp [hs, hn]
    rw [hone]
    by_cases hn : n = name
    · by_cases hs : (e.tunnels.get n).any (servedBy req) = true
      · simp [hn, hn ▸ hs]
      · simp [hn, hn ▸ hs]
    · simp [hn]

end Engine

theorem servedBy_iff (r : TunLiveTunnel) :
    servedBy req r = true ↔
      r.relayId = req.relayId ∧ (req.sessionId = "" ∨ r.sessionId = req.sessionId) := by
  simp [servedBy]

/-- Parking ends exactly the names given that the relay serves for the session. -/
theorem activeFor_park :
    ActiveFor relayId (e.park cfg env req) n s ↔ ActiveFor relayId e n s ∧
      ¬ (n ∈ req.names ∧ relayId = req.relayId ∧ (req.sessionId = "" ∨ s = req.sessionId)) := by
  have hget := e.park_get cfg env req n
  by_cases hn : n ∈ req.names
  · rw [if_pos hn] at hget
    cases hr : e.tunnels.get n with
    | none =>
      rw [hr] at hget
      exact iff_of_false (activeFor_none hget) fun h => activeFor_none hr h.1
    | some r =>
      rw [hr] at hget
      rw [activeFor_some hget, activeFor_some hr]
      dsimp only
      by_cases hserved : servedBy req r = true
      · rw [if_pos hserved]
        refine iff_of_false (fun h => absurd h.1 (by simp [parked])) ?_
        rintro ⟨⟨_, rfl, rfl⟩, hnot⟩
        exact hnot ⟨hn, (servedBy_iff r).mp hserved⟩
      · rw [if_neg hserved]
        refine ⟨fun h => ⟨h, ?_⟩, fun h => h.1⟩
        obtain ⟨_, rfl, rfl⟩ := h
        exact fun hend => hserved ((servedBy_iff r).mpr hend.2)
  · rw [if_neg hn] at hget
    rw [activeFor_congr hget]
    exact ⟨fun h => ⟨h, fun hend => hn hend.1⟩, fun h => h.1⟩

theorem activeFor_release :
    ActiveFor relayId (e.release req) n s ↔ ActiveFor relayId e n s ∧
      ¬ (n ∈ req.names ∧ relayId = req.relayId ∧ (req.sessionId = "" ∨ s = req.sessionId)) := by
  have hget := e.release_get req n
  by_cases hdel : n ∈ req.names ∧ (e.tunnels.get n).any (servedBy req) = true
  · rw [if_pos hdel] at hget
    refine iff_of_false (activeFor_none hget) ?_
    rintro ⟨⟨r, hr, _, rfl, rfl⟩, hnot⟩
    rw [hr, Option.any_some, servedBy_iff] at hdel
    exact hnot hdel
  · rw [if_neg hdel] at hget
    rw [activeFor_congr hget]
    refine ⟨fun h => ⟨h, fun hend => hdel ⟨hend.1, ?_⟩⟩, fun h => h.1⟩
    obtain ⟨r, hr, _, rfl, rfl⟩ := h
    rw [hr, Option.any_some, servedBy_iff]
    exact hend.2

/-- The same names are served by the same relays and sessions. -/
def SameActive (e e' : Engine) : Prop :=
  ∀ relayId n s, ActiveFor relayId e' n s ↔ ActiveFor relayId e n s

theorem SameTunnels.active (h : SameTunnels e e') : SameActive e e' :=
  fun _ n _ => activeFor_congr (by rw [h.tunnels])

theorem SameActive.trans {e'' : Engine} (h : SameActive e e') (h' : SameActive e' e'') :
    SameActive e e'' :=
  fun relayId n s => (h' relayId n s).trans (h relayId n s)

theorem SameActive.foldl {ι : Type} {f : Engine → ι → Engine} (hf : ∀ e x, SameActive e (f e x))
    (xs : List ι) (e : Engine) : SameActive e (xs.foldl f e) := by
  induction xs generalizing e with
  | nil => exact fun _ _ _ => Iff.rfl
  | cons x xs ih => exact (hf e x).trans (ih (f e x))

namespace Engine

theorem rewriteOne_active {upd : TunLiveTunnel → Option TunLiveTunnel}
    (hupd : ∀ r r', upd r = some r' → Same r r' ∧ r'.state = r.state) (e : Engine)
    (name : String) : SameActive e (rewriteOne upd e name) := by
  intro relayId n s
  have hget := rewriteOne_get (fun r r' h => (hupd r r' h).1) e name n
  by_cases hn : n = name
  · rw [if_pos hn] at hget
    cases hr : e.tunnels.get n with
    | none =>
      rw [hr] at hget
      exact iff_of_false (activeFor_none hget) (activeFor_none hr)
    | some r =>
      rw [hr] at hget
      rw [activeFor_some hget, activeFor_some hr]
      dsimp only
      cases hu : upd r with
      | none => exact Iff.rfl
      | some r' =>
        obtain ⟨hsame, hstate⟩ := hupd r r' hu
        rw [Option.getD_some, hstate, hsame.relayId, hsame.sessionId]
  · rw [if_neg hn] at hget
    exact activeFor_congr hget

theorem heartbeat_active (e : Engine) (env : Env) (req : TunClaimRequest) :
    SameActive e (e.heartbeat env req) := by
  have htunnel : ∀ (e : Engine) (t : TunLiveTunnel), SameActive e (heartbeatTunnel req e t) := by
    intro e t
    refine rewriteOne_active (fun r r' h => ?_) e t.name
    split at h
    · cases h
    · split at h
      · cases h
      · cases h
        exact ⟨rfl, rfl⟩
  have hagent : ∀ (e : Engine) (a : TunAgent), SameActive e (heartbeatAgent env req e a) := by
    intro e a
    refine SameTunnels.active ?_
    unfold heartbeatAgent
    split
    · exact ⟨rfl, rfl, rfl⟩
    · split
      · exact ⟨rfl, rfl, rfl⟩
      · exact setAgent_same e _
  exact ((touchRelay_same e env req.relayId req.relay).active.trans (.foldl htunnel _ _)).trans
    (.foldl hagent _ _)

theorem agentUp_active (e : Engine) (cfg : Config) (env : Env) (req : TunClaimRequest) :
    SameActive e (e.agentUp cfg env req).1 := by
  refine SameTunnels.active ?_
  unfold agentUp
  repeat' split
  all_goals exact ⟨rfl, rfl, rfl⟩

theorem agentDown_same (e : Engine) (cfg : Config) (env : Env) (req : TunClaimRequest) :
    SameTunnels e (e.agentDown cfg env req) := by
  unfold agentDown
  repeat' split
  all_goals exact ⟨rfl, rfl, rfl⟩

theorem agentDown_active (e : Engine) (cfg : Config) (env : Env) (req : TunClaimRequest) :
    SameActive e (e.agentDown cfg env req) :=
  (agentDown_same e cfg env req).active

def timedOut (cfg : Config) (env : Env) (r : TunRelay) : Bool :=
  r.simulated = false ∧ r.state ≠ .down ∧ r.lastSeen < unix (env.now - cfg.relayTimeout)

/-- A sweep now takes no relay down. -/
def inTime (e : Engine) (cfg : Config) (env : Env) : Bool :=
  e.relays.values.all fun r => !timedOut cfg env r

theorem inTime_get {id : String} {r : TunRelay} (h : e.inTime cfg env = true)
    (hr : e.relays.get id = some r) : timedOut cfg env r = false := by
  have hmem : r ∈ e.relays.values := (Table.mem_values _ _).mpr (Table.key_of_get hr ▸ hr)
  simpa using List.all_eq_true.mp h r hmem

theorem sweepRelay_inTime (h : e.inTime cfg env = true) (id : String) :
    SameTunnels e (sweepRelay cfg env e id) ∧ (sweepRelay cfg env e id).inTime cfg env = true := by
  unfold sweepRelay
  cases hr : e.relays.get id with
  | none => exact ⟨⟨rfl, rfl, rfl⟩, h⟩
  | some r =>
    have hin := inTime_get h hr
    dsimp only
    split
    · exact ⟨⟨rfl, rfl, rfl⟩, h⟩
    next hsim =>
    split
    next hlost =>
      simp [timedOut, hsim, hlost] at hin
    split
    · refine ⟨deleteRelay_same e r id, List.all_eq_true.mpr fun v hv => ?_⟩
      have hv' : (e.relays.del id).get v.relayId = some v := (Table.mem_values _ _).mp hv
      rw [Table.get_del] at hv'
      split at hv'
      · cases hv'
      · simpa using inTime_get h hv'
    · exact ⟨⟨rfl, rfl, rfl⟩, h⟩

theorem sweepRelays_active (h : e.inTime cfg env = true) (ids : List String) :
    SameActive e (ids.foldl (sweepRelay cfg env) e) := by
  induction ids generalizing e with
  | nil => exact fun _ _ _ => Iff.rfl
  | cons id ids ih =>
    obtain ⟨hsame, hin⟩ := sweepRelay_inTime h id
    exact hsame.active.trans (ih hin)

theorem sweepTunnel_active (env : Env) (e : Engine) (name : String) :
    SameActive e (sweepTunnel env e name) := by
  intro relayId n s
  unfold sweepTunnel
  split
  · exact Iff.rfl
  next t ht =>
  split
  next hgrace =>
    have hget := e.deleteTunnel_get name n
    by_cases hn : n = name
    · rw [if_pos hn] at hget
      subst hn
      refine iff_of_false (activeFor_none hget) fun h => ?_
      rw [activeFor_some ht, hgrace.2.1] at h
      cases h.1
    · rw [if_neg hn] at hget
      exact activeFor_congr hget
  next => exact Iff.rfl

theorem sweepAgent_active (cfg : Config) (env : Env) (e : Engine) (id : String) :
    SameActive e (sweepAgent cfg env e id) := by
  refine SameTunnels.active ?_
  unfold sweepAgent
  repeat' split
  all_goals exact ⟨rfl, rfl, rfl⟩

theorem sweep_active (h : e.inTime cfg env = true) : SameActive e (e.sweep cfg env) :=
  ((sweepRelays_active h _).trans (.foldl (sweepTunnel_active env) _ _)).trans
    (.foldl (sweepAgent_active cfg env) _ _)

end Engine

theorem takes_owned (h : Owned relayId e) (cfg : Config) (ts : List TunLiveTunnel) (n : String) :
    e.takes cfg relayId ts n = !(listings cfg ts n).isEmpty := by
  cases hr : e.tunnels.get n with
  | some r => exact takes_own cfg hr (h n r hr)
  | none =>
    unfold takes
    cases hl : listings cfg ts n with
    | nil => rfl
    | cons t us =>
      have hname : t.name = n := (mem_listings.mp (hl ▸ List.mem_cons_self)).2.2
      simp [conflictsWith, hname, hr]

/-- After a relay's listing its names are served as the last accepted row of each says. -/
theorem activeFor_announce (hann : Announces cfg req) (hown : Owned req.relayId e)
    (hact : ∀ t ∈ req.tunnels, t.state = .active) :
    ActiveFor req.relayId (e.announce cfg env req).1 n s ↔
      ∃ t, (listings cfg req.tunnels n).getLast? = some t ∧ t.sessionId = s := by
  have hget := announce_get hann e env n
  rw [takes_owned hown] at hget
  cases hl : (listings cfg req.tunnels n).getLast? with
  | none =>
    have hnil : listings cfg req.tunnels n = [] := List.getLast?_eq_none_iff.mp hl
    simp only [hnil, List.isEmpty_nil, Bool.not_true, Bool.false_eq_true, if_false] at hget
    refine iff_of_false (fun h => ?_) (by simp)
    obtain ⟨r, hr, hstate, _, _⟩ := h
    rw [hget] at hr
    obtain ⟨r₀, hr₀, rfl⟩ := Option.map_eq_some_iff.mp hr
    unfold unreported at hstate
    split at hstate
    · cases hstate
    next hnot => exact hnot ⟨hown n r₀ hr₀, hstate⟩
  | some t =>
    have ht : t ∈ listings cfg req.tunnels n := List.mem_of_getLast? hl
    have hne : (listings cfg req.tunnels n).isEmpty = false := by
      cases hlist : listings cfg req.tunnels n with
      | nil => simp [hlist] at ht
      | cons => rfl
    rw [hne, Bool.not_false, if_pos rfl, hl] at hget
    have hstate := hact t (mem_listings.mp ht).1
    rw [activeFor_some hget]
    simp [listed, hstate]

theorem claim_active {spec : TunLiveTunnel} (hone : req.tunnels = [spec]) (cfg : Config)
    (env : Env) (e : Engine) :
    ((e.claim cfg env req).1 = e ∧ (e.claim cfg env req).2.error ≠ .unspecified) ∨
      (∃ rec, (e.claim cfg env req).2 = { tunnels := [rec] }) ∧
      (∀ old, e.tunnels.get spec.name = some old → old.tokenId = req.tokenId ∧
        (old.state = .active → old.agentId = req.agentId ∧ old.sessionId ≠ req.sessionId)) ∧
      ∀ n s, ActiveFor req.relayId (e.claim cfg env req).1 n s ↔
        if n = spec.name then s = req.sessionId else ActiveFor req.relayId e n s := by
  rcases e.claim_cases cfg env req with ⟨r, hr, hc⟩ | ⟨recs, olds, hg, _, hnames, hc⟩
  · rw [hc]
    exact .inl ⟨rfl, hr⟩
  · rw [hc]
    rw [hone, List.map_singleton, List.map_eq_singleton_iff] at hnames
    obtain ⟨rec, rfl, hname⟩ := hnames
    have ha := hg.admitted rec (List.mem_singleton_self rec)
    refine .inr ⟨⟨rec, rfl⟩, fun old hold => ha.holder old (hname.symm ▸ hold), fun n s => ?_⟩
    rw [(told_same olds _).active]
    have hget : (e.setTunnel rec).tunnels.get n = if n = spec.name then some rec
        else e.tunnels.get n := by
      rw [setTunnel_tunnels, Table.get_put, hname]
    show ActiveFor req.relayId (e.setTunnel rec) n s ↔ _
    by_cases hn : n = spec.name
    · rw [if_pos hn] at hget ⊢
      rw [activeFor_some hget]
      exact ⟨fun h => h.2.2.symm.trans ha.sessionId,
        fun h => ⟨ha.active, ha.relayId, ha.sessionId.trans h.symm⟩⟩
    · rw [if_neg hn] at hget ⊢
      exact activeFor_congr hget

end L8Tunnel.Claims
