import L8Tunnel.Claims.Alive

/-! # Simulated records in a real cluster -/

namespace L8Tunnel.Claims
open Base

structure Genuine (e : Engine) : Prop where
  tunnels : ∀ n t, e.tunnels.get n = some t → t.simulated = false
  agents : ∀ id a, e.agents.get id = some a → a.simulated = false
  relays : ∀ id r, e.relays.get id = some r → r.simulated = false

/-- A heartbeat with a simulated relay that `Handle` does not refuse. -/
def SimulatedBeat : Call → Prop
  | .handle req => req.kind = .heartbeat ∧ req.relayId ≠ "" ∧ req.relay.any (·.simulated) = true
  | _ => False

theorem genuine_new : Genuine Engine.new := by
  refine ⟨fun n t h => ?_, fun id a h => ?_, fun id r h => ?_⟩
  · cases h
  · cases h
  · cases h

namespace Genuine
open Engine
variable {e : Engine} {cfg : Config} {env : Env} {req : TunClaimRequest}

theorem setTunnel (h : Genuine e) {t : TunLiveTunnel} (ht : t.simulated = false) :
    Genuine (e.setTunnel t) := by
  obtain ⟨hrelays, hagents⟩ := setTunnel_rest e t
  refine ⟨?_, ?_, ?_⟩
  · rw [setTunnel_tunnels]
    exact Table.forall_put h.tunnels ht
  · rw [hagents]
    exact h.agents
  · rw [hrelays]
    exact h.relays

theorem deleteTunnel (h : Genuine e) (name : String) : Genuine (e.deleteTunnel name) := by
  obtain ⟨hrelays, hagents⟩ := deleteTunnel_rest e name
  refine ⟨fun n t ht => ?_, ?_, ?_⟩
  · rw [deleteTunnel_get] at ht
    split at ht
    · cases ht
    · exact h.tunnels n t ht
  · rw [hagents]
    exact h.agents
  · rw [hrelays]
    exact h.relays

variable {a : TunAgent} {r : TunRelay}

theorem setAgent (h : Genuine e) (ha : a.simulated = false) : Genuine (e.setAgent a) :=
  ⟨h.tunnels, Table.forall_put h.agents ha, h.relays⟩

theorem setRelay (h : Genuine e) (hr : r.simulated = false) : Genuine (e.setRelay r) :=
  ⟨h.tunnels, h.agents, Table.forall_put h.relays hr⟩

theorem deleteAgent (h : Genuine e) (a : TunAgent) (id : String) : Genuine (e.deleteAgent a id) :=
  ⟨h.tunnels, Table.forall_del h.agents, h.relays⟩

theorem deleteRelay (h : Genuine e) (r : TunRelay) (id : String) : Genuine (e.deleteRelay r id) :=
  ⟨h.tunnels, h.agents, Table.forall_del h.relays⟩

theorem report (h : Genuine e) (ev : Event) : Genuine (e.report ev) :=
  ⟨h.tunnels, h.agents, h.relays⟩

theorem foldl {ι : Type} {f : Engine → ι → Engine} {xs : List ι} (h : Genuine e)
    (hf : ∀ e, ∀ x ∈ xs, Genuine e → Genuine (f e x)) : Genuine (xs.foldl f e) := by
  induction xs generalizing e with
  | nil => exact h
  | cons x xs ih =>
    exact ih (hf e x List.mem_cons_self h) fun e y hy => hf e y (List.mem_cons_of_mem _ hy)

theorem rewrites {upd : TunLiveTunnel → Option TunLiveTunnel}
    (hupd : ∀ t t', upd t = some t' → t'.simulated = t.simulated) (h : Genuine e)
    (names : List String) : Genuine (names.foldl (rewriteOne upd) e) := by
  refine h.foldl fun e name _ he => ?_
  unfold rewriteOne
  split
  · exact he
  next t ht =>
    split
    · exact he
    next t' ht' => exact he.setTunnel ((hupd t t' ht').trans (he.tunnels name t ht))

theorem downAgent (h : Genuine e) (ha : a.simulated = false) (reason : TunDisconnectReason) :
    Genuine (e.downAgent cfg env a reason) := by
  unfold Engine.downAgent
  refine h.setAgent ?_
  split
  · exact ha
  · exact ha

theorem touchRelay (h : Genuine e) {r : Option TunRelay} (hr : r.any (·.simulated) = false)
    (id : String) : Genuine (e.touchRelay env id r) := by
  obtain ⟨rec, hget, -, hrec⟩ := touchRelay_get e env id r
  refine ⟨h.tunnels, h.agents, fun k v hv => ?_⟩
  rw [hget] at hv
  split at hv
  · cases hv
    exact hrec.trans hr
  · exact h.relays k v hv

theorem stageAll (hcfg : cfg.allowSimulated = false) {specs : List TunLiveTunnel} {st st' : Staged}
    (hst : ∀ n t, st.recs.get n = some t → t.simulated = false)
    (h : e.stageAll cfg env req specs st = .ok st') (n : String) (t : TunLiveTunnel)
    (ht : st'.recs.get n = some t) : t.simulated = false := by
  induction specs generalizing st with
  | nil =>
    cases h
    exact hst n t ht
  | cons spec specs ih =>
    unfold Engine.stageAll at h
    split at h
    · cases h
    next hspec =>
    split at h
    · cases h
    split at h
    · cases h
    next rec hrec =>
    refine ih ?_ h
    have hkept : rec.simulated = spec.simulated := by rw [(check_ok hrec).1]; rfl
    have hreal : spec.simulated = false := by simpa [hcfg] using hspec
    exact Table.forall_put hst (hkept.trans hreal)

theorem claim (h : Genuine e) (hcfg : cfg.allowSimulated = false) :
    Genuine (e.claim cfg env req).1 := by
  unfold Engine.claim
  split
  · exact h
  split
  · exact h
  split
  · exact h
  next st hst =>
    have hstaged := stageAll hcfg (fun n t ht => by cases ht) hst
    refine foldl (foldl h fun e t ht he => ?_) fun e old _ he => he.report _
    obtain ⟨spec, -, hspec⟩ := List.mem_filterMap.mp ht
    exact he.setTunnel (hstaged _ t hspec)

theorem park (h : Genuine e) : Genuine (e.park cfg env req) := by
  refine h.rewrites (fun t t' ht => ?_) req.names
  split at ht
  · cases ht
    rfl
  · cases ht

theorem release (h : Genuine e) : Genuine (e.release req) := by
  refine h.foldl fun e name _ he => ?_
  split
  · exact he.deleteTunnel name
  · exact he

theorem parkUnreported (h : Genuine e) (reported : List String) :
    Genuine (e.parkUnreported cfg env req reported) := by
  refine h.rewrites (fun t t' ht => ?_) _
  split at ht
  · cases ht
    rfl
  · cases ht

theorem announce (h : Genuine e) (hcfg : cfg.allowSimulated = false) :
    Genuine (e.announce cfg env req).1 := by
  unfold Engine.announce
  split
  · exact h
  next hrefused =>
  have hrelay : req.relay.any (·.simulated) = false := by simpa [hcfg] using hrefused
  dsimp only
  have htunnels : ∀ (ts : List TunLiveTunnel) (a : Announcing), Genuine a.engine →
      Genuine (ts.foldl (announceTunnel cfg req) a).engine := by
    intro ts
    induction ts with
    | nil => exact fun a ha => ha
    | cons t ts ih =>
      refine fun a ha => ih _ ?_
      unfold announceTunnel
      split
      · exact ha
      next hsim =>
      split
      · exact ha
      · have hreal : t.simulated = false := by simpa [hcfg] using hsim
        exact ha.setTunnel hreal
  refine ((htunnels req.tunnels ⟨_, [], []⟩ ?_).parkUnreported _).foldl fun e a _ he => ?_
  · dsimp only
    split
    next r hr => exact h.touchRelay (hr ▸ hrelay) req.relayId
    · exact h
  unfold announceAgent
  split
  · exact he
  next hsim =>
    have hreal : a.simulated = false := by simpa [hcfg] using hsim
    exact he.setAgent hreal

theorem heartbeat (h : Genuine e) (hrelay : req.relay.any (·.simulated) = false) :
    Genuine (e.heartbeat env req) := by
  have htunnel : ∀ e t, Genuine e → Genuine (heartbeatTunnel req e t) := by
    intro e t he
    refine he.rewrites (fun u u' hu => ?_) [t.name]
    split at hu
    · cases hu
    split at hu
    · cases hu
    · cases hu
      rfl
  have hagent : ∀ e a, Genuine e → Genuine (heartbeatAgent env req e a) := by
    intro e a he
    unfold heartbeatAgent
    split
    · exact he
    next rec hrec =>
      split
      · exact he
      · exact he.setAgent (he.agents _ rec hrec)
  unfold Engine.heartbeat
  exact ((h.touchRelay hrelay req.relayId).foldl fun e t _ => htunnel e t).foldl
    fun e a _ => hagent e a

theorem agentUp (h : Genuine e) (hcfg : cfg.allowSimulated = false) :
    Genuine (e.agentUp cfg env req).1 := by
  unfold Engine.agentUp
  split
  · exact h
  split
  · exact h
  split
  · exact h
  next a _ _ hsim =>
    have hreal : a.simulated = false := by simpa [hcfg] using hsim
    exact h.setAgent hreal

theorem agentDown (h : Genuine e) : Genuine (e.agentDown cfg env req) := by
  unfold Engine.agentDown
  split
  · exact h
  next rec hrec =>
    split
    · exact h
    · exact h.downAgent (h.agents _ rec hrec) req.reason

theorem lostRelay (h : Genuine e) (hr : r.simulated = false) (id : String) :
    Genuine (e.lostRelay cfg env id r) := by
  have hdown : Genuine (e.setRelay { r with state := .down, sessions := 0, tunnels := 0 }) :=
    h.setRelay hr
  unfold Engine.lostRelay
  refine (hdown.rewrites ?_ _).foldl fun e k _ he => ?_
  · intro t t' ht
    split at ht
    · cases ht
      rfl
    · cases ht
  · unfold lostAgent
    split
    · exact he
    next a ha =>
      split
      · exact he.downAgent (he.agents k a ha) _
      · exact he

theorem sweep (h : Genuine e) : Genuine (e.sweep cfg env) := by
  refine ((h.foldl fun e id _ he => ?_).foldl fun e name _ he => ?_).foldl fun e id _ he => ?_
  · unfold sweepRelay
    split
    · exact he
    next r hr =>
    split
    · exact he
    split
    · exact he.lostRelay (he.relays id r hr) id
    split
    · exact he.deleteRelay r id
    · exact he
  · unfold sweepTunnel
    split
    · exact he
    split
    · exact he.deleteTunnel name
    · exact he
  · unfold sweepAgent
    split
    · exact he
    next a ha =>
    split
    · exact he
    split
    · exact he.setAgent (he.agents id a ha)
    split
    · exact he.deleteAgent a id
    · exact he

theorem command (h : Genuine e) (cmd : TunCtlCommand) : Genuine (e.command env cmd).1 := by
  have hstate : ∀ {r : TunRelay} (state : TunRelayState), e.relays.get cmd.relayId = some r →
      Genuine ((e.setRelay { r with state := state }).report (.command cmd)) :=
    fun {r} state hr => (h.setRelay (r := { r with state := state })
      (h.relays cmd.relayId r hr)).report _
  unfold Engine.command
  split
  · split
    · exact h
    split
    · exact h
    · exact hstate _ (by assumption)
  · split
    · exact h
    split
    · exact h
    · exact hstate _ (by assumption)
  · split
    · exact h
    split
    · exact h
    · exact h.report _
  · split
    · exact h
    · exact h.report _
  · exact h.report _
  · exact h

theorem call (h : Genuine e) (hcfg : cfg.allowSimulated = false) {c : Call}
    (hc : ¬ SimulatedBeat c) : Genuine (e.call cfg env c) := by
  cases c with
  | sweep => exact h.sweep
  | command cmd => exact h.command cmd
  | handle req =>
    show Genuine (e.handle cfg env req).1
    unfold Engine.handle
    split
    · exact h
    next hid =>
    split
    · exact h.claim hcfg
    · exact h.park
    · exact h.release
    · exact h.announce hcfg
    next hkind =>
      refine h.heartbeat (Bool.eq_false_iff.mpr fun hsim => ?_)
      exact hc ⟨hkind, hid, hsim⟩
    · exact h.agentUp hcfg
    · exact h.agentDown
    · exact h

theorem after (h : Genuine e) (hcfg : cfg.allowSimulated = false) {as : List (Env × Call)}
    (has : ∀ a ∈ as, ¬ SimulatedBeat a.2) : Genuine (e.after cfg as) := by
  induction as generalizing e with
  | nil => exact h
  | cons a as ih =>
    refine ih ?_ fun b hb => has b (List.mem_cons_of_mem _ hb)
    have hcfg' : cfg.withDefaults.allowSimulated = false := hcfg
    exact h.call hcfg' (has a List.mem_cons_self)

end Genuine

theorem not_genuine_beat (e : Engine) (cfg : Config) (env : Env) {c : Call} (hc : SimulatedBeat c) :
    ¬ Genuine (e.call cfg env c) := by
  intro h
  cases c with
  | sweep => exact hc
  | command cmd => exact hc
  | handle req =>
    obtain ⟨hkind, hid, hsim⟩ := hc
    have hcall : e.call cfg env (.handle req) = e.heartbeat env req := by
      simp [Engine.call, Engine.handle, hid, hkind]
    obtain ⟨rec, hget, -, hrec⟩ := touchRelay_get e env req.relayId req.relay
    have hagent : ∀ e a, (Engine.heartbeatAgent env req e a).relays = e.relays := by
      intro e a
      unfold Engine.heartbeatAgent
      split
      · rfl
      split
      · rfl
      · rfl
    have htunnel : ∀ e t, (Engine.heartbeatTunnel req e t).relays = e.relays :=
      fun e t => (Engine.foldl_rewriteOne_rest _ [t.name] e).1
    have hrelays : (e.heartbeat env req).relays =
        (e.touchRelay env req.relayId req.relay).relays := by
      unfold Engine.heartbeat
      rw [foldl_relays hagent, foldl_relays htunnel]
    have hstored : (e.call cfg env (.handle req)).relays.get req.relayId = some rec := by
      rw [hcall, hrelays, hget, if_pos rfl]
    have hreal := h.relays _ _ hstored
    rw [hrec, hsim] at hreal
    cases hreal

/-- A run of an engine that does not allow them leaves every state without simulated
records exactly if no heartbeat of a simulated relay is in it. -/
theorem genuine_run_iff {cfg : Config} (hcfg : cfg.allowSimulated = false)
    (as : List (Env × Call)) :
    (∀ n, Genuine (Engine.new.after cfg (as.take n))) ↔ ∀ a ∈ as, ¬ SimulatedBeat a.2 := by
  constructor
  · intro h a ha hbeat
    obtain ⟨n, hn, rfl⟩ := List.getElem_of_mem ha
    have hafter : Engine.new.after cfg (as.take (n + 1)) =
        (Engine.new.after cfg (as.take n)).call cfg.withDefaults as[n].1 as[n].2 := by
      unfold Engine.after
      rw [List.take_succ_eq_append_getElem hn, List.foldl_concat]
    have hreached := h (n + 1)
    rw [hafter] at hreached
    exact not_genuine_beat _ _ _ hbeat hreached
  · intro h n
    exact genuine_new.after hcfg fun a ha => h a (List.mem_of_mem_take ha)

def realCluster : Config :=
  { rules := { baseDomain := "example.com", portMin := 20000, portMax := 20010 } }

def realBeat : List (Env × Call) :=
  [({ now := 0 }, .handle { kind := .heartbeat, relayId := "r", relay := some {} })]

theorem genuine_run_iff_realBeat :
    realCluster.allowSimulated = false ∧
      ∀ n, Genuine (Engine.new.after realCluster (realBeat.take n)) := by
  refine ⟨rfl, (genuine_run_iff rfl realBeat).mpr fun a ha hbeat => ?_⟩
  cases List.mem_singleton.mp ha
  exact absurd hbeat.2.2 (by decide)

/-- The cluster does not allow simulated records, and the relay's is one. -/
theorem simulated_relay_stored :
    ((Engine.new.after realCluster [({ now := 0 }, .handle
      { kind := .heartbeat, relayId := "r", relay := some { simulated := true } })]).relays.get
        "r").map (·.simulated) = some true := by
  rfl

end L8Tunnel.Claims
