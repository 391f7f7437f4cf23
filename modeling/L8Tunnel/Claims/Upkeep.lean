import L8Tunnel.Claims.Sweep

/-! # What a call can do to the tunnel records -/

namespace L8Tunnel.Claims
open Base

structure SameTunnels (e e' : Engine) : Prop where
  tunnels : e'.tunnels = e.tunnels
  byPort : e'.byPort = e.byPort
  byDomain : e'.byDomain = e.byDomain

namespace SameTunnels
variable {e e' : Engine}

theorem setTunnel (h : SameTunnels e e') (rec : TunLiveTunnel) :
    SameTunnels (e.setTunnel rec) (e'.setTunnel rec) where
  tunnels := by rw [Engine.setTunnel_tunnels, Engine.setTunnel_tunnels, h.tunnels]
  byPort := by rw [Engine.setTunnel_byPort, Engine.setTunnel_byPort, h.tunnels, h.byPort]
  byDomain := by rw [Engine.setTunnel_byDomain, Engine.setTunnel_byDomain, h.tunnels, h.byDomain]

theorem foldl_setTunnel (h : SameTunnels e e') (recs : List TunLiveTunnel) :
    SameTunnels (recs.foldl Engine.setTunnel e) (recs.foldl Engine.setTunnel e') := by
  induction recs generalizing e e' with
  | nil => exact h
  | cons rec recs ih => exact ih (h.setTunnel rec)

end SameTunnels

/-- What every call but CLAIM and ANNOUNCE may do to the tunnels: rewrite state, grace and
counters, and delete. -/
inductive Upkeep : Engine → Engine → Prop where
  | refl (e : Engine) : Upkeep e e
  | frame {e e' e'' : Engine} : Upkeep e e' → SameTunnels e' e'' → Upkeep e e''
  | rewrite {e e' : Engine} {old rec : TunLiveTunnel} : Upkeep e e' →
      e'.tunnels.get rec.name = some old → Same old rec → Upkeep e (e'.setTunnel rec)
  | delete {e e' : Engine} (name : String) : Upkeep e e' → Upkeep e (e'.deleteTunnel name)

namespace Upkeep
variable {e e' e'' : Engine}

theorem of_same (h : SameTunnels e e') : Upkeep e e' := .frame (.refl e) h

theorem trans (h : Upkeep e e') (h' : Upkeep e' e'') : Upkeep e e'' := by
  induction h' with
  | refl => exact h
  | frame _ hs ih => exact .frame ih hs
  | rewrite _ hg hs ih => exact .rewrite ih hg hs
  | delete name _ ih => exact .delete name ih

theorem foldl {ι : Type} {f : Engine → ι → Engine} (hf : ∀ e x, Upkeep e (f e x))
    (xs : List ι) (e : Engine) : Upkeep e (xs.foldl f e) := by
  induction xs generalizing e with
  | nil => exact .refl e
  | cons x xs ih => exact (hf e x).trans (ih (f e x))

/-- Upkeep makes no row: what is stored after it was stored before under the same claim. -/
theorem kept (h : Upkeep e e') {n : String} {r' : TunLiveTunnel}
    (hr : e'.tunnels.get n = some r') : ∃ r, e.tunnels.get n = some r ∧ Same r r' := by
  induction h generalizing n r' with
  | refl => exact ⟨r', hr, Same.refl r'⟩
  | frame _ hs ih => exact ih (hs.tunnels ▸ hr)
  | @rewrite _ old rec _ hg hs ih =>
    rw [Engine.setTunnel_tunnels, Table.get_put] at hr
    by_cases hn : n = rec.name
    · rw [if_pos hn] at hr
      cases hr
      obtain ⟨r, hr, hsame⟩ := ih hg
      exact ⟨r, hn ▸ hr, hsame.trans hs⟩
    · rw [if_neg hn] at hr
      exact ih hr
  | delete name _ ih =>
    rw [Engine.deleteTunnel_get] at hr
    by_cases hn : n = name
    · simp [hn] at hr
    · rw [if_neg hn] at hr
      exact ih hr

end Upkeep

namespace Engine
variable (e : Engine) (cfg : Config) (env : Env) (req : TunClaimRequest) (a : TunAgent)
  (id : String)

theorem setAgent_same : SameTunnels e (e.setAgent a) := ⟨rfl, rfl, rfl⟩
theorem setRelay_same (r : TunRelay) : SameTunnels e (e.setRelay r) := ⟨rfl, rfl, rfl⟩
theorem report_same (ev : Event) : SameTunnels e (e.report ev) := ⟨rfl, rfl, rfl⟩

theorem deleteAgent_same :
    SameTunnels e (e.deleteAgent a id) := ⟨rfl, rfl, rfl⟩

theorem deleteRelay_same (r : TunRelay) (id : String) :
    SameTunnels e (e.deleteRelay r id) := ⟨rfl, rfl, rfl⟩

theorem rewriteOne_upkeep {upd : TunLiveTunnel → Option TunLiveTunnel}
    (hupd : ∀ r r', upd r = some r' → Same r r') (e : Engine) (name : String) :
    Upkeep e (rewriteOne upd e name) := by
  unfold rewriteOne
  cases hg : e.tunnels.get name with
  | none => exact .refl e
  | some rec =>
    dsimp only
    cases hu : upd rec with
    | none => exact .refl e
    | some rec' =>
      have hs : Same rec rec' := hupd rec rec' hu
      have hn : rec'.name = name := hs.name.trans (Table.key_of_get hg)
      exact .rewrite (.refl e) (hn ▸ hg) hs

theorem park_upkeep : Upkeep e (e.park cfg env req) := by
  refine Upkeep.foldl (rewriteOne_upkeep ?_) _ e
  intro r r' h
  split at h
  · cases h
    rfl
  · cases h

theorem release_upkeep : Upkeep e (e.release req) := by
  refine Upkeep.foldl (fun e name => ?_) _ e
  split
  · exact .delete name (.refl e)
  · exact .refl e

theorem parkUnreported_upkeep (reported : List String) :
    Upkeep e (e.parkUnreported cfg env req reported) := by
  refine Upkeep.foldl (rewriteOne_upkeep ?_) _ e
  intro r r' h
  split at h
  · cases h
    rfl
  · cases h

theorem touchRelay_same (r : Option TunRelay) :
    SameTunnels e (e.touchRelay env id r) := setRelay_same e _

theorem announceAgent_upkeep (e : Engine) (a : TunAgent) :
    Upkeep e (announceAgent cfg req e a) := by
  unfold announceAgent
  split
  · exact .refl e
  · exact .of_same (setAgent_same e _)

theorem heartbeatTunnel_upkeep (e : Engine) (t : TunLiveTunnel) :
    Upkeep e (heartbeatTunnel req e t) := by
  refine rewriteOne_upkeep ?_ e t.name
  intro r r' h
  split at h
  · cases h
  · split at h
    · cases h
    · cases h
      rfl

theorem heartbeatAgent_upkeep (e : Engine) (a : TunAgent) :
    Upkeep e (heartbeatAgent env req e a) := by
  unfold heartbeatAgent
  split
  · exact .refl e
  · split
    · exact .refl e
    · exact .of_same (setAgent_same e _)

theorem heartbeat_upkeep : Upkeep e (e.heartbeat env req) :=
  ((Upkeep.of_same (touchRelay_same e env req.relayId req.relay)).trans
    (Upkeep.foldl (heartbeatTunnel_upkeep req) _ _)).trans
    (Upkeep.foldl (heartbeatAgent_upkeep env req) _ _)

theorem agentUp_upkeep : Upkeep e (e.agentUp cfg env req).1 := by
  unfold agentUp
  split
  · exact .refl e
  · split
    · exact .refl e
    · split
      · exact .refl e
      · exact .of_same (setAgent_same e _)

theorem downAgent_same (rec : TunAgent) (reason : TunDisconnectReason) :
    SameTunnels e (e.downAgent cfg env rec reason) :=
  setAgent_same e _

theorem agentDown_upkeep : Upkeep e (e.agentDown cfg env req) := by
  unfold agentDown
  split
  · exact .refl e
  · split
    · exact .refl e
    · exact .of_same (downAgent_same e cfg env _ _)

theorem lostAgent_upkeep (e : Engine) (k : String) : Upkeep e (lostAgent cfg env id e k) := by
  unfold lostAgent
  split
  · exact .refl e
  · split
    · exact .of_same (downAgent_same e cfg env _ _)
    · exact .refl e

theorem lostRelay_upkeep (r : TunRelay) : Upkeep e (e.lostRelay cfg env id r) := by
  refine ((Upkeep.of_same (setRelay_same e _)).trans
    (Upkeep.foldl (rewriteOne_upkeep ?_) _ _)).trans (Upkeep.foldl (lostAgent_upkeep cfg env id) _ _)
  intro r r' h
  split at h
  · cases h
    rfl
  · cases h

theorem sweepRelay_upkeep (e : Engine) (id : String) : Upkeep e (sweepRelay cfg env e id) := by
  unfold sweepRelay
  split
  · exact .refl e
  · split
    · exact .refl e
    · split
      · exact lostRelay_upkeep e cfg env id _
      · split
        · exact .of_same (deleteRelay_same e _ id)
        · exact .refl e

theorem sweepTunnel_upkeep (e : Engine) (name : String) : Upkeep e (sweepTunnel env e name) := by
  unfold sweepTunnel
  split
  · exact .refl e
  · split
    · exact .delete name (.refl e)
    · exact .refl e

theorem sweepAgent_upkeep (e : Engine) (id : String) : Upkeep e (sweepAgent cfg env e id) := by
  unfold sweepAgent
  split
  · exact .refl e
  · split
    · exact .refl e
    · split
      · exact .of_same (setAgent_same e _)
      · split
        · exact .of_same (deleteAgent_same e _ id)
        · exact .refl e

theorem sweep_upkeep : Upkeep e (e.sweep cfg env) :=
  ((Upkeep.foldl (sweepRelay_upkeep cfg env) _ e).trans
    (Upkeep.foldl (sweepTunnel_upkeep env) _ _)).trans
    (Upkeep.foldl (sweepAgent_upkeep cfg env) _ _)

theorem command_upkeep (cmd : TunCtlCommand) : Upkeep e (e.command env cmd).1 := by
  have hr : ∀ r : TunRelay, Upkeep e ((e.setRelay r).report (.command cmd)) := fun r =>
    .frame (.of_same (setRelay_same e r)) (report_same _ _)
  unfold command
  repeat' split
  all_goals first
    | exact .refl e
    | exact hr _
    | exact .of_same (report_same e _)

end Engine
end L8Tunnel.Claims
