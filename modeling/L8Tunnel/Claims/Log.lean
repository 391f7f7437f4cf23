import L8Tunnel.Claims.Calls

/-! # The change stream (claims/engine.go, tun/live/sink.go, views.go) -/

namespace L8Tunnel.Claims
open Base Relation

/-- The tables that somebody who only reads the sink's events arrives at. -/
structure Views where
  tunnels : Table TunLiveTunnel.name := .empty
  agents : Table TunAgent.agentId := .empty
  relays : Table TunRelay.relayId := .empty

section
variable {ν : Type} {key : ν → String}

def applyChange (t : Table key) (rec : ν) : Change → Table key
  | .created => t.put rec
  | .updated | .moved => t.put rec
  | .deleted => t.del (key rec)

def FitsRow (t : Table key) (rec : ν) : Change → Prop
  | .created => t.get (key rec) = none
  | .updated | .moved | .deleted => ∃ row, t.get (key rec) = some row

end

namespace Views

def apply (v : Views) : Event → Views
  | .tunnelChanged rec change => { v with tunnels := applyChange v.tunnels rec change }
  | .agentChanged rec change => { v with agents := applyChange v.agents rec change }
  | .relayChanged rec change => { v with relays := applyChange v.relays rec change }
  | .command _ => v

def Fits (v : Views) : Event → Prop
  | .tunnelChanged rec change => FitsRow v.tunnels rec change
  | .agentChanged rec change => FitsRow v.agents rec change
  | .relayChanged rec change => FitsRow v.relays rec change
  | .command _ => True

def replay (v : Views) (events : List Event) : Views := events.foldl apply v

def FitsAll : Views → List Event → Prop
  | _, [] => True
  | v, ev :: events => v.Fits ev ∧ FitsAll (v.apply ev) events

theorem replay_append (v : Views) (evs fvs : List Event) :
    v.replay (evs ++ fvs) = (v.replay evs).replay fvs := List.foldl_append ..

theorem fitsAll_append {v : Views} {evs fvs : List Event} :
    v.FitsAll (evs ++ fvs) ↔ v.FitsAll evs ∧ (v.replay evs).FitsAll fvs := by
  induction evs generalizing v with
  | nil => exact (and_iff_right trivial).symm
  | cons ev evs ih =>
    show _ ∧ FitsAll (v.apply ev) (evs ++ fvs) ↔ (_ ∧ _) ∧ _
    rw [ih, and_assoc]
    exact Iff.rfl

end Views

def Engine.views (e : Engine) : Views := ⟨e.tunnels, e.agents, e.relays⟩

/-- One change of a table, with the event that tells it. -/
inductive Told : Engine → Engine → Prop where
  | setTunnel (e : Engine) (rec : TunLiveTunnel) : Told e (e.setTunnel rec)
  | deleteTunnel {e : Engine} {name : String} {rec : TunLiveTunnel} :
      e.tunnels.get name = some rec → Told e (e.deleteTunnel name)
  | setAgent (e : Engine) (a : TunAgent) : Told e (e.setAgent a)
  | deleteAgent {e : Engine} {id : String} {a : TunAgent} :
      e.agents.get id = some a → Told e (e.deleteAgent a id)
  | setRelay (e : Engine) (r : TunRelay) : Told e (e.setRelay r)
  | deleteRelay {e : Engine} {id : String} {r : TunRelay} :
      e.relays.get id = some r → Told e (e.deleteRelay r id)
  | command (e : Engine) (cmd : TunCtlCommand) : Told e (e.report (.command cmd))

def Tells : Engine → Engine → Prop := ReflTransGen Told

namespace Tells
variable {e e' e'' : Engine}

theorem refl (e : Engine) : Tells e e := ReflTransGen.refl
theorem one (h : Told e e') : Tells e e' := .single h
theorem trans (h : Tells e e') (h' : Tells e' e'') : Tells e e'' := ReflTransGen.trans h h'

theorem foldl {ι : Type} {f : Engine → ι → Engine} (hf : ∀ e x, Tells e (f e x)) (xs : List ι)
    (e : Engine) : Tells e (xs.foldl f e) := by
  induction xs generalizing e with
  | nil => exact refl e
  | cons x xs ih => exact (hf e x).trans (ih (f e x))

end Tells

namespace Engine
variable (e : Engine) (cfg : Config) (env : Env) (req : TunClaimRequest) (id : String)

theorem deleteTunnel_tells (name : String) : Tells e (e.deleteTunnel name) := by
  cases h : e.tunnels.get name with
  | none =>
    unfold deleteTunnel
    rw [h]
    exact .refl e
  | some rec => exact .one (.deleteTunnel h)

theorem rewriteOne_tells (upd : TunLiveTunnel → Option TunLiveTunnel) (e : Engine) (name : String) :
    Tells e (rewriteOne upd e name) := by
  unfold rewriteOne
  split
  · exact .refl e
  split
  · exact .refl e
  · exact .one (.setTunnel e _)

theorem release_tells : Tells e (e.release req) := by
  refine Tells.foldl (fun e name => ?_) _ e
  split
  · exact deleteTunnel_tells e name
  · exact .refl e

theorem touchRelay_tells (r : Option TunRelay) :
    Tells e (e.touchRelay env id r) := .one (.setRelay e _)

theorem announceTunnels_tell (ts : List TunLiveTunnel) (a : Announcing) :
    Tells a.engine (ts.foldl (announceTunnel cfg req) a).engine := by
  induction ts generalizing a with
  | nil => exact .refl _
  | cons t ts ih =>
    refine .trans ?_ (ih (announceTunnel cfg req a t))
    unfold announceTunnel
    split
    · exact .refl _
    split
    · exact .refl _
    · exact .one (.setTunnel _ _)

theorem announce_tells : Tells e (e.announce cfg env req).1 := by
  unfold announce
  split
  · exact .refl e
  · refine .trans (.trans (.trans ?_ (announceTunnels_tell cfg req req.tunnels { engine := _ }))
      (Tells.foldl (rewriteOne_tells _) _ _)) (Tells.foldl (fun e a => ?_) _ _)
    · dsimp only
      split
      · exact touchRelay_tells ..
      · exact .refl e
    · unfold announceAgent
      split
      · exact .refl e
      · exact .one (.setAgent e _)

theorem heartbeat_tells : Tells e (e.heartbeat env req) := by
  have htunnel : ∀ (e : Engine) (t : TunLiveTunnel), Tells e (heartbeatTunnel req e t) :=
    fun e t => rewriteOne_tells _ e t.name
  refine ((touchRelay_tells e env req.relayId req.relay).trans (.foldl htunnel _ _)).trans
    (.foldl (fun e a => ?_) _ _)
  unfold heartbeatAgent
  split
  · exact .refl e
  split
  · exact .refl e
  · exact .one (.setAgent e _)

theorem agentUp_tells : Tells e (e.agentUp cfg env req).1 := by
  unfold agentUp
  split
  · exact .refl e
  split
  · exact .refl e
  split
  · exact .refl e
  · exact .one (.setAgent e _)

theorem agentDown_tells : Tells e (e.agentDown cfg env req) := by
  unfold agentDown
  split
  · exact .refl e
  split
  · exact .refl e
  · exact .one (.setAgent e _)

theorem claim_tells : Tells e (e.claim cfg env req).1 := by
  unfold claim
  split
  · exact .refl e
  split
  · exact .refl e
  split
  · exact .refl e
  · exact (Tells.foldl (fun e rec => .one (.setTunnel e rec)) _ e).trans
      (Tells.foldl (fun e old => .one (.command e _)) _ _)

theorem handle_tells : Tells e (e.handle cfg env req).1 := by
  unfold handle
  split
  · exact .refl e
  split
  · exact claim_tells e cfg env req
  · exact Tells.foldl (rewriteOne_tells _) _ e
  · exact release_tells e req
  · exact announce_tells e cfg env req
  · exact heartbeat_tells e env req
  · exact agentUp_tells e cfg env req
  · exact agentDown_tells e cfg env req
  · exact .refl e

theorem lostRelay_tells (r : TunRelay) : Tells e (e.lostRelay cfg env id r) := by
  refine ((Tells.one (.setRelay e _)).trans (.foldl (rewriteOne_tells _) _ _)).trans
    (.foldl (fun e k => ?_) _ _)
  unfold lostAgent
  split
  · exact .refl e
  split
  · exact .one (.setAgent e _)
  · exact .refl e

theorem sweepRelay_tells (e : Engine) (id : String) : Tells e (sweepRelay cfg env e id) := by
  unfold sweepRelay
  split
  · exact .refl e
  next r hr =>
  split
  · exact .refl e
  split
  · exact lostRelay_tells e cfg env id r
  split
  · exact .one (.deleteRelay hr)
  · exact .refl e

theorem sweepTunnel_tells (e : Engine) (name : String) : Tells e (sweepTunnel env e name) := by
  unfold sweepTunnel
  split
  · exact .refl e
  split
  · exact deleteTunnel_tells e name
  · exact .refl e

theorem sweepAgent_tells (e : Engine) (id : String) : Tells e (sweepAgent cfg env e id) := by
  unfold sweepAgent
  split
  · exact .refl e
  next a ha =>
  split
  · exact .refl e
  split
  · exact .one (.setAgent e _)
  split
  · exact .one (.deleteAgent ha)
  · exact .refl e

theorem command_tells (cmd : TunCtlCommand) : Tells e (e.command env cmd).1 := by
  have hstate : ∀ r, Tells e ((e.setRelay r).report (.command cmd)) := fun r =>
    (Tells.one (.setRelay e r)).trans (.one (.command _ cmd))
  unfold command
  split
  · split
    · exact .refl e
    split
    · exact .refl e
    · exact hstate _
  · split
    · exact .refl e
    split
    · exact .refl e
    · exact hstate _
  · split
    · exact .refl e
    split
    · exact .refl e
    · exact .one (.command e _)
  · split
    · exact .refl e
    · exact .one (.command e _)
  · exact .one (.command e _)
  · exact .refl e

theorem call_tells (c : Call) : Tells e (e.call cfg env c) := by
  cases c with
  | handle req => exact handle_tells e cfg env req
  | sweep =>
    exact ((Tells.foldl (sweepRelay_tells cfg env) _ e).trans
      (.foldl (sweepTunnel_tells env) _ _)).trans (.foldl (sweepAgent_tells cfg env) _ _)
  | command cmd => exact command_tells e env cmd

end Engine

section
variable {e e' : Engine}

theorem setTunnel_fits (e : Engine) (rec : TunLiveTunnel) :
    ∃ change, (e.setTunnel rec).sink = e.sink ++ [.tunnelChanged rec change] ∧
      change ≠ .deleted ∧ FitsRow e.tunnels rec change := by
  unfold Engine.setTunnel
  cases h : e.tunnels.get rec.name with
  | none => exact ⟨.created, rfl, by decide, h⟩
  | some old =>
    dsimp only
    split
    · exact ⟨.moved, rfl, by decide, old, h⟩
    · exact ⟨.updated, rfl, by decide, old, h⟩

theorem applyChange_put {ν : Type} {key : ν → String} (t : Table key) (rec : ν) {change : Change}
    (h : change ≠ .deleted) : applyChange t rec change = t.put rec := by
  cases change with
  | deleted => exact absurd rfl h
  | _ => rfl

theorem Told.event (h : Told e e') :
    ∃ ev, e'.sink = e.sink ++ [ev] ∧ e.views.Fits ev ∧ e.views.apply ev = e'.views := by
  have hset : ∀ {ν : Type} {key : ν → String} (t : Table key) (rec : ν),
      FitsRow t rec (if (t.get (key rec)).isSome then .updated else .created) ∧
        applyChange t rec (if (t.get (key rec)).isSome then .updated else .created) = t.put rec := by
    intro ν key t rec
    cases hrow : t.get (key rec) with
    | none => exact ⟨hrow, rfl⟩
    | some row => exact ⟨⟨row, hrow⟩, rfl⟩
  cases h with
  | setTunnel rec =>
    obtain ⟨change, hsink, hput, hfits⟩ := setTunnel_fits e rec
    refine ⟨_, hsink, hfits, ?_⟩
    show Views.mk (applyChange e.tunnels rec change) e.agents e.relays = _
    rw [applyChange_put _ _ hput]
    unfold Engine.setTunnel Engine.views
    cases e.tunnels.get rec.name <;> rfl
  | @deleteTunnel name rec hrec =>
    have hname : rec.name = name := Table.key_of_get hrec
    have hrow : ∃ row, e.tunnels.get rec.name = some row := ⟨rec, hname ▸ hrec⟩
    unfold Engine.deleteTunnel
    rw [hrec]
    refine ⟨.tunnelChanged rec .deleted, rfl, hrow, ?_⟩
    show Views.mk (e.tunnels.del rec.name) e.agents e.relays = _
    rw [hname]
    rfl
  | setAgent a =>
    refine ⟨_, rfl, (hset e.agents a).1, ?_⟩
    show Views.mk e.tunnels (applyChange e.agents a _) e.relays = _
    rw [(hset e.agents a).2]
    rfl
  | @deleteAgent id a ha =>
    have hid : a.agentId = id := Table.key_of_get ha
    have hrow : ∃ row, e.agents.get a.agentId = some row := ⟨a, hid ▸ ha⟩
    refine ⟨_, rfl, hrow, ?_⟩
    show Views.mk e.tunnels (e.agents.del a.agentId) e.relays = _
    rw [hid]
    rfl
  | setRelay r =>
    refine ⟨_, rfl, (hset e.relays r).1, ?_⟩
    show Views.mk e.tunnels e.agents (applyChange e.relays r _) = _
    rw [(hset e.relays r).2]
    rfl
  | @deleteRelay id r hr =>
    have hid : r.relayId = id := Table.key_of_get hr
    have hrow : ∃ row, e.relays.get r.relayId = some row := ⟨r, hid ▸ hr⟩
    refine ⟨_, rfl, hrow, ?_⟩
    show Views.mk e.tunnels e.agents (e.relays.del r.relayId) = _
    rw [hid]
    rfl
  | command cmd => exact ⟨_, rfl, trivial, rfl⟩

theorem Tells.events (h : Tells e e') :
    ∃ evs, e'.sink = e.sink ++ evs ∧ e.views.replay evs = e'.views := by
  induction h with
  | refl => exact ⟨[], (List.append_nil _).symm, rfl⟩
  | tail _ ht ih =>
    obtain ⟨evs, hsink, hviews⟩ := ih
    obtain ⟨ev, hsink', -, happly⟩ := ht.event
    refine ⟨evs ++ [ev], by rw [hsink', hsink, List.append_assoc], ?_⟩
    rw [Views.replay_append, hviews]
    exact happly

/-- Replaying the sink from nothing gives the engine's tables, and every event fits. -/
structure Logged (e : Engine) : Prop where
  tables : ({} : Views).replay e.sink = e.views
  fits : ({} : Views).FitsAll e.sink

theorem Logged.told (h : Logged e) (ht : Told e e') : Logged e' := by
  obtain ⟨ev, hsink, hfits, happly⟩ := ht.event
  refine ⟨?_, ?_⟩
  · rw [hsink, Views.replay_append, h.tables]
    exact happly
  · rw [hsink, Views.fitsAll_append, h.tables]
    exact ⟨h.fits, hfits, trivial⟩

theorem Logged.tells (h : Logged e) (ht : Tells e e') : Logged e' := by
  induction ht with
  | refl => exact h
  | tail _ ht ih => exact ih.told ht

end

/-- In every state of a run the events told so far, applied in order to empty
tables, give the engine's tables, and each of them fits where it stands. -/
theorem sink_is_complete_log (cfg : Config) (as : List (Env × Call)) (e : Engine)
    (h : Run (Step cfg) Engine.new as e) : Logged e := by
  refine Run.invariant (fun e a e' hlog hstep => ?_) h ⟨rfl, trivial⟩
  rw [hstep]
  exact hlog.tells (e.call_tells cfg.withDefaults a.1 a.2)

theorem claimed_and_released_logged :
    Logged (Engine.new.after sampleConfig
      [({ now := 0 }, .handle
        { kind := .claim, relayId := "r0", sessionId := "s1", agentId := "a1", tokenId := "tok1"
          tunnels := [{ name := "n", type := .tcp }] }),
      ({ now := 0 }, .handle { kind := .release, relayId := "r0", sessionId := "s1", names := ["n"] }),
      ({ now := 0 }, .sweep)]) :=
  sink_is_complete_log sampleConfig _ _ (run_after sampleConfig Engine.new _)

end L8Tunnel.Claims
