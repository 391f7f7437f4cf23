import L8Tunnel.Claims.Atomic

/-! # Tunnels of relays that are gone -/

namespace L8Tunnel.Claims
open Base

def Up (e : Engine) (id : String) : Prop :=
  ∃ r, e.relays.get id = some r ∧ r.state ≠ .down ∧ r.simulated = false

def Serving (e : Engine) (n : String) (t : TunLiveTunnel) : Prop :=
  e.tunnels.get n = some t ∧ t.state = .active ∧ t.simulated = false

def Backed (e : Engine) : Prop := ∀ n t, Serving e n t → Up e t.relayId

/-- The request brings in tunnels for a relay that is up, and it does not make
a relay simulated that serves tunnels. -/
structure Backs (e : Engine) (req : TunClaimRequest) : Prop where
  claim : req.kind = .claim → (∃ t ∈ req.tunnels, t.simulated = false) → Up e req.relayId
  announce : req.kind = .announce → (∃ t ∈ req.tunnels, t.simulated = false) →
    (req.relay = none → Up e req.relayId) ∧ req.relay.any (·.simulated) = false
  report : req.kind = .announce ∨ req.kind = .heartbeat → req.relay.any (·.simulated) = true →
    ∀ n t, Serving e n t → t.relayId ≠ req.relayId

def Call.Backs (e : Engine) (a : Env × Call) : Prop :=
  ∀ req, a.2 = .handle req → Claims.Backs e req

def InTime (cfg : Config) (now : ℤ) (e : Engine) : Prop :=
  ∀ n t, Serving e n t → ∃ r, e.relays.get t.relayId = some r ∧ r.state ≠ .down ∧
    unix (now - cfg.relayTimeout) ≤ r.lastSeen

def Fewer (e e' : Engine) : Prop :=
  ∀ n t', Serving e' n t' → ∃ t, Serving e n t ∧ t.relayId = t'.relayId

section
variable {e e' : Engine} {cfg : Config} {env : Env} {req : TunClaimRequest}

theorem Fewer.of_tunnels (h : e'.tunnels = e.tunnels) : Fewer e e' := by
  intro n t ⟨ht, hact, hsim⟩
  rw [h] at ht
  exact ⟨t, ⟨ht, hact, hsim⟩, rfl⟩

theorem Fewer.trans {e'' : Engine} (h : Fewer e e') (h' : Fewer e' e'') : Fewer e e'' := by
  intro n t'' ht''
  obtain ⟨t', ht', heq'⟩ := h' n t'' ht''
  obtain ⟨t, ht, heq⟩ := h n t' ht'
  exact ⟨t, ht, heq.trans heq'⟩

theorem Fewer.foldl {ι : Type} {f : Engine → ι → Engine} (hf : ∀ e x, Fewer e (f e x))
    (xs : List ι) (e : Engine) : Fewer e (xs.foldl f e) := by
  induction xs generalizing e with
  | nil => exact .of_tunnels rfl
  | cons x xs ih => exact (hf e x).trans (ih (f e x))

theorem Fewer.rewriteOne {upd : TunLiveTunnel → Option TunLiveTunnel}
    (hupd : ∀ r r', upd r = some r' → Same r r')
    (hstate : ∀ r r', upd r = some r' → r'.state = .active → r.state = .active) (e : Engine)
    (name : String) : Fewer e (Engine.rewriteOne upd e name) := by
  intro n t' ⟨ht', hact, hsim⟩
  rw [Engine.rewriteOne_get hupd] at ht'
  split at ht'
  · obtain ⟨r, hr, hr'⟩ := Option.map_eq_some_iff.mp ht'
    cases hu : upd r with
    | none =>
      rw [hu, Option.getD_none] at hr'
      subst hr'
      exact ⟨r, ⟨hr, hact, hsim⟩, rfl⟩
    | some r' =>
      rw [hu, Option.getD_some] at hr'
      subst hr'
      have hsame := hupd r r' hu
      refine ⟨r, ⟨hr, hstate r r' hu hact, ?_⟩, hsame.relayId.symm⟩
      have hkeep : r'.simulated = r.simulated := by rw [hsame]
      rw [← hkeep]
      exact hsim
  · exact ⟨t', ⟨ht', hact, hsim⟩, rfl⟩

theorem Fewer.deleteTunnel (e : Engine) (name : String) : Fewer e (e.deleteTunnel name) := by
  intro n t ⟨ht, hact, hsim⟩
  rw [Engine.deleteTunnel_get] at ht
  split at ht
  · cases ht
  · exact ⟨t, ⟨ht, hact, hsim⟩, rfl⟩

theorem Backed.mono (h : Backed e) (hf : Fewer e e')
    (hup : ∀ id, Up e id → (∃ n t, Serving e n t ∧ t.relayId = id) → Up e' id) : Backed e' := by
  intro n t' ht'
  obtain ⟨t, ht, heq⟩ := hf n t' ht'
  rw [← heq]
  exact hup _ (h n t ht) ⟨n, t, ht, rfl⟩

variable {id : String} {r : Option TunRelay}

theorem Up.of_relays (hrelays : e'.relays = e.relays) (h : Up e id) : Up e' id := by
  unfold Up
  rw [hrelays]
  exact h

theorem Backed.same_relays (h : Backed e) (hf : Fewer e e') (hrelays : e'.relays = e.relays) :
    Backed e' :=
  h.mono hf fun _ hid _ => hid.of_relays hrelays

theorem Backed.park (h : Backed e) : Backed (e.park cfg env req) := by
  refine h.same_relays (Fewer.foldl (Fewer.rewriteOne ?_ ?_) _ e) (Engine.park_rest e cfg env req).1
  · intro r r' hu
    split at hu
    · cases hu
      rfl
    · cases hu
  · intro r r' hu hact
    split at hu
    · cases hu
      cases hact
    · cases hu

theorem foldl_relays {ι : Type} {f : Engine → ι → Engine}
    (hf : ∀ e x, (f e x).relays = e.relays) (xs : List ι) (e : Engine) :
    (xs.foldl f e).relays = e.relays := by
  induction xs generalizing e with
  | nil => rfl
  | cons x xs ih => exact (ih (f e x)).trans (hf e x)

theorem Backed.release (h : Backed e) : Backed (e.release req) := by
  refine h.same_relays (Fewer.foldl (fun e name => ?_) _ e)
    (foldl_relays (fun e name => ?_) _ e)
  · split
    · exact Fewer.deleteTunnel e name
    · exact .of_tunnels rfl
  · split
    · exact (Engine.deleteTunnel_rest e name).1
    · rfl

theorem Backed.agentUp (h : Backed e) : Backed (e.agentUp cfg env req).1 := by
  unfold Engine.agentUp
  split
  · exact h
  split
  · exact h
  split
  · exact h
  · exact h.same_relays (.of_tunnels rfl) rfl

theorem Backed.agentDown (h : Backed e) : Backed (e.agentDown cfg env req) := by
  unfold Engine.agentDown
  split
  · exact h
  split
  · exact h
  · exact h.same_relays (.of_tunnels rfl) rfl

theorem Up.setRelay {r : TunRelay} (h : Up e id)
    (hr : r.relayId = id → r.state ≠ .down ∧ r.simulated = false) : Up (e.setRelay r) id := by
  obtain ⟨old, hold, hdown, hsim⟩ := h
  have hput : (e.setRelay r).relays = e.relays.put r := rfl
  by_cases hid : id = r.relayId
  · refine ⟨r, ?_, hr hid.symm⟩
    rw [hput, hid, Table.get_put_self]
  · refine ⟨old, ?_, hdown, hsim⟩
    rw [hput, Table.get_put_ne _ _ hid]
    exact hold

theorem Backed.command (h : Backed e) (cmd : TunCtlCommand) : Backed (e.command env cmd).1 := by
  have hstate : ∀ {r : TunRelay} {state : TunRelayState}, e.relays.get cmd.relayId = some r →
      state ≠ .down →
      Backed ((e.setRelay { r with state := state }).report (.command cmd)) := by
    intro r state hr hne
    refine h.mono (.of_tunnels rfl) fun id hid _ => ?_
    have hkey : r.relayId = cmd.relayId := Table.key_of_get hr
    have hset : Up (e.setRelay { r with state := state }) id := by
      refine hid.setRelay fun hrid => ⟨hne, ?_⟩
      obtain ⟨old, hold, -, hsim⟩ := hid
      have hmine : id = cmd.relayId := hrid.symm.trans hkey
      rw [hmine, hr] at hold
      cases hold
      exact hsim
    exact hset
  unfold Engine.command
  split
  · split
    · exact h
    split
    · exact h
    · exact hstate (by assumption) (by decide)
  · split
    · exact h
    split
    · exact h
    · exact hstate (by assumption) (by split <;> simp)
  · split
    · exact h
    split
    · exact h
    · exact h.same_relays (.of_tunnels rfl) rfl
  · split
    · exact h
    · exact h.same_relays (.of_tunnels rfl) rfl
  · exact h.same_relays (.of_tunnels rfl) rfl
  · exact h

theorem touchRelay_get (e : Engine) (env : Env) (id : String) (r : Option TunRelay) :
    ∃ rec, (∀ k, (e.touchRelay env id r).relays.get k = if k = id then some rec
      else e.relays.get k) ∧ rec.state ≠ .down ∧ rec.simulated = r.any (·.simulated) := by
  have hrec : ∀ rec : TunRelay, rec.relayId = id → ∀ k,
      (e.setRelay rec).relays.get k = if k = id then some rec else e.relays.get k := by
    rintro rec rfl k
    exact Table.get_put e.relays rec k
  unfold Engine.touchRelay
  dsimp only
  refine ⟨_, hrec _ ?_, ?_, ?_⟩
  · cases r <;> cases e.relays.get id <;> dsimp only <;> split_ifs <;> rfl
  · cases r <;> cases e.relays.get id <;> dsimp only <;> split_ifs <;> simp_all
  · cases r <;> cases e.relays.get id <;> dsimp only <;> split_ifs <;> rfl

theorem up_touchRelay (id : String) (hsim : r.any (·.simulated) = false) :
    Up (e.touchRelay env id r) id := by
  obtain ⟨rec, hget, hdown, hrec⟩ := touchRelay_get e env id r
  exact ⟨rec, by rw [hget, if_pos rfl], hdown, hrec.trans hsim⟩

theorem Up.touchRelay {k : String} (h : Up e k) (hsim : k = id → r.any (·.simulated) = false) :
    Up (e.touchRelay env id r) k := by
  by_cases hk : k = id
  · subst hk
    exact up_touchRelay k (hsim rfl)
  · obtain ⟨rec, hget, -⟩ := touchRelay_get e env id r
    unfold Up
    rw [hget, if_neg hk]
    exact h

theorem Backs.touch (hb : Backs e req) (hkind : req.kind = .announce ∨ req.kind = .heartbeat)
    (hr : r = req.relay) (hid : Up e id) (hserves : ∃ n t, Serving e n t ∧ t.relayId = id) :
    Up (e.touchRelay env req.relayId r) id := by
  subst hr
  refine hid.touchRelay fun hmine => ?_
  cases hsim : req.relay.any (·.simulated) with
  | false => rfl
  | true =>
    obtain ⟨n, t, ht, hrelay⟩ := hserves
    exact absurd (hrelay.trans hmine) (hb.report hkind hsim n t ht)

theorem Backed.heartbeat (h : Backed e) (hb : Backs e req) (hkind : req.kind = .heartbeat) :
    Backed (e.heartbeat env req) := by
  have htouched : Backed (e.touchRelay env req.relayId req.relay) :=
    h.mono (.of_tunnels rfl) fun _ hid hserves => hb.touch (.inr hkind) rfl hid hserves
  have htunnels : ∀ e t, Fewer e (Engine.heartbeatTunnel req e t) := by
    intro e t
    refine Fewer.rewriteOne ?_ ?_ e t.name
    · intro r r' hu
      split at hu
      · cases hu
      split at hu
      · cases hu
      · cases hu
        rfl
    · intro r r' hu hact
      split at hu
      · cases hu
      split at hu
      · cases hu
      · cases hu
        exact hact
  have hagents : ∀ e a, (Engine.heartbeatAgent env req e a).tunnels = e.tunnels ∧
      (Engine.heartbeatAgent env req e a).relays = e.relays := by
    intro e a
    unfold Engine.heartbeatAgent
    split
    · exact ⟨rfl, rfl⟩
    split <;> exact ⟨rfl, rfl⟩
  unfold Engine.heartbeat
  refine (htouched.same_relays (Fewer.foldl htunnels _ _) ?_).same_relays
    (Fewer.foldl (fun e a => .of_tunnels (hagents e a).1) _ _)
    (foldl_relays (fun e a => (hagents e a).2) _ _)
  exact foldl_relays (fun e (t : TunLiveTunnel) =>
    (Engine.foldl_rewriteOne_rest _ [t.name] e).1) _ _

theorem announceTunnel_relays (a : Engine.Announcing) (t : TunLiveTunnel) :
    (Engine.announceTunnel cfg req a t).engine.relays = a.engine.relays := by
  unfold Engine.announceTunnel
  split
  · rfl
  split
  · rfl
  · exact (Engine.setTunnel_rest _ _).1

theorem announce_relays (e : Engine) (env : Env) (hann : Announces cfg req) :
    (req.relay = none → (e.announce cfg env req).1.relays = e.relays) ∧
    ∀ r, req.relay = some r →
      (e.announce cfg env req).1.relays = (e.touchRelay env req.relayId (some r)).relays := by
  have htunnels : ∀ (ts : List TunLiveTunnel) (a : Engine.Announcing),
      (ts.foldl (Engine.announceTunnel cfg req) a).engine.relays = a.engine.relays := by
    intro ts
    induction ts with
    | nil => exact fun a => rfl
    | cons t ts ih => exact fun a => (ih _).trans (announceTunnel_relays a t)
  have hagents : ∀ e a, (Engine.announceAgent cfg req e a).relays = e.relays := by
    intro e a
    unfold Engine.announceAgent
    split <;> rfl
  have hloops : ∀ e1 : Engine, (req.agents.foldl (Engine.announceAgent cfg req)
      ((req.tunnels.foldl (Engine.announceTunnel cfg req) { engine := e1 }).engine.parkUnreported
        cfg env req (req.tunnels.foldl (Engine.announceTunnel cfg req)
          { engine := e1 }).reported)).relays = e1.relays := by
    intro e1
    rw [foldl_relays hagents]
    unfold Engine.parkUnreported
    rw [(Engine.foldl_rewriteOne_rest _ _ _).1, htunnels]
  unfold Engine.announce
  rw [if_neg hann.2.2]
  dsimp only
  refine ⟨fun hr => ?_, fun r hr => ?_⟩
  · rw [hr]
    exact hloops e
  · rw [hr]
    exact hloops _

theorem Backed.announce (h : Backed e) (hb : Backs e req) (hann : Announces cfg req) :
    Backed (e.announce cfg env req).1 := by
  obtain ⟨hsilent, htouched⟩ := announce_relays e env hann
  have hkeep : ∀ id, Up e id → (∃ n t, Serving e n t ∧ t.relayId = id) →
      Up (e.announce cfg env req).1 id := by
    intro id hid hserves
    cases hr : req.relay with
    | none => exact hid.of_relays (hsilent hr)
    | some r => exact Up.of_relays (htouched r hr) (hb.touch (.inl hann.1) hr.symm hid hserves)
  intro n t ⟨ht, hact, hsim⟩
  rw [Engine.announce_get hann] at ht
  split at ht
  · -- a listing: its relay reports itself, or is up
    obtain ⟨u, hu, rfl⟩ := Option.map_eq_some_iff.mp ht
    have hmem : u ∈ req.tunnels := (List.mem_filter.mp (List.mem_of_getLast? hu)).1
    obtain ⟨hnone, hreal⟩ := hb.announce hann.1 ⟨u, hmem, hsim⟩
    have hup : Up (e.announce cfg env req).1 req.relayId := by
      cases hr : req.relay with
      | none => exact (hnone hr).of_relays (hsilent hr)
      | some r => exact Up.of_relays (htouched r hr) (up_touchRelay req.relayId (hr ▸ hreal))
    exact hup
  · obtain ⟨r, hr, hun⟩ := Option.map_eq_some_iff.mp ht
    unfold Engine.unreported at hun
    split at hun
    · subst hun
      cases hact
    · subst hun
      exact hkeep _ (h n r ⟨hr, hact, hsim⟩) ⟨n, r, ⟨hr, hact, hsim⟩, rfl⟩

theorem Backed.claim (h : Backed e) (hb : Backs e req) (hkind : req.kind = .claim) :
    Backed (e.claim cfg env req).1 := by
  rcases e.claim_cases cfg env req with ⟨r, -, hr⟩ | ⟨recs, olds, hacc, -, -, hc⟩
  · rw [hr]
    exact h
  rw [hc]
  obtain ⟨-, hrelays, -⟩ := foldl_setTunnel_rest (e := e) recs
  obtain ⟨-, hrelays', -⟩ := foldl_report (e := recs.foldl Engine.setTunnel e) olds
  intro n t ⟨ht, hact, hsim⟩
  rw [(Engine.told_same olds _).tunnels] at ht
  refine Up.of_relays (hrelays'.trans hrelays) ?_
  rcases Engine.foldl_setTunnel_get ht with ⟨hmem, -⟩ | ⟨hold, -⟩
  · -- a record of the claim is one of its listings
    obtain ⟨spec, hspec, staged, hchecked⟩ := hacc.listing t hmem
    have hspecSim : t.simulated = spec.simulated := by
      rw [hchecked.record]
      rfl
    rw [(hacc.admitted t hmem).relayId]
    exact hb.claim hkind ⟨spec, hspec, hspecSim ▸ hsim⟩
  · exact h n t ⟨hold, hact, hsim⟩

def Settled (cfg : Config) (env : Env) (e : Engine) (id : String) : Prop :=
  ∀ r, e.relays.get id = some r → r.simulated = true ∨ r.state = .down ∨
    unix (env.now - cfg.relayTimeout) ≤ r.lastSeen

theorem lostRelay_relays (cfg : Config) (env : Env) {r : TunRelay} (hr : e.relays.get id = some r)
    (k : String) :
    (e.lostRelay cfg env id r).relays.get k =
      if k = id then some { r with state := .down, sessions := 0, tunnels := 0 }
      else e.relays.get k := by
  have hagents : ∀ e k, (Engine.lostAgent cfg env id e k).relays = e.relays := by
    intro e k
    unfold Engine.lostAgent
    split
    · rfl
    split <;> rfl
  have hkey : r.relayId = id := Table.key_of_get hr
  subst hkey
  unfold Engine.lostRelay
  dsimp only
  rw [foldl_relays hagents, (Engine.foldl_rewriteOne_rest _ _ _).1]
  exact Table.get_put e.relays _ k

theorem Backed.lostRelay (h : Backed e) {r : TunRelay} (hr : e.relays.get id = some r) :
    Backed (e.lostRelay cfg env id r) := by
  have hrelays := lostRelay_relays cfg env hr
  -- what is still served is not the relay's
  have hserved : ∀ n t, Serving (e.lostRelay cfg env id r) n t → Serving e n t ∧ t.relayId ≠ id := by
    have hagents : ∀ (ks : List String) (e : Engine),
        (ks.foldl (Engine.lostAgent cfg env id) e).tunnels = e.tunnels := by
      intro ks
      induction ks with
      | nil => exact fun e => rfl
      | cons k ks ih =>
        intro e
        rw [List.foldl_cons, ih]
        unfold Engine.lostAgent
        split
        · rfl
        split <;> rfl
    intro n t ⟨ht, hact, hsim⟩
    unfold Engine.lostRelay at ht
    dsimp only at ht
    rw [hagents, Engine.rewriteOnes_get] at ht
    · split at ht
      · obtain ⟨t0, ht0, hupd⟩ := Option.map_eq_some_iff.mp ht
        split at hupd
        · subst hupd
          cases hact
        next hnot =>
          rw [Option.getD_none] at hupd
          subst hupd
          exact ⟨⟨ht0, hact, hsim⟩, fun hid => hnot ⟨hid, hact⟩⟩
      next hout =>
        -- every record is visited
        refine absurd ((Table.mem_range _ _ _).mpr ⟨t, ?_⟩) hout
        exact ht
    · intro t t' hu
      split at hu
      · cases hu
        rfl
      · cases hu
    · intro t t' hu
      split at hu
      · cases hu
        rw [if_neg fun hagain => by cases hagain.2]
        rfl
      · cases hu
  intro n t ht
  obtain ⟨hold, hne⟩ := hserved n t ht
  unfold Up
  rw [hrelays, if_neg hne]
  exact h n t hold

theorem sweepRelay_spec (cfg : Config) (env : Env) (h : Backed e) (id : String) :
    Backed (Engine.sweepRelay cfg env e id) ∧
    Settled cfg env (Engine.sweepRelay cfg env e id) id ∧
    ∀ k, k ≠ id → (Engine.sweepRelay cfg env e id).relays.get k = e.relays.get k := by
  unfold Engine.sweepRelay
  split
  next hnone =>
    refine ⟨h, fun r hr => ?_, fun k _ => rfl⟩
    rw [hnone] at hr
    cases hr
  next r hr =>
  split
  next hsim =>
    refine ⟨h, fun r' hr' => .inl ?_, fun k _ => rfl⟩
    rw [hr] at hr'
    cases hr'
    exact hsim
  next hsim =>
  split
  · refine ⟨h.lostRelay hr, fun r' hr' => .inr (.inl ?_), fun k hk => ?_⟩
    · rw [lostRelay_relays cfg env hr, if_pos rfl] at hr'
      cases hr'
      rfl
    · rw [lostRelay_relays cfg env hr, if_neg hk]
  next hlost =>
  split
  next hgone =>
    have hdel : ∀ k, (e.deleteRelay r id).relays.get k =
        if k = id then none else e.relays.get k := fun k => Table.get_del e.relays id k
    refine ⟨h.mono (.of_tunnels rfl) fun k hk _ => ?_, fun r' hr' => ?_, fun k hk => ?_⟩
    · obtain ⟨old, hold, hdown, hreal⟩ := hk
      refine ⟨old, ?_, hdown, hreal⟩
      rw [hdel, if_neg ?_]
      · exact hold
      · rintro rfl
        rw [hr] at hold
        cases hold
        exact hdown hgone.1
    · rw [hdel, if_pos rfl] at hr'
      cases hr'
    · rw [hdel, if_neg hk]
  · refine ⟨h, fun r' hr' => ?_, fun k _ => rfl⟩
    rw [hr] at hr'
    cases hr'
    by_cases hdown : r.state = .down
    · exact .inr (.inl hdown)
    · have htime := not_and.mp hlost hdown
      exact .inr (.inr (Int.not_lt.mp htime))

theorem sweepRelays_spec (cfg : Config) (env : Env) (ids : List String) (h : Backed e) :
    Backed (ids.foldl (Engine.sweepRelay cfg env) e) ∧
    ∀ k, k ∈ ids ∨ Settled cfg env e k →
      Settled cfg env (ids.foldl (Engine.sweepRelay cfg env) e) k := by
  induction ids generalizing e with
  | nil => exact ⟨h, fun k hk => hk.resolve_left List.not_mem_nil⟩
  | cons id ids ih =>
    obtain ⟨hback, hset, hother⟩ := sweepRelay_spec cfg env h id
    obtain ⟨hall, hsettled⟩ := ih hback
    refine ⟨hall, fun k hk => hsettled k ?_⟩
    by_cases hid : k = id
    · subst hid
      exact .inr hset
    · rcases hk with hk | hk
      · exact .inl ((List.mem_cons.mp hk).resolve_left hid)
      · refine .inr fun r hr => hk r ?_
        rw [hother k hid] at hr
        exact hr

/-- After a sweep what is left is backed by a relay heard from in time. -/
theorem sweep_spec (h : Backed e) :
    Backed (e.sweep cfg env) ∧ InTime cfg env.now (e.sweep cfg env) := by
  obtain ⟨hback, hsettled⟩ := sweepRelays_spec cfg env (e.relays.range env.order) h
  unfold Engine.sweep
  dsimp only
  generalize (e.relays.range env.order).foldl (Engine.sweepRelay cfg env) e = e1 at hback hsettled
  have hall : ∀ k, Settled cfg env e1 k := by
    intro k
    refine hsettled k ?_
    cases hk : e.relays.get k with
    | none =>
      refine .inr fun r hr => ?_
      rw [hk] at hr
      cases hr
    | some r => exact .inl ((Table.mem_range _ _ _).mpr ⟨r, hk⟩)
  have htunnels : ∀ e name, Fewer e (Engine.sweepTunnel env e name) ∧
      (Engine.sweepTunnel env e name).relays = e.relays := by
    intro e name
    unfold Engine.sweepTunnel
    split
    · exact ⟨.of_tunnels rfl, rfl⟩
    split
    · exact ⟨Fewer.deleteTunnel e name, (Engine.deleteTunnel_rest e name).1⟩
    · exact ⟨.of_tunnels rfl, rfl⟩
  have hagents : ∀ e id, (Engine.sweepAgent cfg env e id).tunnels = e.tunnels ∧
      (Engine.sweepAgent cfg env e id).relays = e.relays := by
    intro e id
    unfold Engine.sweepAgent
    split
    · exact ⟨rfl, rfl⟩
    split
    · exact ⟨rfl, rfl⟩
    split
    · exact ⟨rfl, rfl⟩
    split <;> exact ⟨rfl, rfl⟩
  have hfewer2 := Fewer.foldl (fun e name => (htunnels e name).1) (e1.tunnels.range env.order) e1
  have hrelays2 := foldl_relays (fun e name => (htunnels e name).2) (e1.tunnels.range env.order) e1
  generalize (e1.tunnels.range env.order).foldl (Engine.sweepTunnel env) e1 = e2
    at hfewer2 hrelays2
  have hfewer3 := Fewer.foldl (fun e id => Fewer.of_tunnels (hagents e id).1)
    (e2.agents.range env.order) e2
  have hrelays3 := foldl_relays (fun e id => (hagents e id).2) (e2.agents.range env.order) e2
  have hback3 := (hback.same_relays hfewer2 hrelays2).same_relays hfewer3 hrelays3
  refine ⟨hback3, fun n t ht => ?_⟩
  obtain ⟨r, hr, hdown, hsim⟩ := hback3 n t ht
  refine ⟨r, hr, hdown, ?_⟩
  rw [hrelays3, hrelays2] at hr
  rcases hall t.relayId r hr with hs | hd | htime
  · rw [hsim] at hs
    cases hs
  · exact absurd hd hdown
  · exact htime

theorem Backed.handle (h : Backed e) (hb : Backs e req) : Backed (e.handle cfg env req).1 := by
  unfold Engine.handle
  split
  · exact h
  next hid =>
  split
  next hkind => exact h.claim hb hkind
  · exact h.park
  · exact h.release
  next hkind =>
    by_cases hann : Announces cfg req
    · exact h.announce hb hann
    · -- a refused announcement changes nothing
      have href : req.relay.any (·.simulated) = true ∧ cfg.allowSimulated = false := by
        by_contra hno
        exact hann ⟨hkind, hid, hno⟩
      unfold Engine.announce
      rw [if_pos href]
      exact h
  next hkind => exact h.heartbeat hb hkind
  · exact h.agentUp
  · exact h.agentDown
  · exact h

theorem Backed.step {a : Env × Call} (h : Backed e) (hb : Call.Backs e a)
    (hstep : Step cfg e a e') : Backed e' := by
  obtain ⟨env, c⟩ := a
  rw [show e' = e.call cfg.withDefaults env c from hstep]
  cases c with
  | handle req => exact h.handle (hb req rfl)
  | sweep => exact (sweep_spec h).1
  | command cmd => exact h.command cmd

/-- In every run in which tunnels are brought in only for relays that are up
and no serving relay turns simulated, a sweep leaves no active tunnel of a
relay that is down, unknown or silent. -/
theorem no_active_tunnel_of_dead_relay {as : List (Env × Call)}
    (hrun : Run (Guarded Call.Backs (Step cfg)) Engine.new as e) (env : Env) :
    InTime cfg.withDefaults env.now (e.sweep cfg.withDefaults env) := by
  have hnew : Backed Engine.new := fun n t ht => by
    have hnone : Engine.new.tunnels.get n = none := Table.get_empty n
    rw [Serving, hnone] at ht
    cases ht.1
  exact (sweep_spec (hrun.invariant (I := Backed) (fun _ _ _ h hs => h.step hs.1 hs.2) hnew)).2

end

def beatAt (seconds : ℤ) : Env × Call :=
  ({ now := seconds * second }, .handle { kind := .heartbeat, relayId := "r1" })

def claimAt (seconds : ℤ) : Env × Call :=
  ({ now := seconds * second },
    .handle { kind := .claim, relayId := "r1", sessionId := "s1", agentId := "A", tokenId := "T"
              tunnels := [{ name := "a", type := .http }] })

def sweepAt (seconds : ℤ) : Env × Call := ({ now := seconds * second }, .sweep)
def claimedInTime : Engine := Engine.new.after sampleConfig [beatAt 0, claimAt 1]

theorem claimedInTime_run : Run (Guarded Call.Backs (Step sampleConfig)) Engine.new
    [beatAt 0, claimAt 1] claimedInTime := by
  have hbeat : Call.Backs Engine.new (beatAt 0) := by
    rintro req ⟨⟩
    refine ⟨fun hk => ?_, fun hk => ?_, fun _ hsim => ?_⟩
    · cases hk
    · cases hk
    · cases hsim
  have hclaim : Call.Backs (Engine.new.after sampleConfig [beatAt 0]) (claimAt 1) := by
    rintro req ⟨⟩
    refine ⟨fun _ _ => ⟨_, rfl, by decide, rfl⟩, fun hk => ?_, fun _ hsim => ?_⟩
    · cases hk
    · cases hsim
  exact .cons ⟨hbeat, rfl⟩ (.cons ⟨hclaim, rfl⟩ (.nil _))

theorem no_active_tunnel_of_dead_relay_beating :
    (∃ t, Serving (claimedInTime.sweep sampleConfig.withDefaults (sweepAt 2).1) "a" t) ∧
    InTime sampleConfig.withDefaults (sweepAt 2).1.now
      (claimedInTime.sweep sampleConfig.withDefaults (sweepAt 2).1) :=
  ⟨⟨_, rfl, rfl, rfl⟩, no_active_tunnel_of_dead_relay claimedInTime_run (sweepAt 2).1⟩

def claimedLate : Engine := Engine.new.after sampleConfig [beatAt 0, sweepAt 20, claimAt 21]

/-- A claim that arrives after its relay was given up stays active. -/
theorem late_claim_stays_active :
    ¬ ∀ (cfg : Config) (as : List (Env × Call)) (e : Engine) (env : Env),
      Run (Step cfg) Engine.new as e →
      ((as.map fun a => a.1.now) ++ [env.now]).Pairwise (· ≤ ·) →
      InTime cfg.withDefaults env.now (e.sweep cfg.withDefaults env) := by
  intro h
  have hrun : Run (Step sampleConfig) Engine.new [beatAt 0, sweepAt 20, claimAt 21] claimedLate :=
    run_after sampleConfig Engine.new _
  have htime := h sampleConfig _ claimedLate (sweepAt 22).1 hrun (by decide)
  obtain ⟨t, ht⟩ : ∃ t, Serving (claimedLate.sweep sampleConfig.withDefaults (sweepAt 22).1) "a" t :=
    ⟨_, rfl, rfl, rfl⟩
  obtain ⟨r, hr, hdown, -⟩ := htime "a" t ht
  have hrelay : t.relayId = "r1" := by
    have hget := ht.1
    cases hget
    rfl
  have hgone : ((claimedLate.sweep sampleConfig.withDefaults (sweepAt 22).1).relays.get "r1").map
      (·.state) = some .down := rfl
  rw [hrelay] at hr
  rw [hr] at hgone
  exact hdown (Option.some.inj hgone)

end L8Tunnel.Claims
