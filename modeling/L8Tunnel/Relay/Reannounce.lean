import L8Tunnel.Relay.Node

/-! # Re-announcing after a registry restart -/

namespace L8Tunnel.Relay
open Claims

/-- R0 lists tunnel `n` of the older session `s0`, R1 of the newer session `s1`
of the same agent; the other tunnels have names of their own. -/
structure Moved (r0 r1 : Node) (st0 st1 : Status) (n : String) (s0 s1 : SessionStatus) : Prop where
  relay0 : r0.relayID ≠ ""
  relay1 : r1.relayID ≠ ""
  relays : r0.relayID ≠ r1.relayID
  mem0 : s0 ∈ st0
  mem1 : s1 ∈ st1
  lists0 : ∃ t ∈ s0.tunnels, t.name = n
  lists1 : ∃ t ∈ s1.tunnels, t.name = n
  agent : s0.agentID = s1.agentID
  later : s0.connectedAt < s1.connectedAt
  only0 : ∀ s ∈ st0, ∀ t ∈ s.tunnels, t.name = n → s = s0
  only1 : ∀ s ∈ st1, ∀ t ∈ s.tunnels, t.name = n → s = s1
  disjoint : ∀ s ∈ st0, ∀ t ∈ s.tunnels, ∀ s' ∈ st1, ∀ t' ∈ s'.tunnels,
    t.name = t'.name → t.name = n

def announced (cfg : Config) (env : Env) (r : Node) (st : Status) (e : Engine) : Engine :=
  (e.handle cfg env (r.announceRequest st)).1

def BelongsTo (r : Node) (s : SessionStatus) (n : String) (e : Engine) : Prop :=
  ∃ t, e.tunnels.get n = some t ∧ t.relayId = r.relayID ∧ t.sessionId = s.id

/-- Both orders of the two announcements lead from an empty engine to the same
records, and `n` is R1's with the newer session in both. -/
structure OrderIndependent (cfg : Config) (first second : Env) (r0 r1 : Node) (st0 st1 : Status)
    (n : String) (s1 : SessionStatus) : Prop where
  records : ∀ m,
    (announced cfg second r1 st1 (announced cfg first r0 st0 Engine.new)).tunnels.get m =
      (announced cfg second r0 st0 (announced cfg first r1 st1 Engine.new)).tunnels.get m
  older_first : BelongsTo r1 s1 n
    (announced cfg second r1 st1 (announced cfg first r0 st0 Engine.new))
  newer_first : BelongsTo r1 s1 n
    (announced cfg second r0 st0 (announced cfg first r1 st1 Engine.new))

variable {cfg : Config} {env : Env} {r : Node} {st : Status} {s : SessionStatus} {n : String}
  {e : Engine}

theorem announced_get (hr : r.relayID ≠ "") (m : String) :
    (announced cfg env r st e).tunnels.get m =
      if e.takes cfg r.relayID (state st).1 m then
        (listings cfg (state st).1 m).getLast?.map (Engine.listed r.relayID)
      else (e.tunnels.get m).map (Engine.unreported cfg env r.relayID) := by
  have hann := announceRequest_announces hr cfg st
  have hcall : announced cfg env r st e = (e.announce cfg env (r.announceRequest st)).1 :=
    congrArg Prod.fst (if_neg hr)
  rw [hcall, Engine.announce_get hann]
  rfl

theorem announced_takes (cfg : Config) (env : Env) (e : Engine) (hr : r.relayID ≠ "")
    (hmem : s ∈ st) (hlists : ∃ t ∈ s.tunnels, t.name = n)
    (honly : ∀ s' ∈ st, ∀ t ∈ s'.tunnels, t.name = n → s' = s)
    (hagent : ∀ cur, e.tunnels.get n = some cur → cur.agentId = s.agentID) :
    ∃ t, (announced cfg env r st e).tunnels.get n = some t ∧ t.relayId = r.relayID ∧
      t.agentId = s.agentID ∧ t.sessionId = s.id := by
  have hof : ∀ l ∈ listings cfg (state st).1 n, l.agentId = s.agentID ∧ l.sessionId = s.id ∧
      l.name = n := by
    intro l hl
    obtain ⟨hstate, hname⟩ := mem_listings_state.mp hl
    obtain ⟨s', hs', t, ht, rfl⟩ := mem_state.mp hstate
    have heq : s' = s := honly s' hs' t ht hname
    subst heq
    exact ⟨rfl, rfl, hname⟩
  obtain ⟨t, ht, hname⟩ := hlists
  have hlisting : liveTunnel s t ∈ listings cfg (state st).1 n :=
    mem_listings_state.mpr ⟨mem_state.mpr ⟨s, hmem, t, ht, rfl⟩, hname⟩
  have htakes : e.takes cfg r.relayID (state st).1 n = true := by
    refine List.any_eq_true.mpr ⟨liveTunnel s t, hlisting, ?_⟩
    have hcur : (liveTunnel s t).name = n := hname
    unfold Engine.conflictsWith
    rw [hcur]
    cases hget : e.tunnels.get n with
    | none => rfl
    | some cur =>
      have hsame : cur.agentId = (liveTunnel s t).agentId := hagent cur hget
      simp [hsame]
  cases hl : (listings cfg (state st).1 n).getLast? with
  | none =>
    rw [List.getLast?_eq_none_iff] at hl
    rw [hl] at hlisting
    cases hlisting
  | some l =>
    obtain ⟨hag, hsess, _⟩ := hof l (List.mem_of_getLast? hl)
    refine ⟨Engine.listed r.relayID l, ?_, rfl, hag, hsess⟩
    rw [announced_get hr, if_pos htakes, hl]
    rfl

theorem orderIndependent_never (cfg : Config) (first second : Env) (r0 r1 : Node)
    (st0 st1 : Status) (n : String) (s0 s1 : SessionStatus) (h : Moved r0 r1 st0 st1 n s0 s1) :
    ¬ OrderIndependent cfg first second r0 r1 st0 st1 n s1 := by
  intro hind
  -- R1 announces first; R0's listing is of the same agent, so it is taken
  obtain ⟨t1, hget1, _, hag1, _⟩ :=
    announced_takes cfg first Engine.new h.relay1 h.mem1 h.lists1 h.only1
      (fun cur hcur => by simp [Engine.new] at hcur)
  have hagent : ∀ cur, (announced cfg first r1 st1 Engine.new).tunnels.get n = some cur →
      cur.agentId = s0.agentID := by
    intro cur hcur
    have heq : cur = t1 := Option.some.inj (hcur.symm.trans hget1)
    rw [heq, hag1]
    exact h.agent.symm
  obtain ⟨t0, hget0, hrel0, _, _⟩ :=
    announced_takes cfg second _ h.relay0 h.mem0 h.lists0 h.only0 hagent
  obtain ⟨t, hget, hrel, _⟩ := hind.newer_first
  have heq : t = t0 := Option.some.inj (hget.symm.trans hget0)
  rw [heq, hrel0] at hrel
  exact h.relays hrel

def oldSession : SessionStatus :=
  { id := "s0", agentID := "a1", tokenID := "tok1", connectedAt := 10
    tunnels := [{ name := "n", type := "http" }] }

def newSession : SessionStatus :=
  { id := "s1", agentID := "a1", tokenID := "tok1", connectedAt := 20
    tunnels := [{ name := "n", type := "http" }] }

theorem sample_moved :
    Moved { relayID := "r0" } { relayID := "r1" } [oldSession] [newSession] "n" oldSession
      newSession where
  relay0 := by decide
  relay1 := by decide
  relays := by decide
  mem0 := List.mem_singleton_self _
  mem1 := List.mem_singleton_self _
  lists0 := ⟨_, List.mem_singleton_self _, rfl⟩
  lists1 := ⟨_, List.mem_singleton_self _, rfl⟩
  agent := rfl
  later := by decide
  only0 := fun s hs _ _ _ => List.mem_singleton.mp hs
  only1 := fun s hs _ _ _ => List.mem_singleton.mp hs
  disjoint := by simp [oldSession, newSession]

theorem moved_order_dependent :
    ¬ OrderIndependent sampleConfig { now := 0 } { now := 0 } { relayID := "r0" }
      { relayID := "r1" } [oldSession] [newSession] "n" newSession :=
  orderIndependent_never sampleConfig { now := 0 } { now := 0 } { relayID := "r0" }
    { relayID := "r1" } [oldSession] [newSession] "n" oldSession newSession sample_moved

/-- The older session's relay announces last and gets the tunnel. -/
theorem older_relay_announces_last :
    Moved { relayID := "r0" } { relayID := "r1" } [oldSession] [newSession] "n" oldSession
        newSession ∧
      ¬ OrderIndependent sampleConfig { now := 0 } { now := 0 } { relayID := "r0" }
        { relayID := "r1" } [oldSession] [newSession] "n" newSession := by
  refine ⟨sample_moved, fun h => ?_⟩
  obtain ⟨t, hget, hrel, _⟩ := h.newer_first
  cases hget
  exact absurd hrel (by decide)

end L8Tunnel.Relay
