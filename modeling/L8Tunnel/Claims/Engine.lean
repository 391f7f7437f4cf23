import L8Tunnel.Base.Table
import L8Tunnel.Registry.Rules

/-! # The claims engine: state and records (claims/engine.go) -/

namespace L8Tunnel.Claims
open Base Index

inductive Change where
  | created | updated | moved | deleted
  deriving DecidableEq

/-- What the sink is told, in order. -/
inductive Event where
  | tunnelChanged (rec : TunLiveTunnel) (change : Change)
  | agentChanged (rec : TunAgent) (change : Change)
  | relayChanged (rec : TunRelay) (change : Change)
  | command (cmd : TunCtlCommand)
  deriving DecidableEq

structure Config where
  rules : Registry.Rules
  grace : ℤ := 0
  relayTimeout : ℤ := 0
  offlineRetention : ℤ := 0
  downRetention : ℤ := 0
  allowSimulated : Bool := false

def second : ℤ := 1000000000

def Config.withDefaults (cfg : Config) : Config :=
  { cfg with
    grace := if cfg.grace = 0 then 300 * second else cfg.grace
    relayTimeout := if cfg.relayTimeout = 0 then 15 * second else cfg.relayTimeout
    offlineRetention := if cfg.offlineRetention = 0 then 86400 * second else cfg.offlineRetention
    downRetention := if cfg.downRetention = 0 then 3600 * second else cfg.downRetention }

/-- What a call meets: the clock, the directory's answers and the order of its map loops. -/
structure Env where
  now : ℤ
  reservations : List TunReservation := []
  isSiteName : String → Bool := fun _ => false
  order : RangeOrder := RangeOrder.stored

def unix (t : ℤ) : ℤ := t / second

/-- The registry's tables and the two indexes, with everything told to the sink so far. -/
structure Engine where
  tunnels : Table TunLiveTunnel.name
  byPort : GoMap Int32 String
  byDomain : GoMap String String
  agents : Table TunAgent.agentId
  relays : Table TunRelay.relayId
  sink : List Event

def Engine.new : Engine := ⟨.empty, ∅, ∅, .empty, .empty, []⟩

def refuse (code : TunClaimError) (msg : String) : TunClaimResponse :=
  { error := code, message := msg }

def nameAt {κ : Type} [DecidableEq κ] (m : GoMap κ String) (k : κ) : String := (m.get k).getD ""

namespace Engine

def report (e : Engine) (ev : Event) : Engine := { e with sink := e.sink ++ [ev] }

def unindex (e : Engine) (rec : TunLiveTunnel) : Engine :=
  { e with
    byPort :=
      if rec.publicPort ≠ 0 ∧ e.byPort.get rec.publicPort = some rec.name then
        e.byPort.del rec.publicPort
      else e.byPort
    byDomain :=
      rec.domains.foldl (fun m d => if m.get d = some rec.name then m.del d else m) e.byDomain }

def setTunnel (e : Engine) (rec : TunLiveTunnel) : Engine :=
  let old := e.tunnels.get rec.name
  let change : Change :=
    match old with
    | none => .created
    | some o =>
      if o.relayId ≠ rec.relayId ∨ o.state ≠ rec.state ∨ o.publicPort ≠ rec.publicPort then .moved
      else .updated
  let e1 := match old with
    | none => e
    | some o => e.unindex o
  { e1 with
    tunnels := e1.tunnels.put rec
    byPort := if rec.publicPort ≠ 0 then e1.byPort.set rec.publicPort rec.name else e1.byPort
    byDomain := rec.domains.foldl (fun m d => m.set d rec.name) e1.byDomain
    sink := e1.sink ++ [.tunnelChanged rec change] }

def deleteTunnel (e : Engine) (name : String) : Engine :=
  match e.tunnels.get name with
  | none => e
  | some rec =>
    let e1 := e.unindex rec
    { e1 with tunnels := e1.tunnels.del name, sink := e1.sink ++ [.tunnelChanged rec .deleted] }

def setAgent (e : Engine) (a : TunAgent) : Engine :=
  let change : Change := if (e.agents.get a.agentId).isSome then .updated else .created
  { e with agents := e.agents.put a, sink := e.sink ++ [.agentChanged a change] }

def setRelay (e : Engine) (r : TunRelay) : Engine :=
  let change : Change := if (e.relays.get r.relayId).isSome then .updated else .created
  { e with relays := e.relays.put r, sink := e.sink ++ [.relayChanged r change] }

def deleteAgent (e : Engine) (a : TunAgent) (id : String) : Engine :=
  { e with agents := e.agents.del id, sink := e.sink ++ [.agentChanged a .deleted] }

def deleteRelay (e : Engine) (r : TunRelay) (id : String) : Engine :=
  { e with relays := e.relays.del id, sink := e.sink ++ [.relayChanged r .deleted] }

variable {name n : String} {recs : List TunLiveTunnel} (e : Engine) (rec : TunLiveTunnel)

@[simp] theorem setTunnel_tunnels : (e.setTunnel rec).tunnels = e.tunnels.put rec := by
  unfold setTunnel
  cases e.tunnels.get rec.name <;> rfl

theorem deleteTunnel_get (name n : String) :
    (e.deleteTunnel name).tunnels.get n = if n = name then none else e.tunnels.get n := by
  unfold deleteTunnel
  cases h : e.tunnels.get name with
  | none =>
    by_cases hn : n = name
    · simp [hn, h]
    · simp [hn]
  | some rec => exact Table.get_del e.tunnels name n

def ports (t : TunLiveTunnel) : List Int32 := if t.publicPort = 0 then [] else [t.publicPort]

@[simp] theorem mem_ports (t : TunLiveTunnel) (p : Int32) :
    p ∈ ports t ↔ p = t.publicPort ∧ p ≠ 0 := by
  unfold ports
  by_cases h : t.publicPort = 0
  · simp only [h, if_true, List.not_mem_nil, false_iff, not_and_or]
    by_cases hp : p = 0
    · exact Or.inr (not_not.mpr hp)
    · exact Or.inl hp
  · simp only [h, if_false, List.mem_singleton]
    exact ⟨fun hp => ⟨hp, fun h0 => h (hp ▸ h0)⟩, fun hp => hp.1⟩

theorem unindex_byPort : (e.unindex rec).byPort = drop e.byPort rec.name (ports rec) := by
  unfold unindex ports
  by_cases h : rec.publicPort = 0 <;> simp [h, drop]

theorem unindex_byDomain :
    (e.unindex rec).byDomain = drop e.byDomain rec.name rec.domains := rfl

theorem setTunnel_byPort : (e.setTunnel rec).byPort = update ports e.tunnels e.byPort rec := by
  have hadd : ∀ m : GoMap Int32 String,
      (if rec.publicPort ≠ 0 then m.set rec.publicPort rec.name else m) =
        add m rec.name (ports rec) := by
    intro m
    unfold ports
    by_cases h : rec.publicPort = 0 <;> simp [h, add]
  unfold setTunnel update held
  cases h : e.tunnels.get rec.name with
  | none => exact hadd e.byPort
  | some o =>
    have hn : o.name = rec.name := Table.key_of_get h
    show (if rec.publicPort ≠ 0 then (e.unindex o).byPort.set rec.publicPort rec.name
      else (e.unindex o).byPort) = _
    rw [hadd, unindex_byPort, hn]

theorem setTunnel_byDomain :
    (e.setTunnel rec).byDomain =
      update TunLiveTunnel.domains e.tunnels e.byDomain rec := by
  unfold setTunnel update held
  cases h : e.tunnels.get rec.name with
  | none => rfl
  | some o =>
    have hn : o.name = rec.name := Table.key_of_get h
    show add (e.unindex o).byDomain rec.name rec.domains = _
    rw [unindex_byDomain, hn]

theorem deleteTunnel_byPort {e : Engine} {rec : TunLiveTunnel} (h : e.tunnels.get name = some rec) :
    (e.deleteTunnel name).byPort =
      drop e.byPort name (held ports e.tunnels name) := by
  have hn : rec.name = name := Table.key_of_get h
  unfold deleteTunnel held
  rw [h]
  show (e.unindex rec).byPort = _
  rw [unindex_byPort, hn]

theorem deleteTunnel_byDomain {e : Engine} {rec : TunLiveTunnel} (h : e.tunnels.get name = some
      rec) :
    (e.deleteTunnel name).byDomain =
      drop e.byDomain name (held TunLiveTunnel.domains e.tunnels name) := by
  have hn : rec.name = name := Table.key_of_get h
  unfold deleteTunnel held
  rw [h]
  show (e.unindex rec).byDomain = _
  rw [unindex_byDomain, hn]

theorem foldl_setTunnel_get {e : Engine} {r : TunLiveTunnel}
    (h : (recs.foldl setTunnel e).tunnels.get n = some r) :
    (r ∈ recs ∧ r.name = n) ∨ (e.tunnels.get n = some r ∧ ∀ v ∈ recs, v.name ≠ n) := by
  induction recs generalizing e with
  | nil => exact .inr ⟨h, by simp⟩
  | cons v recs ih =>
    rcases ih h with ⟨hm, hn⟩ | ⟨hget, hrest⟩
    · exact .inl ⟨List.mem_cons_of_mem v hm, hn⟩
    · rw [setTunnel_tunnels, Table.get_put] at hget
      by_cases hv : n = v.name
      · rw [if_pos hv] at hget
        cases hget
        exact .inl ⟨List.mem_cons_self, hv.symm⟩
      · rw [if_neg hv] at hget
        exact .inr ⟨hget, List.forall_mem_cons.mpr ⟨fun h => hv h.symm, hrest⟩⟩

theorem foldl_setTunnel_none {e : Engine} (h : (recs.foldl setTunnel e).tunnels.get n = none) :
    ∀ v ∈ recs, v.name ≠ n := by
  induction recs generalizing e with
  | nil => simp
  | cons v recs ih =>
    refine List.forall_mem_cons.mpr ⟨?_, ih h⟩
    intro hv
    -- a record once stored is at most replaced
    have hkeep : ∀ (us : List TunLiveTunnel) (e : Engine) (r : TunLiveTunnel),
        e.tunnels.get n = some r → (us.foldl setTunnel e).tunnels.get n ≠ none := by
      intro us
      induction us with
      | nil => intro e r hr; simp [hr]
      | cons u us ih =>
        intro e r hr
        by_cases hu : n = u.name
        · exact ih (e.setTunnel u) u (by simp [hu])
        · exact ih (e.setTunnel u) r (by rw [setTunnel_tunnels, Table.get_put_ne _ _ hu]; exact hr)
    exact hkeep recs (e.setTunnel v) v (by simp [← hv]) h

end Engine
end L8Tunnel.Claims
