import L8Tunnel.Registrar.Sound

/-! # Exclusive ports, and no port or domain left behind -/

namespace L8Tunnel.Registrar
open Base Auth

variable {γ : Type}

def demoConfig : Config Unit :=
  { rules := { baseDomain := "relay.example", portMin := 7000, portMax := 7001 }
    pathMatch := fun pattern name => pattern = name
    netip := .plain
    crypto := .plain
    valid := by decide }

def demoTokens : Table TokenRecord.id :=
  (Table.empty.put { id := "U", certSerials := ["2"] }).put
    { id := "T", policy := { domains := ["shop.test"] }, certSerials := ["1"] }

def demoAgent (requests : List (List TunnelSpec)) : Agent :=
  { peer := some (some ("T", "1")), hello := some { agentId := "A" }, requests := requests }

abbrev demoStart (callers : ℕ → Caller) : Server Unit × (ℕ → Prog Op (List ℕ)) :=
  start demoConfig 60 false demoTokens () callers

def demoSchedule (threads : List ℕ) : List (ℕ × World) := threads.map fun t => (t, {})

def demoEnd (callers : ℕ → Caller) (threads : List ℕ) : Server Unit × (ℕ → Prog Op (List ℕ)) :=
  play (objects demoConfig) (demoStart callers) (demoSchedule threads)

theorem demo_run {C : (β : Type) → ℕ → Op β → Server Unit → Prop}
    {ok : (β : Type) → ℕ → Op β → Server Unit → Bool}
    (hok : ∀ β t (op : Op β) s, ok β t op s → C β t op s) (callers : ℕ → Caller) (threads : List ℕ)
    (h : plays (objects demoConfig) ok (demoStart callers) (demoSchedule threads)) :
    Run (Guarded (Obeys C) (PoolStep (objects demoConfig))) (demoStart callers)
      (demoSchedule threads) ((demoEnd callers threads).1, (demoEnd callers threads).2) :=
  plays_run hok h

theorem demo_run_any (callers : ℕ → Caller) (threads : List ℕ)
    (h : plays (objects demoConfig) (fun _ _ _ _ => true) (demoStart callers)
      (demoSchedule threads)) :
    Run (PoolStep (objects demoConfig)) (demoStart callers) (demoSchedule threads)
      ((demoEnd callers threads).1, (demoEnd callers threads).2) :=
  (demo_run (C := fun _ _ _ _ => True) (fun _ _ _ _ _ => trivial) _ _ h).mono fun _ _ _ h => h.2

section
variable {cfg : Config γ} {grace : ℤ} {clustered : Bool} {tokens : Table TokenRecord.id}
  {cluster : γ} {callers : ℕ → Caller} {as : List (ℕ × World)} {s : Server γ}
  {P : ℕ → Prog Op (List ℕ)}

/-- In every run in which no reservation is dropped that another registration
in flight works on, ports are exclusive. -/
theorem ports_exclusive
    (hrun : Run (Guarded (Obeys Spares) (PoolStep (objects cfg)))
      (start cfg grace clustered tokens cluster callers) as (s, P)) :
    (∀ u v, s.registry.Named u → s.registry.Named v → u ≠ v → (s.registry.cells u).port ≠ 0 →
      (s.registry.cells u).port ≠ (s.registry.cells v).port) ∧
    ∀ u, s.registry.Named u → (s.registry.cells u).port ≠ 0 →
      (s.registry.cells u).port ∈ s.registry.ports := by
  have hbooks := books_run hrun
  refine ⟨fun u v hu hv hne h0 hport => hne ?_, fun u hu h0 => ?_⟩
  · exact Sum.inl.inj (hbooks.ports.one (.inl u) (.inl v) _ ⟨hu, rfl, h0⟩ ⟨hv, hport.symm, h0⟩)
  · exact (hbooks.ports.mem_iff _).mpr ⟨.inl u, hu, rfl, h0⟩

end

def twoHolders : ℕ → Caller
  | 0 => .agent (demoAgent [[{ name := "a", type := .tcp }]])
  | _ => .reserve "b" "U" 7001

def twoHoldersEnd := demoEnd twoHolders [0, 0, 0, 0, 0, 1, 0, 0, 0, 0, 0, 0, 0]

def Op.harmless (β : Type) (_ : ℕ) (op : Op β) (_ : Server γ) : Bool :=
  match op with
  | .expire _ | .unreserve _ | .releaseToken _ | .park _ | .rollback _ _ => false
  | _ => true

theorem spares_of_harmless (β : Type) (t : ℕ) (op : Op β) (s : Server γ)
    (h : Op.harmless β t op s) : Spares β t op s := by
  cases op with
  | expire | unreserve | releaseToken | park | rollback => cases h
  | _ => trivial

theorem ports_exclusive_two_holders :
    twoHoldersEnd.1.registry.Named 0 ∧ twoHoldersEnd.1.registry.Named 1 ∧
    (twoHoldersEnd.1.registry.cells 0).port ≠ (twoHoldersEnd.1.registry.cells 1).port := by
  have hrun := demo_run (spares_of_harmless (γ := Unit)) twoHolders
    [0, 0, 0, 0, 0, 1, 0, 0, 0, 0, 0, 0, 0] (by decide +kernel)
  exact ⟨by decide +kernel, by decide +kernel,
    (ports_exclusive hrun).1 0 1 (by decide +kernel) (by decide +kernel) (by decide)
      (by decide +kernel)⟩

def revokedMeanwhile : ℕ → Caller
  | 0 => .agent (demoAgent [[{ name := "a", type := .tcp }, {}]])
  | 1 => .disconnectToken "T"
  | 2 => .reserve "b" "U" 7000
  | _ => .reserve "c" "U" 7000

theorem port_held_twice : ∃ as s P,
    Run (PoolStep (objects demoConfig)) (demoStart revokedMeanwhile) as (s, P) ∧
    s.registry.Named 1 ∧ s.registry.Named 2 ∧ (s.registry.cells 1).port = 7000 ∧
    (s.registry.cells 2).port = 7000 := by
  have hrun := demo_run_any revokedMeanwhile
    [0, 0, 0, 0, 0, 0, 0, 0, 0, 0, 0, 0, 0, 1, 2, 0, 3] (by decide +kernel)
  exact ⟨_, _, _, hrun, by decide +kernel, by decide +kernel, by decide +kernel, by decide +kernel⟩

section
variable {cfg : Config γ} {grace : ℤ} {clustered : Bool} {tokens : Table TokenRecord.id}
  {cluster : γ} {callers : ℕ → Caller} {as : List (ℕ × World)} {s : Server γ}
  {P : ℕ → Prog Op (List ℕ)}

/-- In every such run, once no registration is in flight, a port that is taken
is a reservation's, and a domain points to the reservation that lists it. -/
theorem nothing_leaked
    (hrun : Run (Guarded (Obeys Spares) (PoolStep (objects cfg)))
      (start cfg grace clustered tokens cluster callers) as (s, P))
    (hidle : ∀ u, (s.sessions u).registering = none) :
    (∀ p ∈ s.registry.ports, ∃ u, s.registry.Named u ∧ (s.registry.cells u).port = p) ∧
    ∀ d ref, s.registry.domains.get d = some ref ↔
      s.registry.Named ref ∧ d ∈ (s.registry.cells ref).domains := by
  have hbooks := books_run hrun
  refine ⟨fun p hp => ?_, hbooks.domains⟩
  obtain ⟨u | t, h⟩ := (hbooks.ports.mem_iff p).mp hp
  · exact ⟨u, h.1, h.2.1⟩
  · have hnone : s.reservingOf t = none := by simp [Server.reservingOf, hidle]
    cases hnone.symm.trans h

end

def oneShop : ℕ → Caller
  | 0 => .agent (demoAgent [[{ name := "a", type := .http, domains := ["shop.test"] }]])
  | _ => .reserve "b" "U" 7001

def oneShopEnd := demoEnd oneShop [0, 0, 0, 0, 1, 0, 0, 0, 0, 0, 0]

theorem nothing_leaked_one_shop :
    (∀ u, (oneShopEnd.1.sessions u).registering = none) ∧ oneShopEnd.1.registry.ports = {7001} ∧
    oneShopEnd.1.registry.domains.get "shop.test" = some 1 := by
  have hrun := demo_run (spares_of_harmless (γ := Unit)) oneShop
    [0, 0, 0, 0, 1, 0, 0, 0, 0, 0, 0] (by decide +kernel)
  have hidle : ∀ u, (oneShopEnd.1.sessions u).registering = none := by
    intro u
    cases u <;> rfl
  exact ⟨hidle, by decide +kernel,
    ((nothing_leaked hrun hidle).2 "shop.test" 1).mpr (by decide +kernel)⟩

def revokedBeforeDomains : ℕ → Caller
  | 0 => .agent (demoAgent [[{ name := "a", type := .http, domains := ["shop.test"] }]])
  | _ => .disconnectToken "T"

theorem domain_leaked : ∃ as s P,
    Run (PoolStep (objects demoConfig)) (demoStart revokedBeforeDomains) as (s, P) ∧
    (∀ u, (s.sessions u).registering = none) ∧ P 0 = .done [] ∧ P 1 = .done [0] ∧
    s.registry.domains.get "shop.test" = some 0 ∧ ¬ s.registry.Named 0 := by
  have hrun := demo_run_any revokedBeforeDomains
    [0, 0, 0, 0, 0, 1, 1, 1, 0, 0, 0, 0, 0, 0, 0, 0, 0] (by decide +kernel)
  refine ⟨_, _, _, hrun, fun u => ?_, rfl, rfl, by decide +kernel, by decide +kernel⟩
  cases u <;> rfl

end L8Tunnel.Registrar
