import L8Tunnel.Admin.Stored

/-! # A restart -/

namespace L8Tunnel.Admin
open Base Registrar

variable {γ : Type}

def UpholdsPorts (β : Type) (t : ℕ) (op : ApiOp β) (a : RelayAPI γ) : Prop :=
  op.elim (fun op => Spares β t op a.srv) (fun _ => True) ∧ Upholds Eq β t op a

section
variable {cfg : Config γ} {t : ℕ} {α : Type}

theorem answer_store (cfg : Config γ) {β : Type} (op : StoreOp β) (t : ℕ) (w : World)
    (a : RelayAPI γ) :
    ((RelayAPI.objects cfg).answer t w (.inr op) a).1.srv.registry = a.srv.registry ∧
    ((RelayAPI.objects cfg).answer t w (.inr op) a).1.srv.sessions = a.srv.sessions := by
  have hupdate : ∀ tx : Except StoreError (RelayAPI γ),
      (∀ a', tx = .ok a' → a'.srv.registry = a.srv.registry ∧ a'.srv.sessions = a.srv.sessions) →
      (a.update w tx).1.srv.registry = a.srv.registry ∧
      (a.update w tx).1.srv.sessions = a.srv.sessions := by
    intro tx htx
    unfold RelayAPI.update
    cases tx with
    | error err => exact ⟨rfl, rfl⟩
    | ok a' =>
      dsimp only
      split
      · exact ⟨rfl, rfl⟩
      · exact htx a' rfl
  cases op with
  | tokenByName name => exact ⟨rfl, rfl⟩
  | deleteToken id =>
    refine hupdate _ fun a' ha => ?_
    unfold RelayAPI.deleteToken at ha
    split at ha <;> cases ha
    exact ⟨rfl, rfl⟩
  | putReservation x =>
    refine hupdate _ fun a' ha => ?_
    unfold RelayAPI.putReservation at ha
    split at ha <;> cases ha
    exact ⟨rfl, rfl⟩
  | deleteReservation name =>
    refine hupdate _ fun a' ha => ?_
    unfold RelayAPI.deleteReservation at ha
    split at ha <;> cases ha
    exact ⟨rfl, rfl⟩

abbrev KeepsBooks (cfg : Config γ) (t : ℕ) (p : Prog ApiOp α) : Prop :=
  Keeps (RelayAPI.objects cfg) UpholdsPorts (fun a => Inv a.srv) t (fun _ l => l = {}) p {}

theorem KeepsBooks.onStore {β : Type} {op : StoreOp β} {next : β → Prog ApiOp α}
    (hnext : ∀ b, KeepsBooks cfg t (next b)) : KeepsBooks cfg t (onStore op >>= next) := by
  intro w a L hI hl _
  obtain ⟨hreg, hsess⟩ := answer_store cfg op t w a
  refine ⟨{}, ?_, hnext _⟩
  rw [← hl, Function.update_eq_self]
  exact hI.frame hreg fun u => by rw [hsess]

theorem KeepsBooks.onRelay {β : Type} {p : Prog Op β} {next : β → Prog ApiOp α}
    (h : Keeps (Registrar.objects cfg) Spares Inv t (fun _ l => l = {}) p {})
    (hnext : ∀ b, KeepsBooks cfg t (next b)) : KeepsBooks cfg t (onRelay p >>= next) := by
  have hembed : KeepsBooks cfg t (Admin.onRelay p) :=
    Keeps.embed (fun _ _ _ => rfl) (fun _ _ _ => rfl) (fun _ _ hC => hC.1) h
  refine Keeps.bind hembed fun b l hl => ?_
  subst hl
  exact hnext b

theorem keepsBooks_unreserve {name : String} {next : Unit → Prog ApiOp α}
    (hnext : KeepsBooks cfg t (next ())) :
    KeepsBooks cfg t (Admin.onRelay (ask (.unreserve name)) >>= next) :=
  .onRelay (p := ask (.unreserve name)) (Registrar.keeps_unreserve rfl rfl) fun _ => hnext

theorem keepsBooks_addReservation (name token : String) (port : ℤ) :
    KeepsBooks cfg t (addReservation cfg name token port) := by
  refine .onStore fun found => ?_
  cases found with
  | error err => rfl
  | ok rec =>
    refine .onRelay (keeps_reserveName name rec.id port) fun out => ?_
    cases out with
    | some err => rfl
    | none =>
      refine .onStore fun put => ?_
      cases put with
      | error err => exact keepsBooks_unreserve rfl
      | ok _ => rfl

theorem keepsBooks_removeReservation (name : String) :
    KeepsBooks cfg t (removeReservation name) := by
  refine .onStore fun deleted => ?_
  cases deleted with
  | error err => rfl
  | ok _ => exact keepsBooks_unreserve rfl

theorem keepsBooks_revokeToken (name : String) : KeepsBooks cfg t (revokeToken name) := by
  refine .onStore fun found => ?_
  cases found with
  | error err => rfl
  | ok rec =>
    refine .onStore fun deleted => ?_
    cases deleted with
    | error err => rfl
    | ok _ => exact .onRelay (keeps_disconnectToken rec.id) fun _ => rfl

theorem keepsBooks_request (req : Request) : KeepsBooks cfg t (req.prog cfg) := by
  cases req with
  | agent ag => exact .onRelay (keeps_serveAgent ag) fun _ => rfl
  | expire ref => exact .onRelay (p := ask (.expire ref)) (keeps_expire rfl rfl) fun _ => rfl
  | addReservation name token port =>
    exact Keeps.bind (keepsBooks_addReservation name token port) fun _ _ hl => hl
  | removeReservation name =>
    exact Keeps.bind (keepsBooks_removeReservation name) fun _ _ hl => hl
  | revokeToken name => exact Keeps.bind (keepsBooks_revokeToken name) fun _ _ hl => hl

theorem Started.inv {a : RelayAPI γ} (h : Started cfg a) : Inv a.srv fun _ => {} := by
  obtain ⟨⟨grace, hnew⟩, -⟩ := h
  have hout := relayNew_ok.mp hnew
  have hload := load_induction (I := fun _ s => Inv s fun _ => {})
    (fun done x s reg hI _ hr => hI.keepsNames (hI.books.reserve hr) (Drops.reserve hr))
    a.reservationList [] _ (Inv.new _ _ _ _) (congrArg Prod.fst hout)
  rwa [hout] at hload

end

section
variable {cfg : Config γ} {requests : ℕ → Request} {a0 a : RelayAPI γ} {as : List (ℕ × World)}
  {P : ℕ → Prog ApiOp (Option Response)}

theorem books_beside_store (hstart : Started cfg a0)
    (hrun : Run (Guarded (Obeys UpholdsPorts) (PoolStep (RelayAPI.objects cfg)))
      (a0, fun t => (requests t).prog cfg) as (a, P)) :
    Books a.srv.registry a.srv.reservingOf := by
  obtain ⟨L, hI, -⟩ := keeps_run (I := fun a => Inv a.srv) (Q := fun _ _ l => l = {}) hrun
    hstart.inv fun t => keepsBooks_request (requests t)
  exact hI.books

theorem lasting_ports_ne {reg : NameRegistry} {reserving : ℕ → Option ℤ} (h : Books reg reserving)
    {n m T T' : String} {p q : ℤ} (hn : reg.lasting n = some (T, p))
    (hm : reg.lasting m = some (T', q)) (hne : n ≠ m) (h0 : q ≠ 0) : p ≠ q := by
  rintro rfl
  obtain ⟨u, hu, -, -, hup⟩ := NameRegistry.lasting_eq_some.mp hn
  obtain ⟨v, hv, -, -, hvp⟩ := NameRegistry.lasting_eq_some.mp hm
  have huv : u = v := Sum.inl.inj (h.ports.one (.inl u) (.inl v) p
    ⟨NameRegistry.named_of_get hu, hup, h0⟩ ⟨NameRegistry.named_of_get hv, hvp, h0⟩)
  subst huv
  exact hne ((reg.keyed n u hu).symm.trans (reg.keyed m u hv))

/-- In every such run in which no agent moves a permanent reservation to another
port either, and no request is in flight when the relay is stopped, it starts
again, and the permanent reservations have their tokens and ports. -/
theorem restart_restores (hstart : Started cfg a0)
    (hrun : Run (Guarded (Obeys UpholdsPorts) (PoolStep (RelayAPI.objects cfg)))
      (a0, fun t => (requests t).prog cfg) as (a, P))
    (hidle : Idle requests as P) (grace : ℤ) :
    ∃ s, a.restart cfg grace = .ok s ∧
      ∀ n, s.registry.lasting n = a.srv.registry.lasting n := by
  have hbooks := books_beside_store hstart hrun
  obtain ⟨L, hI, hnone⟩ := agrees_idle (R := Eq) (fun _ => rfl) hstart
    (hrun.mono fun _ _ _ h => ⟨h.1.mono fun _ _ _ _ hC => hC.2, h.2⟩) hidle
  -- with nothing half done, what is stored is what is reserved, with its port
  have hsame : ∀ {n T p}, a.srv.registry.lasting n = some (T, p) ↔
      a.reservations.get n = some ⟨n, T, p⟩ := by
    have hkept : ∀ {n x}, a.reservations.get n = some x →
        a.srv.registry.lasting n = some (x.tokenID, x.port) := by
      intro n x hx
      obtain ⟨p, hp, hport | ⟨t, ht⟩⟩ := hI.kept n x hx
      · rw [hp, hport]
      · cases (hnone t).symm.trans ht
    intro n T p
    constructor
    · intro hp
      rcases hI.stored n T p hp with ⟨x, hx, rfl⟩ | ⟨t, ht | ht⟩
      · have hname : x.name = n := Table.key_of_get hx
        subst hname
        cases hp.symm.trans (hkept hx)
        exact hx
      · cases (hnone t).symm.trans ht
      · cases (hnone t).symm.trans ht
    · exact fun hx => hkept hx
  have hports : a.reservationList.Pairwise Apart := by
    refine (List.Nodup.of_map _ a.nodup_reservationList).pairwise_of_forall_ne fun x hx y hy hne => ?_
    rw [a.mem_reservationList] at hx hy
    have hnames : x.name ≠ y.name := by
      intro heq
      rw [heq] at hx
      exact hne (Option.some.inj (hx.symm.trans hy))
    exact lasting_ports_ne hbooks (hsame.mpr hx) (hsame.mpr hy) hnames
  obtain ⟨s, hs⟩ : ∃ s, a.restart cfg grace = .ok s :=
    relayNew_succeeds grace a.srv.tokens a.srv.cluster a.nodup_reservationList hports
      fun x hx => hI.checked _ x (a.mem_reservationList.mp hx)
  refine ⟨s, hs, fun n => Option.ext fun e => ?_⟩
  obtain ⟨T, p⟩ := e
  rw [restart_lasting hs, hsame]

end

def upholdsPortsNow (β : Type) (t : ℕ) (op : ApiOp β) (a : RelayAPI γ) : Bool :=
  op.elim (fun op => Op.harmless β t op a.srv) (fun _ => true) && upholdsNow β t op a

theorem upholdsPorts_of_now (β : Type) (t : ℕ) (op : ApiOp β) (a : RelayAPI γ)
    (h : upholdsPortsNow β t op a) : UpholdsPorts β t op a := by
  obtain ⟨hop, hnow⟩ := (Bool.and_eq_true _ _).mp h
  refine ⟨?_, upholds_of_now (fun _ => rfl) β t op a hnow⟩
  cases op with
  | inl op => exact spares_of_harmless β t op a.srv hop
  | inr op => trivial

def reservedPort : List (ℕ × World) := demoSchedule [0, 0, 0, 1, 1, 1, 1, 1, 1, 1, 1, 1, 1]

theorem restart_restores_once : ∃ s,
    (apiEnd reserveOnce reservedPort).1.restart demoConfig 60 = .ok s ∧
    s.registry.lasting "a" = some ("T", 7000) := by
  have hrun := api_run upholdsPorts_of_now reserveOnce reservedPort (by decide +kernel)
  have hidle : Idle reserveOnce reservedPort (apiEnd reserveOnce reservedPort).2 := by
    intro t ht
    cases t with
    | zero => exact .inr ⟨_, rfl⟩
    | succ t => cases ht
  obtain ⟨s, hs, hlast⟩ := restart_restores apiStart_started hrun hidle 60
  refine ⟨s, hs, (hlast "a").trans ?_⟩
  decide +kernel

def movedAway : ℕ → Request
  | 0 => .addReservation "a" "alice" 7000
  | 1 => .agent (demoAgent [[{ name := "a", type := .tcp, publicPort := 7001 }]])
  | 2 => .addReservation "b" "alice" 7000
  | _ => .agent {}

def oneAtATime : List (ℕ × World) :=
  demoSchedule ([0, 0, 0] ++ List.replicate 18 1 ++ [2, 2, 2])

theorem restart_refused : ∃ a P,
    Run (PoolStep (RelayAPI.objects demoConfig))
      (apiStart, fun t => (movedAway t).prog demoConfig) oneAtATime (a, P) ∧
    Idle movedAway oneAtATime P ∧ (∃ res, P 1 = .done res) ∧
    a.srv.registry.lasting "a" = some ("T", 7001) ∧
    a.srv.registry.lasting "b" = some ("T", 7000) ∧
    ∀ grace, a.restart demoConfig grace =
      .error "relay: reservation \"b\": port 7000 is held by another tunnel" := by
  have hrun := api_run_any movedAway oneAtATime (by decide +kernel)
  refine ⟨_, _, hrun, fun t ht => ?_, ⟨_, rfl⟩, by decide +kernel, by decide +kernel,
    fun grace => rfl⟩
  cases t with
  | zero => exact .inr ⟨_, rfl⟩
  | succ t =>
    cases t with
    | zero => cases ht
    | succ t =>
      cases t with
      | zero => exact .inr ⟨_, rfl⟩
      | succ t => cases ht

end L8Tunnel.Admin
