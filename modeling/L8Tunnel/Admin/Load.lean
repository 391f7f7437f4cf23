import L8Tunnel.Admin.Api
import L8Tunnel.Registrar.Lasting

/-! # Starting with the stored reservations -/

namespace L8Tunnel.Admin
open Base Auth Registry Registrar
open Runs (eval eval_bind eval_call)

variable {γ : Type} {cfg : Config γ}

section
variable {s : Server γ} {name tokenID : String} {port : ℤ} {t : ℕ} {w : World}

theorem answer_reserve_ok {reg : NameRegistry} (hr : s.registry.reserve name tokenID port = .ok reg) :
    (Registrar.objects cfg).answer t w (.reserve name tokenID port) s =
      ({ s with registry := reg }, .ok ()) := by
  dsimp only [Registrar.objects, Server.answer]
  rw [hr]

theorem answer_reserve_error {kind : RuleKind}
    (hr : s.registry.reserve name tokenID port = .error kind) :
    (Registrar.objects cfg).answer t w (.reserve name tokenID port) s = (s, .error kind) := by
  dsimp only [Registrar.objects, Server.answer]
  rw [hr]

theorem eval_reserve_ok {reg : NameRegistry} (hcheck : cfg.rules.checkReservation name port = none)
    (hr : s.registry.reserve name tokenID port = .ok reg) :
    eval (Registrar.objects cfg) t w (reserve cfg name tokenID port) s =
      (none, { s with registry := reg }) := by
  unfold Registrar.reserve
  rw [hcheck]
  dsimp only
  rw [ask_bind, eval_call, answer_reserve_ok hr]
  rfl

theorem of_eval_reserve
    (h : (eval (Registrar.objects cfg) t w (reserve cfg name tokenID port) s).1 = none) :
    cfg.rules.checkReservation name port = none ∧
    ∃ reg, s.registry.reserve name tokenID port = .ok reg := by
  unfold Registrar.reserve at h
  cases hcheck : cfg.rules.checkReservation name port with
  | some err =>
    rw [hcheck] at h
    cases h
  | none =>
    refine ⟨rfl, ?_⟩
    rw [hcheck] at h
    dsimp only at h
    rw [ask_bind, eval_call] at h
    cases hr : s.registry.reserve name tokenID port with
    | ok reg => exact ⟨reg, rfl⟩
    | error kind =>
      rw [answer_reserve_error hr] at h
      cases kind <;> cases h

end

theorem load_induction {I : List StoredReservation → Server γ → Prop}
    (hstep : ∀ done x s reg, I done s → cfg.rules.checkReservation x.name x.port = none →
      s.registry.reserve x.name x.tokenID x.port = .ok reg →
      I (done ++ [x]) { s with registry := reg }) :
    ∀ (rest done : List StoredReservation) (s : Server γ), I done s →
      (eval (Registrar.objects cfg) 0 {} (loadReservations cfg rest) s).1 = none →
      I (done ++ rest) (eval (Registrar.objects cfg) 0 {} (loadReservations cfg rest) s).2
  | [], done, s, hI, _ => by
    rw [List.append_nil]
    exact hI
  | x :: rest, done, s, hI, h => by
    unfold loadReservations at h ⊢
    rw [eval_bind] at h ⊢
    have hnone : (eval (Registrar.objects cfg) 0 {} (reserve cfg x.name x.tokenID x.port) s).1 =
        none := by
      cases hout : (eval (Registrar.objects cfg) 0 {} (reserve cfg x.name x.tokenID x.port) s).1 with
      | none => rfl
      | some err =>
        rw [hout] at h
        cases h
    obtain ⟨hcheck, reg, hr⟩ := of_eval_reserve hnone
    rw [eval_reserve_ok hcheck hr] at h ⊢
    have := load_induction hstep rest (done ++ [x]) _ (hstep done x s reg hI hcheck hr) h
    rwa [List.append_assoc] at this

/-- The registry after `New` has reserved the stored names of `done`, and nothing else. -/
structure Loaded (cfg : Config γ) (done : List StoredReservation) (reg : NameRegistry) : Prop where
  names : ∀ n, reg.names.get n = none ↔ ∀ x ∈ done, x.name ≠ n
  lasting : ∀ n T p, reg.lasting n = some (T, p) ↔
    ∃ x ∈ done, x.name = n ∧ x.tokenID = T ∧ x.port = p
  ports : ∀ p ∈ reg.ports, ∃ x ∈ done, x.port = p
  checked : ∀ x ∈ done, cfg.rules.checkReservation x.name x.port = none

namespace Loaded
variable {done : List StoredReservation} {reg reg' : NameRegistry} {x : StoredReservation}

theorem new (grace : ℤ) (clustered : Bool) : Loaded cfg [] (.new grace clustered) where
  names n := by simp [NameRegistry.new]
  lasting n T p := by simp [NameRegistry.new, NameRegistry.lasting]
  ports p hp := by simp [NameRegistry.new] at hp
  checked := by simp

theorem reserve (h : Loaded cfg done reg) (hnew : ∀ y ∈ done, y.name ≠ x.name)
    (hcheck : cfg.rules.checkReservation x.name x.port = none)
    (hr : reg.reserve x.name x.tokenID x.port = .ok reg') : Loaded cfg (done ++ [x]) reg' := by
  have hfree := (h.names x.name).mpr hnew
  obtain ⟨ref, hname, -, -, -, -, hrest⟩ := NameRegistry.reserve_spec hr
  obtain ⟨⟨p, hp, hport⟩, hother⟩ := NameRegistry.lasting_reserve hr
  have hport := hport hfree
  subst hport
  constructor
  · intro n
    simp only [List.forall_mem_append, List.forall_mem_singleton]
    by_cases hn : n = x.name
    · subst hn
      simp [hname]
    · rw [(hrest n hn).1, h.names]
      simp [Ne.symm hn]
  · intro n T q
    simp only [List.mem_append, List.mem_singleton, or_and_right, exists_or, exists_eq_left]
    by_cases hn : n = x.name
    · subst hn
      rw [hp]
      constructor
      · rintro ⟨⟩
        exact .inr ⟨rfl, rfl, rfl⟩
      · rintro (⟨y, hy, hyn, -⟩ | ⟨-, rfl, rfl⟩)
        · exact absurd hyn (hnew y hy)
        · rfl
    · rw [hother n hn, h.lasting]
      simp [Ne.symm hn]
  · intro q hq
    rcases NameRegistry.reserve_ports hr hq with hq | hq
    · obtain ⟨y, hy, hyq⟩ := h.ports q hq
      exact ⟨y, List.mem_append_left _ hy, hyq⟩
    · exact ⟨x, List.mem_append_right _ List.mem_cons_self, hq.symm⟩
  · simp only [List.forall_mem_append, List.forall_mem_singleton]
    exact ⟨h.checked, hcheck⟩

end Loaded

variable {grace : ℤ} {tokens : Table TokenRecord.id} {cluster : γ} {rs : List StoredReservation}
  {s : Server γ}

theorem relayNew_ok :
    relayNew cfg grace tokens cluster rs = .ok s ↔
      eval (Registrar.objects cfg) 0 {} (loadReservations cfg rs)
        (.new grace cfg.cluster.isSome tokens cluster) = (none, s) := by
  unfold relayNew
  dsimp only
  generalize eval (Registrar.objects cfg) 0 {} (loadReservations cfg rs)
    (.new grace cfg.cluster.isSome tokens cluster) = out
  obtain ⟨err, s'⟩ := out
  cases err <;> simp

theorem relayNew_loaded (hnames : (rs.map (·.name)).Nodup)
    (h : relayNew cfg grace tokens cluster rs = .ok s) : Loaded cfg rs s.registry := by
  have hout := relayNew_ok.mp h
  have hload := load_induction
    (I := fun done s => (done.map (·.name)).Nodup → Loaded cfg done s.registry)
    (fun done x s reg hI hcheck hr hnodup => ?_) rs [] (.new grace cfg.cluster.isSome tokens cluster)
    (fun _ => .new _ _) (congrArg Prod.fst hout)
  · rw [hout] at hload
    exact hload hnames
  · rw [List.map_append, List.nodup_append] at hnodup
    obtain ⟨hdone, -, hdisjoint⟩ := hnodup
    refine (hI hdone).reserve (fun y hy => ?_) hcheck hr
    exact hdisjoint _ (List.mem_map_of_mem hy) _ List.mem_cons_self

def Apart (x y : StoredReservation) : Prop := y.port ≠ 0 → x.port ≠ y.port

theorem load_succeeds : ∀ (rest done : List StoredReservation) (s : Server γ),
    Loaded cfg done s.registry → ((done ++ rest).map (·.name)).Nodup → (done ++ rest).Pairwise Apart →
    (∀ x ∈ rest, cfg.rules.checkReservation x.name x.port = none) →
    (eval (Registrar.objects cfg) 0 {} (loadReservations cfg rest) s).1 = none
  | [], _, _, _, _, _, _ => rfl
  | x :: rest, done, s, hload, hnames, hports, hcheck => by
    have hnew : ∀ y ∈ done, y.name ≠ x.name := by
      intro y hy
      rw [List.map_append, List.nodup_append] at hnames
      exact hnames.2.2 _ (List.mem_map_of_mem hy) _ List.mem_cons_self
    have hfree : x.port ≠ 0 → x.port ∉ s.registry.ports := by
      intro h0 hmem
      obtain ⟨y, hy, hport⟩ := hload.ports _ hmem
      exact (List.pairwise_append.mp hports).2.2 y hy x List.mem_cons_self h0 hport
    have hx := hcheck x List.mem_cons_self
    obtain ⟨reg, hr⟩ := NameRegistry.reserve_of_free x.tokenID ((hload.names _).mpr hnew) hfree
    unfold loadReservations
    rw [eval_bind, eval_reserve_ok hx hr]
    refine load_succeeds rest (done ++ [x]) _ (hload.reserve hnew hx hr) ?_ ?_
      fun y hy => hcheck y (List.mem_cons_of_mem x hy)
    · rwa [List.append_assoc]
    · rwa [List.append_assoc]

theorem relayNew_succeeds (grace : ℤ) (tokens : Table TokenRecord.id) (cluster : γ)
    (hnames : (rs.map (·.name)).Nodup) (hports : rs.Pairwise Apart)
    (hcheck : ∀ x ∈ rs, cfg.rules.checkReservation x.name x.port = none) :
    ∃ s, relayNew cfg grace tokens cluster rs = .ok s := by
  have hnone := load_succeeds rs [] (.new grace cfg.cluster.isSome tokens cluster) (.new _ _) hnames
    hports hcheck
  exact ⟨_, relayNew_ok.mpr (Prod.ext hnone rfl)⟩

namespace RelayAPI
variable (a : RelayAPI γ)

theorem mem_reservationList {x : StoredReservation} :
    x ∈ a.reservationList ↔ a.reservations.get x.name = some x := by
  rw [reservationList, List.mem_insertionSort]
  exact Table.mem_values a.reservations x

theorem nodup_reservationList : (a.reservationList.map (·.name)).Nodup := by
  have hperm := List.perm_insertionSort (fun x y : StoredReservation => x.name ≤ y.name)
    a.reservations.values
  exact (hperm.map _).nodup_iff.mpr (Table.nodup_values a.reservations)

end RelayAPI

theorem restart_lasting {a : RelayAPI γ} (h : a.restart cfg grace = .ok s) {n T : String} {p : ℤ} :
    s.registry.lasting n = some (T, p) ↔ a.reservations.get n = some ⟨n, T, p⟩ := by
  rw [(relayNew_loaded a.nodup_reservationList h).lasting]
  simp only [a.mem_reservationList]
  constructor
  · rintro ⟨⟨n', T', p'⟩, hx, rfl, rfl, rfl⟩
    exact hx
  · exact fun hx => ⟨⟨n, T, p⟩, hx, rfl, rfl, rfl⟩

end L8Tunnel.Admin
