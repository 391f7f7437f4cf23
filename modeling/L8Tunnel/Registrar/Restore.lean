import L8Tunnel.Registrar.Exclusive
import L8Tunnel.Registrar.Undo

/-! # Undoing a registration -/

namespace L8Tunnel.Registrar
open Base
open NameRegistry

variable {γ : Type}

def PortHolder (r : NameRegistry) (held : List (ℕ × Bool)) (q : NameRegistry) :
    Option ℕ → ℤ → Prop
  | none, p => p ∈ r.ports
  | some u, p => (u, false) ∈ held ∧ (q.cells u).port = p ∧ p ≠ 0

/-- The registry `q` is `r` and what the session `t` has opened since. -/
structure Over (r : NameRegistry) (t : ℕ) (held : List (ℕ × Bool)) (q : NameRegistry) : Prop where
  closed : q.closed = r.closed
  clustered : q.clustered = r.clustered
  next : r.next ≤ q.next
  new : ∀ u, (u, false) ∈ held → r.next ≤ u ∧ u < q.next
  old : ∀ u, (u, true) ∈ held → u < r.next
  session : ∀ o ∈ held, (q.cells o.1).session = some t
  names : ∀ n u, q.names.get n = some u ↔
    r.names.get n = some u ∨ ((u, false) ∈ held ∧ (q.cells u).name = n)
  kept : ∀ u < r.next, (q.cells u).Alike (r.cells u)
  idle : ∀ u < r.next, (u, true) ∉ held →
    (q.cells u).session = none ∨ (q.cells u).session = (r.cells u).session
  ports : Ledger q.ports (PortHolder r held q)
  domains : ∀ d u, q.domains.get d = some u ↔
    r.domains.get d = some u ∨ ((u, false) ∈ held ∧ d ∈ (q.cells u).domains)

namespace Over
variable {r q q' : NameRegistry} {t u : ℕ} {held held' : List (ℕ × Bool)}

theorem refl (r : NameRegistry) (t : ℕ) : Over r t [] r where
  closed := rfl
  clustered := rfl
  next := le_refl _
  new := by simp
  old := by simp
  session := by simp
  names := by simp
  kept := fun _ _ => ⟨rfl, rfl, rfl, rfl, fun _ => Iff.rfl⟩
  idle := fun _ _ _ => .inr rfl
  ports := by
    refine ⟨fun p => ⟨fun hp => ⟨none, hp⟩, ?_⟩, ?_⟩
    · rintro ⟨_ | u, hp⟩
      · exact hp
      · simp [PortHolder] at hp
    · rintro (_ | u) (_ | v) p hu hv
      · rfl
      all_goals simp [PortHolder] at hu hv
  domains := by simp

theorem restored (h : Over r t [] q) : Restored r q where
  names := fun n => Option.ext fun u => by simpa using h.names n u
  kept := fun n u hn => h.kept u (r.named_lt n u hn)
  parked := by
    intro n u hn hs
    rcases h.idle u (r.named_lt n u hn) (by simp) with hidle | hidle
    · exact hidle
    · exact hidle.trans hs
  ports := by
    ext p
    rw [h.ports.mem_iff]
    constructor
    · rintro ⟨_ | u, hp⟩
      · exact hp
      · simp [PortHolder] at hp
    · exact fun hp => ⟨none, hp⟩
  domains := fun d => Option.ext fun u => by simpa using h.domains d u

theorem perm (h : Over r t held q) (hmem : ∀ o, o ∈ held' ↔ o ∈ held) : Over r t held' q := by
  have hholder : PortHolder r held' q = PortHolder r held q := by
    funext o p
    cases o with
    | none => rfl
    | some u => simp only [PortHolder, hmem]
  exact {
    closed := h.closed
    clustered := h.clustered
    next := h.next
    new := fun u hu => h.new u ((hmem _).mp hu)
    old := fun u hu => h.old u ((hmem _).mp hu)
    session := fun o ho => h.session o ((hmem o).mp ho)
    names := fun n u => by rw [h.names, hmem]
    kept := h.kept
    idle := fun u hu hnot => h.idle u hu (mt (hmem _).mpr hnot)
    ports := hholder ▸ h.ports
    domains := fun d u => by rw [h.domains, hmem] }

theorem not_new (h : Over r t held q) (hu : u < r.next) : (u, false) ∉ held :=
  fun hmem => absurd (h.new u hmem).1 (Nat.not_le.mpr hu)

variable {f : Reservation → Reservation} {ds : List String} {e : Bool}

theorem modify_old (h : Over r t held q) (hu : u < r.next)
    (hothers : ∀ o, o.1 ≠ u → (o ∈ held' ↔ o ∈ held)) (hnew : (u, false) ∉ held')
    (hf : ∀ v, (f v).name = v.name) (halike : (f (q.cells u)).Alike (r.cells u))
    (hbusy : (u, true) ∈ held' → (f (q.cells u)).session = some t)
    (hidle : (u, true) ∉ held' → (f (q.cells u)).session = none ∨
      (f (q.cells u)).session = (r.cells u).session) :
    Over r t held' (q.modify u f hf) := by
  have hcell : ∀ v, v ≠ u → (q.modify u f hf).cells v = q.cells v := fun v hv => by
    rw [modify_cells, if_neg hv]
  have hiff : ∀ v, (v, false) ∈ held' ↔ (v, false) ∈ held := by
    intro v
    by_cases hv : v = u
    · subst hv
      exact iff_of_false hnew (h.not_new hu)
    · exact hothers _ hv
  have hsame : ∀ {v} {P : Reservation → Prop}, ((v, false) ∈ held' ∧
      P ((q.modify u f hf).cells v)) ↔ ((v, false) ∈ held ∧ P (q.cells v)) := by
    intro v P
    rw [hiff]
    refine and_congr_right fun hmem => ?_
    rw [hcell]
    rintro rfl
    exact h.not_new hu hmem
  exact {
    closed := h.closed
    clustered := h.clustered
    next := h.next.trans (le_max_left _ _)
    new := fun v hv => ⟨(h.new v ((hiff v).mp hv)).1,
      (h.new v ((hiff v).mp hv)).2.trans_le (le_max_left _ _)⟩
    old := by
      intro v hv
      by_cases hvu : v = u
      · exact hvu ▸ hu
      · exact h.old v ((hothers _ hvu).mp hv)
    session := by
      rintro ⟨v, e⟩ ho
      by_cases hv : v = u
      · subst hv
        cases e with
        | false => exact absurd ho hnew
        | true => simpa using hbusy ho
      · dsimp only
        rw [hcell v hv]
        exact h.session _ ((hothers _ hv).mp ho)
    names := fun n v => by rw [modify_names, h.names, hsame (P := fun w => w.name = n)]
    kept := by
      intro v hv
      by_cases hvu : v = u
      · subst hvu
        rw [modify_self]
        exact halike
      · rw [hcell v hvu]
        exact h.kept v hv
    idle := by
      intro v hv hnot
      by_cases hvu : v = u
      · subst hvu
        rw [modify_self]
        exact hidle hnot
      · rw [hcell v hvu]
        exact h.idle v hv (mt (hothers _ hvu).mpr hnot)
    ports := by
      refine h.ports.congr fun o p => ?_
      cases o with
      | none => exact Iff.rfl
      | some v => exact hsame (P := fun w => w.port = p ∧ p ≠ 0)
    domains := fun d v => by
      rw [modify_domains, h.domains, hsame (P := fun w => d ∈ w.domains)] }

theorem lt_next (h : Over r t held q) {o : ℕ × Bool} (ho : o ∈ held) : o.1 < q.next := by
  obtain ⟨u, _ | _⟩ := o
  · exact (h.new u ho).2
  · exact (h.old u ho).trans_le h.next

theorem alike (h : Over r t held q) (hmode : q'.closed = q.closed ∧ q'.clustered = q.clustered)
    (hnext : q.next ≤ q'.next) (hnames : q'.names = q.names) (hports : q'.ports = q.ports)
    (hdomains : ∀ d, q'.domains.get d = q.domains.get d)
    (hcell : ∀ v, (q'.cells v).name = (q.cells v).name ∧
      (q'.cells v).session = (q.cells v).session ∧ (q'.cells v).Alike (q.cells v)) :
    Over r t held q' where
  closed := hmode.1.trans h.closed
  clustered := hmode.2.trans h.clustered
  next := h.next.trans hnext
  new := fun v hv => ⟨(h.new v hv).1, (h.new v hv).2.trans_le hnext⟩
  old := h.old
  session := fun o ho => by rw [(hcell o.1).2.1, h.session o ho]
  names := fun n v => by rw [hnames, h.names, (hcell v).1]
  kept := fun v hv => (hcell v).2.2.trans (h.kept v hv)
  idle := fun v hv hnot => by
    rw [(hcell v).2.1]
    exact h.idle v hv hnot
  ports := by
    rw [hports]
    refine h.ports.congr fun o p => ?_
    cases o with
    | none => exact Iff.rfl
    | some v => simp only [PortHolder, (hcell v).2.2.port]
  domains := fun d v => by rw [hdomains, h.domains, (hcell v).2.2.domains d]

theorem touch (h : Over r t held q) (hf : ∀ v, (f v).name = v.name)
    (hsession : ∀ v, (f v).session = v.session) (halike : ∀ v, (f v).Alike v) :
    Over r t held (q.modify u f hf) := by
  refine h.alike ⟨rfl, rfl⟩ (le_max_left _ _) rfl rfl (fun _ => rfl) fun v => ?_
  rw [modify_cells]
  split
  · exact ⟨hf _, hsession _, halike _⟩
  · exact ⟨rfl, rfl, ⟨rfl, rfl, rfl, rfl, fun _ => Iff.rfl⟩⟩

theorem alloc (h : Over r t held q) {v : Reservation} (hfree : q.names.get v.name = none)
    (hsession : v.session = some t) (hport : v.port = 0) (hdomains : v.domains = []) :
    Over r t ((q.next, false) :: held) (q.alloc v) := by
  have hcell : ∀ w, w ≠ q.next → (q.alloc v).cells w = q.cells w := fun w hw => by
    rw [alloc_cells, if_neg hw]
  have hself : (q.alloc v).cells q.next = v := by rw [alloc_cells, if_pos rfl]
  have hne : ∀ o ∈ held, o.1 ≠ q.next := fun o ho => (h.lt_next ho).ne
  have hold : ∀ w < r.next, w ≠ q.next := fun w hw => (hw.trans_le h.next).ne
  have hsame : ∀ {w} {P : Reservation → Prop}, ((w, false) ∈ (q.next, false) :: held ∧
      P ((q.alloc v).cells w)) ↔ ((w, false) ∈ held ∧ P (q.cells w)) ∨ (w = q.next ∧ P v) := by
    intro w P
    rw [List.mem_cons, Prod.mk.injEq]
    constructor
    · rintro ⟨⟨rfl, -⟩ | hmem, hP⟩
      · exact .inr ⟨rfl, hself ▸ hP⟩
      · exact .inl ⟨hmem, hcell w (hne _ hmem) ▸ hP⟩
    · rintro (⟨hmem, hP⟩ | ⟨rfl, hP⟩)
      · exact ⟨.inr hmem, (hcell w (hne _ hmem)).symm ▸ hP⟩
      · exact ⟨.inl ⟨rfl, rfl⟩, hself.symm ▸ hP⟩
  exact {
    closed := h.closed
    clustered := h.clustered
    next := h.next.trans (Nat.le_succ _)
    new := by
      intro w hw
      rcases List.mem_cons.mp hw with heq | hw
      · cases heq
        exact ⟨h.next, Nat.lt_succ_self _⟩
      · exact ⟨(h.new w hw).1, (h.new w hw).2.trans (Nat.lt_succ_self _)⟩
    old := by
      intro w hw
      rcases List.mem_cons.mp hw with heq | hw
      · cases heq
      · exact h.old w hw
    session := by
      intro o ho
      rcases List.mem_cons.mp ho with rfl | ho
      · rw [hself, hsession]
      · rw [hcell _ (hne o ho), h.session o ho]
    names := by
      intro n w
      rw [hsame (P := fun x => x.name = n)]
      show (q.names.set v.name q.next).get n = some w ↔ _
      rw [GoMap.get_set_eq_ite]
      split
      next hn =>
        subst hn
        have hnone := h.names v.name w
        rw [hfree] at hnone
        constructor
        · intro heq
          exact .inr (.inr ⟨(Option.some.inj heq).symm, rfl⟩)
        · rintro (hr | hheld | ⟨rfl, -⟩)
          · exact absurd (hnone.mpr (.inl hr)) (by simp)
          · exact absurd (hnone.mpr (.inr hheld)) (by simp)
          · rfl
      next hn =>
        rw [h.names, ← or_assoc]
        refine (or_iff_left ?_).symm
        exact fun hv => hn hv.2.symm
    kept := fun w hw => by
      rw [hcell w (hold w hw)]
      exact h.kept w hw
    idle := fun w hw hnot => by
      rw [hcell w (hold w hw)]
      exact h.idle w hw fun hmem => hnot (List.mem_cons_of_mem _ hmem)
    ports := by
      refine h.ports.congr fun o p => ?_
      cases o with
      | none => exact Iff.rfl
      | some w =>
        refine (hsame (P := fun x => x.port = p ∧ p ≠ 0)).trans (or_iff_left ?_)
        rintro ⟨-, hp, h0⟩
        exact h0 (hp.symm.trans hport)
    domains := by
      intro d w
      rw [hsame (P := fun x => d ∈ x.domains), hdomains]
      show q.domains.get d = some w ↔ _
      rw [h.domains]
      simp }

theorem write_new (h : Over r t held q) (hu : (u, false) ∈ held)
    (hcell : ∀ v, v ≠ u → q'.cells v = q.cells v) (hname : (q'.cells u).name = (q.cells u).name)
    (hsession : (q'.cells u).session = (q.cells u).session)
    (hmode : q'.closed = q.closed ∧ q'.clustered = q.clustered) (hnext : q.next ≤ q'.next)
    (hnames : q'.names = q.names) (hports : Ledger q'.ports (PortHolder r held q'))
    (hdomains : ∀ d v, q'.domains.get d = some v ↔
      r.domains.get d = some v ∨ ((v, false) ∈ held ∧ d ∈ (q'.cells v).domains)) :
    Over r t held q' := by
  have hold : ∀ v < r.next, v ≠ u := by
    rintro v hv rfl
    exact h.not_new hv hu
  exact {
    closed := hmode.1.trans h.closed
    clustered := hmode.2.trans h.clustered
    next := h.next.trans hnext
    new := fun v hv => ⟨(h.new v hv).1, (h.new v hv).2.trans_le hnext⟩
    old := h.old
    session := by
      intro o ho
      by_cases hv : o.1 = u
      · rw [hv, hsession, ← hv]
        exact h.session o ho
      · rw [hcell _ hv]
        exact h.session o ho
    names := by
      intro n v
      rw [hnames, h.names]
      by_cases hv : v = u
      · rw [hv, hname]
      · rw [hcell v hv]
    kept := fun v hv => by
      rw [hcell v (hold v hv)]
      exact h.kept v hv
    idle := fun v hv hnot => by
      rw [hcell v (hold v hv)]
      exact h.idle v hv hnot
    ports := hports
    domains := hdomains }

theorem replaceDomains_old (h : Over r t held q) (hu : u < r.next) (hsame : SameDomains r u ds) :
    Over r t held (q.replaceDomains u ds) := by
  have hds : ∀ d, d ∈ ds ↔ d ∈ (q.cells u).domains := fun d =>
    (hsame d).1.trans ((h.kept u hu).domains d).symm
  refine h.alike ⟨rfl, rfl⟩ (le_max_left _ _) rfl rfl (fun d => ?_) fun v => ?_
  · rw [replaceDomains_get]
    split
    next hd => rw [(h.domains d u).mpr (.inl ((hsame d).2 hd))]
    next hd => rw [if_neg fun hboth => hd ((hds d).mpr hboth.1)]
  · rw [replaceDomains_cells]
    split
    next hv =>
      subst hv
      exact ⟨rfl, rfl, ⟨rfl, rfl, rfl, rfl, hds⟩⟩
    next => exact ⟨rfl, rfl, ⟨rfl, rfl, rfl, rfl, fun _ => Iff.rfl⟩⟩

theorem setDomains (h : Over r t held q) (hu : (u, e) ∈ held) (hd : q.setDomains u ds = .ok q')
    (hsame : e = true → SameDomains r u ds) : Over r t held q' := by
  obtain ⟨rfl, hfree⟩ := setDomains_ok hd
  cases e with
  | true => exact h.replaceDomains_old (h.old u hu) (hsame rfl)
  | false =>
    have hcell : ∀ v, v ≠ u → (q.replaceDomains u ds).cells v = q.cells v := fun v hv => by
      rw [replaceDomains_cells, if_neg hv]
    have hself : (q.replaceDomains u ds).cells u = { q.cells u with domains := ds } := by
      rw [replaceDomains_cells, if_pos rfl]
    refine h.write_new hu hcell ?_ ?_ ⟨rfl, rfl⟩ (le_max_left _ _) rfl ?_ fun d v => ?_
    · rw [hself]
    · rw [hself]
    · refine h.ports.congr fun o p => ?_
      cases o with
      | none => exact Iff.rfl
      | some v =>
        by_cases hv : v = u
        · subst hv
          simp only [PortHolder, hself]
        · simp only [PortHolder, hcell v hv]
    · have hr : r.domains.get d ≠ some u := fun hget =>
        absurd (h.new u hu).1 (Nat.not_le.mpr (r.domain_lt d u hget))
      rw [replaceDomains_get]
      by_cases hv : v = u
      · subst hv
        simp only [hself, hu, hr, true_and, false_or]
        split
        next hmem => exact iff_of_true rfl hmem
        next hmem =>
          refine iff_of_false ?_ hmem
          split
          · simp
          next hnot =>
            intro hget
            rcases (h.domains d v).mp hget with hget' | ⟨-, hd'⟩
            · exact hr hget'
            · exact hnot ⟨hd', hget⟩
      · rw [hcell v hv, ← h.domains]
        split
        next hmem =>
          refine iff_of_false (fun heq => hv (Option.some.inj heq).symm) fun hget => ?_
          rcases hfree d hmem with hnone | hsome
          · rw [hnone] at hget
            cases hget
          · exact hv (Option.some.inj (hget.symm.trans hsome))
        next =>
          split
          next hboth =>
            refine iff_of_false (by simp) fun hget => ?_
            exact hv (Option.some.inj (hget.symm.trans hboth.2))
          next => exact Iff.rfl

theorem ported {requested : ℤ} (h : Over r t held q) (hu : (u, e) ∈ held)
    (hp : Ported q u requested q') (hnew : e = false → (q.cells u).port = 0)
    (hold : e = true → PortKept r u requested) : Over r t held q' := by
  cases hp with
  | held => exact h
  | taken p hnot h0 hfree hne =>
    cases e with
    | true =>
      refine absurd (hold rfl) ?_
      rwa [PortKept, ← (h.kept u (h.old u hu)).port]
    | false =>
      have hcell : ∀ v, v ≠ u → ((q.addPort p).setPort u p).cells v = q.cells v := fun v hv => by
        rw [setPort_cells, if_neg hv]
        rfl
      have hself : ((q.addPort p).setPort u p).cells u = { q.cells u with port := p } := by
        rw [setPort_cells, if_pos rfl]
        rfl
      have hset : (q.addPort p).setPort u p =
          (q.addPort p).modify u (fun v => { v with port := p }) fun _ => rfl := by
        unfold NameRegistry.setPort
        dsimp only
        rw [if_neg]
        rintro ⟨hheld, -⟩
        exact hheld (hnew rfl)
      refine h.write_new hu hcell ?_ ?_ ?_ ?_ ?_ ?_ fun d v => ?_
      · rw [hself]
      · rw [hself]
      · rw [hset]
        exact ⟨rfl, rfl⟩
      · rw [hset]
        exact le_max_left _ _
      · rw [setPort_names]
        rfl
      · rw [hset]
        refine h.ports.take (a := some u) hfree fun o x => ?_
        rw [← hset]
        cases o with
        | none =>
          simp only [PortHolder, reduceCtorEq, false_and, or_false]
        | some v =>
          by_cases hv : v = u
          · subst hv
            simp only [PortHolder, hself, hnew rfl, hu, true_and]
            constructor
            · rintro ⟨rfl, -⟩
              exact .inr rfl
            · rintro (⟨rfl, hx⟩ | rfl)
              · exact absurd rfl hx
              · exact ⟨rfl, h0⟩
          · simp only [PortHolder, hcell v hv, Option.some.injEq, hv, false_and, or_false]
      · rw [setPort_domains]
        show q.domains.get d = some v ↔ _
        rw [h.domains]
        by_cases hv : v = u
        · rw [hv, hself]
        · rw [hcell v hv]

theorem deleteLocked (h : Over r t ((u, false) :: held) q) (hne : ∀ o ∈ held, o.1 ≠ u) :
    Over r t held (q.deleteLocked u) := by
  have hu : (u, false) ∈ (u, false) :: held := List.mem_cons_self
  have hcell : ∀ v, v ≠ u → (q.deleteLocked u).cells v = q.cells v := fun v hv => by
    rw [deleteLocked_cells, if_neg hv]
  have hold : ∀ v < r.next, v ≠ u := by
    rintro v hv rfl
    exact h.not_new hv hu
  have hiff : ∀ {v} {P : Reservation → Prop}, v ≠ u →
      (((v, false) ∈ held ∧ P ((q.deleteLocked u).cells v)) ↔
        ((v, false) ∈ (u, false) :: held ∧ P (q.cells v))) := by
    intro v P hv
    rw [hcell v hv, List.mem_cons, Prod.mk.injEq]
    simp [hv]
  have hmode := deleteLocked_mode q u
  exact {
    closed := hmode.1.trans h.closed
    clustered := hmode.2.trans h.clustered
    next := h.next.trans (le_deleteLocked_next q u)
    new := fun v hv => ⟨(h.new v (List.mem_cons_of_mem _ hv)).1,
      (h.new v (List.mem_cons_of_mem _ hv)).2.trans_le (le_deleteLocked_next q u)⟩
    old := fun v hv => h.old v (List.mem_cons_of_mem _ hv)
    session := fun o ho => by
      rw [hcell _ (hne o ho)]
      exact h.session o (List.mem_cons_of_mem _ ho)
    names := by
      intro n v
      rw [deleteLocked_names]
      by_cases hv : v = u
      · subst hv
        refine iff_of_false ?_ ?_
        · split
          · simp
          next hnot => exact hnot
        · rintro (hr | ⟨hmem, -⟩)
          · exact hold _ (r.named_lt n v hr) rfl
          · exact hne _ hmem rfl
      · rw [hiff (P := fun w => w.name = n) hv, ← h.names]
        split
        next hget => exact iff_of_false (by simp) fun hn => hv (Option.some.inj (hn.symm.trans hget))
        next => exact Iff.rfl
    kept := fun v hv => by
      rw [hcell v (hold v hv)]
      exact h.kept v hv
    idle := fun v hv hnot => by
      rw [hcell v (hold v hv)]
      refine h.idle v hv fun hmem => ?_
      rcases List.mem_cons.mp hmem with heq | hmem
      · cases heq
      · exact hnot hmem
    ports := by
      rw [deleteLocked_ports]
      have hholds : ∀ o x, PortHolder r held (q.deleteLocked u) o x ↔
          PortHolder r ((u, false) :: held) q o x ∧ o ≠ some u := by
        intro o x
        cases o with
        | none => simp [PortHolder]
        | some v =>
          by_cases hv : v = u
          · subst hv
            refine iff_of_false (fun hp => hne _ hp.1 rfl) fun hp => hp.2 rfl
          · rw [and_iff_left (by simpa using hv)]
            exact hiff (P := fun w => w.port = x ∧ x ≠ 0) hv
      split
      next h0 =>
        refine h.ports.leave (a := some u) (fun x => ?_) hholds
        constructor
        · rintro ⟨-, rfl, -⟩
          rfl
        · rintro rfl
          exact ⟨hu, rfl, h0⟩
      next h0 =>
        refine h.ports.congr fun o x => (hholds o x).trans (and_iff_left_of_imp ?_)
        rintro hp rfl
        exact hp.2.2 (hp.2.1.symm.trans (not_not.mp h0))
    domains := by
      intro d v
      rw [deleteLocked_domains]
      by_cases hv : v = u
      · subst hv
        refine iff_of_false ?_ ?_
        · split
          · simp
          next hnot =>
            intro hget
            rcases (h.domains d v).mp hget with hr | ⟨-, hd⟩
            · exact hold _ (r.domain_lt d v hr) rfl
            · exact hnot ⟨hd, hget⟩
        · rintro (hr | ⟨hmem, -⟩)
          · exact hold _ (r.domain_lt d v hr) rfl
          · exact hne _ hmem rfl
      · rw [hiff (P := fun w => d ∈ w.domains) hv, ← h.domains]
        split
        next hget => exact iff_of_false (by simp) fun hn => hv (Option.some.inj (hn.symm.trans hget.2))
        next => exact Iff.rfl }

theorem park (h : Over r t ((u, true) :: held) q) (hne : ∀ o ∈ held, o.1 ≠ u)
    (hclustered : r.clustered = false) (hperm : r.closed → (r.cells u).permanent) (now : ℤ) :
    Over r t held (q.park u t now) := by
  have hu : u < r.next := h.old u List.mem_cons_self
  have halike := h.kept u hu
  have hparked : Over r t held (q.modify u (fun v => { v with session := none, tunnel := none })
      fun _ => rfl) := by
    refine h.modify_old hu (fun o ho => ?_) (fun hmem => hne _ hmem rfl) _ ?_ ?_ ?_
    · rw [List.mem_cons]
      refine (or_iff_right ?_).symm
      rintro rfl
      exact ho rfl
    · exact ⟨halike.tokenID, halike.permanent, halike.port, halike.typ, halike.domains⟩
    · exact fun hmem => absurd rfl (hne _ hmem)
    · exact fun _ => .inl rfl
  refine park_induction (fun hne => absurd (h.session _ List.mem_cons_self) hne)
    (fun _ _ => hparked) (fun _ _ hdel => ?_) fun _ _ _ _ => ?_
  · -- a reservation that a closed relay forgets is not permanent
    exfalso
    have hnot : (r.cells u).permanent = false := by
      rw [← halike.permanent]
      exact hdel.2
    rcases hdel.1 with hclosed | hcluster
    · rw [h.closed] at hclosed
      rw [hperm hclosed] at hnot
      cases hnot
    · rw [h.clustered, hclustered] at hcluster
      cases hcluster
  · exact hparked.touch _ (fun _ => rfl) fun _ => ⟨rfl, rfl, rfl, rfl, fun _ => Iff.rfl⟩

theorem rollback (h : Over r t ((u, e) :: held) q) (hne : ∀ o ∈ held, o.1 ≠ u)
    (hclustered : r.clustered = false) (hperm : e = true → r.closed → (r.cells u).permanent)
    (now : ℤ) : Over r t held (q.rollback u t e now) := by
  unfold NameRegistry.rollback
  cases e with
  | true => exact h.park hne hclustered (hperm rfl) now
  | false =>
    rw [if_neg (by simp), if_pos (h.session _ List.mem_cons_self)]
    exact h.deleteLocked hne

section
variable {name tokenID agentID : String} {typ : TunnelType} {maxTunnels : ℤ} {c : Claimed}

theorem claim (h : Over r t held q) (hc : q.claim name typ tokenID agentID t maxTunnels = .ok c)
    (htyp : ∀ v, r.names.get name = some v → (r.cells v).typ = typ) :
    Over r t ((c.res, c.existed) :: held) c.registry ∧ (∀ o ∈ held, o.1 ≠ c.res) ∧
    (c.existed = true → r.names.get name = some c.res) := by
  obtain ⟨hget, rfl⟩ | ⟨u, stale, hget, rfl⟩ := claim_ok hc
  · exact ⟨h.alloc hget rfl rfl rfl, fun o ho => (h.lt_next ho).ne, by simp⟩
  · -- the session does not have the name yet, so it is one from before
    have hsession := (claim_holder hc hget).2
    have hheld : ∀ o ∈ held, o.1 ≠ u := by
      rintro o ho rfl
      exact hsession (h.session o ho)
    have hr : r.names.get name = some u := by
      rcases (h.names name u).mp hget with hr | ⟨hmem, -⟩
      · exact hr
      · exact absurd rfl (hheld _ hmem)
    have hu := r.named_lt name u hr
    have halike := h.kept u hu
    refine ⟨?_, hheld, fun _ => hr⟩
    dsimp only
    refine h.modify_old hu (fun o ho => ?_) ?_ _ ?_ ?_ ?_
    · rw [List.mem_cons]
      refine or_iff_right ?_
      rintro rfl
      exact ho rfl
    · rw [List.mem_cons]
      rintro (heq | hmem)
      · cases heq
      · exact hheld _ hmem rfl
    · exact ⟨halike.tokenID, halike.permanent, halike.port, (htyp u hr).symm, halike.domains⟩
    · exact fun _ => rfl
    · exact fun hnot => absurd List.mem_cons_self hnot

end

variable {who : Identity} {a : Ask}

theorem opens (h : Over r t held q) (hkeeps : a.Keeps r) (ho : Opens t who a q u e q') :
    Over r t ((u, e) :: held) q' ∧ ∀ o ∈ held, o.1 ≠ u := by
  cases ho with
  | @mk c r2 r3 tn hc hd hport =>
    obtain ⟨hover, hne, hold⟩ := h.claim hc fun v hv => (hkeeps v hv).1
    refine ⟨?_, hne⟩
    have hmem : (c.res, c.existed) ∈ (c.res, c.existed) :: held := List.mem_cons_self
    have h2 := hover.setDomains hmem hd fun he => (hkeeps _ (hold he)).2.1
    have hnew : c.existed = false → (r2.cells c.res).port = 0 := by
      intro he
      obtain ⟨rfl, -⟩ := setDomains_ok hd
      rcases (claim_cell hc).2.2.2 with ⟨he', -⟩ | ⟨-, -, -, hport0, -⟩
      · rw [he] at he'
        cases he'
      · rw [replaceDomains_cells, if_pos rfl]
        exact hport0
    have h3 : Over r t ((c.res, c.existed) :: held) r3 := by
      split at hport
      next hported =>
        exact h2.ported hmem hport hnew fun he => (hkeeps _ (hold he)).2.2.1 hported
      next => exact hport ▸ h2
    exact h3.touch _ (fun _ => rfl) fun _ => ⟨rfl, rfl, rfl, rfl, fun _ => Iff.rfl⟩

theorem opensAll {os : List (Ask × ℕ × Bool)} (h : Over r t held q)
    (hall : OpensAll t who os q q') (hkeeps : ∀ o ∈ os, o.1.Keeps r)
    (hnodup : (held.map (·.1)).Nodup) :
    Over r t (held ++ os.map (·.2)) q' ∧ ((held ++ os.map (·.2)).map (·.1)).Nodup := by
  induction hall generalizing held with
  | nil =>
    rw [List.map_nil, List.append_nil]
    exact ⟨h, hnodup⟩
  | @cons a u e os q q1 q' ho _ ih =>
    obtain ⟨h1, hne⟩ := h.opens (hkeeps _ List.mem_cons_self) ho
    have h2 : Over r t (held ++ [(u, e)]) q1 := h1.perm fun o => by simp [or_comm]
    have hnodup2 : ((held ++ [(u, e)]).map (·.1)).Nodup := by
      rw [List.map_append, List.nodup_append']
      refine ⟨hnodup, by simp, ?_⟩
      simp only [List.map_cons, List.map_nil, List.disjoint_singleton, List.mem_map, not_exists,
        not_and]
      exact hne
    have hrest := ih h2 (fun o hmem => hkeeps o (List.mem_cons_of_mem _ hmem)) hnodup2
    rw [List.append_assoc] at hrest
    exact hrest

theorem undone (h : Over r t held q) (hundo : Undone t held q q')
    (hnodup : (held.map (·.1)).Nodup) (hclustered : r.clustered = false)
    (hperm : ∀ u, (u, true) ∈ held → r.closed → (r.cells u).permanent) : Over r t [] q' := by
  induction hundo with
  | nil => exact h
  | @cons u e held q q' now _ ih =>
    rw [List.map_cons, List.nodup_cons] at hnodup
    have hne : ∀ o ∈ held, o.1 ≠ u := by
      rintro o ho rfl
      exact hnodup.1 (List.mem_map.mpr ⟨o, ho, rfl⟩)
    refine ih (h.rollback hne hclustered ?_ now) hnodup.2 fun v hv => hperm v (List.mem_cons_of_mem _ hv)
    rintro rfl
    exact hperm u List.mem_cons_self

theorem fails (h : Over r t held q) (hf : FailsToOpen t who a q q')
    (hclustered : r.clustered = false)
    (hkeeps : ∀ c, q.claim a.name a.spec.type who.token.id who.agentID t
        who.token.policy.maxTunnels = .ok c → ∀ u, r.names.get a.name = some u →
      (r.cells u).typ = a.spec.type ∧ (r.closed → (r.cells u).permanent) ∧
        ∀ q2, c.registry.setDomains u a.domains = .ok q2 → SameDomains r u a.domains) :
    Over r t held q' := by
  cases hf with
  | claim => exact h
  | domain now hc hd =>
    obtain ⟨hover, hne, hold⟩ := h.claim hc fun v hv => (hkeeps _ hc v hv).1
    exact hover.rollback hne hclustered (fun he => (hkeeps _ hc _ (hold he)).2.1) now
  | port now hc hd =>
    obtain ⟨hover, hne, hold⟩ := h.claim hc fun v hv => (hkeeps _ hc v hv).1
    have h2 := hover.setDomains List.mem_cons_self hd
      fun he => (hkeeps _ hc _ (hold he)).2.2 _ hd
    exact h2.rollback hne hclustered (fun he => (hkeeps _ hc _ (hold he)).2.1) now

end Over

section
variable {cfg : Config γ} {r r1 r' rk : NameRegistry} {t u : ℕ} {who : Identity} {a : Ask}
  {os : List (Ask × ℕ × Bool)}

theorem setDomains_ok_iff {ds : List String} : (∃ q, r.setDomains u ds = .ok q) ↔
    ∀ d ∈ ds, r.domains.get d = none ∨ r.domains.get d = some u := by
  refine ⟨fun ⟨q, hq⟩ => (setDomains_ok hq).2, fun h => ?_⟩
  unfold NameRegistry.setDomains
  have hnone : ds.find? (r.domainTaken u) = none := by
    refine List.find?_eq_none.mpr fun d hd => ?_
    rcases h d hd with hget | hget <;> simp [domainTaken, hget]
  rw [hnone]
  exact ⟨_, rfl⟩

theorem OpensAll.existed (h : OpensAll t who os r rk) :
    ∀ o ∈ os, r.names.get o.1.name = if o.2.2 then some o.2.1 else none := by
  induction h with
  | nil => simp
  | cons ho hrest ih =>
    intro o hmem
    rcases List.mem_cons.mp hmem with rfl | hmem
    · cases ho with
      | mk _ hc =>
        rcases (claim_cell hc).2.2.2 with ⟨he, hget, -⟩ | ⟨he, hget, -⟩ <;> simp [he, hget]
    · have hne := (OpensAll.placed (opens_placed ho) hrest).2 o hmem
      rw [← ih o hmem, opens_names ho hne.1]

theorem free_iff {c : Claimed} {ds : List String} (hover : Over r t (os.map (·.2)) rk)
    (hall : OpensAll t who os r rk) (hdomains : c.registry.domains = rk.domains) (hu : u < r.next) :
    (∃ q, c.registry.setDomains u ds = .ok q) ↔ Ask.Free r u (os.map (·.1)) ds := by
  rw [setDomains_ok_iff, hdomains]
  refine forall₂_congr fun d _ => ?_
  constructor
  · intro hget
    constructor
    · cases hr : r.domains.get d with
      | none => exact .inl rfl
      | some v =>
        have hv := (hover.domains d v).mpr (.inl hr)
        rw [hv] at hget
        simpa using hget
    · intro b hb hnone hmem
      obtain ⟨⟨b, v, e⟩, ho, rfl⟩ := List.mem_map.mp hb
      have he : e = false := by
        have hexisted := hall.existed _ ho
        rw [hnone] at hexisted
        simpa using hexisted
      subst he
      have hnew : (v, false) ∈ os.map (·.2) := List.mem_map.mpr ⟨_, ho, rfl⟩
      have hv := (hover.domains d v).mpr (.inr ⟨hnew, by
        rw [(hall.all_placed _ ho).domains]
        exact hmem⟩)
      rw [hv] at hget
      have hvu : v = u := by simpa using hget
      exact absurd (hover.new v hnew).1 (Nat.not_le.mpr (hvu ▸ hu))
  · rintro ⟨hr, hothers⟩
    cases hget : rk.domains.get d with
    | none => exact .inl rfl
    | some v =>
      rcases (hover.domains d v).mp hget with hv | ⟨hmem, hd⟩
      · rw [hv] at hr
        simpa using hr
      · obtain ⟨o, ho, heq⟩ := List.mem_map.mp hmem
        have hplaced := hall.all_placed o ho
        rw [heq] at hplaced
        rw [hplaced.domains] at hd
        have hnone : r.names.get o.1.name = none := by rw [hall.existed o ho, heq]; rfl
        exact absurd hd (hothers o.1 (List.mem_map.mpr ⟨o, ho, rfl⟩) hnone)

theorem failed_keeps (hres : Restored r r') (hclustered : r.clustered = false)
    (hall : OpensAll t who os r rk) (hkeeps : ∀ o ∈ os, o.1.Keeps r)
    (hf : FailsToOpen t who a rk r1) (hundo : Undone t (os.map (·.2)) r1 r') :
    a.KeepsInVain r t who (os.map (·.1)) := by
  intro u hu hgranted
  obtain ⟨c, hc⟩ := (granted_iff hall).mpr hgranted
  have hmem : a.name ∉ os.map (·.1.name) := by
    have hnot := hgranted.1
    rwa [List.map_map] at hnot
  obtain ⟨hne, hcell⟩ := hall.cell hmem hu
  have hne' : ∀ o ∈ os.map (·.2), u ≠ o.1 := by
    rintro _ hmem
    obtain ⟨o, ho, rfl⟩ := List.mem_map.mp hmem
    exact hne o ho
  have hover : Over r t (os.map (·.2)) rk :=
    ((Over.refl r t).opensAll hall hkeeps List.nodup_nil).1
  obtain ⟨hname, hsession, htyp, hold | ⟨-, hnone, -⟩⟩ := claim_cell hc
  swap
  · rw [hall.names hmem, hu] at hnone
    cases hnone
  obtain ⟨hexisted, hget, hperm, -⟩ := hold
  obtain ⟨hclosed, hcluster, -, hdomains⟩ := claim_rest hc
  have hres_eq : c.res = u := by
    rw [hall.names hmem, hu] at hget
    exact (Option.some.inj hget).symm
  rw [hres_eq] at hname hsession htyp hperm
  have hkept : r'.names.get a.name = some u := (hres.names a.name).trans hu
  have halike := hres.kept a.name u hu
  have hfree : (∃ q, c.registry.setDomains u a.domains = .ok q) ↔
      Ask.Free r u (os.map (·.1)) a.domains := free_iff hover hall hdomains (r.named_lt _ _ hu)
  have hpermanent : (c.registry.closed → (c.registry.cells u).permanent) →
      r.closed → (r.cells u).permanent := by
    rw [hclosed, hperm, hall.mode.1, hcell]
    exact id
  cases hf with
  | claim herr =>
    rw [hc] at herr
    cases herr
  | domain now hc' hd =>
    rw [hc] at hc'
    cases hc'
    rw [hexisted, hres_eq] at hundo
    obtain ⟨htyp', -, -, hperm', -⟩ := parked_left hsession hname
      (by rw [hcluster, hall.mode.2, hclustered]) hundo hne' hkept
    refine ⟨?_, hpermanent hperm', fun hf => ?_⟩
    · rw [← halike.typ, htyp', htyp]
    · obtain ⟨q, hq⟩ := hfree.mpr hf
      rw [hres_eq, hq] at hd
      cases hd
  | @port c' r2 now hc' hd =>
    rw [hc] at hc'
    cases hc'
    rw [hexisted, hres_eq] at hundo
    rw [hres_eq] at hd
    obtain ⟨rfl, -⟩ := setDomains_ok hd
    have hself : (c.registry.replaceDomains u a.domains).cells u =
        { c.registry.cells u with domains := a.domains } := by
      rw [replaceDomains_cells, if_pos rfl]
    have hsession2 : ((c.registry.replaceDomains u a.domains).cells u).session = some t := by
      rw [hself]
      exact hsession
    have hname2 : (c.registry.replaceDomains u a.domains).names.get a.name = some u := hname
    have hcluster2 : (c.registry.replaceDomains u a.domains).clustered = false :=
      hcluster.trans (hall.mode.2.trans hclustered)
    obtain ⟨htyp', hdomains', -, hperm', hindex⟩ :=
      parked_left hsession2 hname2 hcluster2 hundo hne' hkept
    rw [hself] at htyp' hdomains' hperm'
    refine ⟨?_, hpermanent hperm', fun _ => ?_⟩
    · rw [← halike.typ, htyp', htyp]
    · refine sameDomains_left hres hu hdomains' fun d hd => hindex d ?_
      rw [replaceDomains_get, if_pos hd]

theorem restored_iff {specs : List TunnelSpec} {f : Option Ask} (hclustered : r.clustered = false)
    (htries : Tries cfg t who specs r os f r1) (hundo : Undone t (os.map (·.2)) r1 r') :
    Restored r r' ↔ (∀ o ∈ os, o.1.Keeps r) ∧
      ∀ a, f = some a → a.KeepsInVain r t who (os.map (·.1)) := by
  obtain ⟨rk, hall, hlast⟩ := htries.split
  constructor
  · intro hres
    have hkeeps : ∀ o ∈ os, o.1.Keeps r := by
      rintro ⟨a, u, e⟩ ho
      obtain ⟨pre, post, rfl⟩ := List.append_of_mem ho
      rcases hlast with ⟨-, rfl⟩ | ⟨b, -, hf⟩
      · exact opened_keeps hres hclustered hall (fun _ => Apart.refl _ _) ⟨rfl, rfl⟩ hundo
      · exact opened_keeps hres hclustered hall (fun hp => hf.apart hp) hf.mode hundo
    refine ⟨hkeeps, fun a ha => ?_⟩
    rcases hlast with ⟨rfl, -⟩ | ⟨b, rfl, hf⟩
    · cases ha
    · cases ha
      exact failed_keeps hres hclustered hall hkeeps hf hundo
  · rintro ⟨hkeeps, hvain⟩
    obtain ⟨hover, hnodup⟩ := (Over.refl r t).opensAll hall hkeeps List.nodup_nil
    rw [List.nil_append] at hover hnodup
    have hover1 : Over r t (os.map (·.2)) r1 := by
      rcases hlast with ⟨-, rfl⟩ | ⟨a, rfl, hf⟩
      · exact hover
      · refine hover.fails hf hclustered fun c hc u hu => ?_
        have hgranted := (granted_iff hall).mp ⟨c, hc⟩
        obtain ⟨htyp, hperm, hsame⟩ := hvain a rfl u hu hgranted
        refine ⟨htyp, hperm, fun q hq => hsame ?_⟩
        exact (free_iff hover hall (claim_rest hc).2.2.2 (r.named_lt _ _ hu)).mp ⟨q, hq⟩
    refine (hover1.undone hundo hnodup hclustered fun u hu hclosed => ?_).restored
    obtain ⟨o, ho, heq⟩ := List.mem_map.mp hu
    have hget : r.names.get o.1.name = some u := by rw [hall.existed o ho, heq]; rfl
    exact (hkeeps o ho u hget).2.2.2 hclosed

/-- A registration that fails on a standalone relay leaves the registry as it
was exactly if every spec up to the one that fails asks a reservation from
before for nothing it did not have. -/
theorem failed_registration_restores_iff {s s' : Server γ} (hcfg : cfg.cluster = none)
    (hclustered : s.registry.clustered = false) {specs : List TunnelSpec} (hspecs : specs ≠ [])
    {reply : Option Reply} (hfailed : ∀ endpoints, reply ≠ some (.registered endpoints))
    (h : Runs (objects cfg) t (register cfg who specs) s reply s') :
    ∃ os f, (∃ r1, Tries cfg t who specs s.registry os f r1 ∧
        Undone t (os.map (·.2)) r1 s'.registry) ∧
      (Restored s.registry s'.registry ↔ (∀ o ∈ os, o.1.Keeps s.registry) ∧
        ∀ a, f = some a → a.KeepsInVain s.registry t who (os.map (·.1))) := by
  obtain ⟨os, f, r1, htries, hundo⟩ := runs_register hcfg hspecs hfailed h
  exact ⟨os, f, ⟨r1, htries, hundo⟩, restored_iff hclustered htries hundo⟩

end

def demoWho (sessionID : String) : Identity :=
  { sessionID := sessionID, agentID := "A", token := { id := "T", policy := { domains := ["shop.test"] } } }

def demoEval {α : Type} (t : ℕ) (p : Prog Op α) (s : Server Unit) : α × Server Unit :=
  Runs.eval (objects demoConfig) t ({} : World) p s

theorem demo_runs {α : Type} (t : ℕ) (p : Prog Op α) (s : Server Unit) :
    Runs (objects demoConfig) t p s (demoEval t p s).1 (demoEval t p s).2 :=
  Runs.of_eval (objects demoConfig) t ({} : World) p s

def demoParked : Server Unit :=
  (demoEval 1 (do
    let _ ← register demoConfig (demoWho "1") [{ name := "a", type := .tcp }]
    closeTunnels demoConfig "1") (Server.new 60 false demoTokens ())).2

def asksAgain (typ : TunnelType) : List TunnelSpec :=
  [{ name := "a", type := typ }, { name := "b", type := .tcp, publicPort := 9000 }]

def afterRefusal (typ : TunnelType) : Option Reply × Server Unit :=
  demoEval 2 (register demoConfig (demoWho "2") (asksAgain typ)) demoParked

def Reply.isRegistered : Reply → Bool
  | .registered _ => true
  | .error _ _ => false

theorem failed_registration_restores_iff_parked :
    (demoParked.registry.names.get "a").isSome ∧
    ∃ os f, (∃ r1, Tries demoConfig 2 (demoWho "2") (asksAgain .tcp) demoParked.registry os f r1 ∧
        Undone 2 (os.map (·.2)) r1 (afterRefusal .tcp).2.registry) ∧
      (Restored demoParked.registry (afterRefusal .tcp).2.registry ↔
        (∀ o ∈ os, o.1.Keeps demoParked.registry) ∧
        ∀ a, f = some a → a.KeepsInVain demoParked.registry 2 (demoWho "2") (os.map (·.1))) := by
  refine ⟨by decide +kernel, failed_registration_restores_iff rfl rfl (by simp [asksAgain]) ?_
    (demo_runs 2 _ demoParked)⟩
  intro endpoints heq
  have hnot : ((afterRefusal .tcp).1.any Reply.isRegistered) = false := by decide +kernel
  rw [show (afterRefusal .tcp).1 = some (.registered endpoints) from heq] at hnot
  cases hnot

/-- The tunnel `a` is refused along with the other one, but its reservation has
changed its type. -/
theorem refusal_changes_type :
    Runs (objects demoConfig) 2 (register demoConfig (demoWho "2") (asksAgain .http)) demoParked
      (afterRefusal .http).1 (afterRefusal .http).2 ∧
    (afterRefusal .http).1.any Reply.isRegistered = false ∧
    ¬ Restored demoParked.registry (afterRefusal .http).2.registry := by
  refine ⟨demo_runs 2 _ demoParked, by decide +kernel, fun hres => ?_⟩
  have htyp := (hres.kept "a" 0 (by decide +kernel)).typ
  exact absurd htyp (by decide +kernel)

end L8Tunnel.Registrar
