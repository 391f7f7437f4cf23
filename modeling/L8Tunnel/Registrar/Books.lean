import L8Tunnel.Base.Ledger
import L8Tunnel.Registrar.Registry

/-! # The registry's books -/

namespace L8Tunnel.Registrar
open Base

/-- Who holds a public port: a reservation, or a session still about to make one. -/
def Holds (r : NameRegistry) (reserving : ℕ → Option ℤ) : ℕ ⊕ ℕ → ℤ → Prop
  | .inl ref, p => r.Named ref ∧ (r.cells ref).port = p ∧ p ≠ 0
  | .inr sess, p => reserving sess = some p

/-- The set of ports and the index of domains say what the reservations hold. -/
structure Books (r : NameRegistry) (reserving : ℕ → Option ℤ) : Prop where
  ports : Ledger r.ports (Holds r reserving)
  domains : ∀ d ref, r.domains.get d = some ref ↔ r.Named ref ∧ d ∈ (r.cells ref).domains

namespace Books
open NameRegistry
variable {r r' : NameRegistry} {reserving reserving' : ℕ → Option ℤ} {ref sess : ℕ} {p : ℤ}

theorem new (grace : ℤ) (clustered : Bool) : Books (.new grace clustered) fun _ => none := by
  have hnone : ∀ ref, ¬ (NameRegistry.new grace clustered).Named ref := by
    intro ref h
    simp [Named, NameRegistry.new] at h
  refine ⟨⟨fun p => ?_, fun a b p ha hb => ?_⟩, fun d ref => ?_⟩
  · refine iff_of_false (by simp [NameRegistry.new]) ?_
    rintro ⟨ref | sess, h⟩
    · exact hnone ref h.1
    · cases h
  · cases a with
    | inl ref => exact absurd ha.1 (hnone ref)
    | inr sess => cases ha
  · exact iff_of_false (by simp [NameRegistry.new]) fun h => hnone ref h.1

theorem same (h : Books r reserving) (hnames : ∀ n, r'.names.get n = r.names.get n)
    (hcells : ∀ u, (r'.cells u).port = (r.cells u).port ∧ (r'.cells u).domains = (r.cells u).domains)
    (hports : r'.ports = r.ports) (hdomains : r'.domains = r.domains) : Books r' reserving := by
  have hnamed : ∀ u, r'.Named u ↔ r.Named u := named_congr hnames
  refine ⟨?_, fun d u => ?_⟩
  · rw [hports]
    refine h.ports.congr fun a q => ?_
    cases a with
    | inl u => simp only [Holds, hnamed, (hcells u).1]
    | inr t => rfl
  · rw [hdomains, h.domains, hnamed, (hcells u).2]

theorem modify (h : Books r reserving) {f : Reservation → Reservation}
    (hf : ∀ v, (f v).name = v.name) (hkeep : ∀ v, (f v).port = v.port ∧ (f v).domains = v.domains) :
    Books (r.modify ref f hf) reserving := by
  refine h.same (fun n => rfl) (fun u => ?_) rfl rfl
  rw [modify_cells]
  split
  · exact hkeep _
  · exact ⟨rfl, rfl⟩

theorem alloc (h : Books r reserving) {v : Reservation} (hfree : r.names.get v.name = none)
    (hport : v.port = 0) (hdomains : v.domains = []) : Books (r.alloc v) reserving := by
  have hcells : ∀ u, r.Named u → (r.alloc v).cells u = r.cells u := fun u hu => by
    rw [alloc_cells, if_neg (Nat.ne_of_lt hu.lt)]
  have hnew : (r.alloc v).cells r.next = v := by
    rw [alloc_cells, if_pos rfl]
  refine ⟨h.ports.congr fun a q => ?_, fun d u => (h.domains d u).trans ?_⟩
  · cases a with
    | inr t => rfl
    | inl u =>
      simp only [Holds, named_alloc hfree]
      constructor
      · rintro ⟨hu | rfl, hq, h0⟩
        · exact ⟨hu, by rw [← hq, hcells u hu], h0⟩
        · rw [hnew, hport] at hq
          exact absurd hq.symm h0
      · rintro ⟨hu, hq, h0⟩
        exact ⟨.inl hu, by rw [hcells u hu, hq], h0⟩
  · rw [named_alloc hfree]
    constructor
    · rintro ⟨hu, hd⟩
      exact ⟨.inl hu, by rwa [hcells u hu]⟩
    · rintro ⟨hu | rfl, hd⟩
      · exact ⟨hu, by rwa [hcells u hu] at hd⟩
      · rw [hnew, hdomains] at hd
        cases hd

theorem vacate (h : Books r reserving) (hnamed : r.Named ref) :
    Ledger (if (r.cells ref).port ≠ 0 then r.ports.erase (r.cells ref).port else r.ports)
      fun a q => Holds r reserving a q ∧ a ≠ .inl ref := by
  have hheld : ∀ q, Holds r reserving (.inl ref) q ↔ q = (r.cells ref).port ∧ q ≠ 0 := by
    intro q
    simp [Holds, hnamed, eq_comm]
  split
  next h0 =>
    refine h.ports.leave (a := .inl ref) (fun q => (hheld q).trans ?_) fun _ _ => Iff.rfl
    exact ⟨fun hq => hq.1, fun hq => ⟨hq, hq ▸ h0⟩⟩
  next h0 =>
    refine h.ports.congr fun a q => ⟨fun hq => hq.1, fun hq => ⟨hq, ?_⟩⟩
    rintro rfl
    obtain ⟨hport, hq0⟩ := (hheld q).mp hq
    exact h0 (hport ▸ hq0)

theorem deleteLocked (h : Books r reserving) (hnamed : r.Named ref) :
    Books (r.deleteLocked ref) reserving := by
  have hcells : ∀ u, ((r.deleteLocked ref).cells u).port = (r.cells u).port ∧
      ((r.deleteLocked ref).cells u).domains = (r.cells u).domains := by
    intro u
    rw [deleteLocked_cells]
    split
    · exact ⟨rfl, rfl⟩
    · exact ⟨rfl, rfl⟩
  refine ⟨?_, fun d u => ?_⟩
  · rw [deleteLocked_ports]
    refine (h.vacate hnamed).congr fun a q => ?_
    cases a with
    | inl u => simp only [Holds, named_deleteLocked, (hcells u).1, ne_eq, Sum.inl.injEq, and_right_comm]
    | inr t => simp [Holds]
  · rw [deleteLocked_domains, named_deleteLocked, (hcells u).2]
    by_cases hown : d ∈ (r.cells ref).domains ∧ r.domains.get d = some ref
    · rw [if_pos hown]
      refine iff_of_false (by simp) ?_
      rintro ⟨⟨hu, hne⟩, hd⟩
      have hdu := (h.domains d u).mpr ⟨hu, hd⟩
      rw [hown.2] at hdu
      exact hne (Option.some.inj hdu).symm
    · rw [if_neg hown, h.domains]
      constructor
      · rintro ⟨hu, hd⟩
        refine ⟨⟨hu, ?_⟩, hd⟩
        rintro rfl
        exact hown ⟨hd, (h.domains d u).mpr ⟨hu, hd⟩⟩
      · exact fun hd => ⟨hd.1.1, hd.2⟩

theorem setDomains (h : Books r reserving) (hnamed : r.Named ref) {ds : List String}
    (hr : r.setDomains ref ds = .ok r') : Books r' reserving := by
  unfold NameRegistry.setDomains at hr
  split at hr
  · cases hr
  next hfree =>
  cases hr
  have hfree' : ∀ d ∈ ds, ∀ u, r.domains.get d = some u → u = ref := by
    intro d hd u hu
    have hnot := List.find?_eq_none.mp hfree d hd
    simpa [domainTaken, hu] using hnot
  have hnamed' : ∀ u, (r.replaceDomains ref ds).Named u ↔ r.Named u := named_congr fun n => rfl
  refine ⟨?_, fun d u => ?_⟩
  · have hports : (r.replaceDomains ref ds).ports = r.ports := rfl
    rw [hports]
    refine h.ports.congr fun a q => ?_
    cases a with
    | inr t => rfl
    | inl u =>
      have hport : ((r.replaceDomains ref ds).cells u).port = (r.cells u).port := by
        rw [replaceDomains_cells]
        split <;> rfl
      simp only [Holds, hnamed', hport]
  · rw [replaceDomains_get, hnamed', replaceDomains_cells]
    by_cases hd : d ∈ ds
    · rw [if_pos hd, Option.some.injEq]
      constructor
      · rintro rfl
        rw [if_pos rfl]
        exact ⟨hnamed, hd⟩
      · rintro ⟨hu, hdu⟩
        by_contra hne
        rw [if_neg (Ne.symm hne)] at hdu
        exact hne (hfree' d hd u ((h.domains d u).mpr ⟨hu, hdu⟩)).symm
    · rw [if_neg hd]
      by_cases hu : u = ref
      · subst hu
        rw [if_pos rfl]
        refine iff_of_false ?_ fun hdu => hd hdu.2
        split
        · simp
        next hown =>
          intro hget
          exact hown ⟨((h.domains d u).mp hget).2, hget⟩
      · rw [if_neg hu]
        split
        next hown =>
          refine iff_of_false (by simp) fun hdu => hu ?_
          have hget := (h.domains d u).mpr hdu
          rw [hown.2] at hget
          exact (Option.some.inj hget).symm
        next => exact h.domains d u

theorem addPort (h : Books r reserving) (hfree : p ∉ r.ports) (hnone : reserving sess = none) :
    Books (r.addPort p) (Function.update reserving sess (some p)) := by
  refine ⟨h.ports.take (a := .inr sess) hfree fun a q => ?_, h.domains⟩
  cases a with
  | inl u => simp [Holds, Named, NameRegistry.addPort]
  | inr t =>
    by_cases ht : t = sess
    · subst ht
      simp [Holds, hnone, eq_comm]
    · simp [Holds, ht]

theorem freePort (h : Books r reserving) (hp : reserving sess = some p) :
    Books (r.freePort p) (Function.update reserving sess none) := by
  refine ⟨h.ports.leave (a := .inr sess) (fun q => ?_) fun a q => ?_, h.domains⟩
  · simp [Holds, hp, eq_comm]
  · cases a with
    | inl u => simp [Holds, Named, NameRegistry.freePort]
    | inr t =>
      by_cases ht : t = sess
      · subst ht
        simp [Holds]
      · simp [Holds, ht]

section
variable (hnamed : r.Named ref) (h0 : p ≠ 0) (hnames : r'.names = r.names)
  (hcells : ∀ u, r'.cells u = if u = ref then { r.cells u with port := p } else r.cells u)

variable (reserving reserving') in
include hnamed h0 hnames hcells in

theorem holds_portSet (u : ℕ) (q : ℤ) :
    Holds r' reserving' (.inl u) q ↔
      (Holds r reserving (.inl u) q ∧ u ≠ ref) ∨ (u = ref ∧ q = p) := by
  have hn : r'.Named u ↔ r.Named u := named_congr (fun n => by rw [hnames]) u
  simp only [Holds, hn, hcells]
  by_cases hu : u = ref
  · subst hu
    simp [hnamed, eq_comm]
    rintro rfl
    exact h0
  · simp [hu]

include hnames hcells in

theorem of_portSet (h : Books r reserving) (hdomains : r'.domains = r.domains)
    (hports : Ledger r'.ports (Holds r' reserving')) : Books r' reserving' := by
  refine ⟨hports, fun d u => ?_⟩
  rw [hdomains, h.domains, named_congr (fun n => by rw [hnames]) u, hcells]
  split <;> rfl

end

theorem setPort (h : Books r reserving) (hnamed : r.Named ref) (hp : reserving sess = some p)
    (h0 : p ≠ 0) : Books (r.setPort ref p) (Function.update reserving sess none) := by
  have hne : (r.cells ref).port ≠ p := by
    intro hport
    cases h.ports.one (.inl ref) (.inr sess) p ⟨hnamed, hport, h0⟩ hp
  have hports : (r.setPort ref p).ports =
      if (r.cells ref).port ≠ 0 then r.ports.erase (r.cells ref).port else r.ports := by
    unfold NameRegistry.setPort
    by_cases hheld : (r.cells ref).port = 0
    · simp [hheld]
    · simp [hheld, hne, NameRegistry.freePort]
  have hset := holds_portSet reserving (Function.update reserving sess none) hnamed h0
    (setPort_names r ref p) (setPort_cells r ref p)
  refine of_portSet (setPort_names r ref p) (setPort_cells r ref p) h (setPort_domains r ref p) ?_
  rw [hports]
  refine (h.vacate hnamed).move (a := .inr sess) (b := .inl ref) (p := p) ⟨hp, by simp⟩
    fun a q => ?_
  cases a with
  | inl u =>
    rw [hset]
    have hother : Holds r reserving (.inl u) q → q ≠ p := by
      rintro hq rfl
      cases h.ports.one (.inl u) (.inr sess) q hq hp
    simp only [ne_eq, Sum.inl.injEq]
    tauto
  | inr t =>
    by_cases ht : t = sess
    · subst ht
      simp [Holds, hp, eq_comm]
    · have hother : reserving t = some q → q ≠ p := by
        rintro hq rfl
        exact ht (Sum.inr.inj (h.ports.one (.inr t) (.inr sess) q hq hp))
      simpa [Holds, ht] using hother

theorem givePort (h : Books r reserving) (hnamed : r.Named ref) (h0 : p ≠ 0) (hfree : p ∉ r.ports)
    (hr : r' = ((if (r.cells ref).port ≠ 0 then r.freePort (r.cells ref).port else r).modify ref
      (fun v => { v with port := p }) fun _ => rfl).addPort p) : Books r' reserving := by
  have hnames : r'.names = r.names := by
    subst hr
    split <;> rfl
  have hdomains : r'.domains = r.domains := by
    subst hr
    split <;> rfl
  have hports : r'.ports = insert p
      (if (r.cells ref).port ≠ 0 then r.ports.erase (r.cells ref).port else r.ports) := by
    subst hr
    split <;> rfl
  have hcells : ∀ u, r'.cells u = if u = ref then { r.cells u with port := p } else r.cells u := by
    subst hr
    intro u
    rw [addPort_cells, modify_cells]
    split <;> split <;> rfl
  refine of_portSet hnames hcells h hdomains ?_
  rw [hports]
  refine (h.vacate hnamed).take (a := .inl ref) (fun hp => hfree ?_) fun a q => ?_
  · split at hp
    · exact Finset.mem_of_mem_erase hp
    · exact hp
  · cases a with
    | inl u =>
      rw [holds_portSet reserving reserving hnamed h0 hnames hcells]
      simp
    | inr t => simp [Holds]

theorem claim (h : Books r reserving) {name tokenID agentID : String} {typ : TunnelType}
    {maxTunnels : ℤ} {c : Claimed} (hc : r.claim name typ tokenID agentID sess maxTunnels = .ok c) :
    Books c.registry reserving := by
  obtain ⟨hget, rfl⟩ | ⟨u, stale, hget, rfl⟩ := claim_ok hc
  · exact h.alloc hget rfl rfl
  · dsimp only
    refine h.modify _ fun _ => ?_
    exact ⟨rfl, rfl⟩

theorem park (h : Books r reserving) (now : ℤ) : Books (r.park ref sess now) reserving := by
  have h1 : Books (r.modify ref (fun v => { v with session := none, tunnel := none }) fun _ => rfl)
      reserving := h.modify _ fun _ => ⟨rfl, rfl⟩
  refine park_induction (P := fun q => Books q reserving) (fun _ => h) (fun _ _ => h1)
    (fun _ hnamed _ => ?_) fun _ _ _ _ => ?_
  · exact h1.deleteLocked ((named_modify r ref _ ref).mpr hnamed)
  · refine h1.modify _ fun _ => ?_
    exact ⟨rfl, rfl⟩

theorem rollback (h : Books r reserving) {existed : Bool} (now : ℤ)
    (hnamed : existed = false → (r.cells ref).session = some sess → r.Named ref) :
    Books (r.rollback ref sess existed now) reserving := by
  unfold NameRegistry.rollback
  split
  · exact h.park now
  next hnew =>
  split
  next hsess => exact h.deleteLocked (hnamed (by simpa using hnew) hsess)
  next => exact h

theorem expire (h : Books r reserving) : Books (r.expire ref) reserving := by
  unfold NameRegistry.expire
  split
  next hnamed => exact h.deleteLocked hnamed.1
  next => exact h

theorem unreserve (h : Books r reserving) (name : String) : Books (r.unreserve name) reserving := by
  unfold NameRegistry.unreserve
  split
  · exact h
  next u hget =>
  split
  · exact h
  have h1 : Books (r.modify u (fun v => { v with permanent := false }) fun _ => rfl) reserving :=
    h.modify _ fun _ => ⟨rfl, rfl⟩
  dsimp only
  split
  · exact h1.deleteLocked (named_of_get hget)
  · exact h1

theorem reserve (h : Books r reserving) {name tokenID : String} {port : ℤ}
    (hr : r.reserve name tokenID port = .ok r') : Books r' reserving := by
  obtain ⟨r1, u, hfound, hfree, hr'⟩ := reserve_ok hr
  have h1 : Books r1 reserving ∧ r1.Named u ∧ r1.ports = r.ports := by
    rcases hfound with ⟨hget, rfl⟩ | ⟨hget, rfl, rfl⟩
    · exact ⟨h, named_of_get hget, rfl⟩
    · exact ⟨h.alloc hget rfl rfl, (named_alloc (r := r) hget _).mpr (.inr rfl), rfl⟩
  obtain ⟨h1, hnamed, hports⟩ := h1
  subst hr'
  refine modify ?_ _ fun _ => ?_
  swap
  · exact ⟨rfl, rfl⟩
  split
  next hp => exact h1.givePort hnamed hp.1 (hports ▸ hfree hp) rfl
  next => exact h1

theorem releaseToken (h : Books r reserving) (tokenID : String) (order : RangeOrder) :
    Books (r.releaseToken tokenID order).1 reserving := by
  unfold NameRegistry.releaseToken
  generalize r.names.range order = names
  suffices hfold : ∀ acc : NameRegistry × List ℕ, Books acc.1 reserving →
      Books (names.foldl (releaseOne tokenID) acc).1 reserving from hfold (r, []) h
  induction names with
  | nil => exact fun acc hacc => hacc
  | cons name names ih =>
    intro acc hacc
    refine ih _ ?_
    unfold releaseOne
    split
    · exact hacc
    next u hget =>
    split
    · exact hacc.deleteLocked (named_of_get hget)
    · exact hacc


end Books

/-- No reservation outside `D` loses its name, and none gains a session. -/
structure Drops (D : ℕ → Prop) (r r' : NameRegistry) : Prop where
  named : ∀ u, r.Named u → ¬ D u → r'.Named u
  session : ∀ u t, (r'.cells u).session = some t → (r.cells u).session = some t
  next : r.next ≤ r'.next

namespace Drops
open NameRegistry
variable {r r1 r' : NameRegistry} {D D' : ℕ → Prop} {ref sess : ℕ}

theorem refl (D : ℕ → Prop) (r : NameRegistry) : Drops D r r :=
  ⟨fun _ h _ => h, fun _ _ h => h, le_rfl⟩

theorem trans (h : Drops D r r1) (h' : Drops D r1 r') : Drops D r r' :=
  ⟨fun u hu hD => h'.named u (h.named u hu hD) hD,
    fun u t ht => h.session u t (h'.session u t ht), h.next.trans h'.next⟩

theorem mono (h : Drops D r r') (hD : ∀ u, r.Named u → D u → D' u) : Drops D' r r' :=
  ⟨fun u hu hD' => h.named u hu fun hu' => hD' (hD u hu hu'), h.session, h.next⟩

theorem same (hnames : r'.names = r.names)
    (hcells : ∀ u, (r'.cells u).session = (r.cells u).session) (hnext : r.next ≤ r'.next) :
    Drops D r r' :=
  ⟨fun u hu _ => (named_congr (fun n => by rw [hnames]) u).mpr hu,
    fun u t ht => (hcells u).symm.trans ht, hnext⟩

theorem modify {f : Reservation → Reservation} (hf : ∀ v, (f v).name = v.name)
    (hkeep : ∀ v, (f v).session = v.session ∨ (f v).session = none) :
    Drops D r (r.modify ref f hf) := by
  refine ⟨fun u hu _ => (named_modify r ref hf u).mpr hu, fun u t ht => ?_,
    le_modify_next r ref hf⟩
  rw [modify_cells] at ht
  split at ht
  · rcases hkeep (r.cells u) with hs | hs
    · rwa [hs] at ht
    · rw [hs] at ht
      cases ht
  · exact ht

theorem addPort (r : NameRegistry) (port : ℤ) : Drops D r (r.addPort port) :=
  same rfl (fun _ => rfl) le_rfl

theorem freePort (r : NameRegistry) (port : ℤ) : Drops D r (r.freePort port) :=
  same rfl (fun _ => rfl) le_rfl

theorem deleteLocked : Drops (· = ref) r (r.deleteLocked ref) := by
  refine ⟨fun u hu hne => (named_deleteLocked r ref u).mpr ⟨hu, hne⟩, fun u t ht => ?_,
    le_deleteLocked_next r ref⟩
  rw [deleteLocked_cells] at ht
  split at ht
  · exact ht
  · exact ht

theorem park (now : ℤ) :
    Drops (fun u => u = ref ∧ (r.cells ref).session = some sess ∧
        (r.closed ∨ r.clustered) ∧ (r.cells ref).permanent = false)
      r (r.park ref sess now) := by
  have h1 : ∀ D, Drops D r (r.modify ref (fun v => { v with session := none, tunnel := none })
      fun _ => rfl) := fun D => modify _ fun _ => .inr rfl
  refine park_induction (fun _ => refl _ r) (fun _ _ => h1 _) (fun hsess _ hdel => ?_)
    fun _ _ _ _ => ?_
  · exact ((h1 (· = ref)).trans deleteLocked).mono fun u _ hu => ⟨hu, hsess, hdel⟩
  · exact (h1 _).trans (modify _ fun _ => .inl rfl)

theorem rollback {existed : Bool} (now : ℤ) :
    Drops (fun u => u = ref ∧ (r.cells ref).session = some sess ∧
        (existed → (r.closed ∨ r.clustered) ∧ (r.cells ref).permanent = false))
      r (r.rollback ref sess existed now) := by
  unfold NameRegistry.rollback
  split
  next he => exact (park now).mono fun u _ hu => ⟨hu.1, hu.2.1, fun _ => hu.2.2⟩
  next he =>
  split
  next hsess => exact deleteLocked.mono fun u _ hu => ⟨hu, hsess, fun h => absurd h he⟩
  next => exact refl _ r

theorem expire :
    Drops (fun u => u = ref ∧ (r.cells ref).session = none ∧ (r.cells ref).permanent = false)
      r (r.expire ref) := by
  unfold NameRegistry.expire
  split
  next h => exact deleteLocked.mono fun u _ hu => ⟨hu, h.2⟩
  next => exact refl _ r

theorem unreserve (name : String) :
    Drops (fun u => r.names.get name = some u ∧ (r.cells u).session = none ∧
        (r.cells u).permanent = true)
      r (r.unreserve name) := by
  unfold NameRegistry.unreserve
  split
  · exact refl _ r
  next ref hget =>
  split
  · exact refl _ r
  next hperm =>
  have h1 : ∀ D, Drops D r (r.modify ref (fun v => { v with permanent := false }) fun _ => rfl) :=
    fun D => modify _ fun _ => .inl rfl
  dsimp only
  split
  next hsess =>
    refine ((h1 (· = ref)).trans deleteLocked).mono fun u _ hu => ?_
    subst hu
    exact ⟨hget, by simpa using hsess, by simpa using hperm⟩
  next => exact h1 _

theorem alloc {v : Reservation} (hfree : r.names.get v.name = none) (hsess : v.session = none) :
    Drops D r (r.alloc v) := by
  refine ⟨fun u hu _ => (named_alloc hfree u).mpr (.inl hu), fun u t ht => ?_, Nat.le_succ _⟩
  rw [alloc_cells] at ht
  split at ht
  · rw [hsess] at ht
    cases ht
  · exact ht

theorem reserve {name tokenID : String} {port : ℤ} (hr : r.reserve name tokenID port = .ok r') :
    Drops D r r' := by
  refine reserve_induction (P := Drops D r) hr (refl D r) (fun hget => alloc hget rfl) ?_ ?_ ?_ ?_
  · exact fun _ p hq => hq.trans (freePort _ p)
  · exact fun _ hq => hq.trans (addPort _ port)
  · exact fun _ _ hq => hq.trans (modify _ fun _ => .inl rfl)
  · exact fun _ _ hq => hq.trans (modify _ fun _ => .inl rfl)

theorem setPort (port : ℤ) : Drops D r (r.setPort ref port) := by
  refine same (setPort_names r ref port) (fun u => ?_) ?_
  · rw [setPort_cells]
    split <;> rfl
  · dsimp only [NameRegistry.setPort]
    split <;> exact le_max_left _ _

theorem setDomains {ds : List String} (hr : r.setDomains ref ds = .ok r') : Drops D r r' := by
  unfold NameRegistry.setDomains at hr
  split at hr
  · cases hr
  · cases hr
    refine same rfl (fun u => ?_) (le_max_left _ _)
    rw [replaceDomains_cells]
    split <;> rfl

theorem releaseToken (tokenID : String) (order : RangeOrder) :
    Drops (fun u => (r.cells u).tokenID = tokenID) r (r.releaseToken tokenID order).1 := by
  unfold NameRegistry.releaseToken
  generalize r.names.range order = names
  suffices hfold : ∀ acc : NameRegistry × List ℕ,
      Drops (fun u => (r.cells u).tokenID = tokenID) r acc.1 →
      (∀ u, (acc.1.cells u).tokenID = (r.cells u).tokenID) →
      Drops (fun u => (r.cells u).tokenID = tokenID) r
        (names.foldl (releaseOne tokenID) acc).1 from
    hfold (r, []) (refl _ r) fun _ => rfl
  induction names with
  | nil => exact fun acc hacc _ => hacc
  | cons name names ih =>
    intro acc hacc htok
    refine ih _ ?_ ?_
    · unfold releaseOne
      split
      · exact hacc
      next ref hget =>
      split
      next hmine =>
        refine hacc.trans (deleteLocked.mono fun u _ hu => ?_)
        rw [← htok, hu, hmine]
      next => exact hacc
    · intro u
      unfold releaseOne
      split
      · exact htok u
      split
      · rw [← htok u, deleteLocked_cells]
        split <;> rfl
      · exact htok u

end Drops
end L8Tunnel.Registrar
