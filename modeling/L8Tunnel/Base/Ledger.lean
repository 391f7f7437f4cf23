import Mathlib.Data.Finset.Basic

/-! # Resources and who holds them -/

namespace L8Tunnel.Base

variable {ρ ω : Type} [DecidableEq ρ]

/-- What is taken is what somebody holds, and nobody holds what another does. -/
structure Ledger (taken : Finset ρ) (holds : ω → ρ → Prop) : Prop where
  mem_iff : ∀ p, p ∈ taken ↔ ∃ a, holds a p
  one : ∀ a b p, holds a p → holds b p → a = b

namespace Ledger
variable {taken : Finset ρ} {holds holds' : ω → ρ → Prop} {a b : ω} {p : ρ}

omit [DecidableEq ρ] in
theorem congr (h : Ledger taken holds) (hh : ∀ c q, holds' c q ↔ holds c q) :
    Ledger taken holds' := by
  have heq : holds' = holds := funext fun c => funext fun q => propext (hh c q)
  exact heq ▸ h

theorem take (h : Ledger taken holds) (hp : p ∉ taken)
    (hh : ∀ c q, holds' c q ↔ holds c q ∨ (c = a ∧ q = p)) : Ledger (insert p taken) holds' := by
  have hfree : ∀ c, ¬ holds c p := fun c hc => hp ((h.mem_iff p).mpr ⟨c, hc⟩)
  refine ⟨fun q => ?_, fun c d q hc hd => ?_⟩
  · rw [Finset.mem_insert, h.mem_iff]
    constructor
    · rintro (rfl | ⟨c, hc⟩)
      · exact ⟨a, (hh a q).mpr (.inr ⟨rfl, rfl⟩)⟩
      · exact ⟨c, (hh c q).mpr (.inl hc)⟩
    · rintro ⟨c, hc⟩
      rcases (hh c q).mp hc with hc | ⟨-, rfl⟩
      · exact .inr ⟨c, hc⟩
      · exact .inl rfl
  · rcases (hh c q).mp hc with hc | ⟨rfl, rfl⟩
    · rcases (hh d q).mp hd with hd | ⟨rfl, rfl⟩
      · exact h.one c d q hc hd
      · exact absurd hc (hfree c)
    · rcases (hh d q).mp hd with hd | ⟨rfl, -⟩
      · exact absurd hd (hfree d)
      · rfl

theorem free (h : Ledger taken holds) (hh : ∀ c q, holds' c q ↔ holds c q ∧ q ≠ p) :
    Ledger (taken.erase p) holds' := by
  refine ⟨fun q => ?_, fun c d q hc hd => ?_⟩
  · rw [Finset.mem_erase, h.mem_iff]
    constructor
    · rintro ⟨hq, c, hc⟩
      exact ⟨c, (hh c q).mpr ⟨hc, hq⟩⟩
    · rintro ⟨c, hc⟩
      exact ⟨((hh c q).mp hc).2, c, ((hh c q).mp hc).1⟩
  · exact h.one c d q ((hh c q).mp hc).1 ((hh d q).mp hd).1

theorem leave (h : Ledger taken holds) (ha : ∀ q, holds a q ↔ q = p)
    (hh : ∀ c q, holds' c q ↔ holds c q ∧ c ≠ a) : Ledger (taken.erase p) holds' := by
  refine h.free fun c q => (hh c q).trans (and_congr_right fun hc => not_congr ?_)
  constructor
  · rintro rfl
    exact (ha q).mp hc
  · rintro rfl
    exact h.one c a q hc ((ha q).mpr rfl)

theorem move (h : Ledger taken holds) (ha : holds a p)
    (hh : ∀ c q, holds' c q ↔ (holds c q ∧ q ≠ p) ∨ (c = b ∧ q = p)) : Ledger taken holds' := by
  have hp : p ∈ taken := (h.mem_iff p).mpr ⟨a, ha⟩
  have hfree : Ledger (taken.erase p) fun c q => holds c q ∧ q ≠ p := h.free fun _ _ => Iff.rfl
  have htake := hfree.take (a := b) (Finset.notMem_erase p taken) hh
  rwa [Finset.insert_erase hp] at htake

end Ledger
end L8Tunnel.Base
