import Mathlib.Data.Int.Notation
import Mathlib.Data.List.Basic

/-! # Sorting as Go's `sort` does it -/

namespace L8Tunnel.Base.GoSort
universe u
variable {α : Type u} {xs : List α}

theorem strict_mergeSort [LE α] [DecidableLE α] (htrans : ∀ a b c : α, a ≤ b → b ≤ c → a ≤ c)
    (htotal : ∀ a b : α, a ≤ b ∨ b ≤ a) (h : xs.Nodup) :
    (xs.mergeSort fun a b => decide (a ≤ b)).Pairwise fun a b => a ≤ b ∧ a ≠ b := by
  have hle : (xs.mergeSort fun a b => decide (a ≤ b)).Pairwise (· ≤ ·) := by
    refine List.Pairwise.imp of_decide_eq_true (List.pairwise_mergeSort ?_ ?_ xs)
    · exact fun a b c hab hbc =>
        decide_eq_true (htrans a b c (of_decide_eq_true hab) (of_decide_eq_true hbc))
    · intro a b
      rcases htotal a b with hab | hba
      · simp [hab]
      · simp [hba]
  have hne : (xs.mergeSort fun a b => decide (a ≤ b)).Pairwise (· ≠ ·) :=
    (List.mergeSort_perm xs _).nodup_iff.mpr h
  exact List.Pairwise.and hle hne

def sortStrings (xs : List String) : List String := xs.mergeSort fun a b => decide (a ≤ b)
def sortInts (xs : List ℤ) : List ℤ := xs.mergeSort fun a b => decide (a ≤ b)

theorem mem_sortStrings {xs : List String} {x : String} : x ∈ sortStrings xs ↔ x ∈ xs :=
  (List.mergeSort_perm xs _).mem_iff

theorem mem_sortInts {xs : List ℤ} {x : ℤ} : x ∈ sortInts xs ↔ x ∈ xs :=
  (List.mergeSort_perm xs _).mem_iff

theorem sortStrings_strict {xs : List String} (h : xs.Nodup) :
    (sortStrings xs).Pairwise (· < ·) := by
  have htrans : ∀ a b c : String, a ≤ b → b ≤ c → a ≤ c := fun _ _ _ => String.le_trans
  refine List.Pairwise.imp ?_ (strict_mergeSort htrans String.le_total h)
  rintro a b ⟨hle, hne⟩
  exact String.not_le.mp fun hba => hne (String.le_antisymm hle hba)

theorem sortInts_strict {xs : List ℤ} (h : xs.Nodup) : (sortInts xs).Pairwise (· < ·) := by
  refine List.Pairwise.imp ?_ (strict_mergeSort (fun _ _ _ => Int.le_trans) Int.le_total h)
  exact fun hab => Int.lt_iff_le_and_ne.mpr hab

end L8Tunnel.Base.GoSort
