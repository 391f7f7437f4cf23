import Mathlib.Algebra.BigOperators.Group.Finset.Piecewise
import Mathlib.Algebra.Order.BigOperators.Group.Finset
import Mathlib.Data.Nat.Count
import Mathlib.Tactic.Linarith
import Mathlib.Tactic.Ring

/-! # Smooth weighted round robin -/

namespace L8Tunnel.Base.RoundRobin

variable {ι : Type}

def total (S : Finset ι) (w : ι → ℤ) : ℤ := ∑ i ∈ S, w i

theorem total_pos {S : Finset ι} {w : ι → ℤ} (hS : S.Nonempty) (hw : ∀ j ∈ S, 0 < w j) :
    0 < total S w :=
  Finset.sum_pos hw hS

/-- What holds between turns: the credits cancel out, and none is a whole round behind. -/
structure Balanced (S : Finset ι) (w cur : ι → ℤ) : Prop where
  sum : ∑ j ∈ S, cur j = 0
  low : ∀ j ∈ S, -total S w < cur j

variable [DecidableEq ι]

/-- One turn: everybody earns their weight, and the richest, who is picked, pays the total. -/
structure Turn (S : Finset ι) (w cur : ι → ℤ) (i : ι) (next : ι → ℤ) : Prop where
  mem : i ∈ S
  most : ∀ j ∈ S, cur j + w j ≤ cur i + w i
  pays : ∀ j ∈ S, next j = cur j + w j - if j = i then total S w else 0

/-- Turn after turn from credits of 0. -/
structure Schedule (S : Finset ι) (w : ι → ℤ) (cur : ℕ → ι → ℤ) (pick : ℕ → ι) : Prop where
  start : ∀ i ∈ S, cur 0 i = 0
  turn : ∀ t, Turn S w (cur t) (pick t) (cur (t + 1))

def times (pick : ℕ → ι) (i : ι) (t : ℕ) : ℕ := Nat.count (fun k => pick k = i) t

section
variable {S : Finset ι} {w cur next : ι → ℤ} {i : ι}

theorem Turn.sum (h : Turn S w cur i next) : ∑ j ∈ S, next j = ∑ j ∈ S, cur j := by
  have hpaid : ∑ j ∈ S, (if j = i then total S w else 0) = total S w := by
    rw [Finset.sum_ite_eq' S i fun _ => total S w, if_pos h.mem]
  rw [Finset.sum_congr rfl h.pays, Finset.sum_sub_distrib, Finset.sum_add_distrib, hpaid]
  unfold total
  ring

theorem Turn.most_pos (h : Turn S w cur i next) (hw : ∀ j ∈ S, 0 < w j)
    (hsum : ∑ j ∈ S, cur j = 0) : 0 < cur i + w i := by
  by_contra hle
  have hnonpos : ∑ j ∈ S, (cur j + w j) ≤ 0 := by
    refine Finset.sum_nonpos fun j hj => ?_
    exact (h.most j hj).trans (not_lt.mp hle)
  have hpos : 0 < total S w := total_pos ⟨i, h.mem⟩ hw
  rw [Finset.sum_add_distrib, hsum] at hnonpos
  unfold total at hpos
  omega

theorem Balanced.turn (hb : Balanced S w cur) (hw : ∀ j ∈ S, 0 < w j)
    (h : Turn S w cur i next) : Balanced S w next := by
  refine ⟨h.sum.trans hb.sum, fun j hj => ?_⟩
  rw [h.pays j hj]
  split
  next heq =>
    have hpos := h.most_pos hw hb.sum
    rw [heq]
    omega
  next =>
    have hlow := hb.low j hj
    have hj' := hw j hj
    omega

end

namespace Schedule
variable {S : Finset ι} {w : ι → ℤ} {cur : ℕ → ι → ℤ} {pick : ℕ → ι}

theorem balanced (h : Schedule S w cur pick) (hw : ∀ j ∈ S, 0 < w j) (t : ℕ) :
    Balanced S w (cur t) := by
  induction t with
  | zero =>
    have hpos : 0 < total S w := total_pos ⟨pick 0, (h.turn 0).mem⟩ hw
    refine ⟨Finset.sum_eq_zero h.start, fun j hj => ?_⟩
    rw [h.start j hj]
    omega
  | succ t ih => exact ih.turn hw (h.turn t)

theorem account (h : Schedule S w cur pick) {i : ι} (hi : i ∈ S) (t : ℕ) :
    cur t i = t * w i - times pick i t * total S w := by
  induction t with
  | zero =>
    rw [h.start i hi]
    simp [times]
  | succ t ih =>
    have htimes : times pick i (t + 1) = times pick i t + if pick t = i then 1 else 0 :=
      Nat.count_succ _ _
    rw [(h.turn t).pays i hi, ih, htimes]
    by_cases hpick : pick t = i
    · rw [if_pos hpick.symm, if_pos hpick]
      push_cast
      ring
    · rw [if_neg fun heq => hpick heq.symm, if_neg hpick]
      push_cast
      ring

theorem times_lt (h : Schedule S w cur pick) (hw : ∀ j ∈ S, 0 < w j) {i : ι} (hi : i ∈ S)
    (t : ℕ) : times pick i t * total S w < t * w i + total S w := by
  have hlow := (h.balanced hw t).low i hi
  rw [h.account hi t] at hlow
  linarith

theorem round (h : Schedule S w cur pick) (hw : ∀ j ∈ S, 0 < w j) (k : ℕ) {i : ι} (hi : i ∈ S) :
    cur (k * (total S w).toNat) i = 0 := by
  have hpos : 0 < total S w := total_pos ⟨pick 0, (h.turn 0).mem⟩ hw
  have hcast : ((total S w).toNat : ℤ) = total S w := Int.toNat_of_nonneg hpos.le
  have hbal := h.balanced hw (k * (total S w).toNat)
  -- an account is a multiple of the round, and more than minus one
  have hnonneg : ∀ j ∈ S, 0 ≤ cur (k * (total S w).toNat) j := by
    intro j hj
    have hlow := hbal.low j hj
    have hfactor : cur (k * (total S w).toNat) j =
        total S w * (k * w j - times pick j (k * (total S w).toNat)) := by
      rw [h.account hj]
      push_cast
      rw [hcast]
      ring
    rw [hfactor] at hlow ⊢
    have hmore : -1 < k * w j - (times pick j (k * (total S w).toNat) : ℤ) := by
      by_contra hle
      have hmul := mul_le_mul_of_nonneg_left (not_lt.mp hle) hpos.le
      rw [mul_neg, mul_one] at hmul
      exact absurd hlow (not_lt.mpr hmul)
    exact mul_nonneg hpos.le (by omega)
  exact (Finset.sum_eq_zero_iff_of_nonneg hnonneg).mp hbal.sum i hi

theorem times_round (h : Schedule S w cur pick) (hw : ∀ j ∈ S, 0 < w j) (k : ℕ) {i : ι}
    (hi : i ∈ S) : (times pick i (k * (total S w).toNat) : ℤ) = k * w i := by
  have hpos : 0 < total S w := total_pos ⟨pick 0, (h.turn 0).mem⟩ hw
  have hcast : ((total S w).toNat : ℤ) = total S w := Int.toNat_of_nonneg hpos.le
  have hzero := h.round hw k hi
  rw [h.account hi] at hzero
  push_cast at hzero
  rw [hcast] at hzero
  have hcancel : total S w * (times pick i (k * (total S w).toNat) : ℤ) =
      total S w * (k * w i) := by
    linarith
  exact mul_left_cancel₀ hpos.ne' hcancel

theorem times_window (h : Schedule S w cur pick) (hw : ∀ j ∈ S, 0 < w j) (k : ℕ) {i : ι}
    (hi : i ∈ S) :
    (times (fun t => pick (k * (total S w).toNat + t)) i (total S w).toNat : ℤ) = w i := by
  have hadd : times pick i (k * (total S w).toNat + (total S w).toNat) =
      times pick i (k * (total S w).toNat) +
        times (fun t => pick (k * (total S w).toNat + t)) i (total S w).toNat :=
    Nat.count_add _ _ _
  have hbefore := h.times_round hw k hi
  have hafter := h.times_round hw (k + 1) hi
  rw [Nat.add_mul, Nat.one_mul, hadd] at hafter
  push_cast at hafter
  linarith

end Schedule
end L8Tunnel.Base.RoundRobin
