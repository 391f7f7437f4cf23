import Mathlib.Algebra.Group.Nat.Defs
import Mathlib.Data.List.Basic

/-! # Network addresses -/

namespace L8Tunnel.Base.Net

/-- `netip.Addr`: the zero address, IPv4, or IPv6 with its zone. -/
inductive Addr where
  | zero
  | v4 (bits : BitVec 32)
  | v6 (bits : BitVec 128) (zone : String)
  deriving DecidableEq

namespace Addr

def unmap : Addr → Addr
  | .v6 bits zone =>
    if bits.toNat / 2 ^ 32 = 0xffff then .v4 (bits.setWidth 32) else .v6 bits zone
  | a => a

def withoutZone : Addr → Addr
  | .v6 bits _ => .v6 bits ""
  | a => a

end Addr

structure Prefix where
  addr : Addr
  bits : ℕ
  deriving DecidableEq

def Prefix.contains (p : Prefix) (a : Addr) : Bool :=
  match p.addr, a with
  | .v4 x, .v4 y => p.bits ≤ 32 ∧ (x ^^^ y).toNat / 2 ^ (32 - p.bits) = 0
  | .v6 x _, .v6 y zone => zone = "" ∧ p.bits ≤ 128 ∧ (x ^^^ y).toNat / 2 ^ (128 - p.bits) = 0
  | _, _ => false

def Agree {w : ℕ} (k : ℕ) (x y : BitVec w) : Prop := ∀ i < k, x.getMsbD i = y.getMsbD i

instance {w : ℕ} (k : ℕ) (x y : BitVec w) : Decidable (Agree k x y) :=
  inferInstanceAs (Decidable (∀ i < k, x.getMsbD i = y.getMsbD i))

variable {w k : ℕ}

theorem agree_iff_getLsbD (hk : k ≤ w) (x y : BitVec w) :
    Agree k x y ↔ ∀ j, w - k ≤ j → j < w → x.getLsbD j = y.getLsbD j := by
  constructor
  · intro h j hlow hhigh
    have hi := h (w - 1 - j) (by omega)
    have hj : w - 1 - (w - 1 - j) = j := by omega
    simpa [BitVec.getMsbD_eq_getLsbD, hj, show w - 1 - j < w by omega] using hi
  · intro h i hi
    rw [BitVec.getMsbD_eq_getLsbD, BitVec.getMsbD_eq_getLsbD, h (w - 1 - i) (by omega) (by omega)]

theorem xor_div_eq_zero_iff (hk : k ≤ w) (x y : BitVec w) :
    (x ^^^ y).toNat / 2 ^ (w - k) = 0 ↔ Agree k x y := by
  rw [agree_iff_getLsbD hk, Nat.div_eq_zero_iff, or_iff_right (Nat.ne_of_gt (Nat.two_pow_pos _))]
  have hbit : ∀ j, (x ^^^ y).toNat.testBit j = false ↔ x.getLsbD j = y.getLsbD j := by
    intro j
    rw [BitVec.testBit_toNat, BitVec.getLsbD_xor]
    cases x.getLsbD j <;> cases y.getLsbD j <;> decide
  constructor
  · intro hlt j hlow _
    exact (hbit j).mp (Nat.testBit_lt_two_pow (Nat.lt_of_lt_of_le hlt
      (Nat.pow_le_pow_right (by decide) hlow)))
  · intro h
    refine Nat.lt_pow_two_of_testBit _ fun j hlow => ?_
    by_cases hj : j < w
    · exact (hbit j).mpr (h j hlow hj)
    · rw [BitVec.testBit_toNat]
      exact BitVec.getLsbD_of_ge _ _ (Nat.not_lt.mp hj)

theorem Agree.div_eq (hk : k ≤ w) {x y : BitVec w} (h : Agree k x y) :
    x.toNat / 2 ^ (w - k) = y.toNat / 2 ^ (w - k) := by
  rw [agree_iff_getLsbD hk] at h
  refine Nat.eq_of_testBit_eq fun i => ?_
  rw [Nat.testBit_div_two_pow, Nat.testBit_div_two_pow, BitVec.testBit_toNat, BitVec.testBit_toNat]
  by_cases hi : i + (w - k) < w
  · exact h _ (Nat.le_add_left _ _) hi
  · rw [BitVec.getLsbD_of_ge _ _ (Nat.not_lt.mp hi), BitVec.getLsbD_of_ge _ _ (Nat.not_lt.mp hi)]

theorem agree_mask (hk : k ≤ w) (x y : BitVec w) :
    Agree k (x >>> (w - k) <<< (w - k)) y ↔ Agree k x y := by
  rw [agree_iff_getLsbD hk, agree_iff_getLsbD hk]
  refine forall_congr' fun j => forall_congr' fun hlow => forall_congr' fun hhigh => ?_
  rw [BitVec.getLsbD_shiftLeft, BitVec.getLsbD_ushiftRight, Nat.add_sub_cancel' hlow]
  simp [hhigh, Nat.not_lt.mpr hlow]

theorem agree_width_iff (x y : BitVec w) : Agree w x y ↔ x = y := by
  refine ⟨fun h => BitVec.eq_of_getMsbD_eq fun i hi => h i hi, fun h i _ => by rw [h]⟩

theorem Prefix.contains_v4 (hk : k ≤ 32) (x y : BitVec 32) :
    (Prefix.mk (.v4 x) k).contains (.v4 y) = true ↔ Agree k x y := by
  simp only [contains, hk, true_and, decide_eq_true_eq]
  exact xor_div_eq_zero_iff hk x y

theorem Prefix.contains_v6 (hk : k ≤ 128) (x y : BitVec 128) (zone : String) :
    (Prefix.mk (.v6 x zone) k).contains (.v6 y "") = true ↔ Agree k x y := by
  simp only [contains, hk, true_and, decide_eq_true_eq]
  exact xor_div_eq_zero_iff hk x y

structure TCPAddr where
  addr : Addr
  port : UInt16
  deriving DecidableEq

def joinHostPort (host port : String) : String :=
  if ':' ∈ host.toList then "[" ++ host ++ "]:" ++ port else host ++ ":" ++ port

def TCPAddr.text (ip : Addr → String) (a : TCPAddr) : String :=
  let host := match a.addr with
    | .v6 _ zone => if zone = "" then ip a.addr else ip a.addr.withoutZone ++ "%" ++ zone
    | _ => ip a.addr
  joinHostPort host (toString a.port.toNat)

def TCPAddr.withoutZone (a : TCPAddr) : TCPAddr := { a with addr := a.addr.withoutZone }

theorem joinHostPort_length_lt {h h' p : String} (hlt : h.length < h'.length)
    (hcolon : ':' ∈ h.toList → ':' ∈ h'.toList) :
    (joinHostPort h p).length < (joinHostPort h' p).length := by
  have hclose : "]:".length = 2 := rfl
  have hcol : ":".length = 1 := rfl
  unfold joinHostPort
  by_cases hc : ':' ∈ h.toList
  · rw [if_pos hc, if_pos (hcolon hc)]
    simp only [String.length_append]
    omega
  · rw [if_neg hc]
    split <;> simp only [String.length_append] <;> omega

theorem TCPAddr.eq_of_text_withoutZone {ip : Addr → String} {a : TCPAddr}
    (h : a.withoutZone.text ip = a.text ip) : a.withoutZone = a := by
  obtain ⟨addr, port⟩ := a
  cases addr with
  | zero => rfl
  | v4 bits => rfl
  | v6 bits zone =>
    by_cases hz : zone = ""
    · rw [hz]
      rfl
    · have hlt : (ip (.v6 bits "")).length < (ip (.v6 bits "") ++ "%" ++ zone).length := by
        simp only [String.length_append]
        have hone : "%".length = 1 := rfl
        omega
      have hlen := joinHostPort_length_lt (p := toString port.toNat) hlt
        (by intro hc; simp [String.toList_append, hc])
      simp only [text, withoutZone, Addr.withoutZone, if_neg hz, if_true] at h
      rw [h] at hlen
      exact absurd hlen (Nat.lt_irrefl _)

end L8Tunnel.Base.Net
