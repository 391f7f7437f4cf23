import Mathlib.Algebra.Group.Nat.Defs
import Mathlib.Data.List.Basic

/-! # Byte strings -/

namespace L8Tunnel.Base.Bytes

def ofString (s : String) : List UInt8 := s.toUTF8.data.toList
def toString? (b : List UInt8) : Option String := String.fromUTF8? ⟨b.toArray⟩

theorem toString?_ofString (s : String) : toString? (ofString s) = some s := by
  have hdata : (⟨s.toUTF8.data.toList.toArray⟩ : ByteArray) = s.toUTF8 := by simp
  unfold toString? ofString
  rw [hdata]
  unfold String.fromUTF8?
  exact dif_pos s.isValidUTF8

/-- Big-endian bytes of a number, in `k` places. -/
def digits : ℕ → ℕ → List UInt8
  | 0, _ => []
  | k + 1, n => digits k (n / 256) ++ [UInt8.ofNat (n % 256)]

def value (b : List UInt8) : ℕ := b.foldl (fun n x => n * 256 + x.toNat) 0

theorem digits_length (k n : ℕ) : (digits k n).length = k := by
  induction k generalizing n with
  | zero => rfl
  | succ k ih => rw [digits, List.length_append, ih, List.length_singleton]

theorem value_digits (k n : ℕ) : value (digits k n) = n % 256 ^ k := by
  induction k generalizing n with
  | zero => rw [Nat.pow_zero, Nat.mod_one]; rfl
  | succ k ih =>
    have hsplit : value (digits (k + 1) n) = value (digits k (n / 256)) * 256 + n % 256 := by
      simp [value, digits, List.foldl_append]
    rw [hsplit, ih, Nat.pow_succ', Nat.mod_mul]
    omega

def putUint64 (x : UInt64) : List UInt8 := digits 8 x.toNat
def uint64 (b : List UInt8) : UInt64 := UInt64.ofNat (value b)

theorem uint64_putUint64 (x : UInt64) : uint64 (putUint64 x) = x := by
  have hx : x.toNat < 256 ^ 8 := x.toNat_lt
  unfold uint64 putUint64
  rw [value_digits, Nat.mod_eq_of_lt hx, UInt64.ofNat_toNat]

end L8Tunnel.Base.Bytes
