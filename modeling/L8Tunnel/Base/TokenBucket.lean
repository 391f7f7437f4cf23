import Mathlib.Algebra.Order.Field.Basic
import Mathlib.Tactic.Linarith
import Mathlib.Tactic.Ring

/-! # Token buckets -/

namespace L8Tunnel.Base.TokenBucket

/-- Readings of a clock and the time between them, which may saturate but never exceeds the
difference. -/
structure Clock (T K : Type) [LinearOrder T] [Field K] [LinearOrder K] where
  seconds : T → K
  elapsed : T → T → K
  seconds_mono : ∀ {s t : T}, s ≤ t → seconds s ≤ seconds t
  elapsed_mono : ∀ {s t : T} (last : T), s ≤ t → elapsed s last ≤ elapsed t last
  elapsed_le : ∀ {last now : T}, last ≤ now → elapsed now last ≤ seconds now - seconds last

structure Limit (K : Type) [Field K] [LinearOrder K] where
  rate : K
  burst : K
  rate_nonneg : 0 ≤ rate
  burst_nonneg : 0 ≤ burst

/-- The tokens there were at the last refill. -/
structure Bucket (T K : Type) where
  tokens : K
  last : T
  deriving DecidableEq

variable {T K : Type} [Field K]

namespace Bucket

def take (b : Bucket T K) : Bucket T K := { b with tokens := b.tokens - 1 }
@[simp] theorem take_last (b : Bucket T K) : b.take.last = b.last := rfl
@[simp] theorem take_tokens (b : Bucket T K) : b.take.tokens = b.tokens - 1 := rfl

variable [LinearOrder T] [LinearOrder K]

def fresh (l : Limit K) (now : T) : Bucket T K := ⟨l.burst, now⟩

def refill (c : Clock T K) (l : Limit K) (b : Bucket T K) (now : T) : Bucket T K :=
  let tokens := b.tokens + c.elapsed now b.last * l.rate
  { tokens := if tokens > l.burst then l.burst else tokens, last := now }

def Full (c : Clock T K) (l : Limit K) (b : Bucket T K) (now : T) : Prop :=
  b.tokens + c.elapsed now b.last * l.rate ≥ l.burst

instance (c : Clock T K) (l : Limit K) (b : Bucket T K) (now : T) : Decidable (b.Full c l now) :=
  inferInstanceAs (Decidable (_ ≥ _))

def found (c : Clock T K) (l : Limit K) (b : Option (Bucket T K)) (now : T) : Bucket T K :=
  (b.map fun b => b.refill c l now).getD (fresh l now)

variable {c : Clock T K} {l : Limit K} {b : Bucket T K} {now after : T}

@[simp] theorem refill_last : (b.refill c l now).last = now := rfl

@[simp] theorem found_last (b : Option (Bucket T K)) : (found c l b now).last = now := by
  cases b <;> rfl

theorem refill_tokens_le_burst : (b.refill c l now).tokens ≤ l.burst := by
  simp only [refill]
  split
  · exact le_rfl
  · next h => exact not_lt.mp h

theorem refill_tokens_le_gain :
    (b.refill c l now).tokens ≤ b.tokens + c.elapsed now b.last * l.rate := by
  simp only [refill]
  split
  · next h => exact le_of_lt h
  · exact le_rfl

theorem refill_of_full (h : b.Full c l now) : b.refill c l now = fresh l now := by
  simp only [refill, fresh, Bucket.mk.injEq, and_true]
  split
  · rfl
  · next hle => exact le_antisymm (not_lt.mp hle) h

variable [IsStrictOrderedRing K]

theorem Full.later (h : b.Full c l now) (hle : now ≤ after) : b.Full c l after := by
  have hmono := mul_le_mul_of_nonneg_right (c.elapsed_mono b.last hle) l.rate_nonneg
  unfold Full at h ⊢
  linarith

end Bucket

variable [LinearOrder T] [LinearOrder K]

def Stands (c : Clock T K) (l : Limit K) (now : T) (kept whole : Option (Bucket T K)) : Prop :=
  kept = whole ∨ kept = none ∧ ∃ b, whole = some b ∧ b.Full c l now

namespace Stands
variable {c : Clock T K} {l : Limit K} {now after : T} {kept whole : Option (Bucket T K)}

theorem found_eq (h : Stands c l now kept whole) :
    Bucket.found c l kept now = Bucket.found c l whole now := by
  rcases h with rfl | ⟨rfl, b, rfl, hfull⟩
  · rfl
  · exact (Bucket.refill_of_full hfull).symm

theorem forget {b : Bucket T K} (h : Stands c l now (some b) whole) (hfull : b.Full c l now) :
    Stands c l now none whole := by
  rcases h with heq | ⟨hnone, -⟩
  · exact .inr ⟨rfl, b, heq.symm, hfull⟩
  · cases hnone

theorem later [IsStrictOrderedRing K] (h : Stands c l now kept whole) (hle : now ≤ after) :
    Stands c l after kept whole := by
  rcases h with heq | ⟨hnone, b, hb, hfull⟩
  · exact .inl heq
  · exact .inr ⟨hnone, b, hb, hfull.later hle⟩

end Stands

/-- `n` takes since `t` are paid for by the burst and the rate, what is left included. -/
structure Window (c : Clock T K) (l : Limit K) (t d : K) (n : ℕ) (b : Bucket T K) : Prop where
  tokens_le : b.tokens ≤ l.burst
  paid : n ≠ 0 → t ≤ c.seconds b.last ∧
    n + b.tokens ≤ l.burst + l.rate * (c.seconds b.last - t)
  count_le : (n : K) ≤ l.burst + l.rate * d

namespace Window
variable [IsStrictOrderedRing K] {c : Clock T K} {l : Limit K} {t d : K} {n : ℕ}
  {b : Bucket T K} {now : T}

theorem fresh (hd : 0 ≤ d) (now : T) : Window c l t d 0 (Bucket.fresh l now) where
  tokens_le := le_rfl
  paid h := absurd rfl h
  count_le := by
    have hgain := mul_nonneg l.rate_nonneg hd
    have hburst := l.burst_nonneg
    simp only [Nat.cast_zero]
    linarith

theorem refill (h : Window c l t d n b) (hle : b.last ≤ now) :
    Window c l t d n (b.refill c l now) where
  tokens_le := Bucket.refill_tokens_le_burst
  paid hn := by
    obtain ⟨hopen, hpaid⟩ := h.paid hn
    have hstep := c.seconds_mono hle
    -- the gain of the refill is at most the rate over the time since the last one
    have hgain : c.elapsed now b.last * l.rate ≤
        l.rate * (c.seconds now - c.seconds b.last) := by
      rw [mul_comm]
      exact mul_le_mul_of_nonneg_left (c.elapsed_le hle) l.rate_nonneg
    have htokens : (b.refill c l now).tokens ≤ b.tokens + c.elapsed now b.last * l.rate :=
      Bucket.refill_tokens_le_gain
    have hsplit : l.rate * (c.seconds now - t) = l.rate * (c.seconds b.last - t) +
        l.rate * (c.seconds now - c.seconds b.last) := by ring
    refine ⟨hopen.trans hstep, ?_⟩
    rw [Bucket.refill_last, hsplit]
    linarith
  count_le := h.count_le

theorem found {b : Option (Bucket T K)} (hd : 0 ≤ d) (hnone : b = none → n = 0)
    (hsome : ∀ x, b = some x → Window c l t d n x ∧ x.last ≤ now) :
    Window c l t d n (Bucket.found c l b now) := by
  cases b with
  | none =>
    rw [hnone rfl]
    exact fresh hd now
  | some x =>
    obtain ⟨hx, hle⟩ := hsome x rfl
    exact hx.refill hle

theorem take (h : Window c l t d n b) : Window c l t d n b.take where
  tokens_le := by
    have := h.tokens_le
    rw [Bucket.take_tokens]
    linarith
  paid hn := by
    obtain ⟨hopen, hpaid⟩ := h.paid hn
    refine ⟨hopen, ?_⟩
    rw [Bucket.take_tokens, Bucket.take_last]
    linarith
  count_le := h.count_le

theorem take_in (h : Window c l t d n b) (hopen : t ≤ c.seconds b.last)
    (hclose : c.seconds b.last ≤ t + d) (htoken : 1 ≤ b.tokens) :
    Window c l t d (n + 1) b.take := by
  -- the first event of the window is paid for by the burst alone
  have hpaid : (n : K) + b.tokens ≤ l.burst + l.rate * (c.seconds b.last - t) := by
    by_cases hn : n = 0
    · have hgain := mul_nonneg l.rate_nonneg (sub_nonneg.mpr hopen)
      have htokens := h.tokens_le
      rw [hn, Nat.cast_zero]
      linarith
    · exact (h.paid hn).2
  have hspent : ((n + 1 : ℕ) : K) + b.take.tokens ≤
      l.burst + l.rate * (c.seconds b.last - t) := by
    rw [Bucket.take_tokens, Nat.cast_add, Nat.cast_one]
    linarith
  have hd : l.rate * (c.seconds b.last - t) ≤ l.rate * d :=
    mul_le_mul_of_nonneg_left (by linarith) l.rate_nonneg
  exact {
    tokens_le := h.take.tokens_le
    paid := fun _ => ⟨hopen, hspent⟩
    count_le := by
      rw [Bucket.take_tokens] at hspent
      linarith }

end Window

end L8Tunnel.Base.TokenBucket
