import L8Tunnel.Base.GoMap
import L8Tunnel.Base.Net
import L8Tunnel.Base.TokenBucket

/-! # Rate limits (auth/ratelimit.go, relay/config.go) -/

namespace L8Tunnel.Auth
open Base Net TokenBucket

def timeSub (u v : ℤ) : ℤ := max (-9223372036854775808) (min 9223372036854775807 (u - v))
def seconds (d : ℤ) : ℚ := d / 1000000000

theorem seconds_mono {d e : ℤ} (h : d ≤ e) : seconds d ≤ seconds e := by
  have hcast : (d : ℚ) ≤ (e : ℚ) := Int.cast_le.mpr h
  unfold seconds
  linarith

theorem seconds_sub (d e : ℤ) : seconds (d - e) = seconds d - seconds e := by
  unfold seconds
  push_cast
  ring

def clock : Clock ℤ ℚ where
  seconds := seconds
  elapsed now last := seconds (timeSub now last)
  seconds_mono := seconds_mono
  elapsed_mono last h := seconds_mono (by unfold timeSub; omega)
  elapsed_le {last now} h := by
    rw [← seconds_sub]
    exact seconds_mono (by unfold timeSub; omega)

/-- A bucket for each client address, swept of full ones once a minute. -/
structure IPLimiter where
  limit : Limit ℚ
  buckets : GoMap Addr (Bucket ℤ ℚ) := ∅
  lastSweep : ℤ

def newIPLimiter (limit : Limit ℚ) (now : ℤ) : IPLimiter := { limit := limit, lastSweep := now }
def minute : ℤ := 60 * 1000000000

namespace IPLimiter

def sweep (order : RangeOrder) (l : IPLimiter) (now : ℤ) : IPLimiter :=
  { l with
    buckets := (l.buckets.range order).foldl (fun m ip =>
      if (m.get ip).any fun b => b.Full clock l.limit now then m.del ip else m) l.buckets
    lastSweep := now }

def bucketOf (l : IPLimiter) (ip : Addr) (now : ℤ) : IPLimiter × Bucket ℤ ℚ :=
  let b := Bucket.found clock l.limit (l.buckets.get ip) now
  ({ l with buckets := l.buckets.set ip b }, b)

def refill (order : RangeOrder) (l : IPLimiter) (ip : Addr) (now : ℤ) :
    IPLimiter × Bucket ℤ ℚ :=
  (if timeSub now l.lastSweep > minute then l.sweep order now else l).bucketOf ip now

def takeFrom (ip : Addr) (r : IPLimiter × Bucket ℤ ℚ) : Bool × IPLimiter :=
  if r.2.tokens < 1 then (false, r.1)
  else (true, { r.1 with buckets := r.1.buckets.set ip r.2.take })

def allow (order : RangeOrder) (l : IPLimiter) (ip : Addr) (now : ℤ) : Bool × IPLimiter :=
  takeFrom ip.unmap (l.refill order ip.unmap now)

def exhausted (order : RangeOrder) (l : IPLimiter) (ip : Addr) (now : ℤ) : Bool × IPLimiter :=
  let r := l.refill order ip.unmap now
  (r.2.tokens < 1, r.1)

end IPLimiter

/-- A call of the limiter, or a sweep at a time of its own. -/
inductive LimiterCall where
  | allow (ip : Addr) (now : ℤ)
  | exhausted (ip : Addr) (now : ℤ)
  | sweep (now : ℤ)
  deriving DecidableEq

namespace LimiterCall

def time : LimiterCall → ℤ
  | .allow _ now | .exhausted _ now | .sweep now => now

def inWindow (ip : Addr) (t d : ℚ) : LimiterCall → Bool
  | .allow ip' now => ip'.unmap = ip.unmap ∧ t ≤ seconds now ∧ seconds now ≤ t + d
  | _ => false

end LimiterCall

namespace IPLimiter

def call (order : RangeOrder) (l : IPLimiter) : LimiterCall → Option Bool × IPLimiter
  | .allow ip now => (l.allow order ip now).map some id
  | .exhausted ip now => (l.exhausted order ip now).map some id
  | .sweep now => (none, l.sweep order now)

def callUnswept (l : IPLimiter) : LimiterCall → Option Bool × IPLimiter
  | .allow ip now => (takeFrom ip.unmap (l.bucketOf ip.unmap now)).map some id
  | .exhausted ip now =>
    (some ((l.bucketOf ip.unmap now).2.tokens < 1), (l.bucketOf ip.unmap now).1)
  | .sweep _ => (none, l)

def answers (step : IPLimiter → LimiterCall → Option Bool × IPLimiter) :
    IPLimiter → List LimiterCall → List (Option Bool)
  | _, [] => []
  | l, c :: cs => (step l c).1 :: answers step (step l c).2 cs

end IPLimiter

def answersOf (order : RangeOrder) (limit : Limit ℚ) (start : ℤ) (calls : List LimiterCall) :
    List (Option Bool) :=
  IPLimiter.answers (IPLimiter.call order) (newIPLimiter limit start) calls

def unsweptAnswers (limit : Limit ℚ) (start : ℤ) (calls : List LimiterCall) :
    List (Option Bool) :=
  IPLimiter.answers IPLimiter.callUnswept (newIPLimiter limit start) calls

def admitted (ip : Addr) (t d : ℚ) (calls : List LimiterCall) (answers : List (Option Bool)) : ℕ :=
  (calls.zip answers).countP fun x => x.1.inWindow ip t d ∧ x.2 = some true

/-- `l` is `k` but for buckets that a sweep dropped, which would be full by now. -/
structure Forgot (now : ℤ) (l k : IPLimiter) : Prop where
  limit : l.limit = k.limit
  stands : ∀ ip, Stands clock k.limit now (l.buckets.get ip) (k.buckets.get ip)

namespace Forgot
variable {now after : ℤ} {l k : IPLimiter}

theorem later (h : Forgot now l k) (hle : now ≤ after) : Forgot after l k :=
  ⟨h.limit, fun ip => (h.stands ip).later hle⟩

theorem sweep (h : Forgot now l k) (order : RangeOrder) : Forgot now (l.sweep order now) k := by
  refine ⟨h.limit, fun ip => ?_⟩
  simp only [IPLimiter.sweep, GoMap.get_foldl_del_if]
  split
  · next hdel =>
    -- only a full bucket is deleted
    obtain ⟨b, hb, hfull⟩ := (Option.any_eq_true _ _).mp hdel.2
    have hs := h.stands ip
    rw [hb] at hs
    exact hs.forget (h.limit ▸ of_decide_eq_true hfull)
  · exact h.stands ip

theorem bucketOf (h : Forgot now l k) (ip : Addr) :
    (l.bucketOf ip now).2 = (k.bucketOf ip now).2 ∧
      Forgot now (l.bucketOf ip now).1 (k.bucketOf ip now).1 := by
  have hb : (l.bucketOf ip now).2 = (k.bucketOf ip now).2 := by
    simp only [IPLimiter.bucketOf, h.limit]
    exact (h.stands ip).found_eq
  refine ⟨hb, h.limit, fun j => ?_⟩
  simp only [IPLimiter.bucketOf] at hb ⊢
  rw [GoMap.get_set_eq_ite, GoMap.get_set_eq_ite, hb]
  split
  · exact .inl rfl
  · exact h.stands j

theorem refill (h : Forgot now l k) (order : RangeOrder) (ip : Addr) :
    (l.refill order ip now).2 = (k.bucketOf ip now).2 ∧
      Forgot now (l.refill order ip now).1 (k.bucketOf ip now).1 := by
  unfold IPLimiter.refill
  split
  · exact (h.sweep order).bucketOf ip
  · exact h.bucketOf ip

theorem takeFrom {r s : IPLimiter × Bucket ℤ ℚ} (hb : r.2 = s.2) (h : Forgot now r.1 s.1)
    (ip : Addr) : (IPLimiter.takeFrom ip r).1 = (IPLimiter.takeFrom ip s).1 ∧
      Forgot now (IPLimiter.takeFrom ip r).2 (IPLimiter.takeFrom ip s).2 := by
  unfold IPLimiter.takeFrom
  rw [hb]
  split
  · exact ⟨rfl, h⟩
  · refine ⟨rfl, h.limit, fun j => ?_⟩
    simp only [GoMap.get_set_eq_ite]
    split
    · exact .inl rfl
    · exact h.stands j

theorem call (h : Forgot now l k) (order : RangeOrder) (c : LimiterCall) (hle : now ≤ c.time) :
    (l.call order c).1 = (k.callUnswept c).1 ∧
      Forgot c.time (l.call order c).2 (k.callUnswept c).2 := by
  have hc := h.later hle
  cases c with
  | allow ip t =>
    obtain ⟨hb, hr⟩ := hc.refill order ip.unmap
    obtain ⟨hok, hf⟩ := takeFrom hb hr ip.unmap
    exact ⟨congrArg some hok, hf⟩
  | exhausted ip t =>
    obtain ⟨hb, hr⟩ := hc.refill order ip.unmap
    exact ⟨congrArg (fun b : Bucket ℤ ℚ => some (decide (b.tokens < 1))) hb, hr⟩
  | sweep t => exact ⟨rfl, hc.sweep order⟩

theorem answers (order : RangeOrder) {calls : List LimiterCall} (h : Forgot now l k)
    (hfrom : ∀ c ∈ calls, now ≤ c.time) (hclock : (calls.map LimiterCall.time).Pairwise (· ≤ ·)) :
    IPLimiter.answers (IPLimiter.call order) l calls =
      IPLimiter.answers IPLimiter.callUnswept k calls := by
  induction calls generalizing now l k with
  | nil => rfl
  | cons c cs ih =>
    obtain ⟨hafter, htail⟩ := List.pairwise_cons.mp hclock
    obtain ⟨hans, hnext⟩ := h.call order c (hfrom c List.mem_cons_self)
    rw [IPLimiter.answers, IPLimiter.answers, hans]
    refine congrArg _ (ih hnext (fun c' hc' => ?_) htail)
    exact hafter c'.time (List.mem_map_of_mem hc')

end Forgot

structure Spent (ip : Addr) (t d : ℚ) (n : ℕ) (now : ℤ) (k : IPLimiter) : Prop where
  absent : k.buckets.get ip = none → n = 0
  present : ∀ b, k.buckets.get ip = some b → Window clock k.limit t d n b ∧ b.last ≤ now

namespace Spent
variable {ip j : Addr} {t d : ℚ} {n : ℕ} {now after : ℤ} {k : IPLimiter} {b : Bucket ℤ ℚ}

theorem later (h : Spent ip t d n now k) (hle : now ≤ after) : Spent ip t d n after k :=
  ⟨h.absent, fun b hb => ⟨(h.present b hb).1, (h.present b hb).2.trans hle⟩⟩

theorem set (hw : Window clock k.limit t d n b) (hlast : b.last ≤ now) :
    Spent ip t d n now { k with buckets := k.buckets.set ip b } where
  absent hnone := by simp at hnone
  present b' hb' := by
    rw [GoMap.get_set] at hb'
    cases hb'
    exact ⟨hw, hlast⟩

theorem set_ne (h : Spent ip t d n now k) (hne : ip ≠ j) :
    Spent ip t d n now { k with buckets := k.buckets.set j b } where
  absent hnone := h.absent (by rwa [GoMap.get_set_ne _ _ hne] at hnone)
  present b' hb' := h.present b' (by rwa [GoMap.get_set_ne _ _ hne] at hb')

theorem found (h : Spent ip t d n now k) (hd : 0 ≤ d) :
    Window clock k.limit t d n (k.bucketOf ip now).2 :=
  Window.found hd h.absent h.present

theorem bucketOf (h : Spent ip t d n now k) (hd : 0 ≤ d) (j : Addr) :
    Spent ip t d n now (k.bucketOf j now).1 := by
  by_cases hj : ip = j
  · subst hj
    exact set (h.found hd) (le_of_eq (Bucket.found_last _))
  · exact h.set_ne hj

theorem takeFrom (h : Spent ip.unmap t d n now k) (hd : 0 ≤ d) (addr : Addr) :
    Spent ip.unmap t d
      (n + if (LimiterCall.allow addr now).inWindow ip t d = true ∧
          (IPLimiter.takeFrom addr.unmap (k.bucketOf addr.unmap now)).1 = true then 1 else 0)
      now (IPLimiter.takeFrom addr.unmap (k.bucketOf addr.unmap now)).2 := by
  have hk := h.bucketOf hd addr.unmap
  by_cases htoken : (k.bucketOf addr.unmap now).2.tokens < 1
  · simpa [IPLimiter.takeFrom, htoken] using hk
  simp only [IPLimiter.takeFrom, if_neg htoken, and_true]
  by_cases haddr : addr.unmap = ip.unmap
  · have hw := h.found hd
    have hlast : (k.bucketOf ip.unmap now).2.last = now := Bucket.found_last _
    rw [haddr] at htoken ⊢
    by_cases hin : (LimiterCall.allow addr now).inWindow ip t d = true
    · have hopen : t ≤ seconds now ∧ seconds now ≤ t + d := (of_decide_eq_true hin).2
      rw [if_pos hin]
      refine set (hw.take_in ?_ ?_ (not_lt.mp htoken)) (le_of_eq hlast)
      · rw [hlast]
        exact hopen.1
      · rw [hlast]
        exact hopen.2
    · rw [if_neg hin]
      exact set hw.take (le_of_eq hlast)
  · have hin : (LimiterCall.allow addr now).inWindow ip t d = false :=
      decide_eq_false fun hw => haddr hw.1
    rw [hin, if_neg (by decide)]
    exact hk.set_ne (Ne.symm haddr)

theorem callUnswept (h : Spent ip.unmap t d n now k) (hd : 0 ≤ d) (c : LimiterCall)
    (hle : now ≤ c.time) :
    Spent ip.unmap t d
      (n + if c.inWindow ip t d = true ∧ (k.callUnswept c).1 = some true then 1 else 0)
      c.time (k.callUnswept c).2 := by
  have hc := h.later hle
  cases c with
  | allow addr time =>
    have htake := (show Spent ip.unmap t d n time k from hc).takeFrom hd addr
    simpa [IPLimiter.callUnswept, LimiterCall.time] using htake
  | exhausted addr time => exact hc.bucketOf hd addr.unmap
  | sweep time => exact hc

theorem count_le (h : Spent ip t d n now k) (hd : 0 ≤ d) :
    (n : ℚ) ≤ k.limit.burst + k.limit.rate * d :=
  (h.found hd).count_le

end Spent

@[simp] theorem IPLimiter.takeFrom_limit (ip : Addr) (r : IPLimiter × Bucket ℤ ℚ) :
    (takeFrom ip r).2.limit = r.1.limit := by
  unfold takeFrom
  split <;> rfl

@[simp] theorem IPLimiter.callUnswept_limit (k : IPLimiter) (c : LimiterCall) :
    (k.callUnswept c).2.limit = k.limit := by
  cases c with
  | allow ip now => exact takeFrom_limit _ _
  | exhausted ip now => rfl
  | sweep now => rfl

theorem Spent.answers {ip : Addr} {t d : ℚ} {n : ℕ} {now : ℤ} {k : IPLimiter}
    {calls : List LimiterCall} (h : Spent ip.unmap t d n now k) (hd : 0 ≤ d)
    (hfrom : ∀ c ∈ calls, now ≤ c.time) (hclock : (calls.map LimiterCall.time).Pairwise (· ≤ ·)) :
    ((n + admitted ip t d calls (IPLimiter.answers IPLimiter.callUnswept k calls) : ℕ) : ℚ) ≤
      k.limit.burst + k.limit.rate * d := by
  induction calls generalizing n now k with
  | nil => exact h.count_le hd
  | cons c cs ih =>
    obtain ⟨hafter, htail⟩ := List.pairwise_cons.mp hclock
    have hnext := h.callUnswept hd c (hfrom c List.mem_cons_self)
    have hrest := ih hnext (fun c' hc' => hafter c'.time (List.mem_map_of_mem hc')) htail
    rw [IPLimiter.callUnswept_limit] at hrest
    refine le_of_eq_of_le (congrArg _ ?_) hrest
    simp only [admitted, IPLimiter.answers, List.zip_cons_cons, List.countP_cons, decide_eq_true_eq]
    omega

/-- The successful calls for an address in any window are at most the burst and
what the rate gives in that time, and sweeping, whenever it happens, changes no
answer. -/
theorem rate_limits_hold (order : RangeOrder) (limit : Limit ℚ) (start : ℤ)
    (calls : List LimiterCall) (hclock : (start :: calls.map LimiterCall.time).Pairwise (· ≤ ·)) :
    (∀ ip t d, 0 ≤ d → (admitted ip t d calls (answersOf order limit start calls) : ℚ) ≤
        limit.burst + limit.rate * d) ∧
      answersOf order limit start calls = unsweptAnswers limit start calls := by
  obtain ⟨hstart, htail⟩ := List.pairwise_cons.mp hclock
  have hfrom : ∀ c ∈ calls, start ≤ c.time := fun c hc => hstart c.time (List.mem_map_of_mem hc)
  have hsame : answersOf order limit start calls = unsweptAnswers limit start calls :=
    Forgot.answers order ⟨rfl, fun _ => .inl rfl⟩ hfrom htail
  refine ⟨fun ip t d hd => ?_, hsame⟩
  have hnew : Spent ip.unmap t d 0 start (newIPLimiter limit start) :=
    ⟨fun _ => rfl, fun b hb => by simp [newIPLimiter] at hb⟩
  have hcount := hnew.answers hd hfrom htail
  rw [hsame]
  rwa [Nat.zero_add] at hcount

def twoAndOne : Limit ℚ := ⟨1, 2, by norm_num, by norm_num⟩

def burstOfThree : List LimiterCall :=
  [.allow (.v4 1) 0, .allow (.v4 1) 0, .exhausted (.v4 1) 0, .allow (.v4 1) 0,
    .sweep 3000000000, .allow (.v4 1) 3000000000]

theorem rate_limits_hold_burstOfThree :
    answersOf .stored twoAndOne 0 burstOfThree =
        [some true, some true, some true, some false, none, some true] ∧
      (admitted (.v4 1) 0 1 burstOfThree (answersOf .stored twoAndOne 0 burstOfThree) : ℚ) ≤
        twoAndOne.burst + twoAndOne.rate * 1 ∧
      answersOf .stored twoAndOne 0 burstOfThree = unsweptAnswers twoAndOne 0 burstOfThree := by
  have h := rate_limits_hold .stored twoAndOne 0 burstOfThree (by decide)
  exact ⟨by decide +kernel, h.1 (.v4 1) 0 1 (by norm_num), h.2⟩

end L8Tunnel.Auth
