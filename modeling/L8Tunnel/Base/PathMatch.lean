import Mathlib.Data.List.Basic

/-! # Shell patterns, as Go's `path.Match` has them -/

namespace L8Tunnel.Base.PathMatch

inductive Term where
  | star
  | any
  | char (c : Char)
  | cls (negated : Bool) (ranges : List (Char × Char))
  deriving DecidableEq

def getEsc : List Char → Option (Char × List Char)
  | '\\' :: c :: rest => if rest = [] then none else some (c, rest)
  | c :: rest =>
    if c = '\\' ∨ c = '-' ∨ c = ']' ∨ rest = [] then none else some (c, rest)
  | [] => none

def parseRanges : ℕ → List (Char × Char) → List Char → Option (List (Char × Char) × List Char)
  | 0, _, _ => none
  | fuel + 1, ranges, cs =>
    if ranges ≠ [] ∧ cs.head? = some ']' then some (ranges, cs.tail)
    else (getEsc cs).bind fun (lo, rest) =>
      if rest.head? = some '-' then
        (getEsc rest.tail).bind fun (hi, rest) => parseRanges fuel (ranges ++ [(lo, hi)]) rest
      else parseRanges fuel (ranges ++ [(lo, lo)]) rest

def parseTerms : ℕ → List Char → Option (List Term)
  | _, [] => some []
  | 0, _ => none
  | fuel + 1, '*' :: cs => (parseTerms fuel cs).map (.star :: ·)
  | fuel + 1, '?' :: cs => (parseTerms fuel cs).map (.any :: ·)
  | _ + 1, ['\\'] => none
  | fuel + 1, '\\' :: c :: cs => (parseTerms fuel cs).map (.char c :: ·)
  | fuel + 1, '[' :: cs =>
    let negated := cs.head? = some '^'
    (parseRanges fuel [] (if negated then cs.tail else cs)).bind fun (ranges, rest) =>
      (parseTerms fuel rest).map (.cls negated ranges :: ·)
  | fuel + 1, c :: cs => (parseTerms fuel cs).map (.char c :: ·)

def terms (pattern : String) : Option (List Term) :=
  parseTerms pattern.toList.length pattern.toList

def Term.takes : Term → Char → Bool
  | .star, _ => false
  | .any, c => c ≠ '/'
  | .char d, c => d = c
  | .cls negated ranges, c => (ranges.any fun r => r.1 ≤ c ∧ c ≤ r.2) ≠ negated

def afterStar (rest : List Char → Bool) : List Char → Bool
  | [] => rest []
  | c :: cs => rest (c :: cs) || (c ≠ '/' && afterStar rest cs)

/-- A star takes any stretch without a slash and is tried at every length. `path.Match` keeps
the first place where the chunk after a star fits, which differs only on names with a slash. -/
def fits : List Term → List Char → Bool
  | [], cs => cs = []
  | .star :: ts, cs => afterStar (fun rest => fits ts rest) cs
  | _ :: _, [] => false
  | t :: ts, c :: cs => t.takes c && fits ts cs

def errBadPattern : String := "syntax error in pattern"

def pathMatch (pattern name : String) : Except String Bool :=
  match terms pattern with
  | none => .error errBadPattern
  | some ts => .ok (fits ts name.toList)

/-- `ok, _ := path.Match(pattern, name)`: a bad pattern matches nothing. -/
def isMatch (pattern name : String) : Bool :=
  match pathMatch pattern name with
  | .ok ok => ok
  | .error _ => false

theorem isMatch_iff {pattern name : String} :
    isMatch pattern name = true ↔ ∃ ts, terms pattern = some ts ∧ fits ts name.toList = true := by
  unfold isMatch pathMatch
  cases terms pattern with
  | none => simp
  | some ts => simp

variable {cs x w : List Char} {ts : List Term} {c : Char}

theorem afterStar_iff {rest : List Char → Bool} :
    afterStar rest cs = true ↔ ∃ u v, cs = u ++ v ∧ '/' ∉ u ∧ rest v = true := by
  induction cs with
  | nil =>
    constructor
    · exact fun h => ⟨[], [], rfl, by simp, h⟩
    · rintro ⟨u, v, huv, -, h⟩
      obtain ⟨rfl, rfl⟩ := List.append_eq_nil_iff.mp huv.symm
      exact h
  | cons c cs ih =>
    simp only [afterStar, Bool.or_eq_true, Bool.and_eq_true, ih, decide_eq_true_eq]
    constructor
    · rintro (h | ⟨hc, u, v, rfl, hu, h⟩)
      · exact ⟨[], c :: cs, rfl, by simp, h⟩
      · exact ⟨c :: u, v, rfl, by simp [hu, Ne.symm hc], h⟩
    · rintro ⟨u, v, huv, hu, h⟩
      cases u with
      | nil =>
        rw [huv]
        exact .inl h
      | cons c' u =>
        obtain ⟨rfl, rfl⟩ := List.cons.inj huv
        rw [List.mem_cons, not_or] at hu
        exact .inr ⟨Ne.symm hu.1, u, v, rfl, hu.2, h⟩

theorem fits_star_iff :
    fits (.star :: ts) cs = true ↔ ∃ u v, cs = u ++ v ∧ '/' ∉ u ∧ fits ts v = true := by
  rw [fits, afterStar_iff]

theorem fits_cons_iff {t : Term} (ht : t ≠ .star) :
    fits (t :: ts) (c :: cs) = true ↔ t.takes c = true ∧ fits ts cs = true := by
  cases t with
  | star => exact absurd rfl ht
  | any => simp [fits]
  | char d => simp [fits]
  | cls negated ranges => simp [fits]

/-- The terms fit `c :: w` with a term that takes `c` for a character; the stars before
it take nothing. -/
def fitsAsChar (c : Char) (w : List Char) : List Term → Bool
  | [] => false
  | .star :: ts => fitsAsChar c w ts
  | t :: ts => t.takes c && fits ts w

theorem fitsAsChar_cons {t : Term} (ht : t ≠ .star) :
    fitsAsChar c w (t :: ts) = true ↔ t.takes c = true ∧ fits ts w = true := by
  cases t with
  | star => exact absurd rfl ht
  | any => simp [fitsAsChar]
  | char d => simp [fitsAsChar]
  | cls negated ranges => simp [fitsAsChar]

theorem fits_of_asChar (h : fitsAsChar c w ts = true) : fits ts (c :: w) = true := by
  induction ts with
  | nil => cases h
  | cons t ts ih =>
    by_cases ht : t = .star
    · subst ht
      exact fits_star_iff.mpr ⟨[], c :: w, rfl, List.not_mem_nil, ih h⟩
    · exact (fits_cons_iff ht).mpr ((fitsAsChar_cons ht).mp h)

/-- Terms that fit `c :: w` take `c` for a character, or with a star that takes any
other text in its place. -/
theorem asChar_or_fits (h : fits ts (c :: w) = true) (hx : '/' ∉ x) :
    fitsAsChar c w ts = true ∨ fits ts (x ++ w) = true := by
  induction ts with
  | nil => cases h
  | cons t ts ih =>
    by_cases ht : t = .star
    · subst ht
      obtain ⟨u, v, huv, hu, hv⟩ := fits_star_iff.mp h
      cases u with
      | nil =>
        rw [List.nil_append] at huv
        subst huv
        refine (ih hv).imp_right fun hrest => ?_
        exact fits_star_iff.mpr ⟨[], x ++ w, rfl, List.not_mem_nil, hrest⟩
      | cons c' u =>
        obtain ⟨rfl, rfl⟩ := List.cons.inj huv
        rw [List.mem_cons, not_or] at hu
        refine .inr (fits_star_iff.mpr ⟨x ++ u, v, (List.append_assoc _ _ _).symm, ?_, hv⟩)
        rw [List.mem_append, not_or]
        exact ⟨hx, hu.2⟩
    · exact .inl ((fitsAsChar_cons ht).mpr ((fits_cons_iff ht).mp h))

end L8Tunnel.Base.PathMatch
