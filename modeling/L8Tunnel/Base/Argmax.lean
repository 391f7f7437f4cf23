import Mathlib.Data.List.MinMax

/-! # The first of the highest, and of the lowest -/

namespace L8Tunnel.Base.Argmax
universe u v
variable {α : Type u} {β : Type v} [LinearOrder β]

theorem argmax_insert (f : α → β) (x : α) (l₁ l₂ : List α) :
    (l₁ ++ x :: l₂).argmax f = some x ∨ (l₁ ++ x :: l₂).argmax f = (l₁ ++ l₂).argmax f := by
  induction l₁ with
  | nil =>
    rw [List.nil_append, List.nil_append, List.argmax_cons]
    cases l₂.argmax f with
    | none => exact .inl rfl
    | some c =>
      by_cases hlt : f x < f c
      · exact .inr (if_pos hlt)
      · exact .inl (if_neg hlt)
  | cons a l₁ ih =>
    rw [List.cons_append, List.cons_append, List.argmax_cons, List.argmax_cons]
    rcases ih with hx | hsame
    · rw [hx]
      by_cases hlt : f a < f x
      · exact .inl (if_pos hlt)
      · -- nothing in the rest beats `a` if the new one does not
        refine .inr ((if_neg hlt).trans ?_)
        cases hrest : (l₁ ++ l₂).argmax f with
        | none => rfl
        | some c =>
          have hc : c ∈ l₁ ++ l₂ := List.argmax_mem hrest
          have hmem : c ∈ l₁ ++ x :: l₂ := by
            rcases List.mem_append.mp hc with h | h
            · exact List.mem_append_left _ h
            · exact List.mem_append_right _ (List.mem_cons_of_mem _ h)
          have hle : f c ≤ f x := List.le_of_mem_argmax hmem hx
          exact (if_neg (not_lt.mpr (hle.trans (not_lt.mp hlt)))).symm
    · rw [hsame]
      exact .inr rfl

theorem argmax_congr {f g : α → β} {l : List α} (h : ∀ a ∈ l, f a = g a) :
    l.argmax f = l.argmax g := by
  induction l with
  | nil => rfl
  | cons a l ih =>
    have htail : l.argmax f = l.argmax g := ih fun b hb => h b (List.mem_cons_of_mem _ hb)
    rw [List.argmax_cons, List.argmax_cons, htail]
    cases hc : l.argmax g with
    | none => rfl
    | some c =>
      have hmem : c ∈ l := List.argmax_mem hc
      dsimp only
      rw [h a List.mem_cons_self, h c (List.mem_cons_of_mem _ hmem)]

/-- The first of the elements with the lowest value, and where it stands. -/
def FirstMin (f : α → β) (l : List α) (m : α) : Prop :=
  ∃ before after, l = before ++ m :: after ∧ (∀ a ∈ before, f m < f a) ∧ ∀ a ∈ after, f m ≤ f a

namespace FirstMin
variable {f : α → β} {l : List α} {m x : α}

theorem mem (h : FirstMin f l m) : m ∈ l := by
  obtain ⟨before, after, rfl, -, -⟩ := h
  exact List.mem_append_right _ List.mem_cons_self

theorem le (h : FirstMin f l m) : ∀ a ∈ l, f m ≤ f a := by
  obtain ⟨before, after, rfl, hbefore, hafter⟩ := h
  intro a ha
  rcases List.mem_append.mp ha with ha | ha
  · exact (hbefore a ha).le
  · rcases List.mem_cons.mp ha with rfl | ha
    · exact le_rfl
    · exact hafter a ha

theorem concat (h : FirstMin f l m) (x : α) :
    FirstMin f (l ++ [x]) (if f x < f m then x else m) := by
  split
  next hlt => exact ⟨l, [], rfl, fun a ha => hlt.trans_le (h.le a ha), by simp⟩
  next hnot =>
    obtain ⟨before, after, rfl, hbefore, hafter⟩ := h
    refine ⟨before, after ++ [x], by simp, hbefore, fun a ha => ?_⟩
    rcases List.mem_append.mp ha with ha | ha
    · exact hafter a ha
    · rw [List.mem_singleton.mp ha]
      exact not_lt.mp hnot

end FirstMin

/-- A loop that keeps the element it has until it meets a lower one. -/
theorem firstMin_foldl {f : α → β} {less : α → α → Bool} {first : α} {rest : List α}
    (hless : ∀ a ∈ first :: rest, ∀ b ∈ first :: rest, less a b = true ↔ f a < f b) :
    FirstMin f (first :: rest)
      (rest.foldl (fun best x => if less x best then x else best) first) := by
  induction rest using List.reverseRecOn with
  | nil => exact ⟨[], [], rfl, by simp, by simp⟩
  | append_singleton rest x ih =>
    have hsub : ∀ a ∈ first :: rest, a ∈ first :: (rest ++ [x]) := fun a ha =>
      List.mem_append_left [x] ha
    have hbest := ih fun a ha b hb => hless a (hsub a ha) b (hsub b hb)
    have hx : x ∈ first :: (rest ++ [x]) := by simp
    rw [List.foldl_concat]
    simp only [hless x hx _ (hsub _ hbest.mem)]
    exact hbest.concat x

end L8Tunnel.Base.Argmax
