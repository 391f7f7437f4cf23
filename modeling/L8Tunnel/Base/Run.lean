import Mathlib.Data.List.Basic

/-! # Runs of a labelled transition system -/

namespace L8Tunnel.Base

universe u v
variable {σ : Type u} {α : Type v}

/-- A run of the step relation `R`, with what was done at each step. -/
inductive Run (R : σ → α → σ → Prop) : σ → List α → σ → Prop where
  | nil (s : σ) : Run R s [] s
  | cons {s t u : σ} {a : α} {as : List α} : R s a t → Run R t as u → Run R s (a :: as) u

def Guarded (P : σ → α → Prop) (R : σ → α → σ → Prop) (s : σ) (a : α) (t : σ) : Prop :=
  P s a ∧ R s a t

namespace Run
variable {R : σ → α → σ → Prop} {s t : σ} {as : List α}

theorem invariant {I : σ → Prop} (hstep : ∀ s a t, I s → R s a t → I t)
    (h : Run R s as t) (hs : I s) : I t := by
  induction h with
  | nil => exact hs
  | cons hr _ ih => exact ih (hstep _ _ _ hs hr)

theorem append {u : σ} {bs : List α} (h : Run R s as t) (h' : Run R t bs u) :
    Run R s (as ++ bs) u := by
  induction h with
  | nil => exact h'
  | cons hr _ ih => exact .cons hr (ih h')

theorem mono {R' : σ → α → σ → Prop} (hstep : ∀ s a t, R s a t → R' s a t) (h : Run R s as t) :
    Run R' s as t := by
  induction h with
  | nil s => exact .nil s
  | cons hr _ ih => exact .cons (hstep _ _ _ hr) ih

theorem gap {I G : σ → Prop} (hstep : ∀ s a t, I s → R s a t → I t ∨ G t)
    (h : Run R s as t) (hs : I s) (ht : ¬ I t) :
    ∃ bs cs v, as = bs ++ cs ∧ Run R s bs v ∧ Run R v cs t ∧ G v := by
  induction h with
  | nil => exact absurd hs ht
  | @cons s m t a as hr hrest ih =>
    rcases hstep _ _ _ hs hr with hm | hg
    · obtain ⟨bs, cs, v, hsplit, hb, hc, hv⟩ := ih hm ht
      exact ⟨a :: bs, cs, v, by rw [hsplit, List.cons_append], .cons hr hb, hc, hv⟩
    · exact ⟨[a], as, m, rfl, .cons hr (.nil m), hrest, hg⟩

theorem origin {P : σ → Prop} (h : Run R s as t) (ht : P t) :
    P s ∨ ∃ bs a cs u v, as = bs ++ a :: cs ∧ Run R s bs u ∧ R u a v ∧ ¬ P u ∧ P v := by
  induction h with
  | nil => exact .inl ht
  | @cons s m t a as hr hrest ih =>
    rcases ih ht with hm | ⟨bs, b, cs, u, v, hsplit, hrun, hstep, hu, hv⟩
    · by_cases hs : P s
      · exact .inl hs
      · exact .inr ⟨[], a, as, s, m, rfl, .nil s, hr, hs, hm⟩
    · exact .inr ⟨a :: bs, b, cs, u, v, by rw [hsplit, List.cons_append], .cons hr hrun, hstep,
        hu, hv⟩

def replay (ok : σ → α → Bool) (f : σ → α → Option σ) : σ → List α → Option σ
  | s, [] => some s
  | s, a :: as => if ok s a then (f s a).bind fun t => replay ok f t as else none

theorem of_replay {P : σ → α → Prop} {f : σ → α → Option σ} {ok : σ → α → Bool}
    (hok : ∀ s a, ok s a → P s a) (h : replay ok f s as = some t) :
    Run (Guarded P fun s a t => f s a = some t) s as t := by
  induction as generalizing s with
  | nil =>
    cases h
    exact .nil _
  | cons a as ih =>
    unfold replay at h
    split at h
    next hcheck =>
      obtain ⟨u, hu, hrest⟩ := Option.bind_eq_some_iff.mp h
      exact .cons ⟨hok s a hcheck, hu⟩ (ih hrest)
    next => cases h

end Run
end L8Tunnel.Base
