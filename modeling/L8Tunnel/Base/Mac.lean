import Mathlib.Data.Set.Defs

/-! # Message authentication -/

namespace L8Tunnel.Base.Mac

variable {κ μ τ : Type}

/-- No tag that was made is the tag of another key or message. -/
structure Ideal (mac : κ → μ → τ) (made : Set (κ × μ)) : Prop where
  binding : ∀ x ∈ made, ∀ y, mac x.1 x.2 = mac y.1 y.2 → x = y

def Unforged (mac : κ → μ → τ) (made : Set (κ × μ)) (key : κ) (tag : τ) : Prop :=
  ∀ m, tag = mac key m → (key, m) ∈ made

theorem Ideal.eq_of_mac_eq {mac : κ → μ → τ} {made : Set (κ × μ)} (h : Ideal mac made)
    {key k : κ} {m m' : μ} (hmade : (key, m) ∈ made) (heq : mac key m = mac k m') :
    key = k ∧ m = m' :=
  Prod.mk.inj (h.binding (key, m) hmade (k, m') heq)

theorem frame_last {α : Type} {sep : α} {s s' c c' : List α} (hc : sep ∉ c) (hc' : sep ∉ c')
    (h : s ++ sep :: c = s' ++ sep :: c') : s = s' ∧ c = c' := by
  rcases List.append_eq_append_iff.mp h with ⟨t, rfl, ht⟩ | ⟨t, rfl, ht⟩
  · cases t with
    | nil => exact ⟨by simp, (List.cons.inj ht).2⟩
    | cons x t =>
      have hmem : sep ∈ c := by
        rw [(List.cons.inj ht).2]
        simp
      exact absurd hmem hc
  · cases t with
    | nil => exact ⟨by simp, (List.cons.inj ht).2.symm⟩
    | cons x t =>
      have hmem : sep ∈ c' := by
        rw [(List.cons.inj ht).2]
        simp
      exact absurd hmem hc'

theorem frame_first {α : Type} {sep : α} {s s' c c' : List α} (hs : sep ∉ s) (hs' : sep ∉ s')
    (h : s ++ sep :: c = s' ++ sep :: c') : s = s' ∧ c = c' := by
  have hrev := congrArg List.reverse h
  simp only [List.reverse_append, List.reverse_cons, List.append_assoc, List.singleton_append]
    at hrev
  obtain ⟨hc, hs⟩ := frame_last (by simpa using hs) (by simpa using hs') hrev
  exact ⟨List.reverse_inj.mp hs, List.reverse_inj.mp hc⟩

end L8Tunnel.Base.Mac
