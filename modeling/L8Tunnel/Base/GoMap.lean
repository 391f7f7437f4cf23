import Mathlib.Data.List.AList

/-! # Maps with an unspecified iteration order -/

namespace L8Tunnel.Base

/-- A Go map. Only loops see an order, and that is given by a `RangeOrder`. -/
abbrev GoMap (κ ν : Type) := AList (fun _ : κ => ν)

/-- The order of a loop over a map: any permutation, a new one for every loop. -/
structure RangeOrder where
  visit : {α : Type} → List α → List α
  perm : ∀ {α : Type} (l : List α), (visit l).Perm l

def RangeOrder.stored : RangeOrder := ⟨fun l => l, fun l => List.Perm.refl l⟩

namespace GoMap
variable {κ ν : Type} [DecidableEq κ]

def get (m : GoMap κ ν) (k : κ) : Option ν := AList.lookup k m
def set (m : GoMap κ ν) (k : κ) (v : ν) : GoMap κ ν := AList.insert k v m
def del (m : GoMap κ ν) (k : κ) : GoMap κ ν := AList.erase k m

omit [DecidableEq κ] in
def range (m : GoMap κ ν) (o : RangeOrder) : List κ := o.visit m.keys

def len (m : GoMap κ ν) : ℕ := m.entries.length

variable (m : GoMap κ ν) (k j : κ)

@[simp] theorem get_empty : get (∅ : GoMap κ ν) k = none := AList.lookup_empty k

@[simp] theorem get_set (v : ν) : (m.set k v).get k = some v :=
  AList.lookup_insert m

theorem get_set_ne {k j : κ} (v : ν) (h : j ≠ k) : (m.set k v).get j = m.get j :=
  AList.lookup_insert_ne h

theorem get_set_eq_ite (v : ν) : (m.set k v).get j = if j = k then some v else m.get j := by
  by_cases h : j = k
  · subst h
    simp
  · simp only [get_set_ne m v h, h, if_false]

@[simp] theorem get_del : (m.del k).get k = none :=
  AList.lookup_erase k m

theorem get_del_ne {k j : κ} (h : j ≠ k) : (m.del k).get j = m.get j :=
  AList.lookup_erase_ne h

theorem get_del_eq_ite : (m.del k).get j = if j = k then none else m.get j := by
  by_cases h : j = k
  · subst h
    simp
  · simp only [get_del_ne m h, h, if_false]

theorem get_foldl_del_if (q : ν → Bool) (ks : List κ) (m : GoMap κ ν) (j : κ) :
    (ks.foldl (fun m k => if (m.get k).any q then m.del k else m) m).get j =
      if j ∈ ks ∧ (m.get j).any q then none else m.get j := by
  induction ks generalizing m with
  | nil => simp
  | cons k ks ih =>
    rw [List.foldl_cons, ih]
    by_cases hk : (m.get k).any q = true
    · rw [if_pos hk, get_del_eq_ite]
      by_cases hj : j = k
      · subst hj
        simp [hk]
      · simp [hj]
    · rw [if_neg hk]
      by_cases hj : j = k
      · subst hj
        simp [hk]
      · simp [hj]

theorem get_foldl_del_unless (keep : κ → Prop) [DecidablePred keep] (ks : List κ) (m : GoMap κ ν)
    (j : κ) :
    (ks.foldl (fun m k => if keep k then m else m.del k) m).get j =
      if j ∈ ks ∧ ¬ keep j then none else m.get j := by
  induction ks generalizing m with
  | nil => simp
  | cons k ks ih =>
    rw [List.foldl_cons, ih]
    by_cases hj : j = k
    · subst hj
      by_cases hk : keep j
      · simp [hk]
      · simp [hk]
    · by_cases hk : keep k
      · simp [hk, hj]
      · simp [hk, hj, get_del_ne m hj]

theorem mem_keys : k ∈ m.keys ↔ ∃ v, m.get k = some v := by
  have h : k ∈ m ↔ (m.get k).isSome := (AList.lookup_isSome (s := m) (a := k)).symm
  rw [← AList.mem_keys, h, Option.isSome_iff_exists]

theorem mem_range (o : RangeOrder) (k : κ) : k ∈ m.range o ↔ ∃ v, m.get k = some v := by
  rw [range, (o.perm m.keys).mem_iff, mem_keys]

theorem countP_values (q : ν → Bool) :
    (m.entries.map (·.2)).countP q = (m.keys.filter fun k => (m.get k).any q).length := by
  have hkeys : m.keys = m.entries.map (·.1) := rfl
  rw [← List.countP_eq_length_filter, hkeys, List.countP_map, List.countP_map]
  refine List.countP_congr fun e he => ?_
  have hget : m.get e.1 = some e.2 := AList.mem_lookup_iff.mpr he
  simp [hget]

theorem countP_values_congr {ν' : Type} {m : GoMap κ ν} {m' : GoMap κ ν'} {q : ν → Bool}
    {q' : ν' → Bool} (h : ∀ k, (m.get k).any q = (m'.get k).any q') :
    (m.entries.map (·.2)).countP q = (m'.entries.map (·.2)).countP q' := by
  rw [countP_values, countP_values]
  apply List.Perm.length_eq
  rw [List.perm_ext_iff_of_nodup (m.keys_nodup.filter _) (m'.keys_nodup.filter _)]
  intro k
  -- a key whose value counts is a key of the map
  have hmem : ∀ {μ : Type} (m : GoMap κ μ) (q : μ → Bool),
      (k ∈ m.keys.filter fun k => (m.get k).any q) ↔ (m.get k).any q = true := by
    intro μ m q
    rw [List.mem_filter, mem_keys]
    refine ⟨fun hk => hk.2, fun hk => ⟨?_, hk⟩⟩
    cases hget : m.get k with
    | none => simp [hget] at hk
    | some v => exact ⟨v, rfl⟩
  rw [hmem, hmem, h]

end GoMap
end L8Tunnel.Base
