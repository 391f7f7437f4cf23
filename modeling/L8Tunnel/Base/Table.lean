import L8Tunnel.Base.GoMap

/-! # Keyed tables and exact secondary indexes -/

namespace L8Tunnel.Base

/-- A map whose rows carry their own key. -/
structure Table {κ ν : Type} [DecidableEq κ] (key : ν → κ) where
  map : GoMap κ ν
  keyed : ∀ k v, map.get k = some v → key v = k

namespace Table
variable {κ ν : Type} [DecidableEq κ] {key : ν → κ}

def empty : Table key := ⟨∅, by intro k v h; simp at h⟩
def get (t : Table key) (k : κ) : Option ν := t.map.get k
def range (t : Table key) (o : RangeOrder) : List κ := t.map.range o
def values (t : Table key) : List ν := t.map.entries.map (·.2)

def put (t : Table key) (v : ν) : Table key :=
  ⟨t.map.set (key v) v, by
    intro k w h
    rw [GoMap.get_set_eq_ite] at h
    split at h
    next hk =>
      cases h
      exact hk.symm
    next => exact t.keyed k w h⟩

def del (t : Table key) (k : κ) : Table key :=
  ⟨t.map.del k, by
    intro j w h
    rw [GoMap.get_del_eq_ite] at h
    split at h
    next => cases h
    next => exact t.keyed j w h⟩

def delWhere (t : Table key) (q : ν → Bool) : Table key :=
  (t.values.filter q).foldl (fun t v => t.del (key v)) t

theorem key_of_get {t : Table key} {k : κ} {v : ν} (h : t.get k = some v) : key v = k :=
  t.keyed k v h

variable {P : κ → ν → Prop} (t : Table key) (v : ν) (k : κ)

@[simp] theorem get_empty : (empty : Table key).get k = none := GoMap.get_empty k

theorem get_put : (t.put v).get k = if k = key v then some v else t.get k :=
  GoMap.get_set_eq_ite t.map (key v) k v

@[simp] theorem get_put_self : (t.put v).get (key v) = some v := by
  simp [get_put]

theorem get_put_ne {k : κ} (h : k ≠ key v) : (t.put v).get k = t.get k := by
  simp [get_put, h]

theorem get_del (j : κ) : (t.del k).get j = if j = k then none else t.get j :=
  GoMap.get_del_eq_ite t.map k j

@[simp] theorem get_del_self : (t.del k).get k = none := by
  simp [get_del]

theorem get_del_ne {k j : κ} (h : j ≠ k) : (t.del k).get j = t.get j := by
  simp [get_del, h]

theorem forall_put {t : Table key} {v : ν} (h : ∀ k w, t.get k = some w → P k w) (hv : P (key v) v)
    (k : κ) (w : ν) (hw : (t.put v).get k = some w) : P k w := by
  rw [get_put] at hw
  split at hw
  next hk =>
    cases hw
    exact hk ▸ hv
  next => exact h k w hw

theorem forall_del {t : Table key} {j : κ} (h : ∀ k w, t.get k = some w → P k w) (k : κ) (w : ν)
    (hw : (t.del j).get k = some w) : P k w := by
  rw [get_del] at hw
  split at hw
  · cases hw
  · exact h k w hw

theorem mem_range (o : RangeOrder) (k : κ) : k ∈ t.range o ↔ ∃ v, t.get k = some v :=
  GoMap.mem_range t.map o k

theorem mem_values : v ∈ t.values ↔ t.get (key v) = some v := by
  have hget : ∀ k, t.get k = some v ↔ (⟨k, v⟩ : Sigma fun _ : κ => ν) ∈ t.map.entries :=
    fun k => AList.mem_lookup_iff
  rw [hget, values, List.mem_map]
  constructor
  · rintro ⟨⟨k, w⟩, hmem, rfl⟩
    have hk : key w = k := t.keyed k w (AList.mem_lookup_iff.mpr hmem)
    exact hk ▸ hmem
  · intro hmem
    exact ⟨_, hmem, rfl⟩

theorem nodup_values : (t.values.map key).Nodup := by
  have hkeys : t.values.map key = t.map.keys := by
    have hentries : t.map.keys = t.map.entries.map (·.1) := rfl
    rw [values, List.map_map, hentries]
    refine List.map_congr_left fun e he => ?_
    exact t.keyed e.1 e.2 (AList.mem_lookup_iff.mpr he)
  rw [hkeys]
  exact t.map.keys_nodup

theorem get_delWhere (q : ν → Bool) (k : κ) :
    (t.delWhere q).get k = (t.get k).filter fun v => !q v := by
  have hfold : ∀ (vs : List ν) (t : Table key), (vs.foldl (fun t v => t.del (key v)) t).get k =
      if k ∈ vs.map key then none else t.get k := by
    intro vs
    induction vs with
    | nil => simp
    | cons v vs ih =>
      intro t
      rw [List.foldl_cons, ih, get_del]
      by_cases hk : k = key v <;> by_cases hm : k ∈ vs.map key <;> simp [hk, hm]
  rw [delWhere, hfold]
  cases hget : t.get k with
  | none => simp
  | some v =>
    -- only the record under the key itself can be what puts the key on the list
    have hmem : k ∈ (t.values.filter q).map key ↔ q v = true := by
      rw [List.mem_map]
      constructor
      · rintro ⟨w, hw, rfl⟩
        obtain ⟨hw, hq⟩ := List.mem_filter.mp hw
        rw [(mem_values t w).mp hw] at hget
        cases hget
        exact hq
      · intro hq
        have hk := key_of_get hget
        subst hk
        exact ⟨v, List.mem_filter.mpr ⟨(mem_values t v).mpr hget, hq⟩, rfl⟩
    simp only [hmem, Option.filter]
    by_cases hq : q v = true <;> simp [hq]

end Table

namespace Index
variable {κ ν ρ : Type} [DecidableEq κ] [DecidableEq ρ]

def drop (ix : GoMap ρ κ) (k : κ) (rs : List ρ) : GoMap ρ κ :=
  rs.foldl (fun ix r => if ix.get r = some k then ix.del r else ix) ix

omit [DecidableEq κ] in
def add (ix : GoMap ρ κ) (k : κ) (rs : List ρ) : GoMap ρ κ :=
  rs.foldl (fun ix r => ix.set r k) ix

theorem get_drop (ix : GoMap ρ κ) (k : κ) (rs : List ρ) (r : ρ) :
    (drop ix k rs).get r = if r ∈ rs ∧ ix.get r = some k then none else ix.get r := by
  induction rs generalizing ix with
  | nil => simp [drop]
  | cons x xs ih =>
    have hx : (if ix.get x = some k then ix.del x else ix).get r =
        if r = x ∧ ix.get r = some k then none else ix.get r := by
      by_cases hr : r = x
      · subst hr
        by_cases ho : ix.get r = some k
        · simp [ho]
        · simp [ho]
      · by_cases ho : ix.get x = some k
        · simp [ho, hr, GoMap.get_del_ne ix hr]
        · simp [ho, hr]
    show (drop (if ix.get x = some k then ix.del x else ix) k xs).get r = _
    rw [ih, hx]
    by_cases hr : r = x
    · by_cases ho : ix.get r = some k <;> simp [hr ▸ ho, hr]
    · simp [hr]

omit [DecidableEq κ] in
theorem get_add (ix : GoMap ρ κ) (k : κ) (rs : List ρ) (r : ρ) :
    (add ix k rs).get r = if r ∈ rs then some k else ix.get r := by
  induction rs generalizing ix with
  | nil => simp [add]
  | cons x xs ih =>
    show (add (ix.set x k) k xs).get r = _
    rw [ih, GoMap.get_set_eq_ite]
    by_cases hx : r = x <;> by_cases hm : r ∈ xs <;> simp [hx, hm]

def Exact {key : ν → κ} (res : ν → List ρ) (t : Table key) (ix : GoMap ρ κ) : Prop :=
  ∀ r k, ix.get r = some k ↔ ∃ v, t.get k = some v ∧ r ∈ res v

variable {key : ν → κ} {res : ν → List ρ} {t : Table key} {ix : GoMap ρ κ}

theorem exact_empty : Exact res (Table.empty : Table key) (∅ : GoMap ρ κ) := by
  intro r k
  simp

theorem Exact.exclusive (hx : Exact res t ix) {j k : κ} {v w : ν} {r : ρ}
    (hv : t.get j = some v) (hw : t.get k = some w) (hrv : r ∈ res v) (hrw : r ∈ res w) :
    j = k := by
  have h1 : ix.get r = some j := (hx r j).mpr ⟨v, hv, hrv⟩
  have h2 : ix.get r = some k := (hx r k).mpr ⟨w, hw, hrw⟩
  rw [h1] at h2
  exact Option.some.inj h2

def held (res : ν → List ρ) (t : Table key) (k : κ) : List ρ :=
  match t.get k with
  | some v => res v
  | none => []

theorem Exact.mem_held (hx : Exact res t ix) (r : ρ) (k : κ) :
    r ∈ held res t k ↔ ix.get r = some k := by
  rw [hx r k, held]
  cases h : t.get k with
  | none => simp
  | some v => simp

theorem Exact.get_drop_held (hx : Exact res t ix) (k : κ) (r : ρ) :
    (drop ix k (held res t k)).get r = if ix.get r = some k then none else ix.get r := by
  simp only [get_drop, hx.mem_held, and_self]

theorem Exact.del (hx : Exact res t ix) (k : κ) :
    Exact res (t.del k) (drop ix k (held res t k)) := by
  intro r j
  rw [hx.get_drop_held, Table.get_del]
  by_cases ho : ix.get r = some k
  · by_cases hj : j = k
    · simp [ho, hj]
    · have hne : ¬ ix.get r = some j := by
        intro h
        rw [ho] at h
        exact hj (Option.some.inj h).symm
      have := (hx r j).not.mp hne
      simpa [ho, hj] using this
  · by_cases hj : j = k
    · subst hj
      simp [ho]
    · simp [ho, hj, hx r j]

theorem Exact.put (hx : Exact res t ix) (v : ν)
    (hfree : ∀ r ∈ res v, ∀ k, ix.get r = some k → k = key v) :
    Exact res (t.put v) (add (drop ix (key v) (held res t (key v))) (key v) (res v)) := by
  intro r j
  rw [get_add, hx.get_drop_held, Table.get_put]
  by_cases hr : r ∈ res v
  · by_cases hj : j = key v
    · simp [hr, hj]
    · have hne : ¬ ∃ w, t.get j = some w ∧ r ∈ res w := by
        intro hw
        exact hj (hfree r hr j ((hx r j).mpr hw))
      simp only [hr, if_true, Option.some.injEq, hj, if_false, hne, iff_false]
      exact fun h => hj h.symm
  · by_cases hj : j = key v
    · by_cases ho : ix.get r = some (key v) <;> simp [hr, hj, ho]
    · by_cases ho : ix.get r = some (key v)
      · have hne : ¬ ix.get r = some j := by
          intro h
          rw [ho] at h
          exact hj (Option.some.inj h).symm
        have := (hx r j).not.mp hne
        simpa [hr, ho, hj] using this
      · simp [hr, ho, hj, hx r j]

def update (res : ν → List ρ) (t : Table key) (ix : GoMap ρ κ) (v : ν) : GoMap ρ κ :=
  add (drop ix (key v) (held res t (key v))) (key v) (res v)

theorem get_update_same {v w : ν} (h : t.get (key v) = some w) (hres : res v = res w) (r : ρ) :
    (update res t ix v).get r = if r ∈ res v then some (key v) else ix.get r := by
  have hheld : held res t (key v) = res v := by
    unfold held
    rw [h]
    exact hres.symm
  unfold update
  rw [get_add, hheld, get_drop]
  by_cases hr : r ∈ res v
  · simp [hr]
  · simp [hr]

theorem Exact.foldl_put {σ : Type} {tbl : σ → Table key} {idx : σ → GoMap ρ κ}
    {store : σ → ν → σ} (htbl : ∀ s v, tbl (store s v) = (tbl s).put v)
    (hidx : ∀ s v, idx (store s v) = update res (tbl s) (idx s) v)
    (vs : List ν) (s : σ) (hx : Exact res (tbl s) (idx s))
    (hfree : ∀ v ∈ vs, ∀ r ∈ res v, ∀ k, (idx s).get r = some k → k = key v)
    (hdisj : ∀ v ∈ vs, ∀ w ∈ vs, ∀ r, r ∈ res v → r ∈ res w → key v = key w) :
    Exact res (tbl (vs.foldl store s)) (idx (vs.foldl store s)) := by
  induction vs generalizing s with
  | nil => exact hx
  | cons v vs ih =>
    have hv : Exact res (tbl (store s v)) (idx (store s v)) := by
      rw [htbl, hidx]
      exact hx.put v (hfree v List.mem_cons_self)
    refine ih (store s v) hv ?_
      (fun a ha b hb => hdisj a (List.mem_cons_of_mem v ha) b (List.mem_cons_of_mem v hb))
    -- after `v` is stored an owner is `v` itself or an owner from before
    intro w hw r hr k hk
    obtain ⟨u, hu, hru⟩ := (hv r k).mp hk
    rw [htbl, Table.get_put] at hu
    by_cases hkv : k = key v
    · rw [if_pos hkv] at hu
      cases hu
      exact hkv.trans (hdisj v List.mem_cons_self w (List.mem_cons_of_mem v hw) r hru hr)
    · rw [if_neg hkv] at hu
      exact hfree w (List.mem_cons_of_mem v hw) r hr k ((hx r k).mpr ⟨u, hu, hru⟩)

end Index
end L8Tunnel.Base
