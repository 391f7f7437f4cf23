import L8Tunnel.Registrar.Undo

/-! # Permanent reservations -/

namespace L8Tunnel.Registrar
namespace NameRegistry
open Base

def lasting (r : NameRegistry) (n : String) : Option (String × ℤ) :=
  (r.names.get n).bind fun ref =>
    if (r.cells ref).permanent then some ((r.cells ref).tokenID, (r.cells ref).port) else none

variable {r r' : NameRegistry} {n : String} {ref : ℕ}

theorem lasting_of_none (h : r.names.get n = none) : r.lasting n = none := by
  rw [lasting, h]
  rfl

theorem lasting_of_get (h : r.names.get n = some ref) :
    r.lasting n =
      if (r.cells ref).permanent then some ((r.cells ref).tokenID, (r.cells ref).port) else none := by
  rw [lasting, h]
  rfl

variable {p port : ℤ} {name tokenID : String} {sess : ℕ}

theorem lasting_eq_some {T : String} :
    r.lasting n = some (T, p) ↔ ∃ ref, r.names.get n = some ref ∧
      (r.cells ref).permanent = true ∧ (r.cells ref).tokenID = T ∧ (r.cells ref).port = p := by
  cases hget : r.names.get n with
  | none => simp [lasting_of_none hget]
  | some ref =>
    rw [lasting_of_get hget]
    by_cases hp : (r.cells ref).permanent = true <;> simp [hp]

theorem lasting_congr (hnames : r'.names.get n = r.names.get n)
    (hcell : ∀ ref, r.names.get n = some ref →
      (r'.cells ref).permanent = (r.cells ref).permanent ∧
      (r'.cells ref).tokenID = (r.cells ref).tokenID ∧ (r'.cells ref).port = (r.cells ref).port) :
    r'.lasting n = r.lasting n := by
  cases hget : r.names.get n with
  | none => rw [lasting_of_none hget, lasting_of_none (hnames.trans hget)]
  | some ref =>
    obtain ⟨hperm, htok, hport⟩ := hcell ref hget
    rw [lasting_of_get hget, lasting_of_get (hnames.trans hget), hperm, htok, hport]

theorem lasting_modify {f : Reservation → Reservation} (hf : ∀ v, (f v).name = v.name)
    (hkeep : ∀ v, (f v).permanent = v.permanent ∧ (f v).tokenID = v.tokenID ∧ (f v).port = v.port)
    (n : String) : (r.modify ref f hf).lasting n = r.lasting n := by
  refine lasting_congr rfl fun u _ => ?_
  rw [modify_cells]
  split
  · exact hkeep _
  · exact ⟨rfl, rfl, rfl⟩

theorem lasting_alloc {v : Reservation} (hfree : r.names.get v.name = none)
    (hperm : v.permanent = false) (n : String) : (r.alloc v).lasting n = r.lasting n := by
  have hnames : (r.alloc v).names.get n = if n = v.name then some r.next else r.names.get n :=
    GoMap.get_set_eq_ite r.names v.name n r.next
  by_cases hn : n = v.name
  · rw [if_pos hn] at hnames
    rw [lasting_of_get hnames, alloc_cells, if_pos rfl, hperm, hn, lasting_of_none hfree]
    rfl
  · rw [if_neg hn] at hnames
    refine lasting_congr hnames fun u hu => ?_
    rw [alloc_cells, if_neg (Nat.ne_of_lt (r.named_lt n u hu))]
    exact ⟨rfl, rfl, rfl⟩

theorem lasting_deleteLocked (ref : ℕ) (n : String) :
    (r.deleteLocked ref).lasting n = if r.names.get n = some ref then none else r.lasting n := by
  have hnames := deleteLocked_names r ref n
  split
  next h =>
    rw [if_pos h] at hnames
    exact lasting_of_none hnames
  next h =>
    rw [if_neg h] at hnames
    refine lasting_congr hnames fun u hu => ?_
    rw [deleteLocked_cells]
    split <;> exact ⟨rfl, rfl, rfl⟩

theorem lasting_deleteLocked_passing (h : r.Named ref → (r.cells ref).permanent = false)
    (n : String) : (r.deleteLocked ref).lasting n = r.lasting n := by
  rw [lasting_deleteLocked]
  split
  next hn => rw [lasting_of_get hn, h (named_of_get hn), if_neg Bool.false_ne_true]
  next => rfl

theorem lasting_claim {agentID : String} {typ : TunnelType} {maxTunnels : ℤ} {c : Claimed}
    (hc : r.claim name typ tokenID agentID sess maxTunnels = .ok c) (n : String) :
    c.registry.lasting n = r.lasting n := by
  obtain ⟨hget, rfl⟩ | ⟨ref, stale, -, rfl⟩ := claim_ok hc
  · exact lasting_alloc hget rfl n
  · refine lasting_modify _ (fun v => ?_) n
    exact ⟨rfl, rfl, rfl⟩

theorem lasting_setDomains {ds : List String} (hr : r.setDomains ref ds = .ok r') (n : String) :
    r'.lasting n = r.lasting n := by
  obtain ⟨rfl, -⟩ := setDomains_ok hr
  refine lasting_congr rfl fun u _ => ?_
  rw [replaceDomains_cells]
  split <;> exact ⟨rfl, rfl, rfl⟩

theorem lasting_park (sess : ℕ) (now : ℤ) (n : String) :
    (r.park ref sess now).lasting n = r.lasting n := by
  have h1 : (r.modify ref (fun v => { v with session := none, tunnel := none })
      fun _ => rfl).lasting n = r.lasting n := by
    refine lasting_modify _ (fun v => ?_) n
    exact ⟨rfl, rfl, rfl⟩
  refine park_induction (P := fun q => q.lasting n = r.lasting n) (fun _ => rfl) (fun _ _ => h1)
    (fun _ _ hdel => ?_) fun _ _ _ _ => ?_
  · rw [lasting_deleteLocked_passing fun _ => by simpa using hdel.2, h1]
  · refine (lasting_modify _ (fun v => ?_) n).trans h1
    exact ⟨rfl, rfl, rfl⟩

theorem lasting_rollback {existed : Bool} {now : ℤ}
    (h : existed = false → r.Named ref → (r.cells ref).session = some sess → (r.cells
      ref).permanent = false)
    (n : String) : (r.rollback ref sess existed now).lasting n = r.lasting n := by
  unfold rollback
  split
  · exact lasting_park sess now n
  next he =>
    split
    next hs => exact lasting_deleteLocked_passing (fun hn => h (by simpa using he) hn hs) n
    next => rfl

theorem lasting_expire (ref : ℕ) (n : String) : (r.expire ref).lasting n = r.lasting n := by
  unfold expire
  split
  next h => exact lasting_deleteLocked_passing (fun _ => h.2.2) n
  next => rfl

theorem lasting_setPort (ref : ℕ) (p : ℤ) (n : String) :
    (r.setPort ref p).lasting n =
      (r.lasting n).map fun e => if r.names.get n = some ref then (e.1, p) else e := by
  have hnames : (r.setPort ref p).names.get n = r.names.get n := by rw [setPort_names]
  cases hget : r.names.get n with
  | none => rw [lasting_of_none hget, lasting_of_none (hnames.trans hget)]; rfl
  | some u =>
    rw [lasting_of_get hget, lasting_of_get (hnames.trans hget), setPort_cells]
    by_cases hu : u = ref
    · subst hu
      by_cases hp : (r.cells u).permanent = true <;> simp [hp]
    · by_cases hp : (r.cells u).permanent = true <;> simp [hu, hp]

theorem reserve_token_of_get (h : r.reserve name tokenID port = .ok r')
    (hget : r.names.get name = some ref) : (r.cells ref).tokenID = tokenID := by
  unfold reserve at h
  dsimp only at h
  rw [hget] at h
  split at h
  · cases h
  next hany => simpa using hany

/-- A reservation that succeeds is permanent and its token's, and touches no other name. -/
theorem reserve_spec (h : r.reserve name tokenID port = .ok r') :
    ∃ ref, r'.names.get name = some ref ∧ (r'.cells ref).permanent = true ∧
      (r'.cells ref).tokenID = tokenID ∧ (port ≠ 0 → (r'.cells ref).port = port) ∧
      (r.names.get name = none → (r'.cells ref).port = port) ∧
      ∀ n, n ≠ name → r'.names.get n = r.names.get n ∧
        ∀ u, r.names.get n = some u → r'.cells u = r.cells u := by
  have htoken : ∀ u, r.names.get name = some u → (r.cells u).tokenID = tokenID :=
    fun u hu => reserve_token_of_get h hu
  obtain ⟨r1, ref, hfound, -, rfl⟩ := reserve_ok h
  have h1 : r1.names.get name = some ref ∧ (r1.cells ref).tokenID = tokenID ∧
      (r.names.get name = none → (r1.cells ref).port = 0) ∧
      ∀ n, n ≠ name → r1.names.get n = r.names.get n ∧
        ∀ u, r.names.get n = some u → u ≠ ref ∧ r1.cells u = r.cells u := by
    rcases hfound with ⟨hget, rfl⟩ | ⟨hget, rfl, rfl⟩
    · refine ⟨hget, htoken ref hget, fun hnone => ?_, fun n hn => ⟨rfl, fun u hu => ⟨?_, rfl⟩⟩⟩
      · rw [hget] at hnone
        cases hnone
      · rintro rfl
        exact hn ((r1.keyed n u hu).symm.trans (r1.keyed name u hget))
    · refine ⟨GoMap.get_set _ _ _, ?_, fun _ => ?_, fun n hn => ⟨GoMap.get_set_ne _ _ hn, ?_⟩⟩
      · rw [alloc_cells, if_pos rfl]
      · rw [alloc_cells, if_pos rfl]
      · intro u hu
        have hne : u ≠ r.next := Nat.ne_of_lt (r.named_lt n u hu)
        rw [alloc_cells, if_neg hne]
        exact ⟨hne, rfl⟩
  obtain ⟨hname, htok, hfresh, hother⟩ := h1
  by_cases hcond : port ≠ 0 ∧ (r1.cells ref).port ≠ port
  · rw [if_pos hcond]
    refine ⟨ref, ?_, ?_, ?_, fun _ => ?_, fun _ => ?_, fun n hn => ⟨?_, fun u hu => ?_⟩⟩
    · split <;> exact hname
    · rw [modify_self]
    · rw [modify_self, addPort_cells, modify_self]
      split <;> exact htok
    · rw [modify_self, addPort_cells, modify_self]
    · rw [modify_self, addPort_cells, modify_self]
    · split <;> exact (hother n hn).1
    · obtain ⟨hne, hcell⟩ := (hother n hn).2 u hu
      rw [modify_cells, if_neg hne, addPort_cells, modify_cells, if_neg hne]
      split <;> exact hcell
  · rw [if_neg hcond]
    refine ⟨ref, hname, ?_, ?_, fun h0 => ?_, fun hnone => ?_, fun n hn => ⟨(hother n hn).1, fun u hu => ?_⟩⟩
    · rw [modify_self]
    · rw [modify_self]
      exact htok
    · rw [modify_self]
      exact not_not.mp fun hne => hcond ⟨h0, hne⟩
    · rw [modify_self]
      refine (hfresh hnone).trans (not_not.mp fun hne => hcond ⟨Ne.symm hne, ?_⟩)
      rw [hfresh hnone]
      exact hne
    · obtain ⟨hne, hcell⟩ := (hother n hn).2 u hu
      rw [modify_cells, if_neg hne]
      exact hcell

theorem lasting_reserve (h : r.reserve name tokenID port = .ok r') :
    (∃ p, r'.lasting name = some (tokenID, p) ∧ (r.names.get name = none → p = port)) ∧
    ∀ n, n ≠ name → r'.lasting n = r.lasting n := by
  obtain ⟨ref, hname, hperm, htok, -, hfresh, hother⟩ := reserve_spec h
  refine ⟨⟨_, lasting_eq_some.mpr ⟨ref, hname, hperm, htok, rfl⟩, hfresh⟩, fun n hn => ?_⟩
  refine lasting_congr (hother n hn).1 fun u hu => ?_
  rw [(hother n hn).2 u hu]
  exact ⟨rfl, rfl, rfl⟩

theorem reserve_ports (h : r.reserve name tokenID port = .ok r') (hp : p ∈ r'.ports) :
    p ∈ r.ports ∨ p = port := by
  obtain ⟨r1, ref, hfound, -, rfl⟩ := reserve_ok h
  have h1 : r1.ports = r.ports := by
    rcases hfound with ⟨-, rfl⟩ | ⟨-, -, rfl⟩ <;> rfl
  rw [modify_ports] at hp
  rw [← h1]
  split at hp
  · rcases Finset.mem_insert.mp hp with hp | hp
    · exact .inr hp
    · rw [modify_ports] at hp
      split at hp
      · exact .inl (Finset.mem_of_mem_erase hp)
      · exact .inl hp
  · exact .inl hp

theorem reserve_of_free (tokenID : String) (hname : r.names.get name = none)
    (hport : port ≠ 0 → port ∉ r.ports) : ∃ r', r.reserve name tokenID port = .ok r' := by
  unfold reserve
  dsimp only
  rw [hname, if_neg (by simp), if_neg]
  · exact ⟨_, rfl⟩
  · rintro ⟨h0, -, hmem⟩
    exact hport h0 hmem

theorem lasting_unreserve (name n : String) :
    (r.unreserve name).lasting n = if n = name then none else r.lasting n := by
  unfold unreserve
  cases hget : r.names.get name with
  | none =>
    dsimp only
    split
    next hn => rw [hn, lasting_of_none hget]
    next => rfl
  | some ref =>
    dsimp only
    split
    next hperm =>
      split
      next hn => rw [hn, lasting_of_get hget, hperm, if_neg Bool.false_ne_true]
      next => rfl
    next =>
    -- the reservation is not permanent any more, whether it is kept or not
    have h1 : (r.modify ref (fun v => { v with permanent := false }) fun _ => rfl).lasting n =
        if n = name then none else r.lasting n := by
      split
      next hn =>
        rw [hn]
        refine (lasting_of_get (r := r.modify ref _ _) hget).trans ?_
        rw [modify_self, if_neg Bool.false_ne_true]
      next hn =>
        refine lasting_congr rfl fun u hu => ?_
        rw [modify_cells, if_neg]
        · exact ⟨rfl, rfl, rfl⟩
        · rintro rfl
          exact hn ((r.keyed n u hu).symm.trans (r.keyed name u hget))
    split
    · rw [lasting_deleteLocked_passing fun _ => ?_, h1]
      rw [modify_self]
    · exact h1

theorem lasting_releaseOne (T : String) (acc : NameRegistry × List ℕ) (name n : String) :
    (releaseOne T acc name).1.lasting n =
      if n = name then (acc.1.lasting n).filter fun e => e.1 ≠ T else acc.1.lasting n := by
  unfold releaseOne
  cases hget : acc.1.names.get name with
  | none =>
    dsimp only
    split
    next hn =>
      rw [hn, lasting_of_none hget]
      rfl
    next => rfl
  | some ref =>
    dsimp only
    split
    next htok =>
      rw [lasting_deleteLocked]
      by_cases hn : n = name
      · subst hn
        rw [if_pos hget, if_pos rfl, lasting_of_get hget, htok]
        by_cases hp : (acc.1.cells ref).permanent = true <;> simp [hp, Option.filter]
      · rw [if_neg hn, if_neg]
        intro hu
        exact hn ((acc.1.keyed n ref hu).symm.trans (acc.1.keyed name ref hget))
    next htok =>
      split
      next hn =>
        rw [hn, lasting_of_get hget]
        by_cases hp : (acc.1.cells ref).permanent = true <;> simp [hp, htok, Option.filter]
      next => rfl

theorem lasting_releaseToken (T : String) (order : RangeOrder) (n : String) :
    (r.releaseToken T order).1.lasting n = (r.lasting n).filter fun e => e.1 ≠ T := by
  have hfold : ∀ (ns : List String) (acc : NameRegistry × List ℕ),
      (ns.foldl (releaseOne T) acc).1.lasting n =
        if n ∈ ns then (acc.1.lasting n).filter fun e => e.1 ≠ T else acc.1.lasting n := by
    intro ns
    induction ns with
    | nil => simp
    | cons m ns ih =>
      intro acc
      rw [List.foldl_cons, ih, lasting_releaseOne]
      by_cases hm : n = m <;> by_cases hn : n ∈ ns <;> simp [hm, hn]
  rw [releaseToken, hfold]
  split
  · rfl
  next hn =>
    rw [GoMap.mem_range] at hn
    have hnone : r.names.get n = none := Option.eq_none_iff_forall_ne_some.mpr fun v hv => hn ⟨v, hv⟩
    rw [lasting_of_none hnone]
    rfl

end NameRegistry
end L8Tunnel.Registrar
