import Mathlib.Data.Finset.Card
import L8Tunnel.Auth.Access
import L8Tunnel.Base.Table
import L8Tunnel.Registry.Rules

/-! # The relay's name registry (relay/registry.go) -/

namespace L8Tunnel.Registrar
open Base Registry Auth

structure Endpoint where
  tunnelId : String := ""
  name : String := ""
  type : TunnelType := .unspecified
  publicAddress : String := ""
  publicPort : UInt32 := 0
  hostname : String := ""
  domains : List String := []
  deriving DecidableEq

structure Tunnel where
  res : ℕ
  existed : Bool
  endpoint : Endpoint := {}
  listener : Option ℕ := none
  access : Access := {}

/-- A name with its holder: connected (`session`), waiting for its agent (`timer`), or
permanent. -/
structure Reservation where
  name : String := ""
  typ : TunnelType := .unspecified
  tokenID : String := ""
  agentID : String := ""
  port : ℤ := 0
  domains : List String := []
  permanent : Bool := false
  session : Option ℕ := none
  tunnel : Option Tunnel := none
  timer : Bool := false
  expires : ℤ := 0

/-- The registry with its reservations in cells. A timer or a session keeps the cell of a
reservation after the name has gone to another one. -/
structure NameRegistry where
  grace : ℤ
  clustered : Bool
  closed : Bool
  cells : ℕ → Reservation
  next : ℕ
  names : GoMap String ℕ
  domains : GoMap String ℕ
  ports : Finset ℤ
  keyed : ∀ n ref, names.get n = some ref → (cells ref).name = n
  named_lt : ∀ n ref, names.get n = some ref → ref < next
  domain_lt : ∀ d ref, domains.get d = some ref → ref < next

namespace NameRegistry

def new (grace : ℤ) (clustered : Bool) : NameRegistry :=
  { grace := grace, clustered := clustered, closed := false, cells := fun _ => {}, next := 0
    names := ∅, domains := ∅, ports := ∅
    keyed := by intro n ref h; simp at h
    named_lt := by intro n ref h; simp at h
    domain_lt := by intro d ref h; simp at h }

def modify (r : NameRegistry) (ref : ℕ) (f : Reservation → Reservation)
    (hf : ∀ v, (f v).name = v.name) : NameRegistry :=
  { r with
    cells := Function.update r.cells ref (f (r.cells ref))
    next := max r.next (ref + 1)
    keyed := by
      intro n u h
      by_cases hu : u = ref
      · subst hu
        simpa [hf] using r.keyed n u h
      · simpa [hu] using r.keyed n u h
    named_lt := fun n u h => lt_of_lt_of_le (r.named_lt n u h) (le_max_left _ _)
    domain_lt := fun d u h => lt_of_lt_of_le (r.domain_lt d u h) (le_max_left _ _) }

def alloc (r : NameRegistry) (v : Reservation) : NameRegistry :=
  { r with
    cells := Function.update r.cells r.next v
    next := r.next + 1
    names := r.names.set v.name r.next
    keyed := by
      intro n u h
      rw [GoMap.get_set_eq_ite] at h
      split at h
      next hn =>
        cases h
        simp [hn]
      next =>
        have hlt := r.named_lt n u h
        simpa [Nat.ne_of_lt hlt] using r.keyed n u h
    named_lt := by
      intro n u h
      rw [GoMap.get_set_eq_ite] at h
      split at h
      · cases h
        exact Nat.lt_succ_self _
      · exact Nat.lt_succ_of_lt (r.named_lt n u h)
    domain_lt := fun d u h => Nat.lt_succ_of_lt (r.domain_lt d u h) }

def unname (r : NameRegistry) (name : String) : NameRegistry :=
  { r with
    names := r.names.del name
    keyed := by
      intro n u h
      rw [GoMap.get_del_eq_ite] at h
      split at h
      · cases h
      · exact r.keyed n u h
    named_lt := by
      intro n u h
      rw [GoMap.get_del_eq_ite] at h
      split at h
      · cases h
      · exact r.named_lt n u h }

def addPort (r : NameRegistry) (port : ℤ) : NameRegistry := { r with ports := insert port r.ports }
def freePort (r : NameRegistry) (port : ℤ) : NameRegistry := { r with ports := r.ports.erase port }

def dropDomains (r : NameRegistry) (ref : ℕ) (ds : List String) : NameRegistry :=
  { r with
    domains := Index.drop r.domains ref ds
    domain_lt := by
      intro d u h
      rw [Index.get_drop] at h
      split at h
      · cases h
      · exact r.domain_lt d u h }

def replaceDomains (r : NameRegistry) (ref : ℕ) (ds : List String) : NameRegistry :=
  { (r.dropDomains ref (r.cells ref).domains).modify ref (fun v => { v with domains := ds })
      (fun _ => rfl) with
    domains := Index.add (Index.drop r.domains ref (r.cells ref).domains) ref ds
    domain_lt := by
      intro d u h
      rw [Index.get_add] at h
      split at h
      · cases h
        exact lt_of_lt_of_le (Nat.lt_succ_self _) (le_max_right _ _)
      · exact lt_of_lt_of_le ((r.dropDomains ref _).domain_lt d u h) (le_max_left _ _) }

def activeLocked (r : NameRegistry) (tokenID : String) (except : Option ℕ) : ℤ :=
  (r.names.entries.map (·.2)).countP fun ref =>
    (r.cells ref).tokenID = tokenID ∧ (r.cells ref).session.isSome ∧ some ref ≠ except

def holder (r : NameRegistry) (sess ref : ℕ) : Holder :=
  { tokenID := (r.cells ref).tokenID, agentID := (r.cells ref).agentID
    connected := (r.cells ref).session.isSome, sameSession := (r.cells ref).session = some sess }

def decision (r : NameRegistry) (name tokenID agentID : String) (sess : ℕ) (maxTunnels : ℤ) :
    Except RuleKind Decision :=
  registryDecide ((r.names.get name).map (r.holder sess)) tokenID agentID
    (r.activeLocked tokenID (r.names.get name)) maxTunnels

/-- What `claim` returns: the cell, whether it was there, and a tunnel to close. -/
structure Claimed where
  registry : NameRegistry
  res : ℕ
  existed : Bool
  stale : Option Tunnel

def claim (r : NameRegistry) (name : String) (typ : TunnelType) (tokenID agentID : String)
    (sess : ℕ) (maxTunnels : ℤ) : Except RuleKind Claimed :=
  match r.decision name tokenID agentID sess maxTunnels with
  | .error kind => .error kind
  | .ok d =>
    -- `d` is `new` exactly if nobody holds the name
    match r.names.get name with
    | none =>
      let v : Reservation :=
        { name := name, typ := typ, tokenID := tokenID, agentID := agentID, session := some sess }
      .ok ⟨r.alloc v, r.next, false, none⟩
    | some ref =>
      let stale := if d = .takeover then (r.cells ref).tunnel else none
      let r1 := r.modify ref (fun v =>
        { v with
          timer := false, typ := typ, agentID := agentID, session := some sess, tunnel := none })
        (fun _ => rfl)
      .ok ⟨r1, ref, true, stale⟩

def activate (r : NameRegistry) (ref : ℕ) (t : Tunnel) : NameRegistry :=
  r.modify ref (fun v => { v with tunnel := some t }) (fun _ => rfl)

def deleteLocked (r : NameRegistry) (ref : ℕ) : NameRegistry :=
  let v := r.cells ref
  let r1 := r.modify ref (fun v => { v with timer := false }) (fun _ => rfl)
  let r2 := if r1.names.get v.name = some ref then r1.unname v.name else r1
  let r3 := if v.port ≠ 0 then r2.freePort v.port else r2
  r3.dropDomains ref v.domains

def park (r : NameRegistry) (ref sess : ℕ) (now : ℤ) : NameRegistry :=
  if (r.cells ref).session ≠ some sess then r
  else
    let r1 := r.modify ref (fun v => { v with session := none, tunnel := none }) (fun _ => rfl)
    if r1.names.get (r1.cells ref).name ≠ some ref then r1
    else if (r1.closed ∨ r1.clustered) ∧ (r1.cells ref).permanent = false then r1.deleteLocked ref
    else if (r1.cells ref).permanent = false then
      r1.modify ref (fun v => { v with expires := now + r1.grace, timer := true }) (fun _ => rfl)
    else r1

def rollback (r : NameRegistry) (ref sess : ℕ) (existed : Bool) (now : ℤ) : NameRegistry :=
  if existed then r.park ref sess now
  else if (r.cells ref).session = some sess then r.deleteLocked ref
  else r

def expire (r : NameRegistry) (ref : ℕ) : NameRegistry :=
  if r.names.get (r.cells ref).name = some ref ∧ (r.cells ref).session = none ∧
      (r.cells ref).permanent = false then
    r.deleteLocked ref
  else r

def domainTaken (r : NameRegistry) (ref : ℕ) (d : String) : Bool :=
  (r.domains.get d).any fun holder => holder ≠ ref

def setDomains (r : NameRegistry) (ref : ℕ) (ds : List String) : Except String NameRegistry :=
  match ds.find? (r.domainTaken ref) with
  | some d => .error d
  | none => .ok (r.replaceDomains ref ds)

def reserve (r : NameRegistry) (name tokenID : String) (port : ℤ) : Except RuleKind NameRegistry :=
  let found := r.names.get name
  if found.any fun ref => (r.cells ref).tokenID ≠ tokenID then .error .nameTaken
  else if port ≠ 0 ∧ (found.all fun ref => (r.cells ref).port ≠ port) ∧ port ∈ r.ports then
    .error .portTaken
  else
    let (r1, ref) := match found with
      | some ref => (r, ref)
      | none => (r.alloc { name := name, tokenID := tokenID }, r.next)
    let held := (r1.cells ref).port
    let r2 :=
      if port ≠ 0 ∧ held ≠ port then
        ((if held ≠ 0 then r1.freePort held else r1).modify ref (fun v => { v with port := port })
          (fun _ => rfl)).addPort port
      else r1
    .ok (r2.modify ref (fun v => { v with permanent := true, timer := false }) (fun _ => rfl))

def unreserve (r : NameRegistry) (name : String) : NameRegistry :=
  match r.names.get name with
  | none => r
  | some ref =>
    if (r.cells ref).permanent = false then r
    else
      let r1 := r.modify ref (fun v => { v with permanent := false }) (fun _ => rfl)
      if (r1.cells ref).session = none then r1.deleteLocked ref else r1

def releaseOne (tokenID : String) (acc : NameRegistry × List ℕ) (name : String) :
    NameRegistry × List ℕ :=
  match acc.1.names.get name with
  | none => acc
  | some ref =>
    if (acc.1.cells ref).tokenID = tokenID then
      (acc.1.deleteLocked ref, acc.2 ++ (acc.1.cells ref).session.toList)
    else acc

def releaseToken (r : NameRegistry) (tokenID : String) (order : RangeOrder) :
    NameRegistry × List ℕ :=
  (r.names.range order).foldl (releaseOne tokenID) (r, [])

def reservePort (r : NameRegistry) (port : ℤ) : Option NameRegistry :=
  if port ∈ r.ports then none else some (r.addPort port)

def releasePort (r : NameRegistry) (port : ℤ) : NameRegistry := r.freePort port

def setPort (r : NameRegistry) (ref : ℕ) (port : ℤ) : NameRegistry :=
  let held := (r.cells ref).port
  let r1 := if held ≠ 0 ∧ held ≠ port then r.freePort held else r
  r1.modify ref (fun v => { v with port := port }) (fun _ => rfl)

def portOf (r : NameRegistry) (ref : ℕ) : ℤ := (r.cells ref).port

section
variable (r : NameRegistry) (ref : ℕ) {f : Reservation → Reservation}
  (hf : ∀ v, (f v).name = v.name)

@[simp] theorem modify_names : (r.modify ref f hf).names = r.names := rfl
@[simp] theorem modify_domains : (r.modify ref f hf).domains = r.domains := rfl
@[simp] theorem modify_ports : (r.modify ref f hf).ports = r.ports := rfl
@[simp] theorem modify_self : (r.modify ref f hf).cells ref = f (r.cells ref) := by simp [modify]

theorem modify_cells (u : ℕ) :
    (r.modify ref f hf).cells u = if u = ref then f (r.cells u) else r.cells u := by
  by_cases h : u = ref
  · subst h
    simp
  · simp [modify, h]

theorem le_modify_next : r.next ≤ (r.modify ref f hf).next := le_max_left _ _

end

section
variable (r : NameRegistry) (ref : ℕ) (port : ℤ)

@[simp] theorem addPort_cells : (r.addPort port).cells = r.cells := rfl

theorem setPort_names : (r.setPort ref port).names = r.names := by
  dsimp only [setPort]
  split <;> rfl

theorem setPort_domains : (r.setPort ref port).domains = r.domains := by
  dsimp only [setPort]
  split <;> rfl

theorem setPort_mode : (r.setPort ref port).closed = r.closed ∧
    (r.setPort ref port).clustered = r.clustered := by
  dsimp only [setPort]
  split <;> exact ⟨rfl, rfl⟩

theorem setPort_cells (u : ℕ) :
    (r.setPort ref port).cells u =
      if u = ref then { r.cells u with port := port } else r.cells u := by
  dsimp only [setPort]
  rw [modify_cells]
  split <;> split <;> rfl

end

def Named (r : NameRegistry) (ref : ℕ) : Prop := r.names.get (r.cells ref).name = some ref

instance (r : NameRegistry) (ref : ℕ) : Decidable (r.Named ref) :=
  inferInstanceAs (Decidable (_ = _))

variable {r r' : NameRegistry} {ref sess : ℕ} {P : NameRegistry → Prop} {name tokenID : String}
  {port : ℤ}

theorem named_of_get {n : String} (h : r.names.get n = some ref) : r.Named ref := by
  unfold Named
  rw [r.keyed n ref h]
  exact h

theorem named_iff : r.Named ref ↔ ∃ n, r.names.get n = some ref :=
  ⟨fun h => ⟨_, h⟩, fun ⟨_, h⟩ => named_of_get h⟩

theorem Named.lt (h : r.Named ref) : ref < r.next :=
  r.named_lt _ ref h

theorem named_congr (h : ∀ n, r'.names.get n = r.names.get n) (ref : ℕ) :
    r'.Named ref ↔ r.Named ref := by
  rw [named_iff, named_iff]
  exact exists_congr fun n => by rw [h]

theorem named_modify (r : NameRegistry) (ref : ℕ) {f : Reservation → Reservation}
    (hf : ∀ v, (f v).name = v.name) (u : ℕ) : (r.modify ref f hf).Named u ↔ r.Named u :=
  named_congr (fun n => congrArg (GoMap.get · n) (modify_names r ref hf)) u

theorem named_alloc {v : Reservation} (h : r.names.get v.name = none) (u : ℕ) :
    (r.alloc v).Named u ↔ r.Named u ∨ u = r.next := by
  rw [named_iff, named_iff]
  constructor
  · rintro ⟨n, hn⟩
    have hset : (r.names.set v.name r.next).get n = some u := hn
    rw [GoMap.get_set_eq_ite] at hset
    split at hset
    · cases hset
      exact .inr rfl
    · exact .inl ⟨n, hset⟩
  · rintro (⟨n, hn⟩ | rfl)
    · refine ⟨n, ?_⟩
      show (r.names.set v.name r.next).get n = some u
      rw [GoMap.get_set_eq_ite, if_neg]
      · exact hn
      · rintro rfl
        simp [h] at hn
    · exact ⟨v.name, GoMap.get_set _ _ _⟩

theorem alloc_cells (r : NameRegistry) (v : Reservation) (u : ℕ) :
    (r.alloc v).cells u = if u = r.next then v else r.cells u := by
  by_cases h : u = r.next
  · subst h
    simp [alloc]
  · simp [alloc, h]

theorem replaceDomains_cells (r : NameRegistry) (ref : ℕ) (ds : List String) (u : ℕ) :
    (r.replaceDomains ref ds).cells u =
      if u = ref then { r.cells u with domains := ds } else r.cells u :=
  modify_cells (r.dropDomains ref (r.cells ref).domains) ref
    (f := fun v => { v with domains := ds }) (fun _ => rfl) u

theorem replaceDomains_get (r : NameRegistry) (ref : ℕ) (ds : List String) (d : String) :
    (r.replaceDomains ref ds).domains.get d =
      if d ∈ ds then some ref
      else if d ∈ (r.cells ref).domains ∧ r.domains.get d = some ref then none
      else r.domains.get d := by
  show (Index.add (Index.drop r.domains ref (r.cells ref).domains) ref ds).get d = _
  rw [Index.get_add, Index.get_drop]

section
variable (r : NameRegistry) (ref : ℕ)

theorem deleteLocked_cells (u : ℕ) :
    (r.deleteLocked ref).cells u =
      if u = ref then { r.cells u with timer := false } else r.cells u := by
  have hcells : (r.deleteLocked ref).cells =
      (r.modify ref (fun v => { v with timer := false }) fun _ => rfl).cells := by
    unfold deleteLocked
    dsimp only
    split <;> split <;> rfl
  rw [hcells, modify_cells]

theorem deleteLocked_parts :
    (r.deleteLocked ref).names = (if r.names.get (r.cells ref).name = some ref then
      r.names.del (r.cells ref).name else r.names) ∧
    (r.deleteLocked ref).ports =
      (if (r.cells ref).port ≠ 0 then r.ports.erase (r.cells ref).port else r.ports) ∧
    (r.deleteLocked ref).domains = Index.drop r.domains ref (r.cells ref).domains := by
  by_cases hself : r.names.get (r.cells ref).name = some ref
  · by_cases hport : (r.cells ref).port = 0 <;>
      simp [deleteLocked, hself, hport, unname, freePort, dropDomains]
  · by_cases hport : (r.cells ref).port = 0 <;>
      simp [deleteLocked, hself, hport, freePort, dropDomains]

theorem deleteLocked_names (n : String) :
    (r.deleteLocked ref).names.get n =
      if r.names.get n = some ref then none else r.names.get n := by
  rw [(deleteLocked_parts r ref).1]
  by_cases hn : r.names.get n = some ref
  · rw [if_pos hn, r.keyed n ref hn, if_pos hn, GoMap.get_del]
  · rw [if_neg hn]
    split
    next hself =>
      have hne : n ≠ (r.cells ref).name := by
        rintro rfl
        exact hn hself
      exact GoMap.get_del_ne _ hne
    next => rfl

theorem deleteLocked_mode : (r.deleteLocked ref).closed = r.closed ∧
    (r.deleteLocked ref).clustered = r.clustered := by
  unfold deleteLocked
  dsimp only
  split <;> split <;> exact ⟨rfl, rfl⟩

theorem deleteLocked_ports :
    (r.deleteLocked ref).ports =
      if (r.cells ref).port ≠ 0 then r.ports.erase (r.cells ref).port else r.ports :=
  (deleteLocked_parts r ref).2.1

theorem deleteLocked_domains (d : String) :
    (r.deleteLocked ref).domains.get d =
      if d ∈ (r.cells ref).domains ∧ r.domains.get d = some ref then none
      else r.domains.get d := by
  rw [(deleteLocked_parts r ref).2.2, Index.get_drop]

theorem le_deleteLocked_next : r.next ≤ (r.deleteLocked ref).next := by
  have hnext : (r.deleteLocked ref).next =
      (r.modify ref (fun v => { v with timer := false }) fun _ => rfl).next := by
    unfold deleteLocked
    dsimp only
    split <;> split <;> rfl
  rw [hnext]
  exact le_max_left _ _

theorem named_deleteLocked (u : ℕ) : (r.deleteLocked ref).Named u ↔ r.Named u ∧ u ≠ ref := by
  rw [named_iff, named_iff]
  simp only [deleteLocked_names]
  constructor
  · rintro ⟨n, hn⟩
    split at hn
    · cases hn
    next hne => exact ⟨⟨n, hn⟩, fun hu => hne (hu ▸ hn)⟩
  · rintro ⟨⟨n, hn⟩, hu⟩
    refine ⟨n, ?_⟩
    rw [if_neg fun h => hu (Option.some.inj (hn.symm.trans h))]
    exact hn

end

theorem park_induction {now : ℤ} (other : (r.cells ref).session ≠ some sess → P r)
    (left : (r.cells ref).session = some sess →
      (r.Named ref → (r.cells ref).permanent ≠ false) →
      P (r.modify ref (fun v => { v with session := none, tunnel := none }) fun _ => rfl))
    (forgotten : (r.cells ref).session = some sess → r.Named ref →
      (r.closed ∨ r.clustered) ∧ (r.cells ref).permanent = false →
      P ((r.modify ref (fun v => { v with session := none, tunnel := none })
        fun _ => rfl).deleteLocked ref))
    (waits : (r.cells ref).session = some sess → r.Named ref → ¬ (r.closed ∨ r.clustered) →
      (r.cells ref).permanent = false →
      P ((r.modify ref (fun v => { v with session := none, tunnel := none }) fun _ => rfl).modify
        ref (fun v => { v with expires := now + r.grace, timer := true }) fun _ => rfl)) :
    P (r.park ref sess now) := by
  have hnamed := named_modify r ref (f := fun v => { v with session := none, tunnel := none })
    (fun _ => rfl) ref
  have hperm : ((r.modify ref (fun v => { v with session := none, tunnel := none })
      fun _ => rfl).cells ref).permanent = (r.cells ref).permanent := by rw [modify_self]
  unfold park
  split
  next hsess => exact other hsess
  next hsess =>
  replace hsess := not_not.mp hsess
  dsimp only
  rw [hperm]
  split
  next hnot => exact left hsess fun h => absurd (hnamed.mpr h) hnot
  next hin =>
  replace hin := hnamed.mp (not_not.mp hin)
  split
  next hdel => exact forgotten hsess hin hdel
  next hkeep =>
  split
  next hp => exact waits hsess hin (fun hc => hkeep ⟨hc, hp⟩) hp
  next hp => exact left hsess fun _ => hp

theorem park_waits (now : ℤ) (hsess : (r.cells ref).session = some sess) (hnamed : r.Named ref)
    (hperm : (r.cells ref).permanent = false) (hopen : ¬ (r.closed ∨ r.clustered)) :
    r.park ref sess now =
      (r.modify ref (fun v => { v with session := none, tunnel := none }) fun _ => rfl).modify ref
        (fun v => { v with expires := now + r.grace, timer := true }) fun _ => rfl := by
  refine park_induction (P := fun q => q = _) (fun hne => absurd hsess hne)
    (fun _ hnot => absurd hperm (hnot hnamed)) (fun _ _ hdel => absurd hdel.1 hopen) ?_
  exact fun _ _ _ _ => rfl

theorem claim_ok {agentID : String} {typ : TunnelType} {maxTunnels : ℤ} {c : Claimed}
    (h : r.claim name typ tokenID agentID sess maxTunnels = .ok c) :
    (r.names.get name = none ∧
      c = ⟨r.alloc { name := name, typ := typ, tokenID := tokenID, agentID := agentID
                     session := some sess }, r.next, false, none⟩) ∨
    ∃ ref stale, r.names.get name = some ref ∧
      c = ⟨r.modify ref (fun v => { v with
        timer := false, typ := typ, agentID := agentID, session := some sess, tunnel := none })
        (fun _ => rfl), ref, true, stale⟩ := by
  unfold claim at h
  split at h
  · cases h
  split at h
  next hget =>
    cases h
    exact .inl ⟨hget, rfl⟩
  next ref hget =>
    cases h
    exact .inr ⟨ref, _, hget, rfl⟩

theorem reserve_ok (h : r.reserve name tokenID port = .ok r') :
    ∃ r1 ref,
      ((r.names.get name = some ref ∧ r1 = r) ∨
        (r.names.get name = none ∧ ref = r.next ∧
          r1 = r.alloc { name := name, tokenID := tokenID })) ∧
      (port ≠ 0 ∧ (r1.cells ref).port ≠ port → port ∉ r.ports) ∧
      r' = (if port ≠ 0 ∧ (r1.cells ref).port ≠ port then
          ((if (r1.cells ref).port ≠ 0 then r1.freePort (r1.cells ref).port else r1).modify ref
            (fun v => { v with port := port }) (fun _ => rfl)).addPort port
        else r1).modify ref (fun v => { v with permanent := true, timer := false })
          (fun _ => rfl) := by
  unfold reserve at h
  dsimp only at h
  split at h
  · cases h
  split at h
  · cases h
  next hfree =>
  cases hget : r.names.get name with
  | none =>
    simp only [hget] at h hfree
    cases h
    refine ⟨_, _, .inr ⟨rfl, rfl, rfl⟩, fun hp => ?_, rfl⟩
    simpa [hp.1] using hfree
  | some ref =>
    simp only [hget] at h hfree
    cases h
    refine ⟨_, _, .inl ⟨rfl, rfl⟩, fun hp => ?_, rfl⟩
    simpa [hp.1, hp.2] using hfree

theorem reserve_induction (h : r.reserve name tokenID port = .ok r') (found : P r)
    (made : r.names.get name = none → P (r.alloc { name := name, tokenID := tokenID }))
    (free : ∀ q p, P q → P (q.freePort p)) (add : ∀ q, P q → P (q.addPort port))
    (give : ∀ q ref, P q → P (q.modify ref (fun v => { v with port := port }) fun _ => rfl))
    (keep : ∀ q ref, P q → P (q.modify ref (fun v => { v with permanent := true, timer := false })
      fun _ => rfl)) :
    P r' := by
  obtain ⟨r1, ref, hfound, -, rfl⟩ := reserve_ok h
  have h1 : P r1 := by
    rcases hfound with ⟨-, rfl⟩ | ⟨hget, -, rfl⟩
    · exact found
    · exact made hget
  refine keep _ ref ?_
  split
  · refine add _ (give _ ref ?_)
    split
    · exact free _ _ h1
    · exact h1
  · exact h1

def refs (r : NameRegistry) : Finset ℕ := (r.names.entries.map (·.2)).toFinset

theorem mem_refs {u : ℕ} : u ∈ r.refs ↔ r.Named u := by
  rw [refs, List.mem_toFinset, List.mem_map, named_iff]
  constructor
  · rintro ⟨⟨n, v⟩, hmem, rfl⟩
    exact ⟨n, AList.mem_lookup_iff.mpr hmem⟩
  · rintro ⟨n, hn⟩
    exact ⟨⟨n, u⟩, AList.mem_lookup_iff.mp hn, rfl⟩

theorem nodup_refs (r : NameRegistry) : (r.names.entries.map (·.2)).Nodup := by
  have hentries : r.names.entries.Nodup := r.names.nodupKeys.nodup
  refine hentries.map_on ?_
  rintro ⟨n, u⟩ hn ⟨m, v⟩ hm (rfl : u = v)
  have hname := r.keyed n u (AList.mem_lookup_iff.mpr hn)
  rw [r.keyed m u (AList.mem_lookup_iff.mpr hm)] at hname
  rw [hname]

theorem activeLocked_eq_card (r : NameRegistry) (tokenID : String) (except : Option ℕ) :
    r.activeLocked tokenID except = ((r.refs.filter fun u => (r.cells u).tokenID = tokenID ∧
      (r.cells u).session.isSome ∧ some u ≠ except).card : ℤ) := by
  rw [activeLocked, List.countP_eq_length_filter,
    ← List.toFinset_card_of_nodup ((nodup_refs r).filter _), List.toFinset_filter]
  simp only [decide_eq_true_eq, refs]

end NameRegistry
end L8Tunnel.Registrar
