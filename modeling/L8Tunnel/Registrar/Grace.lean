import L8Tunnel.Registrar.Undo

/-! # The grace period's timers (relay/registry.go) -/

namespace L8Tunnel.Registrar
open Base

namespace NameRegistry

def Removable (r : NameRegistry) (ref : ℕ) : Prop :=
  r.Named ref ∧ (r.cells ref).session = none ∧ (r.cells ref).permanent = false

instance (r : NameRegistry) (ref : ℕ) : Decidable (r.Removable ref) :=
  inferInstanceAs (Decidable (_ ∧ _ ∧ _))

theorem stopped_name (v : Reservation) : ({ v with timer := false } : Reservation).name = v.name := rfl

def closeOne (r : NameRegistry) (name : String) : NameRegistry :=
  match r.names.get name with
  | none => r
  | some ref =>
    if (r.cells ref).session = none then
      let r1 := r.modify ref (fun v => { v with timer := false }) stopped_name
      if (r.cells ref).permanent = false then r1.deleteLocked ref else r1
    else r

def close (r : NameRegistry) (order : RangeOrder) : NameRegistry :=
  (r.names.range order).foldl closeOne { r with closed := true }

end NameRegistry

/-- The registry with its timers: a fired one waits for the lock, like any call. -/
structure Timers where
  reg : NameRegistry
  now : ℤ := 0
  made : ℕ := 0
  timerOf : ℕ → ℕ := fun _ => 0
  running : GoMap ℕ (ℕ × ℤ) := ∅
  waiting : List ℕ := []

/-- Time, timers that fire or get the lock, and the registry's operations. -/
inductive TimerEvent where
  | tick (d : ℕ)
  | fire (timer : ℕ)
  | expire (ref : ℕ)
  | claim (name : String) (typ : TunnelType) (tokenID agentID : String) (sess : ℕ) (maxTunnels : ℤ)
  | activate (ref : ℕ) (t : Tunnel)
  | park (ref sess : ℕ)
  | rollback (ref sess : ℕ) (existed : Bool)
  | setDomains (ref : ℕ) (ds : List String)
  | reserve (name tokenID : String) (port : ℤ)
  | unreserve (name : String)
  | releaseToken (tokenID : String) (order : RangeOrder)
  | reservePort (port : ℤ)
  | releasePort (port : ℤ)
  | setPort (ref : ℕ) (port : ℤ)
  | close (order : RangeOrder)

namespace Timers

def stop (s : Timers) (ref : ℕ) : Timers :=
  if (s.reg.cells ref).timer then { s with running := s.running.del (s.timerOf ref) } else s

def start (s : Timers) (ref : ℕ) (due : ℤ) : Timers :=
  { s with
    made := s.made + 1, timerOf := Function.update s.timerOf ref s.made
    running := s.running.set s.made (ref, due) }

def deleteLocked (s : Timers) (ref : ℕ) : Timers :=
  { s.stop ref with reg := s.reg.deleteLocked ref }

def claim (s : Timers) (name : String) (typ : TunnelType) (tokenID agentID : String) (sess : ℕ)
    (maxTunnels : ℤ) : Timers :=
  match s.reg.claim name typ tokenID agentID sess maxTunnels with
  | .error _ => s
  | .ok c => { (if c.existed then s.stop c.res else s) with reg := c.registry }

def park (s : Timers) (ref sess : ℕ) : Timers :=
  let r := s.reg.park ref sess s.now
  if (s.reg.cells ref).session = some sess ∧ s.reg.Named ref ∧
      (s.reg.cells ref).permanent = false then
    if s.reg.closed ∨ s.reg.clustered then { s.stop ref with reg := r }
    else { s.start ref (s.now + s.reg.grace) with reg := r }
  else { s with reg := r }

def rollback (s : Timers) (ref sess : ℕ) (existed : Bool) : Timers :=
  if existed then s.park ref sess
  else if (s.reg.cells ref).session = some sess then s.deleteLocked ref
  else s

def expire (s : Timers) (ref : ℕ) : Timers :=
  if s.reg.Removable ref then s.deleteLocked ref else s

def reserve (s : Timers) (name tokenID : String) (port : ℤ) : Timers :=
  match s.reg.reserve name tokenID port, s.reg.names.get name with
  | .error _, _ => s
  | .ok r, some ref => { s.stop ref with reg := r }
  | .ok r, none => { s with reg := r }

def unreserve (s : Timers) (name : String) : Timers :=
  match s.reg.names.get name with
  | none => s
  | some ref =>
    if (s.reg.cells ref).permanent = true ∧ (s.reg.cells ref).session = none then
      { s.stop ref with reg := s.reg.unreserve name }
    else { s with reg := s.reg.unreserve name }

def releaseOne (tokenID : String) (s : Timers) (name : String) : Timers :=
  match s.reg.names.get name with
  | none => s
  | some ref => if (s.reg.cells ref).tokenID = tokenID then s.deleteLocked ref else s

def releaseToken (s : Timers) (tokenID : String) (order : RangeOrder) : Timers :=
  (s.reg.names.range order).foldl (releaseOne tokenID) s

def closeOne (s : Timers) (name : String) : Timers :=
  match s.reg.names.get name with
  | none => s
  | some ref =>
    if (s.reg.cells ref).session = none then { s.stop ref with reg := s.reg.closeOne name } else s

def close (s : Timers) (order : RangeOrder) : Timers :=
  (s.reg.names.range order).foldl closeOne { s with reg := { s.reg with closed := true } }

def fire (s : Timers) (timer : ℕ) : Option Timers :=
  match s.running.get timer with
  | none => none
  | some (ref, due) =>
    if due ≤ s.now then
      some { s with running := s.running.del timer, waiting := ref :: s.waiting }
    else none

def next (s : Timers) : TimerEvent → Option Timers
  | .tick d => some { s with now := s.now + d }
  | .fire timer => s.fire timer
  | .expire ref =>
    if ref ∈ s.waiting then some { s.expire ref with waiting := s.waiting.erase ref } else none
  | .claim name typ tokenID agentID sess maxTunnels =>
    some (s.claim name typ tokenID agentID sess maxTunnels)
  | .activate ref t => some { s with reg := s.reg.activate ref t }
  | .park ref sess => some (s.park ref sess)
  | .rollback ref sess existed => some (s.rollback ref sess existed)
  | .setDomains ref ds =>
    match s.reg.setDomains ref ds with
    | .error _ => some s
    | .ok r => some { s with reg := r }
  | .reserve name tokenID port => some (s.reserve name tokenID port)
  | .unreserve name => some (s.unreserve name)
  | .releaseToken tokenID order => some (s.releaseToken tokenID order)
  | .reservePort port =>
    match s.reg.reservePort port with
    | none => some s
    | some r => some { s with reg := r }
  | .releasePort port => some { s with reg := s.reg.releasePort port }
  | .setPort ref port => some { s with reg := s.reg.setPort ref port }
  | .close order => some (s.close order)

def Step (s : Timers) (e : TimerEvent) (s' : Timers) : Prop := s.next e = some s'

/-- The condition: when a token's own claim comes for a name, no call of `expire`
waits whose timer fired for the reservation. -/
def Reclaims (s : Timers) : TimerEvent → Prop
  | .claim name _ tokenID _ _ _ => ∀ ref, s.reg.names.get name = some ref →
      (s.reg.cells ref).tokenID = tokenID → ref ∉ s.waiting
  | _ => True

variable (s : Timers) (ref : ℕ)

theorem stop_rest : (s.stop ref).now = s.now ∧
    (s.stop ref).made = s.made ∧ (s.stop ref).timerOf = s.timerOf ∧
    (s.stop ref).waiting = s.waiting := by
  unfold stop
  split <;> exact ⟨rfl, rfl, rfl, rfl⟩

theorem park_reg (sess : ℕ) : (s.park ref sess).reg = s.reg.park ref sess s.now := by
  unfold park
  dsimp only
  split
  · split <;> rfl
  · rfl

theorem rollback_reg (sess : ℕ) (existed : Bool) :
    (s.rollback ref sess existed).reg = s.reg.rollback ref sess existed s.now := by
  unfold rollback NameRegistry.rollback
  split
  · exact park_reg s ref sess
  split <;> rfl

theorem expire_reg : (s.expire ref).reg = s.reg.expire ref := by
  unfold expire
  split
  next h => exact (if_pos h).symm
  next h => exact (if_neg h).symm

theorem unreserve_reg (name : String) : (s.unreserve name).reg = s.reg.unreserve name := by
  unfold unreserve
  cases hget : s.reg.names.get name with
  | none => simp [NameRegistry.unreserve, hget]
  | some ref =>
    dsimp only
    split <;> rfl

theorem expire_waiting : (s.expire ref).waiting = s.waiting := by
  unfold expire
  split
  · exact (stop_rest s ref).2.2.2
  · rfl

theorem releaseOne_reg (tokenID : String) (s : Timers) (out : List ℕ) (name : String) :
    (NameRegistry.releaseOne tokenID (s.reg, out) name).1 = (releaseOne tokenID s name).reg := by
  unfold NameRegistry.releaseOne releaseOne
  cases s.reg.names.get name with
  | none => rfl
  | some ref =>
    dsimp only
    split <;> rfl

theorem releaseToken_reg (tokenID : String) (order : RangeOrder) :
    (s.releaseToken tokenID order).reg = (s.reg.releaseToken tokenID order).1 := by
  have hfold : ∀ (ns : List String) (s : Timers) (acc : NameRegistry × List ℕ), acc.1 = s.reg →
      (ns.foldl (releaseOne tokenID) s).reg =
        (ns.foldl (NameRegistry.releaseOne tokenID) acc).1 := by
    intro ns
    induction ns with
    | nil => exact fun _ _ h => h.symm
    | cons n ns ih =>
      rintro s ⟨r, out⟩ rfl
      exact ih _ _ (releaseOne_reg tokenID s out n)
  exact hfold _ s (s.reg, []) rfl

theorem closeOne_reg (name : String) : (s.closeOne name).reg = s.reg.closeOne name := by
  unfold closeOne
  cases hget : s.reg.names.get name with
  | none => simp only [NameRegistry.closeOne, hget]
  | some ref =>
    dsimp only
    split
    · rfl
    next h => simp only [NameRegistry.closeOne, hget, if_neg h]

theorem close_reg (order : RangeOrder) : (s.close order).reg = s.reg.close order := by
  unfold close NameRegistry.close
  exact (List.foldl_hom Timers.reg fun s n => (closeOne_reg s n).symm).symm

theorem fire_reg {s s' : Timers} {timer : ℕ} (h : s.fire timer = some s') : s'.reg = s.reg := by
  unfold fire at h
  split at h
  · cases h
  split at h
  · cases h
    rfl
  · cases h

section
variable {s s' : Timers}

theorem step_expire {ref : ℕ} (h : s.Step (.expire ref) s') :
    s' = { s.expire ref with waiting := s.waiting.erase ref } := by
  unfold Step next at h
  dsimp only at h
  split at h
  · exact (Option.some.inj h).symm
  · cases h

theorem step_setDomains {ref : ℕ} {ds : List String} (h : s.Step (.setDomains ref ds) s') :
    (∃ d, s.reg.setDomains ref ds = .error d ∧ s' = s) ∨
      ∃ r, s.reg.setDomains ref ds = .ok r ∧ s' = { s with reg := r } := by
  unfold Step next at h
  dsimp only at h
  split at h
  next d hd => exact .inl ⟨d, hd, (Option.some.inj h).symm⟩
  next r hr => exact .inr ⟨r, hr, (Option.some.inj h).symm⟩

theorem step_reservePort {port : ℤ} (h : s.Step (.reservePort port) s') :
    s' = s ∨ s' = { s with reg := s.reg.addPort port } := by
  unfold Step next at h
  dsimp only at h
  split at h
  · exact .inl (Option.some.inj h).symm
  next r hr =>
    unfold NameRegistry.reservePort at hr
    split at hr
    · cases hr
    · right
      rw [← Option.some.inj h, Option.some.inj hr]

end

end Timers

structure Calmer (r r' : NameRegistry) : Prop where
  session : ∀ u, (r'.cells u).session ≠ none → (r.cells u).session ≠ none
  expires : ∀ u < r.next, (r'.cells u).expires = (r.cells u).expires
  removable : ∀ u < r.next, r'.Removable u → r.Removable u
  next : r.next ≤ r'.next

namespace Calmer
open NameRegistry
variable {r r' : NameRegistry} {ref : ℕ}

theorem refl (r : NameRegistry) : Calmer r r :=
  ⟨fun _ h => h, fun _ _ => rfl, fun _ _ h => h, le_rfl⟩

theorem trans {r1 : NameRegistry} (h : Calmer r r1) (h' : Calmer r1 r') : Calmer r r' where
  session u hu := h.session u (h'.session u hu)
  expires u hu := (h'.expires u (Nat.lt_of_lt_of_le hu h.next)).trans (h.expires u hu)
  removable u hu hrem := h.removable u hu (h'.removable u (Nat.lt_of_lt_of_le hu h.next) hrem)
  next := h.next.trans h'.next

theorem at_cell (ref : ℕ) (hcells : ∀ u, u ≠ ref → r'.cells u = r.cells u)
    (hnamed : ∀ u, u ≠ ref → r'.Named u → r.Named u)
    (hsession : (r'.cells ref).session ≠ none → (r.cells ref).session ≠ none)
    (hexpires : ref < r.next → (r'.cells ref).expires = (r.cells ref).expires)
    (hremovable : ref < r.next → r'.Removable ref → r.Removable ref) (hnext : r.next ≤ r'.next) :
    Calmer r r' where
  session u hu := by
    by_cases h : u = ref
    · rw [h] at hu ⊢
      exact hsession hu
    · rwa [hcells u h] at hu
  expires u hu := by
    by_cases h : u = ref
    · rw [h] at hu ⊢
      exact hexpires hu
    · rw [hcells u h]
  removable u hu hrem := by
    by_cases h : u = ref
    · rw [h] at hu hrem ⊢
      exact hremovable hu hrem
    · obtain ⟨hn, hrest⟩ := hrem
      rw [hcells u h] at hrest
      exact ⟨hnamed u h hn, hrest⟩
  next := hnext

theorem freePort (r : NameRegistry) (p : ℤ) : Calmer r (r.freePort p) :=
  ⟨fun _ h => h, fun _ _ => rfl, fun _ _ h => h, le_rfl⟩

theorem addPort (r : NameRegistry) (p : ℤ) : Calmer r (r.addPort p) :=
  ⟨fun _ h => h, fun _ _ => rfl, fun _ _ h => h, le_rfl⟩

theorem modify {f : Reservation → Reservation} (hf : ∀ v, (f v).name = v.name)
    (hsession : ∀ v, (f v).session = v.session) (hexpires : ∀ v, (f v).expires = v.expires)
    (hpermanent : ∀ v, (f v).permanent = v.permanent ∨ (f v).permanent = true) :
    Calmer r (r.modify ref f hf) := by
  refine at_cell ref (fun u hu => ?_) (fun u _ hu => (named_modify r ref hf u).mp hu) ?_ ?_ ?_
    (le_modify_next r ref hf)
  · rw [modify_cells, if_neg hu]
  · rw [modify_self, hsession]
    exact id
  · rw [modify_self, hexpires]
    exact fun _ => rfl
  · rintro - ⟨hn, hs, hp⟩
    rw [modify_self] at hs hp
    rw [hsession] at hs
    rcases hpermanent (r.cells ref) with hsame | htrue
    · exact ⟨(named_modify r ref hf ref).mp hn, hs, hsame ▸ hp⟩
    · rw [htrue] at hp
      cases hp

theorem removed {r1 : NameRegistry} (hcells : ∀ u, u ≠ ref → r1.cells u = r.cells u)
    (hnames : r1.names = r.names)
    (hsession : (r1.cells ref).session ≠ none → (r.cells ref).session ≠ none)
    (hexpires : (r1.cells ref).expires = (r.cells ref).expires) (hnext : r.next ≤ r1.next) :
    Calmer r (r1.deleteLocked ref) := by
  have hself : ∀ u, u ≠ ref → (r1.deleteLocked ref).cells u = r.cells u := by
    intro u hu
    rw [deleteLocked_cells, if_neg hu, hcells u hu]
  refine at_cell ref hself (fun u _ hu => ?_) ?_ ?_ ?_ (hnext.trans (le_deleteLocked_next r1 ref))
  · have hu1 := ((named_deleteLocked r1 ref u).mp hu).1
    exact (named_congr (fun n => by rw [hnames]) u).mp hu1
  · rw [deleteLocked_cells, if_pos rfl]
    exact hsession
  · rw [deleteLocked_cells, if_pos rfl]
    exact fun _ => hexpires
  · rintro - ⟨hn, -⟩
    exact absurd rfl ((named_deleteLocked r1 ref ref).mp hn).2

theorem deleteLocked : Calmer r (r.deleteLocked ref) :=
  removed (fun _ _ => rfl) rfl id rfl le_rfl

theorem unreserve (name : String) : Calmer r (r.unreserve name) := by
  unfold NameRegistry.unreserve
  split
  · exact refl r
  next ref hget =>
    split
    · exact refl r
    · dsimp only
      split
      · refine removed (fun u hu => ?_) rfl ?_ ?_ (le_modify_next _ _ _)
        · rw [modify_cells, if_neg hu]
        · rw [modify_self]
          exact id
        · rw [modify_self]
      next hs =>
        -- in use, so it is not removable
        refine at_cell ref (fun u hu => ?_) (fun u _ hu => (named_modify _ _ _ u).mp hu) ?_ ?_ ?_
          (le_modify_next _ _ _)
        · rw [modify_cells, if_neg hu]
        · rw [modify_self]
          exact id
        · rw [modify_self]
          exact fun _ => rfl
        · rintro - ⟨-, hnone, -⟩
          exact absurd hnone hs

theorem alloc {v : Reservation} (hfree : r.names.get v.name = none) (hsess : v.session = none) :
    Calmer r (r.alloc v) := by
  refine at_cell r.next (fun u hu => ?_) (fun u hu hn => ?_) ?_ (fun h => absurd h (lt_irrefl _))
    (fun h => absurd h (lt_irrefl _)) (Nat.le_succ _)
  · rw [alloc_cells, if_neg hu]
  · exact ((named_alloc hfree u).mp hn).resolve_right hu
  · rw [alloc_cells, if_pos rfl, hsess]
    exact fun h => absurd rfl h

theorem reserve {name tokenID : String} {port : ℤ} (h : r.reserve name tokenID port = .ok r') :
    Calmer r r' := by
  refine reserve_induction (P := Calmer r) h (refl r) (fun hget => alloc hget rfl) ?_ ?_ ?_ ?_
  · exact fun _ p hq => hq.trans (freePort _ p)
  · exact fun _ hq => hq.trans (addPort _ port)
  · exact fun _ _ hq => hq.trans (modify _ (fun _ => rfl) (fun _ => rfl) fun _ => .inl rfl)
  · exact fun _ _ hq => hq.trans (modify _ (fun _ => rfl) (fun _ => rfl) fun _ => .inr rfl)

theorem setPort (port : ℤ) : Calmer r (r.setPort ref port) := by
  unfold NameRegistry.setPort
  dsimp only
  refine trans ?_ (modify _ (fun _ => rfl) (fun _ => rfl) fun _ => .inl rfl)
  split
  · exact freePort _ _
  · exact refl _

theorem setDomains {ds : List String} (h : r.setDomains ref ds = .ok r') : Calmer r r' := by
  unfold NameRegistry.setDomains at h
  split at h
  · cases h
  · cases h
    have hdrop : Calmer r (r.dropDomains ref (r.cells ref).domains) :=
      ⟨fun _ h => h, fun _ _ => rfl, fun _ _ h => h, le_rfl⟩
    have hset : Calmer r ((r.dropDomains ref (r.cells ref).domains).modify ref
        (fun v => { v with domains := ds }) fun _ => rfl) :=
      hdrop.trans (modify _ (fun _ => rfl) (fun _ => rfl) fun _ => .inl rfl)
    exact ⟨hset.session, hset.expires, hset.removable, hset.next⟩

theorem park {sess : ℕ} {now : ℤ}
    (h : ¬ ((r.cells ref).session = some sess ∧ r.Named ref ∧ (r.cells ref).permanent = false) ∨
      r.closed ∨ r.clustered) :
    Calmer r (r.park ref sess now) := by
  refine park_induction (fun _ => refl r) (fun _ hperm => ?_) (fun _ _ _ => ?_)
    fun hsess hnamed hopen hperm => ?_
  · have hnot : ¬ (r.modify ref (fun v => { v with session := none, tunnel := none })
        fun _ => rfl).Removable ref := by
      rintro ⟨hin, -, hp⟩
      rw [modify_self] at hp
      exact hperm ((named_modify r ref _ ref).mp hin) hp
    refine at_cell ref (fun u hu => ?_) (fun u _ hu => (named_modify _ _ _ u).mp hu) ?_ ?_
      (fun _ hrem => absurd hrem hnot) (le_modify_next _ _ _)
    · rw [modify_cells, if_neg hu]
    · rw [modify_self]
      exact fun hs => absurd rfl hs
    · rw [modify_self]
      exact fun _ => rfl
  · refine removed (fun u hu => ?_) rfl ?_ ?_ (le_modify_next _ _ _)
    · rw [modify_cells, if_neg hu]
    · rw [modify_self]
      exact fun hs => absurd rfl hs
    · rw [modify_self]
  · rcases h with h | h
    · exact absurd ⟨hsess, hnamed, hperm⟩ h
    · exact absurd h hopen

end Calmer

namespace Timers

/-- A timer runs for the grace it was made for, and one that waits is due. -/
structure Good (s : Timers) : Prop where
  live : ∀ id u due, s.running.get id = some (u, due) → id < s.made ∧ u < s.reg.next ∧
    (s.reg.cells u).timer = true ∧ s.timerOf u = id ∧ due = (s.reg.cells u).expires
  active : ∀ u, (s.reg.cells u).session ≠ none →
    u ∉ s.waiting ∧ ∀ id due, s.running.get id ≠ some (u, due)
  due : ∀ u ∈ s.waiting, u < s.reg.next ∧
    (s.reg.Removable u → (s.reg.cells u).expires ≤ s.now)

variable {s : Timers} {r' : NameRegistry} {ref : ℕ}
variable {waiting : List ℕ} {u sess : ℕ} {r : NameRegistry} {name tokenID : String} {s' : Timers}

theorem Good.calm (h : s.Good) (hc : Calmer s.reg r') {running : GoMap ℕ (ℕ × ℤ)}
    (hrun : ∀ id u due, running.get id = some (u, due) → s.running.get id = some (u, due) ∧
      (r'.cells u).timer = true)
    (hwait : ∀ u ∈ waiting, u ∈ s.waiting) :
    Good { s with reg := r', running := running, waiting := waiting } where
  live id u due hget := by
    obtain ⟨hold, htimer⟩ := hrun id u due hget
    obtain ⟨hid, hlt, -, hof, hdue⟩ := h.live id u due hold
    exact ⟨hid, Nat.lt_of_lt_of_le hlt hc.next, htimer, hof, hdue.trans (hc.expires u hlt).symm⟩
  active u hu := by
    obtain ⟨hnot, hnone⟩ := h.active u (hc.session u hu)
    exact ⟨fun hmem => hnot (hwait u hmem), fun id due hget => hnone id due (hrun id u due hget).1⟩
  due u hu := by
    obtain ⟨hlt, hdue⟩ := h.due u (hwait u hu)
    refine ⟨Nat.lt_of_lt_of_le hlt hc.next, fun hrem => ?_⟩
    rw [hc.expires u hlt]
    exact hdue (hc.removable u hlt hrem)

theorem Good.plain (h : s.Good) (hc : Calmer s.reg r')
    (htimer : ∀ u < s.reg.next, (r'.cells u).timer = (s.reg.cells u).timer) :
    Good { s with reg := r' } := by
  refine h.calm hc (fun id u due hget => ⟨hget, ?_⟩) fun u hu => hu
  obtain ⟨-, hlt, hon, -, -⟩ := h.live id u due hget
  exact (htimer u hlt).trans hon

theorem Good.stop_running (h : s.Good) {id : ℕ} {due : ℤ}
    (hget : (s.stop ref).running.get id = some (u, due)) :
    s.running.get id = some (u, due) ∧ u ≠ ref := by
  unfold stop at hget
  split at hget
  · dsimp only at hget
    rw [GoMap.get_del_eq_ite] at hget
    split at hget
    · cases hget
    next hid =>
      obtain ⟨-, -, -, hof, -⟩ := h.live id u due hget
      exact ⟨hget, fun hu => hid (hu ▸ hof.symm)⟩
  next hoff =>
    obtain ⟨-, -, hon, -, -⟩ := h.live id u due hget
    exact ⟨hget, fun hu => hoff (hu ▸ hon)⟩

theorem stop_with (s : Timers) (ref : ℕ) (r' : NameRegistry) :
    { s.stop ref with reg := r' } = { s with reg := r', running := (s.stop ref).running } := by
  unfold stop
  split <;> rfl

theorem Good.stopped (h : s.Good) (hc : Calmer s.reg r')
    (htimer : ∀ u < s.reg.next, u ≠ ref → (r'.cells u).timer = (s.reg.cells u).timer) :
    Good { s.stop ref with reg := r' } := by
  rw [stop_with]
  refine h.calm hc (fun id u due hget => ?_) fun u hu => hu
  obtain ⟨hold, hne⟩ := h.stop_running hget
  obtain ⟨-, hlt, hon, -, -⟩ := h.live id u due hold
  exact ⟨hold, (htimer u hlt hne).trans hon⟩

theorem Good.deleteLocked (h : s.Good) : (s.deleteLocked ref).Good :=
  h.stopped .deleteLocked fun u _ hu => by rw [NameRegistry.deleteLocked_cells, if_neg hu]

theorem reserve_cells {port : ℤ} (h : r.reserve name tokenID port = .ok r') (hu : u < r.next)
    (hne : r.names.get name ≠ some u) : r'.cells u = r.cells u := by
  obtain ⟨r1, ref, hfound, -, rfl⟩ := NameRegistry.reserve_ok h
  have hother : u ≠ ref ∧ r1.cells u = r.cells u := by
    rcases hfound with ⟨hget, rfl⟩ | ⟨-, rfl, rfl⟩
    · exact ⟨fun he => hne (he ▸ hget), rfl⟩
    · refine ⟨Nat.ne_of_lt hu, ?_⟩
      rw [NameRegistry.alloc_cells, if_neg (Nat.ne_of_lt hu)]
  rw [NameRegistry.modify_cells, if_neg hother.1]
  split
  · rw [NameRegistry.addPort_cells, NameRegistry.modify_cells, if_neg hother.1]
    split
    · exact hother.2
    · exact hother.2
  · exact hother.2

theorem park_starts (now : ℤ)
    (h : (r.cells ref).session = some sess ∧ r.Named ref ∧ (r.cells ref).permanent = false)
    (hopen : ¬ (r.closed ∨ r.clustered)) :
    (r.park ref sess now).names = r.names ∧ r.next ≤ (r.park ref sess now).next ∧
    ∀ u, (r.park ref sess now).cells u =
      if u = ref then
        { r.cells u with session := none, tunnel := none, expires := now + r.grace, timer := true }
      else r.cells u := by
  rw [NameRegistry.park_waits now h.1 h.2.1 h.2.2 hopen]
  refine ⟨rfl, (NameRegistry.le_modify_next _ _ _).trans (NameRegistry.le_modify_next _ _ _),
    fun u => ?_⟩
  rw [NameRegistry.modify_cells, NameRegistry.modify_cells]
  split <;> rfl

theorem park_idle {now : ℤ}
    (h : ¬ ((r.cells ref).session = some sess ∧ r.Named ref ∧ (r.cells ref).permanent = false))
    (u : ℕ) : ((r.park ref sess now).cells u).timer = (r.cells u).timer := by
  have hend : ((r.modify ref (fun v => { v with session := none, tunnel := none })
      fun _ => rfl).cells u).timer = (r.cells u).timer := by
    rw [NameRegistry.modify_cells]
    split <;> rfl
  refine NameRegistry.park_induction (P := fun q => (q.cells u).timer = (r.cells u).timer)
    (fun _ => rfl) (fun _ _ => hend) (fun hsess hnamed hdel => ?_) fun hsess hnamed _ hperm => ?_
  · exact absurd ⟨hsess, hnamed, hdel.2⟩ h
  · exact absurd ⟨hsess, hnamed, hperm⟩ h

theorem Good.parked (h : s.Good)
    (hcond : (s.reg.cells ref).session = some sess ∧ s.reg.Named ref ∧ (s.reg.cells ref).permanent
      = false)
    (hopen : ¬ (s.reg.closed ∨ s.reg.clustered)) :
    Good { s.start ref (s.now + s.reg.grace) with reg := s.reg.park ref sess s.now } := by
  obtain ⟨hnames, hnext, hcells⟩ := park_starts s.now hcond hopen
  have hnamed : ∀ u, (s.reg.park ref sess s.now).Named u ↔ s.reg.Named u :=
    NameRegistry.named_congr fun n => by rw [hnames]
  -- The reservation was in use until now.
  obtain ⟨hwaits, hruns⟩ := h.active ref (by rw [hcond.1]; exact nofun)
  constructor
  · intro id u due hget
    dsimp only [start] at hget ⊢
    rw [GoMap.get_set_eq_ite] at hget
    split at hget
    next hid =>
      cases hget
      refine ⟨hid ▸ Nat.lt_succ_self _, Nat.lt_of_lt_of_le hcond.2.1.lt hnext, ?_, ?_, ?_⟩
      · rw [hcells, if_pos rfl]
      · rw [Function.update_self, hid]
      · rw [hcells, if_pos rfl]
    next hid =>
      obtain ⟨hlt, hu, hon, hof, hdue⟩ := h.live id u due hget
      have hne : u ≠ ref := fun he => hruns id due (he ▸ hget)
      refine ⟨Nat.lt_succ_of_lt hlt, Nat.lt_of_lt_of_le hu hnext, ?_, ?_, ?_⟩
      · rw [hcells, if_neg hne, hon]
      · rw [Function.update_of_ne hne, hof]
      · rw [hcells, if_neg hne, hdue]
  · intro u hu
    dsimp only [start] at hu ⊢
    rw [hcells] at hu
    split at hu
    · exact absurd rfl hu
    next hne =>
      refine ⟨(h.active u hu).1, fun id due hget => ?_⟩
      rw [GoMap.get_set_eq_ite] at hget
      split at hget
      · cases hget
        exact hne rfl
      · exact (h.active u hu).2 id due hget
  · intro u hu
    dsimp only [start] at hu ⊢
    obtain ⟨hlt, hdue⟩ := h.due u hu
    have hne : u ≠ ref := fun he => hwaits (he ▸ hu)
    refine ⟨Nat.lt_of_lt_of_le hlt hnext, ?_⟩
    rintro ⟨hn, hrest⟩
    rw [hcells, if_neg hne] at hrest ⊢
    exact hdue ⟨(hnamed u).mp hn, hrest⟩

theorem Good.park (h : s.Good) (sess : ℕ) : (s.park ref sess).Good := by
  unfold Timers.park
  dsimp only
  split
  next hcond =>
    split
    next hclosed =>
      exact h.stopped (.park (.inr hclosed)) fun u _ hu => by rw [(Apart.park hu s.now).cell]
    next hopen => exact h.parked hcond hopen
  next hcond => exact h.plain (.park (.inl hcond)) fun u _ => park_idle hcond u

theorem Good.rollback (h : s.Good) (sess : ℕ) (existed : Bool) :
    (s.rollback ref sess existed).Good := by
  unfold Timers.rollback
  split
  · exact h.park sess
  split
  · exact h.deleteLocked
  · exact h

theorem Good.expire (h : s.Good) : (s.expire ref).Good := by
  unfold Timers.expire
  split
  · exact h.deleteLocked
  · exact h

theorem Good.reserve (h : s.Good) (name tokenID : String) (port : ℤ) :
    (s.reserve name tokenID port).Good := by
  unfold Timers.reserve
  split
  · exact h
  next r ref hr hget =>
    refine h.stopped (.reserve hr) fun u hu hne => ?_
    rw [reserve_cells hr hu fun he => hne (Option.some.inj (he.symm.trans hget))]
  next r hr hget =>
    refine h.plain (.reserve hr) fun u hu => ?_
    rw [reserve_cells hr hu (by rw [hget]; exact nofun)]

theorem unreserve_cells (hget : r.names.get name = some ref) (u : ℕ) :
    ((r.unreserve name).cells u).timer = (r.cells u).timer ∨
      (u = ref ∧ (r.cells ref).permanent = true ∧ (r.cells ref).session = none) := by
  unfold NameRegistry.unreserve
  rw [hget]
  dsimp only
  split
  · exact .inl rfl
  next hperm =>
  split
  next hs =>
    by_cases hu : u = ref
    · exact .inr ⟨hu, by simpa using hperm, by simpa using hs⟩
    · rw [NameRegistry.deleteLocked_cells, if_neg hu, NameRegistry.modify_cells, if_neg hu]
      exact .inl rfl
  next =>
    rw [NameRegistry.modify_cells]
    split <;> exact .inl rfl

theorem Good.unreserve (h : s.Good) (name : String) : (s.unreserve name).Good := by
  unfold Timers.unreserve
  split
  · exact h
  next ref hget =>
    split
    next hparked =>
      exact h.stopped (.unreserve name) fun u _ hne =>
        (unreserve_cells hget u).resolve_right fun he => hne he.1
    next hparked =>
      exact h.plain (.unreserve name) fun u _ =>
        (unreserve_cells hget u).resolve_right fun he => hparked he.2

theorem Good.releaseToken (h : s.Good) (tokenID : String) (order : RangeOrder) :
    (s.releaseToken tokenID order).Good := by
  unfold Timers.releaseToken
  refine List.foldlRecOn (motive := Good) _ _ h fun s hs name _ => ?_
  unfold releaseOne
  split
  · exact hs
  split
  · exact hs.deleteLocked
  · exact hs

theorem Good.closeOne (h : s.Good) (name : String) : (s.closeOne name).Good := by
  unfold Timers.closeOne
  split
  · exact h
  next ref hget =>
  split
  next hparked =>
    have hstop : Calmer s.reg (s.reg.modify ref (fun v => { v with timer := false }) fun _ => rfl) :=
      .modify _ (fun _ => rfl) (fun _ => rfl) fun _ => .inl rfl
    have hcells : ∀ u, u ≠ ref → ((s.reg.modify ref (fun v => { v with timer := false })
        fun _ => rfl).cells u).timer = (s.reg.cells u).timer := by
      intro u hu
      rw [NameRegistry.modify_cells, if_neg hu]
    unfold NameRegistry.closeOne
    rw [hget]
    dsimp only
    rw [if_pos hparked]
    split
    · refine h.stopped (hstop.trans .deleteLocked) fun u _ hu => ?_
      rw [NameRegistry.deleteLocked_cells, if_neg hu]
      exact hcells u hu
    · exact h.stopped hstop fun u _ hu => hcells u hu
  · exact h

theorem Good.close (h : s.Good) (order : RangeOrder) : (s.close order).Good := by
  unfold Timers.close
  refine List.foldlRecOn (motive := Good) _ _ ?_ fun s hs name _ => hs.closeOne name
  exact ⟨h.live, h.active, h.due⟩

theorem Good.alloc (h : s.Good) {v : Reservation} (hfree : s.reg.names.get v.name = none) :
    Good { s with reg := s.reg.alloc v } := by
  have hold : ∀ u < s.reg.next, (s.reg.alloc v).cells u = s.reg.cells u := by
    intro u hu
    rw [NameRegistry.alloc_cells, if_neg (Nat.ne_of_lt hu)]
  constructor
  · intro id u due hrun
    obtain ⟨hid, hu, hrest⟩ := h.live id u due hrun
    refine ⟨hid, Nat.lt_succ_of_lt hu, ?_⟩
    rw [← hold u hu] at hrest
    exact hrest
  · intro u hu
    by_cases hlt : u < s.reg.next
    · dsimp only at hu
      rw [hold u hlt] at hu
      exact h.active u hu
    · exact ⟨fun hmem => hlt (h.due u hmem).1, fun id due hrun => hlt (h.live id u due hrun).2.1⟩
  · intro u hu
    obtain ⟨hlt, hdue⟩ := h.due u hu
    refine ⟨Nat.lt_succ_of_lt hlt, ?_⟩
    rintro ⟨hn, hrest⟩
    dsimp only at hrest ⊢
    rw [hold u hlt] at hrest ⊢
    have hn' := ((NameRegistry.named_alloc hfree u).mp hn).resolve_right (Nat.ne_of_lt hlt)
    exact hdue ⟨hn', hrest⟩

theorem Good.take (h : s.Good) (hwait : ref ∉ s.waiting) {f : Reservation → Reservation}
    (hf : ∀ v, (f v).name = v.name) : Good { s.stop ref with reg := s.reg.modify ref f hf } := by
  have hold : ∀ u, u ≠ ref → (s.reg.modify ref f hf).cells u = s.reg.cells u := by
    intro u hu
    rw [NameRegistry.modify_cells, if_neg hu]
  have hnext := NameRegistry.le_modify_next s.reg ref hf
  rw [stop_with]
  constructor
  · intro id u due hrun
    obtain ⟨hrun, hne⟩ := h.stop_running hrun
    obtain ⟨hid, hu, hrest⟩ := h.live id u due hrun
    refine ⟨hid, Nat.lt_of_lt_of_le hu hnext, ?_⟩
    rw [← hold u hne] at hrest
    exact hrest
  · intro u hu
    by_cases hne : u = ref
    · subst hne
      exact ⟨hwait, fun id due hrun => (h.stop_running hrun).2 rfl⟩
    · dsimp only at hu
      rw [hold u hne] at hu
      obtain ⟨hnot, hnone⟩ := h.active u hu
      exact ⟨hnot, fun id due hrun => hnone id due (h.stop_running hrun).1⟩
  · intro u hu
    obtain ⟨hlt, hdue⟩ := h.due u hu
    have hne : u ≠ ref := fun he => hwait (he ▸ hu)
    refine ⟨Nat.lt_of_lt_of_le hlt hnext, ?_⟩
    rintro ⟨hn, hrest⟩
    dsimp only at hrest ⊢
    rw [hold u hne] at hrest ⊢
    exact hdue ⟨(NameRegistry.named_modify s.reg ref hf u).mp hn, hrest⟩

theorem Good.claim (h : s.Good) {agentID : String} {typ : TunnelType} {maxTunnels : ℤ}
    (hcond : s.Reclaims (.claim name typ tokenID agentID sess maxTunnels)) :
    (s.claim name typ tokenID agentID sess maxTunnels).Good := by
  unfold Timers.claim
  split
  · exact h
  next c hc =>
  obtain ⟨hget, rfl⟩ | ⟨ref, stale, hget, rfl⟩ := NameRegistry.claim_ok hc
  · exact h.alloc hget
  · rw [if_pos rfl]
    dsimp only
    exact h.take (hcond ref hget (claim_holder hc hget).1) _

theorem Good.fire (h : s.Good) {timer : ℕ} (hf : s.fire timer = some s') : s'.Good := by
  unfold Timers.fire at hf
  split at hf
  · cases hf
  next ref due hget =>
  split at hf
  next hdue =>
    cases hf
    obtain ⟨-, hlt, -, -, hexp⟩ := h.live timer ref due hget
    have hrest : ∀ {id u due}, (s.running.del timer).get id = some (u, due) →
        s.running.get id = some (u, due) := by
      intro id u due hrun
      rw [GoMap.get_del_eq_ite] at hrun
      split at hrun
      · cases hrun
      · exact hrun
    refine ⟨fun id u due hrun => h.live id u due (hrest hrun), fun u hu => ?_, fun u hu => ?_⟩
    · obtain ⟨hnot, hnone⟩ := h.active u hu
      refine ⟨fun hmem => ?_, fun id due hrun => hnone id due (hrest hrun)⟩
      rcases List.mem_cons.mp hmem with rfl | hmem
      · exact hnone timer due hget
      · exact hnot hmem
    · rcases List.mem_cons.mp hu with rfl | hu
      · exact ⟨hlt, fun _ => hexp ▸ hdue⟩
      · exact h.due u hu
  next => cases hf

theorem Good.fewer (h : s.Good) (hwait : ∀ u ∈ waiting, u ∈ s.waiting) :
    Good { s with waiting := waiting } :=
  ⟨h.live, fun u hu => ⟨fun hmem => (h.active u hu).1 (hwait u hmem), (h.active u hu).2⟩,
    fun u hu => h.due u (hwait u hu)⟩

theorem Good.step (h : s.Good) {e : TimerEvent} (hcond : s.Reclaims e) (hstep : s.Step e s') :
    s'.Good := by
  cases e with
  | tick d =>
    cases hstep
    refine ⟨h.live, h.active, fun u hu => ⟨(h.due u hu).1, fun hrem => ?_⟩⟩
    have hle : (s.reg.cells u).expires ≤ s.now := (h.due u hu).2 hrem
    show (s.reg.cells u).expires ≤ s.now + d
    omega
  | fire timer => exact h.fire hstep
  | expire ref =>
    rw [step_expire hstep]
    refine h.expire.fewer fun u hu => ?_
    rw [expire_waiting]
    exact List.mem_of_mem_erase hu
  | claim name typ tokenID agentID sess maxTunnels =>
    cases hstep
    exact h.claim hcond
  | activate ref t =>
    cases hstep
    refine h.plain (.modify _ (fun _ => rfl) (fun _ => rfl) fun _ => .inl rfl) fun u _ => ?_
    dsimp only [NameRegistry.activate]
    rw [NameRegistry.modify_cells]
    split <;> rfl
  | park ref sess =>
    cases hstep
    exact h.park sess
  | rollback ref sess existed =>
    cases hstep
    exact h.rollback sess existed
  | setDomains ref ds =>
    obtain ⟨-, -, rfl⟩ | ⟨r, hr, rfl⟩ := step_setDomains hstep
    · exact h
    · refine h.plain (.setDomains hr) fun u _ => ?_
      rw [(setDomains_ok hr).1, NameRegistry.replaceDomains_cells]
      split <;> rfl
  | reserve name tokenID port =>
    cases hstep
    exact h.reserve name tokenID port
  | unreserve name =>
    cases hstep
    exact h.unreserve name
  | releaseToken tokenID order =>
    cases hstep
    exact h.releaseToken tokenID order
  | reservePort port =>
    obtain rfl | rfl := step_reservePort hstep
    · exact h
    · exact h.plain (.addPort _ _) fun u _ => rfl
  | releasePort port =>
    cases hstep
    exact h.plain (.freePort _ _) fun u _ => rfl
  | setPort ref port =>
    cases hstep
    exact h.plain (.setPort port) fun u _ => by
      rw [NameRegistry.setPort_cells]
      split <;> rfl
  | close order =>
    cases hstep
    exact h.close order

theorem Good.start (grace : ℤ) (clustered : Bool) : Good ⟨.new grace clustered, 0, 0, fun _ => 0, ∅, []⟩ := by
  refine ⟨fun id u due hget => ?_, fun u hu => absurd rfl hu, fun u hu => absurd hu List.not_mem_nil⟩
  rw [GoMap.get_empty] at hget
  cases hget

/-- As long as no token comes back for a name while a call of `expire` waits for
its reservation, `expire` removes no reservation before the time that its last
parking set. -/
theorem grace_never_cut_short (grace : ℤ) (clustered : Bool) {events : List TimerEvent} {s : Timers}
    (hrun : Run (Guarded Reclaims Step) { reg := .new grace clustered } events s) :
    ∀ ref ∈ s.waiting, s.reg.Named ref → ¬ (s.expire ref).reg.Named ref →
      (s.reg.cells ref).session = none ∧ (s.reg.cells ref).permanent = false ∧
        (s.reg.cells ref).expires ≤ s.now := by
  have hgood : s.Good := hrun.invariant (I := Good) (fun _ _ _ h hstep => h.step hstep.1 hstep.2)
    (Good.start grace clustered)
  intro ref hwait hnamed hgone
  have hrem : s.reg.Removable ref := by
    by_contra hnot
    unfold Timers.expire at hgone
    rw [if_neg hnot] at hgone
    exact hgone hnamed
  exact ⟨hrem.2.1, hrem.2.2, (hgood.due ref hwait).2 hrem⟩

def sshClaim (sess : ℕ) : TimerEvent := .claim "a" .ssh "t1" "g1" sess 0

def isReclaim (s : Timers) : TimerEvent → Bool
  | .claim name _ tokenID _ _ _ =>
    match s.reg.names.get name with
    | none => true
    | some ref => (s.reg.cells ref).tokenID ≠ tokenID || !s.waiting.contains ref
  | _ => true

theorem isReclaim_reclaims (s : Timers) (e : TimerEvent) (h : isReclaim s e = true) :
    s.Reclaims e := by
  cases e with
  | claim name typ tokenID agentID sess maxTunnels =>
    intro ref hget htoken hmem
    simp only [isReclaim, hget] at h
    simp [htoken, hmem] at h
  | _ => trivial

def leaves : List TimerEvent := [sshClaim 1, .park 0 1, .tick 10, .fire 0]

theorem grace_never_cut_short_leaves : ∃ s, Run (Guarded Reclaims Step)
    { reg := .new 10 false } leaves s ∧ s.waiting = [0] ∧ (s.reg.cells 0).expires = 10 ∧
    (s.reg.cells 0).expires ≤ s.now := by
  have hplay : Run.replay isReclaim next { reg := .new 10 false } leaves = some _ := rfl
  have hrun := Run.of_replay isReclaim_reclaims hplay
  refine ⟨_, hrun, rfl, rfl, ?_⟩
  exact (grace_never_cut_short 10 false hrun 0 List.mem_cons_self rfl nofun).2.2

def returns : List TimerEvent := leaves ++ [sshClaim 2, .park 0 2]

theorem grace_cut_short : ∃ s, Run Step { reg := .new 10 false } returns s ∧ 0 ∈ s.waiting ∧
    s.reg.Named 0 ∧ ¬ (s.expire 0).reg.Named 0 ∧ s.now < (s.reg.cells 0).expires := by
  have hplay : Run.replay (fun _ _ => true) next { reg := .new 10 false } returns = some _ := rfl
  have hrun := Run.of_replay (P := fun _ _ => True) (fun _ _ _ => trivial) hplay
  refine ⟨_, hrun.mono fun _ _ _ h => h.2, List.mem_cons_self, rfl, nofun, ?_⟩
  decide

end Timers

end L8Tunnel.Registrar
