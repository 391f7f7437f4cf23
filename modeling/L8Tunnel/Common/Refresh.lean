import L8Tunnel.Base.Run
import L8Tunnel.Base.Table
import L8Tunnel.Common.LiveView

/-! # Refreshing the copy (tun/common/liveview.go) -/

namespace L8Tunnel.Common
open Base

def liveRefetchMin : ℤ := 1000000000

structure LiveTables where
  tunnels : List TunLiveTunnel := []
  relays : List TunRelay := []

/-- What a fetch has read: nothing if the registry did not answer. `asOf` is how
many invalidations had returned by then; the code keeps no such count. -/
structure Reading where
  copy : Option LiveCopy
  asOf : ℕ

/-- The view with its fetches under way and the tables it copies, counting the invalidations:
`asOf` is the one the copy has seen. -/
structure ViewState where
  copy : LiveCopy := {}
  asOf : ℕ := 0
  fetched : Option ℤ := none
  tried : Option ℤ := none
  fetching : Option ℕ := none
  channels : ℕ := 0
  running : GoMap ℕ (Option Reading) := ∅
  tables : LiveTables := {}
  invalidations : ℕ := 0

/-- A fetch reads the tables and swaps the copy in two steps, with anything between. -/
inductive ViewEvent where
  | ensure (now age : ℤ)
  | read (done : ℕ) (answered : Bool)
  | swap (done : ℕ) (now : ℤ)
  | invalidate
  | write (tables : LiveTables)

namespace ViewState

def within (t : Option ℤ) (now age : ℤ) : Bool := t.any fun t => now - t < age
def fresh (v : ViewState) (now age : ℤ) : Bool := within v.fetched now age

def ensure (v : ViewState) (now age : ℤ) : ViewState :=
  if v.fresh now age then v
  else if v.fetching = none ∧ within v.tried now liveRefetchMin = false then
    { v with
      fetching := some v.channels, tried := some now, channels := v.channels + 1
      running := v.running.set v.channels none }
  else v

def read (v : ViewState) (done : ℕ) (answered : Bool) : ViewState :=
  match v.running.get done with
  | some none =>
    { v with running := v.running.set done (some
        { copy := if answered then some (.fetch v.tables.tunnels v.tables.relays) else none
          asOf := v.invalidations }) }
  | _ => v

def swap (v : ViewState) (done : ℕ) (now : ℤ) : ViewState :=
  match v.running.get done with
  | some (some r) =>
    let v1 := { v with fetching := none, running := v.running.del done }
    match r.copy with
    | none => v1
    | some c => { v1 with copy := c, asOf := r.asOf, fetched := some now }
  | _ => v

def invalidate (v : ViewState) : ViewState :=
  { v with fetched := none, tried := none, invalidations := v.invalidations + 1 }

def next (v : ViewState) : ViewEvent → ViewState
  | .ensure now age => v.ensure now age
  | .read done answered => v.read done answered
  | .swap done now => v.swap done now
  | .invalidate => v.invalidate
  | .write tables => { v with tables := tables }

def Step (v : ViewState) (a : ViewEvent) (w : ViewState) : Prop := w = v.next a
def KeepsInvalidation (v : ViewState) : Prop := v.fetched ≠ none → v.asOf = v.invalidations

/-- The condition: no fetch that has read the tables still has to swap them in
when the view is invalidated. -/
def Settles (v : ViewState) (a : ViewEvent) : Prop :=
  a = .invalidate → ∀ done r, v.running.get done = some (some r) → r.copy = none

/-- The copy, and every copy about to be swapped in, is as of the last invalidation. -/
structure Current (v : ViewState) : Prop where
  copy : v.KeepsInvalidation
  readings : ∀ done r, v.running.get done = some (some r) → r.copy ≠ none →
    r.asOf = v.invalidations

theorem ensure_current {v : ViewState} (h : v.Current) (now age : ℤ) :
    (v.ensure now age).Current := by
  unfold ensure
  split
  · exact h
  split
  · refine ⟨h.copy, fun done r hr => ?_⟩
    dsimp only at hr
    rw [GoMap.get_set_eq_ite] at hr
    split at hr
    · cases hr
    · exact h.readings done r hr
  · exact h

theorem read_current {v : ViewState} (h : v.Current) (done : ℕ) (answered : Bool) :
    (v.read done answered).Current := by
  unfold read
  split
  · refine ⟨h.copy, fun i r hr => ?_⟩
    dsimp only at hr
    rw [GoMap.get_set_eq_ite] at hr
    split at hr
    · cases hr
      exact fun _ => rfl
    · exact h.readings i r hr
  · exact h

theorem swap_current {v : ViewState} (h : v.Current) (done : ℕ) (now : ℤ) :
    (v.swap done now).Current := by
  unfold swap
  split
  next r hr =>
    have hrest : ∀ i r', (v.running.del done).get i = some (some r') → r'.copy ≠ none →
        r'.asOf = v.invalidations := by
      intro i r' hr'
      by_cases hi : i = done
      · rw [hi, GoMap.get_del] at hr'
        cases hr'
      · rw [GoMap.get_del_ne _ hi] at hr'
        exact h.readings i r' hr'
    cases hc : r.copy with
    | none => exact ⟨h.copy, hrest⟩
    | some c =>
      refine ⟨fun _ => ?_, hrest⟩
      exact h.readings done r hr (by rw [hc]; exact Option.some_ne_none c)
  next => exact h

theorem current_step (v : ViewState) (a : ViewEvent) (w : ViewState) (h : v.Current)
    (hs : Guarded Settles Step v a w) : w.Current := by
  obtain ⟨hsettles, rfl⟩ := hs
  cases a with
  | ensure now age => exact ensure_current h now age
  | read done answered => exact read_current h done answered
  | swap done now => exact swap_current h done now
  | invalidate =>
    refine ⟨fun hset => absurd rfl hset, fun done r hr hread => ?_⟩
    exact absurd (hsettles rfl done r hr) hread
  | write tables => exact ⟨h.copy, h.readings⟩

end ViewState

/-- In every run in which the view is invalidated only while no fetch is between
its read and its swap, no copy read before an invalidation counts as fetched. -/
theorem invalidation_kept (tables : LiveTables) (as : List ViewEvent) (v : ViewState)
    (hrun : Run (Guarded ViewState.Settles ViewState.Step) { tables := tables } as v) :
    v.KeepsInvalidation := by
  have hstart : ViewState.Current { tables := tables } :=
    ⟨fun hset => absurd rfl hset, fun done r hr => by simp at hr⟩
  exact (Run.invariant (I := ViewState.Current) ViewState.current_step hrun hstart).copy

def overtaken : List ViewEvent :=
  [.ensure 0 60, .read 0 true, .write { tunnels := [{ name := "n", state := .active }] },
    .invalidate, .swap 0 5]

def ran (as : List ViewEvent) : ViewState := as.foldl ViewState.next {}

theorem run_ran (v : ViewState) (as : List ViewEvent) :
    Run ViewState.Step v as (as.foldl ViewState.next v) := by
  induction as generalizing v with
  | nil => exact .nil v
  | cons a as ih => exact .cons rfl (ih _)

/-- The copy from before the change counts as read at the time of the swap. -/
theorem overtaken_invalidation_lost :
    ¬ ∀ (tables : LiveTables) (as : List ViewEvent) (v : ViewState),
      Run ViewState.Step { tables := tables } as v → v.KeepsInvalidation := by
  intro h
  exact absurd (h {} overtaken (ran overtaken) (run_ran _ _) (by decide)) (by decide)

/-- Here the fetch ends first, and the next one reads the change. -/
theorem invalidation_kept_refetch :
    (ran [.ensure 0 60, .read 0 true, .swap 0 5, .invalidate, .ensure 6 60, .read 1 true,
      .swap 1 7]).fetched = some 7 ∧
    (ran [.ensure 0 60, .read 0 true, .swap 0 5, .invalidate, .ensure 6 60, .read 1 true,
      .swap 1 7]).KeepsInvalidation := by
  refine ⟨by decide, invalidation_kept {} [.ensure 0 60, .read 0 true, .swap 0 5, .invalidate,
    .ensure 6 60, .read 1 true, .swap 1 7] _ ?_⟩
  have hother : ∀ (v : ViewState) (a : ViewEvent), a ≠ .invalidate → ViewState.Settles v a :=
    fun v a hne heq => absurd heq hne
  refine .cons ⟨hother _ _ ViewEvent.noConfusion, rfl⟩ (.cons ⟨hother _ _ ViewEvent.noConfusion, rfl⟩
    (.cons ⟨hother _ _ ViewEvent.noConfusion, rfl⟩ (.cons ⟨fun _ done r hr => ?_, rfl⟩
      (.cons ⟨hother _ _ ViewEvent.noConfusion, rfl⟩ (.cons ⟨hother _ _ ViewEvent.noConfusion, rfl⟩
        (.cons ⟨hother _ _ ViewEvent.noConfusion, rfl⟩ (.nil _)))))))
  have hnone : ∀ i, (ran [.ensure 0 60, .read 0 true, .swap 0 5]).running.get i = none := by
    intro i
    rfl
  cases (hnone done).symm.trans hr

end L8Tunnel.Common
