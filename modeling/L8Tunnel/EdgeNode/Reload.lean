import L8Tunnel.Base.Run
import L8Tunnel.Edge.Listener

/-! # Reloading the edge's domains (tun/edgenode/node.go) -/

namespace L8Tunnel.EdgeNode
open Base Auth

def highest (rows : List EdgeDomainRow) : ℤ :=
  rows.foldl (fun version d => if d.configVersion > version then d.configVersion else version) 0

inductive Stage where
  | started
  | fetched
  | ready
  | finished
  deriving DecidableEq

/-- One reload, and when it has read the stored rows. -/
structure Pass where
  stage : Stage := .started
  rows : List EdgeDomainRow := []
  readAt : Option ℕ := none

def Pass.Underway (p : Pass) : Prop := p.stage = .fetched ∨ p.stage = .ready

/-- The edge node with the stored rows, its cache file and its reloads. -/
structure Node where
  stored : List EdgeDomainRow
  cache : Option (List EdgeDomainRow)
  edge : Edge
  inForce : List EdgeDomainRow
  reloadPending : Bool := false
  timers : ℕ := 0
  looping : Option ℕ := none
  passes : ℕ → Option Pass := fun _ => none
  clock : ℕ := 0

namespace Node

def setPass (s : Node) (i : ℕ) (p : Pass) : Node :=
  { s with passes := Function.update s.passes i (some p) }

def loopFree (s : Node) : Bool :=
  match s.looping with
  | none => true
  | some i => (s.passes i).any fun p => p.stage = .finished

/-- A reload reads, falls back to the cache, saves and applies in separate steps. -/
inductive Event where
  | change (rows : List EdgeDomainRow)
  | resync (i : ℕ)
  | push
  | fire (i : ℕ)
  | fetch (i : ℕ)
  | fallback (i : ℕ)
  | save (i : ℕ) (written : Bool)
  | apply (i : ℕ) (bind : ℤ → Bool) (order : RangeOrder)

def reloadSoon (s : Node) : Node :=
  if s.reloadPending then s else { s with reloadPending := true, timers := s.timers + 1 }

def loadCache (s : Node) (i : ℕ) : Node :=
  match s.cache with
  | none => s.setPass i { stage := .finished }
  | some rows => s.setPass i { stage := .ready, rows := rows }

def after (n : Netip) (c : Crypto) (s : Node) : Event → Option Node
  | .change rows => if highest s.stored < highest rows then some { s with stored := rows } else none
  | .resync i =>
    if s.passes i = none ∧ s.loopFree then some { s.setPass i {} with looping := some i } else none
  | .push => some s.reloadSoon
  | .fire i =>
    if s.passes i = none ∧ 0 < s.timers then
      some { s.setPass i {} with reloadPending := false, timers := s.timers - 1 }
    else none
  | .fetch i =>
    match s.passes i with
    | some ⟨.started, _, _⟩ =>
      some { s.setPass i ⟨.fetched, s.stored, some s.clock⟩ with clock := s.clock + 1 }
    | _ => none
  | .fallback i =>
    match s.passes i with
    | some ⟨.started, _, _⟩ => some (s.loadCache i)
    | _ => none
  | .save i written =>
    match s.passes i with
    | some ⟨.fetched, rows, readAt⟩ =>
      some { s.setPass i ⟨.ready, rows, readAt⟩ with
        cache := if written then some rows else s.cache }
    | _ => none
  | .apply i bind order =>
    match s.passes i with
    | some ⟨.ready, rows, readAt⟩ =>
      some { s.setPass i ⟨.finished, rows, readAt⟩ with
        edge := s.edge.apply n c bind order (rows.map EdgeDomainRow.toEdgeDomain) (highest rows)
        inForce := if s.edge.closed then s.inForce else rows }
    | _ => none

def Step (n : Netip) (c : Crypto) (s : Node) (ev : Event) (t : Node) : Prop :=
  s.after n c ev = some t

def start (n : Netip) (c : Crypto) (bind : ℤ → Bool) (order : RangeOrder) (base : EdgeDomain)
    (stored : List EdgeDomainRow) (cache : Option (List EdgeDomainRow)) : Node where
  stored := stored
  cache := cache
  edge := ({} : Edge).apply n c bind order [base] 0
  inForce := [{ base with }]

/-- A reload reads while no other one stands between its read and its `Apply`,
and the cache can be written. -/
def Event.Apart (s : Node) : Event → Prop
  | .fetch _ => ∀ j p, s.passes j = some p → ¬ Pass.Underway p
  | .fallback _ => ∀ j p, s.passes j = some p → ¬ Pass.Underway p
  | .save _ written => written = true
  | _ => True

def Later (rows rows' : List EdgeDomainRow) : Prop :=
  rows = rows' ∨ highest rows < highest rows'

theorem Later.refl (rows : List EdgeDomainRow) : Later rows rows := .inl rfl

theorem Later.trans {a b c : List EdgeDomainRow} (h : Later a b) (h' : Later b c) : Later a c := by
  rcases h with rfl | h
  · exact h'
  · rcases h' with rfl | h'
    · exact .inr h
    · exact .inr (Int.lt_trans h h')

theorem Later.le {a b : List EdgeDomainRow} (h : Later a b) : highest a ≤ highest b := by
  rcases h with rfl | h
  · exact Int.le_refl _
  · exact Int.le_of_lt h

structure Pass.Fits (s : Node) (p : Pass) : Prop where
  read : ∀ t, p.readAt = some t → t < s.clock ∧ Later p.rows s.stored
  ready : p.stage = .ready → s.cache = some p.rows
  finished : p.stage = .finished → ∀ t, p.readAt = some t →
    Later p.rows s.inForce ∧ ∃ rows, s.cache = some rows ∧ Later p.rows rows

structure Pass.Ordered (p q : Pass) : Prop where
  reads : ∀ t u, p.readAt = some t → q.readAt = some u → t < u → Later p.rows q.rows
  underway : q.Underway → p.stage = .finished → ∀ t, p.readAt = some t → Later p.rows q.rows
  one : p.Underway → ¬ q.Underway

/-- No finished reload has left an older configuration in force. -/
structure Newest (s : Node) : Prop where
  opened : s.edge.closed = false
  version : s.edge.version = highest s.inForce
  fits : ∀ i p, s.passes i = some p → Pass.Fits s p
  ordered : ∀ i j p q, i ≠ j → s.passes i = some p → s.passes j = some q → Pass.Ordered p q

theorem newest_start (n : Netip) (c : Crypto) (bind : ℤ → Bool) (order : RangeOrder)
    (base : EdgeDomain) (stored : List EdgeDomainRow) (cache : Option (List EdgeDomainRow)) :
    Newest (start n c bind order base stored cache) where
  opened := rfl
  version := rfl
  fits i p h := by cases h
  ordered i j p q _ h := by cases h

section
variable {n : Netip} {c : Crypto} {s t : Node} {i : ℕ} {p : Pass}

theorem Newest.set (h : Newest s) (ht : t.passes = Function.update s.passes i (some p))
    (hopen : t.edge.closed = false) (hversion : t.edge.version = highest t.inForce)
    (hp : Pass.Fits t p) (hold : ∀ j q, j ≠ i → s.passes j = some q → Pass.Fits t q)
    (hpairs : ∀ j q, j ≠ i → s.passes j = some q → Pass.Ordered p q ∧ Pass.Ordered q p) :
    Newest t := by
  have hget : ∀ j q, t.passes j = some q → j = i ∧ q = p ∨ j ≠ i ∧ s.passes j = some q := by
    intro j q hq
    rw [ht] at hq
    by_cases hj : j = i
    · subst hj
      rw [Function.update_self] at hq
      exact .inl ⟨rfl, (Option.some.inj hq).symm⟩
    · rw [Function.update_of_ne hj] at hq
      exact .inr ⟨hj, hq⟩
  refine ⟨hopen, hversion, fun j q hq => ?_, fun j k q r hne hq hr => ?_⟩
  · rcases hget j q hq with ⟨rfl, rfl⟩ | ⟨hj, hq⟩
    · exact hp
    · exact hold j q hj hq
  · rcases hget j q hq with ⟨rfl, rfl⟩ | ⟨hj, hq⟩
    · rcases hget k r hr with ⟨rfl, rfl⟩ | ⟨hk, hr⟩
      · exact absurd rfl hne
      · exact (hpairs k r hk hr).1
    · rcases hget k r hr with ⟨rfl, rfl⟩ | ⟨hk, hr⟩
      · exact (hpairs j q hj hq).2
      · exact h.ordered j k q r hne hq hr

theorem ordered_of_unread {p q : Pass} (hp : p.readAt = none) (hpu : ¬ p.Underway) :
    Pass.Ordered p q ∧ Pass.Ordered q p :=
  ⟨⟨fun _ _ ht => absurd (hp.symm.trans ht) nofun, fun _ _ _ ht => absurd (hp.symm.trans ht) nofun,
      fun h => absurd h hpu⟩,
    ⟨fun _ _ _ hu => absurd (hp.symm.trans hu) nofun, fun h => absurd h hpu, fun _ => hpu⟩⟩

theorem started_newest (h : Newest s) (ht : t.passes = Function.update s.passes i (some {}))
    (hstored : t.stored = s.stored) (hcache : t.cache = s.cache) (hedge : t.edge = s.edge)
    (hforce : t.inForce = s.inForce) (hclock : t.clock = s.clock) : Newest t := by
  refine h.set ht (by rw [hedge]; exact h.opened) (by rw [hedge, hforce]; exact h.version) ?_ ?_ ?_
  · exact ⟨nofun, nofun, nofun⟩
  · intro j q _ hq
    obtain ⟨hread, hready, hdone⟩ := h.fits j q hq
    rw [← hstored, ← hclock] at hread
    rw [← hcache] at hready hdone
    rw [← hforce] at hdone
    exact ⟨hread, hready, hdone⟩
  · intro j q _ _
    exact ordered_of_unread rfl (by rintro (hu | hu) <;> cases hu)

variable {rows : List EdgeDomainRow} {readAt : Option ℕ}

theorem change_newest (h : Newest s) (hlt : highest s.stored < highest rows) :
    Newest { s with stored := rows } := by
  refine ⟨h.opened, h.version, fun i p hp => ?_, h.ordered⟩
  obtain ⟨hread, hready, hdone⟩ := h.fits i p hp
  exact ⟨fun t ht => ⟨(hread t ht).1, (hread t ht).2.trans (.inr hlt)⟩, hready, hdone⟩

theorem fetch_newest (h : Newest s) (hnone : ∀ j q, s.passes j = some q → ¬ q.Underway) :
    Newest { s.setPass i ⟨.fetched, s.stored, some s.clock⟩ with clock := s.clock + 1 } := by
  refine h.set rfl h.opened h.version ?_ ?_ ?_
  · refine ⟨fun t ht => ?_, nofun, nofun⟩
    cases ht
    exact ⟨Nat.lt_succ_self _, Later.refl _⟩
  · intro j q _ hq
    obtain ⟨hread, hready, hdone⟩ := h.fits j q hq
    exact ⟨fun t ht => ⟨Nat.lt_succ_of_lt (hread t ht).1, (hread t ht).2⟩, hready, hdone⟩
  · intro j q _ hq
    have hread := (h.fits j q hq).read
    refine ⟨⟨fun t u ht hu hlt => ?_, fun hu => absurd hu (hnone j q hq), fun _ => hnone j q hq⟩,
      ⟨fun t u ht _ _ => (hread t ht).2, fun _ _ t ht => (hread t ht).2,
        fun hu => absurd hu (hnone j q hq)⟩⟩
    cases ht
    exact absurd (hread u hu).1 (Nat.lt_asymm hlt)

theorem loadCache_newest (h : Newest s) (hnone : ∀ j q, s.passes j = some q → ¬ q.Underway) :
    Newest (s.loadCache i) := by
  have hfits : ∀ j q, s.passes j = some q → ∀ p, Pass.Fits (s.setPass i p) q :=
    fun j q hq _ => ⟨(h.fits j q hq).read, (h.fits j q hq).ready, (h.fits j q hq).finished⟩
  unfold loadCache
  split
  · refine h.set rfl h.opened h.version ?_ (fun j q _ hq => hfits j q hq _) ?_
    · exact ⟨nofun, nofun, nofun⟩
    · exact fun j q _ _ => ordered_of_unread rfl (by rintro (hu | hu) <;> cases hu)
  next rows hcache =>
    refine h.set rfl h.opened h.version ?_ (fun j q _ hq => hfits j q hq _) ?_
    · exact ⟨nofun, fun _ => hcache, nofun⟩
    · intro j q _ hq
      refine ⟨⟨nofun, fun hu => absurd hu (hnone j q hq),
          fun _ => hnone j q hq⟩,
        ⟨nofun, fun _ hdone t ht => ?_, fun hu => absurd hu (hnone j q hq)⟩⟩
      obtain ⟨-, rows', hrows', hlater⟩ := (h.fits j q hq).finished hdone t ht
      rw [hcache] at hrows'
      cases hrows'
      exact hlater

theorem save_newest (h : Newest s) (hi : s.passes i = some ⟨.fetched, rows, readAt⟩) :
    Newest { s.setPass i ⟨.ready, rows, readAt⟩ with cache := some rows } := by
  refine h.set rfl h.opened h.version ?_ ?_ ?_
  · exact ⟨(h.fits i _ hi).read, fun _ => rfl, nofun⟩
  · intro j q hj hq
    obtain ⟨hread, -, hdone⟩ := h.fits j q hq
    refine ⟨hread, fun hr => ?_, fun hstage t ht => ⟨(hdone hstage t ht).1, rows, rfl, ?_⟩⟩
    · exact absurd (.inr hr) ((h.ordered i j _ q hj.symm hi hq).one (.inl rfl))
    · exact (h.ordered j i q _ hj hq hi).underway (.inl rfl) hstage t ht
  · intro j q hj hq
    obtain ⟨hreads, hunder, hone⟩ := h.ordered i j _ q hj.symm hi hq
    obtain ⟨hreads', hunder', -⟩ := h.ordered j i q _ hj hq hi
    exact ⟨⟨hreads, nofun, fun _ => hone (.inl rfl)⟩,
      ⟨hreads', fun _ => hunder' (.inl rfl), fun hu => absurd hu (hone (.inl rfl))⟩⟩

theorem apply_newest {bind : ℤ → Bool} {order : RangeOrder} (h : Newest s)
    (hi : s.passes i = some ⟨.ready, rows, readAt⟩) :
    Newest { s.setPass i ⟨.finished, rows, readAt⟩ with
      edge := s.edge.apply n c bind order (rows.map EdgeDomainRow.toEdgeDomain) (highest rows)
      inForce := if s.edge.closed then s.inForce else rows } := by
  have happly : ∀ domains version, (s.edge.apply n c bind order domains version).closed = false ∧
      (s.edge.apply n c bind order domains version).version = version := by
    intro domains version
    unfold Edge.apply
    rw [if_neg (by simp [h.opened])]
    exact ⟨h.opened, rfl⟩
  have hforce : (if s.edge.closed then s.inForce else rows) = rows := by
    rw [h.opened]
    rfl
  rw [hforce]
  refine h.set rfl (happly _ _).1 (happly _ _).2 ?_ ?_ ?_
  · obtain ⟨hread, hready, -⟩ := h.fits i _ hi
    exact ⟨hread, nofun, fun _ t ht => ⟨Later.refl _, rows, hready rfl, Later.refl _⟩⟩
  · intro j q hj hq
    obtain ⟨hread, hready, hdone⟩ := h.fits j q hq
    refine ⟨hread, hready, fun hstage t ht => ⟨?_, (hdone hstage t ht).2⟩⟩
    exact (h.ordered j i q _ hj hq hi).underway (.inr rfl) hstage t ht
  · intro j q hj hq
    obtain ⟨hreads, hunder, hone⟩ := h.ordered i j _ q hj.symm hi hq
    obtain ⟨hreads', -, -⟩ := h.ordered j i q _ hj hq hi
    have hfin : ¬ Pass.Underway ⟨.finished, rows, readAt⟩ := by rintro (hu | hu) <;> cases hu
    exact ⟨⟨hreads, fun hu => absurd hu (hone (.inr rfl)), fun hu => absurd hu hfin⟩,
      ⟨hreads', fun hu => absurd hu hfin, fun _ => hfin⟩⟩

/-- What one reload or change keeps, for reloads that do not overlap. -/
theorem Newest.step {ev : Event} (h : Newest s) (hapart : ev.Apart s) (hs : Step n c s ev t) :
    Newest t := by
  unfold Step after at hs
  cases ev with
  | change rows =>
    dsimp only at hs
    split at hs
    next hlt =>
      cases hs
      exact change_newest h hlt
    next => cases hs
  | resync i =>
    dsimp only at hs
    split at hs
    next =>
      cases hs
      exact started_newest h rfl rfl rfl rfl rfl rfl
    next => cases hs
  | push =>
    cases hs
    unfold reloadSoon
    split
    · exact h
    · exact ⟨h.opened, h.version, fun i p hp => ⟨(h.fits i p hp).read, (h.fits i p hp).ready,
        (h.fits i p hp).finished⟩, h.ordered⟩
  | fire i =>
    dsimp only at hs
    split at hs
    next =>
      cases hs
      exact started_newest h rfl rfl rfl rfl rfl rfl
    next => cases hs
  | fetch i =>
    dsimp only at hs
    split at hs
    next =>
      cases hs
      exact fetch_newest h hapart
    next => cases hs
  | fallback i =>
    dsimp only at hs
    split at hs
    next =>
      cases hs
      exact loadCache_newest h hapart
    next => cases hs
  | save i written =>
    cases hapart
    dsimp only at hs
    split at hs
    next rows readAt hi =>
      cases hs
      exact save_newest h hi
    next => cases hs
  | apply i bind order =>
    dsimp only at hs
    split at hs
    next rows readAt hi =>
      cases hs
      exact apply_newest h hi
    next => cases hs

end

/-- When reloads do not overlap, an edge that has applied what it read at a later
time is not configured by what it read before. -/
theorem reload_never_older {n : Netip} {c : Crypto} {bind : ℤ → Bool} {order : RangeOrder}
    {base : EdgeDomain} {stored : List EdgeDomainRow} {cache : Option (List EdgeDomainRow)}
    {evs : List Event} {s : Node} {i j t u : ℕ} {p q : Pass}
    (hrun : Run (Guarded Event.Apart (Step n c)) (start n c bind order base stored cache) evs s)
    (hp : s.passes i = some p) (hq : s.passes j = some q) (ht : p.readAt = some t)
    (hu : q.readAt = some u) (hlt : t < u) (hqf : q.stage = .finished) (hne : p.rows ≠ q.rows) :
    s.inForce ≠ p.rows ∧ s.edge.version ≠ highest p.rows := by
  have h : Newest s := hrun.invariant (I := Newest) (fun _ _ _ h hs => h.step hs.1 hs.2)
    (newest_start n c bind order base stored cache)
  have hij : i ≠ j := by
    rintro rfl
    rw [hp] at hq
    cases hq
    rw [ht] at hu
    cases hu
    exact Nat.lt_irrefl _ hlt
  have hold := ((h.ordered i j p q hij hp hq).reads t u ht hu hlt).resolve_left hne
  have hnew := ((h.fits j q hq).finished hqf u hu).1.le
  have hgt : highest p.rows < highest s.inForce := Int.lt_of_lt_of_le hold hnew
  refine ⟨fun heq => ?_, fun heq => ?_⟩
  · rw [heq] at hgt
    exact Int.lt_irrefl _ hgt
  · rw [h.version] at heq
    rw [heq] at hgt
    exact Int.lt_irrefl _ hgt

def versionOf (version : ℤ) : List EdgeDomainRow :=
  [{ domainId := "d", domain := "a.io", kind := .site, configVersion := version }]

def booted : Node :=
  start .plain .plain (fun _ => true) RangeOrder.stored {} (versionOf 1) none

def played (evs : List Event) : Node :=
  evs.foldl (fun s ev => (s.after .plain .plain ev).getD s) booted

def finishes (i : ℕ) : List Event := [.save i true, .apply i (fun _ => true) RangeOrder.stored]

def inTurn : List Event :=
  [.resync 0, .fetch 0] ++ finishes 0 ++ [.change (versionOf 2), .push, .fire 1, .fetch 1] ++
    finishes 1

theorem inTurn_run : Run (Guarded Event.Apart (Step .plain .plain)) booted inTurn
    (played inTurn) := by
  have hfirst : Event.Apart (played [.resync 0]) (.fetch 0) := by
    intro j p hp
    rcases j with _ | k
    · cases hp
      rintro (hu | hu) <;> cases hu
    · cases hp
  have hsecond : Event.Apart
      (played ([.resync 0, .fetch 0] ++ finishes 0 ++ [.change (versionOf 2), .push, .fire 1]))
      (.fetch 1) := by
    intro j p hp
    rcases j with _ | _ | k
    · cases hp
      rintro (hu | hu) <;> cases hu
    · cases hp
      rintro (hu | hu) <;> cases hu
    · cases hp
  exact .cons ⟨trivial, rfl⟩ (.cons ⟨hfirst, rfl⟩ (.cons ⟨rfl, rfl⟩ (.cons ⟨trivial, rfl⟩
    (.cons ⟨trivial, rfl⟩ (.cons ⟨trivial, rfl⟩ (.cons ⟨trivial, rfl⟩ (.cons ⟨hsecond, rfl⟩
      (.cons ⟨rfl, rfl⟩ (.cons ⟨trivial, rfl⟩ (.nil _))))))))))

theorem reload_never_older_in_turn :
    (played inTurn).inForce ≠ versionOf 1 ∧ (played inTurn).edge.version ≠ 1 :=
  reload_never_older (i := 0) (j := 1) (p := ⟨.finished, versionOf 1, some 0⟩)
    (q := ⟨.finished, versionOf 2, some 1⟩) inTurn_run rfl rfl rfl rfl Nat.one_pos rfl (by decide)

def overtaken : List Event :=
  [.resync 0, .fetch 0, .change (versionOf 2), .push, .fire 1, .fetch 1] ++ finishes 1 ++
    finishes 0

/-- A reload that is overtaken puts the older configuration back. -/
theorem older_configuration_applied :
    ¬ ∀ (n : Netip) (c : Crypto) (bind : ℤ → Bool) (order : RangeOrder) (base : EdgeDomain)
      (stored : List EdgeDomainRow) (cache : Option (List EdgeDomainRow)) (evs : List Event)
      (s : Node) (i j t u : ℕ) (p q : Pass),
      Run (Step n c) (start n c bind order base stored cache) evs s → s.passes i = some p →
      s.passes j = some q → p.readAt = some t → q.readAt = some u → t < u →
      p.stage = .finished → q.stage = .finished → p.rows ≠ q.rows → s.inForce ≠ p.rows := by
  intro h
  have hrun : Run (Step .plain .plain) booted overtaken (played overtaken) :=
    .cons rfl (.cons rfl (.cons rfl (.cons rfl (.cons rfl (.cons rfl (.cons rfl (.cons rfl
      (.cons rfl (.cons rfl (.nil _))))))))))
  exact h _ _ _ _ _ _ _ _ _ 0 1 0 1 ⟨.finished, versionOf 1, some 0⟩
    ⟨.finished, versionOf 2, some 1⟩ hrun rfl rfl rfl rfl Nat.one_pos rfl rfl (by decide) rfl

end Node
end L8Tunnel.EdgeNode
