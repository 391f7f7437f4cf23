import L8Tunnel.Live.Routing

/-! # Reconciling the live tables (tun/live/registry.go, sink.go, views.go) -/

namespace L8Tunnel.Live
open Base Claims

def changeFor (existed : Bool) : Change := if existed then .updated else .created

structure Snapshot where
  tunnels : List TunLiveTunnel
  agents : List TunAgent
  relays : List TunRelay

def snapshot (e : Engine) (order : RangeOrder) : Snapshot :=
  ⟨order.visit e.tunnels.values, order.visit e.agents.values, order.visit e.relays.values⟩

inductive LiveTable where
  | tunnels | agents | relays
  deriving DecidableEq

section
variable {ν : Type} {key : ν → String}

def passOver (told : ν → Change → Claims.Event) (blank : String → ν) (snap : List ν)
    (rows : Table key) (order : RangeOrder) : List Claims.Event :=
  snap.map (fun t => told t (changeFor (rows.get (key t)).isSome)) ++
    ((rows.range order).filter fun k => snap.all fun t => key t ≠ k).map
      fun k => told (blank k) .deleted

end

def tableWrites (snap : Snapshot) (v : Views) (order : RangeOrder) : LiveTable → List Claims.Event
  | .tunnels => passOver .tunnelChanged (fun name => { name := name }) snap.tunnels v.tunnels order
  | .agents => passOver .agentChanged (fun id => { agentId := id }) snap.agents v.agents order
  | .relays => passOver .relayChanged (fun id => { relayId := id }) snap.relays v.relays order

/-- The reconciliation: it takes a snapshot, lists table by table and writes row by row. -/
inductive Phase where
  | waiting
  | running (snap : Snapshot) (todo : List LiveTable) (writes : List Claims.Event)
  | finished

/-- The engine, the stored tables, what the sink has still to write and the reconciliation. -/
structure Mirror where
  engine : Engine
  views : Views
  pending : List Claims.Event := []
  phase : Phase := .waiting

inductive MirrorAct where
  | call (env : Env) (c : Call)
  | apply
  | snapshot (order : RangeOrder)
  | list (order : RangeOrder)
  | write
  | finish

/-- A call waits for the sink; the reconciliation's reads and writes come at any time. -/
inductive MirrorStep (cfg : Config) : Mirror → MirrorAct → Mirror → Prop where
  | call {s : Mirror} (env : Env) (c : Call) : s.pending = [] →
      MirrorStep cfg s (.call env c) { s with
        engine := s.engine.call cfg.withDefaults env c
        pending := toldSince s.engine (s.engine.call cfg.withDefaults env c) }
  | apply {s : Mirror} {ev : Claims.Event} {rest : List Claims.Event} : s.pending = ev :: rest →
      MirrorStep cfg s .apply { s with views := s.views.apply ev, pending := rest }
  | snapshot {s : Mirror} (order : RangeOrder) : s.pending = [] →
      (s.phase = .waiting ∨ s.phase = .finished) →
      MirrorStep cfg s (.snapshot order) { s with
        phase := .running (snapshot s.engine order) [.tunnels, .agents, .relays] [] }
  | list {s : Mirror} {snap : Snapshot} {table : LiveTable} {todo : List LiveTable}
      (order : RangeOrder) : s.phase = .running snap (table :: todo) [] →
      MirrorStep cfg s (.list order) { s with
        phase := .running snap todo (tableWrites snap s.views order table) }
  | write {s : Mirror} {snap : Snapshot} {todo : List LiveTable} {ev : Claims.Event}
      {writes : List Claims.Event} : s.phase = .running snap todo (ev :: writes) →
      MirrorStep cfg s .write { s with
        views := s.views.apply ev, phase := .running snap todo writes }
  | finish {s : Mirror} {snap : Snapshot} : s.phase = .running snap [] [] →
      MirrorStep cfg s .finish { s with phase := .finished }

structure SameTables (v : Views) (e : Engine) : Prop where
  tunnels : ∀ n, v.tunnels.get n = e.tunnels.get n
  agents : ∀ id, v.agents.get id = e.agents.get id
  relays : ∀ id, v.relays.get id = e.relays.get id

structure RowKey where
  table : LiveTable
  key : String
  deriving DecidableEq

inductive LiveRow where
  | tunnel (t : TunLiveTunnel)
  | agent (a : TunAgent)
  | relay (r : TunRelay)

def rowAt (v : Views) (k : RowKey) : Option LiveRow :=
  match k.table with
  | .tunnels => (v.tunnels.get k.key).map .tunnel
  | .agents => (v.agents.get k.key).map .agent
  | .relays => (v.relays.get k.key).map .relay

def rowOf : Claims.Event → Option RowKey
  | .tunnelChanged t _ => some ⟨.tunnels, t.name⟩
  | .agentChanged a _ => some ⟨.agents, a.agentId⟩
  | .relayChanged r _ => some ⟨.relays, r.relayId⟩
  | .command _ => none

def valueOf : Claims.Event → Option LiveRow
  | .tunnelChanged t change => if change = .deleted then none else some (.tunnel t)
  | .agentChanged a change => if change = .deleted then none else some (.agent a)
  | .relayChanged r change => if change = .deleted then none else some (.relay r)
  | .command _ => none

def snapAt (snap : Snapshot) (k : RowKey) : Option LiveRow :=
  match k.table with
  | .tunnels => (snap.tunnels.find? fun t => t.name = k.key).map .tunnel
  | .agents => (snap.agents.find? fun a => a.agentId = k.key).map .agent
  | .relays => (snap.relays.find? fun r => r.relayId = k.key).map .relay

def Phase.mayWrite : Phase → RowKey → Prop
  | .running _ todo writes, k => k.table ∈ todo ∨ ∃ ev ∈ writes, rowOf ev = some k
  | _, _ => False

/-- The condition: a request changes no row that the reconcile pass may still
write. -/
def SparesRows (cfg : Config) (s : Mirror) (a : MirrorAct) : Prop :=
  ∀ env c, a = .call env c →
    ∀ ev ∈ toldSince s.engine (s.engine.call cfg.withDefaults env c), ∀ k, rowOf ev = some k →
      ¬ s.phase.mayWrite k

section
variable {ν : Type} {key : ν → String}

theorem applyChange_get (t : Table key) (rec : ν) (change : Change) (k : String) :
    (applyChange t rec change).get k =
      if k = key rec then if change = .deleted then none else some rec else t.get k := by
  cases change with
  | deleted => exact Table.get_del t (key rec) k
  | created => exact Table.get_put t rec k
  | updated => exact Table.get_put t rec k
  | moved => exact Table.get_put t rec k

end

theorem apply_rowAt (v : Views) (ev : Claims.Event) (k : RowKey) :
    rowAt (v.apply ev) k = if rowOf ev = some k then valueOf ev else rowAt v k := by
  obtain ⟨table, key⟩ := k
  cases ev with
  | command cmd => rfl
  | tunnelChanged t change =>
    cases table with
    | tunnels =>
      simp only [rowAt, Views.apply, rowOf, valueOf, applyChange_get]
      by_cases hk : key = t.name
      · by_cases hd : change = .deleted <;> simp [hk, hd]
      · simp [hk, Ne.symm hk]
    | agents => simp [rowAt, Views.apply, rowOf]
    | relays => simp [rowAt, Views.apply, rowOf]
  | agentChanged a change =>
    cases table with
    | agents =>
      simp only [rowAt, Views.apply, rowOf, valueOf, applyChange_get]
      by_cases hk : key = a.agentId
      · by_cases hd : change = .deleted <;> simp [hk, hd]
      · simp [hk, Ne.symm hk]
    | tunnels => simp [rowAt, Views.apply, rowOf]
    | relays => simp [rowAt, Views.apply, rowOf]
  | relayChanged r change =>
    cases table with
    | relays =>
      simp only [rowAt, Views.apply, rowOf, valueOf, applyChange_get]
      by_cases hk : key = r.relayId
      · by_cases hd : change = .deleted <;> simp [hk, hd]
      · simp [hk, Ne.symm hk]
    | tunnels => simp [rowAt, Views.apply, rowOf]
    | agents => simp [rowAt, Views.apply, rowOf]

variable {v : Views} {k : RowKey} {snap : Snapshot}

theorem replay_rowAt_other {evs : List Claims.Event} (h : ∀ ev ∈ evs, rowOf ev ≠ some k) :
    rowAt (v.replay evs) k = rowAt v k := by
  induction evs generalizing v with
  | nil => rfl
  | cons ev evs ih =>
    obtain ⟨hev, hrest⟩ := List.forall_mem_cons.mp h
    show rowAt ((v.apply ev).replay evs) k = _
    rw [ih hrest, apply_rowAt, if_neg hev]

theorem replay_rowAt_congr {w : Views} (evs : List Claims.Event) (h : rowAt v k = rowAt w k) :
    rowAt (v.replay evs) k = rowAt (w.replay evs) k := by
  induction evs generalizing v w with
  | nil => exact h
  | cons ev evs ih =>
    refine ih ?_
    rw [apply_rowAt, apply_rowAt, h]

theorem toldSince_replay (e : Engine) (cfg : Config) (env : Env) (c : Call) :
    e.views.replay (toldSince e (e.call cfg env c)) = (e.call cfg env c).views := by
  obtain ⟨evs, hsink, hviews⟩ := (e.call_tells cfg env c).events
  rw [toldSince, hsink, List.drop_left]
  exact hviews

section
variable {ν : Type} {key : ν → String}

def Distinct (key : ν → String) (l : List ν) : Prop :=
  ∀ a ∈ l, ∀ b ∈ l, key a = key b → a = b

theorem Distinct.find {l : List ν} (h : Distinct key l) (k : String) (v : ν) :
    l.find? (fun v => key v = k) = some v ↔ v ∈ l ∧ key v = k :=
  find_unique_iff (fun a ha b hb (hak : key a = k) (hbk : key b = k) =>
    h a ha b hb (hak.trans hbk.symm)) v

theorem mem_visit (t : Table key) (order : RangeOrder) (v : ν) :
    v ∈ order.visit t.values ↔ t.get (key v) = some v :=
  (order.perm _).mem_iff.trans (t.mem_values v)

theorem visit_distinct (t : Table key) (order : RangeOrder) :
    Distinct key (order.visit t.values) := by
  intro a ha b hb hk
  rw [mem_visit] at ha hb
  rw [hk, hb] at ha
  exact (Option.some.inj ha).symm

theorem find_visit (t : Table key) (order : RangeOrder) (k : String) :
    (order.visit t.values).find? (fun v => key v = k) = t.get k := by
  refine Option.ext fun v => ?_
  rw [(visit_distinct t order).find, mem_visit]
  constructor
  · rintro ⟨hget, rfl⟩
    exact hget
  · intro hget
    have hk : key v = k := Table.key_of_get hget
    exact ⟨hk ▸ hget, hk⟩

variable {told : ν → Change → Claims.Event} {blank : String → ν} {snap : List ν} {rows : Table key}
  {order : RangeOrder}

theorem mem_passOver (hsnap : Distinct key snap) {ev : Claims.Event}
    (hev : ev ∈ passOver told blank snap rows order) :
    (∃ t change, ev = told t change ∧ change ≠ .deleted ∧
      snap.find? (fun v => key v = key t) = some t) ∨
    ∃ k, ev = told (blank k) .deleted ∧ snap.find? (fun v => key v = k) = none := by
  unfold passOver at hev
  rcases List.mem_append.mp hev with hput | hdel
  · obtain ⟨t, ht, rfl⟩ := List.mem_map.mp hput
    refine .inl ⟨t, _, rfl, ?_, (hsnap.find _ t).mpr ⟨ht, rfl⟩⟩
    unfold changeFor
    split <;> decide
  · obtain ⟨k, hk, rfl⟩ := List.mem_map.mp hdel
    refine .inr ⟨k, rfl, List.find?_eq_none.mpr fun v hv => ?_⟩
    have hnot := List.all_eq_true.mp (List.mem_filter.mp hk).2 v hv
    simpa using hnot

theorem passOver_complete (hsnap : Distinct key snap) {k : String}
    (hput : ∀ t change, key t = k → told t change ∉ passOver told blank snap rows order)
    (hdel : told (blank k) .deleted ∉ passOver told blank snap rows order) :
    snap.find? (fun v => key v = k) = none ∧ rows.get k = none := by
  have hnone : snap.find? (fun v => key v = k) = none := by
    cases hfind : snap.find? fun v => key v = k with
    | none => rfl
    | some t =>
      obtain ⟨ht, hk⟩ := (hsnap.find k t).mp hfind
      exact absurd (List.mem_append_left _ (List.mem_map_of_mem ht)) (hput t _ hk)
  refine ⟨hnone, ?_⟩
  cases hrow : rows.get k with
  | none => rfl
  | some row =>
    refine absurd (List.mem_append_right _ (List.mem_map.mpr ⟨k, ?_, rfl⟩)) hdel
    refine List.mem_filter.mpr ⟨(Table.mem_range rows order k).mpr ⟨row, hrow⟩, ?_⟩
    rw [List.all_eq_true]
    intro t ht
    have hnot := List.find?_eq_none.mp hnone t ht
    simpa using hnot

end

structure Snapshot.Keyed (snap : Snapshot) : Prop where
  tunnels : Distinct TunLiveTunnel.name snap.tunnels
  agents : Distinct TunAgent.agentId snap.agents
  relays : Distinct TunRelay.relayId snap.relays

theorem snapshot_keyed (e : Engine) (order : RangeOrder) : (snapshot e order).Keyed :=
  ⟨visit_distinct _ _, visit_distinct _ _, visit_distinct _ _⟩

theorem snapshot_at (e : Engine) (order : RangeOrder) (k : RowKey) :
    snapAt (snapshot e order) k = rowAt e.views k := by
  obtain ⟨table, key⟩ := k
  cases table with
  | tunnels => exact congrArg (Option.map LiveRow.tunnel) (find_visit e.tunnels order key)
  | agents => exact congrArg (Option.map LiveRow.agent) (find_visit e.agents order key)
  | relays => exact congrArg (Option.map LiveRow.relay) (find_visit e.relays order key)

theorem tableWrites_value (hsnap : snap.Keyed) (v : Views) (order : RangeOrder) (table : LiveTable)
    {ev : Claims.Event} (hev : ev ∈ tableWrites snap v order table) :
    ∃ k, rowOf ev = some k ∧ k.table = table ∧ valueOf ev = snapAt snap k := by
  cases table with
  | tunnels =>
    rcases mem_passOver hsnap.tunnels hev with ⟨t, change, rfl, hchange, hfind⟩ | ⟨k, rfl, hfind⟩
    · exact ⟨⟨.tunnels, t.name⟩, rfl, rfl, by simp [valueOf, snapAt, hchange, hfind]⟩
    · exact ⟨⟨.tunnels, k⟩, rfl, rfl, by simp [valueOf, snapAt, hfind]⟩
  | agents =>
    rcases mem_passOver hsnap.agents hev with ⟨t, change, rfl, hchange, hfind⟩ | ⟨k, rfl, hfind⟩
    · exact ⟨⟨.agents, t.agentId⟩, rfl, rfl, by simp [valueOf, snapAt, hchange, hfind]⟩
    · exact ⟨⟨.agents, k⟩, rfl, rfl, by simp [valueOf, snapAt, hfind]⟩
  | relays =>
    rcases mem_passOver hsnap.relays hev with ⟨t, change, rfl, hchange, hfind⟩ | ⟨k, rfl, hfind⟩
    · exact ⟨⟨.relays, t.relayId⟩, rfl, rfl, by simp [valueOf, snapAt, hchange, hfind]⟩
    · exact ⟨⟨.relays, k⟩, rfl, rfl, by simp [valueOf, snapAt, hfind]⟩

theorem tableWrites_complete (hsnap : snap.Keyed) {order : RangeOrder}
    (h : ∀ ev ∈ tableWrites snap v order k.table, rowOf ev ≠ some k) :
    snapAt snap k = none ∧ rowAt v k = none := by
  obtain ⟨table, key⟩ := k
  cases table with
  | tunnels =>
    obtain ⟨hfind, hrow⟩ := passOver_complete (k := key) hsnap.tunnels
      (fun t change hk hmem => h _ hmem (by rw [← hk]; rfl)) fun hmem => h _ hmem rfl
    exact ⟨by simp [snapAt, hfind], by simp [rowAt, hrow]⟩
  | agents =>
    obtain ⟨hfind, hrow⟩ := passOver_complete (k := key) hsnap.agents
      (fun t change hk hmem => h _ hmem (by rw [← hk]; rfl)) fun hmem => h _ hmem rfl
    exact ⟨by simp [snapAt, hfind], by simp [rowAt, hrow]⟩
  | relays =>
    obtain ⟨hfind, hrow⟩ := passOver_complete (k := key) hsnap.relays
      (fun t change hk hmem => h _ hmem (by rw [← hk]; rfl)) fun hmem => h _ hmem rfl
    exact ⟨by simp [snapAt, hfind], by simp [rowAt, hrow]⟩

def Mirror.Settled (s : Mirror) (k : RowKey) : Prop :=
  rowAt (s.views.replay s.pending) k = rowAt s.engine.views k

def Mirror.Still (s : Mirror) (k : RowKey) : Prop := ∀ ev ∈ s.pending, rowOf ev ≠ some k

/-- What is not yet listed or written is still what the engine has; the rest is settled. -/
structure Mirror.Reconciling (s : Mirror) (snap : Snapshot) (todo : List LiveTable)
    (writes : List Claims.Event) : Prop where
  keyed : snap.Keyed
  unlisted : ∀ k, k.table ∈ todo → snapAt snap k = rowAt s.engine.views k ∧ s.Still k
  unwritten : ∀ ev ∈ writes, ∀ k, rowOf ev = some k →
    valueOf ev = rowAt s.engine.views k ∧ s.Still k
  settled : ∀ k, k.table ∉ todo → (∀ ev ∈ writes, rowOf ev ≠ some k) → s.Settled k

structure Mirror.Follows (s : Mirror) : Prop where
  running : ∀ snap todo writes, s.phase = .running snap todo writes →
    s.Reconciling snap todo writes
  finished : s.phase = .finished → ∀ k, s.Settled k

section
variable {cfg : Config} {s : Mirror} {todo : List LiveTable}
variable {writes : List Claims.Event}
variable {ev : Claims.Event} {rest : List Claims.Event}

theorem Mirror.Settled.call (h : s.Settled k) (hidle : s.pending = []) (env : Env) (c : Call) :
    Mirror.Settled { s with
      engine := s.engine.call cfg.withDefaults env c
      pending := toldSince s.engine (s.engine.call cfg.withDefaults env c) } k := by
  unfold Mirror.Settled at h ⊢
  rw [hidle] at h
  rw [← toldSince_replay]
  exact replay_rowAt_congr _ h

theorem call_rowAt (e : Engine) (env : Env) (c : Call)
    (hspared : ∀ ev ∈ toldSince e (e.call cfg.withDefaults env c), rowOf ev ≠ some k) :
    rowAt (e.call cfg.withDefaults env c).views k = rowAt e.views k := by
  rw [← toldSince_replay]
  exact replay_rowAt_other hspared

theorem Mirror.Reconciling.call (h : s.Reconciling snap todo writes) (hidle : s.pending = [])
    (env : Env) (c : Call)
    (hspared : ∀ ev ∈ toldSince s.engine (s.engine.call cfg.withDefaults env c), ∀ k,
      rowOf ev = some k → ¬ (Phase.running snap todo writes).mayWrite k) :
    Mirror.Reconciling { s with
      engine := s.engine.call cfg.withDefaults env c
      pending := toldSince s.engine (s.engine.call cfg.withDefaults env c) } snap todo writes := by
  have hstill : ∀ k, (Phase.running snap todo writes).mayWrite k →
      ∀ ev ∈ toldSince s.engine (s.engine.call cfg.withDefaults env c), rowOf ev ≠ some k :=
    fun k hmay ev hev hrow => hspared ev hev k hrow hmay
  refine ⟨h.keyed, ?_, ?_, fun k htodo hwrites => (h.settled k htodo hwrites).call hidle env c⟩
  · intro k hk
    have hleft := hstill k (.inl hk)
    exact ⟨(h.unlisted k hk).1.trans (call_rowAt s.engine env c hleft).symm, hleft⟩
  · intro ev hev k hrow
    have hleft := hstill k (.inr ⟨ev, hev, hrow⟩)
    exact ⟨(h.unwritten ev hev k hrow).1.trans (call_rowAt s.engine env c hleft).symm, hleft⟩

theorem Mirror.Settled.apply (h : s.Settled k) (hpending : s.pending = ev :: rest) :
    Mirror.Settled { s with views := s.views.apply ev, pending := rest } k := by
  unfold Mirror.Settled at h
  rw [hpending] at h
  exact h

theorem Mirror.Reconciling.apply (h : s.Reconciling snap todo writes)
    (hpending : s.pending = ev :: rest) :
    Mirror.Reconciling { s with views := s.views.apply ev, pending := rest } snap todo writes := by
  have hstill : ∀ k, s.Still k → ∀ ev ∈ rest, rowOf ev ≠ some k := by
    intro k hk ev' hev'
    exact hk ev' (by rw [hpending]; exact List.mem_cons_of_mem ev hev')
  refine ⟨h.keyed, ?_, ?_, fun k htodo hwrites => (h.settled k htodo hwrites).apply hpending⟩
  · intro k hk
    exact ⟨(h.unlisted k hk).1, hstill k (h.unlisted k hk).2⟩
  · intro ev' hev' k hrow
    exact ⟨(h.unwritten ev' hev' k hrow).1, hstill k (h.unwritten ev' hev' k hrow).2⟩

theorem Mirror.Reconciling.snapshot (hidle : s.pending = []) (order : RangeOrder) :
    s.Reconciling (snapshot s.engine order) [.tunnels, .agents, .relays] [] := by
  have hall : ∀ table : LiveTable, table ∈ [.tunnels, .agents, .relays] := by
    intro table
    cases table <;> decide
  refine ⟨snapshot_keyed s.engine order, ?_, fun ev hev => by simp at hev,
    fun k htodo => absurd (hall k.table) htodo⟩
  intro k _
  refine ⟨snapshot_at s.engine order k, ?_⟩
  intro ev hev
  rw [hidle] at hev
  cases hev

theorem Mirror.Reconciling.list {table : LiveTable} (h : s.Reconciling snap (table :: todo) [])
    (order : RangeOrder) : s.Reconciling snap todo (tableWrites snap s.views order table) := by
  refine ⟨h.keyed, fun k hk => h.unlisted k (List.mem_cons_of_mem _ hk), ?_, ?_⟩
  · intro ev hev k hrow
    obtain ⟨k', hrow', htable, hvalue⟩ := tableWrites_value h.keyed s.views order table hev
    obtain rfl : k' = k := Option.some.inj (hrow'.symm.trans hrow)
    obtain ⟨hsnap, hstill⟩ := h.unlisted k' (by rw [htable]; exact List.mem_cons_self ..)
    exact ⟨hvalue.trans hsnap, hstill⟩
  · intro k htodo hwrites
    by_cases htable : k.table = table
    · subst htable
      obtain ⟨hsnap, hrow⟩ := tableWrites_complete h.keyed hwrites
      obtain ⟨hengine, hstill⟩ := h.unlisted k (List.mem_cons_self ..)
      unfold Mirror.Settled
      rw [replay_rowAt_other hstill, hrow, ← hengine, hsnap]
    · exact h.settled k (fun hk => (List.mem_cons.mp hk).elim htable htodo)
        (fun ev hev => by cases hev)

theorem Mirror.Reconciling.write (h : s.Reconciling snap todo (ev :: writes)) :
    Mirror.Reconciling { s with views := s.views.apply ev, phase := .running snap todo writes }
      snap todo writes := by
  refine ⟨h.keyed, h.unlisted, fun ev' hev' => h.unwritten ev' (List.mem_cons_of_mem ev hev'), ?_⟩
  intro k htodo hwrites
  show rowAt ((s.views.apply ev).replay s.pending) k = rowAt s.engine.views k
  by_cases hrow : rowOf ev = some k
  · obtain ⟨hvalue, hstill⟩ := h.unwritten ev (List.mem_cons_self ..) k hrow
    rw [replay_rowAt_other hstill, apply_rowAt, if_pos hrow, hvalue]
  · have hsame : rowAt (s.views.apply ev) k = rowAt s.views k := by
      rw [apply_rowAt, if_neg hrow]
    rw [replay_rowAt_congr s.pending hsame]
    exact h.settled k htodo (List.forall_mem_cons.mpr ⟨hrow, hwrites⟩)

end

theorem Mirror.Follows.step {cfg : Config} {s t : Mirror} {a : MirrorAct} (h : s.Follows)
    (hstep : Guarded (SparesRows cfg) (MirrorStep cfg) s a t) : t.Follows := by
  obtain ⟨hspared, hstep⟩ := hstep
  cases hstep with
  | call env c hidle =>
    refine ⟨fun snap todo writes hphase => ?_, fun hphase k => (h.finished hphase k).call hidle env c⟩
    refine (h.running snap todo writes hphase).call hidle env c fun ev hev k hrow => ?_
    rw [← show s.phase = .running snap todo writes from hphase]
    exact hspared env c rfl ev hev k hrow
  | apply hpending =>
    exact ⟨fun snap todo writes hphase => (h.running snap todo writes hphase).apply hpending,
      fun hphase k => (h.finished hphase k).apply hpending⟩
  | snapshot order hidle _ =>
    refine ⟨fun snap todo writes hphase => ?_, Phase.noConfusion⟩
    cases hphase
    have hnew := Mirror.Reconciling.snapshot hidle order
    exact ⟨hnew.keyed, hnew.unlisted, hnew.unwritten, hnew.settled⟩
  | list order hphase =>
    have hnew := (h.running _ _ _ hphase).list order
    refine ⟨fun snap todo writes hphase => ?_, Phase.noConfusion⟩
    cases hphase
    exact ⟨hnew.keyed, hnew.unlisted, hnew.unwritten, hnew.settled⟩
  | write hphase =>
    have hnew := (h.running _ _ _ hphase).write
    refine ⟨fun snap todo writes hphase => ?_, Phase.noConfusion⟩
    cases hphase
    exact hnew
  | finish hphase =>
    have hdone := h.running _ _ _ hphase
    refine ⟨fun snap todo writes hphase => by simp at hphase, fun _ k => ?_⟩
    exact hdone.settled k List.not_mem_nil fun ev hev => by simp at hev

theorem sameTables_of_rowAt {e : Engine} (h : ∀ k, rowAt v k = rowAt e.views k) :
    SameTables v e := by
  refine ⟨fun n => ?_, fun id => ?_, fun id => ?_⟩
  · exact Option.map_injective (fun _ _ => LiveRow.tunnel.inj) (h ⟨.tunnels, n⟩)
  · exact Option.map_injective (fun _ _ => LiveRow.agent.inj) (h ⟨.agents, id⟩)
  · exact Option.map_injective (fun _ _ => LiveRow.relay.inj) (h ⟨.relays, id⟩)

/-- Whatever the tables held before, in every run whose requests change no row
that the reconcile pass may still write, the tables are the engine's once the
pass and the requests have finished. -/
theorem reconcile_keeps_updates (cfg : Config) (e : Engine) (v : Views) (as : List MirrorAct)
    (s : Mirror)
    (hrun : Run (Guarded (SparesRows cfg) (MirrorStep cfg)) { engine := e, views := v } as s)
    (hpass : s.phase = .finished) (hidle : s.pending = []) : SameTables s.views s.engine := by
  have hstart : Mirror.Follows { engine := e, views := v } :=
    ⟨fun _ _ _ => Phase.noConfusion, Phase.noConfusion⟩
  have hend : s.Follows := Run.invariant (I := Mirror.Follows) (fun _ _ _ => .step) hrun hstart
  refine sameTables_of_rowAt fun k => ?_
  have hsettled := hend.finished hpass k
  rw [Mirror.Settled, hidle] at hsettled
  exact hsettled

def claimPlain : MirrorAct := .call { now := 0 } (reclaim "s1" [plainTunnel])

def activePlain : TunLiveTunnel :=
  { plainTunnel with
    relayId := "r0", sessionId := "s1", agentId := "a1", tokenId := "tok1", state := .active }

theorem servedPlain_told : toldSince Engine.new servedPlain = [.tunnelChanged activePlain .created] := by
  decide

/-- The tunnels' rows are listed and stored before the claim comes. -/
theorem reconcile_keeps_updates_claim :
    ∃ v : Views, v.tunnels.get "n" ≠ none ∧ SameTables v servedPlain := by
  have hspare : ∀ (s : Mirror) (a : MirrorAct), (∀ env c, a ≠ .call env c) →
      SparesRows sampleConfig s a := fun s a hne env c heq => absurd heq (hne env c)
  have hclaim : SparesRows sampleConfig
      { engine := Engine.new, views := {}, phase := .running (snapshot Engine.new .stored)
          [.agents, .relays] [] } claimPlain := by
    intro env c hcall ev hev k hrow hmay
    obtain ⟨rfl, rfl⟩ := MirrorAct.call.inj hcall
    obtain rfl := List.mem_singleton.mp (servedPlain_told ▸ hev)
    obtain rfl := Option.some.inj hrow
    rcases hmay with htodo | ⟨ev, hwrite, -⟩
    · exact absurd htodo (by decide)
    · cases hwrite
  have hrun : Run (Guarded (SparesRows sampleConfig) (MirrorStep sampleConfig))
      { engine := Engine.new, views := {} }
      [.snapshot .stored, .list .stored, claimPlain, .apply, .list .stored, .list .stored, .finish]
      { engine := servedPlain
        views := Views.apply {} (.tunnelChanged activePlain .created)
        pending := []
        phase := .finished } := by
    refine .cons ⟨hspare _ _ fun _ _ => MirrorAct.noConfusion, .snapshot .stored rfl (.inl rfl)⟩ ?_
    refine .cons ⟨hspare _ _ fun _ _ => MirrorAct.noConfusion, .list .stored rfl⟩ ?_
    refine .cons ⟨hclaim, .call { now := 0 } (reclaim "s1" [plainTunnel]) rfl⟩ ?_
    refine .cons ⟨hspare _ _ fun _ _ => MirrorAct.noConfusion, .apply servedPlain_told⟩ ?_
    refine .cons ⟨hspare _ _ fun _ _ => MirrorAct.noConfusion, .list .stored rfl⟩ ?_
    refine .cons ⟨hspare _ _ fun _ _ => MirrorAct.noConfusion, .list .stored rfl⟩ ?_
    exact .cons ⟨hspare _ _ fun _ _ => MirrorAct.noConfusion, .finish rfl⟩ (.nil _)
  refine ⟨_, ?_, reconcile_keeps_updates sampleConfig Engine.new {} _ _ hrun rfl rfl⟩
  decide

/-- A claim that comes between the snapshot and the listing of the tunnels' rows:
the pass finds a row that its snapshot does not have and deletes it. -/
theorem claimed_row_deleted :
    ¬ ∀ (cfg : Config) (as : List MirrorAct) (s : Mirror),
      Run (MirrorStep cfg) { engine := Engine.new, views := {} } as s →
      s.phase = .finished → s.pending = [] → SameTables s.views s.engine := by
  intro h
  have hrun : Run (MirrorStep sampleConfig) { engine := Engine.new, views := {} }
      [.snapshot .stored, claimPlain, .apply, .list .stored, .write, .list .stored, .list .stored,
        .finish]
      { engine := servedPlain
        views := (Views.apply {} (.tunnelChanged activePlain .created)).apply
          (.tunnelChanged { name := "n" } .deleted)
        pending := []
        phase := .finished } := by
    refine .cons (.snapshot .stored rfl (.inl rfl)) ?_
    refine .cons (.call { now := 0 } (reclaim "s1" [plainTunnel]) rfl) ?_
    refine .cons (.apply servedPlain_told) ?_
    refine .cons (.list .stored rfl) ?_
    refine .cons (.write rfl) ?_
    refine .cons (.list .stored rfl) ?_
    refine .cons (.list .stored rfl) ?_
    exact .cons (.finish rfl) (.nil _)
  have hsame := (h sampleConfig _ _ hrun rfl rfl).tunnels "n"
  exact absurd hsame (by decide)

end L8Tunnel.Live
