import L8Tunnel.Base.Run
import L8Tunnel.Edge.Listener

/-! # Opening a port while clients connect (edge/edge.go, listener.go) -/

namespace L8Tunnel.Edge
open Base Net Auth

/-- A listening socket; a connection keeps the one it was accepted on. -/
structure Socket where
  port : ℤ := 0
  proto : EdgeProtocol := .unspecified
  bound : Bool := false
  closed : Bool := false
  routes : Option RouteSet := none

namespace Socket

def listener (k : Socket) (rs : RouteSet) : Listener :=
  { port := k.port, proto := k.proto, bound := k.bound, routes := rs }

def serveTLS (k : Socket) (rs : Option RouteSet) (cfg : Config) (turn : ℕ) (client : TCPAddr) :
    Opening → Option Action
  | .hello serverName => rs.map fun rs => (k.listener rs).serveTLS cfg turn client (.hello serverName)
  | _ => some .close

def serveHTTP (k : Socket) (rs : Option RouteSet) (cfg : Config) (turn : ℕ) (client : TCPAddr) :
    Opening → Option Action
  | .request host => rs.map fun rs => (k.listener rs).serveHTTP cfg turn client (.request host)
  | _ => some .close

def serveTCP (k : Socket) (rs : Option RouteSet) (cfg : Config) (turn : ℕ) (client : TCPAddr) :
    Option Action :=
  rs.map fun rs => (k.listener rs).serveTCP cfg turn client

def serve (k : Socket) (rs : Option RouteSet) (cfg : Config) (turn : ℕ) (client : TCPAddr)
    (opening : Opening) : Option Action :=
  match k.proto with
  | .tls => k.serveTLS rs cfg turn client opening
  | .http => k.serveHTTP rs cfg turn client opening
  | _ => k.serveTCP rs cfg turn client

theorem serve_some (k : Socket) (rs : RouteSet) (cfg : Config) (turn : ℕ) (client : TCPAddr)
    (opening : Opening) :
    k.serve (some rs) cfg turn client opening =
      some ((k.listener rs).serve cfg turn client opening) := by
  obtain ⟨port, proto, bound, closed, routes⟩ := k
  cases proto with
  | tls => cases opening <;> rfl
  | http => cases opening <;> rfl
  | unspecified => rfl
  | tcp => rfl
  | unknown code => rfl

end Socket

/-- Where an Apply is: it closes, then opens port by port, and stores routes last. -/
inductive Applying where
  | idle
  | closing (m : GoMap ℤ (List Route)) (stale ports : List ℤ) (version : ℤ)
  | visiting (m : GoMap ℤ (List Route)) (ports : List ℤ) (version : ℤ)
  | opened (m : GoMap ℤ (List Route)) (port : ℤ) (ref : ℕ) (ports : List ℤ) (version : ℤ)

/-- How far the handling of a connection is. -/
inductive Served where
  | queued
  | accepted
  | rejected
  | serving (rs : Option RouteSet)
  | panicked
  | done (a : Action)

structure Inbound where
  client : TCPAddr
  ref : ℕ
  stage : Served := .queued

/-- The edge between the steps of Apply, with its sockets and connections. -/
structure Accepting where
  sockets : ℕ → Socket := fun _ => {}
  next : ℕ := 0
  listeners : GoMap ℤ ℕ := ∅
  version : ℤ := 0
  closed : Bool := false
  applying : Applying := .idle
  conns : ℕ → Option Inbound := fun _ => none

namespace Accepting

def listen (s : Accepting) (port : ℤ) (proto : EdgeProtocol) (bound : Bool) : Accepting :=
  { s with
    sockets := Function.update s.sockets s.next { port := port, proto := proto, bound := bound }
    next := s.next + 1
    listeners := s.listeners.set port s.next }

def setRoutes (s : Accepting) (ref : ℕ) (rs : RouteSet) : Accepting :=
  { s with sockets := Function.update s.sockets ref { s.sockets ref with routes := some rs } }

def shut (s : Accepting) (ref : ℕ) : Accepting :=
  { s with sockets := Function.update s.sockets ref { s.sockets ref with closed := true } }

def closeStale (s : Accepting) (m : GoMap ℤ (List Route)) (port : ℤ) : Accepting :=
  match s.listeners.get port with
  | none => s
  | some ref =>
    match m.get port with
    | none => { s.shut ref with listeners := s.listeners.del port }
    | some routes =>
      if protoOf routes ≠ (s.sockets ref).proto then
        { s.shut ref with listeners := s.listeners.del port }
      else s

def lock (n : Netip) (c : Crypto) (order : RangeOrder) (domains : List EdgeDomain) (version : ℤ)
    (s : Accepting) : Option Accepting :=
  match s.applying with
  | .idle =>
    if s.closed then some s
    else
      let m := byPort (routesOf n c domains)
      some { s with applying := .closing m (s.listeners.range order) (m.range order) version }
  | _ => none

def advance (bound : Bool) (s : Accepting) : Option Accepting :=
  match s.applying with
  | .idle => none
  | .closing m (p :: stale) ports version =>
    some { s.closeStale m p with applying := .closing m stale ports version }
  | .closing m [] ports version => some { s with applying := .visiting m ports version }
  | .visiting m (p :: ports) version =>
    match s.listeners.get p with
    | some ref =>
      some { s.setRoutes ref (newRouteSet ((m.get p).getD [])) with
        applying := .visiting m ports version }
    | none =>
      some { s.listen p (protoOf ((m.get p).getD [])) bound with
        applying := .opened m p s.next ports version }
  | .visiting _ [] version => some { s with version := version, applying := .idle }
  | .opened m p ref ports version =>
    some { s.setRoutes ref (newRouteSet ((m.get p).getD [])) with
      applying := .visiting m ports version }

def shutPort (s : Accepting) (port : ℤ) : Accepting :=
  match s.listeners.get port with
  | none => s
  | some ref => s.shut ref

def close (order : RangeOrder) (s : Accepting) : Option Accepting :=
  match s.applying with
  | .idle => some ((s.listeners.range order).foldl shutPort { s with closed := true })
  | _ => none

def setConn (s : Accepting) (i : ℕ) (c : Inbound) : Accepting :=
  { s with conns := Function.update s.conns i (some c) }

def connect (i ref : ℕ) (client : TCPAddr) (s : Accepting) : Option Accepting :=
  match s.conns i with
  | some _ => none
  | none =>
    if ref < s.next ∧ (s.sockets ref).bound ∧ (s.sockets ref).closed = false then
      some (s.setConn i { client := client, ref := ref })
    else none

def accept (i : ℕ) (allowed : Bool) (s : Accepting) : Option Accepting :=
  match s.conns i with
  | some ⟨client, ref, .queued⟩ =>
    if (s.sockets ref).closed then none
    else some (s.setConn i ⟨client, ref, if allowed then .accepted else .rejected⟩)
  | _ => none

def load (i : ℕ) (s : Accepting) : Option Accepting :=
  match s.conns i with
  | some ⟨client, ref, .accepted⟩ =>
    some (s.setConn i ⟨client, ref, .serving (s.sockets ref).routes⟩)
  | _ => none

def serve (cfg : Config) (i turn : ℕ) (opening : Opening) (s : Accepting) : Option Accepting :=
  match s.conns i with
  | some ⟨client, ref, .serving rs⟩ =>
    match (s.sockets ref).serve rs cfg turn client opening with
    | some a => some (s.setConn i ⟨client, ref, .done a⟩)
    | none => some (s.setConn i ⟨client, ref, .panicked⟩)
  | _ => none

/-- A step of Apply, or of one connection. -/
inductive Event where
  | lock (order : RangeOrder) (domains : List EdgeDomain) (version : ℤ)
  | advance (bound : Bool)
  | close (order : RangeOrder)
  | connect (i ref : ℕ) (client : TCPAddr)
  | accept (i : ℕ) (allowed : Bool)
  | load (i : ℕ)
  | serve (live : Live) (i turn : ℕ) (opening : Opening)

def after (n : Netip) (c : Crypto) (cfg : Config) (s : Accepting) : Event → Option Accepting
  | .lock order domains version => s.lock n c order domains version
  | .advance bound => s.advance bound
  | .close order => s.close order
  | .connect i ref client => s.connect i ref client
  | .accept i allowed => s.accept i allowed
  | .load i => s.load i
  | .serve live i turn opening => s.serve { cfg with live := live } i turn opening

def Step (n : Netip) (c : Crypto) (cfg : Config) (s : Accepting) (ev : Event) (t : Accepting) :
    Prop :=
  s.after n c cfg ev = some t

/-- No client reaches a port that `Apply` has opened but not yet given its
routes. -/
def Event.Patient (s : Accepting) : Event → Prop
  | .connect _ ref _ => ∀ m p r ports version,
      s.applying = .opened m p r ports version → (s.sockets ref).port ≠ p
  | _ => True

def Unrouted (s : Accepting) (ref : ℕ) : Prop :=
  ∃ m p ports version, s.applying = .opened m p ref ports version ∧ (s.sockets ref).port = p

def Socket.Has (sockets : ℕ → Socket) (ref : ℕ) : Prop := (sockets ref).routes.isSome

def Inbound.Finds (sockets : ℕ → Socket) (k : Inbound) : Prop :=
  match k.stage with
  | .queued => Socket.Has sockets k.ref
  | .accepted => Socket.Has sockets k.ref
  | .serving rs => rs.isSome
  | .panicked => False
  | _ => True

/-- Every socket has routes or is the one Apply has just opened, and what a connection loads it
finds. -/
structure Routed (s : Accepting) : Prop where
  routes : ∀ ref < s.next, Socket.Has s.sockets ref ∨ s.Unrouted ref
  conns : ∀ i k, s.conns i = some k → k.ref < s.next ∧ Inbound.Finds s.sockets k

theorem routed_start : Routed {} :=
  ⟨fun ref h => absurd h (Nat.not_lt_zero ref), fun i k h => by cases h⟩

section
variable {s t : Accepting}
variable {sockets : ℕ → Socket} {k : Inbound} {ref i : ℕ} {m : GoMap ℤ (List Route)} {p version : ℤ}
  {ports : List ℤ} {bound : Bool} {order : RangeOrder} {n : Netip} {c : Crypto} {cfg : Config}

theorem Inbound.Finds.mono {sockets' : ℕ → Socket} (h : Inbound.Finds sockets k)
    (hkept : Socket.Has sockets k.ref → Socket.Has sockets' k.ref) : Inbound.Finds sockets' k := by
  unfold Inbound.Finds at h ⊢
  split
  next hstage =>
    rw [hstage] at h
    exact hkept h
  next hstage =>
    rw [hstage] at h
    exact hkept h
  next rs hstage =>
    rw [hstage] at h
    exact h
  next hstage =>
    rw [hstage] at h
    exact h
  next => trivial

structure Moves (s t : Accepting) : Prop where
  kept : ∀ ref, Socket.Has s.sockets ref → Socket.Has t.sockets ref
  next : s.next ≤ t.next
  conns : t.conns = s.conns

theorem Moves.routed (hm : Moves s t) (h : Routed s)
    (hroutes : ∀ ref < t.next, Socket.Has t.sockets ref ∨ t.Unrouted ref) : Routed t := by
  refine ⟨hroutes, fun i k hk => ?_⟩
  rw [hm.conns] at hk
  obtain ⟨hlt, hfinds⟩ := h.conns i k hk
  exact ⟨Nat.lt_of_lt_of_le hlt hm.next, hfinds.mono (hm.kept k.ref)⟩

theorem has_update {r : ℕ} {k : Socket} (hk : Socket.Has sockets ref → k.routes.isSome)
    (h : Socket.Has sockets r) : Socket.Has (Function.update sockets ref k) r := by
  by_cases hr : r = ref
  · subst hr
    simpa [Socket.Has] using hk h
  · simpa [Socket.Has, hr] using h

theorem setRoutes_moves (s : Accepting) (ref : ℕ) (rs : RouteSet) (a : Applying) :
    Moves s { s.setRoutes ref rs with applying := a } :=
  ⟨fun _ h => has_update (fun _ => rfl) h, Nat.le_refl _, rfl⟩

theorem shut_moves (s : Accepting) (ref : ℕ) : Moves s (s.shut ref) :=
  ⟨fun _ h => has_update (fun h => h) h, Nat.le_refl _, rfl⟩

theorem progress_moves (s : Accepting) (version : ℤ) (a : Applying) :
    Moves s { s with version := version, applying := a } :=
  ⟨fun _ h => h, Nat.le_refl _, rfl⟩

theorem Moves.trans {u : Accepting} (h : Moves s t) (h' : Moves t u) : Moves s u :=
  ⟨fun ref hr => h'.kept ref (h.kept ref hr), Nat.le_trans h.next h'.next, h'.conns.trans h.conns⟩

theorem closeStale_moves (s : Accepting) (m : GoMap ℤ (List Route)) (p : ℤ) :
    Moves s (s.closeStale m p) ∧ (s.closeStale m p).next = s.next := by
  have hsame : Moves s s := ⟨fun _ h => h, Nat.le_refl _, rfl⟩
  have hshut : ∀ ref, Moves s { s.shut ref with listeners := s.listeners.del p } :=
    fun ref => ⟨(shut_moves s ref).kept, Nat.le_refl _, rfl⟩
  unfold closeStale
  split
  · exact ⟨hsame, rfl⟩
  · split
    · exact ⟨hshut _, rfl⟩
    · split
      · exact ⟨hshut _, rfl⟩
      · exact ⟨hsame, rfl⟩

def Between (s : Accepting) : Prop :=
  ∃ m p ref ports version, s.applying = .opened m p ref ports version

theorem Routed.all (h : Routed s) (hnot : ¬ s.Between) : ∀ ref < s.next, Socket.Has s.sockets ref := by
  intro ref hlt
  refine (h.routes ref hlt).resolve_right ?_
  rintro ⟨m, p, ports, version, happ, -⟩
  exact hnot ⟨m, p, ref, ports, version, happ⟩

theorem Moves.routed_same (hm : Moves s t) (hnext : t.next = s.next) (h : Routed s)
    (hnot : ¬ s.Between) : Routed t := by
  refine hm.routed h fun ref hlt => .inl (hm.kept ref (h.all hnot ref ?_))
  rwa [hnext] at hlt

theorem listen_routed (h : Routed s) (hnot : ¬ s.Between) :
    Routed { s.listen p (protoOf ((m.get p).getD [])) bound with
      applying := .opened m p s.next ports version } := by
  have hne : ∀ ref < s.next, Socket.Has (Function.update s.sockets s.next
      { port := p, proto := protoOf ((m.get p).getD []), bound := bound }) ref := by
    intro ref hlt
    have hold := h.all hnot ref hlt
    simpa [Socket.Has, Nat.ne_of_lt hlt] using hold
  refine ⟨fun ref hlt => ?_, fun i k hk => ?_⟩
  · rcases Nat.lt_succ_iff_lt_or_eq.mp hlt with hlt | rfl
    · exact .inl (hne ref hlt)
    · exact .inr ⟨m, p, ports, version, rfl, by simp [listen]⟩
  · obtain ⟨hlt, hfinds⟩ := h.conns i k hk
    exact ⟨Nat.lt_succ_of_lt hlt, hfinds.mono fun _ => hne k.ref hlt⟩

theorem opened_routed (h : Routed s) (happ : s.applying = .opened m p ref ports version)
    (rs : RouteSet) (a : Applying) : Routed { s.setRoutes ref rs with applying := a } := by
  have hm := setRoutes_moves s ref rs a
  refine hm.routed h fun r hlt => .inl ?_
  rcases h.routes r hlt with hhas | ⟨m', p', ports', version', happ', -⟩
  · exact hm.kept r hhas
  · rw [happ] at happ'
    cases happ'
    simp [Socket.Has, setRoutes]

theorem advance_routed (h : Routed s) (hs : s.advance bound = some t) : Routed t := by
  have hnot : ∀ a, s.applying = a → (∀ m p ref ports version, a ≠ .opened m p ref ports version) →
      ¬ s.Between := by
    rintro a rfl ha ⟨m, p, ref, ports, version, happ⟩
    exact ha m p ref ports version happ
  unfold advance at hs
  split at hs
  · cases hs
  next m p stale ports version happ =>
    cases hs
    obtain ⟨hm, hnext⟩ := closeStale_moves s m p
    exact Moves.routed_same ⟨hm.kept, hm.next, hm.conns⟩ hnext h (hnot _ happ (by simp))
  next m ports version happ =>
    cases hs
    exact (progress_moves s _ _).routed_same rfl h (hnot _ happ (by simp))
  next m p ports version happ =>
    split at hs
    next ref _ =>
      cases hs
      exact (setRoutes_moves s ref _ _).routed_same rfl h (hnot _ happ (by simp))
    next =>
      cases hs
      exact listen_routed h (hnot _ happ (by simp))
  next m version happ =>
    cases hs
    exact (progress_moves s _ _).routed_same rfl h (hnot _ happ (by simp))
  next m p ref ports version happ =>
    cases hs
    exact opened_routed h happ _ _

theorem shutPort_moves (s : Accepting) (p : ℤ) :
    Moves s (s.shutPort p) ∧ (s.shutPort p).next = s.next := by
  unfold shutPort
  split
  · exact ⟨progress_moves s _ _, rfl⟩
  · exact ⟨shut_moves s _, rfl⟩

theorem foldl_shutPort_moves (ports : List ℤ) (s : Accepting) :
    Moves s (ports.foldl shutPort s) ∧ (ports.foldl shutPort s).next = s.next := by
  induction ports generalizing s with
  | nil => exact ⟨progress_moves s _ _, rfl⟩
  | cons p ports ih =>
    obtain ⟨hm, hnext⟩ := shutPort_moves s p
    obtain ⟨hrest, hsame⟩ := ih (s.shutPort p)
    exact ⟨hm.trans hrest, hsame.trans hnext⟩

theorem close_routed (h : Routed s) (hs : s.close order = some t) : Routed t := by
  unfold close at hs
  split at hs
  next happ =>
    cases hs
    have hclosed : Moves s { s with closed := true } := ⟨fun _ h => h, Nat.le_refl _, rfl⟩
    obtain ⟨hm, hnext⟩ := foldl_shutPort_moves (s.listeners.range order) { s with closed := true }
    refine (hclosed.trans hm).routed_same hnext h ?_
    rintro ⟨m, p, ref, ports, version, hopened⟩
    rw [happ] at hopened
    cases hopened
  · cases hs

theorem lock_routed {domains : List EdgeDomain} (h : Routed s)
    (hs : s.lock n c order domains version = some t) : Routed t := by
  unfold lock at hs
  split at hs
  next happ =>
    have hnot : ¬ s.Between := by
      rintro ⟨m, p, ref, ports, version, hopened⟩
      rw [happ] at hopened
      cases hopened
    split at hs
    · cases hs
      exact h
    · cases hs
      exact (progress_moves s s.version _).routed_same rfl h hnot
  · cases hs

theorem setConn_routed (h : Routed s) (hlt : k.ref < s.next) (hk : Inbound.Finds s.sockets k) :
    Routed (s.setConn i k) := by
  refine ⟨h.routes, fun j k' hk' => ?_⟩
  by_cases hj : j = i
  · subst hj
    have heq : k = k' := by simpa [setConn] using hk'
    rw [← heq]
    exact ⟨hlt, hk⟩
  · have hold : s.conns j = some k' := by simpa [setConn, hj] using hk'
    exact h.conns j k' hold

theorem connect_routed {client : TCPAddr} (h : Routed s)
    (hpatient : Event.Patient s (.connect i ref client)) (hs : s.connect i ref client = some t) :
    Routed t := by
  unfold connect at hs
  split at hs
  · cases hs
  · split at hs
    next hopen =>
      cases hs
      refine setConn_routed h hopen.1 ?_
      refine (h.routes ref hopen.1).resolve_right ?_
      rintro ⟨m, p, ports, version, happ, hport⟩
      exact hpatient m p ref ports version happ hport
    · cases hs

theorem accept_routed {allowed : Bool} (h : Routed s) (hs : s.accept i allowed = some t) :
    Routed t := by
  unfold accept at hs
  split at hs
  next client ref hc =>
    obtain ⟨hlt, hfinds⟩ := h.conns i _ hc
    split at hs
    · cases hs
    · cases hs
      refine setConn_routed h hlt ?_
      cases allowed with
      | true => exact hfinds
      | false => trivial
  · cases hs

theorem load_routed (h : Routed s) (hs : s.load i = some t) : Routed t := by
  unfold load at hs
  split at hs
  next client ref hc =>
    obtain ⟨hlt, hfinds⟩ := h.conns i _ hc
    cases hs
    exact setConn_routed h hlt hfinds
  · cases hs

theorem serve_routed {turn : ℕ} {opening : Opening} (h : Routed s)
    (hs : s.serve cfg i turn opening = some t) : Routed t := by
  unfold serve at hs
  split at hs
  next client ref rs hc =>
    obtain ⟨hlt, hfinds⟩ := h.conns i _ hc
    obtain ⟨rs', rfl⟩ := Option.isSome_iff_exists.mp hfinds
    rw [Socket.serve_some] at hs
    cases hs
    exact setConn_routed h hlt trivial
  · cases hs

theorem Routed.step {ev : Event} (h : Routed s) (hpatient : ev.Patient s)
    (hs : Step n c cfg s ev t) : Routed t := by
  cases ev with
  | lock order domains version => exact lock_routed h hs
  | advance bound => exact advance_routed h hs
  | close order => exact close_routed h hs
  | connect i ref client => exact connect_routed h hpatient hs
  | accept i allowed => exact accept_routed h hs
  | load i => exact load_routed h hs
  | serve live i turn opening => exact serve_routed h hs

end

/-- As long as no client reaches a port before `Apply` has given it its routes,
every connection that is served has loaded a route set, and none is served
without one. -/
theorem served_with_routes {n : Netip} {c : Crypto} {cfg : Config} {evs : List Event}
    {s : Accepting} (hrun : Run (Guarded Event.Patient (Step n c cfg)) {} evs s) {i : ℕ}
    {k : Inbound} (hk : s.conns i = some k) :
    (∀ rs, k.stage = .serving rs → rs ≠ none) ∧ k.stage ≠ .panicked := by
  have h : Routed s :=
    hrun.invariant (I := Routed) (fun _ _ _ h hs => h.step hs.1 hs.2) routed_start
  obtain ⟨-, hfinds⟩ := h.conns i k hk
  unfold Inbound.Finds at hfinds
  refine ⟨fun rs hstage => ?_, fun hstage => ?_⟩
  · rw [hstage] at hfinds
    exact Option.isSome_iff_ne_none.mp hfinds
  · rw [hstage] at hfinds
    exact hfinds

def openConfig : Config := ⟨"", [], ⟨[], fun _ => none, fun _ => none⟩⟩

def tcpSite : EdgeDomain :=
  { domainId := "d", domain := "a.io", kind := .site, enabled := true
    portForwards := [{ listenPort := 8000, protocol := .tcp, targetKind := .targets
                       targets := [{ host := "10.0.0.1", port := 80 }], enabled := true }] }

def opens : List Event :=
  [.lock RangeOrder.stored [tcpSite] 1, .advance true, .advance true]

def visits : List Event := [.connect 0 0 ⟨.v4 1, 1⟩, .accept 0 true, .load 0]

def patient (s : Accepting) : Event → Bool
  | .connect _ ref _ =>
    match s.applying with
    | .opened _ p _ _ _ => (s.sockets ref).port ≠ p
    | _ => true
  | _ => true

theorem patient_of_check (s : Accepting) (ev : Event) (h : patient s ev) : ev.Patient s := by
  cases ev with
  | connect i ref client =>
    intro m p r ports version happ
    simpa [patient, happ] using h
  | _ => trivial

def openPlay (ok : Accepting → Event → Bool) (evs : List Event) : Option Accepting :=
  Run.replay ok (after .plain .plain openConfig) {} evs

theorem served_with_routes_after_apply :
    ∃ s k rs, Run (Guarded Event.Patient (Step .plain .plain openConfig)) {}
        (opens ++ .advance true :: visits) s ∧
      s.conns 0 = some k ∧ k.stage = .serving rs ∧ rs ≠ none ∧ k.stage ≠ .panicked := by
  obtain ⟨s, hs⟩ : ∃ s, openPlay patient (opens ++ .advance true :: visits) = some s := ⟨_, rfl⟩
  have hrun := Run.of_replay patient_of_check hs
  obtain ⟨rs, hstage⟩ : ∃ rs, ((openPlay patient (opens ++ .advance true :: visits)).bind
      fun s => s.conns 0).map (fun k => k.stage) = some (.serving rs) := ⟨_, rfl⟩
  rw [hs] at hstage
  obtain ⟨k, hk, hserving⟩ := Option.map_eq_some_iff.mp hstage
  obtain ⟨hroutes, halive⟩ := served_with_routes hrun hk
  exact ⟨s, k, rs, hrun, hk, hserving, hroutes rs hserving, halive⟩

def early : List Event :=
  opens ++ visits ++ [.serve ⟨[], fun _ => none, fun _ => none⟩ 0 0 .other]

/-- A client that comes before the routes are stored takes the edge down. -/
theorem served_before_routes :
    ¬ ∀ (n : Netip) (c : Crypto) (cfg : Config) (evs : List Event) (s : Accepting) (i : ℕ)
      (k : Inbound), Run (Step n c cfg) {} evs s → s.conns i = some k →
      (∀ rs, k.stage = .serving rs → rs ≠ none) ∧ k.stage ≠ .panicked := by
  intro h
  obtain ⟨s, hs⟩ : ∃ s, openPlay (fun _ _ => true) early = some s := ⟨_, rfl⟩
  have hrun : Run (Step .plain .plain openConfig) {} early s :=
    (Run.of_replay (P := fun _ _ => True) (fun _ _ _ => trivial) hs).mono fun _ _ _ hstep => hstep.2
  have hstage : ((openPlay (fun _ _ => true) early).bind fun s => s.conns 0).map
      (fun k => k.stage) = some .panicked := rfl
  rw [hs] at hstage
  obtain ⟨k, hk, hpanicked⟩ := Option.map_eq_some_iff.mp hstage
  exact (h _ _ _ _ _ _ _ hrun hk).2 hpanicked

end Accepting
end L8Tunnel.Edge
