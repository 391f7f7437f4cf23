import L8Tunnel.Auth.Access
import L8Tunnel.Base.Table
import L8Tunnel.Transport.ProxyProto

/-! # The edge (edge/edge.go, route.go, listener.go) -/

namespace L8Tunnel
open Base Net Auth Transport

namespace Edge

structure RelayTarget where
  id : String := ""
  ip : String := ""
  sessions : ℤ := 0
  draining : Bool := false
  deriving DecidableEq

/-- What the edge knows of the relays at one moment. -/
structure Live where
  relays : List RelayTarget
  ownerOfHost : String → Option RelayTarget
  ownerOfPort : ℤ → Option (RelayTarget × String)

structure Config where
  controlSNI : String
  forwardKey : List UInt8
  live : Live

/-- A site's pool as the HTTP proxy sees it. -/
structure PoolTunnel where
  id : String
  pool : ℕ
  fwd : EdgePortForward
  access : Access

/-- A forward of a domain, with its pool or its tunnel where it has one. -/
structure Route where
  domain : EdgeDomain
  fwd : EdgePortForward
  access : Access
  pool : ℕ := 0
  tunnel : Option PoolTunnel := none

def Route.isRelay (r : Route) : Bool := r.fwd.mode = .relay

/-- The routes of one port by name, by wildcard, for the tunnels' base domain and for raw TCP.
-/
structure RouteSet where
  byName : GoMap String Route := ∅
  wildcards : GoMap String Route := ∅
  base : Option Route := none
  single : Option Route := none

namespace RouteSet

def addName (r : Route) (rs : RouteSet) (name : String) : RouteSet :=
  let name := GoString.toLower name
  match GoString.cutPrefix name "*" with
  | some rest => { rs with wildcards := rs.wildcards.set rest r }
  | none => { rs with byName := rs.byName.set name r }

def add (rs : RouteSet) (r : Route) : RouteSet :=
  let rs := if r.fwd.protocol = .tcp then { rs with single := some r } else rs
  if r.domain.kind = .tunnelBase then { rs with base := some r }
  else (r.domain.domain :: r.domain.aliases).foldl (addName r) rs

end RouteSet

def newRouteSet (routes : List Route) : RouteSet := routes.foldl RouteSet.add {}

structure Target where
  route : Route
  relay : RelayTarget := {}

def Config.relayPick (cfg : Config) (leastLoaded : Bool) (turn : ℕ) : Option RelayTarget :=
  let relays := cfg.live.relays
  let ready := relays.filter fun r => r.draining = false
  let ready := if ready = [] then relays else ready
  match ready.mergeSort fun a b => !decide (b.id < a.id) with
  | [] => none
  | first :: rest =>
    if leastLoaded then
      some (rest.foldl (fun best r => if r.sessions < best.sessions then r else best) first)
    else (first :: rest)[turn % (rest.length + 1)]?

def afterLabel (host : String) : Option String :=
  match host.toList.dropWhile (· ≠ '.') with
  | [] => none
  | rest => if rest = host.toList then none else some (String.ofList rest)

def RouteSet.resolve (rs : RouteSet) (cfg : Config) (turn : ℕ) (host : String) : Option Target :=
  let host := GoString.toLower (GoString.trimSuffix host ".")
  match rs.byName.get host, rs.base with
  | some r, _ => some { route := r }
  | none, some base =>
    if host ≠ "" ∧ host = cfg.controlSNI then
      (cfg.relayPick true turn).map fun relay => ⟨base, relay⟩
    else match if host ≠ "" then cfg.live.ownerOfHost host else none with
      | some relay => some ⟨base, relay⟩
      | none =>
        match (afterLabel host).bind rs.wildcards.get with
        | some r => some { route := r }
        | none => (cfg.relayPick false turn).map fun relay => ⟨base, relay⟩
  | none, none => ((afterLabel host).bind rs.wildcards.get).map fun r => { route := r }

structure Listener where
  port : ℤ
  proto : EdgeProtocol
  bound : Bool
  routes : RouteSet

/-- What a connection begins with. -/
inductive Opening where
  | hello (serverName : String)
  | request (host : String)
  | other

/-- What becomes of a connection. -/
inductive Action where
  | close
  | terminate (r : Route)
  | backend (r : Route)
  | relay (dest : RelayTarget) (port : Int32)
  | stream (r : Route)

def clientIP (client : TCPAddr) : Addr := client.addr.unmap

def admitted (t : Option Target) (client : TCPAddr) : Option Target :=
  t.filter fun t => t.route.access.allowsIP (clientIP client)

def forward (t : Target) : Action :=
  if t.route.isRelay then .relay t.relay t.route.fwd.targetPort else .backend t.route

namespace Listener

def serveTLS (l : Listener) (cfg : Config) (turn : ℕ) (client : TCPAddr) : Opening → Action
  | .hello serverName =>
    match admitted (l.routes.resolve cfg turn serverName) client with
    | none => .close
    | some t => if t.route.fwd.mode = .terminate then .terminate t.route else forward t
  | _ => .close

def serveHTTP (l : Listener) (cfg : Config) (turn : ℕ) (client : TCPAddr) : Opening → Action
  | .request host =>
    match admitted (l.routes.resolve cfg turn host) client with
    | none => .close
    | some t => forward t
  | _ => .close

def serveTCP (l : Listener) (cfg : Config) (turn : ℕ) (client : TCPAddr) : Action :=
  match l.routes.single with
  | none => .close
  | some r =>
    if r.isRelay ∧ r.fwd.listenPortEnd ≠ 0 then .stream r
    else
      let t := if r.isRelay then (cfg.relayPick false turn).map fun relay => ⟨r, relay⟩
        else some { route := r }
      match admitted t client with
      | none => .close
      | some t => forward t

def serve (l : Listener) (cfg : Config) (turn : ℕ) (client : TCPAddr) (opening : Opening) :
    Action :=
  match l.proto with
  | .tls => l.serveTLS cfg turn client opening
  | .http => l.serveHTTP cfg turn client opening
  | _ => l.serveTCP cfg turn client

def stream (w : Wire) (cfg : Config) (l : Listener) (r : Route) (client here : TCPAddr)
    (now : Int64) : Option (String × ProxyHeader) :=
  match cfg.live.ownerOfPort l.port with
  | none => none
  | some (relay, name) =>
    if r.access.allowsIP (clientIP client) = false then none
    else
      (writeProxyHeader w client here
        (signedTLVs w cfg.forwardKey name (client.text w.ipText) now)).map fun header =>
          (joinHostPort relay.ip (toString r.fwd.targetPort.toInt), header)

end Listener
end Edge

structure Edge where
  listeners : Table Edge.Listener.port := .empty
  version : ℤ := 0
  closed : Bool := false

namespace Edge

def routesOf (n : Netip) (c : Crypto) (domains : List EdgeDomain) : List Route :=
  domains.flatMap fun d =>
    if d.enabled = false then []
    else match parseAccess n c { allowIps := d.allowIps, denyIps := d.denyIps } with
      | .error _ => []
      | .ok access => (d.portForwards.filter fun f => f.enabled).map fun f =>
        { domain := d, fwd := f, access := access }

def lastPort (f : EdgePortForward) : ℤ :=
  if f.listenPortEnd = 0 then f.listenPort.toInt else f.listenPortEnd.toInt

def portsOf (f : EdgePortForward) : List ℤ :=
  (List.range (lastPort f - f.listenPort.toInt + 1).toNat).map fun i : ℕ =>
    f.listenPort.toInt + (i : ℤ)

def addRoute (m : GoMap ℤ (List Route)) (r : Route) : GoMap ℤ (List Route) :=
  (portsOf r.fwd).foldl (fun m p => m.set p ((m.get p).getD [] ++ [r])) m

def byPort (routes : List Route) : GoMap ℤ (List Route) := routes.foldl addRoute ∅

def protoOf (routes : List Route) : EdgeProtocol :=
  (routes.head?.map fun r => r.fwd.protocol).getD .unspecified

def stays (m : GoMap ℤ (List Route)) (p : ℤ) (l : Listener) : Bool :=
  (m.get p).any fun routes => protoOf routes = l.proto

def closeStale (m : GoMap ℤ (List Route)) (ls : Table Listener.port) (p : ℤ) :
    Table Listener.port :=
  match ls.get p with
  | none => ls
  | some l => if stays m p l then ls else ls.del p

/-- The listener a port of the list has: the open one with its new routes, or a new
one. -/
def reopened (bind : ℤ → Bool) (p : ℤ) (routes : List Route) : Option Listener → Listener
  | some l => { l with routes := newRouteSet routes }
  | none => { port := p, proto := protoOf routes, bound := bind p, routes := newRouteSet routes }

def openPort (bind : ℤ → Bool) (m : GoMap ℤ (List Route)) (ls : Table Listener.port) (p : ℤ) :
    Table Listener.port :=
  match m.get p with
  | none => ls
  | some routes => ls.put (reopened bind p routes (ls.get p))

/-- What `Apply` does once it has the routes: close the listeners no route is for,
open the missing ones and give each its routes. -/
def relisten (bind : ℤ → Bool) (order : RangeOrder) (e : Edge) (routes : List Route)
    (version : ℤ) : Edge :=
  let m := byPort routes
  let ls := (e.listeners.range order).foldl (closeStale m) e.listeners
  let ls := (m.range order).foldl (openPort bind m) ls
  { e with listeners := ls, version := version }

def apply (n : Netip) (c : Crypto) (bind : ℤ → Bool) (order : RangeOrder) (e : Edge)
    (domains : List EdgeDomain) (version : ℤ) : Edge :=
  if e.closed then e else e.relisten bind order (routesOf n c domains) version

theorem mem_portsOf (f : EdgePortForward) (p : ℤ) :
    p ∈ portsOf f ↔ f.listenPort.toInt ≤ p ∧ p ≤ lastPort f := by
  unfold portsOf
  simp only [List.mem_map, List.mem_range]
  constructor
  · rintro ⟨i, hi, rfl⟩
    omega
  · rintro ⟨hlo, hhi⟩
    exact ⟨(p - f.listenPort.toInt).toNat, by omega, by omega⟩

theorem portsOf_nodup (f : EdgePortForward) : (portsOf f).Nodup := by
  unfold portsOf
  refine List.Nodup.map ?_ List.nodup_range
  intro i j h
  dsimp only at h
  omega

theorem get_foldl_append {r : Route} {ps : List ℤ} (hnodup : ps.Nodup)
    (m : GoMap ℤ (List Route)) (p : ℤ) :
    (ps.foldl (fun m p => m.set p ((m.get p).getD [] ++ [r])) m).get p =
      if p ∈ ps then some ((m.get p).getD [] ++ [r]) else m.get p := by
  induction ps generalizing m with
  | nil => rfl
  | cons q ps ih =>
    obtain ⟨hq, hrest⟩ := List.nodup_cons.mp hnodup
    rw [List.foldl_cons, ih hrest, GoMap.get_set_eq_ite]
    by_cases hpq : p = q
    · subst hpq
      simp [hq]
    · simp [hpq]

theorem get_foldl_addRoute (routes : List Route) (m : GoMap ℤ (List Route)) (p : ℤ) :
    (routes.foldl addRoute m).get p =
      if routes.filter (fun r => p ∈ portsOf r.fwd) = [] then m.get p
      else some ((m.get p).getD [] ++ routes.filter fun r => p ∈ portsOf r.fwd) := by
  induction routes generalizing m with
  | nil => rfl
  | cons r routes ih =>
    rw [List.foldl_cons, ih, addRoute, get_foldl_append (portsOf_nodup r.fwd)]
    by_cases hp : p ∈ portsOf r.fwd
    · by_cases hnil : routes.filter (fun r => p ∈ portsOf r.fwd) = []
      · simp [hp, hnil]
      · simp [hp, hnil]
    · simp [hp]

theorem get_byPort (routes : List Route) (p : ℤ) :
    (byPort routes).get p =
      if routes.filter (fun r => p ∈ portsOf r.fwd) = [] then none
      else some (routes.filter fun r => p ∈ portsOf r.fwd) := by
  unfold byPort
  rw [get_foldl_addRoute, GoMap.get_empty]
  rfl

section
variable {m : GoMap ℤ (List Route)} {p : ℤ} {bind : ℤ → Bool}

theorem get_closeStale (ls : Table Listener.port) (q : ℤ) :
    (closeStale m ls q).get p = if p = q then (ls.get p).filter (stays m p) else ls.get p := by
  unfold closeStale
  by_cases hq : p = q
  · subst hq
    rw [if_pos rfl]
    cases hl : ls.get p with
    | none => exact hl
    | some l =>
      dsimp only
      rw [Option.filter_some]
      split
      · exact hl
      · exact Table.get_del_self ..
  · rw [if_neg hq]
    split
    · rfl
    · split
      · rfl
      · exact Table.get_del_ne _ hq

theorem get_foldl_closeStale (qs : List ℤ) (ls : Table Listener.port) :
    (qs.foldl (closeStale m) ls).get p =
      if p ∈ qs then (ls.get p).filter (stays m p) else ls.get p := by
  induction qs generalizing ls with
  | nil => rfl
  | cons q qs ih =>
    rw [List.foldl_cons, ih, get_closeStale]
    by_cases hq : p = q
    · simp [hq, Option.filter_filter]
    · simp [hq]

theorem get_closed (ls : Table Listener.port) (order : RangeOrder) :
    ((ls.range order).foldl (closeStale m) ls).get p = (ls.get p).filter (stays m p) := by
  rw [get_foldl_closeStale]
  split
  · rfl
  next hp =>
    have hnone : ls.get p = none := by
      rw [Option.eq_none_iff_forall_ne_some]
      exact fun l hl => hp ((Table.mem_range ls order p).mpr ⟨l, hl⟩)
    rw [hnone]
    rfl

theorem reopened_port {routes : List Route} {old : Option Listener}
    (h : ∀ l, old = some l → l.port = p) : (reopened bind p routes old).port = p := by
  cases old with
  | none => rfl
  | some l => exact h l rfl

theorem get_openPort (ls : Table Listener.port) (q : ℤ) :
    (openPort bind m ls q).get p =
      if p = q then (m.get p).elim (ls.get p) fun routes => some (reopened bind p routes (ls.get p))
      else ls.get p := by
  have hport : ∀ routes, (reopened bind q routes (ls.get q)).port = q := fun routes =>
    reopened_port fun l hl => Table.key_of_get hl
  unfold openPort
  by_cases hq : p = q
  · subst hq
    rw [if_pos rfl]
    cases m.get p with
    | none => rfl
    | some routes =>
      dsimp only
      rw [Table.get_put, if_pos (hport routes).symm]
      rfl
  · rw [if_neg hq]
    cases m.get q with
    | none => rfl
    | some routes =>
      refine Table.get_put_ne _ _ ?_
      rw [hport]
      exact hq

theorem get_foldl_openPort (qs : List ℤ) (ls : Table Listener.port) :
    (qs.foldl (openPort bind m) ls).get p =
      if p ∈ qs then
        (m.get p).elim (ls.get p) fun routes => some (reopened bind p routes (ls.get p))
      else ls.get p := by
  induction qs generalizing ls with
  | nil => rfl
  | cons q qs ih =>
    rw [List.foldl_cons, ih, get_openPort]
    by_cases hq : p = q
    · subst hq
      -- given its routes twice, a listener is as after the first time
      have htwice : ∀ routes old, reopened bind p routes (some (reopened bind p routes old)) =
          reopened bind p routes old := by
        intro routes old
        cases old <;> rfl
      cases m.get p <;> simp [htwice]
    · simp [hq]

end

section
variable {bind : ℤ → Bool} {order : RangeOrder} {e : Edge} {routes : List Route} {version p : ℤ}

theorem get_relisten : (e.relisten bind order routes version).listeners.get p =
    ((byPort routes).get p).map fun rs =>
      reopened bind p rs ((e.listeners.get p).filter fun l => protoOf rs = l.proto) := by
  show (((byPort routes).range order).foldl (openPort bind (byPort routes)) _).get p = _
  rw [get_foldl_openPort, get_closed]
  cases hm : (byPort routes).get p with
  | none => simp [stays, hm]
  | some rs =>
    have hstays : stays (byPort routes) p = fun l => decide (protoOf rs = l.proto) := by
      funext l
      simp [stays, hm]
    rw [if_pos ((GoMap.mem_range _ order p).mpr ⟨rs, hm⟩), hstays]
    rfl

def Opened (routes : List Route) (p : ℤ) (ls : Table Listener.port) : Prop :=
  ∃ l, ls.get p = some l ∧ l.proto = protoOf routes ∧ l.routes = newRouteSet routes

theorem relisten_opened {rs : List Route} (hm : (byPort routes).get p = some rs) :
    Opened rs p (e.relisten bind order routes version).listeners := by
  refine ⟨_, by rw [get_relisten, hm]; rfl, ?_⟩
  dsimp only
  cases hold : (e.listeners.get p).filter fun l => protoOf rs = l.proto with
  | none => exact ⟨rfl, rfl⟩
  | some l =>
    have hproto := (Option.filter_eq_some_iff.mp hold).2
    exact ⟨(of_decide_eq_true hproto).symm, rfl⟩

theorem relisten_uncovered (hm : (byPort routes).get p = none) :
    (e.relisten bind order routes version).listeners.get p = none := by
  rw [get_relisten, hm]
  rfl

theorem relisten_routes {l : Listener}
    (h : (e.relisten bind order routes version).listeners.get p = some l) :
    l.routes = newRouteSet (routes.filter fun r => p ∈ portsOf r.fwd) := by
  cases hm : (byPort routes).get p with
  | none =>
    rw [relisten_uncovered hm] at h
    cases h
  | some rs =>
    obtain ⟨l', hl', -, hroutes⟩ : Opened rs p (e.relisten bind order routes version).listeners :=
      relisten_opened hm
    rw [h] at hl'
    cases hl'
    rw [hroutes]
    rw [get_byPort] at hm
    split at hm
    · cases hm
    · cases hm
      rfl

end

theorem apply_listener (n : Netip) (c : Crypto) (bind : ℤ → Bool) (order : RangeOrder) (e : Edge)
    (domains : List EdgeDomain) (version p : ℤ) (routes : List Route) (hopen : e.closed = false)
    (hroutes : (routesOf n c domains).filter (fun r => p ∈ portsOf r.fwd) = routes)
    (hne : routes ≠ []) : Opened routes p (e.apply n c bind order domains version).listeners := by
  have hm : (byPort (routesOf n c domains)).get p = some routes := by
    rw [get_byPort, hroutes, if_neg hne]
  unfold apply
  rw [if_neg (by simp [hopen])]
  exact relisten_opened hm

end Edge
end L8Tunnel
