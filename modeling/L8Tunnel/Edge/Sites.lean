import L8Tunnel.Base.Run
import L8Tunnel.Edge.Listener
import L8Tunnel.Edge.Pool
import L8Tunnel.EdgeConf.Stored
import L8Tunnel.HttpProxy.Proxy

/-! # TERMINATE sites on the edge (edge/edge.go, tunnel.go, httpproxy/proxy.go) -/

namespace L8Tunnel.Edge
open Base Auth

def forwardKey (f : EdgePortForward) (i : ℕ) : String :=
  if f.forwardId ≠ "" then f.forwardId else "#" ++ toString i

def poolKey (d : EdgeDomain) (f : EdgePortForward) (i : ℕ) : String :=
  d.domainId ++ "/" ++ forwardKey f i

structure SiteConfig where
  cfg : Config
  nodeIP : String
  netip : Netip
  crypto : Crypto
  http : HttpProxy.Http

/-- The loop of Apply over the forwards: pools and routes so far. -/
structure Gathered where
  heap : ℕ → Pool
  next : ℕ
  pools : GoMap String ℕ := ∅
  routes : List Route := []

namespace Gathered

def route (g : Gathered) (key : String) (ref : ℕ) (d : EdgeDomain) (f : EdgePortForward)
    (access : Access) : Gathered :=
  { g with
    pools := g.pools.set key ref
    routes := g.routes ++ [
      { domain := d, fwd := f, access := access, pool := ref
        tunnel := if f.mode = .terminate then some ⟨key, ref, f, access⟩ else none }] }

def alloc (g : Gathered) (p : Pool) : Gathered :=
  { g with heap := Function.update g.heap g.next p, next := g.next + 1 }

def addForward (c : SiteConfig) (lookup : Lookup) (old : GoMap String ℕ) (d : EdgeDomain)
    (access : Access) (g : Gathered) (fi : EdgePortForward × ℕ) : Gathered :=
  if fi.1.enabled = false then g
  else
    let key := poolKey d fi.1 fi.2
    match (old.get key).filter fun ref => (g.heap ref).fwd = fi.1 with
    | some ref => g.route key ref d fi.1 access
    | none => (g.alloc (.newPool lookup key fi.1 c.nodeIP)).route key g.next d fi.1 access

def addDomain (c : SiteConfig) (lookup : Lookup) (old : GoMap String ℕ) (g : Gathered)
    (d : EdgeDomain) : Gathered :=
  if d.enabled = false then g
  else match parseAccess c.netip c.crypto { allowIps := d.allowIps, denyIps := d.denyIps } with
    | .error _ => g
    | .ok access => d.portForwards.zipIdx.foldl (addForward c lookup old d access) g

end Gathered

structure ApplyEnv where
  lookup : Lookup
  bind : ℤ → Bool
  order : RangeOrder

/-- How far `ServeHTTP` has come before `proxyFor`: it has found the tunnel of the Host,
has looked up the SNI name too, or has picked a backend. -/
inductive Stage where
  | found (name : String)
  | checked
  | picked (backend : String)

/-- A request that has its tunnel but not its proxy yet. -/
structure Asking where
  tun : PoolTunnel
  r : HttpProxy.Request
  port : ℤ
  opened : ℕ
  started : ℕ
  stage : Stage

/-- A request that has its proxy, with the Apply it started after and its dial. -/
structure Inflight where
  tun : PoolTunnel
  proxy : PoolTunnel
  backend : String
  started : ℕ
  dial : Option Pool.Dialing := none

/-- The edge with what its HTTP proxies keep. `opened port` counts the listeners of the
port that have been closed, so that `proxies port n` is the cache of the one opened
after the `n`-th of them: a request keeps the proxy of the listener that accepted it. -/
structure Sites where
  edge : Edge := {}
  pools : GoMap String ℕ := ∅
  heap : ℕ → Pool := fun _ => {}
  next : ℕ := 0
  opened : ℤ → ℕ := fun _ => 0
  proxies : ℤ → ℕ → GoMap String PoolTunnel := fun _ _ => ∅
  asking : ℕ → Option Asking := fun _ => none
  requests : ℕ → Option Inflight := fun _ => none
  domains : List EdgeDomain := []
  applied : ℕ := 0

namespace Sites

def setPool (s : Sites) (ref : ℕ) (p : Pool) : Sites :=
  { s with heap := Function.update s.heap ref p }

def setRequest (s : Sites) (i : ℕ) (r : Inflight) : Sites :=
  { s with requests := Function.update s.requests i (some r) }

def ask (s : Sites) (i : ℕ) (a : Option Asking) : Sites :=
  { s with asking := Function.update s.asking i a }

def gather (c : SiteConfig) (lookup : Lookup) (domains : List EdgeDomain) (s : Sites) : Gathered :=
  domains.foldl (Gathered.addDomain c lookup s.pools) { heap := s.heap, next := s.next }

def stopOld (s : Sites) (g : Gathered) (heap : ℕ → Pool) (key : String) : ℕ → Pool :=
  match s.pools.get key with
  | none => heap
  | some ref =>
    if g.pools.get key = some ref then heap else Function.update heap ref (heap ref).stop

def apply (c : SiteConfig) (env : ApplyEnv) (domains : List EdgeDomain) (version : ℤ)
    (s : Sites) : Sites :=
  if s.edge.closed then s
  else
    let g := s.gather c env.lookup domains
    { s with
      edge := s.edge.relisten env.bind env.order g.routes version
      pools := g.pools
      heap := (s.pools.range env.order).foldl (s.stopOld g) g.heap
      next := g.next
      opened := fun p =>
        if (s.edge.listeners.get p).any fun l => !stays (byPort g.routes) p l then s.opened p + 1
        else s.opened p
      domains := domains
      applied := s.applied + 1 }

structure ServeEnv where
  live : Live
  turn : ℕ
  random : ℕ × ℕ
  now : ℤ

def lookupHTTP (c : SiteConfig) (env : ServeEnv) (l : Listener) (host : String) :
    Option PoolTunnel × HttpProxy.State × String :=
  match l.routes.resolve { c.cfg with live := env.live } env.turn host with
  | none => (none, .unknown, "")
  | some t =>
    match t.route.tunnel with
    | none => (none, .unknown, "")
    | some tun => (some tun, .active, t.route.domain.domain)

def tunnels (env : ServeEnv) (s : Sites)
    (lookup : String → Option PoolTunnel × HttpProxy.State × String) :
    HttpProxy.Tunnels PoolTunnel where
  lookup := lookup
  access tun := tun.access
  pick tun := some fun client =>
    ((s.heap tun.pool).pick (clientIP client) [] env.random).2.map fun ref =>
      ((s.heap tun.pool).cells ref).addr

/-- The `Lookup` of the Host. -/
def lookup (c : SiteConfig) (env : ServeEnv) (i : ℕ) (port : ℤ) (r : HttpProxy.Request)
    (s : Sites) : Sites :=
  match s.edge.listeners.get port with
  | none => s
  | some l =>
    match lookupHTTP c env l (HttpProxy.normalizeHost c.http r.host) with
    | (some tun, .active, name) =>
      if name = "" then s
      else s.ask i (some ⟨tun, r, port, s.opened port, s.applied, .found name⟩)
    | _ => s

def listenerOf (s : Sites) (a : Asking) : Option Listener :=
  if a.opened = s.opened a.port then s.edge.listeners.get a.port else none

/-- The `Lookup` of the SNI name, which an `Apply` may have come before. The routes of a
listener that has been closed are not kept: its request may go on. -/
def sni (c : SiteConfig) (env : ServeEnv) (i : ℕ) (s : Sites) : Sites :=
  match s.asking i with
  | none => s
  | some a =>
    match a.stage with
    | .found name =>
      if (s.listenerOf a).all fun l =>
          HttpProxy.sameTunnel c.http (s.tunnels env (lookupHTTP c env l)) a.r name then
        s.ask i (some { a with stage := .checked })
      else s.ask i none
    | _ => s

/-- `authorize` and `Pick`, in the pool as it is then. -/
def pick (c : SiteConfig) (env : ServeEnv) (i : ℕ) (s : Sites) : Sites :=
  match s.asking i with
  | none => s
  | some a =>
    match a.stage with
    | .checked =>
      match HttpProxy.serveActive c.http c.crypto none env.now
          (s.tunnels env fun _ => (none, .unknown, "")) a.r a.tun with
      | .proxied _ (some backend) r =>
        (s.setPool a.tun.pool ((s.heap a.tun.pool).pick (clientIP r.remoteAddr) [] env.random).1).ask
          i (some { a with stage := .picked backend })
      | _ => s.ask i none
    | _ => s

def proxyOf (s : Sites) (a : Asking) : PoolTunnel :=
  ((s.proxies a.port a.opened).get a.tun.id).getD a.tun

def keepProxy (s : Sites) (a : Asking) : Sites :=
  { s with
    proxies := Function.update s.proxies a.port
      (Function.update (s.proxies a.port) a.opened
        ((s.proxies a.port a.opened).set a.tun.id (s.proxyOf a))) }

def proxyFor (i : ℕ) (s : Sites) : Sites :=
  match s.asking i with
  | none => s
  | some a =>
    match a.stage with
    | .picked backend =>
      ((s.keepProxy a).ask i none).setRequest i
        { tun := a.tun, proxy := s.proxyOf a, backend := backend, started := a.started }
    | _ => s

/-- A backend connection: its address, and with TLS whether the certificate is checked. -/
structure Conn where
  addr : String
  tls : Option Bool
  deriving DecidableEq

/-- How one dial ends. -/
inductive Outcome where
  | refused (why : String)
  | handshake (why : String)
  | connected

def startDial (i : ℕ) (s : Sites) : Sites :=
  match s.requests i with
  | none => s
  | some r => s.setRequest i { r with dial := some ((s.heap r.proxy.pool).dialAddr r.backend) }

def dials (i : ℕ) (random : ℕ × ℕ) (s : Sites) : Option (Inflight × Pool.Dialing × Pool × ℕ) :=
  match s.requests i with
  | none => none
  | some r =>
    match r.dial with
    | none => none
    | some d =>
      let out := (s.heap r.proxy.pool).choose .zero d random
      out.2.map fun ref => (r, d, out.1, ref)

def attempt (i : ℕ) (random : ℕ × ℕ) (now : ℤ) (outcome : Outcome) (s : Sites) : Sites :=
  match s.dials i random with
  | none =>
    match s.requests i with
    | none => s
    | some r => s.setRequest i { r with dial := none }
  | some (r, d, p, ref) =>
    match outcome with
    | .refused why =>
      (s.setPool r.proxy.pool (p.dialFailed ref why now)).setRequest i
        { r with dial := some (d.next ref) }
    | .handshake why =>
      let p := ((p.connected ref).disconnected ref).dialFailed ref ("TLS: " ++ why) now
      (s.setPool r.proxy.pool p).setRequest i { r with dial := none }
    | .connected =>
      (s.setPool r.proxy.pool (p.connected ref)).setRequest i { r with dial := none }

/-- What befalls a member besides dials. -/
inductive Upkeep where
  | passed (now : ℤ)
  | failed (why : String) (now : ℤ)
  | closed

def upkeep (ref member : ℕ) (s : Sites) : Upkeep → Sites
  | .passed now => s.setPool ref ((s.heap ref).modify member (Member.passed now))
  | .failed why now => s.setPool ref ((s.heap ref).dialFailed member why now)
  | .closed => s.setPool ref ((s.heap ref).disconnected member)

/-- `Apply` holds the edge's lock; the steps of a request hold none between them, and
anything may come between two of them. -/
inductive Event where
  | apply (env : ApplyEnv) (domains : List EdgeDomain) (version : ℤ)
  | lookup (env : ServeEnv) (i : ℕ) (port : ℤ) (r : HttpProxy.Request)
  | sni (env : ServeEnv) (i : ℕ)
  | pick (env : ServeEnv) (i : ℕ)
  | proxyFor (i : ℕ)
  | startDial (i : ℕ)
  | attempt (i : ℕ) (random : ℕ × ℕ) (now : ℤ) (outcome : Outcome)
  | upkeep (ref member : ℕ) (u : Upkeep)
  | refresh (ref : ℕ) (answers : Lookup)

def after (c : SiteConfig) (s : Sites) : Event → Sites
  | .apply env domains version => s.apply c env domains version
  | .lookup env i port r => s.lookup c env i port r
  | .sni env i => s.sni c env i
  | .pick env i => s.pick c env i
  | .proxyFor i => s.proxyFor i
  | .startDial i => s.startDial i
  | .attempt i random now outcome => s.attempt i random now outcome
  | .upkeep ref member u => s.upkeep ref member u
  | .refresh ref answers => s.setPool ref ((s.heap ref).refresh answers)

def Event.Within (resolves : String → String → Prop) : Event → Prop
  | .apply env _ _ => env.lookup.Within resolves
  | .refresh _ answers => answers.Within resolves
  | _ => True

inductive Step (c : SiteConfig) (resolves : String → String → Prop) : Sites → Event → Sites → Prop
  where
  | mk (s : Sites) (ev : Event) : ev.Within resolves → Step c resolves s ev (s.after c ev)

end Sites

def RouteSet.Has (rs : RouteSet) (r : Route) : Prop :=
  (∃ n, rs.byName.get n = some r) ∨ (∃ n, rs.wildcards.get n = some r) ∨ rs.base = some r

theorem mem_of_newRouteSet {routes : List Route} {r : Route} (h : (newRouteSet routes).Has r) :
    r ∈ routes := by
  have hcomes := EdgeConf.comes_newRouteSet routes
  rcases h with ⟨n, hn⟩ | ⟨n, hn⟩ | hbase
  · exact (hcomes.entry (false, n) r hn).1
  · exact (hcomes.entry (true, n) r hn).1
  · exact (hcomes.base r hbase).1

theorem has_of_resolve {rs : RouteSet} {cfg : Config} {turn : ℕ} {host : String} {t : Target}
    (h : rs.resolve cfg turn host = some t) : rs.Has t.route := by
  have hwild : ∀ name r, (afterLabel name).bind rs.wildcards.get = some r → rs.Has r := by
    intro name r hr
    obtain ⟨n, -, hn⟩ := Option.bind_eq_some_iff.mp hr
    exact .inr (.inl ⟨n, hn⟩)
  unfold RouteSet.resolve at h
  dsimp only at h
  split at h
  next r hr =>
    cases h
    exact .inl ⟨_, hr⟩
  next base _ hbase =>
    have hmap : ∀ relay : Option RelayTarget, relay.map (fun relay => (⟨base, relay⟩ : Target)) =
        some t → rs.Has t.route := by
      intro relay hrelay
      obtain ⟨relay, -, rfl⟩ := Option.map_eq_some_iff.mp hrelay
      exact .inr (.inr hbase)
    split at h
    · exact hmap _ h
    split at h
    · cases h
      exact .inr (.inr hbase)
    split at h
    next r hr =>
      cases h
      exact hwild _ r hr
    next => exact hmap _ h
  next =>
    obtain ⟨r, hr, rfl⟩ := Option.map_eq_some_iff.mp h
    exact hwild _ r hr

end L8Tunnel.Edge
