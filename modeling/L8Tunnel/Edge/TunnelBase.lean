import L8Tunnel.Config.Cluster
import L8Tunnel.Edge.Listener

/-! # The tunnel base's ports on the edge (tun/edge/domains/tunnelbase.go) -/

namespace L8Tunnel.Edge
open Base Net Auth Transport GoString
open L8Tunnel.Config (ClusterFile)

def relayForward (id : String) (port portEnd : Int32) (proto : EdgeProtocol) (target : ℤ) :
    EdgePortForward :=
  { forwardId := id, listenPort := port, listenPortEnd := portEnd, protocol := proto
    mode := .relay, targetKind := .relays, targetPort := Int32.ofInt target, lb := .roundRobin
    healthType := .tcp, enabled := true }

def httpsForward (f : ClusterFile) : EdgePortForward :=
  relayForward "https" (Int32.ofInt f.pub.https) 0 .tls f.relay.tls

def httpForward (f : ClusterFile) : EdgePortForward :=
  relayForward "http" (Int32.ofInt f.pub.http) 0 .http f.relay.http

def rangeForward (f : ClusterFile) : EdgePortForward :=
  let lo := f.portRange.1
  let hi := f.portRange.2
  relayForward "tcp-range" (Int32.ofInt lo) (if lo = hi then 0 else Int32.ofInt hi) .tcp
    f.relay.stream

def gatewayForward (f : ClusterFile) : EdgePortForward :=
  relayForward "ssh-gateway" (Int32.ofInt f.pub.gateway) 0 .tcp f.relay.gateway

def tunnelBaseForwards (f : ClusterFile) : List EdgePortForward :=
  [httpsForward f] ++ (if f.pub.http > 0 then [httpForward f] else []) ++ [rangeForward f] ++
    (if f.pub.gateway > 0 then [gatewayForward f] else [])

/-- The tunnels' base domain as the edge is configured with it. -/
structure BaseDomain (n : Netip) (c : Crypto) (f : ClusterFile) where
  domain : EdgeDomain
  access : Access
  kind : domain.kind = .tunnelBase
  enabled : domain.enabled = true
  forwards : domain.portForwards = tunnelBaseForwards f
  lists : parseAccess n c { allowIps := domain.allowIps, denyIps := domain.denyIps } = .ok access

section
variable {n : Netip} {c : Crypto} {f : ClusterFile}

def BaseDomain.route (d : BaseDomain n c f) (fwd : EdgePortForward) : Route :=
  { domain := d.domain, fwd := fwd, access := d.access }

def BaseDomain.routesAt (d : BaseDomain n c f) (p : ℤ) : List Route :=
  (if p = f.pub.https then [d.route (httpsForward f)] else []) ++
    (if f.pub.http > 0 ∧ p = f.pub.http then [d.route (httpForward f)] else []) ++
    (if f.portRange.1 ≤ p ∧ p ≤ f.portRange.2 then [d.route (rangeForward f)] else []) ++
    (if f.pub.gateway > 0 ∧ p = f.pub.gateway then [d.route (gatewayForward f)] else [])

theorem toInt_ofInt_port {p : ℤ} (hlo : -1 ≤ p) (hhi : p ≤ 65535) : (Int32.ofInt p).toInt = p :=
  Int32.toInt_ofInt_of_le (by omega) (by omega)

theorem ofInt_ne_zero {p : ℤ} (hhi : p ≤ 65535) (hpos : 0 < p) : Int32.ofInt p ≠ 0 := by
  intro hz
  have hback := toInt_ofInt_port (p := p) (by omega) hhi
  rw [hz] at hback
  have hzero : (0 : Int32).toInt = 0 := rfl
  omega

theorem mem_single {id : String} {port p : ℤ} {proto : EdgeProtocol} {target : ℤ}
    (hlo : -1 ≤ port) (hhi : port ≤ 65535) :
    p ∈ portsOf (relayForward id (Int32.ofInt port) 0 proto target) ↔ p = port := by
  rw [mem_portsOf]
  have hport : (relayForward id (Int32.ofInt port) 0 proto target).listenPort.toInt = port :=
    toInt_ofInt_port hlo hhi
  have hlast : lastPort (relayForward id (Int32.ofInt port) 0 proto target) = port := by
    unfold lastPort
    exact (if_pos rfl).trans hport
  rw [hport, hlast]
  omega

theorem mem_range_forward (hv : f.ValidPorts) (p : ℤ) :
    p ∈ portsOf (rangeForward f) ↔ f.portRange.1 ≤ p ∧ p ≤ f.portRange.2 := by
  obtain ⟨hlo, hle, hhi⟩ := hv.range
  have hfirst : (rangeForward f).listenPort.toInt = f.portRange.1 :=
    toInt_ofInt_port (by omega) (by omega)
  have hsecond : (Int32.ofInt f.portRange.2).toInt = f.portRange.2 :=
    toInt_ofInt_port (by omega) (by omega)
  have hnonzero : Int32.ofInt f.portRange.2 ≠ 0 := ofInt_ne_zero hhi (by omega)
  have hlast : lastPort (rangeForward f) = f.portRange.2 := by
    unfold lastPort
    by_cases heq : f.portRange.1 = f.portRange.2
    · rw [if_pos (by simp [rangeForward, relayForward, heq]), hfirst, heq]
    · rw [if_neg (by simp [rangeForward, relayForward, heq, hnonzero])]
      simpa [rangeForward, relayForward, heq] using hsecond
  rw [mem_portsOf, hfirst, hlast]

theorem BaseDomain.routes_filter (d : BaseDomain n c f) (hv : f.ValidPorts) (p : ℤ) :
    (routesOf n c [d.domain]).filter (fun r => p ∈ portsOf r.fwd) = d.routesAt p := by
  have hroutes : routesOf n c [d.domain] = (tunnelBaseForwards f).map d.route := by
    have henabled : (tunnelBaseForwards f).filter (fun f => f.enabled) = tunnelBaseForwards f := by
      refine List.filter_eq_self.mpr ?_
      intro fwd hfwd
      simp only [tunnelBaseForwards, List.mem_append, List.mem_singleton, List.mem_ite_nil_right]
        at hfwd
      rcases hfwd with ((rfl | ⟨-, rfl⟩) | rfl) | ⟨-, rfl⟩ <;> rfl
    unfold routesOf
    rw [List.flatMap_singleton, if_neg (by simp [d.enabled]), d.lists]
    dsimp only
    rw [d.forwards, henabled]
    rfl
  have hhttps : p ∈ portsOf (httpsForward f) ↔ p = f.pub.https :=
    mem_single (by have := hv.https; omega) (by have := hv.https; omega)
  have hhttp : p ∈ portsOf (httpForward f) ↔ p = f.pub.http :=
    mem_single (by have := hv.http; omega) (by have := hv.http; omega)
  have hgateway : p ∈ portsOf (gatewayForward f) ↔ p = f.pub.gateway :=
    mem_single (by have := hv.gateway; omega) (by have := hv.gateway; omega)
  have hone : ∀ fwd : EdgePortForward, ([fwd].map d.route).filter (fun r => p ∈ portsOf r.fwd) =
      if p ∈ portsOf fwd then [d.route fwd] else [] := by
    intro fwd
    by_cases h : p ∈ portsOf fwd <;> simp [route, h]
  have hopt : ∀ (on : Prop) [Decidable on] (fwd : EdgePortForward),
      ((if on then [fwd] else []).map d.route).filter (fun r => p ∈ portsOf r.fwd) =
        if on ∧ p ∈ portsOf fwd then [d.route fwd] else [] := by
    intro on _ fwd
    by_cases hon : on <;> by_cases h : p ∈ portsOf fwd <;> simp [route, h, hon]
  rw [hroutes]
  unfold tunnelBaseForwards routesAt
  simp only [List.map_append, List.filter_append, hone, hopt, hhttps, hhttp, hgateway,
    mem_range_forward hv]

theorem BaseDomain.add_route (d : BaseDomain n c f) (rs : RouteSet) (fwd : EdgePortForward) :
    rs.add (d.route fwd) =
      { rs with
        base := some (d.route fwd)
        single := if fwd.protocol = .tcp then some (d.route fwd) else rs.single } := by
  have hkind : (d.route fwd).domain.kind = .tunnelBase := d.kind
  have hproto : (d.route fwd).fwd.protocol = fwd.protocol := rfl
  unfold RouteSet.add
  simp only [if_pos hkind, hproto]
  split <;> rfl

theorem BaseDomain.opened (d : BaseDomain n c f) (hv : f.ValidPorts) (bind : ℤ → Bool)
    (order : RangeOrder) {e : Edge} (version : ℤ) {p : ℤ} (hopen : e.closed = false)
    (hne : d.routesAt p ≠ []) :
    Opened (d.routesAt p) p (e.apply n c bind order [d.domain] version).listeners :=
  apply_listener n c bind order e _ version p _ hopen (d.routes_filter hv p) hne

end

theorem serve_stream {l : Listener} {cfg : Config} {turn : ℕ} {client : TCPAddr}
    {opening : Opening} {r : Route} (h : l.serve cfg turn client opening = .stream r) :
    l.proto ≠ .tls ∧ l.proto ≠ .http ∧ l.routes.single = some r ∧ r.fwd.listenPortEnd ≠ 0 := by
  have hforward : ∀ t, forward t ≠ .stream r := by
    intro t
    unfold forward
    split <;> exact Action.noConfusion
  unfold Listener.serve at h
  split at h
  · unfold Listener.serveTLS at h
    split at h
    · split at h
      · cases h
      · split at h
        · cases h
        · exact absurd h (hforward _)
    · cases h
  · unfold Listener.serveHTTP at h
    split at h
    · split at h
      · cases h
      · exact absurd h (hforward _)
    · cases h
  next htls hhttp =>
    unfold Listener.serveTCP at h
    split at h
    · cases h
    next r' hsingle =>
    split at h
    next hrange =>
      cases h
      exact ⟨htls, hhttp, hsingle, hrange.2⟩
    next =>
      dsimp only at h
      split at h
      · cases h
      · exact absurd h (hforward _)

def toRelay (access : Access) (client : TCPAddr) (relay : Option RelayTarget) (port : ℤ) : Action :=
  match relay with
  | none => .close
  | some relay =>
    if access.allowsIP (clientIP client) then .relay relay (Int32.ofInt port) else .close

def Config.relayFor (cfg : Config) (turn : ℕ) (host : String) : Option RelayTarget :=
  let host := GoString.toLower (GoString.trimSuffix host ".")
  if host ≠ "" ∧ host = cfg.controlSNI then cfg.relayPick true turn
  else match if host ≠ "" then cfg.live.ownerOfHost host else none with
    | some relay => some relay
    | none => cfg.relayPick false turn

/-- What a port of the range does: it dials the owner of the port and signs for the client. -/
structure Streams (w : Wire) (f : ClusterFile) (access : Access) (cfg : Config) (l : Listener)
    (r : Route) : Prop where
  dials : ∀ client here now, l.stream w cfg r client here now =
    (cfg.live.ownerOfPort l.port).bind fun (relay, name) =>
      if access.allowsIP (clientIP client) then
        (writeProxyHeader w client here
          (signedTLVs w cfg.forwardKey name (client.text w.ipText) now)).map fun header =>
            (joinHostPort relay.ip (toString f.relay.stream), header)
      else none
  verifies : ∀ client here now later addr header, InWindow now later →
    l.stream w cfg r client here now = some (addr, header) →
    ∃ relay name, cfg.live.ownerOfPort l.port = some (relay, name) ∧
      verifySignedTLVs w cfg.forwardKey header.tlvs (client.text w.ipText) later =
        .ok (Bytes.ofString name)

/-- Every public port of the cluster file is served as the file says. -/
structure ServesPorts (w : Wire) (f : ClusterFile) (access : Access)
    (ls : Table Listener.port) : Prop where
  range : ∀ p, f.rules.portMin ≤ p → p ≤ f.rules.portMax → ∃ l, ls.get p = some l ∧
    ∀ cfg turn client opening, ∃ r, l.serve cfg turn client opening = .stream r ∧
      Streams w f access cfg l r
  https : ∃ l, ls.get f.pub.https = some l ∧ ∀ cfg turn client host,
    l.serve cfg turn client (.hello host) =
      toRelay access client (cfg.relayFor turn host) f.relay.tls
  http : f.pub.http > 0 → ∃ l, ls.get f.pub.http = some l ∧ ∀ cfg turn client host,
    l.serve cfg turn client (.request host) =
      toRelay access client (cfg.relayFor turn host) f.relay.http
  gateway : f.pub.gateway > 0 → ∃ l, ls.get f.pub.gateway = some l ∧
    ∀ cfg turn client opening, l.serve cfg turn client opening =
      toRelay access client (cfg.relayPick false turn) f.relay.gateway

/-- The range has more than one port, and no two forwards share a port. -/
structure PortsApart (f : ClusterFile) : Prop where
  range : f.portRange.1 < f.portRange.2
  https : ¬ (f.portRange.1 ≤ f.pub.https ∧ f.pub.https ≤ f.portRange.2)
  http : f.pub.http > 0 → ¬ (f.portRange.1 ≤ f.pub.http ∧ f.pub.http ≤ f.portRange.2) ∧
    f.pub.http ≠ f.pub.https
  gateway : f.pub.gateway > 0 →
    ¬ (f.portRange.1 ≤ f.pub.gateway ∧ f.pub.gateway ≤ f.portRange.2) ∧
    f.pub.gateway ≠ f.pub.https ∧ (f.pub.http > 0 → f.pub.gateway ≠ f.pub.http)

section
variable {n : Netip} {c : Crypto} {f : ClusterFile} {d : BaseDomain n c f} {w : Wire}

theorem BaseDomain.newRouteSet_one (fwd : EdgePortForward) :
    newRouteSet [d.route fwd] =
      { base := some (d.route fwd)
        single := if fwd.protocol = .tcp then some (d.route fwd) else none } := by
  unfold newRouteSet
  rw [List.foldl_cons, List.foldl_nil, d.add_route]

variable {r : Route} {p : ℤ}

theorem BaseDomain.resolve_base {rs : RouteSet} {cfg : Config} {turn : ℕ} {host : String}
    (hrs : rs.byName = ∅ ∧ rs.wildcards = ∅) (hbase : rs.base = some r) :
    rs.resolve cfg turn host = (cfg.relayFor turn host).map fun relay => ⟨r, relay⟩ := by
  have hwild : (afterLabel (toLower (trimSuffix host "."))).bind
      rs.wildcards.get = none := by
    rw [hrs.2]
    cases afterLabel (toLower (trimSuffix host ".")) <;> rfl
  unfold RouteSet.resolve Config.relayFor
  dsimp only
  rw [hrs.1, GoMap.get_empty, hbase]
  dsimp only
  split
  · rfl
  · generalize (if toLower (trimSuffix host ".") ≠ "" then
      cfg.live.ownerOfHost (toLower (trimSuffix host ".")) else none) = owner
    cases owner with
    | none => simp only [hwild]
    | some relay => rfl

theorem admitted_some (t : Target) (client : TCPAddr) :
    admitted (some t) client =
      if t.route.access.allowsIP (clientIP client) then some t else none := by
  unfold admitted
  rw [Option.filter_some]

variable {l : Listener} {id : String} {port portEnd : Int32} {proto : EdgeProtocol} {target : ℤ}
  {cfg : Config} {turn : ℕ} {client : TCPAddr}

theorem forwarded_toRelay (answer : Target → Action)
    (hanswer : ∀ relay, answer ⟨d.route (relayForward id port portEnd proto target), relay⟩ =
      .relay relay (Int32.ofInt target)) (relay : Option RelayTarget) :
    (match admitted (relay.map fun relay =>
        ⟨d.route (relayForward id port portEnd proto target), relay⟩) client with
      | none => .close
      | some t => answer t) = toRelay d.access client relay target := by
  cases relay with
  | none => rfl
  | some relay =>
    rw [Option.map_some, admitted_some]
    cases hip : d.access.allowsIP (clientIP client) with
    | false => simp [toRelay, BaseDomain.route, hip]
    | true => simpa [toRelay, BaseDomain.route, hip] using hanswer relay

theorem serve_tls (hproto : l.proto = .tls)
    (hroutes : l.routes = newRouteSet [d.route (relayForward id port portEnd proto target)])
    (host : String) :
    l.serve cfg turn client (.hello host) =
      toRelay d.access client (cfg.relayFor turn host) target := by
  unfold Listener.serve
  rw [hproto]
  dsimp only [Listener.serveTLS]
  rw [hroutes, d.newRouteSet_one, BaseDomain.resolve_base ⟨rfl, rfl⟩ rfl]
  generalize cfg.relayFor turn host = relay
  exact forwarded_toRelay
    (fun t => if t.route.fwd.mode = .terminate then .terminate t.route else forward t)
    (fun relay => rfl) relay

theorem serve_http (hproto : l.proto = .http)
    (hroutes : l.routes = newRouteSet [d.route (relayForward id port portEnd proto target)])
    (host : String) :
    l.serve cfg turn client (.request host) =
      toRelay d.access client (cfg.relayFor turn host) target := by
  unfold Listener.serve
  rw [hproto]
  dsimp only [Listener.serveHTTP]
  rw [hroutes, d.newRouteSet_one, BaseDomain.resolve_base ⟨rfl, rfl⟩ rfl]
  generalize cfg.relayFor turn host = relay
  exact forwarded_toRelay forward (fun relay => rfl) relay

theorem serve_tcp (hproto : l.proto = .tcp)
    (hroutes : l.routes = newRouteSet [d.route (relayForward id port 0 .tcp target)])
    (opening : Opening) :
    l.serve cfg turn client opening =
      toRelay d.access client (cfg.relayPick false turn) target := by
  unfold Listener.serve
  rw [hproto]
  dsimp only [Listener.serveTCP]
  rw [hroutes, d.newRouteSet_one]
  generalize cfg.relayPick false turn = relay
  exact forwarded_toRelay forward (fun relay => rfl) relay

theorem serve_range (hproto : l.proto = .tcp)
    (hroutes : l.routes = newRouteSet [d.route (relayForward id port portEnd .tcp target)])
    (hend : portEnd ≠ 0) (opening : Opening) :
    l.serve cfg turn client opening =
      .stream (d.route (relayForward id port portEnd .tcp target)) := by
  unfold Listener.serve
  rw [hproto]
  dsimp only [Listener.serveTCP]
  rw [hroutes, d.newRouteSet_one]
  simp [BaseDomain.route, Route.isRelay, relayForward, hend]

theorem streams_range (hv : f.ValidPorts) :
    Streams w f d.access cfg l (d.route (rangeForward f)) := by
  have htarget : (d.route (rangeForward f)).fwd.targetPort.toInt = f.relay.stream := by
    have hs := hv.relay f.relay.stream (by simp)
    exact toInt_ofInt_port (by omega) hs.2
  have hdials : ∀ client here now, l.stream w cfg (d.route (rangeForward f)) client here now =
      (cfg.live.ownerOfPort l.port).bind fun (relay, name) =>
        if d.access.allowsIP (clientIP client) then
          (writeProxyHeader w client here
            (signedTLVs w cfg.forwardKey name (client.text w.ipText) now)).map fun header =>
              (joinHostPort relay.ip (toString f.relay.stream), header)
        else none := by
    intro client here now
    unfold Listener.stream
    cases cfg.live.ownerOfPort l.port with
    | none => rfl
    | some owner =>
      obtain ⟨relay, name⟩ := owner
      rw [Option.bind_some]
      dsimp only
      rw [htarget]
      cases hip : d.access.allowsIP (clientIP client) with
      | false => simp [BaseDomain.route, hip]
      | true => simp [BaseDomain.route, hip]
  refine ⟨hdials, ?_⟩
  intro client here now later addr header hwin hstream
  rw [hdials] at hstream
  obtain ⟨⟨relay, name⟩, howner, hwrite⟩ := Option.bind_eq_some_iff.mp hstream
  refine ⟨relay, name, howner, ?_⟩
  dsimp only at hwrite
  split at hwrite
  · obtain ⟨header', hheader, hpair⟩ := Option.map_eq_some_iff.mp hwrite
    unfold writeProxyHeader at hheader
    obtain ⟨source, -, hsource⟩ := Option.map_eq_some_iff.mp hheader
    cases hpair
    rw [← hsource, verify_signedTLVs hwin]
    exact if_pos rfl
  · cases hwrite

theorem PortsApart.range_only (h : PortsApart f) (d : BaseDomain n c f)
    (hin : f.portRange.1 ≤ p ∧ p ≤ f.portRange.2) : d.routesAt p = [d.route (rangeForward f)] := by
  have hhttps : p ≠ f.pub.https := by
    intro heq
    rw [heq] at hin
    exact h.https hin
  have hhttp : ¬ (f.pub.http > 0 ∧ p = f.pub.http) := by
    rintro ⟨hon, heq⟩
    rw [heq] at hin
    exact (h.http hon).1 hin
  have hgateway : ¬ (f.pub.gateway > 0 ∧ p = f.pub.gateway) := by
    rintro ⟨hon, heq⟩
    rw [heq] at hin
    exact (h.gateway hon).1 hin
  unfold BaseDomain.routesAt
  rw [if_neg hhttps, if_neg hhttp, if_pos hin, if_neg hgateway]
  rfl

theorem PortsApart.https_only (h : PortsApart f) (d : BaseDomain n c f) :
    d.routesAt f.pub.https = [d.route (httpsForward f)] := by
  have hhttp : ¬ (f.pub.http > 0 ∧ f.pub.https = f.pub.http) :=
    fun heq => (h.http heq.1).2 heq.2.symm
  have hgateway : ¬ (f.pub.gateway > 0 ∧ f.pub.https = f.pub.gateway) :=
    fun heq => (h.gateway heq.1).2.1 heq.2.symm
  unfold BaseDomain.routesAt
  rw [if_pos rfl, if_neg hhttp, if_neg h.https, if_neg hgateway]
  rfl

theorem PortsApart.http_only (h : PortsApart f) (d : BaseDomain n c f) (hon : f.pub.http > 0) :
    d.routesAt f.pub.http = [d.route (httpForward f)] := by
  have hgateway : ¬ (f.pub.gateway > 0 ∧ f.pub.http = f.pub.gateway) :=
    fun heq => (h.gateway heq.1).2.2 hon heq.2.symm
  unfold BaseDomain.routesAt
  rw [if_neg (h.http hon).2, if_pos ⟨hon, rfl⟩, if_neg (h.http hon).1, if_neg hgateway]
  rfl

theorem PortsApart.gateway_only (h : PortsApart f) (d : BaseDomain n c f)
    (hon : f.pub.gateway > 0) : d.routesAt f.pub.gateway = [d.route (gatewayForward f)] := by
  have hhttp : ¬ (f.pub.http > 0 ∧ f.pub.gateway = f.pub.http) :=
    fun heq => (h.gateway hon).2.2 heq.1 heq.2
  unfold BaseDomain.routesAt
  rw [if_neg (h.gateway hon).2.1, if_neg hhttp, if_neg (h.gateway hon).1, if_pos ⟨hon, rfl⟩]
  rfl

theorem BaseDomain.opened_one (d : BaseDomain n c f) (hv : f.ValidPorts) (bind : ℤ → Bool)
    (order : RangeOrder) {e : Edge} (version : ℤ) {fwd : EdgePortForward} (hopen : e.closed = false)
    (hone : d.routesAt p = [d.route fwd]) :
    ∃ l, (e.apply n c bind order [d.domain] version).listeners.get p = some l ∧
      l.proto = fwd.protocol ∧ l.routes = newRouteSet [d.route fwd] := by
  have hne : d.routesAt p ≠ [] := by
    rw [hone]
    exact List.cons_ne_nil _ _
  have hopened := d.opened hv bind order version hopen hne
  rw [hone] at hopened
  exact hopened

theorem rangeForward_of_lt (h : f.portRange.1 < f.portRange.2) :
    rangeForward f = relayForward "tcp-range" (Int32.ofInt f.portRange.1)
      (Int32.ofInt f.portRange.2) .tcp f.relay.stream := by
  unfold rangeForward
  dsimp only
  rw [if_neg (Int.ne_of_lt h)]

theorem servesPorts_of_apart (hv : f.ValidPorts) (hapart : PortsApart f) (d : BaseDomain n c f)
    (bind : ℤ → Bool) (order : RangeOrder) (e : Edge) (version : ℤ) (hopen : e.closed = false) :
    ServesPorts w f d.access (e.apply n c bind order [d.domain] version).listeners := by
  constructor
  · intro p hmin hmax
    have hin := (f.rules_ports p).mp ⟨hmin, hmax⟩
    obtain ⟨l, hl, hproto, hroutes⟩ :=
      d.opened_one hv bind order version hopen (hapart.range_only d hin)
    refine ⟨l, hl, fun cfg turn client opening =>
      ⟨d.route (rangeForward f), ?_, streams_range hv⟩⟩
    rw [rangeForward_of_lt hapart.range] at hproto hroutes ⊢
    exact serve_range hproto hroutes (ofInt_ne_zero hv.range.2.2 (by have := hv.range; omega))
      opening
  · obtain ⟨l, hl, hproto, hroutes⟩ :=
      d.opened_one hv bind order version hopen (hapart.https_only d)
    exact ⟨l, hl, fun cfg turn client host => serve_tls hproto hroutes host⟩
  · intro hon
    obtain ⟨l, hl, hproto, hroutes⟩ :=
      d.opened_one hv bind order version hopen (hapart.http_only d hon)
    exact ⟨l, hl, fun cfg turn client host => serve_http hproto hroutes host⟩
  · intro hon
    obtain ⟨l, hl, hproto, hroutes⟩ :=
      d.opened_one hv bind order version hopen (hapart.gateway_only d hon)
    exact ⟨l, hl, fun cfg turn client opening => serve_tcp hproto hroutes opening⟩

theorem BaseDomain.single_at (d : BaseDomain n c f) (p : ℤ) :
    (newRouteSet (d.routesAt p)).single =
      if f.pub.gateway > 0 ∧ p = f.pub.gateway then some (d.route (gatewayForward f))
      else if f.portRange.1 ≤ p ∧ p ≤ f.portRange.2 then some (d.route (rangeForward f))
      else none := by
  have hopt : ∀ (rs : RouteSet) (on : Prop) [Decidable on] (fwd : EdgePortForward),
      ((if on then [d.route fwd] else []).foldl RouteSet.add rs).single =
        if on then (if fwd.protocol = .tcp then some (d.route fwd) else rs.single)
        else rs.single := by
    intro rs on _ fwd
    by_cases hon : on
    · rw [if_pos hon, if_pos hon, List.foldl_cons, List.foldl_nil, d.add_route]
    · rw [if_neg hon, if_neg hon, List.foldl_nil]
  have hhttps : (httpsForward f).protocol = .tls := rfl
  have hhttp : (httpForward f).protocol = .http := rfl
  have hrange : (rangeForward f).protocol = .tcp := rfl
  have hgateway : (gatewayForward f).protocol = .tcp := rfl
  unfold newRouteSet routesAt
  simp only [List.foldl_append, hopt, hhttps, hhttp, hrange, hgateway, reduceCtorEq, if_true,
    if_false, ite_self]

theorem BaseDomain.proto_https (d : BaseDomain n c f) :
    d.routesAt f.pub.https ≠ [] ∧ protoOf (d.routesAt f.pub.https) = .tls := by
  unfold routesAt
  rw [if_pos rfl]
  exact ⟨List.cons_ne_nil _ _, rfl⟩

theorem BaseDomain.proto_http (d : BaseDomain n c f) (hon : f.pub.http > 0)
    (hne : f.pub.http ≠ f.pub.https) :
    d.routesAt f.pub.http ≠ [] ∧ protoOf (d.routesAt f.pub.http) = .http := by
  unfold routesAt
  rw [if_neg hne, if_pos ⟨hon, rfl⟩]
  exact ⟨List.cons_ne_nil _ _, rfl⟩

theorem BaseDomain.range_apart (hin : f.portRange.1 ≤ p ∧ p ≤ f.portRange.2) {opening : Opening}
    (hproto : l.proto = protoOf (d.routesAt p)) (hroutes : l.routes = newRouteSet (d.routesAt p))
    (hserve : l.serve cfg turn client opening = .stream r) :
    p ≠ f.pub.https ∧ ¬ (f.pub.http > 0 ∧ p = f.pub.http) ∧
      ¬ (f.pub.gateway > 0 ∧ p = f.pub.gateway) ∧ (rangeForward f).listenPortEnd ≠ 0 := by
  obtain ⟨htls, hhttp, hsingle, hend⟩ := serve_stream hserve
  rw [hproto] at htls hhttp
  have hapart : p ≠ f.pub.https := by
    rintro rfl
    exact htls d.proto_https.2
  have hgateway : ¬ (f.pub.gateway > 0 ∧ p = f.pub.gateway) := by
    intro hg
    rw [hroutes, d.single_at, if_pos hg] at hsingle
    cases hsingle
    exact hend rfl
  refine ⟨hapart, ?_, hgateway, ?_⟩
  · rintro ⟨hon, rfl⟩
    exact hhttp (d.proto_http hon hapart).2
  · rw [hroutes, d.single_at, if_neg hgateway, if_pos hin] at hsingle
    cases hsingle
    exact hend

def oneRelay : Config :=
  { controlSNI := "", forwardKey := []
    live := { relays := [{}], ownerOfHost := fun _ => none, ownerOfPort := fun _ => none } }

theorem oneRelay_pick : oneRelay.relayPick false 0 = some {} := by
  unfold Config.relayPick
  rw [show oneRelay.live.relays = [{}] from rfl]
  simp

theorem oneRelay_for : oneRelay.relayFor 0 "" = some {} := by
  have hempty : toLower (trimSuffix "" ".") = "" := by decide
  unfold Config.relayFor
  rw [hempty]
  exact oneRelay_pick

def closes (proto : EdgeProtocol) : Opening → Prop
  | .hello _ => False
  | .request _ => proto = .tls
  | .other => proto = .tls ∨ proto = .http

theorem serve_closes {opening : Opening} (h : closes l.proto opening) :
    l.serve cfg turn client opening = .close := by
  unfold Listener.serve
  cases opening with
  | hello host => exact h.elim
  | request host =>
    have hp : l.proto = .tls := h
    rw [hp]
    rfl
  | other => rcases h with hp | hp <;> rw [hp] <;> rfl

theorem BaseDomain.not_closes (hlists : d.access = {}) {port : ℤ} {opening : Opening}
    {ls : Table Listener.port} (hopened : Opened (d.routesAt p) p ls) (hl : ls.get p = some l)
    (hserve : l.serve cfg turn client opening = toRelay d.access client (some {}) port) :
    ¬ closes (protoOf (d.routesAt p)) opening := by
  intro hcloses
  obtain ⟨l', hl', hproto, -⟩ := hopened
  rw [hl] at hl'
  cases hl'
  rw [← hproto] at hcloses
  rw [serve_closes hcloses, hlists] at hserve
  cases hserve

section
variable {ls : Table Listener.port} (hlists : d.access = {})
  (hopened : ∀ p, d.routesAt p ≠ [] → Opened (d.routesAt p) p ls)
  (h : ServesPorts w f d.access ls)
include hopened h

theorem ServesPorts.range_apart {p : ℤ} (hin : f.portRange.1 ≤ p ∧ p ≤ f.portRange.2) :
    p ≠ f.pub.https ∧ ¬ (f.pub.http > 0 ∧ p = f.pub.http) ∧
      ¬ (f.pub.gateway > 0 ∧ p = f.pub.gateway) ∧ (rangeForward f).listenPortEnd ≠ 0 := by
  have hne : d.routesAt p ≠ [] := by
    unfold BaseDomain.routesAt
    rw [if_pos hin]
    simp
  have hports := (f.rules_ports p).mpr hin
  obtain ⟨l, hl, hproto, hroutes⟩ := hopened p hne
  obtain ⟨l', hl', hserve⟩ := h.range p hports.1 hports.2
  rw [hl] at hl'
  cases hl'
  obtain ⟨r, hr, -⟩ := hserve oneRelay 0 ⟨.zero, 0⟩ .other
  exact BaseDomain.range_apart hin hproto hroutes hr

include hlists

theorem ServesPorts.http_apart (hon : f.pub.http > 0) : f.pub.http ≠ f.pub.https := by
  intro heq
  obtain ⟨l, hl, hserve⟩ := h.http hon
  have hs := hserve oneRelay 0 ⟨.zero, 0⟩ ""
  rw [oneRelay_for] at hs
  rw [heq] at hl
  exact d.not_closes hlists (hopened _ d.proto_https.1) hl hs d.proto_https.2

theorem ServesPorts.gateway_apart (hon : f.pub.gateway > 0) {p : ℤ} (heq : f.pub.gateway = p)
    (hne : d.routesAt p ≠ []) : protoOf (d.routesAt p) ≠ .tls ∧ protoOf (d.routesAt p) ≠ .http := by
  obtain ⟨l, hl, hserve⟩ := h.gateway hon
  have hs := hserve oneRelay 0 ⟨.zero, 0⟩ .other
  rw [oneRelay_pick] at hs
  rw [heq] at hl
  exact not_or.mp (d.not_closes hlists (hopened _ hne) hl hs)

theorem ServesPorts.apart (hv : f.ValidPorts) : PortsApart f := by
  obtain ⟨-, hle, -⟩ := hv.range
  have hhttp := h.http_apart hlists hopened
  refine ⟨?_, ?_, ?_, ?_⟩
  · refine Int.lt_iff_le_and_ne.mpr ⟨hle, fun heq => ?_⟩
    refine (h.range_apart hopened ⟨Int.le_refl _, hle⟩).2.2.2 ?_
    unfold rangeForward
    dsimp only
    rw [if_pos heq]
    rfl
  · exact fun hin => (h.range_apart hopened hin).1 rfl
  · exact fun hon => ⟨fun hin => (h.range_apart hopened hin).2.1 ⟨hon, rfl⟩, hhttp hon⟩
  · intro hon
    have hhttps : f.pub.gateway ≠ f.pub.https := fun heq =>
      (h.gateway_apart hlists hopened hon heq d.proto_https.1).1 d.proto_https.2
    refine ⟨fun hin => (h.range_apart hopened hin).2.2.1 ⟨hon, rfl⟩, hhttps, fun hhon heq => ?_⟩
    have hproto := d.proto_http hhon (hhttp hhon)
    exact (h.gateway_apart hlists hopened hon heq hproto.1).2 hproto.2

end

end

def plainBase (n : Netip) (c : Crypto) (f : ClusterFile) : BaseDomain n c f where
  domain :=
    { domain := f.baseDomain, aliases := ["*." ++ f.baseDomain], kind := .tunnelBase
      enabled := true, portForwards := tunnelBaseForwards f }
  access := {}
  kind := rfl
  enabled := rfl
  forwards := rfl
  lists := rfl

def PortsServed (w : Wire) (n : Netip) (c : Crypto) (f : ClusterFile) : Prop :=
  ∀ (d : BaseDomain n c f) (bind : ℤ → Bool) (order : RangeOrder) (e : Edge) (version : ℤ),
    e.closed = false → ServesPorts w f d.access (e.apply n c bind order [d.domain] version).listeners

/-- The edge serves every port of an accepted configuration as the registry
and the relays expect exactly if the range has more than one port and the
forwards' ports are apart. -/
theorem portsServed_iff_apart (w : Wire) (n : Netip) (c : Crypto) (order : RangeOrder)
    (f f' : ClusterFile) (hnorm : f.normalize n order = .ok f') :
    PortsServed w n c f' ↔ PortsApart f' := by
  have hv := ClusterFile.normalize_valid hnorm
  constructor
  · intro h
    refine (h (plainBase n c f') (fun _ => true) order {} 0 rfl).apart rfl ?_ hv
    exact fun p hne => (plainBase n c f').opened hv (fun _ => true) order 0 rfl hne
  · intro hapart d bind order e version hopen
    exact servesPorts_of_apart hv hapart d bind order e version hopen

def plainFile (tcpPortRange : String) : ClusterFile :=
  { baseDomain := "example.com", tcpPortRange := tcpPortRange }

theorem default_range_served :
    PortsServed plainWire .plain .plain (plainFile "").withDefaults :=
  (portsServed_iff_apart plainWire .plain .plain RangeOrder.stored (plainFile "") _
    (by rfl)).mpr
      ⟨by decide, by decide, fun _ => ⟨by decide, by decide⟩, fun h => absurd h (by decide)⟩

/-- A range of one port is accepted, and no connection to it is a mode A stream. -/
theorem one_port_range_not_served :
    ¬ ∀ f f' : ClusterFile, f.normalize .plain RangeOrder.stored = .ok f' →
      PortsServed plainWire .plain .plain f' := by
  intro h
  have hnorm : (plainFile "22000").normalize .plain RangeOrder.stored =
      .ok (plainFile "22000").withDefaults := by rfl
  have hv := ClusterFile.normalize_valid hnorm
  have hserved := h _ _ hnorm (plainBase _ _ _) (fun _ => true) RangeOrder.stored {} 0 rfl
  have hapart := hserved.apart rfl
    (fun p hne => (plainBase _ _ _).opened hv (fun _ => true) RangeOrder.stored 0 rfl hne) hv
  exact absurd hapart.range (by decide)

end L8Tunnel.Edge
