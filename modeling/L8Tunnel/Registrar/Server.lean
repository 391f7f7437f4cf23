import L8Tunnel.Auth.Policy
import L8Tunnel.Base.Prog
import L8Tunnel.Registrar.Registry
import L8Tunnel.Relay.Exchange

/-! # Sessions that register tunnels (relay/session.go, tunnel.go, admin.go) -/

namespace L8Tunnel.Registrar
open Base Registry Auth
open Relay (hasPublicPort tunnelTypeName ErrorCode ClaimRequest DisconnectReason AgentInfo)

structure TunnelSpec where
  name : String := ""
  type : TunnelType := .unspecified
  publicPort : UInt32 := 0
  access : AccessPolicy := {}
  domains : List String := []
  previousPort : UInt32 := 0

inductive OpenError where
  | remote (code : ErrorCode) (message : String)
  | unavailable
  | other (message : String)
  deriving DecidableEq

/-- What a call meets outside: clock, sockets, random names, the store and the cluster. -/
structure World where
  now : ℤ := 0
  binds : Bool := true
  bindError : String := "address already in use"
  randomID : ℕ → String := fun _ => ""
  order : RangeOrder := RangeOrder.stored
  storeError : Option String := none
  lost : List Relay.Failure := []
  claims : Option Claims.Env := none

/-- The registry as a relay reaches it; a standalone relay has none. -/
structure Cluster (γ : Type) where
  claimTunnel : World → ClaimRequest → γ → γ × Except OpenError ℤ
  parkTunnels : String → List String → γ → γ
  releaseTunnels : String → List String → γ → γ
  agentUp : AgentInfo → γ → γ
  agentDown : String → String → DisconnectReason → γ → γ

/-- The relay's configuration, with the libraries it calls. -/
structure Config (γ : Type) where
  rules : Rules
  publicHost : String := ""
  httpsPort : ℤ := 443
  hasProvider : Option (String → Bool) := none
  canServeHost : String → Except String Unit := fun _ => .ok ()
  pathMatch : String → String → Bool := fun _ _ => false
  netip : Netip
  crypto : Crypto
  verify : TokenRecord → String → Bool := fun _ _ => true
  cluster : Option (Cluster γ) := none
  valid : 1 ≤ rules.portMin ∧ rules.portMin ≤ rules.portMax ∧ rules.portMax ≤ 65535

/-- What a registration under way has opened, and the port it has set aside. -/
structure Registering where
  claims : List (ℕ × Bool) := []
  reserving : Option ℤ := none

/-- A session; its tunnels are published when a registration ends. -/
structure AgentSession where
  id : String := ""
  token : Option TokenRecord := none
  agentID : String := ""
  tunnels : List Tunnel := []
  reason : DisconnectReason := .agentClosed
  looked : List String := []
  registering : Option Registering := none

/-- The shared state of a relay. -/
structure Server (γ : Type) where
  registry : NameRegistry
  sockets : GoMap ℕ ℤ := ∅
  nextSocket : ℕ := 0
  sessions : ℕ → AgentSession := fun _ => {}
  tracked : List ℕ := []
  closed : Bool := false
  tokens : Table TokenRecord.id := Table.empty
  released : List String := []
  cluster : γ

/-- What a session does in one piece: a method under the registry's lock, a socket call, a store
or cluster call. -/
inductive Op : Type → Type where
  | claim (name : String) (typ : TunnelType) (tokenID agentID : String) (maxTunnels : ℤ) :
      Op (Except RuleKind (ℕ × Bool))
  | setDomains (ref : ℕ) (domains : List String) : Op (Except String Unit)
  | portOf (ref : ℕ) : Op ℤ
  | reservePort (port : ℤ) : Op Bool
  | releasePort (port : ℤ) : Op Unit
  | setPort (ref : ℕ) (port : ℤ) : Op Unit
  | activate (ref : ℕ) (t : Tunnel) : Op Unit
  | park (ref : ℕ) : Op Unit
  | rollback (ref : ℕ) (existed : Bool) : Op Unit
  | expire (ref : ℕ) : Op Unit
  | reserve (name tokenID : String) (port : ℤ) : Op (Except RuleKind Unit)
  | unreserve (name : String) : Op Unit
  | releaseToken (tokenID : String) : Op (List ℕ)
  | listen (port : ℤ) : Op (Except String ℕ)
  | closeTunnel (t : Tunnel) : Op Unit
  | randomID (nbytes : ℕ) : Op String
  | track (id : String) : Op Bool
  | untrack : Op Unit
  | tokenByID (id : String) : Op (Except String (Option TokenRecord))
  | setToken (token : TokenRecord) (agentID : String) : Op ℤ
  | startRegister : Op Unit
  | endRegister : Op Unit
  | addTunnels (ts : List Tunnel) : Op Unit
  | takeTunnels : Op (List Tunnel)
  | reason : Op DisconnectReason
  | sessionsOf (tokenID : String) : Op (List ℕ)
  | closeSession (sess : ℕ) (reason : DisconnectReason) : Op Unit
  | deleteToken (id : String) : Op Unit
  | claimTunnel (c : ClaimRequest) : Op (Except OpenError ℤ)
  | parkTunnels (sessionID : String) (names : List String) : Op Unit
  | releaseTunnels (sessionID : String) (names : List String) : Op Unit
  | agentUp (a : AgentInfo) : Op Unit
  | agentDown (agentID sessionID : String) (reason : DisconnectReason) : Op Unit

namespace Server
variable {γ : Type}

def onSession (s : Server γ) (sess : ℕ) (f : AgentSession → AgentSession) : Server γ :=
  { s with sessions := Function.update s.sessions sess (f (s.sessions sess)) }

def onRegistering (s : Server γ) (sess : ℕ) (f : Registering → Registering) : Server γ :=
  s.onSession sess fun a => { a with registering := a.registering.map f }

def closeListener (s : Server γ) (t : Tunnel) : Server γ :=
  match t.listener with
  | some socket => { s with sockets := s.sockets.del socket }
  | none => s

def closeStale (s : Server γ) : Option Tunnel → Server γ
  | some t => s.closeListener t
  | none => s

def listening (s : Server γ) (port : ℤ) : Bool := s.sockets.entries.any fun e => e.2 = port

def claim (s : Server γ) (sess : ℕ) (name : String) (typ : TunnelType) (tokenID agentID : String)
    (maxTunnels : ℤ) : Server γ × Except RuleKind (ℕ × Bool) :=
  match s.registry.claim name typ tokenID agentID sess maxTunnels with
  | .error kind => (s, .error kind)
  | .ok c =>
    let s1 := { s with registry := c.registry }.closeStale c.stale
    (s1.onRegistering sess fun g => { g with claims := g.claims ++ [(c.res, c.existed)] },
      .ok (c.res, c.existed))

def listen (s : Server γ) (w : World) (port : ℤ) : Server γ × Except String ℕ :=
  if s.listening port ∨ w.binds = false then (s, .error w.bindError)
  else
    ({ s with sockets := s.sockets.set s.nextSocket port, nextSocket := s.nextSocket + 1 },
      .ok s.nextSocket)

def sessionsOf (s : Server γ) (order : RangeOrder) (tokenID : String) : List ℕ :=
  (order.visit s.tracked).filter fun u => (s.sessions u).token.any fun t => t.id = tokenID

def answer (cfg : Config γ) {β : Type} (sess : ℕ) (w : World) (op : Op β) (s : Server γ) :
    Server γ × β :=
  match op with
  | .claim name typ tokenID agentID maxTunnels => s.claim sess name typ tokenID agentID maxTunnels
  | .setDomains ref domains =>
    match s.registry.setDomains ref domains with
    | .error d => (s, .error d)
    | .ok r => ({ s with registry := r }, .ok ())
  | .portOf ref => (s, s.registry.portOf ref)
  | .reservePort port =>
    match s.registry.reservePort port with
    | none => (s, false)
    | some r =>
      ({ s with registry := r }.onRegistering sess fun g => { g with reserving := some port }, true)
  | .releasePort port =>
    ({ s with registry := s.registry.releasePort port }.onRegistering sess
      fun g => { g with reserving := none }, ())
  | .setPort ref port =>
    ({ s with registry := s.registry.setPort ref port }.onRegistering sess
      fun g => { g with reserving := none }, ())
  | .activate ref t => ({ s with registry := s.registry.activate ref t }, ())
  | .park ref => ({ s with registry := s.registry.park ref sess w.now }, ())
  | .rollback ref existed =>
    ({ s with registry := s.registry.rollback ref sess existed w.now }.onRegistering sess
      fun g => { g with claims := g.claims.erase (ref, existed) }, ())
  | .expire ref => ({ s with registry := s.registry.expire ref }, ())
  | .reserve name tokenID port =>
    match s.registry.reserve name tokenID port with
    | .error kind => (s, .error kind)
    | .ok r => ({ s with registry := r }, .ok ())
  | .unreserve name => ({ s with registry := s.registry.unreserve name }, ())
  | .releaseToken tokenID =>
    let out := s.registry.releaseToken tokenID w.order
    ({ s with registry := out.1, released := tokenID :: s.released }, out.2)
  | .listen port => s.listen w port
  | .closeTunnel t => (s.closeListener t, ())
  | .randomID nbytes => (s, w.randomID nbytes)
  | .track id =>
    if s.closed then (s, false)
    else ({ s with tracked := sess :: s.tracked }.onSession sess fun _ => { id := id }, true)
  | .untrack => ({ s with tracked := s.tracked.filter (· ≠ sess) }, ())
  | .tokenByID id =>
    match w.storeError with
    | some err => (s, .error err)
    | none =>
      match s.tokens.get id with
      | none => (s, .ok none)
      | some rec => (s.onSession sess fun a => { a with looked := id :: a.looked }, .ok (some rec))
  | .setToken token agentID =>
    (s.onSession sess fun a => { a with token := some token, agentID := agentID }, w.now)
  | .startRegister => (s.onSession sess fun a => { a with registering := some {} }, ())
  | .endRegister => (s.onSession sess fun a => { a with registering := none }, ())
  | .addTunnels ts => (s.onSession sess fun a => { a with tunnels := a.tunnels ++ ts }, ())
  | .takeTunnels => (s.onSession sess fun a => { a with tunnels := [] }, (s.sessions sess).tunnels)
  | .reason => (s, (s.sessions sess).reason)
  | .sessionsOf tokenID => (s, s.sessionsOf w.order tokenID)
  | .closeSession u reason =>
    (s.onSession u fun a => { a with reason := if a.reason = .agentClosed then reason else a.reason },
      ())
  | .deleteToken id => ({ s with tokens := s.tokens.del id }, ())
  | .claimTunnel c =>
    match cfg.cluster with
    | none => (s, .error .unavailable)
    | some k => let out := k.claimTunnel w c s.cluster; ({ s with cluster := out.1 }, out.2)
  | .parkTunnels sessionID names =>
    (match cfg.cluster with
      | none => s
      | some k => { s with cluster := k.parkTunnels sessionID names s.cluster }, ())
  | .releaseTunnels sessionID names =>
    (match cfg.cluster with
      | none => s
      | some k => { s with cluster := k.releaseTunnels sessionID names s.cluster }, ())
  | .agentUp a =>
    (match cfg.cluster with
      | none => s
      | some k => { s with cluster := k.agentUp a s.cluster }, ())
  | .agentDown agentID sessionID reason =>
    (match cfg.cluster with
      | none => s
      | some k => { s with cluster := k.agentDown agentID sessionID reason s.cluster }, ())

end Server
end L8Tunnel.Registrar
