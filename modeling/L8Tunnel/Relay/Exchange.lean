import Mathlib.Data.List.Sort
import L8Tunnel.Claims.Active
import L8Tunnel.Relay.Node
import L8Tunnel.Relay.Presence
import L8Tunnel.Relay.Server

/-! # A relay's sessions and the engine (relay/session.go, tun/relaynode/node.go) -/

namespace L8Tunnel.Relay
open Base Claims

def tunnelTypeName : TunnelType → String
  | .tcp => "tcp"
  | .ssh => "ssh"
  | .http => "http"
  | .tls => "tls"
  | _ => ""

structure Meters where
  rttMicros : String → ℤ := fun _ => 0
  lastSeen : String → ℤ := fun _ => 0
  activeConns : String → ℤ := fun _ => 0
  totalConns : String → ℤ := fun _ => 0
  bytesIn : String → ℤ := fun _ => 0
  bytesOut : String → ℤ := fun _ => 0

/-- A session of the relay: its tunnels, and those of a registration not yet complete. -/
structure AgentSession where
  info : AgentInfo
  remote : String := ""
  tunnels : List TunnelStatus := []
  opened : Option (List TunnelStatus) := none

namespace AgentSession

def id (s : AgentSession) : String := s.info.sessionID
def names (s : AgentSession) : List String := (s.tunnels ++ s.opened.getD []).map (·.name)

def status (m : Meters) (s : AgentSession) : SessionStatus :=
  { id := s.id, token := s.info.tokenName, tokenID := s.info.tokenID, agentID := s.info.agentID
    remote := s.remote, version := s.info.version, os := s.info.os, arch := s.info.arch
    connectedAt := s.info.connectedAt, rttMicros := m.rttMicros s.id, lastSeen := m.lastSeen s.id
    tunnels := s.tunnels.map fun t =>
      { t with
        activeConns := m.activeConns t.tunnelID, totalConns := m.totalConns t.tunnelID
        bytesIn := m.bytesIn t.tunnelID, bytesOut := m.bytesOut t.tunnelID } }

def claimFor (s : AgentSession) (c : ClaimRequest) : ClaimRequest :=
  { c with sessionID := s.id, agentID := s.info.agentID, tokenID := s.info.tokenID }

end AgentSession

def openTunnel (c : ClaimRequest) (port : ℤ) : TunnelStatus :=
  { tunnelID := c.tunnelID, name := c.name
    publicPort := if hasPublicPort c.type ∧ c.accessToken = false then port % 2 ^ 32 else 0
    domains := c.domains, accessToken := c.accessToken, type := tunnelTypeName c.type
    hostname := c.hostname }

/-- What the relay sends to the registry; messages may overtake each other. -/
inductive Message where
  | park (sessionID : String) (names : List String)
  | release (sessionID : String) (names : List String)
  | announce (st : Status)
  | heartbeat (st : Status)
  | agentUp (a : AgentInfo)
  | agentDown (agentID sessionID : String) (reason : DisconnectReason)

namespace Message

def request (n : Node) : Message → TunClaimRequest
  | .park sessionID names =>
    { kind := .park, relayId := n.relayID, sessionId := sessionID, names := names }
  | .release sessionID names =>
    { kind := .release, relayId := n.relayID, sessionId := sessionID, names := names }
  | .announce st => n.announceRequest st
  | .heartbeat st => n.heartbeatRequest st
  | .agentUp a => agentUpRequest n.relayID a
  | .agentDown agentID sessionID reason => agentDownRequest n.relayID agentID sessionID reason

theorem request_relayId (n : Node) (m : Message) : (m.request n).relayId = n.relayID := by
  cases m with
  | _ => rfl

section
variable {n : Node} {cfg : Config} {env : Env} {e : Engine} {sessionID : String}
  {names : List String}

theorem handle_park (hn : n.relayID ≠ "") :
    (e.handle cfg env (request n (.park sessionID names))).1 =
      e.park cfg env (request n (.park sessionID names)) := congrArg Prod.fst (if_neg hn)

theorem handle_release (hn : n.relayID ≠ "") :
    (e.handle cfg env (request n (.release sessionID names))).1 =
      e.release (request n (.release sessionID names)) := congrArg Prod.fst (if_neg hn)

theorem handle_agentDown (hn : n.relayID ≠ "") {agentID : String} {reason : DisconnectReason} :
    (e.handle cfg env (request n (.agentDown agentID sessionID reason))).1 =
      e.agentDown cfg env (request n (.agentDown agentID sessionID reason)) :=
  congrArg Prod.fst (if_neg hn)

end

def ends (name id : String) : Message → Bool
  | .park sessionID names => sessionID = id ∧ name ∈ names
  | .release sessionID names => sessionID = id ∧ name ∈ names
  | _ => false

end Message

def unlessEmpty (send : List String → Message) (ts : List TunnelStatus) : List Message :=
  if ts = [] then [] else [send (ts.map (·.name))]

/-- One relay and the registry, with the messages in flight. -/
structure Exchange where
  engine : Engine
  sessions : Table AgentSession.id
  used : List String
  inFlight : List Message

/-- A step of a session, a message on its way or arriving, or the sweep. -/
inductive Action where
  | connect (a : AgentInfo) (remote : String)
  | register (id : String)
  | claim (id : String) (c : ClaimRequest) (env : Env)
  | abort (id : String)
  | complete (id : String)
  | finish (id : String) (reason : DisconnectReason)
  | announce (m : Meters) (order : RangeOrder)
  | heartbeat (m : Meters) (order : RangeOrder)
  | deliver (i : ℕ) (env : Env)
  | sweep (env : Env)

namespace Exchange

def start : Exchange := ⟨Engine.new, .empty, [], []⟩

def status (x : Exchange) (m : Meters) (order : RangeOrder) : Status :=
  ((order.visit x.sessions.values).map (AgentSession.status m)).insertionSort
    fun s t => s.connectedAt ≤ t.connectedAt

def idle (x : Exchange) (id : String) : Option AgentSession :=
  (x.sessions.get id).filter (·.opened.isNone)

def registering (x : Exchange) (id : String) : Option (AgentSession × List TunnelStatus) :=
  (x.sessions.get id).bind fun s => s.opened.map fun opened => (s, opened)

def store (x : Exchange) (s : AgentSession) : Exchange := { x with sessions := x.sessions.put s }
def send (x : Exchange) (ms : List Message) : Exchange := { x with inFlight := x.inFlight ++ ms }

def rollback (x : Exchange) (s : AgentSession) (opened : List TunnelStatus) : Exchange :=
  (x.store { s with opened := none }).send (unlessEmpty (.release s.id) opened)

def closeTunnels (s : AgentSession) (reason : DisconnectReason) : List Message :=
  unlessEmpty (if reason = .tokenRevoked then .release s.id else .park s.id) s.tunnels

def finish (x : Exchange) (s : AgentSession) (reason : DisconnectReason) : Exchange :=
  { x with sessions := x.sessions.del s.id }.send
    (.agentDown s.info.agentID s.id reason :: closeTunnels s reason)

def claim (n : Node) (cfg : Config) (env : Env) (x : Exchange) (c : ClaimRequest)
    (s : AgentSession) (opened : List TunnelStatus) : Exchange :=
  match claimTunnel cfg n.relayID (s.claimFor c) [] (some env) x.engine with
  | (e, .port p) =>
    { x with engine := e }.store { s with opened := some (opened ++ [openTunnel c p]) }
  | (e, _) => { x with engine := e }.rollback s opened

def next (n : Node) (cfg : Config) (x : Exchange) : Action → Option Exchange
  | .connect a remote =>
    if a.sessionID = "" ∨ a.sessionID ∈ x.used then none
    else some ({ x with used := a.sessionID :: x.used }.store { info := a, remote := remote }
      |>.send [.agentUp a])
  | .register id => (x.idle id).map fun s => x.store { s with opened := some [] }
  | .claim id c env => (x.registering id).map fun (s, opened) => x.claim n cfg env c s opened
  | .abort id => (x.registering id).map fun (s, opened) => x.rollback s opened
  | .complete id => (x.registering id).map fun (s, opened) =>
    x.store { s with tunnels := s.tunnels ++ opened, opened := none }
  | .finish id reason => (x.idle id).map fun s => x.finish s reason
  | .announce m order => some (x.send [.announce (x.status m order)])
  | .heartbeat m order => some (x.send [.heartbeat (x.status m order)])
  | .deliver i env => x.inFlight[i]?.map fun m =>
    { x with
      engine := (x.engine.handle cfg env (m.request n)).1, inFlight := x.inFlight.eraseIdx i }
  | .sweep env =>
    if x.engine.inTime cfg env then some { x with engine := x.engine.sweep cfg env } else none

def Step (n : Node) (cfg : Config) (x : Exchange) (a : Action) (y : Exchange) : Prop :=
  x.next n cfg a = some y

end Exchange
end L8Tunnel.Relay
