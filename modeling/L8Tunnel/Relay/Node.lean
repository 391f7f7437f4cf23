import Mathlib.Algebra.Ring.Int.Defs
import L8Tunnel.Relay.Link

/-! # A relay's report of its state (tun/relaynode/node.go) -/

namespace L8Tunnel.Relay
open Base Claims

structure TunnelStatus where
  tunnelID : String := ""
  name : String
  publicPort : ℤ := 0
  domains : List String := []
  accessToken : Bool := false
  type : String := ""
  hostname : String := ""
  activeConns : ℤ := 0
  totalConns : ℤ := 0
  bytesIn : ℤ := 0
  bytesOut : ℤ := 0

structure SessionStatus where
  id : String
  token : String := ""
  tokenID : String := ""
  agentID : String := ""
  remote : String := ""
  version : String := ""
  os : String := ""
  arch : String := ""
  connectedAt : ℤ := 0
  rttMicros : ℤ := 0
  lastSeen : ℤ := 0
  tunnels : List TunnelStatus := []

abbrev Status := List SessionStatus

/-- The relay as it describes itself to the registry. -/
structure Node where
  relayID : String
  podIP : String := ""
  tls : ℤ := 0
  http : ℤ := 0
  stream : ℤ := 0
  gateway : ℤ := 0
  ops : ℤ := 0
  version : String := ""
  startedAt : ℤ := 0
  certNotAfter : ℤ := 0
  draining : Bool := false

def typeNamed (name : String) : TunTunnelType :=
  if name = "tcp" then .tcp
  else if name = "ssh" then .ssh
  else if name = "http" then .http
  else if name = "tls" then .tls
  else .unspecified

def hostOf (addr : String) : String :=
  match GoString.splitHostPort addr with
  | some (host, _) => host
  | none => addr

def liveTunnel (s : SessionStatus) (t : TunnelStatus) : TunLiveTunnel :=
  { tunnelId := t.tunnelID, name := t.name, type := typeNamed t.type, hostname := t.hostname
    domains := t.domains, publicPort := Int32.ofInt t.publicPort, agentId := s.agentID
    tokenId := s.tokenID, sessionId := s.id, state := .active, connectedAt := s.connectedAt
    accessToken := t.accessToken, activeConns := t.activeConns, totalConns := t.totalConns
    bytesIn := t.bytesIn, bytesOut := t.bytesOut }

def liveAgent (s : SessionStatus) : TunAgent :=
  { agentId := s.agentID, tokenId := s.tokenID, tokenName := s.token, sessionId := s.id
    version := s.version, os := s.os, arch := s.arch, publicIp := hostOf s.remote, state := .online
    connectedAt := s.connectedAt, lastHeartbeat := s.lastSeen, rttUs := s.rttMicros
    tunnelCount := Int32.ofInt s.tunnels.length
    activeStreams := (s.tunnels.map (·.activeConns)).sum
    bytesIn := (s.tunnels.map (·.bytesIn)).sum, bytesOut := (s.tunnels.map (·.bytesOut)).sum }

def state (st : Status) : List TunLiveTunnel × List TunAgent :=
  (st.flatMap fun s => s.tunnels.map (liveTunnel s), st.map liveAgent)

namespace Node

def relayRecord (n : Node) (st : Status) : TunRelay :=
  { relayId := n.relayID, podIp := n.podIP, tlsPort := Int32.ofInt n.tls
    httpPort := Int32.ofInt n.http, streamPort := Int32.ofInt n.stream
    gatewayPort := Int32.ofInt n.gateway, opsPort := Int32.ofInt n.ops
    state := if n.draining then .draining else .ready
    sessions := Int32.ofInt st.length, version := n.version, startedAt := n.startedAt
    certNotAfter := n.certNotAfter
    tunnels := Int32.ofInt (st.map (·.tunnels.length)).sum
    bytesIn := (st.flatMap fun s => s.tunnels.map (·.bytesIn)).sum
    bytesOut := (st.flatMap fun s => s.tunnels.map (·.bytesOut)).sum }

def report (n : Node) (kind : TunClaimKind) (st : Status) : TunClaimRequest :=
  { kind := kind, relayId := n.relayID, relay := some (n.relayRecord st)
    tunnels := (Relay.state st).1, agents := (Relay.state st).2 }

def announceRequest (n : Node) (st : Status) : TunClaimRequest := n.report .announce st
def heartbeatRequest (n : Node) (st : Status) : TunClaimRequest := n.report .heartbeat st

end Node

variable {st : Status} {r : TunLiveTunnel} {cfg : Config}

theorem mem_state : r ∈ (state st).1 ↔ ∃ s ∈ st, ∃ t ∈ s.tunnels, liveTunnel s t = r := by
  simp [state]

theorem state_accepted (h : r ∈ (state st).1) : accepts cfg r = true := by
  obtain ⟨s, _, t, _, rfl⟩ := mem_state.mp h
  rfl

theorem state_active (h : r ∈ (state st).1) : r.state = .active := by
  obtain ⟨s, _, t, _, rfl⟩ := mem_state.mp h
  rfl

theorem mem_listings_state {n : String} :
    r ∈ listings cfg (state st).1 n ↔ r ∈ (state st).1 ∧ r.name = n := by
  rw [mem_listings]
  exact ⟨fun h => ⟨h.1, h.2.2⟩, fun h => ⟨h.1, state_accepted h.1, h.2⟩⟩

theorem announceRequest_announces {n : Node} (h : n.relayID ≠ "") (cfg : Config) (st : Status) :
    Announces cfg (n.announceRequest st) :=
  ⟨rfl, h, by simp [Node.announceRequest, Node.report, Node.relayRecord]⟩

end L8Tunnel.Relay
