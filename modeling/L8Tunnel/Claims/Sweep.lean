import L8Tunnel.Claims.Lifecycle

/-! # Time, operator commands and requests (claims/sweep.go, engine.go) -/

namespace L8Tunnel.Claims
open Base

namespace Engine

def lostAgent (cfg : Config) (env : Env) (id : String) (e : Engine) (k : String) : Engine :=
  match e.agents.get k with
  | none => e
  | some a =>
    if a.relayId = id ∧ a.state = .online then e.downAgent cfg env a .relayLost else e

/-- A relay not heard from: its tunnels park for the grace period, its agents go down with it.
-/
def lostRelay (e : Engine) (cfg : Config) (env : Env) (id : String) (r : TunRelay) : Engine :=
  let e1 := e.setRelay { r with state := .down, sessions := 0, tunnels := 0 }
  let e2 := (e1.tunnels.range env.order).foldl (rewriteOne fun t =>
    if t.relayId = id ∧ t.state = .active then some (parked (unix (env.now + cfg.grace)) t)
    else none) e1
  (e2.agents.range env.order).foldl (lostAgent cfg env id) e2

/-- Simulated rows are never swept; a relay goes down first and is deleted later. -/
def sweepRelay (cfg : Config) (env : Env) (e : Engine) (id : String) : Engine :=
  match e.relays.get id with
  | none => e
  | some r =>
    if r.simulated then e
    else if r.state ≠ .down ∧ r.lastSeen < unix (env.now - cfg.relayTimeout) then
      e.lostRelay cfg env id r
    else if r.state = .down ∧ r.lastSeen < unix (env.now - cfg.downRetention) then
      e.deleteRelay r id
    else e

def sweepTunnel (env : Env) (e : Engine) (name : String) : Engine :=
  match e.tunnels.get name with
  | none => e
  | some t =>
    if t.simulated = false ∧ t.state = .grace ∧ t.graceUntil ≤ unix env.now then
      e.deleteTunnel name
    else e

def sweepAgent (cfg : Config) (env : Env) (e : Engine) (id : String) : Engine :=
  match e.agents.get id with
  | none => e
  | some a =>
    if a.simulated then e
    else if a.state = .grace ∧ a.graceUntil ≤ unix env.now then
      e.setAgent { a with state := .offline, graceUntil := 0 }
    else if a.state = .offline ∧ a.lastSeen < unix (env.now - cfg.offlineRetention) then
      e.deleteAgent a id
    else e

/-- Relays, then tunnels, then agents: each pass sees what the one before it left. -/
def sweep (e : Engine) (cfg : Config) (env : Env) : Engine :=
  let e1 := (e.relays.range env.order).foldl (sweepRelay cfg env) e
  let e2 := (e1.tunnels.range env.order).foldl (sweepTunnel env) e1
  (e2.agents.range env.order).foldl (sweepAgent cfg env) e2

def kindName : TunCtlCommandKind → String
  | .unspecified => "TUN_CTL_COMMAND_KIND_UNSPECIFIED"
  | .reannounce => "TUN_CTL_COMMAND_KIND_REANNOUNCE"
  | .drain => "TUN_CTL_COMMAND_KIND_DRAIN"
  | .resume => "TUN_CTL_COMMAND_KIND_RESUME"
  | .disconnectAgent => "TUN_CTL_COMMAND_KIND_DISCONNECT_AGENT"
  | .disconnectTunnel => "TUN_CTL_COMMAND_KIND_DISCONNECT_TUNNEL"
  | .takenOver => "TUN_CTL_COMMAND_KIND_TAKEN_OVER"
  | .unknown code => toString code.toInt

/-- The source's loop does not break: of several active rows the last one stands. -/
def connectedTunnel (e : Engine) (env : Env) (tunnelId : String) : Option TunLiveTunnel :=
  (e.tunnels.range env.order).foldl (fun found name =>
    match e.tunnels.get name with
    | some t => if t.tunnelId = tunnelId ∧ t.state = .active then some t else found
    | none => found) none

/-- Drain and resume write the relay's row; an accepted command is reported, with its relay and
agent filled in. -/
def command (e : Engine) (env : Env) (cmd : TunCtlCommand) : Engine × Except String Unit :=
  match cmd.kind with
  | .drain | .resume =>
    match e.relays.get cmd.relayId with
    | none => (e, .error ("relay " ++ GoString.quote cmd.relayId ++ ": not found"))
    | some r =>
      if r.state = .down then
        (e, .error ("relay " ++ GoString.quote cmd.relayId ++ ": not found"))
      else
        let state : TunRelayState := if cmd.kind = .drain then .draining else .ready
        ((e.setRelay { r with state := state }).report (.command cmd), .ok ())
  | .disconnectAgent =>
    match e.agents.get cmd.agentId with
    | none =>
      (e, .error ("agent " ++ GoString.quote cmd.agentId ++ " isn't connected: not found"))
    | some a =>
      if a.state ≠ .online then
        (e, .error ("agent " ++ GoString.quote cmd.agentId ++ " isn't connected: not found"))
      else (e.report (.command { cmd with relayId := a.relayId }), .ok ())
  | .disconnectTunnel =>
    match e.connectedTunnel env cmd.tunnelId with
    | none =>
      (e, .error ("tunnel " ++ GoString.quote cmd.tunnelId ++ " isn't connected: not found"))
    | some t =>
      (e.report (.command { cmd with relayId := t.relayId, agentId := t.agentId }), .ok ())
  | .reannounce => (e.report (.command cmd), .ok ())
  | kind => (e, .error ("unsupported command " ++ kindName kind))

def handle (e : Engine) (cfg : Config) (env : Env) (req : TunClaimRequest) :
    Engine × TunClaimResponse :=
  if req.relayId = "" then (e, refuse .invalid "relayId is required")
  else
    match req.kind with
    | .claim => e.claim cfg env req
    | .park => (e.park cfg env req, {})
    | .release => (e.release req, {})
    | .announce => e.announce cfg env req
    | .heartbeat => (e.heartbeat env req, {})
    | .agentUp => e.agentUp cfg env req
    | .agentDown => (e.agentDown cfg env req, {})
    | _ => (e, refuse .invalid "the request kind is required")

end Engine
end L8Tunnel.Claims
