import L8Tunnel.Claims.Claim

/-! # Parking, releasing, announcing, heartbeats (claims/lifecycle.go) -/

namespace L8Tunnel.Claims

/-- The rows differ in state and counters only. -/
def Same (r r' : TunLiveTunnel) : Prop :=
  r' = { r with
    state := r'.state, graceUntil := r'.graceUntil, activeConns := r'.activeConns
    totalConns := r'.totalConns, bytesIn := r'.bytesIn, bytesOut := r'.bytesOut }

namespace Same
variable {r r' r'' : TunLiveTunnel}

theorem refl (r : TunLiveTunnel) : Same r r := rfl

theorem trans (h : Same r r') (h' : Same r' r'') : Same r r'' := by
  unfold Same at *
  rw [h'] ; rw [h]

theorem name (h : Same r r') : r'.name = r.name := by rw [h]
theorem tokenId (h : Same r r') : r'.tokenId = r.tokenId := by rw [h]
theorem relayId (h : Same r r') : r'.relayId = r.relayId := by rw [h]
theorem sessionId (h : Same r r') : r'.sessionId = r.sessionId := by rw [h]
theorem publicPort (h : Same r r') : r'.publicPort = r.publicPort := by rw [h]
theorem ports (h : Same r r') : Engine.ports r' = Engine.ports r := by rw [h]; rfl
theorem domains (h : Same r r') : r'.domains = r.domains := by rw [h]

end Same

namespace Engine

def rewriteOne (upd : TunLiveTunnel → Option TunLiveTunnel) (e : Engine) (name : String) : Engine :=
  match e.tunnels.get name with
  | none => e
  | some rec =>
    match upd rec with
    | none => e
    | some rec' => e.setTunnel rec'

def parked (grace : ℤ) (rec : TunLiveTunnel) : TunLiveTunnel :=
  { rec with state := .grace, graceUntil := grace, activeConns := 0 }

/-- A request without a session speaks for every session of its relay. -/
def servedBy (req : TunClaimRequest) (rec : TunLiveTunnel) : Bool :=
  rec.relayId = req.relayId ∧ (req.sessionId = "" ∨ rec.sessionId = req.sessionId)

def park (e : Engine) (cfg : Config) (env : Env) (req : TunClaimRequest) : Engine :=
  let grace := if req.graceUntil = 0 then unix (env.now + cfg.grace) else req.graceUntil
  req.names.foldl (rewriteOne fun rec =>
    if servedBy req rec then some (parked grace rec) else none) e

def release (e : Engine) (req : TunClaimRequest) : Engine :=
  req.names.foldl (fun e name =>
    if (e.tunnels.get name).any (servedBy req) then e.deleteTunnel name else e) e

/-- A relay heard from is never down, and keeps the start time known when it sends none. -/
def touchRelay (e : Engine) (env : Env) (id : String) (r : Option TunRelay) : Engine :=
  let rec1 : TunRelay := match r with
    | none => { relayId := id, state := .ready }
    | some r => { r with relayId := id }
  let rec2 := if rec1.state = .unspecified ∨ rec1.state = .down then { rec1 with state := .ready }
    else rec1
  let rec3 := { rec2 with lastSeen := unix env.now }
  e.setRelay (match e.relays.get id with
    | some old => if rec3.startedAt = 0 then { rec3 with startedAt := old.startedAt } else rec3
    | none => rec3)

/-- Another relay serves the name, for another agent. -/
def conflictsWith (e : Engine) (relayId : String) (t : TunLiveTunnel) : Bool :=
  (e.tunnels.get t.name).any fun cur =>
    cur.relayId ≠ relayId ∧ cur.state = .active ∧ cur.agentId ≠ t.agentId

def listed (relayId : String) (t : TunLiveTunnel) : TunLiveTunnel :=
  { t with relayId := relayId, state := if t.state = .unspecified then .active else t.state }

/-- The loop of `announce`: the engine, what the relay listed and what it must give up. -/
structure Announcing where
  engine : Engine
  reported : List String := []
  conflicts : List String := []

def announceTunnel (cfg : Config) (req : TunClaimRequest) (a : Announcing) (t : TunLiveTunnel) :
    Announcing :=
  if t.simulated ∧ cfg.allowSimulated = false then a
  else if a.engine.conflictsWith req.relayId t then
    { a with conflicts := a.conflicts ++ [t.name] }
  else
    { a with
      engine := a.engine.setTunnel (listed req.relayId t)
      reported := a.reported ++ [t.name] }

/-- What the relay no longer lists is parked, not dropped. -/
def parkUnreported (e : Engine) (cfg : Config) (env : Env) (req : TunClaimRequest)
    (reported : List String) : Engine :=
  (e.tunnels.range env.order).foldl (rewriteOne fun rec =>
    if rec.relayId = req.relayId ∧ rec.name ∉ reported ∧ rec.state = .active then
      some { rec with state := .grace, graceUntil := unix (env.now + cfg.grace) }
    else none) e

def announceAgent (cfg : Config) (req : TunClaimRequest) (e : Engine) (a : TunAgent) : Engine :=
  if a.simulated ∧ cfg.allowSimulated = false then e
  else e.setAgent { a with relayId := req.relayId }

def announce (e : Engine) (cfg : Config) (env : Env) (req : TunClaimRequest) :
    Engine × TunClaimResponse :=
  if req.relay.any (·.simulated) ∧ cfg.allowSimulated = false then
    (e, refuse .forbidden "simulated records aren't accepted here")
  else
    let e1 := match req.relay with
      | some r => e.touchRelay env req.relayId (some r)
      | none => e
    let a := req.tunnels.foldl (announceTunnel cfg req) { engine := e1 }
    let e2 := a.engine.parkUnreported cfg env req a.reported
    (req.agents.foldl (announceAgent cfg req) e2, { conflicts := a.conflicts })

/-- Counters that did not change write nothing. -/
def heartbeatTunnel (req : TunClaimRequest) (e : Engine) (t : TunLiveTunnel) : Engine :=
  rewriteOne (fun rec =>
    if rec.relayId ≠ req.relayId ∨ rec.state ≠ .active then none
    else if rec.activeConns = t.activeConns ∧ rec.totalConns = t.totalConns ∧
        rec.bytesIn = t.bytesIn ∧ rec.bytesOut = t.bytesOut then none
    else some { rec with
      activeConns := t.activeConns, totalConns := t.totalConns
      bytesIn := t.bytesIn, bytesOut := t.bytesOut }) e t.name

def heartbeatAgent (env : Env) (req : TunClaimRequest) (e : Engine) (a : TunAgent) : Engine :=
  match e.agents.get a.agentId with
  | none => e
  | some rec =>
    if rec.relayId ≠ req.relayId ∨ rec.sessionId ≠ a.sessionId then e
    else e.setAgent { rec with
      lastHeartbeat := a.lastHeartbeat, rttUs := a.rttUs, tunnelCount := a.tunnelCount
      activeStreams := a.activeStreams, bytesIn := a.bytesIn, bytesOut := a.bytesOut
      lastSeen := unix env.now }

def heartbeat (e : Engine) (env : Env) (req : TunClaimRequest) : Engine :=
  let e1 := e.touchRelay env req.relayId req.relay
  let e2 := req.tunnels.foldl (heartbeatTunnel req) e1
  req.agents.foldl (heartbeatAgent env req) e2

def upAgent (env : Env) (relayId : String) (a : TunAgent) : TunAgent :=
  { a with
    relayId := relayId, state := .online, graceUntil := 0, disconnectReason := .unspecified
    connectedAt := if a.connectedAt = 0 then unix env.now else a.connectedAt
    lastSeen := unix env.now, lastHeartbeat := unix env.now }

def agentUp (e : Engine) (cfg : Config) (env : Env) (req : TunClaimRequest) :
    Engine × TunClaimResponse :=
  match req.agent with
  | none => (e, refuse .invalid "agent with agentId and sessionId is required")
  | some a =>
    if a.agentId = "" ∨ a.sessionId = "" then
      (e, refuse .invalid "agent with agentId and sessionId is required")
    else if a.simulated ∧ cfg.allowSimulated = false then
      (e, refuse .forbidden "simulated records aren't accepted here")
    else (e.setAgent (upAgent env req.relayId a), {})

def downAgent (e : Engine) (cfg : Config) (env : Env) (rec : TunAgent)
    (reason : TunDisconnectReason) : Engine :=
  let down := { rec with
    state := .grace, disconnectReason := reason, graceUntil := unix (env.now + cfg.grace)
    lastSeen := unix env.now, activeStreams := 0 }
  e.setAgent (if reason = .tokenRevoked then { down with state := .offline, graceUntil := 0 }
    else down)

def agentDown (e : Engine) (cfg : Config) (env : Env) (req : TunClaimRequest) : Engine :=
  match e.agents.get req.agentId with
  | none => e
  | some rec =>
    if rec.relayId ≠ req.relayId ∨ rec.sessionId ≠ req.sessionId then e
    else e.downAgent cfg env rec req.reason

end Engine
end L8Tunnel.Claims
