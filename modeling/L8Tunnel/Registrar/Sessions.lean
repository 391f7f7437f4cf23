import L8Tunnel.Registrar.Server

/-! # The goroutines of a relay (relay/session.go, tunnel.go, cluster.go, admin.go) -/

namespace L8Tunnel.Registrar
open Base Net Registry Auth Protocol Server
open Relay (hasPublicPort tunnelTypeName ErrorCode ClaimRequest DisconnectReason AgentInfo)

variable {γ : Type}

def ask {β : Type} (op : Op β) : Prog Op β := Prog.lift op

@[simp] theorem ask_bind {α β : Type} (op : Op β) (f : β → Prog Op α) :
    ask op >>= f = .call op f := rfl

/-- Who a session is, once its hello is accepted. -/
structure Identity where
  sessionID : String
  token : TokenRecord
  agentID : String

def refused (code : ErrorCode) (message : String) : OpenError := .remote code message

def Config.checkAccess (cfg : Config γ) (spec : TunnelSpec) : Except OpenError Access :=
  match validateSpecAccess cfg.netip cfg.crypto spec.type spec.publicPort spec.access with
  | .error err =>
    .error (refused .invalidRequest ("tunnel " ++ GoString.quote spec.name ++ ": " ++ err))
  | .ok access =>
    match access.oidc with
    | some rule =>
      if cfg.hasProvider.any fun has => has rule.provider then .ok access
      else .error (refused .invalidRequest ("tunnel " ++ GoString.quote spec.name ++
        ": the relay has no OIDC provider " ++ GoString.quote rule.provider))
    | none => .ok access

def typeText : TunnelType → String
  | .unknown code => toString code.toInt
  | _ => "TUNNEL_TYPE_UNSPECIFIED"

def Config.checkType (cfg : Config γ) (token : TokenRecord) (spec : TunnelSpec) :
    Except OpenError Access :=
  if spec.type ≠ .tcp ∧ spec.type ≠ .ssh ∧ spec.type ≠ .http ∧ spec.type ≠ .tls then
    .error (refused .invalidRequest ("invalid tunnel type " ++ typeText spec.type))
  else if token.policy.allowsType (tunnelTypeName spec.type) = false then
    .error (refused .forbidden ("token " ++ GoString.quote token.name ++ " may not register " ++
      tunnelTypeName spec.type ++ " tunnels"))
  else cfg.checkAccess spec

def Config.checkDomain (cfg : Config γ) (token : TokenRecord) (typ : TunnelType)
    (out : List String) (raw : String) : Except OpenError (List String) :=
  match normalizeTunnelDomain raw with
  | .error err => .error (refused .invalidRequest err)
  | .ok d =>
    if isWildcardDomain d ∧ typ ≠ .tls then
      .error (refused .invalidRequest ("the wildcard domain " ++ d ++
        " needs a tls tunnel (passed through, the machine serves its own certificate)"))
    else if d = cfg.rules.baseDomain ∨
        (GoString.cutSuffix d ("." ++ cfg.rules.baseDomain)).isSome ∨
        d = cfg.rules.controlSNI then
      .error (refused .invalidRequest ("domain " ++ d ++
        " is under the relay's base domain; use the tunnel name instead"))
    else if token.policy.allowsDomain cfg.pathMatch d = false then
      .error (refused .forbidden ("token " ++ GoString.quote token.name ++
        " may not serve the domain " ++ d))
    else
      match (if typ = .http then cfg.canServeHost d else .ok ()) with
      | .error err => .error (refused .invalidRequest ("domain " ++ d ++ ": " ++ err))
      | .ok _ => .ok (if d ∈ out then out else out ++ [d])

def Config.checkDomains (cfg : Config γ) (token : TokenRecord) (spec : TunnelSpec) :
    Except OpenError (List String) :=
  if spec.domains = [] then .ok []
  else if spec.type ≠ .http ∧ spec.type ≠ .tls then
    .error (refused .invalidRequest "custom domains apply only to http and tls tunnels")
  else spec.domains.foldlM (cfg.checkDomain token spec.type) []

def Config.checkName (cfg : Config γ) (token : TokenRecord) (spec : TunnelSpec) (name : String) :
    Except OpenError (List String) :=
  if validName name = false then
    .error (refused .invalidRequest ("tunnel name " ++ GoString.quote name ++
      " must be a lowercase DNS label"))
  else if token.policy.allowsName cfg.pathMatch name = false then
    .error (refused .forbidden ("token " ++ GoString.quote token.name ++
      " may not use the tunnel name " ++ GoString.quote name))
  else if cfg.rules.isReserved name then
    .error (refused .invalidRequest ("tunnel name " ++ GoString.quote name ++
      " is reserved for the relay"))
  else cfg.checkDomains token spec

/-- The port is entered in the registry before it is bound, and given back when that fails. -/
def tryListen (port : ℤ) : Prog Op (Except String ℕ) := do
  if ← ask (.reservePort port) then
    match ← ask (.listen port) with
    | .error err => do
      ask (.releasePort port)
      pure (.error err)
    | .ok ln => pure (.ok ln)
  else pure (.error ("port " ++ toString port ++ " is held by another tunnel"))

def firstPort (ref : ℕ) : List ℤ → Prog Op (Option (ℕ × ℤ))
  | [] => pure none
  | port :: ports => do
    match ← tryListen port with
    | .ok ln => do
      ask (.setPort ref port)
      pure (some (ln, port))
    | .error _ => firstPort ref ports

def portsFrom (lo hi : ℤ) : List ℤ := (List.range (hi - lo + 1).toNat).map fun k : ℕ => lo + k

def portRefused (err : RuleError) : OpenError :=
  if err.kind = .portOutsideRange then refused .portNotAllowed err.msg
  else refused .forbidden err.msg

def portUnavailable (port : ℤ) (err : String) : OpenError :=
  refused .portUnavailable ("port " ++ toString port ++ " is unavailable: " ++ err)

/-- The port the reservation holds, else the one asked for, else the previous one and then the
range from its low end. -/
def listenTunnelPort (rules : Rules) (ref : ℕ) (requested previous : ℤ) (policy : Policy) :
    Prog Op (Except OpenError (ℕ × ℤ)) := do
  let held ← ask (.portOf ref)
  if held ≠ 0 ∧ (requested = 0 ∨ requested = held) then
    match ← ask (.listen held) with
    | .error err => pure (.error (portUnavailable held err))
    | .ok ln => pure (.ok (ln, held))
  else if requested ≠ 0 then
    match rules.checkRequestedPort requested policy with
    | some err => pure (.error (portRefused err))
    | none =>
      match ← tryListen requested with
      | .error err => pure (.error (portUnavailable requested err))
      | .ok ln => do
        ask (.setPort ref requested)
        pure (.ok (ln, requested))
  else
    match rules.allocationRange policy with
    | .error err => pure (.error (refused .forbidden err.msg))
    | .ok (lo, hi) =>
      let before := if lo ≤ previous ∧ previous ≤ hi then [previous] else []
      match ← firstPort ref (before ++ portsFrom lo hi) with
      | some got => pure (.ok got)
      | none =>
        pure (.error (refused .portUnavailable
          ("no free port in the range " ++ toString lo ++ "-" ++ toString hi)))

def Config.httpsHost (cfg : Config γ) (host : String) : String :=
  if cfg.httpsPort ≠ 443 then joinHostPort host (toString cfg.httpsPort) else host

def Config.sharedAddress (cfg : Config γ) (typ : TunnelType) (hostname : String) : String :=
  if typ = .http then "https://" ++ cfg.httpsHost hostname
  else joinHostPort hostname (toString cfg.httpsPort)

def uint32 (port : ℤ) : UInt32 := UInt32.ofNat (port % 4294967296).toNat

def withPort (cfg : Config γ) (e : Endpoint) (port : ℤ) : Endpoint :=
  { e with
    publicPort := uint32 port
    publicAddress := joinHostPort cfg.publicHost (toString port) }

def withAddress (cfg : Config γ) (t : Tunnel) (port : ℤ) : Endpoint :=
  if hasPublicPort t.endpoint.type ∧ t.access.requiresToken = false then
    withPort cfg t.endpoint port
  else
    { t.endpoint with
      publicAddress := cfg.sharedAddress t.endpoint.type t.endpoint.hostname }

def clusterClaim (who : Identity) (t : Tunnel) (spec : TunnelSpec) (bounds : ℤ × ℤ) :
    ClaimRequest :=
  { sessionID := who.sessionID, agentID := who.agentID, tokenID := who.token.id
    maxTunnels := who.token.policy.maxTunnels, portMin := bounds.1, portMax := bounds.2
    tunnelID := t.endpoint.tunnelId, name := t.endpoint.name, hostname := t.endpoint.hostname
    type := t.endpoint.type, domains := t.endpoint.domains
    publicPort := spec.publicPort.toNat, previousPort := spec.previousPort.toNat
    accessToken := t.access.requiresToken }

def claimInCluster (cfg : Config γ) (who : Identity) (t : Tunnel) (spec : TunnelSpec) :
    Prog Op (Except OpenError ℤ) :=
  let requested : ℤ := spec.publicPort.toNat
  let ported := hasPublicPort t.endpoint.type
  match (if requested ≠ 0 ∧ ported then cfg.rules.checkRequestedPort requested who.token.policy
    else none) with
  | some err => pure (.error (portRefused err))
  | none =>
    let range := cfg.rules.allocationRange who.token.policy
    match (if ported then range.map (fun _ => ()) else .ok ()) with
    | .error err => pure (.error (refused .forbidden err.msg))
    | .ok _ =>
      let bounds := match range with
        | .ok b => b
        | .error _ => (0, 0)
      ask (.claimTunnel (clusterClaim who t spec bounds))

/-- In a cluster the port comes from the claim and nothing is bound here. -/
def bindTunnel (cfg : Config γ) (who : Identity) (spec : TunnelSpec) (t : Tunnel) :
    Prog Op (Except OpenError Tunnel) :=
  if cfg.cluster.isSome then do
    match ← claimInCluster cfg who t spec with
    | .error err => pure (.error err)
    | .ok port => pure (.ok { t with endpoint := withAddress cfg t port })
  else if hasPublicPort spec.type ∧ t.access.requiresToken = false then do
    match ← listenTunnelPort cfg.rules t.res spec.publicPort.toNat spec.previousPort.toNat
        who.token.policy with
    | .error err => pure (.error err)
    | .ok (ln, port) =>
      pure (.ok { t with listener := some ln, endpoint := withPort cfg t.endpoint port })
  else
    pure (.ok { t with endpoint :=
      { t.endpoint with publicAddress := cfg.sharedAddress spec.type t.endpoint.hostname } })

def claimRefused (who : Identity) (name : String) : RuleKind → OpenError
  | .maxTunnels =>
    refused .forbidden ("token " ++ GoString.quote who.token.name ++ " may have at most " ++
      toString who.token.policy.maxTunnels ++ " tunnels")
  | _ => refused .nameTaken ("tunnel name " ++ GoString.quote name ++ " is taken")

/-- Each step that fails after the claim rolls the reservation back. -/
def openChecked (cfg : Config γ) (who : Identity) (spec : TunnelSpec) (access : Access)
    (name : String) (domains : List String) : Prog Op (Except OpenError Tunnel) := do
  match ← ask (.claim name spec.type who.token.id who.agentID who.token.policy.maxTunnels) with
  | .error kind => pure (.error (claimRefused who name kind))
  | .ok (ref, existed) =>
    match ← ask (.setDomains ref domains) with
    | .error d => do
      ask (.rollback ref existed)
      pure (.error (refused .nameTaken ("domain " ++ d ++ " is taken")))
    | .ok _ =>
      let id ← ask (.randomID 8)
      let t : Tunnel :=
        { res := ref, existed := existed, access := access
          endpoint :=
            { tunnelId := id, name := name, type := spec.type
              hostname := name ++ "." ++ cfg.rules.baseDomain, domains := domains } }
      match ← bindTunnel cfg who spec t with
      | .error err => do
        ask (.rollback ref existed)
        pure (.error err)
      | .ok t => do
        ask (.activate ref t)
        pure (.ok t)

def openNamed (cfg : Config γ) (who : Identity) (spec : TunnelSpec) (access : Access)
    (name : String) : Prog Op (Except OpenError Tunnel) :=
  match cfg.checkName who.token spec name with
  | .error err => pure (.error err)
  | .ok domains => openChecked cfg who spec access name domains

def openTunnel (cfg : Config γ) (who : Identity) (spec : TunnelSpec) :
    Prog Op (Except OpenError Tunnel) := do
  match cfg.checkType who.token spec with
  | .error err => pure (.error err)
  | .ok access =>
    let random ← if spec.name = "" then ask (.randomID 4) else pure ""
    let name := if spec.name = "" then "t-" ++ random else spec.name
    openNamed cfg who spec access name

inductive Reply where
  | registered (endpoints : List Endpoint)
  | error (code : ErrorCode) (message : String)

/-- The tunnels opened so far come back with the error, for `undo`. -/
def openAll (cfg : Config γ) (who : Identity) :
    List TunnelSpec → List Tunnel → Prog Op (List Tunnel × Option OpenError)
  | [], opened => pure (opened, none)
  | spec :: specs, opened => do
    match ← openTunnel cfg who spec with
    | .error err => pure (opened, some err)
    | .ok t => openAll cfg who specs (opened ++ [t])

def undo : List Tunnel → Prog Op Unit
  | [] => pure ()
  | t :: ts => do
    ask (.closeTunnel t)
    ask (.rollback t.res t.existed)
    undo ts

/-- With the control plane unavailable nothing is answered and the session ends. -/
def errorReply : OpenError → Option Reply
  | .remote code message => some (.error code message)
  | .unavailable => none
  | .other message => some (.error .invalidRequest message)

def tunnelNames (ts : List Tunnel) : List String := ts.map fun t => t.endpoint.name

/-- All of the tunnels asked for, or none. -/
def register (cfg : Config γ) (who : Identity) (specs : List TunnelSpec) :
    Prog Op (Option Reply) :=
  if specs = [] then pure (some (.error .invalidRequest "no tunnels requested"))
  else do
    ask .startRegister
    match ← openAll cfg who specs [] with
    | (opened, some err) => do
      undo opened
      if cfg.cluster.isSome ∧ opened ≠ [] then
        ask (.releaseTunnels who.sessionID (tunnelNames opened))
      ask .endRegister
      pure (errorReply err)
    | (opened, none) => do
      ask (.addTunnels opened)
      ask .endRegister
      pure (some (.registered (opened.map (·.endpoint))))

def parkAll : List Tunnel → Prog Op Unit
  | [] => pure ()
  | t :: ts => do
    ask (.closeTunnel t)
    ask (.park t.res)
    parkAll ts

def closeTunnels (cfg : Config γ) (sessionID : String) : Prog Op Unit := do
  let tunnels ← ask .takeTunnels
  parkAll tunnels
  if cfg.cluster.isSome ∧ tunnels ≠ [] then
    if (← ask .reason) = .tokenRevoked then
      ask (.releaseTunnels sessionID (tunnelNames tunnels))
    else ask (.parkTunnels sessionID (tunnelNames tunnels))

inductive AuthError where
  | unauthorized
  | certRequired
  | lookup (err : String)

abbrev Peer := Option (String × String)

structure Hello where
  protocolVersion : ℕ := 1
  token : String := ""
  agentId : String := ""
  agentVersion : String := ""
  os : String := ""
  arch : String := ""

/-- What an agent sends over a session. -/
structure Agent where
  sessionID : String := ""
  peer : Option Peer := none
  hello : Option Hello := none
  requests : List (List TunnelSpec) := []
  ip : String := ""
  websocket : Bool := false

/-- No client certificate is no error; one that names no token or is not listed there is. -/
def certToken : Option Peer → Prog Op (Except AuthError (Option TokenRecord))
  | none => pure (.ok none)
  | some none => pure (.error .unauthorized)
  | some (some (id, serial)) => do
    match ← ask (.tokenByID id) with
    | .error err => pure (.error (.lookup err))
    | .ok none => pure (.error .unauthorized)
    | .ok (some rec) =>
      if serial ∈ rec.certSerials then pure (.ok (some rec)) else pure (.error .unauthorized)

def verifyToken (cfg : Config γ) (token : String) : Prog Op (Except AuthError TokenRecord) :=
  match parseToken token with
  | none => pure (.error .unauthorized)
  | some (id, secret) => do
    match ← ask (.tokenByID id) with
    | .error err => pure (.error (.lookup err))
    | .ok none => pure (.error .unauthorized)
    | .ok (some rec) =>
      if cfg.verify rec secret then pure (.ok rec) else pure (.error .unauthorized)

/-- A certificate alone is enough; with a token besides it, both must be the same token's. -/
def authenticate (cfg : Config γ) (token : String) (peer : Option Peer) :
    Prog Op (Except AuthError TokenRecord) := do
  match ← certToken peer with
  | .error err => pure (.error err)
  | .ok byCert =>
    if token = "" then
      match byCert with
      | none => pure (.error .unauthorized)
      | some rec => pure (.ok rec)
    else
      match ← verifyToken cfg token with
      | .error err => pure (.error err)
      | .ok rec =>
        if byCert.any fun c => c.id ≠ rec.id then pure (.error .unauthorized)
        else if byCert.isNone ∧ rec.policy.requireCert then pure (.error .certRequired)
        else pure (.ok rec)

def handshake (cfg : Config γ) (a : Agent) : Prog Op (Except OpenError (Identity × ℤ)) :=
  match a.hello with
  | none => pure (.error (.other "no hello"))
  | some hello =>
    if hello.protocolVersion ≠ 1 then
      pure (.error (refused .unsupportedVersion ("relay speaks protocol version 1, agent sent " ++
        toString hello.protocolVersion)))
    else do
      match ← authenticate cfg hello.token a.peer with
      | .error .certRequired =>
        pure (.error (refused .unauthorized "this token requires a client certificate"))
      | .error _ => pure (.error (refused .unauthorized "invalid token or certificate"))
      | .ok rec =>
        if hello.agentId = "" then
          pure (.error (refused .invalidRequest "agent ID is required"))
        else do
          let now ← ask (.setToken rec hello.agentId)
          pure (.ok (⟨a.sessionID, rec, hello.agentId⟩, now))

/-- The agent's requests one after another, until one gets no reply. -/
def controlLoop (cfg : Config γ) (who : Identity) : List (List TunnelSpec) → Prog Op Unit
  | [] => pure ()
  | specs :: rest => do
    match ← register cfg who specs with
    | none => pure ()
    | some _ => controlLoop cfg who rest

def agentInfo (a : Agent) (who : Identity) (connectedAt : ℤ) : AgentInfo :=
  { sessionID := who.sessionID, agentID := who.agentID, tokenID := who.token.id
    tokenName := who.token.name, certSerial := (a.peer.join.map (·.2)).getD ""
    version := (a.hello.map (·.agentVersion)).getD "", os := (a.hello.map (·.os)).getD ""
    arch := (a.hello.map (·.arch)).getD "", publicIP := a.ip, webSocket := a.websocket
    connectedAt := connectedAt }

/-- One agent connection from its handshake to its end; whatever it holds then is parked. -/
def serveAgent (cfg : Config γ) (a : Agent) : Prog Op Unit := do
  if ← ask (.track a.sessionID) then
    match ← handshake cfg a with
    | .error _ => pure ()
    | .ok (who, now) => do
      if cfg.cluster.isSome then ask (.agentUp (agentInfo a who now))
      controlLoop cfg who a.requests
      if cfg.cluster.isSome then
        let reason ← ask .reason
        ask (.agentDown who.agentID who.sessionID reason)
    closeTunnels cfg a.sessionID
    ask .untrack

def closeAll : List ℕ → Prog Op Unit
  | [] => pure ()
  | sess :: rest => do
    ask (.closeSession sess .tokenRevoked)
    closeAll rest

/-- The sessions of the token are closed after its names were released. -/
def disconnectToken (tokenID : String) : Prog Op (List ℕ) := do
  let holders ← ask (.releaseToken tokenID)
  let scanned ← ask (.sessionsOf tokenID)
  let sessions := (holders ++ scanned).dedup
  closeAll sessions
  pure sessions

def reserve (cfg : Config γ) (name tokenID : String) (port : ℤ) : Prog Op (Option String) :=
  match cfg.rules.checkReservation name port with
  | some err => pure (some err.msg)
  | none => do
    match ← ask (.reserve name tokenID port) with
    | .error .nameTaken =>
      pure (some ("tunnel name " ++ GoString.quote name ++ " is held by another token"))
    | .error _ => pure (some ("port " ++ toString port ++ " is held by another tunnel"))
    | .ok _ => pure none

/-- Whatever runs on a relay at a time. -/
inductive Caller where
  | agent (a : Agent)
  | reserve (name tokenID : String) (port : ℤ)
  | unreserve (name : String)
  | disconnectToken (tokenID : String)
  | revokeToken (tokenID : String)
  | expire (ref : ℕ)

def Caller.prog (cfg : Config γ) : Caller → Prog Op (List ℕ)
  | .agent a => do
    serveAgent cfg a
    pure []
  | .reserve name tokenID port => do
    let _ ← Registrar.reserve cfg name tokenID port
    pure []
  | .unreserve name => do
    ask (.unreserve name)
    pure []
  | .disconnectToken tokenID => Registrar.disconnectToken tokenID
  | .revokeToken tokenID => do
    ask (.deleteToken tokenID)
    Registrar.disconnectToken tokenID
  | .expire ref => do
    ask (.expire ref)
    pure []

section
variable {A : (β : Type) → Op β → Prop}

theorem certToken_all (hA : ∀ id, A _ (.tokenByID id)) (peer : Option Peer) :
    (certToken peer).All A := by
  unfold certToken
  split
  · trivial
  · trivial
  · rw [ask_bind]
    refine ⟨hA _, fun found => ?_⟩
    dsimp only
    split
    · trivial
    · trivial
    · split <;> trivial

theorem verifyToken_all (hA : ∀ id, A _ (.tokenByID id)) (cfg : Config γ) (token : String) :
    (verifyToken cfg token).All A := by
  unfold verifyToken
  split
  · trivial
  · rw [ask_bind]
    refine ⟨hA _, fun found => ?_⟩
    dsimp only
    split
    · trivial
    · trivial
    · split <;> trivial

theorem authenticate_all (hA : ∀ id, A _ (.tokenByID id)) (cfg : Config γ) (token : String)
    (peer : Option Peer) : (authenticate cfg token peer).All A := by
  unfold authenticate
  refine (certToken_all hA peer).bind fun byCert => ?_
  split
  · trivial
  split
  · split <;> trivial
  refine (verifyToken_all hA cfg token).bind fun found => ?_
  split
  · trivial
  split
  · trivial
  split <;> trivial

theorem claimInCluster_all (hA : ∀ c, A _ (.claimTunnel c)) (cfg : Config γ) (who : Identity)
    (t : Tunnel) (spec : TunnelSpec) : (claimInCluster cfg who t spec).All A := by
  unfold claimInCluster
  dsimp only
  split
  · trivial
  split
  · trivial
  · exact ⟨hA _, fun _ => trivial⟩

theorem closeAll_all (hA : ∀ sess reason, A _ (.closeSession sess reason)) :
    ∀ sessions : List ℕ, (closeAll sessions).All A
  | [] => trivial
  | _ :: rest => ⟨hA _ _, fun _ => closeAll_all hA rest⟩

end

def Op.opens {β : Type} : Op β → Bool
  | .claim _ _ _ _ _ | .setDomains _ _ | .portOf _ | .reservePort _ | .releasePort _ | .setPort _ _
  | .activate _ _ | .rollback _ _ | .listen _ | .closeTunnel _ | .randomID _ | .claimTunnel _ => true
  | _ => false

theorem tryListen_opens (port : ℤ) : (tryListen port).All fun _ op => op.opens := by
  refine ⟨rfl, fun b => ?_⟩
  cases b with
  | false => trivial
  | true =>
    refine ⟨rfl, fun b => ?_⟩
    cases b with
    | error err => exact ⟨rfl, fun _ => trivial⟩
    | ok ln => trivial

theorem firstPort_opens (ref : ℕ) : ∀ ports : List ℤ,
    (firstPort ref ports).All fun _ op => op.opens
  | [] => trivial
  | port :: ports => by
    refine (tryListen_opens port).bind fun b => ?_
    cases b with
    | ok ln => exact ⟨rfl, fun _ => trivial⟩
    | error err => exact firstPort_opens ref ports

theorem listenTunnelPort_opens (rules : Rules) (ref : ℕ) (requested previous : ℤ)
    (policy : Policy) :
    (listenTunnelPort rules ref requested previous policy).All fun _ op => op.opens := by
  unfold listenTunnelPort
  rw [ask_bind]
  refine ⟨rfl, fun held => ?_⟩
  dsimp only
  split
  · refine ⟨rfl, fun b => ?_⟩
    cases b <;> trivial
  split
  · split
    · trivial
    refine (tryListen_opens requested).bind fun b => ?_
    cases b with
    | error err => trivial
    | ok ln => exact ⟨rfl, fun _ => trivial⟩
  · split
    · trivial
    · refine (firstPort_opens ref _).bind fun b => ?_
      cases b <;> trivial

theorem bindTunnel_opens (cfg : Config γ) (who : Identity) (spec : TunnelSpec) (tn : Tunnel) :
    (bindTunnel cfg who spec tn).All fun _ op => op.opens := by
  unfold bindTunnel
  split
  · refine (claimInCluster_all (fun _ => rfl) cfg who tn spec).bind fun b => ?_
    cases b <;> trivial
  split
  · refine (listenTunnelPort_opens _ _ _ _ _).bind fun b => ?_
    cases b <;> trivial
  · trivial

theorem openChecked_opens (cfg : Config γ) (who : Identity) (spec : TunnelSpec) (access : Access)
    (name : String) (domains : List String) :
    (openChecked cfg who spec access name domains).All fun _ op => op.opens := by
  unfold openChecked
  rw [ask_bind]
  refine ⟨rfl, fun b => ?_⟩
  match b with
  | .error kind => trivial
  | .ok (ref, existed) =>
    refine ⟨rfl, fun b => ?_⟩
    cases b with
    | error d => exact ⟨rfl, fun _ => trivial⟩
    | ok _ =>
      refine ⟨rfl, fun id => ?_⟩
      refine (bindTunnel_opens cfg who spec _).bind fun b => ?_
      cases b with
      | error err => exact ⟨rfl, fun _ => trivial⟩
      | ok tn => exact ⟨rfl, fun _ => trivial⟩

theorem openNamed_opens (cfg : Config γ) (who : Identity) (spec : TunnelSpec) (access : Access)
    (name : String) : (openNamed cfg who spec access name).All fun _ op => op.opens := by
  unfold openNamed
  split
  · trivial
  · exact openChecked_opens cfg who spec access name _

theorem openTunnel_opens (cfg : Config γ) (who : Identity) (spec : TunnelSpec) :
    (openTunnel cfg who spec).All fun _ op => op.opens := by
  unfold openTunnel
  split
  · trivial
  split
  · exact ⟨rfl, fun _ => openNamed_opens cfg who spec _ _⟩
  · exact openNamed_opens cfg who spec _ _

theorem openAll_opens (cfg : Config γ) (who : Identity) : ∀ (specs : List TunnelSpec)
    (opened : List Tunnel), (openAll cfg who specs opened).All fun _ op => op.opens
  | [], _ => trivial
  | spec :: specs, opened => by
    refine (openTunnel_opens cfg who spec).bind fun b => ?_
    cases b with
    | error err => trivial
    | ok tn => exact openAll_opens cfg who specs _

theorem undo_opens : ∀ opened : List Tunnel, (undo opened).All fun _ op => op.opens
  | [] => trivial
  | _ :: opened => ⟨rfl, fun _ => ⟨rfl, fun _ => undo_opens opened⟩⟩

def Op.registers {β : Type} : Op β → Bool
  | .startRegister | .endRegister | .addTunnels _ | .releaseTunnels _ _ => true
  | op => op.opens

theorem opens_registers {α : Type} {p : Prog Op α} (hp : p.All fun _ op => op.opens) :
    p.All fun _ op => op.registers := by
  refine hp.mono fun _ op hop => ?_
  cases op with
  | startRegister | endRegister | addTunnels | releaseTunnels => rfl
  | _ => exact hop

theorem register_registers (cfg : Config γ) (who : Identity) (specs : List TunnelSpec) :
    (register cfg who specs).All fun _ op => op.registers := by
  unfold register
  split
  · trivial
  refine ⟨rfl, fun _ => (opens_registers (openAll_opens cfg who specs [])).bind fun out => ?_⟩
  obtain ⟨opened, err⟩ := out
  cases err with
  | some err =>
    refine (opens_registers (undo_opens opened)).bind fun _ => ?_
    dsimp only
    split
    · exact ⟨rfl, fun _ => ⟨rfl, fun _ => trivial⟩⟩
    · exact ⟨rfl, fun _ => trivial⟩
  | none => exact ⟨rfl, fun _ => ⟨rfl, fun _ => trivial⟩⟩

theorem controlLoop_registers (cfg : Config γ) (who : Identity) :
    ∀ requests : List (List TunnelSpec),
      (controlLoop cfg who requests).All fun _ op => op.registers
  | [] => trivial
  | specs :: rest => by
    refine (register_registers cfg who specs).bind fun reply => ?_
    cases reply with
    | none => trivial
    | some _ => exact controlLoop_registers cfg who rest

def Op.ends {β : Type} : Op β → Bool
  | .takeTunnels | .closeTunnel _ | .park _ | .reason | .releaseTunnels _ _ | .parkTunnels _ _ => true
  | _ => false

theorem parkAll_ends : ∀ ts : List Tunnel, (parkAll ts).All fun _ op => op.ends
  | [] => trivial
  | _ :: ts => ⟨rfl, fun _ => ⟨rfl, fun _ => parkAll_ends ts⟩⟩

theorem closeTunnels_ends (cfg : Config γ) (sessionID : String) :
    (closeTunnels cfg sessionID).All fun _ op => op.ends := by
  refine ⟨rfl, fun ts => (parkAll_ends ts).bind fun _ => ?_⟩
  split
  · rw [ask_bind]
    refine ⟨rfl, fun reason => ?_⟩
    dsimp only
    split <;> exact ⟨rfl, fun _ => trivial⟩
  · trivial

def Op.serves {β : Type} : Op β → Bool
  | .expire _ | .reserve _ _ _ | .unreserve _ | .releaseToken _ | .sessionsOf _ | .closeSession _ _
  | .deleteToken _ => false
  | _ => true

theorem serveAgent_serves (cfg : Config γ) (a : Agent) :
    (serveAgent cfg a).All fun _ op => op.serves := by
  have hloop : ∀ who, (controlLoop cfg who a.requests).All fun _ op => op.serves := by
    refine fun who => (controlLoop_registers cfg who a.requests).mono fun _ op hop => ?_
    cases op with
    | expire | reserve | unreserve | releaseToken | sessionsOf | closeSession | deleteToken => cases hop
    | _ => rfl
  have hend : (do closeTunnels cfg a.sessionID; ask .untrack : Prog Op Unit).All
      fun _ op => op.serves := by
    refine ((closeTunnels_ends cfg a.sessionID).mono fun _ op hop => ?_).bind fun _ =>
      ⟨rfl, fun _ => trivial⟩
    cases op with
    | expire | reserve | unreserve | releaseToken | sessionsOf | closeSession | deleteToken => cases hop
    | _ => rfl
  have hhand : (handshake cfg a).All fun _ op => op.serves := by
    unfold handshake
    split
    · trivial
    split
    · trivial
    refine (authenticate_all (fun _ => rfl) cfg _ _).bind fun found => ?_
    split
    · trivial
    · trivial
    split
    · trivial
    · exact ⟨rfl, fun _ => trivial⟩
  unfold serveAgent
  rw [ask_bind]
  refine ⟨rfl, fun tracked => ?_⟩
  dsimp only
  split
  swap
  · trivial
  refine hhand.bind fun found => ?_
  split
  · exact hend
  split
  · exact ⟨rfl, fun _ => (hloop _).bind fun _ => ⟨rfl, fun _ => ⟨rfl, fun _ => hend⟩⟩⟩
  · exact (hloop _).bind fun _ => hend

def objects (cfg : Config γ) : Objects Op ℕ World (Server γ) where
  answer := fun sess w op s => s.answer cfg sess w op

def Server.new (grace : ℤ) (clustered : Bool) (tokens : Table TokenRecord.id) (cluster : γ) :
    Server γ :=
  { registry := NameRegistry.new grace clustered, tokens := tokens, cluster := cluster }

section
variable {cfg : Config γ} {t : ℕ} {w : World} {s : Server γ}
variable {name tokenID agentID id : String} {typ : TunnelType} {maxTunnels p : ℤ} {ref : ℕ}
  {ds : List String}

theorem answer_claim_refused {kind : RuleKind}
    (hc : s.registry.claim name typ tokenID agentID t maxTunnels = .error kind) :
    (objects cfg).answer t w (.claim name typ tokenID agentID maxTunnels) s = (s, .error kind) := by
  show s.claim t name typ tokenID agentID maxTunnels = _
  rw [claim, hc]

theorem answer_claim_granted {c : NameRegistry.Claimed}
    (hc : s.registry.claim name typ tokenID agentID t maxTunnels = .ok c) :
    (objects cfg).answer t w (.claim name typ tokenID agentID maxTunnels) s =
      (({ s with registry := c.registry }.closeStale c.stale).onRegistering t
          fun g => { g with claims := g.claims ++ [(c.res, c.existed)] },
        .ok (c.res, c.existed)) := by
  show s.claim t name typ tokenID agentID maxTunnels = _
  rw [claim, hc]

theorem answer_setDomains_refused {d : String} (hd : s.registry.setDomains ref ds = .error d) :
    (objects cfg).answer t w (.setDomains ref ds) s = (s, .error d) := by
  dsimp only [objects, answer]
  rw [hd]

theorem answer_setDomains_done {r : NameRegistry} (hd : s.registry.setDomains ref ds = .ok r) :
    (objects cfg).answer t w (.setDomains ref ds) s = ({ s with registry := r }, .ok ()) := by
  dsimp only [objects, answer]
  rw [hd]

theorem answer_reservePort_taken (hp : p ∈ s.registry.ports) :
    (objects cfg).answer t w (.reservePort p) s = (s, false) := by
  dsimp only [objects, answer]
  rw [NameRegistry.reservePort, if_pos hp]

theorem answer_reservePort_free (hp : p ∉ s.registry.ports) :
    (objects cfg).answer t w (.reservePort p) s =
      ({ s with registry := s.registry.addPort p }.onRegistering t
        fun g => { g with reserving := some p }, true) := by
  dsimp only [objects, answer]
  rw [NameRegistry.reservePort, if_neg hp]

theorem answer_tokenByID_failed {err : String} (hw : w.storeError = some err) :
    (objects cfg).answer t w (.tokenByID id) s = (s, .error err) := by
  dsimp only [objects, answer]
  rw [hw]

theorem answer_tokenByID_missing (hw : w.storeError = none) (hget : s.tokens.get id = none) :
    (objects cfg).answer t w (.tokenByID id) s = (s, .ok none) := by
  dsimp only [objects, answer]
  rw [hw, hget]

theorem answer_tokenByID_found {rec : TokenRecord} (hw : w.storeError = none)
    (hget : s.tokens.get id = some rec) :
    (objects cfg).answer t w (.tokenByID id) s =
      (s.onSession t fun a => { a with looked := id :: a.looked }, .ok (some rec)) := by
  dsimp only [objects, answer]
  rw [hw, hget]

theorem answer_track_closed (hclosed : s.closed = true) :
    (objects cfg).answer t w (.track id) s = (s, false) := by
  dsimp only [objects, answer]
  rw [if_pos hclosed]

theorem answer_track_open (hopen : ¬ s.closed = true) :
    (objects cfg).answer t w (.track id) s =
      ({ s with tracked := t :: s.tracked }.onSession t fun _ => { id := id }, true) := by
  dsimp only [objects, answer]
  rw [if_neg hopen]

end

end L8Tunnel.Registrar
