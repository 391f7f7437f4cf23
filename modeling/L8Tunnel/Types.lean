import Mathlib.Data.Int.Notation

/-! # The messages of the claims engine (proto/tun.proto) -/

namespace L8Tunnel

/-- A number the protocol does not define is `unknown`, here and in the types below. -/
inductive TunnelType where
  | unspecified | http | tls | tcp | ssh
  | unknown (code : Int32)
  deriving DecidableEq

inductive TunTunnelType where
  | unspecified | tcp | ssh | http | tls
  | unknown (code : Int32)
  deriving DecidableEq

inductive TunLiveState where
  | unspecified | active | grace
  | unknown (code : Int32)
  deriving DecidableEq

inductive TunRelayState where
  | unspecified | ready | draining | down
  | unknown (code : Int32)
  deriving DecidableEq

inductive TunAgentState where
  | unspecified | online | grace | offline
  | unknown (code : Int32)
  deriving DecidableEq

inductive TunAgentTransport where
  | unspecified | tls | websocket | websocketProxy
  | unknown (code : Int32)
  deriving DecidableEq

inductive TunDisconnectReason where
  | unspecified | heartbeatTimeout | tokenRevoked | relayDrained | relayLost
  | takeover | agentClosed | operator
  | unknown (code : Int32)
  deriving DecidableEq

inductive TunCtlCommandKind where
  | unspecified | reannounce | drain | resume | disconnectAgent | disconnectTunnel | takenOver
  | unknown (code : Int32)
  deriving DecidableEq

inductive TunClaimKind where
  | unspecified | claim | park | release | announce | heartbeat | agentUp | agentDown
  | unknown (code : Int32)
  deriving DecidableEq

inductive TunClaimError where
  | unspecified | nameTaken | maxTunnels | portUnavailable | portNotAllowed | forbidden | invalid
  deriving DecidableEq

structure TunRelay where
  relayId : String := ""
  podIp : String := ""
  tlsPort : Int32 := 0
  httpPort : Int32 := 0
  streamPort : Int32 := 0
  gatewayPort : Int32 := 0
  opsPort : Int32 := 0
  state : TunRelayState := .unspecified
  sessions : Int32 := 0
  tunnels : Int32 := 0
  bytesIn : ℤ := 0
  bytesOut : ℤ := 0
  certNotAfter : ℤ := 0
  version : String := ""
  startedAt : ℤ := 0
  lastSeen : ℤ := 0
  simulated : Bool := false
  deriving DecidableEq

structure TunAgent where
  agentId : String := ""
  tokenId : String := ""
  tokenName : String := ""
  certSerial : String := ""
  sessionId : String := ""
  version : String := ""
  os : String := ""
  arch : String := ""
  publicIp : String := ""
  relayId : String := ""
  transport : TunAgentTransport := .unspecified
  state : TunAgentState := .unspecified
  connectedAt : ℤ := 0
  lastHeartbeat : ℤ := 0
  rttUs : ℤ := 0
  tunnelCount : Int32 := 0
  activeStreams : ℤ := 0
  bytesIn : ℤ := 0
  bytesOut : ℤ := 0
  graceUntil : ℤ := 0
  lastSeen : ℤ := 0
  disconnectReason : TunDisconnectReason := .unspecified
  simulated : Bool := false
  deriving DecidableEq

/-- A row of the live tunnels. -/
structure TunLiveTunnel where
  tunnelId : String := ""
  name : String := ""
  type : TunTunnelType := .unspecified
  hostname : String := ""
  domains : List String := []
  publicPort : Int32 := 0
  relayId : String := ""
  agentId : String := ""
  tokenId : String := ""
  state : TunLiveState := .unspecified
  connectedAt : ℤ := 0
  graceUntil : ℤ := 0
  activeConns : ℤ := 0
  totalConns : ℤ := 0
  bytesIn : ℤ := 0
  bytesOut : ℤ := 0
  simulated : Bool := false
  sessionId : String := ""
  accessToken : Bool := false
  previousPort : Int32 := 0
  deriving DecidableEq

/-- A name kept for a token, with its port. -/
structure TunReservation where
  reservationId : String := ""
  name : String := ""
  tokenId : String := ""
  publicPort : Int32 := 0
  note : String := ""
  createdAt : ℤ := 0
  deriving DecidableEq

structure TunCtlCommand where
  kind : TunCtlCommandKind := .unspecified
  relayId : String := ""
  agentId : String := ""
  tunnelId : String := ""
  requestedBy : String := ""
  deriving DecidableEq

structure TunClaimRequest where
  kind : TunClaimKind := .unspecified
  relayId : String := ""
  sessionId : String := ""
  agentId : String := ""
  tokenId : String := ""
  maxTunnels : Int32 := 0
  portMin : Int32 := 0
  portMax : Int32 := 0
  tunnels : List TunLiveTunnel := []
  names : List String := []
  graceUntil : ℤ := 0
  agent : Option TunAgent := none
  agents : List TunAgent := []
  relay : Option TunRelay := none
  reason : TunDisconnectReason := .unspecified
  deriving DecidableEq

structure TunClaimResponse where
  error : TunClaimError := .unspecified
  message : String := ""
  tunnels : List TunLiveTunnel := []
  conflicts : List String := []
  deriving DecidableEq

inductive EdgeDomainKind where
  | unspecified | site | tunnelBase
  | unknown (code : Int32)
  deriving DecidableEq

inductive EdgeProtocol where
  | unspecified | tls | http | tcp
  | unknown (code : Int32)
  deriving DecidableEq

inductive EdgeForwardMode where
  | unspecified | terminate | passthrough | relay
  | unknown (code : Int32)
  deriving DecidableEq

inductive EdgeTargetKind where
  | unspecified | targets | dns | nodeLocal | relays
  | unknown (code : Int32)
  deriving DecidableEq

inductive EdgeBackendScheme where
  | unspecified | https | http
  | unknown (code : Int32)
  deriving DecidableEq

inductive EdgeLbAlgorithm where
  | unspecified | roundRobin | leastConn | sourceHash | random
  | unknown (code : Int32)
  deriving DecidableEq

inductive EdgeHealthType where
  | unspecified | none | tcp | http | https
  | unknown (code : Int32)
  deriving DecidableEq

inductive EdgeCertStatus where
  | unspecified | valid | expiring | expired | mismatch | missing
  | unknown (code : Int32)
  deriving DecidableEq

structure EdgeTarget where
  host : String := ""
  port : Int32 := 0
  weight : Int32 := 0
  disabled : Bool := false
  deriving DecidableEq

/-- A port, or a range of ports, of a domain and where it leads. -/
structure EdgePortForward where
  forwardId : String := ""
  listenPort : Int32 := 0
  listenPortEnd : Int32 := 0
  protocol : EdgeProtocol := .unspecified
  mode : EdgeForwardMode := .unspecified
  targetKind : EdgeTargetKind := .unspecified
  targets : List EdgeTarget := []
  targetDns : String := ""
  targetPort : Int32 := 0
  backendScheme : EdgeBackendScheme := .unspecified
  skipVerify : Bool := false
  proxyProtocol : Bool := false
  lb : EdgeLbAlgorithm := .unspecified
  healthType : EdgeHealthType := .unspecified
  healthPath : String := ""
  healthInterval : Int32 := 0
  enabled : Bool := false
  note : String := ""
  deriving DecidableEq

/-- A domain that the edge serves: a site, or the base domain of the tunnels. -/
structure EdgeDomain where
  domainId : String := ""
  domain : String := ""
  aliases : List String := []
  kind : EdgeDomainKind := .unspecified
  enabled : Bool := false
  allowIps : List String := []
  denyIps : List String := []
  certStatus : EdgeCertStatus := .unspecified
  portForwards : List EdgePortForward := []
  deriving DecidableEq

/-- The stored row of a domain, with its certificate. -/
structure EdgeDomainRow extends EdgeDomain where
  certStoragePath : String := ""
  keyStoragePath : String := ""
  certSubject : String := ""
  certSans : List String := []
  certIssuer : String := ""
  certNotAfter : ℤ := 0
  certFingerprint : String := ""
  configVersion : ℤ := 0
  deriving DecidableEq

end L8Tunnel
