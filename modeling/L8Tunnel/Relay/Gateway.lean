import L8Tunnel.Relay.Server

/-! # The SSH gateway (relay/gateway.go) -/

namespace L8Tunnel.Relay
open Base Net Registry Auth Common
open Transport

/-- The channel a gateway client asks for. -/
structure DirectTCPIP where
  host : String
  port : UInt32

/-- Where a gateway channel goes. -/
inductive GatewayTarget where
  | served (t : Tunnel)
  | remote (addr : String)
  | refused (reason : String)

structure Peer where
  server : Server
  addr : TCPAddr

namespace Server

def gatewayName (s : Server) (host : String) : String :=
  let host := GoString.toLower (GoString.trimSuffix host ".")
  let host := if GoString.containsRune host '.' then host else host ++ "." ++ s.rules.baseDomain
  s.rules.tunnelName host

def remoteTarget (pathMatch : String → String → Bool) (s : Server) (link : Link)
    (key : GatewayKey) (name : String) : GatewayTarget :=
  match link.streamOwnerOf s.rules name with
  | none => .refused ("no connected ssh/tcp tunnel named " ++ name)
  | some (addr, accessToken) =>
    if key.allows pathMatch name accessToken = false then
      .refused ("this key isn't granted tunnel " ++ name)
    else .remote addr

def servedTarget (pathMatch : String → String → Bool) (client : TCPAddr) (req : DirectTCPIP)
    (key : GatewayKey) (name : String) (t : Tunnel) (typ : TunnelType) : GatewayTarget :=
  if hasPublicPort typ = false then .refused ("no connected ssh/tcp tunnel named " ++ name)
  else if req.port ≠ 22 ∧ req.port ≠ t.endpoint.publicPort then
    .refused ("tunnel " ++ name ++ " is reached on port 22")
  else if key.allows pathMatch name t.access.requiresToken = false then
    .refused ("this key isn't granted tunnel " ++ name)
  else if t.access.allowsIP (remoteIP client) = false then
    .refused ("your address isn't allowed by tunnel " ++ name)
  else .served t

def gatewayTarget (pathMatch : String → String → Bool) (s : Server) (fingerprint : String)
    (client : TCPAddr) (req : DirectTCPIP) : GatewayTarget :=
  let name := s.gatewayName req.host
  if name = "" then .refused ("unknown tunnel " ++ req.host)
  else match s.gatewayKeys fingerprint with
    | none => .refused "the key was removed"
    | some key =>
      match s.registry.lookup name, s.cluster with
      | (some t, typ, _), _ => servedTarget pathMatch client req key name t typ
      | (none, _, _), some link => s.remoteTarget pathMatch link key name
      | (none, _, _), none => .refused ("no connected ssh/tcp tunnel named " ++ name)

def gatewayRemote (w : Wire) (s : Server) (client dst : TCPAddr) (req : DirectTCPIP)
    (now : Int64) : Option ProxyHeader :=
  s.cluster.bind fun link =>
    writeProxyHeader w client dst
      (signedTLVs w link.key (s.gatewayName req.host) (client.text w.ipText) now)

def gatewayChannel (w : Wire) (pathMatch : String → String → Bool) (dial : String → Option Peer)
    (s : Server) (self : TCPAddr) (fingerprint : String) (client : TCPAddr) (req : DirectTCPIP)
    (now later : Int64) (rateOk : Bool) : Option Tunnel :=
  match s.gatewayTarget pathMatch fingerprint client req with
  | .refused _ => none
  | .served t => some t
  | .remote addr =>
    (dial addr).bind fun peer =>
      (s.gatewayRemote w client peer.addr req now).bind fun header =>
        peer.server.serveStream w ⟨self, some header⟩ later rateOk

section
variable {pathMatch : String → String → Bool} {s : Server} {fingerprint : String}
  {client : TCPAddr} {req : DirectTCPIP} {key : GatewayKey}

/-- A stream is served exactly when all four conditions hold; otherwise it is refused with a
reason. -/
theorem servedTarget_cases (pathMatch : String → String → Bool) (client : TCPAddr)
    (req : DirectTCPIP) (key : GatewayKey) (name : String) (t : Tunnel) (typ : TunnelType) :
    (servedTarget pathMatch client req key name t typ = .served t ∧ hasPublicPort typ = true ∧
        (req.port = 22 ∨ req.port = t.endpoint.publicPort) ∧
        key.allows pathMatch name t.access.requiresToken = true ∧
        t.access.allowsIP (remoteIP client) = true) ∨
      ∃ reason, servedTarget pathMatch client req key name t typ = .refused reason ∧
        ¬ (hasPublicPort typ = true ∧ (req.port = 22 ∨ req.port = t.endpoint.publicPort) ∧
          key.allows pathMatch name t.access.requiresToken = true ∧
          t.access.allowsIP (remoteIP client) = true) := by
  unfold servedTarget
  split
  next htyp => exact .inr ⟨_, rfl, by simp [htyp]⟩
  next htyp =>
  split
  next hport => exact .inr ⟨_, rfl, by simp [hport.1, hport.2]⟩
  next hport =>
  rw [not_and_or, not_not, not_not] at hport
  split
  next hallows => exact .inr ⟨_, rfl, by simp [hallows]⟩
  next hallows =>
  split
  next hip => exact .inr ⟨_, rfl, by simp [hip]⟩
  next hip =>
    exact .inl ⟨rfl, by simpa using htyp, hport, by simpa using hallows, by simpa using hip⟩

theorem gatewayTarget_removed (hname : s.gatewayName req.host ≠ "")
    (hkey : s.gatewayKeys fingerprint = none) :
    s.gatewayTarget pathMatch fingerprint client req = .refused "the key was removed" := by
  unfold gatewayTarget
  dsimp only
  rw [if_neg hname, hkey]

theorem gatewayTarget_absent {link : Link} (hname : s.gatewayName req.host ≠ "")
    (hkey : s.gatewayKeys fingerprint = some key) (hlink : s.cluster = some link)
    (habsent : (s.registry.lookup (s.gatewayName req.host)).1 = none) :
    s.gatewayTarget pathMatch fingerprint client req =
      s.remoteTarget pathMatch link key (s.gatewayName req.host) := by
  unfold gatewayTarget
  dsimp only
  rw [if_neg hname, hkey, hlink]
  generalize s.registry.lookup (s.gatewayName req.host) = found at habsent
  obtain ⟨t, typ, ok⟩ := found
  dsimp only at habsent
  subst habsent
  rfl

theorem gatewayTarget_present {t : Tunnel} {res : Reservation}
    (hname : s.gatewayName req.host ≠ "") (hkey : s.gatewayKeys fingerprint = some key)
    (hres : s.registry.names.get (s.gatewayName req.host) = some res) (ht : res.tunnel = some t) :
    s.gatewayTarget pathMatch fingerprint client req =
      servedTarget pathMatch client req key (s.gatewayName req.host) t res.typ := by
  unfold gatewayTarget
  dsimp only
  rw [if_neg hname, hkey, lookup_tunnel hres, ht]

end
end Server

/-- A tunnel that another relay serves, as this relay's live copy has it. -/
structure Elsewhere where
  here : Server
  self : TCPAddr
  link : Link
  there : Peer
  theirLink : Link
  dial : String → Option Peer
  name : String
  res : Reservation
  tunnel : Tunnel
  record : TunLiveTunnel
  relay : TunRelay
  clustered : here.cluster = some link
  absent : (here.registry.lookup name).1 = none
  known : link.view.copy.byName.get name = some record
  token : record.accessToken = tunnel.access.requiresToken
  other : record.relayId ≠ link.relayID
  listed : link.view.copy.relays.get record.relayId = some relay
  up : relay.state ≠ .down ∧ relay.podIp ≠ ""
  reached : dial (joinHostPort relay.podIp (toString relay.streamPort.toInt)) = some there
  joined : there.server.cluster = some theirLink ∧ theirLink.key = link.key
  trusted : isTrusted self there.server.trusted = true
  reserved : there.server.registry.names.get name = some res
  serving : res.tunnel = some tunnel

namespace Elsewhere

def servedHere (p : Elsewhere) : Server :=
  { p.here with
    registry := { p.here.registry with names := p.here.registry.names.put p.res } }

def Granted (p : Elsewhere) (pathMatch : String → String → Bool) (fingerprint : String) : Prop :=
  ∃ key, p.here.gatewayKeys fingerprint = some key ∧
    key.allows pathMatch p.name p.tunnel.access.requiresToken = true

def Served (p : Elsewhere) (req : DirectTCPIP) : Prop :=
  hasPublicPort p.res.typ = true ∧ (req.port = 22 ∨ req.port = p.tunnel.endpoint.publicPort)

def Carried (p : Elsewhere) (w : Wire) (client : TCPAddr) : Prop :=
  w.header client p.there.addr = some client

variable {p : Elsewhere} {w : Wire} {pathMatch : String → String → Bool} {fingerprint : String}
  {client : TCPAddr} {req : DirectTCPIP} {now later : Int64}

theorem owner_current (hv : validName p.name = true) :
    p.link.owner p.here.rules (p.name ++ "." ++ p.here.rules.baseDomain) =
      some (p.record, p.relay) := by
  have hlower : GoString.toLower (p.name ++ "." ++ p.here.rules.baseDomain) =
      p.name ++ "." ++ p.here.rules.baseDomain := by
    rw [GoString.toLower_append, GoString.toLower_append, toLower_of_validName hv,
      p.here.base_lower]
    rfl
  have hkey : LiveView.tunnelKey p.here.rules (p.name ++ "." ++ p.here.rules.baseDomain) =
      p.name := by
    unfold LiveView.tunnelKey
    dsimp only
    rw [hlower, Rules.tunnelName_host hv]
    exact if_pos (validName_ne_empty hv)
  have hlook : p.link.view.copy.lookup p.name = some (p.record, p.relay) := by
    unfold LiveCopy.lookup LiveCopy.owner
    rw [p.known, Option.some_or, Option.bind_some, p.listed, Option.bind_some]
    exact if_neg (not_or.mpr p.up)
  have htunnel : p.link.view.tunnel p.here.rules
      (p.name ++ "." ++ p.here.rules.baseDomain) p.link.relayID = some (p.record, p.relay) := by
    unfold LiveView.tunnel
    dsimp only
    rw [hkey, hlook]
    exact if_neg fun h => p.other h.2
  unfold Link.owner
  rw [htunnel]
  exact if_neg p.other

theorem remote_reaches_iff (hname : p.here.gatewayName req.host = p.name) (hne : p.name ≠ "")
    (hwin : InWindow now later) (hmac : w.TellsZone p.link.key p.name client now) :
    p.here.gatewayChannel w pathMatch p.dial p.self fingerprint client req now later true =
        some p.tunnel ↔
      p.Granted pathMatch fingerprint ∧ p.Carried w client ∧
        p.tunnel.access.allowsIP (remoteIP client) = true := by
  have hv : validName p.name = true := by
    rw [← hname]
    exact Rules.tunnelName_valid (by rw [← hname] at hne; exact hne)
  have hstream : p.link.streamOwnerOf p.here.rules p.name =
      some (joinHostPort p.relay.podIp (toString p.relay.streamPort.toInt),
        p.tunnel.access.requiresToken) := by
    unfold Link.streamOwnerOf
    rw [owner_current hv, ← p.token]
    rfl
  have hnamed : p.here.gatewayName req.host ≠ "" := by rwa [hname]
  unfold Server.gatewayChannel
  cases hkey : p.here.gatewayKeys fingerprint with
  | none =>
    rw [Server.gatewayTarget_removed hnamed hkey]
    simp [Granted, hkey]
  | some key =>
    have habsent : (p.here.registry.lookup (p.here.gatewayName req.host)).1 = none := by
      rw [hname]
      exact p.absent
    rw [Server.gatewayTarget_absent hnamed hkey p.clustered habsent, hname]
    unfold Server.remoteTarget
    rw [hstream]
    dsimp only
    cases hallows : key.allows pathMatch p.name p.tunnel.access.requiresToken with
    | false => simp [Granted, hkey, hallows]
    | true =>
      have hgranted : p.Granted pathMatch fingerprint := ⟨key, hkey, hallows⟩
      rw [if_neg Bool.noConfusion]
      dsimp only
      rw [p.reached, Option.bind_some]
      unfold Server.gatewayRemote writeProxyHeader
      rw [p.clustered, Option.bind_some, hname]
      cases hhead : w.header client p.there.addr with
      | none => simp [Carried, hhead]
      | some source =>
        obtain ⟨hjoin, hsame⟩ := p.joined
        rw [← hsame] at hmac ⊢
        rw [Option.map_some, Option.bind_some,
          serveStream_signed hjoin p.trusted p.reserved p.serving hwin
            (w.header_source _ _ _ hhead) hmac]
        simp [hgranted, Carried, hhead]

theorem served_reaches_iff (hname : p.here.gatewayName req.host = p.name) (hne : p.name ≠ "") :
    p.servedHere.gatewayChannel w pathMatch p.dial p.self fingerprint client req now later true =
        some p.tunnel ↔
      p.Served req ∧ p.Granted pathMatch fingerprint ∧
        p.tunnel.access.allowsIP (remoteIP client) = true := by
  have hnamed : p.servedHere.gatewayName req.host = p.name := hname
  have hnonempty : p.servedHere.gatewayName req.host ≠ "" := by rwa [hnamed]
  have hres : p.servedHere.registry.names.get (p.servedHere.gatewayName req.host) = some p.res := by
    have hkey : p.res.name = p.name := Table.key_of_get p.reserved
    rw [hnamed, ← hkey]
    exact Table.get_put_self _ _
  unfold Server.gatewayChannel
  cases hkey : p.here.gatewayKeys fingerprint with
  | none =>
    rw [Server.gatewayTarget_removed hnonempty hkey]
    simp [Granted, hkey]
  | some key =>
    rw [Server.gatewayTarget_present hnonempty hkey hres p.serving, hnamed]
    have hgranted : p.Granted pathMatch fingerprint ↔
        key.allows pathMatch p.name p.tunnel.access.requiresToken = true := by
      simp [Granted, hkey]
    rw [hgranted]
    rcases Server.servedTarget_cases pathMatch client req key p.name p.tunnel p.res.typ with
      ⟨hserved, htyp, hport, hallows, hip⟩ | ⟨reason, hrefused, hnot⟩
    · rw [hserved]
      simp [Served, htyp, hport, hallows, hip]
    · rw [hrefused]
      simpa [Served, and_assoc] using hnot

def ReachesThere (p : Elsewhere) (w : Wire) (pathMatch : String → String → Bool)
    (fingerprint : String) (client : TCPAddr) (req : DirectTCPIP) (now later : Int64) : Prop :=
  p.here.gatewayChannel w pathMatch p.dial p.self fingerprint client req now later true =
    some p.tunnel

def ReachesHere (p : Elsewhere) (w : Wire) (pathMatch : String → String → Bool)
    (fingerprint : String) (client : TCPAddr) (req : DirectTCPIP) (now later : Int64) : Prop :=
  p.servedHere.gatewayChannel w pathMatch p.dial p.self fingerprint client req now later true =
    some p.tunnel

def PlaceIndependent (w : Wire) (pathMatch : String → String → Bool) : Prop :=
  ∀ (p : Elsewhere) (fingerprint : String) (client : TCPAddr) (req : DirectTCPIP)
    (now later : Int64), p.here.gatewayName req.host = p.name → p.name ≠ "" →
    InWindow now later → w.TellsZone p.link.key p.name client now →
    (p.ReachesThere w pathMatch fingerprint client req now later ↔
      p.ReachesHere w pathMatch fingerprint client req now later)

/-- The place makes no difference exactly if a request that the key and the IP
lists let through is one the gateway serves just when the client's address
survives the way to the other relay. -/
theorem placeIndependent_iff_served (p : Elsewhere) (w : Wire)
    (pathMatch : String → String → Bool) (fingerprint : String) (client : TCPAddr)
    (req : DirectTCPIP) (now later : Int64) (hname : p.here.gatewayName req.host = p.name)
    (hne : p.name ≠ "") (hwin : InWindow now later)
    (hmac : w.TellsZone p.link.key p.name client now) :
    (p.ReachesThere w pathMatch fingerprint client req now later ↔
        p.ReachesHere w pathMatch fingerprint client req now later) ↔
      (p.Granted pathMatch fingerprint ∧ p.tunnel.access.allowsIP (remoteIP client) = true →
        (p.Served req ↔ p.Carried w client)) := by
  unfold ReachesThere ReachesHere
  rw [remote_reaches_iff hname hne hwin hmac, served_reaches_iff hname hne]
  constructor
  · rintro h ⟨hg, hip⟩
    exact ⟨fun hs => (h.mpr ⟨hs, hg, hip⟩).2.1, fun hc => (h.mp ⟨hg, hc, hip⟩).1⟩
  · intro h
    exact ⟨fun ⟨hg, hc, hip⟩ => ⟨(h ⟨hg, hip⟩).mpr hc, hg, hip⟩,
      fun ⟨hs, hg, hip⟩ => ⟨hg, (h ⟨hg, hip⟩).mp hs, hip⟩⟩

end Elsewhere

def plainAddr : TCPAddr := ⟨.v4 0xC0000201, 50000⟩

def plainTunnel (typ : TunnelType) : Tunnel :=
  { endpoint := { name := "n", type := typ }, access := {} }

def plainRecord : TunLiveTunnel := { name := "n", relayId := "r1", state := .active }
def plainRelay : TunRelay := { relayId := "r1", podIp := "10.0.0.2", streamPort := 8444 }

def plainLink (relayID : String) : Link :=
  { relayID := relayID, key := []
    view :=
      { copy := LiveCopy.fetch [plainRecord] [plainRelay]
        refetched := LiveCopy.fetch [plainRecord] [plainRelay] } }

def plainServer (relayID : String) (names : Table Reservation.name) : Server where
  rules := { baseDomain := "example.com", portMin := 22000, portMax := 22999 }
  registry := { names := names }
  cluster := some (plainLink relayID)
  gatewayKeys := fun _ => some { tunnels := ["n"] }
  trusted := [⟨.v4 0, 0⟩]
  base_lower := by decide

def plainReservation (typ : TunnelType) : Reservation :=
  { name := "n", typ := typ, tunnel := some (plainTunnel typ) }

def plainPeer (typ : TunnelType) : Peer :=
  ⟨plainServer "r1" (Table.empty.put (plainReservation typ)), plainAddr⟩

def plainElsewhere (typ : TunnelType) : Elsewhere where
  here := plainServer "r0" .empty
  self := plainAddr
  link := plainLink "r0"
  there := plainPeer typ
  theirLink := plainLink "r1"
  dial := fun _ => some (plainPeer typ)
  name := "n"
  res := plainReservation typ
  tunnel := plainTunnel typ
  record := plainRecord
  relay := plainRelay
  clustered := rfl
  absent := rfl
  known := by decide
  token := rfl
  other := by decide
  listed := by decide
  up := by decide
  reached := rfl
  joined := ⟨rfl, rfl⟩
  trusted := rfl
  reserved := Table.get_put_self _ (plainReservation typ)
  serving := rfl

theorem plain_granted (typ : TunnelType) :
    (plainElsewhere typ).Granted (fun p name => p = name) "fp" :=
  ⟨_, rfl, by simp [GatewayKey.allows, plainElsewhere]⟩

theorem plain_tellsZone (key : List UInt8) (subject : String) (ts : Int64) :
    plainWire.TellsZone key subject plainAddr ts := fun _ => rfl

theorem placeIndependent_ssh :
    (plainElsewhere .ssh).ReachesThere plainWire (fun p name => p = name) "fp" plainAddr ⟨"n", 22⟩
        0 0 ↔
      (plainElsewhere .ssh).ReachesHere plainWire (fun p name => p = name) "fp" plainAddr ⟨"n", 22⟩
        0 0 :=
  (Elsewhere.placeIndependent_iff_served (plainElsewhere .ssh) plainWire (fun p name => p = name)
    "fp" plainAddr ⟨"n", 22⟩ 0 0 (by decide) (by decide) (by decide) (plain_tellsZone _ _ _)).mpr
      fun _ => ⟨fun _ => rfl, fun _ => ⟨by decide, .inl rfl⟩⟩

/-- An http tunnel is reached, on any port, through the other relay only. -/
theorem http_reached_through_other_relay :
    ¬ Elsewhere.PlaceIndependent plainWire (fun p name => p = name) := by
  intro h
  have hboth := h (plainElsewhere .http) "fp" plainAddr ⟨"n", 80⟩ 0 0 (by decide) (by decide)
    (by decide) (plain_tellsZone _ _ _)
  have hthere : (plainElsewhere .http).ReachesThere plainWire (fun p name => p = name) "fp"
      plainAddr ⟨"n", 80⟩ 0 0 :=
    (Elsewhere.remote_reaches_iff (by decide) (by decide) (by decide) (plain_tellsZone _ _ _)).mpr
      ⟨plain_granted .http, rfl, by decide⟩
  have hhere := (Elsewhere.served_reaches_iff (by decide) (by decide)).mp (hboth.mp hthere)
  exact absurd hhere.1.1 (by decide)

end L8Tunnel.Relay
