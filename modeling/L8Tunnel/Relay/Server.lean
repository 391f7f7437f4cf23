import L8Tunnel.Base.Table
import L8Tunnel.Common.LiveView
import L8Tunnel.HttpProxy.Proxy
import L8Tunnel.Transport.ProxyProto

/-! # The relay's tunnels and its stream port (relay/registry.go, admin.go, cluster.go) -/

namespace L8Tunnel.Relay
open Base Net Registry Auth Common
open Protocol Transport

def hasPublicPort (typ : TunnelType) : Bool := typ = .tcp ∨ typ = .ssh

structure Endpoint where
  tunnelId : String := ""
  name : String
  type : TunnelType
  publicPort : UInt32 := 0

structure Tunnel where
  endpoint : Endpoint
  access : Access

structure Reservation where
  name : String
  typ : TunnelType
  tunnel : Option Tunnel := none

structure NameRegistry where
  names : Table Reservation.name := .empty

namespace NameRegistry

def lookup (r : NameRegistry) (name : String) : Option Tunnel × TunnelType × Bool :=
  match r.names.get name with
  | none => (none, .unspecified, false)
  | some res => (res.tunnel, res.typ, true)

end NameRegistry

/-- What a clustered relay has of the others: the forward key and the live view. -/
structure Link where
  relayID : String
  key : List UInt8
  view : LiveView

namespace Link

def owner (l : Link) (rules : Rules) (host : String) : Option (TunLiveTunnel × TunRelay) :=
  match l.view.tunnel rules host l.relayID with
  | none => none
  | some (t, r) => if t.relayId = l.relayID then none else some (t, r)

def streamOwnerOf (l : Link) (rules : Rules) (name : String) : Option (String × Bool) :=
  (l.owner rules (name ++ "." ++ rules.baseDomain)).map fun (rec, r) =>
    (joinHostPort r.podIp (toString r.streamPort.toInt), rec.accessToken)

end Link

/-- A relay, as the streams of other relays and gateway clients meet it. -/
structure Server where
  rules : Rules
  registry : NameRegistry := {}
  cluster : Option Link := none
  gatewayKeys : String → Option GatewayKey := fun _ => none
  trusted : List Prefix := []
  base_lower : GoString.toLower rules.baseDomain = rules.baseDomain

def remoteIP (a : TCPAddr) : Addr := a.addr.withoutZone.unmap

def admits (rateOk : Bool) (a : TCPAddr) (access : Option Access) : Bool :=
  if rateOk = false then false
  else match access with
    | none => true
    | some access => access.allowsIP (remoteIP a)

/-- The stream port: the header is verified for the client it names, then the tunnel's lists are
asked. -/
def Server.serveStream (w : Wire) (s : Server) (conn : Conn) (now : Int64) (rateOk : Bool) :
    Option Tunnel :=
  match s.cluster with
  | none => none
  | some link =>
    let client := conn.remoteAddr s.trusted
    match verifySignedTLVs w link.key (conn.proxyTLVs s.trusted) (client.text w.ipText) now with
    | .error _ => none
    | .ok subject =>
      match (Bytes.toString? subject).bind fun name => (s.registry.lookup name).1 with
      | none => none
      | some t => if admits rateOk client (some t.access) then some t else none

variable {name : String} {res : Reservation}

theorem lookup_tunnel {r : NameRegistry} (h : r.names.get name = some res) :
    r.lookup name = (res.tunnel, res.typ, true) := by
  unfold NameRegistry.lookup
  rw [h]

theorem serveStream_signed {w : Wire} {s : Server} {link : Link} {self client source : TCPAddr}
    {t : Tunnel} {ts now : Int64} (hlink : s.cluster = some link)
    (htrust : isTrusted self s.trusted = true) (hres : s.registry.names.get name = some res)
    (ht : res.tunnel = some t) (hwin : InWindow ts now)
    (hsrc : source = client ∨ source = client.withoutZone)
    (hmac : w.TellsZone link.key name client ts) :
    s.serveStream w ⟨self, some ⟨source, signedTLVs w link.key name (client.text w.ipText) ts⟩⟩
        now true = some t ↔
      source = client ∧ t.access.allowsIP (remoteIP client) = true := by
  have hused : (⟨self, some ⟨source, signedTLVs w link.key name (client.text w.ipText) ts⟩⟩ :
      Conn).usedHeader s.trusted =
        some ⟨source, signedTLVs w link.key name (client.text w.ipText) ts⟩ := by
    unfold Conn.usedHeader
    rw [if_pos htrust]
  have hlook : ((Bytes.toString? (Bytes.ofString name)).bind fun name =>
      (s.registry.lookup name).1) = some t := by
    rw [Bytes.toString?_ofString, Option.bind_some, lookup_tunnel hres, ht]
  unfold Server.serveStream
  rw [hlink]
  dsimp only [Conn.remoteAddr, Conn.proxyTLVs]
  rw [hused]
  dsimp only
  rw [verify_signedTLVs hwin]
  by_cases hsame : source = client
  · subst hsame
    rw [if_pos rfl]
    dsimp only
    rw [hlook]
    simp [admits]
  · have hzone : source = client.withoutZone := hsrc.resolve_left hsame
    subst hzone
    rw [if_neg fun heq => hsame (TCPAddr.eq_of_text_withoutZone (hmac heq).symm)]
    simp [hsame]

end L8Tunnel.Relay
