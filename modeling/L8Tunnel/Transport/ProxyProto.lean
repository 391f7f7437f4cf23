import L8Tunnel.Base.Bytes
import L8Tunnel.Base.Net

/-! # PROXY headers between the edge and the relays (transport/proxyproto.go) -/

namespace L8Tunnel.Transport
open Base Net Bytes

/-- HMAC-SHA256 and the PROXY v2 encoding, which carries no zone for IPv6. -/
structure Wire where
  mac : List UInt8 → List UInt8 → List UInt8
  mac_length : ∀ key msg, (mac key msg).length = 32
  ipText : Addr → String
  header : TCPAddr → TCPAddr → Option TCPAddr
  header_source : ∀ src dst a, header src dst = some a → a = src ∨ a = src.withoutZone

structure TLV where
  type : UInt8
  value : List UInt8
  deriving DecidableEq

def tlvTunnel : UInt8 := 0xE0
def tlvAuth : UInt8 := 0xE1
def streamAuthWindow : Int64 := 60

structure ProxyHeader where
  source : TCPAddr
  tlvs : List TLV

/-- A connection with the header it began with; only a trusted peer's header is used. -/
structure Conn where
  peer : TCPAddr
  header : Option ProxyHeader

def isTrusted (a : TCPAddr) (trusted : List Prefix) : Bool :=
  trusted.any fun p => p.contains a.addr.unmap

namespace Conn

def usedHeader (trusted : List Prefix) (c : Conn) : Option ProxyHeader :=
  if isTrusted c.peer trusted then c.header else none

def remoteAddr (trusted : List Prefix) (c : Conn) : TCPAddr :=
  match c.usedHeader trusted with
  | some h => h.source
  | none => c.peer

def proxyTLVs (trusted : List Prefix) (c : Conn) : List TLV :=
  match c.usedHeader trusted with
  | some h => h.tlvs
  | none => []

end Conn

def writeProxyHeader (w : Wire) (src dst : TCPAddr) (tlvs : List TLV) : Option ProxyHeader :=
  (w.header src dst).map fun a => ⟨a, tlvs⟩

def findTLV (tlvs : List TLV) (t : UInt8) : Option (List UInt8) :=
  (tlvs.find? fun tlv => tlv.type = t).map TLV.value

def signedMessage (subject client : List UInt8) (ts : Int64) : List UInt8 :=
  Bytes.putUint64 ts.toUInt64 ++ subject ++ [0] ++ client

def signStream (w : Wire) (key subject client : List UInt8) (ts : Int64) : List UInt8 :=
  Bytes.putUint64 ts.toUInt64 ++ w.mac key (signedMessage subject client ts)

def signedTLVsOf (w : Wire) (key subject client : List UInt8) (now : Int64) : List TLV :=
  [{ type := tlvTunnel, value := subject },
    { type := tlvAuth, value := signStream w key subject client now }]

/-- `VerifySignedTLVs` over bytes: a subject and a client are any strings in Go. -/
def verifySignedTLVsOf (w : Wire) (key : List UInt8) (tlvs : List TLV) (client : List UInt8)
    (now : Int64) : Except String (List UInt8) :=
  match findTLV tlvs tlvTunnel with
  | none => .error "no tunnel TLV"
  | some subject =>
    match findTLV tlvs tlvAuth with
    | none => .error "no valid auth TLV"
    | some auth =>
      if auth.length ≠ 8 + 32 then .error "no valid auth TLV"
      else
        let ts := (Bytes.uint64 (auth.take 8)).toInt64
        let d := now - ts
        if d > streamAuthWindow ∨ d < -streamAuthWindow then
          .error "auth TLV outside the time window"
        else if auth ≠ signStream w key subject client ts then
          .error "auth TLV doesn't verify"
        else .ok subject

def signedTLVs (w : Wire) (key : List UInt8) (subject client : String) (now : Int64) : List TLV :=
  signedTLVsOf w key (Bytes.ofString subject) (Bytes.ofString client) now

def verifySignedTLVs (w : Wire) (key : List UInt8) (tlvs : List TLV) (client : String)
    (now : Int64) : Except String (List UInt8) :=
  verifySignedTLVsOf w key tlvs (Bytes.ofString client) now

theorem signStream_length (w : Wire) (key subject client : List UInt8) (ts : Int64) :
    (signStream w key subject client ts).length = 8 + 32 := by
  unfold signStream putUint64
  rw [List.length_append, digits_length, w.mac_length]

theorem signStream_time (w : Wire) (key subject client : List UInt8) (ts : Int64) :
    (uint64 ((signStream w key subject client ts).take 8)).toInt64 = ts := by
  have htake : (signStream w key subject client ts).take 8 = putUint64 ts.toUInt64 := by
    unfold signStream
    exact List.take_left' (digits_length 8 _)
  rw [htake, uint64_putUint64, Int64.toInt64_toUInt64]

/-- The code's comparison, in 64 bits. -/
def InWindow (signed now : Int64) : Prop :=
  ¬ (now - signed > streamAuthWindow ∨ now - signed < -streamAuthWindow)

instance (signed now : Int64) : Decidable (InWindow signed now) :=
  inferInstanceAs (Decidable (¬ _))

/-- The authenticator tells a client's address with its zone from the one
without: equal tags only for equal texts. -/
def Wire.TellsZone (w : Wire) (key : List UInt8) (subject : String) (client : TCPAddr)
    (ts : Int64) : Prop :=
  w.mac key (signedMessage (Bytes.ofString subject) (Bytes.ofString (client.text w.ipText)) ts) =
      w.mac key (signedMessage (Bytes.ofString subject)
        (Bytes.ofString (client.withoutZone.text w.ipText)) ts) →
    client.text w.ipText = client.withoutZone.text w.ipText

/-- Acceptance: a subject, a timestamp in the window and the signature over both with the
client's address. -/
theorem verifySignedTLVsOf_eq_ok_iff {w : Wire} {key subject client : List UInt8} {now : Int64}
    {tlvs : List TLV} :
    verifySignedTLVsOf w key tlvs client now = .ok subject ↔
      findTLV tlvs tlvTunnel = some subject ∧
        ∃ ts, InWindow ts now ∧ findTLV tlvs tlvAuth = some (signStream w key subject client ts) := by
  unfold verifySignedTLVsOf
  cases hsubject : findTLV tlvs tlvTunnel with
  | none => simp
  | some found =>
    cases hauth : findTLV tlvs tlvAuth with
    | none => simp
    | some auth =>
      dsimp only
      constructor
      · intro h
        split at h
        · cases h
        split at h
        · cases h
        next hwin =>
        split at h
        · cases h
        next hmac =>
        cases h
        exact ⟨rfl, _, hwin, congrArg some (not_not.mp hmac)⟩
      · rintro ⟨hfound, ts, hwin, hsigned⟩
        cases hfound
        cases hsigned
        rw [if_neg (not_not.mpr (signStream_length w key subject client ts)), signStream_time,
          if_neg hwin]
        simp

variable {w : Wire} {key : List UInt8} {subject client client' : String} {ts now : Int64}

theorem verify_signedTLVs (hwin : InWindow ts now) :
    verifySignedTLVs w key (signedTLVs w key subject client ts) client' now =
      if w.mac key (signedMessage (ofString subject) (ofString client) ts) =
        w.mac key (signedMessage (ofString subject) (ofString client') ts)
      then .ok (ofString subject) else .error "auth TLV doesn't verify" := by
  have htunnel : findTLV (signedTLVs w key subject client ts) tlvTunnel =
      some (ofString subject) := rfl
  have hauth : findTLV (signedTLVs w key subject client ts) tlvAuth =
      some (signStream w key (ofString subject) (ofString client) ts) := rfl
  unfold verifySignedTLVs verifySignedTLVsOf
  rw [htunnel, hauth]
  dsimp only
  rw [if_neg (not_not.mpr (signStream_length _ _ _ _ _)), signStream_time, if_neg hwin]
  simp only [signStream, ne_eq, List.append_cancel_left_eq, ite_not]

def plainWire : Wire where
  mac := fun _ _ => List.replicate 32 0
  mac_length := fun _ _ => rfl
  ipText := fun _ => "192.0.2.1"
  header := fun src _ => some src
  header_source := fun _ _ _ h => .inl (Option.some.inj h).symm

end L8Tunnel.Transport
