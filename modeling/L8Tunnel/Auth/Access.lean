import L8Tunnel.Base.Bytes
import L8Tunnel.Base.GoMap
import L8Tunnel.Base.GoString
import L8Tunnel.Base.Net
import L8Tunnel.Types

/-! # Access policies and gateway keys (auth/access.go, gatewaykey.go) -/

namespace L8Tunnel.Auth
open Base Net

/-- SHA-256 and bcrypt, as the parameters they are to this code. -/
structure Crypto where
  sha256 : List UInt8 → List UInt8
  bcrypt : List UInt8 → String → Bool
  isBcrypt : List UInt8 → Bool

/-- The parsers of net/netip. -/
structure Netip where
  parsePrefix : String → Except String Prefix
  parseAddr : String → Except String Addr

/-- Libraries for inputs that none of their functions is asked about. -/
def Crypto.plain : Crypto := ⟨fun _ => [], fun _ _ => false, fun _ => false⟩

def Netip.plain : Netip := ⟨fun _ => .error "", fun _ => .error ""⟩

structure OIDCRule where
  provider : String
  emails : List String := []
  domains : List String := []

/-- A parsed policy, with the digests of the credentials that passed bcrypt lately. -/
structure Access where
  allow : List Prefix := []
  deny : List Prefix := []
  users : GoMap String (List UInt8) := ∅
  tokenHash : List UInt8 := []
  oidc : Option OIDCRule := none
  verified : GoMap (List UInt8) ℤ := ∅

structure BasicUser where
  username : String
  bcryptHash : List UInt8

structure OIDCPolicy where
  provider : String
  allowEmails : List String := []
  allowDomains : List String := []

/-- The policy as a tunnel's spec carries it. -/
structure AccessPolicy where
  allowIps : List String := []
  denyIps : List String := []
  basicUsers : List BasicUser := []
  oidc : Option OIDCPolicy := none
  accessTokenSha256 : List UInt8 := []

def bitLen : Addr → ℕ
  | .zero => 0
  | .v4 _ => 32
  | .v6 _ _ => 128

def masked (p : Prefix) : Prefix :=
  match p.addr with
  | .zero => p
  | .v4 bits => { p with addr := .v4 (bits >>> (32 - p.bits) <<< (32 - p.bits)) }
  | .v6 bits _ => { p with addr := .v6 (bits >>> (128 - p.bits) <<< (128 - p.bits)) "" }

def parsePrefix (n : Netip) (s : String) : Except String Prefix :=
  if GoString.containsRune s '/' then (n.parsePrefix s).map masked
  else (n.parseAddr s).map fun addr => ⟨addr.unmap.withoutZone, bitLen addr.unmap⟩

def parsePrefixes (n : Netip) (list : List String) : Except String (List Prefix) :=
  list.mapM (parsePrefix n)

def oidcEmails : List String → Except String (List String)
  | [] => .ok []
  | e :: es =>
    let e := GoString.toLower (GoString.trimSpace e)
    if GoString.containsRune e '@' = false then
      .error ("oidc allow_emails entry " ++ GoString.quote e ++ " is not an email address")
    else (oidcEmails es).map (e :: ·)

def oidcDomains : List String → Except String (List String)
  | [] => .ok []
  | d :: ds =>
    let d := GoString.trimSpace d
    let d := GoString.toLower ((GoString.cutPrefix d "@").getD d)
    if d = "" ∨ GoString.containsRune d '@' then
      .error ("oidc allow_domains entry " ++ GoString.quote d ++ " is not a domain")
    else (oidcDomains ds).map (d :: ·)

def parseOIDC (p : OIDCPolicy) : Except String OIDCRule :=
  if p.provider = "" then .error "oidc.provider is required"
  else do
    let emails ← oidcEmails p.allowEmails
    let domains ← oidcDomains p.allowDomains
    if emails = [] ∧ domains = [] then .error "oidc needs allow_emails or allow_domains"
    else .ok { provider := p.provider, emails := emails, domains := domains }

def basicUsers (c : Crypto) : List BasicUser → GoMap String (List UInt8) →
    Except String (GoMap String (List UInt8))
  | [], users => .ok users
  | u :: us, users =>
    if u.username = "" ∨ GoString.containsRune u.username ':' then
      .error ("basic auth username " ++ GoString.quote u.username ++
        " must be non-empty and contain no ':'")
    else if c.isBcrypt u.bcryptHash = false then
      .error ("basic auth user " ++ GoString.quote u.username ++
        ": password hash is not a bcrypt hash")
    else if (users.get u.username).isSome then
      .error ("duplicate basic auth user " ++ GoString.quote u.username)
    else basicUsers c us (users.set u.username u.bcryptHash)

def parseAccess (n : Netip) (c : Crypto) (p : AccessPolicy) : Except String Access := do
  let allow ← (parsePrefixes n p.allowIps).mapError ("allow_ips: " ++ ·)
  let deny ← (parsePrefixes n p.denyIps).mapError ("deny_ips: " ++ ·)
  let users ← basicUsers c p.basicUsers ∅
  let oidc ← match p.oidc with
    | none => .ok none
    | some o => (parseOIDC o).map some
  if p.accessTokenSha256 ≠ [] ∧ p.accessTokenSha256.length ≠ 32 then
    .error "access token hash must be 32 bytes"
  else
    .ok { allow := allow, deny := deny, users := users, oidc := oidc
          tokenHash := p.accessTokenSha256 }

def basicCacheTTL : ℤ := 5 * 60 * 1000000000

namespace Access

def allowsIP (a : Access) (addr : Addr) : Bool :=
  let addr := addr.unmap
  if a.deny.any fun p => p.contains addr then false
  else if a.allow = [] then true
  else a.allow.any fun p => p.contains addr

def requiresBasic (a : Access) : Bool := 0 < a.users.len
def requiresToken (a : Access) : Bool := 0 < a.tokenHash.length

def swept (a : Access) (now : ℤ) : GoMap (List UInt8) ℤ :=
  a.verified.keys.foldl
    (fun m d => if (m.get d).any (fun exp => exp < now) then m.del d else m) a.verified

def checkBasic (c : Crypto) (a : Access) (now : ℤ) (user password : String) : Bool × Access :=
  let digest := c.sha256 (Bytes.ofString user ++ [0] ++ Bytes.ofString password)
  if (a.verified.get digest).any fun exp => now < exp then (true, a)
  else match a.users.get user with
    | none => (false, a)
    | some hash =>
      if c.bcrypt hash password = false then (false, a)
      else (true, { a with verified := (a.swept now).set digest (now + basicCacheTTL) })

end Access

def tcpLike (typ : TunnelType) : Bool := typ = .tcp ∨ typ = .ssh

/-- The policy of a spec, parsed, if it fits the tunnel's type and port. -/
def validateSpecAccess (n : Netip) (c : Crypto) (typ : TunnelType) (publicPort : UInt32)
    (p : AccessPolicy) : Except String Access :=
  if tcpLike typ = false ∧ publicPort ≠ 0 then
    .error "public_port applies only to tcp and ssh tunnels"
  else match parseAccess n c p with
    | .error err => .error err
    | .ok a =>
      if a.requiresBasic ∧ typ ≠ .http then .error "basic auth applies only to http tunnels"
      else if a.oidc.isSome ∧ typ ≠ .http then .error "oidc applies only to http tunnels"
      else if a.oidc.isSome ∧ a.requiresBasic then .error "use either basic_auth or oidc, not both"
      else if a.requiresToken then
        if tcpLike typ = false then .error "access tokens apply only to tcp and ssh tunnels"
        else if publicPort ≠ 0 then
          .error "a tunnel with an access token has no public port: raw TCP can't carry the token"
        else .ok a
      else .ok a

structure GatewayKey where
  name : String := ""
  fingerprint : String := ""
  tunnels : List String := []

def GatewayKey.allows (pathMatch : String → String → Bool) (k : GatewayKey) (tunnel : String)
    (explicitOnly : Bool) : Bool :=
  k.tunnels.any fun p => if explicitOnly then p = tunnel else pathMatch p tunnel

end L8Tunnel.Auth
