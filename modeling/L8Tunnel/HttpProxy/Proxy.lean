import L8Tunnel.Auth.Access

/-! # The HTTP proxy (httpproxy/proxy.go, pages.go) -/

namespace L8Tunnel.HttpProxy
open Base Net Auth

structure Request where
  host : String
  serverName : Option String := none
  remoteAddr : TCPAddr
  header : GoMap String String := ∅

/-- The parsers of net and net/http. -/
structure Http where
  splitHost : String → Option String
  basicAuth : String → Option (String × String)

def Http.plain : Http := ⟨fun _ => none, fun _ => none⟩

/-- The login service, as the proxy sees it. -/
structure Login where
  authHost : String
  authorize : Request → OIDCRule → Option String

inductive State where
  | unknown
  | offline
  | active
  deriving DecidableEq

structure PageError where
  code : String
  title : String
  message : String
  deriving DecidableEq

def errUnknownHost : PageError :=
  ⟨"unknown-host", "Unknown host", "This relay doesn't serve this host name."⟩

def errUnknownTunnel : PageError :=
  ⟨"tunnel-not-found", "Tunnel not found", "No HTTP tunnel is registered for this host name."⟩

def errAgentOffline : PageError :=
  ⟨"agent-offline", "Tunnel offline",
    "The tunnel's agent is disconnected. It may be reconnecting; try again shortly."⟩

def errUnavailable : PageError :=
  ⟨"no-healthy-backend", "Service unavailable",
    "None of the site's servers is available right now. Try again in a moment."⟩

def errMisdirected : PageError :=
  ⟨"misdirected", "Misdirected request",
    "The Host header doesn't match the TLS server name of this connection."⟩

def errIPDenied : PageError :=
  ⟨"ip-denied", "Forbidden", "This tunnel doesn't accept connections from your address."⟩

def errUnauthorized : PageError :=
  ⟨"unauthorized", "Authentication required", "This tunnel requires a username and password."⟩

def errNoLogin : PageError :=
  ⟨"login-unavailable", "Login unavailable",
    "This tunnel requires a login, but the relay has no login provider configured."⟩

inductive Refusal where
  | page (status : ℕ) (err : PageError) (challenge : String)
  | login

/-- How a request ends at the proxy, or to which tunnel and backend it goes. -/
inductive Answer (τ : Type) where
  | auth
  | refused (why : Refusal)
  | proxied (tun : τ) (backend : Option String) (r : Request)

def userHeader : String := "X-L8tunnel-User"
def Request.del (r : Request) (name : String) : Request := { r with header := r.header.del name }

def Request.set (r : Request) (name value : String) : Request :=
  { r with header := r.header.set name value }

def Request.basicAuth (h : Http) (r : Request) : Option (String × String) :=
  (r.header.get "Authorization").bind h.basicAuth

section
variable (h : Http) (c : Crypto) (login : Option Login) (now : ℤ)

def checkBasicAuth (r : Request) (access : Access) : Except Refusal Request × Access :=
  let denied := .page 401 errUnauthorized "Basic realm=\"l8tunnel\", charset=\"UTF-8\""
  if access.requiresBasic = false then (.ok r, access)
  else match r.basicAuth h with
    | none => (.error denied, access)
    | some (user, password) =>
      match access.checkBasic c now user password with
      | (false, access) => (.error denied, access)
      | (true, access) => (.ok (r.del "Authorization"), access)

def checkLogin (r : Request) (access : Access) : Except Refusal Request :=
  match access.oidc, login with
  | none, _ => .ok r
  | some _, none => .error (.page 503 errNoLogin "")
  | some rule, some login =>
    match login.authorize r rule with
    | none => .error .login
    | some user => .ok (r.set userHeader user)

def authorize (r : Request) (access : Access) : Except Refusal Request × Access :=
  let r := r.del userHeader
  if r.remoteAddr.addr = .zero ∨ access.allowsIP r.remoteAddr.addr = false then
    (.error (.page 403 errIPDenied ""), access)
  else match checkBasicAuth h c now r access with
    | (.error denied, access) => (.error denied, access)
    | (.ok r, access) => (checkLogin login r access, access)

end

def normalizeHost (h : Http) (host : String) : String :=
  GoString.toLower (GoString.trimSuffix ((h.splitHost host).getD host) ".")

/-- The lookup, policies and balancing the proxy is given. -/
structure Tunnels (τ : Type) where
  lookup : String → Option τ × State × String
  access : τ → Access
  pick : τ → Option (TCPAddr → Option String) := fun _ => none

section
variable {τ : Type} (h : Http) (c : Crypto) (login : Option Login) (now : ℤ) (tuns : Tunnels τ)

def serveActive (r : Request) (tun : τ) : Answer τ :=
  match (authorize h c login now r (tuns.access tun)).1 with
  | .error why => .refused why
  | .ok r =>
    match tuns.pick tun with
    | none => .proxied tun none r
    | some pick =>
      match pick r.remoteAddr with
      | none => .refused (.page 503 errUnavailable "")
      | some backend => .proxied tun (some backend) r

def sameTunnel (r : Request) (name : String) : Bool :=
  r.serverName.all fun sni => (tuns.lookup (normalizeHost h sni)).2.2 = name

/-- `ServeHTTP` up to `authorize`: the tunnel of the request's host, or the answer
that ends the request. -/
def find (r : Request) : Except (Answer τ) τ :=
  let host := normalizeHost h r.host
  match login.filter fun l => host = l.authHost with
  | some l =>
    if r.serverName.any fun sni => normalizeHost h sni ≠ l.authHost then
      .error (.refused (.page 421 errMisdirected ""))
    else .error .auth
  | none =>
    let found := tuns.lookup host
    if found.2.2 = "" then .error (.refused (.page 404 errUnknownHost ""))
    else if sameTunnel h tuns r found.2.2 = false then
      .error (.refused (.page 421 errMisdirected ""))
    else match found.2.1, found.1 with
      | .active, some tun => .ok tun
      | .offline, _ => .error (.refused (.page 502 errAgentOffline ""))
      | _, _ => .error (.refused (.page 404 errUnknownTunnel ""))

end

section
variable {τ : Type} {h : Http} {c : Crypto} {login : Option Login} {now : ℤ} {tuns : Tunnels τ}
  {r : Request} {tun : τ}

/-- The request's host is an active tunnel's, and the name of its TLS hello leads there too. -/
structure Found (h : Http) (login : Option Login) (tuns : Tunnels τ) (r : Request) (tun : τ) :
    Prop where
  host : ∀ l, login = some l → normalizeHost h r.host ≠ l.authHost
  found : (tuns.lookup (normalizeHost h r.host)).1 = some tun
  active : (tuns.lookup (normalizeHost h r.host)).2.1 = .active
  known : (tuns.lookup (normalizeHost h r.host)).2.2 ≠ ""
  same : sameTunnel h tuns r (tuns.lookup (normalizeHost h r.host)).2.2 = true

theorem find_iff : find h login tuns r = .ok tun ↔ Found h login tuns r tun := by
  unfold find
  dsimp only
  constructor
  · intro hfind
    split at hfind
    · split at hfind <;> cases hfind
    next hfilter =>
    split at hfind
    · cases hfind
    next hname =>
    split at hfind
    · cases hfind
    next hsame =>
    split at hfind
    next hactive hfound =>
      cases hfind
      refine ⟨?_, hfound, hactive, hname, by simpa using hsame⟩
      intro l hl heq
      rw [hl, Option.filter_some, if_pos (by simpa using heq)] at hfilter
      cases hfilter
    · cases hfind
    · cases hfind
  · intro hp
    have hfilter : login.filter (fun l => normalizeHost h r.host = l.authHost) = none := by
      refine Option.filter_eq_none_iff.mpr ?_
      intro l hl
      simpa using hp.host l hl
    rw [hfilter]
    dsimp only
    rw [if_neg hp.known, if_neg (by simp [hp.same]), hp.active, hp.found]

theorem serveActive_proxied {tun' : τ} {backend : Option String} {r' : Request}
    (hserve : serveActive h c login now tuns r tun' = .proxied tun backend r') :
    tun' = tun ∧
      ∀ pick, tuns.pick tun = some pick → ∃ b, backend = some b ∧ pick r'.remoteAddr = some b := by
  unfold serveActive at hserve
  split at hserve
  · cases hserve
  split at hserve
  next hone =>
    cases hserve
    refine ⟨rfl, fun pick hpick => ?_⟩
    rw [hone] at hpick
    cases hpick
  next pick hpick =>
    split at hserve
    · cases hserve
    next b hb =>
      cases hserve
      refine ⟨rfl, fun pick' hpick' => ⟨b, rfl, ?_⟩⟩
      rw [hpick] at hpick'
      cases hpick'
      exact hb

end

end L8Tunnel.HttpProxy
