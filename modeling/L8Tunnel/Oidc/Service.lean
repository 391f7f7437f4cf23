import L8Tunnel.Base.Run
import L8Tunnel.HttpProxy.Proxy

/-! # The login service of OIDC-protected tunnels (oidc/service.go, signed.go) -/

namespace L8Tunnel.Auth
open Base

def OIDCRule.allows (r : OIDCRule) (email : String) : Bool :=
  let email := GoString.toLower email
  if email ∈ r.emails then true
  else GoString.containsRune email '@' &&
    (GoString.split email '@').getLast?.any fun domain => domain ∈ r.domains

end L8Tunnel.Auth

namespace L8Tunnel.Oidc
open Base Auth HttpProxy

def authPath : String := "/.l8tunnel/auth"
def loginTTL : ℤ := 600000000000
def codeTTL : ℤ := 60000000000

/-- Where a login came from: the tunnel's host and path. -/
structure LoginState where
  host : String
  path : String
  exp : ℤ
  deriving DecidableEq

/-- What the browser keeps while it is at the provider. -/
structure FlowCookie where
  nonce : String
  verifier : String
  provider : String
  login : LoginState
  exp : ℤ
  deriving DecidableEq

/-- What the auth host hands to the tunnel's host after a login. -/
structure LoginCode where
  email : String
  host : String
  path : String
  id : String
  exp : ℤ
  deriving DecidableEq

structure Session where
  email : String
  host : String
  exp : ℤ
  deriving DecidableEq

/-- The four kinds of signed value. -/
inductive Payload where
  | login (st : LoginState)
  | flow (f : FlowCookie)
  | code (c : LoginCode)
  | session (s : Session)
  deriving DecidableEq

/-- A provider's word for an address, kept beside a signed value; the code has no such field. -/
structure Vouch where
  provider : String
  email : String

/-- A value the service has signed. For a code and a session it is remembered, beside
what is signed, which provider vouched for which address in the callback. -/
structure Issued where
  payload : Payload
  vouch : Option Vouch := none

structure Config where
  http : Http
  sessionTTL : ℤ := 43200000000000

/-- The clock, everything signed so far, the codes used and the rule of each host. -/
structure Service where
  now : ℤ := 0
  issued : List Issued := []
  usedCodes : GoMap String ℤ := ∅
  rules : String → Option OIDCRule := fun _ => none

section
variable (τ : Type)

structure Request where
  host : String
  path : String
  uri : String := ""
  reads : Bool := true
  cookie : Option τ := none
  code : Option τ := none

inductive Response where
  | page (status : ℕ) (code message : String)
  | toLogin (state : τ)
  | toProvider (provider nonce verifier : String) (flow : τ)
  | toTunnel (host : String) (code : τ)
  | signedIn (session : τ) (path : String)
  | proceed (email : String)

/-- What the provider says at the callback. -/
inductive Answer where
  | unreachable
  | rejected
  | invalid
  | token (nonce email : String) (verified : Option Bool)

structure CallbackRequest where
  cookie : Option τ
  state : String
  error : String := ""
  answer : Answer
  id : String

/-- In what form browsers carry the signed values: what one that is presented is read
as, and the form of a value that is signed now. -/
structure Medium where
  login : Service → τ → Option LoginState
  flow : Service → τ → Option FlowCookie
  code : Service → τ → Option (LoginCode × Option Vouch)
  session : Service → τ → Option (Session × Option Vouch)
  sign : Service → Payload → τ

end

/-- Signed values known by the number of their signing: nothing else can be presented. -/
def numbered : Medium ℕ where
  login s i := match s.issued[i]? with
    | some ⟨.login st, _⟩ => some st
    | _ => none
  flow s i := match s.issued[i]? with
    | some ⟨.flow f, _⟩ => some f
    | _ => none
  code s i := match s.issued[i]? with
    | some ⟨.code c, v⟩ => some (c, v)
    | _ => none
  session s i := match s.issued[i]? with
    | some ⟨.session sess, v⟩ => some (sess, v)
    | _ => none
  sign s _ := s.issued.length

def unix (t : ℤ) : ℤ := t / 1000000000

def safePath (p : String) : String :=
  if (GoString.cutPrefix p "/").isNone ∨ (GoString.cutPrefix p "//").isSome ∨
      (GoString.cutPrefix p "/\\").isSome then "/"
  else p

def invalidLink {τ : Type} : Response τ :=
  .page 400 "login-invalid" "The login link is invalid or expired; try again."

def mayNotUse {τ : Type} (email : String) : Response τ :=
  .page 403 "not-allowed" (email ++ " may not use this tunnel.")

namespace Service
variable {τ : Type} (m : Medium τ) (cfg : Config) (s : Service)

def expired (exp : ℤ) : Bool := exp < unix s.now
def sign (v : Issued) : Service := { s with issued := s.issued ++ [v] }

def loginOf (token : Option τ) : Option LoginState :=
  (token.bind (m.login s)).filter fun st => !s.expired st.exp

def flowOf (token : Option τ) : Option FlowCookie :=
  (token.bind (m.flow s)).filter fun f => !s.expired f.exp

def codeOf (token : Option τ) : Option (LoginCode × Option Vouch) :=
  (token.bind (m.code s)).filter fun c => !s.expired c.1.exp

def sessionOf (token : Option τ) : Option (Session × Option Vouch) :=
  (token.bind (m.session s)).filter fun sess => !s.expired sess.1.exp

def stillUsed : GoMap String ℤ :=
  s.usedCodes.keys.foldl (fun m k =>
    if (m.get k).any fun e => e < unix s.now then m.del k else m) s.usedCodes

def useCode (id : String) (exp : ℤ) : Service × Bool :=
  let used := s.stillUsed
  if (used.get id).isSome ∨ id = "" then ({ s with usedCodes := used }, false)
  else ({ s with usedCodes := used.set id exp }, true)

def finishLogin (rule : OIDCRule) (r : Request τ) (host : String) : Service × Response τ :=
  match s.codeOf m r.code with
  | none => (s, invalidLink)
  | some (code, vouch) =>
    if normalizeHost cfg.http code.host ≠ host then (s, invalidLink)
    else match s.useCode code.id code.exp with
      | (s, false) => (s, invalidLink)
      | (s, true) =>
        if rule.allows code.email then
          let sess := .session ⟨code.email, host, unix (s.now + cfg.sessionTTL)⟩
          (s.sign ⟨sess, vouch⟩, .signedIn (m.sign s sess) (safePath code.path))
        else (s, mayNotUse code.email)

def startLogin (r : Request τ) : Service × Response τ :=
  if r.reads = false then (s, .page 401 "login-required" "Sign in to use this tunnel.")
  else
    let st := .login ⟨r.host, r.uri, unix (s.now + loginTTL)⟩
    (s.sign ⟨st, none⟩, .toLogin (m.sign s st))

def authorize (rule : OIDCRule) (r : Request τ) : Service × Response τ :=
  let host := normalizeHost cfg.http r.host
  if r.path = authPath then s.finishLogin m cfg rule r host
  else match s.sessionOf m r.cookie with
    | none => s.startLogin m r
    | some (sess, _) =>
      if sess.host ≠ host then s.startLogin m r
      else if rule.allows sess.email then (s, .proceed sess.email)
      else (s, mayNotUse sess.email)

def ruleFor (host : String) : Option OIDCRule := s.rules (normalizeHost cfg.http host)

def login (state : Option τ) (reachable : Bool) (nonce verifier : String) :
    Service × Response τ :=
  match s.loginOf m state with
  | none => (s, invalidLink)
  | some st =>
    match s.ruleFor cfg st.host with
    | none => (s, .page 400 "login-invalid" "That host doesn't use this relay's login.")
    | some rule =>
      if reachable = false then
        (s, .page 502 "provider-unavailable"
          "The login provider can't be reached; try again shortly.")
      else
        let flow := .flow ⟨nonce, verifier, rule.provider, st, unix (s.now + loginTTL)⟩
        (s.sign ⟨flow, none⟩, .toProvider rule.provider nonce verifier (m.sign s flow))

def callback (r : CallbackRequest τ) : Service × Response τ :=
  match s.flowOf m r.cookie with
  | none => (s, .page 400 "login-invalid" "The login session is missing or expired; try again.")
  | some flow =>
    if r.state ≠ flow.nonce then
      (s, .page 400 "login-invalid" "The login response doesn't match this browser.")
    else if r.error ≠ "" then
      (s, .page 403 "login-refused" ("The login provider refused the login: " ++ r.error))
    else match r.answer with
      | .unreachable =>
        (s, .page 502 "provider-unavailable"
          "The login provider can't be reached; try again shortly.")
      | .rejected =>
        (s, .page 502 "login-failed" "The login provider rejected the code exchange.")
      | .invalid =>
        (s, .page 403 "login-failed" "The login provider's identity token is invalid.")
      | .token nonce email verified =>
        if nonce ≠ flow.nonce then
          (s, .page 403 "login-failed" "The login provider's identity token is invalid.")
        else if email = "" ∨ verified = some false then
          (s, .page 403 "login-failed"
            "The login provider didn't return a verified email address.")
        else match s.ruleFor cfg flow.login.host with
          | none =>
            (s, .page 502 "agent-offline" "The tunnel went offline during the login.")
          | some _ =>
            let code := .code ⟨GoString.toLower email, flow.login.host, flow.login.path, r.id,
              unix (s.now + codeTTL)⟩
            (s.sign ⟨code, some ⟨flow.provider, email⟩⟩, .toTunnel flow.login.host (m.sign s code))

end Service

/-- Time, registrations of tunnels, and requests with what the browser presents and what is
random. -/
inductive Event (τ : Type) where
  | tick (d : ℕ)
  | register (host : String) (rule : Option OIDCRule)
  | request (r : Request τ)
  | login (state : Option τ) (reachable : Bool) (nonce verifier : String)
  | callback (r : CallbackRequest τ)

section
variable {τ : Type}

def Event.presented : Event τ → List τ
  | .tick _ => []
  | .register _ _ => []
  | .request r => r.code.toList ++ r.cookie.toList
  | .login state _ _ _ => state.toList
  | .callback r => r.cookie.toList

def Service.next (m : Medium τ) (cfg : Config) (s : Service) : Event τ → Service
  | .tick d => { s with now := s.now + d }
  | .register host rule => { s with rules := Function.update s.rules host rule }
  | .request r =>
    match s.ruleFor cfg r.host with
    | none => s
    | some rule => (s.authorize m cfg rule r).1
  | .login state reachable nonce verifier => (s.login m cfg state reachable nonce verifier).1
  | .callback r => (s.callback m cfg r).1

def Step (cfg : Config) (s : Service) (e : Event ℕ) (s' : Service) : Prop :=
  s.next numbered cfg e = s'

section
variable (m : Medium τ) (cfg : Config) (s : Service)

structure Starts (r : Request τ) (st : LoginState) : Prop where
  path : r.path ≠ authPath
  state : st = ⟨r.host, r.uri, unix (s.now + loginTTL)⟩

structure Flows (state : Option τ) (nonce verifier : String) (f : FlowCookie) : Prop where
  login : s.loginOf m state = some f.login
  nonce_eq : f.nonce = nonce
  verifier_eq : f.verifier = verifier
  provider : ∃ rule, s.ruleFor cfg f.login.host = some rule ∧ f.provider = rule.provider

structure Calls (r : CallbackRequest τ) (f : FlowCookie) (email : String) (c : LoginCode) :
    Prop where
  flow : s.flowOf m r.cookie = some f
  state : r.state = f.nonce
  answer : ∃ v, r.answer = .token f.nonce email v ∧ v ≠ some false
  nonempty : email ≠ ""
  code : c = ⟨GoString.toLower email, f.login.host, f.login.path, r.id, unix (s.now + codeTTL)⟩

structure Finishes (r : Request τ) (c : LoginCode) (v : Option Vouch) (sess : Session) : Prop where
  path : r.path = authPath
  code : s.codeOf m r.code = some (c, v)
  host : normalizeHost cfg.http c.host = normalizeHost cfg.http r.host
  unused : (s.useCode c.id c.exp).2 = true
  session : sess = ⟨c.email, normalizeHost cfg.http r.host, unix (s.now + cfg.sessionTTL)⟩

/-- All that an event makes the service sign, and on what. -/
inductive Signs : Event τ → Issued → Prop where
  | login {r : Request τ} {st : LoginState} (h : Starts s r st) :
    Signs (.request r) ⟨.login st, none⟩
  | flow {state : Option τ} {nonce verifier : String} {f : FlowCookie}
    (h : Flows m cfg s state nonce verifier f) :
    Signs (.login state true nonce verifier) ⟨.flow f, none⟩
  | code {r : CallbackRequest τ} {f : FlowCookie} {email : String} {c : LoginCode}
    (h : Calls m s r f email c) : Signs (.callback r) ⟨.code c, some ⟨f.provider, email⟩⟩
  | session {r : Request τ} {c : LoginCode} {v : Option Vouch} {sess : Session}
    (h : Finishes m cfg s r c v sess) : Signs (.request r) ⟨.session sess, v⟩

structure Adds (e : Event τ) (s' : Service) : Prop where
  now : s'.now = s.now
  rules : s'.rules = s.rules
  issued : s'.issued = s.issued ∨ ∃ x, s'.issued = s.issued ++ [x] ∧ Signs m cfg s e x

end

variable {m : Medium τ} {cfg : Config} {s : Service}

theorem adds_nothing {e : Event τ} : Adds m cfg s e s := ⟨rfl, rfl, .inl rfl⟩

theorem Signs.adds {e : Event τ} {x : Issued} (h : Signs m cfg s e x) :
    Adds m cfg s e (s.sign x) :=
  ⟨rfl, rfl, .inr ⟨x, rfl, h⟩⟩

theorem useCode_rest (id : String) (exp : ℤ) : (s.useCode id exp).1.issued = s.issued ∧
    (s.useCode id exp).1.rules = s.rules ∧ (s.useCode id exp).1.now = s.now := by
  unfold Service.useCode
  dsimp only
  split <;> exact ⟨rfl, rfl, rfl⟩

theorem startLogin_adds {r : Request τ} (hpath : r.path ≠ authPath) :
    Adds m cfg s (.request r) (s.startLogin m r).1 := by
  unfold Service.startLogin
  split
  · exact adds_nothing
  · exact (Signs.login ⟨hpath, rfl⟩).adds

theorem finishLogin_adds (rule : OIDCRule) {r : Request τ} (hpath : r.path = authPath) :
    Adds m cfg s (.request r) (s.finishLogin m cfg rule r (normalizeHost cfg.http r.host)).1 := by
  unfold Service.finishLogin
  split
  · exact adds_nothing
  next code v hcode =>
  split
  · exact adds_nothing
  next hhost =>
  obtain ⟨hissued, hrules, hnow⟩ := useCode_rest (s := s) code.id code.exp
  split
  next s1 huse =>
    rw [huse] at hissued hrules hnow
    exact ⟨hnow, hrules, .inl hissued⟩
  next s1 huse =>
    rw [huse] at hissued hrules hnow
    split
    · have hfinish : Finishes m cfg s r code v
          ⟨code.email, normalizeHost cfg.http r.host, unix (s1.now + cfg.sessionTTL)⟩ := {
        path := hpath
        code := hcode
        host := not_not.mp hhost
        unused := by rw [huse]
        session := by rw [hnow] }
      refine ⟨hnow, hrules, .inr ⟨_, ?_, .session hfinish⟩⟩
      rw [← hissued]
      rfl
    · exact ⟨hnow, hrules, .inl hissued⟩

theorem authorize_adds (rule : OIDCRule) (r : Request τ) :
    Adds m cfg s (.request r) (s.authorize m cfg rule r).1 := by
  unfold Service.authorize
  dsimp only
  split
  next hpath => exact finishLogin_adds rule hpath
  next hpath =>
  split
  · exact startLogin_adds hpath
  split
  · exact startLogin_adds hpath
  split
  · exact adds_nothing
  · exact adds_nothing

theorem login_adds (state : Option τ) (reachable : Bool) (nonce verifier : String) :
    Adds m cfg s (.login state reachable nonce verifier)
      (s.login m cfg state reachable nonce verifier).1 := by
  unfold Service.login
  split
  · exact adds_nothing
  next st hst =>
  split
  · exact adds_nothing
  next rule hrule =>
  split
  · exact adds_nothing
  next hreach =>
    obtain rfl : reachable = true := by simpa using hreach
    have hflows : Flows m cfg s state nonce verifier
        ⟨nonce, verifier, rule.provider, st, unix (s.now + loginTTL)⟩ :=
      ⟨hst, rfl, rfl, rule, hrule, rfl⟩
    exact (Signs.flow hflows).adds

theorem callback_adds (r : CallbackRequest τ) :
    Adds m cfg s (.callback r) (s.callback m cfg r).1 := by
  unfold Service.callback
  split
  · exact adds_nothing
  next f hf =>
  split
  · exact adds_nothing
  next hstate =>
  split
  · exact adds_nothing
  split
  · exact adds_nothing
  · exact adds_nothing
  · exact adds_nothing
  next nonce email verified hanswer =>
  split
  · exact adds_nothing
  next hnonce =>
  split
  · exact adds_nothing
  next hemail =>
  split
  · exact adds_nothing
  · rw [not_or] at hemail
    rw [not_not.mp hnonce] at hanswer
    have hcall : Calls m s r f email
        ⟨GoString.toLower email, f.login.host, f.login.path, r.id, unix (s.now + codeTTL)⟩ := {
      flow := hf
      state := not_not.mp hstate
      answer := ⟨verified, hanswer, hemail.2⟩
      nonempty := hemail.1
      code := rfl }
    exact (Signs.code hcall).adds

/-- Besides the clock and the rules, an event changes what is signed by at most one
value. -/
theorem next_cases (m : Medium τ) (cfg : Config) (s : Service) (e : Event τ) :
    (∃ d, e = .tick d) ∨ (∃ host rule, e = .register host rule) ∨
      Adds m cfg s e (s.next m cfg e) := by
  cases e with
  | tick d => exact .inl ⟨d, rfl⟩
  | register host rule => exact .inr (.inl ⟨host, rule, rfl⟩)
  | request r =>
    refine .inr (.inr ?_)
    dsimp only [Service.next]
    split
    · exact adds_nothing
    · exact authorize_adds _ r
  | login state reachable nonce verifier =>
    exact .inr (.inr (login_adds state reachable nonce verifier))
  | callback r => exact .inr (.inr (callback_adds r))

theorem finishLogin_ne_proceed (rule : OIDCRule) (r : Request τ) (host user : String) :
    (s.finishLogin m cfg rule r host).2 ≠ .proceed user := by
  unfold Service.finishLogin
  split
  · exact nofun
  split
  · exact nofun
  split
  · exact nofun
  split
  · exact nofun
  · exact nofun

theorem startLogin_ne_proceed (r : Request τ) (user : String) :
    (s.startLogin m r).2 ≠ .proceed user := by
  unfold Service.startLogin
  split
  · exact nofun
  · exact nofun

theorem authorize_proceeds {rule : OIDCRule} {r : Request τ} {user : String}
    (h : (s.authorize m cfg rule r).2 = .proceed user) :
    ∃ sess v, s.sessionOf m r.cookie = some (sess, v) ∧
      sess.host = normalizeHost cfg.http r.host ∧ user = sess.email := by
  unfold Service.authorize at h
  dsimp only at h
  split at h
  · exact absurd h (finishLogin_ne_proceed rule r _ user)
  split at h
  · exact absurd h (startLogin_ne_proceed r user)
  next sess v hsess =>
  split at h
  · exact absurd h (startLogin_ne_proceed r user)
  next hhost =>
  split at h
  · cases h
    exact ⟨sess, v, hsess, not_not.mp hhost, rfl⟩
  · cases h

/-- What is read of a presented token has been signed. -/
structure Medium.Sound (m : Medium τ) (s : Service) (t : τ) : Prop where
  login : ∀ st, m.login s t = some st → ∃ v, ⟨.login st, v⟩ ∈ s.issued
  flow : ∀ f, m.flow s t = some f → ∃ v, ⟨.flow f, v⟩ ∈ s.issued
  code : ∀ c v, m.code s t = some (c, v) → ⟨.code c, v⟩ ∈ s.issued
  session : ∀ sess v, m.session s t = some (sess, v) → ⟨.session sess, v⟩ ∈ s.issued

variable {token : Option τ} (hsound : ∀ t ∈ token, m.Sound s t)
include hsound

theorem loginOf_some {st : LoginState} (h : s.loginOf m token = some st) :
    (∃ v, ⟨.login st, v⟩ ∈ s.issued) ∧ s.expired st.exp = false := by
  obtain ⟨hread, hexp⟩ := Option.filter_eq_some_iff.mp h
  obtain ⟨t, ht, hlogin⟩ := Option.bind_eq_some_iff.mp hread
  exact ⟨(hsound t ht).login st hlogin, by simpa using hexp⟩

theorem flowOf_some {f : FlowCookie} (h : s.flowOf m token = some f) :
    (∃ v, ⟨.flow f, v⟩ ∈ s.issued) ∧ s.expired f.exp = false := by
  obtain ⟨hread, hexp⟩ := Option.filter_eq_some_iff.mp h
  obtain ⟨t, ht, hflow⟩ := Option.bind_eq_some_iff.mp hread
  exact ⟨(hsound t ht).flow f hflow, by simpa using hexp⟩

theorem codeOf_some {c : LoginCode} {v : Option Vouch} (h : s.codeOf m token = some (c, v)) :
    ⟨.code c, v⟩ ∈ s.issued ∧ s.expired c.exp = false := by
  obtain ⟨hread, hexp⟩ := Option.filter_eq_some_iff.mp h
  obtain ⟨t, ht, hcode⟩ := Option.bind_eq_some_iff.mp hread
  exact ⟨(hsound t ht).code c v hcode, by simpa using hexp⟩

theorem sessionOf_some {sess : Session} {v : Option Vouch}
    (h : s.sessionOf m token = some (sess, v)) :
    ⟨.session sess, v⟩ ∈ s.issued ∧ s.expired sess.exp = false := by
  obtain ⟨hread, hexp⟩ := Option.filter_eq_some_iff.mp h
  obtain ⟨t, ht, hsess⟩ := Option.bind_eq_some_iff.mp hread
  exact ⟨(hsound t ht).session sess v hsess, by simpa using hexp⟩

end

namespace Issued

def host (cfg : Config) (e : Issued) : String :=
  match e.payload with
  | .login st => normalizeHost cfg.http st.host
  | .flow f => normalizeHost cfg.http f.login.host
  | .code c => normalizeHost cfg.http c.host
  | .session s => s.host

def exp (e : Issued) : ℤ :=
  match e.payload with
  | .login st => st.exp
  | .flow f => f.exp
  | .code c => c.exp
  | .session s => s.exp

def provider (e : Issued) : Option String :=
  match e.payload with
  | .login _ => none
  | .flow f => some f.provider
  | .code _ => e.vouch.map Vouch.provider
  | .session _ => e.vouch.map Vouch.provider

def Genuine (e : Issued) : Prop :=
  match e.payload with
  | .login _ => True
  | .flow _ => True
  | .code c => ∃ v, e.vouch = some v ∧ c.email = GoString.toLower v.email
  | .session sess => ∃ v, e.vouch = some v ∧ sess.email = GoString.toLower v.email

end Issued

/-- The condition: a host gets a rule with another provider only when all that was
signed in logins for the host with a provider before has expired. -/
def Event.Settles {τ : Type} (cfg : Config) (s : Service) : Event τ → Prop
  | .register host (some rule) => ∀ e ∈ s.issued, e.host cfg = host →
      s.expired e.exp = false → ∀ p, e.provider = some p → p = rule.provider
  | _ => True

/-- Whatever has not expired comes from the provider of its host's rule. -/
structure Service.Vouched (cfg : Config) (s : Service) : Prop where
  provider : ∀ e ∈ s.issued, s.expired e.exp = false →
    ∀ rule, s.rules (e.host cfg) = some rule → ∀ p, e.provider = some p → p = rule.provider
  genuine : ∀ e ∈ s.issued, e.Genuine

theorem Service.Vouched.sign {cfg : Config} {s : Service} {e : Issued} (h : s.Vouched cfg)
    (hgenuine : e.Genuine)
    (hprovider : ∀ rule, s.rules (e.host cfg) = some rule → ∀ p, e.provider = some p →
      p = rule.provider) : (s.sign e).Vouched cfg where
  provider e' he' hexp := by
    rcases List.mem_append.mp he' with he' | he'
    · exact h.provider e' he' hexp
    · cases List.mem_singleton.mp he'
      exact hprovider
  genuine e' he' := by
    rcases List.mem_append.mp he' with he' | he'
    · exact h.genuine e' he'
    · cases List.mem_singleton.mp he'
      exact hgenuine

theorem Service.Vouched.same {cfg : Config} {s s' : Service} (h : s.Vouched cfg)
    (hissued : s'.issued = s.issued) (hrules : s'.rules = s.rules) (hnow : s'.now = s.now) :
    s'.Vouched cfg := by
  refine ⟨fun e he hexp => ?_, fun e he => h.genuine e (hissued ▸ he)⟩
  rw [hrules]
  unfold expired at hexp
  rw [hnow] at hexp
  exact h.provider e (hissued ▸ he) hexp

section
variable {τ : Type} {m : Medium τ} {cfg : Config} {s : Service} {e : Event τ}

theorem Signs.vouched {x : Issued} (h : s.Vouched cfg) (hsound : ∀ t ∈ e.presented, m.Sound s t)
    (hsigns : Signs m cfg s e x) : (s.sign x).Vouched cfg := by
  cases hsigns with
  | login hstarts => exact h.sign trivial fun _ _ p hp => by cases hp
  | flow hflows =>
    refine h.sign trivial fun rule' hrule' p hp => ?_
    cases hp
    obtain ⟨rule, hrule, hprovider⟩ := hflows.provider
    cases hrule.symm.trans hrule'
    exact hprovider
  | code hcalls =>
    obtain ⟨⟨v, hmem⟩, hexp⟩ :=
      flowOf_some (fun t ht => hsound t (Option.mem_toList.mpr ht)) hcalls.flow
    rw [hcalls.code]
    exact h.sign ⟨_, rfl, rfl⟩ fun rule hrule p hp => h.provider _ hmem hexp rule hrule p hp
  | @session r c v sess hfinishes =>
    obtain ⟨hmem, hexp⟩ := codeOf_some
      (fun t ht => hsound t (List.mem_append_left _ (Option.mem_toList.mpr ht))) hfinishes.code
    have hgenuine : ∃ w, v = some w ∧ c.email = GoString.toLower w.email := h.genuine _ hmem
    rw [hfinishes.session]
    refine h.sign hgenuine fun rule hrule => h.provider _ hmem hexp rule ?_
    rw [← hrule]
    exact congrArg s.rules hfinishes.host

theorem expired_mono {s : Service} {exp : ℤ} {d : ℕ}
    (h : { s with now := s.now + d }.expired exp = false) : s.expired exp = false := by
  unfold Service.expired unix at h ⊢
  rw [decide_eq_false_iff_not] at h ⊢
  have hle : s.now / 1000000000 ≤ (s.now + d) / 1000000000 :=
    Int.ediv_le_ediv (by decide) (by omega)
  dsimp only at h
  omega

theorem Service.Vouched.next (h : s.Vouched cfg) (hsound : ∀ t ∈ e.presented, m.Sound s t)
    (hcond : e.Settles cfg s) : (s.next m cfg e).Vouched cfg := by
  rcases next_cases m cfg s e with
    ⟨d, rfl⟩ | ⟨host, rule, rfl⟩ | ⟨hnow, hrules, hsame | ⟨x, hadds, hsigns⟩⟩
  · exact ⟨fun e he hexp => h.provider e he (expired_mono hexp), h.genuine⟩
  · refine ⟨fun e he hexp rule' hrule' => ?_, h.genuine⟩
    dsimp only [Service.next] at hrule'
    by_cases hhost : e.host cfg = host
    · rw [hhost, Function.update_self] at hrule'
      rw [hrule'] at hcond
      exact hcond e he hhost hexp
    · rw [Function.update_of_ne hhost] at hrule'
      exact h.provider e he hexp rule' hrule'
  · exact h.same hsame hrules hnow
  · exact (hsigns.vouched h hsound).same hadds hrules hnow

theorem vouched_start (cfg : Config) (now : ℤ) (rules : String → Option OIDCRule) :
    Service.Vouched cfg { now := now, rules := rules } :=
  ⟨fun _ he => absurd he List.not_mem_nil, fun _ he => absurd he List.not_mem_nil⟩

theorem Service.Vouched.session {token : Option τ} {sess : Session} {v : Option Vouch}
    {rule : OIDCRule} {host : String} (h : s.Vouched cfg) (hsound : ∀ t ∈ token, m.Sound s t)
    (hrule : s.ruleFor cfg host = some rule) (hsess : s.sessionOf m token = some (sess, v))
    (hhost : sess.host = normalizeHost cfg.http host) :
    ∃ w, v = some w ∧ w.provider = rule.provider ∧ sess.email = GoString.toLower w.email := by
  obtain ⟨hmem, hexp⟩ := sessionOf_some hsound hsess
  obtain ⟨w, rfl, hemail⟩ : ∃ w, v = some w ∧ sess.email = GoString.toLower w.email :=
    h.genuine _ hmem
  refine ⟨w, rfl, h.provider _ hmem hexp rule ?_ w.provider rfl, hemail⟩
  rw [← hrule]
  exact congrArg s.rules hhost

end

def plainConfig : Config := { http := .plain }
def ruleOf (provider : String) : OIDCRule := { provider := provider, emails := ["m@x.io"] }

def loginAt (provider : String) : List (Event ℕ) :=
  [.register "a.io" (some (ruleOf provider)), .request { host := "a.io", path := "/" },
    .login (some 0) true "n" "v", .callback
      { cookie := some 1, state := "n", answer := .token "n" "M@x.io" (some true), id := "c" },
    .request { host := "a.io", path := authPath, code := some 2 }]

def after (events : List (Event ℕ)) : Service :=
  events.foldl (Service.next numbered plainConfig) {}

theorem run_after (events : List (Event ℕ)) (s : Service) :
    Run (Step plainConfig) s events (events.foldl (Service.next numbered plainConfig) s) := by
  induction events generalizing s with
  | nil => exact .nil s
  | cons e events ih => exact .cons rfl (ih _)

def moved : List (Event ℕ) := loginAt "google" ++ [.register "a.io" (some (ruleOf "corp"))]

end L8Tunnel.Oidc
