import L8Tunnel.Claims.Announce

/-! # Claims over an unreliable link (tun/relaynode/link.go) -/

namespace L8Tunnel.Relay
open Claims Engine

inductive ErrorCode where
  | unspecified | unauthorized | unsupportedVersion | invalidRequest | unsupportedTunnelType
  | nameTaken | portNotAllowed | portUnavailable | forbidden
  deriving DecidableEq

structure ClaimRequest where
  sessionID : String
  agentID : String
  tokenID : String
  maxTunnels : ℤ := 0
  portMin : ℤ := 0
  portMax : ℤ := 0
  tunnelID : String := ""
  name : String
  hostname : String := ""
  type : TunnelType
  domains : List String := []
  publicPort : ℤ := 0
  previousPort : ℤ := 0
  accessToken : Bool := false

def tunnelTypeOf : TunnelType → Except String TunTunnelType
  | .tcp => .ok .tcp
  | .ssh => .ok .ssh
  | .http => .ok .http
  | .tls => .ok .tls
  | _ => .error "unknown tunnel type \"\""

def wireCode : TunClaimError → ErrorCode
  | .nameTaken => .nameTaken
  | .maxTunnels | .forbidden => .forbidden
  | .portUnavailable => .portUnavailable
  | .portNotAllowed => .portNotAllowed
  | _ => .invalidRequest

def claimSpec (c : ClaimRequest) (typ : TunTunnelType) : TunLiveTunnel :=
  { tunnelId := c.tunnelID, name := c.name, type := typ, hostname := c.hostname
    domains := c.domains, publicPort := Int32.ofInt c.publicPort
    previousPort := Int32.ofInt c.previousPort, accessToken := c.accessToken }

def claimRequest (relayID : String) (c : ClaimRequest) (typ : TunTunnelType) : TunClaimRequest :=
  { kind := .claim, relayId := relayID, sessionId := c.sessionID, agentId := c.agentID
    tokenId := c.tokenID, maxTunnels := Int32.ofInt c.maxTunnels
    portMin := Int32.ofInt c.portMin, portMax := Int32.ofInt c.portMax
    tunnels := [claimSpec c typ] }

/-- How one try of a request fails: it is lost, or it is handled and the reply is lost. -/
inductive Failure where
  | requestLost
  | replyLost (env : Env)

/-- What `ClaimTunnel` makes of the answer. -/
inductive ClaimResult where
  | invalidType (msg : String)
  | remote (code : ErrorCode) (msg : String)
  | unexpected (tunnels : ℕ)
  | port (p : ℤ)
  | unavailable
  deriving DecidableEq

def resultOf (resp : TunClaimResponse) : ClaimResult :=
  if resp.error ≠ .unspecified then .remote (wireCode resp.error) resp.message
  else match resp.tunnels with
    | [t] => .port t.publicPort.toInt
    | ts => .unexpected ts.length

def failed (cfg : Config) (req : TunClaimRequest) : List Failure → Engine → Engine
  | [], e => e
  | .requestLost :: fs, e => failed cfg req fs e
  | .replyLost env :: fs, e => failed cfg req fs (e.handle cfg env req).1

def answered (cfg : Config) (req : TunClaimRequest) (fs : List Failure) (env : Env) (e : Engine) :
    Engine × TunClaimResponse :=
  (failed cfg req fs e).handle cfg env req

def claimTunnel (cfg : Config) (relayID : String) (c : ClaimRequest) (fs : List Failure)
    (last : Option Env) (e : Engine) : Engine × ClaimResult :=
  match tunnelTypeOf c.type with
  | .error msg => (e, .invalidType msg)
  | .ok typ =>
    let req := claimRequest relayID c typ
    match last with
    | none => (failed cfg req fs e, .unavailable)
    | some env =>
      let out := answered cfg req fs env e
      (out.1, resultOf out.2)

def lostReplies (fs : List Failure) : List Env :=
  fs.filterMap fun f => match f with
    | .requestLost => none
    | .replyLost env => some env

def firstEnv (fs : List Failure) (last : Env) : Env := (lostReplies fs).headD last
def untimed (t : TunLiveTunnel) : TunLiveTunnel := { t with connectedAt := 0 }

/-- The last answer and the records are those of a request that was not repeated. -/
structure Survives (cfg : Config) (req : TunClaimRequest) (fs : List Failure) (last : Env)
    (e : Engine) : Prop where
  accepted : (answered cfg req fs last e).2.error = .unspecified
  granted : (answered cfg req fs last e).2.tunnels.map (fun t => (t.name, t.publicPort)) =
    (e.handle cfg (firstEnv fs last) req).2.tunnels.map fun t => (t.name, t.publicPort)
  records : ∀ n, ((answered cfg req fs last e).1.tunnels.get n).map untimed =
    ((e.handle cfg (firstEnv fs last) req).1.tunnels.get n).map untimed

variable {cfg : Config} {env : Env} {req : TunClaimRequest} {e : Engine} {spec : TunLiveTunnel}

def Serves (req : TunClaimRequest) (n : String) (e : Engine) : Prop :=
  ∃ r, e.tunnels.get n = some r ∧ r.state = .active ∧ r.sessionId = req.sessionId

theorem handle_claim (hk : req.kind = .claim) (hid : req.relayId ≠ "") :
    e.handle cfg env req = e.claim cfg env req := by
  simp only [handle, if_neg hid, hk]

theorem accepted_serves (hk : req.kind = .claim) (hs : spec ∈ req.tunnels)
    (hacc : (e.handle cfg env req).2.error = .unspecified) :
    Serves req spec.name (e.handle cfg env req).1 := by
  have hid : req.relayId ≠ "" := by
    intro h
    simp [handle, h, refuse] at hacc
  rw [handle_claim hk hid] at hacc ⊢
  rcases e.claim_cases cfg env req with ⟨r, hr, hc⟩ | ⟨recs, olds, hg, _, hnames, hc⟩
  · rw [hc] at hacc
    exact absurd hacc hr
  · rw [hc]
    obtain ⟨rec, hrec, hname⟩ := record_of_spec hnames hs
    unfold Serves
    rw [(told_same olds _).tunnels]
    cases hget : (recs.foldl setTunnel e).tunnels.get spec.name with
    | none => exact absurd hname (foldl_setTunnel_none hget rec hrec)
    | some r =>
      rcases foldl_setTunnel_get hget with ⟨hm, _⟩ | ⟨_, hnone⟩
      · have ha := hg.admitted r hm
        exact ⟨r, rfl, ha.active, ha.sessionId⟩
      · exact absurd hname (hnone rec hrec)

theorem duplicate_refused (cfg : Config) (env : Env) (hk : req.kind = .claim) (hid : req.relayId ≠ "")
    (hs : spec ∈ req.tunnels) (hserves : Serves req spec.name e) :
    (e.handle cfg env req).1 = e ∧ (e.handle cfg env req).2.error ≠ .unspecified := by
  rw [handle_claim hk hid]
  rcases e.claim_cases cfg env req with ⟨r, hr, hc⟩ | ⟨recs, olds, hg, _, hnames, hc⟩
  · rw [hc]
    exact ⟨rfl, hr⟩
  · obtain ⟨rec, hrec, hname⟩ := record_of_spec hnames hs
    obtain ⟨r, hget, hact, hsess⟩ := hserves
    have hholder := (hg.admitted rec hrec).holder r (hname ▸ hget)
    exact absurd hsess (hholder.2 hact).2

theorem failed_of_serves (cfg : Config) (hk : req.kind = .claim) (hid : req.relayId ≠ "")
    (hs : spec ∈ req.tunnels) (hserves : Serves req spec.name e) (fs : List Failure) :
    failed cfg req fs e = e := by
  induction fs with
  | nil => rfl
  | cons f fs ih =>
    cases f with
    | requestLost => exact ih
    | replyLost env =>
      have hsame := (duplicate_refused cfg env hk hid hs hserves).1
      show failed cfg req fs (e.handle cfg env req).1 = e
      rw [hsame]
      exact ih

theorem failed_no_reply (fs : List Failure) (h : lostReplies fs = []) :
    failed cfg req fs e = e := by
  induction fs with
  | nil => rfl
  | cons f fs ih =>
    cases f with
    | requestLost => exact ih h
    | replyLost env => simp [lostReplies] at h

theorem failed_first (cfg : Config) (req : TunClaimRequest) (e : Engine) {env : Env}
    {envs : List Env} (fs : List Failure) (h : lostReplies fs = env :: envs) :
    ∃ gs, failed cfg req fs e = failed cfg req gs (e.handle cfg env req).1 := by
  induction fs with
  | nil => simp [lostReplies] at h
  | cons f fs ih =>
    cases f with
    | requestLost => exact ih h
    | replyLost env' =>
      have henv : env' = env := (List.cons.inj h).1
      subst henv
      exact ⟨fs, rfl⟩

/-- A claim the engine accepts survives the failed asks before its reply
arrives exactly if none of them was applied. -/
theorem survives_iff_no_lost_reply (cfg : Config) (e : Engine) (req : TunClaimRequest)
    (spec : TunLiveTunnel) (fs : List Failure) (last : Env) (hk : req.kind = .claim)
    (hone : req.tunnels = [spec])
    (hacc : (e.handle cfg (firstEnv fs last) req).2.error = .unspecified) :
    Survives cfg req fs last e ↔ lostReplies fs = [] := by
  have hid : req.relayId ≠ "" := by
    intro h
    simp [handle, h, refuse] at hacc
  have hs : spec ∈ req.tunnels := by simp [hone]
  constructor
  · intro h
    cases hl : lostReplies fs with
    | nil => rfl
    | cons env envs =>
      have hfirst : firstEnv fs last = env := by simp [firstEnv, hl]
      rw [hfirst] at hacc
      obtain ⟨gs, hgs⟩ := failed_first cfg req e fs hl
      have hserves := accepted_serves hk hs hacc
      have hstay := failed_of_serves cfg hk hid hs hserves gs
      have href := (duplicate_refused cfg last hk hid hs hserves).2
      have haccepted := h.accepted
      rw [answered, hgs, hstay] at haccepted
      exact absurd haccepted href
  · intro hl
    have hfirst : firstEnv fs last = last := by simp [firstEnv, hl]
    have hans : answered cfg req fs last e = e.handle cfg last req := by
      rw [answered, failed_no_reply fs hl]
    rw [hfirst] at hacc
    refine ⟨?_, ?_, ?_⟩
    · rw [hans]
      exact hacc
    · rw [hans, hfirst]
    · rw [hans, hfirst]
      exact fun n => rfl

def sampleClaim : TunClaimRequest :=
  claimRequest "r0" { sessionID := "s1", agentID := "a1", tokenID := "tok1", name := "n", type := .tcp }
    .tcp

theorem survives_lost_request : Survives sampleConfig sampleClaim [.requestLost] { now := 0 } new :=
  (survives_iff_no_lost_reply sampleConfig new sampleClaim _ [.requestLost] { now := 0 }
    rfl rfl (by decide)).mpr rfl

/-- One lost reply: the engine accepts the claim, and the reply to the same
request sent again is a refusal. -/
theorem lost_reply_refused :
    (new.handle sampleConfig { now := 0 } sampleClaim).2.error = .unspecified ∧
      ¬ Survives sampleConfig sampleClaim [.replyLost { now := 0 }] { now := 0 } new :=
  ⟨by decide, fun h => absurd h.accepted (by decide)⟩

end L8Tunnel.Relay
