import Mathlib.Algebra.Group.Nat.Defs
import L8Tunnel.Claims.Engine

/-! # Claiming tunnels (claims/claim.go) -/

namespace L8Tunnel.Claims
open Base Registry

structure Refusal where
  code : TunClaimError
  msg : String
  deriving DecidableEq

/-- What `check` has put aside so far; the engine changes only after the last listing. -/
structure Staged where
  recs : Table TunLiveTunnel.name
  ports : GoMap Int32 String
  domains : GoMap String String
  takeovers : List TunLiveTunnel

def Staged.none : Staged := ⟨.empty, ∅, ∅, []⟩
def hasPort (t : TunTunnelType) : Bool := t = .tcp ∨ t = .ssh
def simulatedRefused : Refusal := ⟨.forbidden, "simulated records aren't accepted here"⟩

def nameTaken (name : String) : Refusal :=
  ⟨.nameTaken, "tunnel name " ++ GoString.quote name ++ " is taken"⟩

def reservationOf (reservations : List TunReservation) (name : String) : Option TunReservation :=
  reservations.foldl (fun resv r => if r.name = name then some r else resv) none

def reservedByOther (reservations : List TunReservation) (name : String) (p : Int32) : Bool :=
  reservations.any (fun r => r.publicPort = p ∧ r.name ≠ name)

def firstFree (free : Int32 → Bool) (hi : Int32) : ℕ → Int32 → Option Int32
  | 0, _ => none
  | fuel + 1, p =>
    if p ≤ hi then
      if free p then some p else firstFree free hi fuel (p + 1)
    else none

namespace Engine

def free (e : Engine) (reservations : List TunReservation) (staged : GoMap Int32 String)
    (name : String) (p : Int32) : Bool :=
  (nameAt e.byPort p = "" ∨ nameAt e.byPort p = name) ∧ nameAt staged p = "" ∧
    reservedByOther reservations name p = false

def active (e : Engine) (tokenID name : String) (staged : Table TunLiveTunnel.name) : ℤ :=
  (e.tunnels.values.countP (fun t =>
    t.tokenId = tokenID ∧ t.name ≠ name ∧ t.state = .active ∧ staged.get t.name = none) : ℕ) +
    staged.map.len

def wantedPort (spec : TunLiveTunnel) (holder : Option TunLiveTunnel)
    (resv : Option TunReservation) : Int32 :=
  let want := spec.publicPort
  let want := match resv with
    | some r => if want = 0 ∧ r.publicPort ≠ 0 then r.publicPort else want
    | none => want
  match holder with
  | some h => if want = 0 ∧ h.publicPort ≠ 0 then h.publicPort else want
  | none => want

def portRange (cfg : Config) (req : TunClaimRequest) : Int32 × Int32 :=
  if req.portMin = 0 then (Int32.ofInt cfg.rules.portMin, Int32.ofInt cfg.rules.portMax)
  else (req.portMin, req.portMax)

def port (e : Engine) (cfg : Config) (req : TunClaimRequest) (spec : TunLiveTunnel)
    (holder : Option TunLiveTunnel) (resv : Option TunReservation)
    (reservations : List TunReservation) (staged : GoMap Int32 String) : Except Refusal Int32 :=
  let free := e.free reservations staged spec.name
  let lo := (portRange cfg req).1
  let hi := (portRange cfg req).2
  let want := wantedPort spec holder resv
  if want = 0 ∧ lo ≤ spec.previousPort ∧ spec.previousPort ≤ hi ∧ free spec.previousPort then
    .ok spec.previousPort
  else if want ≠ 0 then
    if want < Int32.ofInt cfg.rules.portMin ∨ Int32.ofInt cfg.rules.portMax < want then
      .error ⟨.portNotAllowed, "port " ++ toString want.toInt ++ " is outside the relay's range " ++
        toString cfg.rules.portMin ++ "-" ++ toString cfg.rules.portMax⟩
    else if free want = false then
      .error ⟨.portUnavailable, "port " ++ toString want.toInt ++
        " is unavailable: it is held by another tunnel"⟩
    else .ok want
  else
    match firstFree free hi (2 ^ 32) lo with
    | some p => .ok p
    | none => .error ⟨.portUnavailable, "no free port in the range " ++ toString lo.toInt ++ "-" ++
        toString hi.toInt⟩

def holderOf (req : TunClaimRequest) (rec : TunLiveTunnel) : Holder :=
  { tokenID := rec.tokenId, agentID := rec.agentId
    connected := rec.state = .active, sameSession := rec.sessionId = req.sessionId }

def claimed (env : Env) (req : TunClaimRequest) (spec : TunLiveTunnel) : TunLiveTunnel :=
  { spec with
    relayId := req.relayId, agentId := req.agentId, tokenId := req.tokenId
    sessionId := req.sessionId, state := .active, connectedAt := unix env.now, graceUntil := 0
    activeConns := 0, totalConns := 0, bytesIn := 0, bytesOut := 0
    publicPort := 0, previousPort := 0 }

def domainTaken (e : Engine) (staged : GoMap String String) (name d : String) : Bool :=
  (nameAt e.byDomain d ≠ "" ∧ nameAt e.byDomain d ≠ name) ∨ nameAt staged d ≠ ""

def check (e : Engine) (cfg : Config) (env : Env) (req : TunClaimRequest) (spec : TunLiveTunnel)
    (st : Staged) : Except Refusal TunLiveTunnel :=
  match cfg.rules.checkName spec.name with
  | some err => .error ⟨.invalid, err.msg⟩
  | none =>
    if env.isSiteName (spec.name ++ "." ++ cfg.rules.baseDomain) then .error (nameTaken spec.name)
    else
      let resv := reservationOf env.reservations spec.name
      if resv.any (fun r => r.tokenId ≠ req.tokenId) then .error (nameTaken spec.name)
      else
        let holder := e.tunnels.get spec.name
        match registryDecide (holder.map (holderOf req)) req.tokenId req.agentId
            (e.active req.tokenId spec.name st.recs) req.maxTunnels.toInt with
        | .error .maxTunnels =>
          .error ⟨.maxTunnels, "the token may have at most " ++ toString req.maxTunnels.toInt ++
            " tunnels"⟩
        | .error _ => .error (nameTaken spec.name)
        | .ok _ =>
          let rec' := claimed env req spec
          match rec'.domains.find? (e.domainTaken st.domains spec.name) with
          | some d => .error ⟨.nameTaken, "domain " ++ d ++ " is taken"⟩
          | none =>
            if hasPort spec.type ∧ spec.accessToken = false then
              match e.port cfg req spec holder resv env.reservations st.ports with
              | .error r => .error r
              | .ok p => .ok { rec' with publicPort := p }
            else .ok rec'

def stage (e : Engine) (req : TunClaimRequest) (st : Staged) (rec : TunLiveTunnel) : Staged :=
  { recs := st.recs.put rec
    ports := if rec.publicPort ≠ 0 then st.ports.set rec.publicPort rec.name else st.ports
    domains := rec.domains.foldl (fun m d => m.set d rec.name) st.domains
    takeovers :=
      match e.tunnels.get rec.name with
      | some old =>
        if old.state = .active ∧ old.relayId ≠ req.relayId then st.takeovers ++ [old]
        else st.takeovers
      | none => st.takeovers }

def stageAll (e : Engine) (cfg : Config) (env : Env) (req : TunClaimRequest) :
    List TunLiveTunnel → Staged → Except Refusal Staged
  | [], st => .ok st
  | spec :: specs, st =>
    if spec.simulated ∧ cfg.allowSimulated = false then .error simulatedRefused
    else if (st.recs.get spec.name).isSome then
      .error ⟨.invalid, "tunnel name " ++ GoString.quote spec.name ++ " is requested twice"⟩
    else
      match e.check cfg env req spec st with
      | .error r => .error r
      | .ok rec => stageAll e cfg env req specs (e.stage req st rec)

def takenOver (old : TunLiveTunnel) : Event :=
  .command { kind := .takenOver, relayId := old.relayId, agentId := old.agentId
             tunnelId := old.tunnelId }

def claim (e : Engine) (cfg : Config) (env : Env) (req : TunClaimRequest) :
    Engine × TunClaimResponse :=
  if req.tunnels = [] then (e, refuse .invalid "no tunnels to claim")
  else if req.agentId = "" ∨ req.tokenId = "" ∨ req.sessionId = "" then
    (e, refuse .invalid "agentId, tokenId and sessionId are required")
  else
    match e.stageAll cfg env req req.tunnels .none with
    | .error r => (e, refuse r.code r.msg)
    | .ok st =>
      let recs := req.tunnels.filterMap (fun spec => st.recs.get spec.name)
      let e1 := recs.foldl Engine.setTunnel e
      (st.takeovers.foldl (fun e old => e.report (takenOver old)) e1, { tunnels := recs })

end Engine
end L8Tunnel.Claims
