import Mathlib.Data.List.Find
import L8Tunnel.Claims.Single
import L8Tunnel.Registrar.Cluster
import L8Tunnel.Registrar.Standalone

/-! # A standalone relay and the engine decide alike
(relay/registry.go, claims/engine.go) -/

namespace L8Tunnel.Registrar
open Base Registry Auth
open Claims (Engine unix)
open Relay (hasPublicPort ErrorCode ClaimRequest ClaimResult Message Node tunnelTypeOf)
open Runs (eval eval_done eval_call eval_bind of_eval)

/-- A standalone relay and an engine with the same rules. -/
structure Setting where
  cfg : Config Unit
  engine : Claims.Config
  node : Node
  sessionID : ℕ → String
  alone : cfg.cluster = none
  rules : engine.rules = cfg.rules
  named : node.relayID ≠ ""
  sessionID_ne : ∀ t, sessionID t ≠ ""
  sessionID_inj : Function.Injective sessionID

/-- A claim that both are asked: the token has no port range, and the port can be bound. -/
structure Claim where
  session : ℕ
  token : TokenRecord
  agentID : String
  spec : TunnelSpec
  world : World
  hasToken : token.id ≠ ""
  hasAgent : agentID ≠ ""
  anyPort : token.policy.ports = ""
  binds : world.binds = true

/-- What happens to both. -/
inductive Happening where
  | claim (c : Claim)
  | sessionEnds (t : ℕ) (now : ℤ)
  | graceEnds (now : ℤ) (order : RangeOrder)

abbrev Answer := Option (Except ErrorCode ℤ)

def Reply.answer : Option Reply → Answer
  | some (.registered [e]) => some (.ok e.publicPort.toNat)
  | some (.error code _) => some (.error code)
  | _ => none

namespace Setting

def who (S : Setting) (c : Claim) : Identity := ⟨S.sessionID c.session, c.token, c.agentID⟩

def relayClaim (S : Setting) (c : Claim) (s : Server Unit) : Answer × Server Unit :=
  let out := eval (objects S.cfg) c.session c.world (register S.cfg (S.who c) [c.spec]) s
  (Reply.answer out.1, out.2)

def relayEnds (S : Setting) (t : ℕ) (now : ℤ) (s : Server Unit) : Server Unit :=
  (eval (objects S.cfg) t { now := now } (closeTunnels S.cfg (S.sessionID t)) s).2

end Setting

def NameRegistry.due (r : NameRegistry) (now : ℤ) : List ℕ :=
  (r.names.entries.map (·.2)).filter fun u => (r.cells u).timer ∧ (r.cells u).expires ≤ now

def Setting.relayGrace (S : Setting) (now : ℤ) (order : RangeOrder) (s : Server Unit) :
    Server Unit :=
  (eval (objects S.cfg) 0 { now := now } (expireAll (order.visit (s.registry.due now))) s).2

/-- The engine as a relay's counterpart, with the names each session holds. -/
structure Desk where
  engine : Engine
  held : ℕ → List String

def claimedAnswer : ClaimResult → Answer
  | .port p => some (.ok p)
  | .remote code _ => some (.error code)
  | _ => none

def granted : ClaimResult → Bool
  | .port _ => true
  | _ => false

def Ask.tunnel (a : Ask) (rules : Rules) (id : String) : Tunnel :=
  { res := 0, existed := false, access := a.access
    endpoint :=
      { tunnelId := id, name := a.name, type := a.spec.type
        hostname := a.name ++ "." ++ rules.baseDomain, domains := a.domains } }

namespace Setting

def request (S : Setting) (c : Claim) (a : Ask) : ClaimRequest :=
  clusterClaim (S.who c) (a.tunnel S.cfg.rules (c.world.randomID 8)) c.spec
    (S.cfg.rules.portMin, S.cfg.rules.portMax)

def deskClaim (S : Setting) (c : Claim) (d : Desk) : Answer × Desk :=
  match askOf S.cfg c.world (S.who c) c.spec with
  | .error err => (Reply.answer (errorReply err), d)
  | .ok a =>
    let out := Relay.claimTunnel S.engine S.node.relayID (S.request c a) []
      (some { now := c.world.now }) d.engine
    (claimedAnswer out.2,
      { engine := out.1
        held := if granted out.2 then
          Function.update d.held c.session (d.held c.session ++ [a.name]) else d.held })

def deskEnds (S : Setting) (t : ℕ) (now : ℤ) (d : Desk) : Desk :=
  { engine := if d.held t = [] then d.engine else
      (d.engine.handle S.engine { now := now }
        ((Message.park (S.sessionID t) (d.held t)).request S.node)).1
    held := Function.update d.held t [] }

def deskGrace (S : Setting) (now : ℤ) (order : RangeOrder) (d : Desk) : Desk :=
  { d with engine := d.engine.sweep S.engine { now := now, order := order } }

end Setting

/-- The two side by side. -/
structure Both where
  relay : Server Unit
  desk : Desk
  used : List ℕ

namespace Setting

def start (S : Setting) : Both :=
  { relay := .new S.engine.grace false .empty ()
    desk := { engine := .new, held := fun _ => [] }
    used := [] }

/-- Both meet the same happening. -/
inductive Step (S : Setting) : Both → Happening → Both → Prop where
  | claim (s : Both) (c : Claim) : c.session ∉ s.used →
      Step S s (.claim c)
        { relay := (S.relayClaim c s.relay).2, desk := (S.deskClaim c s.desk).2
          used := c.session :: s.used }
  | sessionEnds (s : Both) (t : ℕ) (now : ℤ) :
      Step S s (.sessionEnds t now)
        { s with relay := S.relayEnds t now s.relay, desk := S.deskEnds t now s.desk }
  | graceEnds (s : Both) (now : ℤ) (order : RangeOrder) :
      Step S s (.graceEnds now order)
        { s with relay := S.relayGrace now order s.relay, desk := S.deskGrace now order s.desk }

end Setting

abbrev Both.reg (s : Both) : NameRegistry := s.relay.registry
abbrev Both.recs (s : Both) : Table TunLiveTunnel.name := s.desk.engine.tunnels

/-- A reservation of the relay and a record of the engine are the same claim. -/
structure Alike (S : Setting) (used : List ℕ) (v : Reservation) (rec : TunLiveTunnel) : Prop where
  named : rec.name ≠ ""
  token : rec.tokenId = v.tokenID
  agent : rec.agentId = v.agentID
  port : rec.publicPort.toInt = v.port
  inRange : v.port ≠ 0 → S.cfg.rules.portMin ≤ v.port ∧ v.port ≤ S.cfg.rules.portMax
  domains : rec.domains = v.domains
  relay : rec.relayId = S.node.relayID
  real : rec.simulated = false
  lasting : v.permanent = false
  session : ∃ t ∈ used, rec.sessionId = S.sessionID t ∧
    ((v.session = some t ∧ v.timer = false ∧ rec.state = .active) ∨
      (v.session = none ∧ v.tunnel = none ∧ v.timer = true ∧ rec.state = .grace ∧
        rec.graceUntil = unix v.expires))

def Stands (S : Setting) (s : Both) (t : ℕ) (tn : Tunnel) : Prop :=
  (s.reg.names.get tn.endpoint.name = some tn.res ∧
    (s.reg.cells tn.res).session = some t ∧
    (s.reg.cells tn.res).tunnel = some tn) ∨
  ((s.reg.cells tn.res).session ≠ some t ∧
    (∀ rec, s.recs.get tn.endpoint.name = some rec →
      rec.sessionId ≠ S.sessionID t) ∧
    ∀ k, tn.listener = some k → s.relay.sockets.get k = none)

/-- The simulation relation. -/
structure Agree (S : Setting) (s : Both) : Prop where
  sound : s.relay.shared.Sound
  indexed : Claims.Indexed s.desk.engine
  grace : s.reg.grace = S.engine.grace
  mode : s.reg.closed = false ∧ s.reg.clustered = false
  relays : ∀ id, s.desk.engine.relays.get id = none
  agents : ∀ id, s.desk.engine.agents.get id = none
  records : ∀ n, Option.Rel (fun u rec => Alike S s.used (s.reg.cells u) rec)
    (s.reg.names.get n) (s.recs.get n)
  held : ∀ t, s.desk.held t = tunnelNames (s.relay.shared.tunnels t)
  sessions : ∀ t, s.relay.shared.tunnels t ≠ [] → t ∈ s.used ∧ ∃ tn,
    s.relay.shared.tunnels t = [tn] ∧ tn.res < s.reg.next ∧
    (∀ k, tn.listener = some k → k < s.relay.nextSocket) ∧ Stands S s t tn

section
variable {S : Setting} {s : Both} (h : Agree S s)
include h

theorem Agree.books : Books s.reg fun _ => none := h.sound.books

theorem Agree.get_some {n : String} {u : ℕ} (hn : s.reg.names.get n = some u) :
    ∃ rec, s.recs.get n = some rec ∧
      Alike S s.used (s.reg.cells u) rec := by
  have hrel := h.records n
  rw [hn] at hrel
  cases hrec : s.recs.get n with
  | none =>
    rw [hrec] at hrel
    cases hrel
  | some rec =>
    rw [hrec] at hrel
    cases hrel with
    | some hrel => exact ⟨rec, rfl, hrel⟩

theorem Agree.get_record {n : String} {rec : TunLiveTunnel} (hn : s.recs.get n = some rec) :
    ∃ u, s.reg.names.get n = some u ∧
      Alike S s.used (s.reg.cells u) rec := by
  have hrel := h.records n
  rw [hn] at hrel
  cases hu : s.reg.names.get n with
  | none =>
    rw [hu] at hrel
    cases hrel
  | some u =>
    rw [hu] at hrel
    cases hrel with
    | some hrel => exact ⟨u, rfl, hrel⟩

theorem Agree.get_none {n : String} : s.reg.names.get n = none ↔ s.recs.get n = none := by
  constructor
  · intro hn
    cases hrec : s.recs.get n with
    | none => rfl
    | some rec =>
      obtain ⟨u, hu, -⟩ := h.get_record hrec
      rw [hn] at hu
      cases hu
  · intro hn
    cases hu : s.reg.names.get n with
    | none => rfl
    | some u =>
      obtain ⟨rec, hrec, -⟩ := h.get_some hu
      rw [hn] at hrec
      cases hrec

theorem Agree.port_mem {q : ℤ} (h0 : 0 < q) (h1 : q ≤ 65535) :
    q ∈ s.reg.ports ↔ ∃ n, s.desk.engine.byPort.get (Int32.ofInt q) = some n ∧
      n ≠ "" ∧ ∃ u, s.reg.names.get n = some u ∧
        (s.reg.cells u).port = q := by
  have hq : (Int32.ofInt q).toInt = q := Claims.toInt_ofInt (by omega) (by omega)
  have hq0 : Int32.ofInt q ≠ 0 := by
    intro hzero
    rw [hzero] at hq
    have : (0 : Int32).toInt = 0 := rfl
    omega
  refine (h.books.ports.mem_iff q).trans ?_
  constructor
  · rintro ⟨u | t, hu⟩
    · obtain ⟨hnamed, hport, -⟩ := hu
      obtain ⟨rec, hrec, halike⟩ := h.get_some hnamed
      refine ⟨(s.reg.cells u).name, ?_, ?_, u, hnamed, hport⟩
      · rw [h.indexed.exclusive.byPort _ _ hq0]
        refine ⟨rec, hrec, ?_⟩
        rw [← Int32.toInt_inj, halike.port, hq]
        exact hport
      · rw [← Table.key_of_get hrec]
        exact halike.named
    · cases hu
  · rintro ⟨n, -, -, u, hu, hport⟩
    exact ⟨.inl u, NameRegistry.named_of_get hu, hport, by omega⟩

theorem Agree.free_iff {q : ℤ} (h0 : 0 < q) (h1 : q ≤ 65535) {name : String}
    (hown : q ≠ s.reg.heldPort name) :
    s.desk.engine.free [] ∅ name (Int32.ofInt q) = decide (q ∉ s.reg.ports) := by
  have hfree : s.desk.engine.free [] ∅ name (Int32.ofInt q) = true ↔
      Claims.OwnOrFree s.desk.engine.byPort (Int32.ofInt q) name := by
    simp [Claims.Engine.free, Claims.OwnOrFree, Claims.nameAt, Claims.reservedByOther]
  rw [Bool.eq_iff_iff, hfree, decide_eq_true_iff, h.port_mem h0 h1]
  constructor
  · rintro hfree ⟨n, hn, hne, u, hu, hport⟩
    rw [Claims.OwnOrFree, Claims.nameAt_of_get hn] at hfree
    rcases hfree with rfl | rfl
    · exact hne rfl
    · apply hown
      simp [NameRegistry.heldPort, hu, hport]
  · intro hnone
    left
    cases hget : s.desk.engine.byPort.get (Int32.ofInt q) with
    | none => simp [Claims.nameAt, hget]
    | some n =>
      have hq : (Int32.ofInt q).toInt = q := Claims.toInt_ofInt (by omega) (by omega)
      obtain ⟨rec, hrec, hmem⟩ := (h.indexed.ports _ n).mp hget
      obtain ⟨u, hu, halike⟩ := h.get_record hrec
      refine absurd ⟨n, hget, ?_, u, hu, ?_⟩ hnone
      · rw [← Table.key_of_get hrec]
        exact halike.named
      · rw [← halike.port, ← ((Claims.Engine.mem_ports rec _).mp hmem).1, hq]

theorem Agree.domain_get {d n : String} {u : ℕ} (hn : s.reg.names.get n = some u) :
    s.desk.engine.byDomain.get d = some n ↔ s.reg.domains.get d = some u := by
  obtain ⟨rec, hrec, halike⟩ := h.get_some hn
  rw [h.indexed.domains d n, h.books.domains d u]
  constructor
  · rintro ⟨rec', hrec', hd⟩
    rw [hrec] at hrec'
    cases hrec'
    exact ⟨NameRegistry.named_of_get hn, halike.domains ▸ hd⟩
  · rintro ⟨-, hd⟩
    exact ⟨rec, hrec, halike.domains ▸ hd⟩

theorem Agree.domain_iff (name d : String) :
    s.desk.engine.domainTaken ∅ name d = false ↔
      (s.reg.domains.get d = none ∨
        s.reg.domains.get d = s.reg.names.get name) := by
  have htaken : s.desk.engine.domainTaken ∅ name d = false ↔
      Claims.OwnOrFree s.desk.engine.byDomain d name := by
    simp [Claims.Engine.domainTaken, Claims.OwnOrFree, Claims.nameAt, or_iff_not_imp_left]
  rw [htaken]
  cases hd : s.reg.domains.get d with
  | none =>
    refine iff_of_true ?_ (.inl rfl)
    left
    cases hget : s.desk.engine.byDomain.get d with
    | none => simp [Claims.nameAt, hget]
    | some n =>
      obtain ⟨rec, hrec, -⟩ := (h.indexed.domains d n).mp hget
      obtain ⟨u, hu, -⟩ := h.get_record hrec
      rw [(h.domain_get hu).mp hget] at hd
      cases hd
  | some u =>
    have hnamed := ((h.books.domains d u).mp hd).1
    obtain ⟨rec, hrec, halike⟩ := h.get_some hnamed
    have hne : (s.reg.cells u).name ≠ "" := by
      rw [← Table.key_of_get hrec]
      exact halike.named
    rw [Claims.OwnOrFree, Claims.nameAt_of_get ((h.domain_get hnamed).mpr hd)]
    constructor
    · rintro (hempty | hname)
      · exact absurd hempty hne
      · rw [← hname]
        exact .inr hnamed.symm
    · rintro (hnone | hname)
      · cases hnone
      · exact .inr (s.reg.keyed name u hname.symm)

theorem Agree.wantedPort (spec : TunLiveTunnel) (name : String) :
    Claims.Engine.wantedPort spec (s.recs.get name) none =
      if spec.publicPort = 0 then Int32.ofInt (s.reg.heldPort name)
      else spec.publicPort := by
  unfold Claims.Engine.wantedPort NameRegistry.heldPort
  cases hn : s.reg.names.get name with
  | none =>
    rw [h.get_none.mp hn]
    by_cases h0 : spec.publicPort = 0
    · simp [h0]
    · simp [h0]
  | some u =>
    obtain ⟨rec, hrec, halike⟩ := h.get_some hn
    rw [hrec]
    have hport : Int32.ofInt (s.reg.cells u).port = rec.publicPort := by
      rw [← halike.port, Int32.ofInt_toInt]
    by_cases h0 : spec.publicPort = 0
    · by_cases hr : rec.publicPort = 0
      · simp [h0, hport, hr]
      · simp [h0, hport, hr]
    · simp [h0]

theorem Agree.held_inRange (name : String) (h0 : s.reg.heldPort name ≠ 0) :
    S.cfg.rules.portMin ≤ s.reg.heldPort name ∧
      s.reg.heldPort name ≤ S.cfg.rules.portMax ∧
      ∃ n, s.desk.engine.byPort.get (Int32.ofInt (s.reg.heldPort name)) = some n ∧
        n = name := by
  unfold NameRegistry.heldPort at *
  cases hn : s.reg.names.get name with
  | none => simp [hn] at h0
  | some u =>
    simp only [hn, Option.map_some, Option.getD_some] at h0 ⊢
    obtain ⟨rec, hrec, halike⟩ := h.get_some hn
    obtain ⟨hlo, hhi⟩ := halike.inRange h0
    refine ⟨hlo, hhi, name, ?_, rfl⟩
    have hport : Int32.ofInt (s.reg.cells u).port = rec.publicPort := by
      rw [← halike.port, Int32.ofInt_toInt]
    rw [hport, h.indexed.exclusive.byPort]
    · exact ⟨rec, hrec, rfl⟩
    · intro hzero
      apply h0
      rw [← halike.port, hzero]
      rfl

end

def portAnswer : Except Claims.Refusal Int32 → Except ErrorCode ℤ
  | .error r => .error (Relay.wireCode r.code)
  | .ok p => .ok p.toInt

structure Asks (S : Setting) (req : TunClaimRequest) (spec : TunLiveTunnel)
    (requested previous : ℤ) : Prop where
  portMin : req.portMin = Int32.ofInt S.cfg.rules.portMin
  portMax : req.portMax = Int32.ofInt S.cfg.rules.portMax
  publicPort : spec.publicPort = Int32.ofInt requested
  uint32 : 0 ≤ requested ∧ requested < 4294967296
  previousPort : spec.previousPort = Int32.ofInt previous
  previous_uint32 : 0 ≤ previous ∧ previous < 4294967296

section
variable {S : Setting} {s : Both} {req : TunClaimRequest} {spec : TunLiveTunnel}
  {requested previous : ℤ}

theorem mem_portsFrom {lo hi p : ℤ} : p ∈ portsFrom lo hi ↔ lo ≤ p ∧ p ≤ hi := by
  simp only [portsFrom, List.mem_map, List.mem_range]
  constructor
  · rintro ⟨k, hk, rfl⟩
    omega
  · intro hp
    exact ⟨(p - lo).toNat, by omega, by omega⟩

theorem Setting.between (S : Setting) {n : ℤ} (h0 : 0 ≤ n) (h1 : n < 4294967296) :
    (Int32.ofInt S.cfg.rules.portMin ≤ Int32.ofInt n ∧
      Int32.ofInt n ≤ Int32.ofInt S.cfg.rules.portMax) ↔
    S.cfg.rules.portMin ≤ n ∧ n ≤ S.cfg.rules.portMax := by
  have hvalid := S.cfg.valid
  exact Claims.ofInt_uint32_between h0 h1 (by omega) (by omega) (by omega) (by omega)

theorem Asks.portRange (ha : Asks S req spec requested previous) :
    Claims.Engine.portRange S.engine req =
      (Int32.ofInt S.cfg.rules.portMin, Int32.ofInt S.cfg.rules.portMax) := by
  unfold Claims.Engine.portRange
  rw [S.rules, ha.portMin, ha.portMax]
  split <;> rfl

theorem Asks.port_wanted (ha : Asks S req spec requested previous) {holder : Option TunLiveTunnel}
    {want : ℤ} (h0 : 0 < want) (h1 : want < 4294967296)
    (hw : Claims.Engine.wantedPort spec holder none = Int32.ofInt want) :
    portAnswer (s.desk.engine.port S.engine req spec holder none [] ∅) =
      if want < S.cfg.rules.portMin ∨ S.cfg.rules.portMax < want then .error .portNotAllowed
      else if s.desk.engine.free [] ∅ spec.name (Int32.ofInt want) then .ok want
      else .error .portUnavailable := by
  have hne : Int32.ofInt want ≠ 0 := by
    rw [Ne, Claims.ofInt_uint32_eq_zero (by omega) h1]
    omega
  have hout : (Int32.ofInt want < Int32.ofInt S.cfg.rules.portMin ∨
      Int32.ofInt S.cfg.rules.portMax < Int32.ofInt want) ↔
      (want < S.cfg.rules.portMin ∨ S.cfg.rules.portMax < want) := by
    rw [← not_iff_not, not_or, not_or, Int32.not_lt, Int32.not_lt, Int.not_lt, Int.not_lt]
    exact S.between (by omega) h1
  unfold Claims.Engine.port
  rw [ha.portRange, hw, S.rules]
  dsimp only
  rw [if_neg fun hz => hne hz.1, if_pos hne]
  by_cases hin : want < S.cfg.rules.portMin ∨ S.cfg.rules.portMax < want
  · rw [if_pos hin, if_pos (hout.mpr hin)]
    rfl
  · rw [if_neg hin, if_neg (mt hout.mp hin)]
    have hvalid := S.cfg.valid
    cases s.desk.engine.free [] ∅ spec.name (Int32.ofInt want) with
    | false => rfl
    | true => simp [portAnswer, Claims.toInt_ofInt (n := want) (by omega) (by omega)]

theorem Agree.port_any (h : Agree S s) (ha : Asks S req spec requested previous)
    (h0 : s.reg.heldPort spec.name = 0)
    (hw : Claims.Engine.wantedPort spec (s.recs.get spec.name) none = 0) :
    portAnswer (s.desk.engine.port S.engine req spec (s.recs.get spec.name) none
      [] ∅) =
    choosePort S.cfg.rules.portMin S.cfg.rules.portMax 0 previous 0
      (· ∉ s.reg.ports) := by
  have hvalid := S.cfg.valid
  have hfree : ∀ q, S.cfg.rules.portMin ≤ q → q ≤ S.cfg.rules.portMax →
      s.desk.engine.free [] ∅ spec.name (Int32.ofInt q) = decide (q ∉ s.reg.ports) := by
    intro q h1 h2
    exact h.free_iff (by omega) (by omega) (by omega)
  have hscan : ∀ fuel, 65536 ≤ fuel → Claims.firstFree (s.desk.engine.free [] ∅ spec.name)
      (Int32.ofInt S.cfg.rules.portMax) fuel (Int32.ofInt S.cfg.rules.portMin) =
      ((portsFrom S.cfg.rules.portMin S.cfg.rules.portMax).find?
        (· ∉ s.reg.ports)).map Int32.ofInt := by
    intro fuel hfuel
    rw [Claims.firstFree_eq_find? _ (by omega) _ _ _ (by omega) (by omega) rfl (by omega)]
    refine congrArg _ (List.find?_congr fun q hq => ?_)
    have hmem := mem_portsFrom.mp hq
    exact hfree _ hmem.1 hmem.2
  have hchoose : choosePort S.cfg.rules.portMin S.cfg.rules.portMax 0 previous 0
      (· ∉ s.reg.ports) = foundPort
        (((if S.cfg.rules.portMin ≤ previous ∧ previous ≤ S.cfg.rules.portMax then [previous]
          else []) ++ portsFrom S.cfg.rules.portMin S.cfg.rules.portMax).find?
            (· ∉ s.reg.ports)) := by
    simp [choosePort]
  unfold Claims.Engine.port
  rw [hchoose, ha.portRange, hw, S.rules, ha.previousPort]
  dsimp only
  by_cases hprev : S.cfg.rules.portMin ≤ previous ∧ previous ≤ S.cfg.rules.portMax ∧
      previous ∉ s.reg.ports
  · have hin := (S.between ha.previous_uint32.1 ha.previous_uint32.2).mpr ⟨hprev.1, hprev.2.1⟩
    have hgot := hfree previous hprev.1 hprev.2.1
    rw [if_pos ⟨rfl, hin.1, hin.2, hgot.trans (by simp [hprev.2.2])⟩, if_pos ⟨hprev.1, hprev.2.1⟩]
    simp [hprev.2.2, portAnswer, foundPort, Claims.toInt_ofInt (n := previous) (by omega) (by omega)]
  · have hnot : ¬ ((0 : Int32) = 0 ∧ Int32.ofInt S.cfg.rules.portMin ≤ Int32.ofInt previous ∧
        Int32.ofInt previous ≤ Int32.ofInt S.cfg.rules.portMax ∧
        s.desk.engine.free [] ∅ spec.name (Int32.ofInt previous) = true) := by
      rintro ⟨-, hge, hle, hgot⟩
      have hin := (S.between ha.previous_uint32.1 ha.previous_uint32.2).mp ⟨hge, hle⟩
      rw [hfree previous hin.1 hin.2] at hgot
      exact hprev ⟨hin.1, hin.2, by simpa using hgot⟩
    have hskip : ((if S.cfg.rules.portMin ≤ previous ∧ previous ≤ S.cfg.rules.portMax then
        [previous] else []) ++ portsFrom S.cfg.rules.portMin S.cfg.rules.portMax).find?
          (· ∉ s.reg.ports) = (portsFrom S.cfg.rules.portMin S.cfg.rules.portMax).find?
          (· ∉ s.reg.ports) := by
      split
      next hin =>
        refine List.find?_cons_of_neg ?_
        simpa using fun hfree => hprev ⟨hin.1, hin.2, hfree⟩
      next => rfl
    rw [if_neg hnot, if_neg (by simp), hskip, hscan _ (by decide)]
    cases hfind : (portsFrom S.cfg.rules.portMin S.cfg.rules.portMax).find?
        (· ∉ s.reg.ports) with
    | none => rfl
    | some p =>
      have hp := mem_portsFrom.mp (List.mem_of_find?_eq_some hfind)
      simp [portAnswer, foundPort, Claims.toInt_ofInt (n := p) (by omega) (by omega)]

theorem Agree.port_answer (h : Agree S s) (ha : Asks S req spec requested previous) :
    portAnswer (s.desk.engine.port S.engine req spec (s.recs.get spec.name) none
      [] ∅) =
    choosePort S.cfg.rules.portMin S.cfg.rules.portMax requested previous
      (s.reg.heldPort spec.name) (· ∉ s.reg.ports) := by
  have hvalid := S.cfg.valid
  have hwant := h.wantedPort spec spec.name
  have hzero := Claims.ofInt_uint32_eq_zero ha.uint32.1 ha.uint32.2
  rw [ha.publicPort] at hwant
  by_cases hkept : s.reg.heldPort spec.name ≠ 0 ∧
      (requested = 0 ∨ requested = s.reg.heldPort spec.name)
  · -- the name keeps its port, which is in range and its own
    obtain ⟨hge, hle, n, hn, rfl⟩ := h.held_inRange spec.name hkept.1
    have hown : s.desk.engine.free [] ∅ spec.name
        (Int32.ofInt (s.reg.heldPort spec.name)) = true := by
      simp [Claims.Engine.free, Claims.nameAt, Claims.reservedByOther, hn]
    have hheld : Claims.Engine.wantedPort spec (s.recs.get spec.name) none =
        Int32.ofInt (s.reg.heldPort spec.name) := by
      rw [hwant]
      rcases hkept.2 with h0 | hsame
      · rw [if_pos (hzero.mpr h0)]
      · rw [hsame, ite_self]
    rw [ha.port_wanted (by omega) (by omega) hheld, if_neg (by omega), if_pos hown]
    unfold choosePort
    rw [if_pos hkept]
  unfold choosePort
  rw [if_neg hkept]
  by_cases hr : requested = 0
  · have h0 : s.reg.heldPort spec.name = 0 := by
      by_contra h0
      exact hkept ⟨h0, .inl hr⟩
    rw [if_pos (hzero.mpr hr), h0] at hwant
    rw [h.port_any ha h0 hwant, if_neg (by simpa using hr)]
    simp [choosePort]
  · rw [if_neg (mt hzero.mp hr)] at hwant
    have hbounds := ha.uint32
    rw [ha.port_wanted (by omega) (by omega) hwant, if_pos hr]
    refine if_ctx_congr Iff.rfl (fun _ => rfl) fun hin => ?_
    have hne : requested ≠ s.reg.heldPort spec.name := by
      intro hsame
      exact hkept ⟨hsame ▸ hr, .inr hsame⟩
    rw [h.free_iff (by omega) (by omega) hne]

theorem Agree.holder (h : Agree S s) {t : ℕ} (ht : t ∉ s.used)
    (hreq : req.sessionId = S.sessionID t) (name : String) :
    (s.recs.get name).map (Claims.Engine.holderOf req) =
      (s.reg.names.get name).map (s.reg.holder t) := by
  cases hn : s.reg.names.get name with
  | none => rw [h.get_none.mp hn]; rfl
  | some u =>
    obtain ⟨rec, hrec, halike⟩ := h.get_some hn
    rw [hrec]
    obtain ⟨t', ht', hsid, hstate⟩ := halike.session
    have hne : t' ≠ t := fun heq => ht (heq ▸ ht')
    have hsid' : rec.sessionId ≠ req.sessionId := by
      rw [hsid, hreq]
      exact fun heq => hne (S.sessionID_inj heq)
    simp only [Option.map_some, Claims.Engine.holderOf, NameRegistry.holder, halike.token,
      halike.agent, hsid', decide_false, Option.some.injEq, Holder.mk.injEq, true_and]
    rcases hstate with ⟨hs, -, hrs⟩ | ⟨hs, -, -, hrs, -⟩
    · simp [hs, hrs, hne]
    · simp [hs, hrs]

theorem Agree.active (h : Agree S s) (tokenID name : String) :
    s.desk.engine.active tokenID name .empty =
      s.reg.activeLocked tokenID (s.reg.names.get name) := by
  have hlen : (Table.empty : Table TunLiveTunnel.name).map.len = 0 := rfl
  unfold Claims.Engine.active NameRegistry.activeLocked
  rw [hlen, Int.natCast_zero, Int.add_zero]
  refine congrArg _ (GoMap.countP_values_congr fun n => ?_)
  show (s.recs.get n).any _ = (s.reg.names.get n).any _
  cases hn : s.reg.names.get n with
  | none => rw [h.get_none.mp hn]; rfl
  | some u =>
    obtain ⟨rec, hrec, halike⟩ := h.get_some hn
    have hself : rec.name ≠ name ↔ some u ≠ s.reg.names.get name := by
      have hname : rec.name = n := Table.key_of_get hrec
      rw [hname, Ne, Ne, not_iff_not]
      constructor
      · rintro rfl
        exact hn.symm
      · intro hu
        rw [← s.reg.keyed n u hn, s.reg.keyed name u hu.symm]
    have hconn : rec.state = .active ↔ (s.reg.cells u).session.isSome := by
      obtain ⟨t, -, -, ⟨hs, -, hrs⟩ | ⟨hs, -, -, hrs, -⟩⟩ := halike.session
      · simp [hs, hrs]
      · simp [hs, hrs]
    rw [hrec]
    simp only [Option.any_some, Table.get_empty, and_true, halike.token, hself, hconn]
    refine decide_eq_decide.mpr ⟨fun hp => ⟨hp.1, hp.2.2, hp.2.1⟩, fun hp => ⟨hp.1, hp.2.2, hp.2.1⟩⟩

theorem Agree.decision (h : Agree S s) (req : TunClaimRequest) {t : ℕ} (ht : t ∉ s.used)
    (hreq : req.sessionId = S.sessionID t) (name tokenID agentID : String) (maxTunnels : ℤ) :
    registryDecide ((s.recs.get name).map (Claims.Engine.holderOf req)) tokenID
      agentID (s.desk.engine.active tokenID name .empty) maxTunnels =
    s.reg.decision name tokenID agentID t maxTunnels := by
  rw [h.holder ht hreq, h.active]
  rfl

end

theorem askOf_ok {γ : Type} {cfg : Config γ} {w : World} {who : Identity} {spec : TunnelSpec}
    {a : Ask} (h : askOf cfg w who spec = .ok a) : a.spec = spec ∧ a.Checked cfg who := by
  unfold askOf at h
  cases htype : cfg.checkType who.token spec with
  | error err => simp [htype] at h
  | ok access =>
  simp only [htype] at h
  cases hname : cfg.checkName who.token spec
      (if spec.name = "" then "t-" ++ w.randomID 4 else spec.name) with
  | error err => simp [hname] at h
  | ok domains =>
    simp only [hname] at h
    cases h
    refine ⟨rfl, htype, ?_, hname⟩
    unfold Ask.NameOf
    by_cases hempty : spec.name = ""
    · simp only [if_pos hempty]
      exact ⟨_, rfl⟩
    · simp only [if_neg hempty]

theorem Ask.Checked.rules {γ : Type} {cfg : Config γ} {who : Identity} {a : Ask}
    (h : a.Checked cfg who) : cfg.rules.checkName a.name = none := by
  have hname := h.name
  unfold Config.checkName at hname
  split at hname
  · cases hname
  next hvalid =>
  split at hname
  · cases hname
  split at hname
  · cases hname
  next hreserved =>
  unfold Rules.checkName
  rw [if_neg hvalid, if_neg hreserved]

theorem Ask.Checked.tunnelType {γ : Type} {cfg : Config γ} {who : Identity} {a : Ask}
    (h : a.Checked cfg who) :
    ∃ typ, tunnelTypeOf a.spec.type = .ok typ ∧
      Claims.hasPort typ = hasPublicPort a.spec.type := by
  have htype := h.type
  unfold Config.checkType at htype
  split at htype
  · cases htype
  next hknown =>
    cases ht : a.spec.type with
    | tcp => exact ⟨.tcp, rfl, rfl⟩
    | ssh => exact ⟨.ssh, rfl, rfl⟩
    | http => exact ⟨.http, rfl, rfl⟩
    | tls => exact ⟨.tls, rfl, rfl⟩
    | unspecified => simp [ht] at hknown
    | unknown code => simp [ht] at hknown

inductive Grants (env : Claims.Env) (req : TunClaimRequest) (spec : TunLiveTunnel) :
    Except ErrorCode ℤ → Except Claims.Refusal TunLiveTunnel → Prop where
  | refused (r : Claims.Refusal) : Grants env req spec (.error (Relay.wireCode r.code)) (.error r)
  | granted (p : Int32) :
      Grants env req spec (.ok p.toInt) (.ok { Engine.claimed env req spec with publicPort := p })

def Claim.Capped (c : Claim) : Prop :=
  -2147483648 ≤ c.token.policy.maxTunnels ∧ c.token.policy.maxTunnels < 2147483648

section
variable {S : Setting} {s : Both} {c : Claim} {a : Ask} {typ : TunTunnelType}

theorem Setting.asks (S : Setting) (c : Claim) (a : Ask) (hspec : a.spec = c.spec)
    (typ : TunTunnelType) :
    Asks S (Relay.claimRequest S.node.relayID (S.request c a) typ)
      (Relay.claimSpec (S.request c a) typ) a.requested a.previous := by
  have hlt : ∀ p : UInt32, (0 : ℤ) ≤ p.toNat ∧ (p.toNat : ℤ) < 4294967296 := by
    intro p
    have := p.toNat_lt
    omega
  exact ⟨rfl, rfl, by rw [Ask.requested, hspec]; rfl, hlt _, by rw [Ask.previous, hspec]; rfl, hlt _⟩

structure Carries (S : Setting) (c : Claim) (a : Ask) (req : TunClaimRequest)
    (spec : TunLiveTunnel) : Prop where
  asks : Asks S req spec a.requested a.previous
  sessionId : req.sessionId = S.sessionID c.session
  tokenId : req.tokenId = c.token.id
  agentId : req.agentId = c.agentID
  maxTunnels : req.maxTunnels.toInt = c.token.policy.maxTunnels
  name : spec.name = a.name
  domains : spec.domains = a.domains
  needsPort : (Claims.hasPort spec.type ∧ spec.accessToken = false) ↔ a.ported

theorem Agree.check (h : Agree S s) (hfresh : c.session ∉ s.used)
    (hchecked : a.Checked S.cfg (S.who c)) {req : TunClaimRequest} {spec : TunLiveTunnel}
    (hc : Carries S c a req spec) (now : ℤ) :
    Grants { now := now } req spec
      (s.reg.verdict S.cfg.rules c.session (S.who c) a)
      (s.desk.engine.check S.engine { now := now } req spec .none) := by
  have hrules : S.engine.rules.checkName a.name = none := by
    rw [S.rules]
    exact hchecked.rules
  have hdecide := h.decision req hfresh hc.sessionId a.name c.token.id c.agentID
    c.token.policy.maxTunnels
  have hdomains : (a.domains.find? (s.desk.engine.domainTaken ∅ a.name) = none) ↔
      s.reg.domainsFree a.name a.domains = true := by
    unfold NameRegistry.domainsFree
    simp only [List.find?_eq_none, List.all_eq_true, decide_eq_true_eq, ← h.domain_iff,
      Bool.not_eq_true]
  have hlisted : (Engine.claimed { now := now } req spec).domains = a.domains := hc.domains
  have hnone : Claims.reservationOf [] a.name = none := rfl
  have hfree : ¬ (none : Option TunReservation).any (fun r => r.tokenId ≠ c.token.id) = true := by
    simp
  have hports := h.port_answer hc.asks
  rw [hc.name] at hports
  have hport : Grants { now := now } req spec
      (if a.ported then choosePort S.cfg.rules.portMin S.cfg.rules.portMax a.requested a.previous
        (s.reg.heldPort a.name) (· ∉ s.reg.ports) else .ok 0)
      (if Claims.hasPort spec.type ∧ spec.accessToken = false then
        (s.desk.engine.port S.engine req spec (s.recs.get a.name) none [] ∅).map
          fun p => { Engine.claimed { now := now } req spec with publicPort := p }
      else .ok (Engine.claimed { now := now } req spec)) := by
    by_cases hp : a.ported
    · rw [if_pos hp, if_pos (hc.needsPort.mpr hp), ← hports]
      cases s.desk.engine.port S.engine req spec (s.recs.get a.name) none [] ∅ with
      | error r => exact .refused r
      | ok p => exact .granted p
    · rw [if_neg hp, if_neg (mt hc.needsPort.mp hp)]
      exact .granted 0
  unfold Claims.Engine.check NameRegistry.verdict
  generalize (if a.ported then choosePort S.cfg.rules.portMin S.cfg.rules.portMax a.requested
    a.previous (s.reg.heldPort a.name) (· ∉ s.reg.ports) else .ok 0) = due
    at hport ⊢
  rw [hc.name, hrules, hc.tokenId, hc.agentId, hc.maxTunnels]
  dsimp only
  rw [if_neg Bool.false_ne_true, hnone, if_neg hfree]
  have hd : registryDecide (Option.map (Engine.holderOf req) (s.recs.get a.name))
      c.token.id c.agentID (s.desk.engine.active c.token.id a.name Claims.Staged.none.recs)
      c.token.policy.maxTunnels = s.reg.decision a.name c.token.id c.agentID c.session
        c.token.policy.maxTunnels := hdecide
  rw [hd]
  have hwho : s.reg.decision a.name (S.who c).token.id (S.who c).agentID c.session
      (S.who c).token.policy.maxTunnels = s.reg.decision a.name c.token.id c.agentID
      c.session c.token.policy.maxTunnels := rfl
  rw [hwho]
  cases s.reg.decision a.name c.token.id c.agentID c.session
      c.token.policy.maxTunnels with
  | error kind =>
    cases kind with
    | maxTunnels => exact .refused ⟨.maxTunnels, _⟩
    | _ => exact .refused (Claims.nameTaken a.name)
  | ok d =>
    have hdoms : (Engine.claimed { now := now } req spec).domains.find?
        (s.desk.engine.domainTaken Claims.Staged.none.domains a.name) =
        a.domains.find? (s.desk.engine.domainTaken ∅ a.name) := congrArg (List.find? _) hlisted
    dsimp only [verdict]
    rw [hdoms]
    cases hf : a.domains.find? (s.desk.engine.domainTaken ∅ a.name) with
    | some dom =>
      rw [if_neg]
      · exact .refused ⟨.nameTaken, _⟩
      · rw [← hdomains, hf]
        simp
    | none =>
      rw [if_pos (hdomains.mp hf)]
      dsimp only
      by_cases hp : Claims.hasPort spec.type ∧ spec.accessToken = false
      · rw [if_pos hp] at hport ⊢
        cases hgot : s.desk.engine.port S.engine req spec (s.recs.get a.name) none
            [] Claims.Staged.none.ports with
        | error r =>
          have hgot' : s.desk.engine.port S.engine req spec (s.recs.get a.name) none
            [] ∅ = _ := hgot
          rw [hgot'] at hport
          exact hport
        | ok p =>
          have hgot' : s.desk.engine.port S.engine req spec (s.recs.get a.name) none
            [] ∅ = _ := hgot
          rw [hgot'] at hport
          exact hport
      · rw [if_neg hp] at hport ⊢
        exact hport

theorem Setting.carries (S : Setting) (hcap : c.Capped) (hspec : a.spec = c.spec)
    (hport : Claims.hasPort typ = hasPublicPort a.spec.type) :
    Carries S c a (Relay.claimRequest S.node.relayID (S.request c a) typ)
      (Relay.claimSpec (S.request c a) typ) where
  asks := S.asks c a hspec typ
  sessionId := rfl
  tokenId := rfl
  agentId := rfl
  maxTunnels := Claims.toInt_ofInt hcap.1 hcap.2
  name := rfl
  domains := rfl
  needsPort := by
    show (Claims.hasPort typ = true ∧ a.access.requiresToken = false) ↔ _
    rw [hport]
    rfl

structure RecordOf (S : Setting) (c : Claim) (a : Ask) (p : Int32) (rec : TunLiveTunnel) :
    Prop where
  name : rec.name = a.name
  token : rec.tokenId = c.token.id
  agent : rec.agentId = c.agentID
  session : rec.sessionId = S.sessionID c.session
  relay : rec.relayId = S.node.relayID
  active : rec.state = .active
  port : rec.publicPort = p
  domains : rec.domains = a.domains
  real : rec.simulated = false

inductive DeskEnds (S : Setting) (c : Claim) (a : Ask) (d : Desk) :
    Except ErrorCode ℤ → Answer × Desk → Prop where
  | refused (code : ErrorCode) : DeskEnds S c a d (.error code) (some (.error code), d)
  | granted (p : Int32) (rec : TunLiveTunnel) : RecordOf S c a p rec →
      Claims.Indexed (d.engine.setTunnel rec) →
      DeskEnds S c a d (.ok p.toInt) (some (.ok p.toInt),
        { engine := d.engine.setTunnel rec
          held := Function.update d.held c.session (d.held c.session ++ [a.name]) })

theorem Agree.deskClaim (h : Agree S s) (hfresh : c.session ∉ s.used) (hcap : c.Capped)
    (hask : askOf S.cfg c.world (S.who c) c.spec = .ok a) :
    DeskEnds S c a s.desk (s.reg.verdict S.cfg.rules c.session (S.who c) a)
      (S.deskClaim c s.desk) := by
  obtain ⟨hspec, hchecked⟩ := askOf_ok hask
  obtain ⟨typ, htyp, hport⟩ := hchecked.tunnelType
  have hgrants := h.check hfresh hchecked (S.carries hcap hspec hport) c.world.now
  have hmine : ∀ old, s.recs.get a.name = some old →
      old.relayId = S.node.relayID := by
    intro old hold
    obtain ⟨u, -, halike⟩ := h.get_record hold
    exact halike.relay
  have hclaim : Relay.claimTunnel S.engine S.node.relayID (S.request c a) []
      (some { now := c.world.now }) s.desk.engine =
      ((s.desk.engine.claim S.engine { now := c.world.now }
        (Relay.claimRequest S.node.relayID (S.request c a) typ)).1,
      Relay.resultOf (s.desk.engine.claim S.engine { now := c.world.now }
        (Relay.claimRequest S.node.relayID (S.request c a) typ)).2) := by
    have hreqtype : tunnelTypeOf (S.request c a).type = .ok typ := htyp
    unfold Relay.claimTunnel
    rw [hreqtype]
    dsimp only [Relay.answered, Relay.failed]
    rw [Relay.handle_claim rfl S.named]
  unfold Setting.deskClaim
  rw [hask]
  dsimp only
  rw [hclaim]
  generalize hdue : s.reg.verdict S.cfg.rules c.session (S.who c) a = due at hgrants ⊢
  generalize hout : s.desk.engine.check S.engine { now := c.world.now }
    (Relay.claimRequest S.node.relayID (S.request c a) typ)
    (Relay.claimSpec (S.request c a) typ) .none = out at hgrants
  cases hgrants with
  | refused r =>
    have hcode := Claims.Engine.check_refused hout
    rw [Claims.Engine.claim_single_error rfl c.hasAgent c.hasToken (S.sessionID_ne c.session) rfl
      hout]
    have hresult : Relay.resultOf (Claims.refuse r.code r.msg) =
        .remote (Relay.wireCode r.code) r.msg := if_pos hcode
    rw [hresult]
    exact .refused _
  | granted p =>
    rw [Claims.Engine.claim_single_ok rfl c.hasAgent c.hasToken (S.sessionID_ne c.session) rfl
      hout hmine]
    exact .granted p _ ⟨rfl, rfl, rfl, rfl, rfl, rfl, rfl, rfl, rfl⟩
      (Claims.Engine.indexed_check h.indexed hout)

inductive RelayEnds (S : Setting) (c : Claim) (a : Ask) (v : Shared) :
    Except ErrorCode ℤ → Answer → Shared → Prop where
  | barred (code : ErrorCode) {kind : RuleKind} :
      v.registry.claim a.name a.spec.type c.token.id c.agentID c.session
        c.token.policy.maxTunnels = .error kind →
      RelayEnds S c a v (.error code) (some (.error code)) v
  | undone (code : ErrorCode) {k : NameRegistry.Claimed} {r : NameRegistry} :
      v.registry.claim a.name a.spec.type c.token.id c.agentID c.session
        c.token.policy.maxTunnels = .ok k →
      FailsToOpen c.session (S.who c) a v.registry r →
      RelayEnds S c a v (.error code) (some (.error code)) ((v.closeStale k.stale).put r)
  | opened (p : ℤ) {k : NameRegistry.Claimed} {tn : Tunnel} {r : NameRegistry} :
      v.registry.claim a.name a.spec.type c.token.id c.agentID c.session
        c.token.policy.maxTunnels = .ok k →
      Opens c.session (S.who c) a v.registry k.res tn.existed r →
      tn.res = k.res → tn.endpoint.name = a.name → (r.cells k.res).tunnel = some tn →
      tn.listener = (if a.ported then some v.nextSocket else none) →
      (if a.ported then (r.cells k.res).port = p else p = 0) →
      RelayEnds S c a v (.ok p) (some (.ok (uint32 p).toNat))
        ((((v.closeStale k.stale).serve a p).put r).keep c.session (.ok tn))

theorem relayClaim_ends (S : Setting) (c : Claim) {s : Server Unit} (hs : s.shared.Sound)
    (hask : askOf S.cfg c.world (S.who c) c.spec = .ok a) :
    RelayEnds S c a s.shared (s.registry.verdict S.cfg.rules c.session (S.who c) a)
      (S.relayClaim c s).1 (S.relayClaim c s).2.shared := by
  obtain ⟨s0, hs0, hreply, hshared⟩ := eval_register S.cfg (t := c.session) (w := c.world) (s := s)
    (S.who c) c.spec
  obtain ⟨-, hopen⟩ := (eval_openTunnel S.cfg c.session c.world (S.who c) c.spec s0).2 a hask
  have hpolicy : (S.who c).token.policy.ports = "" := c.anyPort
  have hends := eval_openChecked S.cfg (t := c.session) (a := a) S.alone c.binds hpolicy
    (hs0 ▸ hs : s0.shared.Sound)
  have hruns := runs_openChecked S.alone (of_eval (objects S.cfg) c.session c.world
    (openChecked S.cfg (S.who c) a.spec a.access a.name a.domains) s0)
  have hanswer : (S.relayClaim c s).1 = Reply.answer (replyOf (eval (objects S.cfg) c.session
      c.world (openTunnel S.cfg (S.who c) c.spec) s0).1) := congrArg Reply.answer hreply
  have hstate : (S.relayClaim c s).2.shared = (eval (objects S.cfg) c.session c.world
      (openTunnel S.cfg (S.who c) c.spec) s0).2.shared.keep c.session (eval (objects S.cfg)
      c.session c.world (openTunnel S.cfg (S.who c) c.spec) s0).1 := hshared
  have hreg : s0.registry = s.registry := congrArg Shared.registry hs0
  have hnext : s0.nextSocket = s.nextSocket := congrArg Shared.nextSocket hs0
  rw [hanswer, hstate, hopen]
  rw [hreg] at hends hruns
  generalize eval (objects S.cfg) c.session c.world
    (openChecked S.cfg (S.who c) a.spec a.access a.name a.domains) s0 = out at hends hruns ⊢
  generalize s.registry.verdict S.cfg.rules c.session (S.who c) a = due at hends ⊢
  cases hends with
  | barred code msg hc =>
    rw [hreg] at hc
    show RelayEnds S c a s.shared (.error code) (some (.error code)) s0.shared
    rw [hs0]
    exact .barred code hc
  | undone code msg hc hs' =>
    rw [hreg] at hc
    rw [hs0] at hs'
    obtain ⟨err, -, hfails⟩ | ⟨tn, htn, -⟩ := hruns
    swap
    · cases htn
    show RelayEnds S c a s.shared (.error code) (some (.error code)) (Server.shared _)
    rw [hs']
    exact .undone code hc hfails
  | @opened p k tn s' hc hs' hres hname hpub hln htn hport =>
    rw [hreg] at hc
    rw [hs0] at hs'
    rw [hnext] at hln
    obtain ⟨err, herr, -⟩ | ⟨tn', htn', hopens⟩ := hruns
    · cases herr
    cases htn'
    rw [hres] at hopens
    show RelayEnds S c a s.shared (.ok p) (some (.ok tn.endpoint.publicPort.toNat))
      (s'.shared.keep c.session (.ok tn))
    rw [hs', hpub]
    exact .opened p hc hopens hres hname htn hln hport

theorem choosePort_ok {lo hi requested previous held p : ℤ} {free : ℤ → Bool}
    (h : choosePort lo hi requested previous held free = .ok p) :
    (held ≠ 0 ∧ p = held) ∨ (lo ≤ p ∧ p ≤ hi) := by
  unfold choosePort at h
  split at h
  next hkept =>
    cases h
    exact .inl ⟨hkept.1, rfl⟩
  next =>
  right
  split at h
  · split at h
    · cases h
    · split at h
      · cases h
        omega
      · cases h
  · dsimp only at h
    cases hf : ((if lo ≤ previous ∧ previous ≤ hi then [previous] else []) ++
        portsFrom lo hi).find? free with
    | none => rw [hf] at h; cases h
    | some q =>
      rw [hf] at h
      cases h
      rcases List.mem_append.mp (List.mem_of_find?_eq_some hf) with hq | hq
      · split at hq
        next hin =>
          rw [List.mem_singleton.mp hq]
          exact hin
        next => cases hq
      · exact mem_portsFrom.mp hq

theorem verdict_ok {decided : Except RuleKind Decision} {free : Bool} {port : Except ErrorCode ℤ}
    {p : ℤ} (h : verdict decided free port = .ok p) :
    (∃ d, decided = .ok d) ∧ free = true ∧ port = .ok p := by
  unfold verdict at h
  split at h
  · cases h
  · cases h
  next d =>
    split at h
    next hfree => exact ⟨⟨d, rfl⟩, hfree, h⟩
    next => cases h

theorem Agree.port_bounds (h : Agree S s) {p : ℤ}
    (hp : s.reg.verdict S.cfg.rules c.session (S.who c) a = .ok p) :
    if a.ported then S.cfg.rules.portMin ≤ p ∧ p ≤ S.cfg.rules.portMax else p = 0 := by
  obtain ⟨-, -, hport⟩ := verdict_ok hp
  by_cases hneeds : a.ported
  · rw [if_pos hneeds] at hport ⊢
    rcases choosePort_ok hport with ⟨h0, rfl⟩ | hin
    · obtain ⟨hge, hle, -⟩ := h.held_inRange a.name h0
      exact ⟨hge, hle⟩
    · exact hin
  · rw [if_neg hneeds] at hport ⊢
    cases hport
    rfl

theorem toNat_uint32 {p : ℤ} (h0 : 0 ≤ p) (h1 : p < 4294967296) : ((uint32 p).toNat : ℤ) = p := by
  unfold uint32
  rw [UInt32.toNat_ofNat_of_lt' (by show _ < 4294967296; omega)]
  omega

theorem claim_error {err : OpenError} (hask : askOf S.cfg c.world (S.who c) c.spec = .error err)
    (s : Both) : (S.relayClaim c s.relay).1 = (S.deskClaim c s.desk).1 ∧
      (S.relayClaim c s.relay).2.shared = s.relay.shared ∧ (S.deskClaim c s.desk).2 = s.desk := by
  obtain ⟨s0, hs0, hreply, hshared⟩ := eval_register S.cfg (t := c.session) (w := c.world)
    (s := s.relay) (S.who c) c.spec
  have hopen := (eval_openTunnel S.cfg c.session c.world (S.who c) c.spec s0).1 err hask
  rw [hopen] at hreply hshared
  have hdesk : S.deskClaim c s.desk = (Reply.answer (errorReply err), s.desk) := by
    unfold Setting.deskClaim
    rw [hask]
  rw [hdesk]
  exact ⟨congrArg Reply.answer hreply, hshared.trans hs0, rfl⟩

theorem Agree.answers (h : Agree S s) (hfresh : c.session ∉ s.used) (hcap : c.Capped) :
    (S.relayClaim c s.relay).1 = (S.deskClaim c s.desk).1 := by
  cases hask : askOf S.cfg c.world (S.who c) c.spec with
  | error err => exact (claim_error hask s).1
  | ok a =>
    have hrelay := relayClaim_ends S c h.sound hask
    have hdesk := h.deskClaim hfresh hcap hask
    generalize hdue : s.reg.verdict S.cfg.rules c.session (S.who c) a = due
      at hrelay hdesk
    generalize S.deskClaim c s.desk = out at hdesk ⊢
    generalize (S.relayClaim c s.relay).1 = ans at hrelay ⊢
    generalize (S.relayClaim c s.relay).2.shared = v at hrelay
    cases hrelay with
    | barred code hc =>
      cases hdesk with
      | refused => rfl
    | undone code hc hfails =>
      cases hdesk with
      | refused => rfl
    | opened p hc =>
      cases hdesk with
      | granted q rec hrec hindexed =>
        have hbounds := h.port_bounds hdue
        have hvalid := S.cfg.valid
        have hnat : ((uint32 q.toInt).toNat : ℤ) = q.toInt := by
          split at hbounds
          · exact toNat_uint32 (by omega) (by omega)
          · exact toNat_uint32 (by omega) (by omega)
        rw [hnat]

end

end L8Tunnel.Registrar
