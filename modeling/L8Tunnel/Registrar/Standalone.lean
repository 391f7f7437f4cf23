import L8Tunnel.Registrar.Restore

/-! # What a standalone relay answers -/

namespace L8Tunnel.Registrar
open Base Registry Auth Server
open Relay (hasPublicPort ErrorCode)
open Runs (eval eval_done eval_call eval_bind of_eval)

variable {γ : Type}

/-- What a standalone relay's sessions share. -/
structure Shared where
  registry : NameRegistry
  sockets : GoMap ℕ ℤ
  nextSocket : ℕ
  tunnels : ℕ → List Tunnel

def Server.shared (s : Server γ) : Shared :=
  { registry := s.registry, sockets := s.sockets, nextSocket := s.nextSocket
    tunnels := fun u => (s.sessions u).tunnels }

def Shared.listen (v : Shared) (port : ℤ) : Shared :=
  { v with sockets := v.sockets.set v.nextSocket port, nextSocket := v.nextSocket + 1 }

def Shared.put (v : Shared) (r : NameRegistry) : Shared := { v with registry := r }
def Shared.serve (v : Shared) (a : Ask) (p : ℤ) : Shared := if a.ported then v.listen p else v
def Shared.listening (v : Shared) (port : ℤ) : Bool := v.sockets.entries.any fun e => e.2 = port

def foundPort : Option ℤ → Except ErrorCode ℤ
  | some p => .ok p
  | none => .error .portUnavailable

def choosePort (lo hi requested previous held : ℤ) (free : ℤ → Bool) : Except ErrorCode ℤ :=
  if held ≠ 0 ∧ (requested = 0 ∨ requested = held) then .ok held
  else if requested ≠ 0 then
    if requested < lo ∨ hi < requested then .error .portNotAllowed
    else if free requested then .ok requested
    else .error .portUnavailable
  else
    let before := if lo ≤ previous ∧ previous ≤ hi then [previous] else []
    foundPort ((before ++ portsFrom lo hi).find? free)

def NameRegistry.choosePort (r : NameRegistry) (rules : Rules) (ref : ℕ)
    (requested previous : ℤ) : Except ErrorCode ℤ :=
  Registrar.choosePort rules.portMin rules.portMax requested previous (r.cells ref).port
    (· ∉ r.ports)

def Ask.previous (a : Ask) : ℤ := a.spec.previousPort.toNat

def NameRegistry.portFor (r : NameRegistry) (rules : Rules) (ref : ℕ) (a : Ask) :
    Except ErrorCode ℤ :=
  if a.ported then r.choosePort rules ref a.requested a.previous else .ok 0

def verdict (decided : Except RuleKind Decision) (free : Bool) (port : Except ErrorCode ℤ) :
    Except ErrorCode ℤ :=
  match decided with
  | .error .maxTunnels => .error .forbidden
  | .error _ => .error .nameTaken
  | .ok _ => if free then port else .error .nameTaken

namespace NameRegistry

def heldPort (r : NameRegistry) (name : String) : ℤ :=
  ((r.names.get name).map fun u => (r.cells u).port).getD 0

def domainsFree (r : NameRegistry) (name : String) (domains : List String) : Bool :=
  domains.all fun d => r.domains.get d = none ∨ r.domains.get d = r.names.get name

def verdict (r : NameRegistry) (rules : Rules) (t : ℕ) (who : Identity) (a : Ask) :
    Except ErrorCode ℤ :=
  Registrar.verdict
    (r.decision a.name who.token.id who.agentID t who.token.policy.maxTunnels)
    (r.domainsFree a.name a.domains)
    (if a.ported then
      Registrar.choosePort rules.portMin rules.portMax a.requested a.previous (r.heldPort a.name)
        (· ∉ r.ports)
    else .ok 0)

end NameRegistry

section
variable (cfg : Config γ) {t : ℕ} {w : World} {s : Server γ}

theorem onSession_tunnels (s : Server γ) (u : ℕ) (f : AgentSession → AgentSession) :
    (s.onSession u f).shared = { s.shared with
      tunnels := Function.update s.shared.tunnels u (f (s.sessions u)).tunnels } := by
  have htunnels : ∀ v, ((s.onSession u f).sessions v).tunnels =
      Function.update s.shared.tunnels u (f (s.sessions u)).tunnels v := by
    intro v
    by_cases hv : v = u
    · subst hv
      simp [onSession]
    · simp [onSession, shared, hv]
  simp only [shared, Shared.mk.injEq]
  exact ⟨rfl, rfl, rfl, funext htunnels⟩

theorem onSession_shared (s : Server γ) (u : ℕ) {f : AgentSession → AgentSession}
    (hf : ∀ a, (f a).tunnels = a.tunnels) : (s.onSession u f).shared = s.shared := by
  rw [onSession_tunnels, hf]
  have hself : Function.update s.shared.tunnels u (s.sessions u).tunnels = s.shared.tunnels :=
    Function.update_eq_self u _
  rw [hself]

theorem onRegistering_shared (s : Server γ) (u : ℕ) (f : Registering → Registering) :
    (s.onRegistering u f).shared = s.shared :=
  onSession_shared s u fun _ => rfl

variable {p maxTunnels : ℤ} {rules : Rules} {r : NameRegistry} {name tokenID agentID : String}
  {typ : TunnelType} {c : NameRegistry.Claimed}

theorem answer_reservePort (hp : p ∉ s.registry.ports) :
    ∃ s1, (objects cfg).answer t w (.reservePort p) s = (s1, true) ∧
      s1.shared = s.shared.put (s.registry.addPort p) := by
  refine ⟨_, answer_reservePort_free hp, ?_⟩
  rw [onRegistering_shared]
  rfl

theorem answer_listen (hw : w.binds = true) (hl : s.shared.listening p = false) :
    ∃ s1, (objects cfg).answer t w (.listen p) s = (s1, .ok s.nextSocket) ∧
      s1.shared = s.shared.listen p := by
  have hl' : s.listening p = false := hl
  refine ⟨(s.listen w p).1, Prod.ext rfl ?_, ?_⟩
  · show (s.listen w p).2 = _
    simp [Server.listen, hl', hw]
  · simp [Server.listen, hl', hw, shared, Shared.listen]

theorem answer_setPort (ref : ℕ) (p : ℤ) :
    ((objects cfg).answer t w (.setPort ref p) s).1.shared =
      s.shared.put (s.registry.setPort ref p) := by
  have hshared := onRegistering_shared { s with registry := s.registry.setPort ref p } t
    fun g => { g with reserving := none }
  exact hshared

theorem eval_tryListen_taken (hp : p ∈ s.registry.ports) :
    eval (objects cfg) t w (tryListen p) s =
      (.error ("port " ++ toString p ++ " is held by another tunnel"), s) := by
  unfold tryListen
  rw [ask_bind, eval_call, answer_reservePort_taken hp]
  rfl

theorem eval_tryListen_free (hw : w.binds = true) (hp : p ∉ s.registry.ports)
    (hl : s.shared.listening p = false) :
    ∃ s1, eval (objects cfg) t w (tryListen p) s = (.ok s.nextSocket, s1) ∧
      s1.shared = (s.shared.listen p).put (s.registry.addPort p) := by
  obtain ⟨s1, hreserve, hs1⟩ := answer_reservePort cfg (t := t) (w := w) hp
  have hl1 : s1.shared.listening p = false := by
    rw [hs1]
    exact hl
  obtain ⟨s2, hlisten, hs2⟩ := answer_listen cfg (t := t) hw hl1
  have hnext : s1.nextSocket = s.nextSocket := congrArg Shared.nextSocket hs1
  refine ⟨s2, ?_, ?_⟩
  · unfold tryListen
    rw [ask_bind, eval_call, hreserve]
    simp only [if_true, ask_bind]
    rw [eval_call, hlisten, hnext]
    rfl
  · rw [hs2, hs1]
    rfl

theorem eval_firstPort (hw : w.binds = true)
    (hl : ∀ p, p ∉ s.registry.ports → s.shared.listening p = false) (ref : ℕ) :
    ∀ ports : List ℤ,
    (ports.find? (· ∉ s.registry.ports) = none →
      eval (objects cfg) t w (firstPort ref ports) s = (none, s)) ∧
    ∀ p, ports.find? (· ∉ s.registry.ports) = some p →
      ∃ s1, eval (objects cfg) t w (firstPort ref ports) s = (some (s.nextSocket, p), s1) ∧
        s1.shared = (s.shared.listen p).put ((s.registry.addPort p).setPort ref p)
  | [] => ⟨fun _ => rfl, fun p h => by cases h⟩
  | q :: ports => by
    have ih := eval_firstPort hw hl ref ports
    unfold firstPort
    rw [eval_bind]
    by_cases hq : q ∈ s.registry.ports
    · rw [eval_tryListen_taken cfg hq, List.find?_cons_of_neg (by simpa using hq)]
      exact ih
    · obtain ⟨s1, htry, hs1⟩ := eval_tryListen_free cfg (t := t) hw hq (hl q hq)
      rw [htry, List.find?_cons_of_pos (by simpa using hq)]
      refine ⟨fun h => (nomatch h), fun p hp => ?_⟩
      cases hp
      refine ⟨((objects cfg).answer t w (.setPort ref q) s1).1, rfl, ?_⟩
      have hreg : s1.registry = s.registry.addPort q := congrArg Shared.registry hs1
      rw [answer_setPort, hs1, hreg]
      rfl

theorem checkRequestedPort_anyPort {policy : Policy} (h : policy.ports = "") (port : ℤ) :
    rules.checkRequestedPort port policy =
      if port < rules.portMin ∨ port > rules.portMax then
        some ⟨.portOutsideRange, "port " ++ toString port ++ " is outside the relay's range " ++
          toString rules.portMin ++ "-" ++ toString rules.portMax⟩
      else none := by
  unfold Rules.checkRequestedPort Policy.portRange
  rw [if_pos h]
  split
  · rfl
  next hin =>
    dsimp only
    rw [if_neg (by simpa using hin)]

theorem allocationRange_anyPort {policy : Policy} (h : policy.ports = "") :
    rules.allocationRange policy = .ok (rules.portMin, rules.portMax) := by
  unfold Rules.allocationRange Policy.portRange
  rw [if_pos h]
  rfl

variable {ref : ℕ} {policy : Policy}

inductive Listened (s : Server γ) (ref : ℕ) :
    Except ErrorCode ℤ → Except OpenError (ℕ × ℤ) × Server γ → Prop where
  | refused (code : ErrorCode) (msg : String) :
      Listened s ref (.error code) (.error (.remote code msg), s)
  | opened (p : ℤ) (s1 : Server γ) :
      s1.shared = (s.shared.listen p).put s1.registry →
      (s1.registry.cells ref).port = p → Listened s ref (.ok p) (.ok (s.nextSocket, p), s1)

theorem Listened.of_shared {s1 : Server γ} (h : s1.shared = (s.shared.listen p).put r)
    (hr : (r.cells ref).port = p) : Listened s ref (.ok p) (.ok (s.nextSocket, p), s1) := by
  have hreg : s1.registry = r := congrArg Shared.registry h
  subst hreg
  exact .opened p s1 h hr

theorem eval_listenTunnelPort (requested previous : ℤ) (hw : w.binds = true) (hpolicy : policy.ports = "")
    (hl : ∀ p, s.shared.listening p = true →
      p ∈ s.registry.ports ∧ p ≠ (s.registry.cells ref).port) :
    Listened s ref (s.registry.choosePort cfg.rules ref requested previous)
      (eval (objects cfg) t w (listenTunnelPort cfg.rules ref requested previous policy) s) := by
  have hfree : ∀ p, p ∉ s.registry.ports → s.shared.listening p = false := by
    intro p hp
    by_contra hlp
    exact hp (hl p (by simpa using hlp)).1
  have hset : ∀ p, (((s.registry.addPort p).setPort ref p).cells ref).port = p := by
    intro p
    simp [NameRegistry.setPort_cells]
  have hheld : (objects cfg).answer t w (.portOf ref) s = (s, (s.registry.cells ref).port) := rfl
  unfold listenTunnelPort NameRegistry.choosePort Registrar.choosePort
  rw [ask_bind, eval_call, hheld]
  dsimp only
  split
  next hkept =>
    have hlp : s.shared.listening (s.registry.cells ref).port = false := by
      by_contra hlp
      exact (hl _ (by simpa using hlp)).2 rfl
    obtain ⟨s1, hlisten, hs1⟩ := answer_listen cfg (t := t) hw hlp
    rw [ask_bind, eval_call, hlisten]
    exact .of_shared hs1 rfl
  split
  next hreq =>
    rw [checkRequestedPort_anyPort hpolicy]
    split
    next hout => exact .refused _ _
    next hin =>
      by_cases hp : requested ∈ s.registry.ports
      · simp only [hp, not_true, decide_false]
        rw [eval_bind, eval_tryListen_taken cfg hp]
        exact .refused _ _
      · simp only [hp, not_false_eq_true, decide_true, if_true]
        obtain ⟨s1, htry, hs1⟩ := eval_tryListen_free cfg (t := t) hw hp (hfree _ hp)
        have hreg : s1.registry = s.registry.addPort requested := congrArg Shared.registry hs1
        rw [eval_bind, htry]
        refine .of_shared ?_ (hset requested)
        rw [← hreg]
        exact (answer_setPort cfg (w := w) ref requested).trans (by rw [hs1]; rfl)
  next hreq =>
    rw [allocationRange_anyPort hpolicy]
    dsimp only
    obtain ⟨hnone, hsome⟩ := eval_firstPort cfg (t := t) hw hfree ref
      ((if cfg.rules.portMin ≤ previous ∧ previous ≤ cfg.rules.portMax then [previous] else []) ++
        portsFrom cfg.rules.portMin cfg.rules.portMax)
    rw [eval_bind]
    cases hfind : ((if cfg.rules.portMin ≤ previous ∧ previous ≤ cfg.rules.portMax then [previous]
        else []) ++ portsFrom cfg.rules.portMin cfg.rules.portMax).find?
          (· ∉ s.registry.ports) with
    | some p =>
      obtain ⟨s1, hfirst, hs1⟩ := hsome p hfind
      rw [hfirst]
      exact .of_shared hs1 (hset p)
    | none =>
      rw [hnone hfind]
      exact .refused _ _

inductive Bound (s : Server γ) (a : Ask) (tn : Tunnel) :
    Except ErrorCode ℤ → Except OpenError Tunnel × Server γ → Prop where
  | refused (code : ErrorCode) (msg : String) :
      Bound s a tn (.error code) (.error (.remote code msg), s)
  | opened (p : ℤ) (tn' : Tunnel) (s1 : Server γ) :
      s1.shared = (s.shared.serve a p).put s1.registry →
      tn'.res = tn.res → tn'.endpoint.name = tn.endpoint.name →
      tn'.endpoint.publicPort = uint32 p →
      tn'.listener = (if a.ported then some s.nextSocket else none) →
      (if a.ported then (s1.registry.cells tn.res).port = p else p = 0) →
      Bound s a tn (.ok p) (.ok tn', s1)

variable {who : Identity} {a : Ask} {tn : Tunnel}

theorem eval_bindTunnel (hcfg : cfg.cluster = none) (hw : w.binds = true)
    (hpolicy : who.token.policy.ports = "") (haccess : tn.access = a.access)
    (hnone : tn.listener = none) (hzero : tn.endpoint.publicPort = 0)
    (hl : ∀ p, s.shared.listening p = true →
      p ∈ s.registry.ports ∧ p ≠ (s.registry.cells tn.res).port) :
    Bound s a tn (s.registry.portFor cfg.rules tn.res a)
      (eval (objects cfg) t w (bindTunnel cfg who a.spec tn) s) := by
  have hiff : (hasPublicPort a.spec.type ∧ tn.access.requiresToken = false) ↔ a.ported := by
    rw [haccess]
    rfl
  have halone : ¬ cfg.cluster.isSome = true := by simp [hcfg]
  unfold bindTunnel NameRegistry.portFor
  rw [if_neg halone]
  by_cases hp : a.ported
  · rw [if_pos (hiff.mpr hp), if_pos hp, eval_bind]
    have hlisten := eval_listenTunnelPort cfg (t := t) a.requested a.previous hw hpolicy hl
    generalize s.registry.choosePort cfg.rules tn.res a.requested a.previous = choice at hlisten ⊢
    generalize hout : eval (objects cfg) t w (listenTunnelPort cfg.rules tn.res a.requested
      a.previous who.token.policy) s = out at hlisten
    have hout' : eval (objects cfg) t w (listenTunnelPort cfg.rules tn.res
      (a.spec.publicPort.toNat : ℤ) (a.spec.previousPort.toNat : ℤ) who.token.policy) s = out := hout
    rw [hout']
    cases hlisten with
    | refused code msg => exact .refused code msg
    | opened p s1 hs1 hport =>
      have hserve : s.shared.serve a p = s.shared.listen p := if_pos hp
      refine .opened p _ s1 (hserve ▸ hs1) rfl rfl rfl ?_ ?_
      · rw [if_pos hp]
      · rwa [if_pos hp]
  · rw [if_neg (mt hiff.mp hp), if_neg hp]
    have hserve : s.shared.serve a 0 = s.shared := if_neg hp
    refine .opened 0 _ s ?_ rfl rfl hzero ?_ ?_
    · rw [hserve]
      rfl
    · rw [if_neg hp]
      exact hnone
    · rw [if_neg hp]

def Shared.closeStale (v : Shared) (stale : Option Tunnel) : Shared :=
  match stale.bind (·.listener) with
  | some socket => { v with sockets := v.sockets.del socket }
  | none => v

theorem closeStale_shared (s : Server γ) (stale : Option Tunnel) :
    (s.closeStale stale).shared = s.shared.closeStale stale := by
  cases stale with
  | none => rfl
  | some tn =>
    cases h : tn.listener with
    | none => simp [closeStale, closeListener, Shared.closeStale, h]
    | some k =>
      simp [closeStale, closeListener, Shared.closeStale, h, shared]

theorem answer_claim_ok (hc : s.registry.claim name typ tokenID agentID t maxTunnels = .ok c) :
    ∃ s1, (objects cfg).answer t w (.claim name typ tokenID agentID maxTunnels) s =
        (s1, .ok (c.res, c.existed)) ∧
      s1.shared = (s.shared.closeStale c.stale).put c.registry := by
  refine ⟨_, answer_claim_granted hc, ?_⟩
  rw [onRegistering_shared, closeStale_shared]
  unfold Shared.closeStale
  cases c.stale.bind (·.listener) <;> rfl

/-- How one claim at a relay ends. -/
inductive Ends (s : Server γ) (t : ℕ) (who : Identity) (a : Ask) :
    Except ErrorCode ℤ → Except OpenError Tunnel × Server γ → Prop where
  | barred (code : ErrorCode) (msg : String) {kind : RuleKind} :
      s.registry.claim a.name a.spec.type who.token.id who.agentID t
        who.token.policy.maxTunnels = .error kind →
      Ends s t who a (.error code) (.error (.remote code msg), s)
  | undone (code : ErrorCode) (msg : String) {c : NameRegistry.Claimed} {s' : Server γ} :
      s.registry.claim a.name a.spec.type who.token.id who.agentID t
        who.token.policy.maxTunnels = .ok c →
      s'.shared = (s.shared.closeStale c.stale).put s'.registry →
      Ends s t who a (.error code) (.error (.remote code msg), s')
  | opened (p : ℤ) {c : NameRegistry.Claimed} {tn : Tunnel} {s' : Server γ} :
      s.registry.claim a.name a.spec.type who.token.id who.agentID t
        who.token.policy.maxTunnels = .ok c →
      s'.shared = ((s.shared.closeStale c.stale).serve a p).put s'.registry →
      tn.res = c.res → tn.endpoint.name = a.name → tn.endpoint.publicPort = uint32 p →
      tn.listener = (if a.ported then some s.nextSocket else none) →
      (s'.registry.cells c.res).tunnel = some tn →
      (if a.ported then (s'.registry.cells c.res).port = p else p = 0) →
      Ends s t who a (.ok p) (.ok tn, s')

theorem listening_iff (v : Shared) (p : ℤ) :
    v.listening p = true ↔ ∃ k, v.sockets.get k = some p := by
  unfold Shared.listening
  rw [List.any_eq_true]
  constructor
  · rintro ⟨⟨k, q⟩, hmem, hq⟩
    obtain rfl : q = p := by simpa using hq
    exact ⟨k, AList.mem_lookup_iff.mpr hmem⟩
  · rintro ⟨k, hk⟩
    exact ⟨⟨k, p⟩, AList.mem_lookup_iff.mp hk, by simp⟩

/-- The books balance, and every open socket is that of a connected tunnel. -/
structure Shared.Sound (v : Shared) : Prop where
  books : Books v.registry fun _ => none
  fresh : ∀ k p, v.sockets.get k = some p → k < v.nextSocket
  owned : ∀ k p, v.sockets.get k = some p → ∃ u tn, v.registry.Named u ∧
    (v.registry.cells u).port = p ∧ p ≠ 0 ∧ (v.registry.cells u).session.isSome ∧
    (v.registry.cells u).tunnel = some tn ∧ tn.listener = some k

theorem closeStale_get (v : Shared) (stale : Option Tunnel) (k : ℕ) :
    (v.closeStale stale).sockets.get k =
      if stale.bind (·.listener) = some k then none else v.sockets.get k := by
  unfold Shared.closeStale
  cases stale.bind (·.listener) with
  | none => simp
  | some j =>
    dsimp only
    rw [GoMap.get_del_eq_ite]
    simp only [Option.some.injEq, eq_comm]

theorem closeStale_rest (v : Shared) (stale : Option Tunnel) :
    (v.closeStale stale).nextSocket = v.nextSocket ∧
      (v.closeStale stale).tunnels = v.tunnels := by
  unfold Shared.closeStale
  cases stale.bind (·.listener) with
  | none => exact ⟨rfl, rfl⟩
  | some j => exact ⟨rfl, rfl⟩

theorem claim_stale (hc : r.claim name typ tokenID agentID t maxTunnels = .ok c) :
    (r.names.get name = none ∧ c.stale = none) ∨
      ∃ u, r.names.get name = some u ∧ c.res = u ∧
        c.stale = if (r.cells u).session.isSome then (r.cells u).tunnel else none := by
  unfold NameRegistry.claim at hc
  cases hd : r.decision name tokenID agentID t maxTunnels with
  | error kind => simp [hd] at hc
  | ok d =>
  simp only [hd] at hc
  cases hget : r.names.get name with
  | none =>
    simp only [hget] at hc
    cases hc
    exact .inl ⟨rfl, rfl⟩
  | some u =>
    simp only [hget] at hc
    cases hc
    refine .inr ⟨u, rfl, rfl, if_congr ?_ rfl rfl⟩
    unfold NameRegistry.decision at hd
    rw [hget] at hd
    simp only [Option.map_some, registryDecide, NameRegistry.holder] at hd
    split at hd
    · cases hd
    split at hd
    · cases hd
    split at hd
    · cases hd
    split at hd
    next hconn =>
      cases hd
      simp [hconn]
    next hconn =>
      cases hd
      simp [hconn]

theorem Shared.Sound.claimed {v : Shared} (h : v.Sound)
    (hc : v.registry.claim name typ tokenID agentID t maxTunnels = .ok c)
    (hp : (v.closeStale c.stale).listening p = true) :
    p ∈ v.registry.ports ∧ p ≠ (c.registry.cells c.res).port := by
  obtain ⟨k, hk⟩ := (listening_iff _ p).mp hp
  rw [closeStale_get] at hk
  split at hk
  · cases hk
  next hstale =>
  obtain ⟨u, tn, hnamed, hport, h0, hsess, htn, hln⟩ := h.owned k p hk
  have hheld : Holds v.registry (fun _ => none) (.inl u) p := ⟨hnamed, hport, h0⟩
  refine ⟨(h.books.ports.mem_iff p).mpr ⟨_, hheld⟩, ?_⟩
  rcases (claim_cell hc).2.2.2 with ⟨-, hget, -, hcport, -⟩ | ⟨-, -, -, hcport, -⟩
  · intro heq
    have hown : Holds v.registry (fun _ => none) (.inl c.res) p :=
      ⟨NameRegistry.named_of_get hget, hcport.symm.trans heq.symm, h0⟩
    have hu : u = c.res := Sum.inl.inj (h.books.ports.one _ _ p hheld hown)
    rcases claim_stale hc with ⟨hnone, -⟩ | ⟨u', hget', hres, hst⟩
    · rw [hnone] at hget
      cases hget
    · rw [← hres, ← hu, if_pos hsess, htn] at hst
      exact hstale (by rw [hst]; exact hln)
  · rw [hcport]
    exact h0

section
variable (hc : r.claim a.name a.spec.type who.token.id who.agentID t who.token.policy.maxTunnels = .ok c)
include hc

theorem claimed_port : (c.registry.cells c.res).port = r.heldPort a.name := by
  unfold NameRegistry.heldPort
  rcases (claim_cell hc).2.2.2 with ⟨-, hget, -, hport, -⟩ | ⟨-, hget, -, hport, -⟩
  · rw [hget, hport]
    rfl
  · rw [hget, hport]
    rfl

theorem claimed_free : (∃ r2, c.registry.setDomains c.res a.domains = .ok r2) ↔
    r.domainsFree a.name a.domains = true := by
  obtain ⟨-, -, -, hdomains⟩ := claim_rest hc
  rw [setDomains_ok_iff, hdomains]
  unfold NameRegistry.domainsFree
  simp only [List.all_eq_true, decide_eq_true_eq]
  refine forall₂_congr fun d _ => ?_
  rcases (claim_cell hc).2.2.2 with ⟨-, hget, -⟩ | ⟨-, hget, hnew, -⟩
  · rw [hget]
  · rw [hget, hnew, or_self, or_iff_left]
    exact fun hd => absurd (r.domain_lt d _ hd) (Nat.lt_irrefl _)

theorem claimed_portFor (rules : Rules) {r2 : NameRegistry}
    (hd : c.registry.setDomains c.res a.domains = .ok r2) :
    r2.ports = r.ports ∧ (r2.cells c.res).port = r.heldPort a.name ∧
    r2.portFor rules c.res a = if a.ported then
      Registrar.choosePort rules.portMin rules.portMax a.requested a.previous (r.heldPort a.name)
        (· ∉ r.ports)
    else .ok 0 := by
  obtain ⟨-, -, hports, -⟩ := claim_rest hc
  obtain ⟨rfl, -⟩ := setDomains_ok hd
  have hport2 : ((c.registry.replaceDomains c.res a.domains).cells c.res).port =
      r.heldPort a.name := by
    rw [NameRegistry.replaceDomains_cells, if_pos rfl]
    exact claimed_port hc
  have hports2 : (c.registry.replaceDomains c.res a.domains).ports = r.ports := hports
  refine ⟨hports2, hport2, ?_⟩
  unfold NameRegistry.portFor NameRegistry.choosePort
  rw [hport2, hports2]

end

theorem claim_decision :
    (∀ kind, r.claim name typ tokenID agentID t maxTunnels = .error kind →
      r.decision name tokenID agentID t maxTunnels = .error kind) ∧
    ∀ c, r.claim name typ tokenID agentID t maxTunnels = .ok c →
      ∃ d, r.decision name tokenID agentID t maxTunnels = .ok d := by
  unfold NameRegistry.claim
  cases r.decision name tokenID agentID t maxTunnels with
  | error kind =>
    refine ⟨fun _ h => ?_, fun _ h => (nomatch h)⟩
    cases h
    rfl
  | ok d =>
    refine ⟨fun kind h => ?_, fun _ _ => ⟨d, rfl⟩⟩
    cases hget : r.names.get name with
    | none => simp [hget] at h
    | some u => simp [hget] at h

theorem rollback_shared (s : Server γ) (ref : ℕ) (existed : Bool) :
    ((objects cfg).answer t w (.rollback ref existed) s).1.shared =
      s.shared.put (s.registry.rollback ref t existed w.now) :=
  onRegistering_shared { s with registry := s.registry.rollback ref t existed w.now } t
    fun g => { g with claims := g.claims.erase (ref, existed) }

theorem serve_put (v : Shared) (r r' : NameRegistry) (a : Ask) (p : ℤ) :
    ((v.put r).serve a p).put r' = (v.serve a p).put r' := by
  unfold Shared.serve
  split <;> rfl

theorem eval_openChecked (hcfg : cfg.cluster = none) (hw : w.binds = true)
    (hpolicy : who.token.policy.ports = "") (hs : s.shared.Sound) :
    Ends s t who a (s.registry.verdict cfg.rules t who a)
      (eval (objects cfg) t w (openChecked cfg who a.spec a.access a.name a.domains) s) := by
  unfold openChecked NameRegistry.verdict
  rw [ask_bind, eval_call]
  cases hc : s.registry.claim a.name a.spec.type who.token.id who.agentID t
      who.token.policy.maxTunnels with
  | error kind =>
    rw [claim_decision.1 kind hc, answer_claim_refused hc]
    cases kind <;> exact .barred _ _ hc
  | ok c =>
  obtain ⟨d, hdecide⟩ := claim_decision.2 c hc
  obtain ⟨s1, hans, hs1⟩ := answer_claim_ok cfg (w := w) hc
  have hreg1 : s1.registry = c.registry := congrArg Shared.registry hs1
  rw [hdecide, hans]
  dsimp only [verdict, ask_bind]
  rw [eval_call]
  cases hd : c.registry.setDomains c.res a.domains with
  | error dom =>
    have hfree : ¬ s.registry.domainsFree a.name a.domains = true := by
      rw [← claimed_free hc, hd]
      rintro ⟨r2, h⟩
      cases h
    rw [answer_setDomains_refused (hreg1 ▸ hd), if_neg hfree]
    refine .undone _ _ hc ?_
    have hroll := rollback_shared cfg (t := t) (w := w) s1 c.res c.existed
    exact hroll.trans (by rw [hs1]; rfl)
  | ok r2 =>
    rw [answer_setDomains_done (hreg1 ▸ hd), if_pos ((claimed_free hc).mp ⟨r2, hd⟩)]
    dsimp only
    rw [eval_call, eval_bind]
    have hs2 : ({ s1 with registry := r2 } : Server γ).shared =
        (s.shared.closeStale c.stale).put r2 := congrArg (Shared.put · r2) hs1
    obtain ⟨hports, hport, hfor⟩ := claimed_portFor hc cfg.rules hd
    rw [← hfor]
    generalize htn : ({ res := c.res, existed := c.existed, access := a.access
                        endpoint := { tunnelId := w.randomID 8, name := a.name, type := a.spec.type
                                      hostname := a.name ++ "." ++ cfg.rules.baseDomain
                                      domains := a.domains } } : Tunnel) = tn
    have hres : tn.res = c.res := by rw [← htn]
    have hname : tn.endpoint.name = a.name := by rw [← htn]
    have hnone : tn.listener = none := by rw [← htn]
    have hzero : tn.endpoint.publicPort = 0 := by rw [← htn]
    have hl : ∀ p, ({ s1 with registry := r2 } : Server γ).shared.listening p = true →
        p ∈ r2.ports ∧ p ≠ (r2.cells tn.res).port := by
      intro p hp
      rw [hs2] at hp
      rw [hports, hres, hport, ← claimed_port hc]
      exact hs.claimed hc hp
    have hbound := eval_bindTunnel cfg (t := t) (a := a) hcfg hw hpolicy
      (by rw [← htn]) hnone hzero hl
    have hnext : s1.nextSocket = s.nextSocket :=
      (congrArg Shared.nextSocket hs1).trans (closeStale_rest _ _).1
    have hanswer : (objects cfg).answer t w (.randomID 8) ({ s1 with registry := r2 } : Server γ) =
        ({ s1 with registry := r2 }, w.randomID 8) := rfl
    rw [hanswer]
    dsimp only
    rw [htn]
    rw [hres] at hbound
    generalize r2.portFor cfg.rules c.res a = choice at hbound ⊢
    generalize eval (objects cfg) t w (bindTunnel cfg who a.spec tn)
      { s1 with registry := r2 } = out at hbound ⊢
    cases hbound with
    | refused code msg =>
      refine .undone _ _ hc ?_
      have hroll := rollback_shared cfg (t := t) (w := w)
        ({ s1 with registry := r2 } : Server γ) c.res c.existed
      exact hroll.trans (by rw [hs2]; rfl)
    | opened p tn' s3 hs3 hres' hname' hpub hln hport =>
      rw [hs2] at hs3
      rw [hres] at hport
      refine .opened p hc ?_ (hres'.trans hres) (hname'.trans hname) hpub (hln.trans ?_) ?_ ?_
      · have hput := congrArg (Shared.put · (s3.registry.activate c.res tn')) hs3
        exact hput.trans (serve_put _ r2 _ a p)
      · rw [hnext]
      · dsimp only [objects, answer]
        simp [NameRegistry.activate]
      · dsimp only [objects, answer]
        simpa [NameRegistry.activate] using hport

def askOf (cfg : Config γ) (w : World) (who : Identity) (spec : TunnelSpec) :
    Except OpenError Ask :=
  match cfg.checkType who.token spec with
  | .error err => .error err
  | .ok access =>
    let name := if spec.name = "" then "t-" ++ w.randomID 4 else spec.name
    match cfg.checkName who.token spec name with
    | .error err => .error err
    | .ok domains => .ok ⟨spec, name, access, domains⟩

theorem eval_openTunnel (cfg : Config γ) (t : ℕ) (w : World) (who : Identity) (spec : TunnelSpec)
    (s : Server γ) :
    (∀ err, askOf cfg w who spec = .error err →
      eval (objects cfg) t w (openTunnel cfg who spec) s = (.error err, s)) ∧
    ∀ a, askOf cfg w who spec = .ok a →
      a.spec = spec ∧ eval (objects cfg) t w (openTunnel cfg who spec) s =
        eval (objects cfg) t w (openChecked cfg who a.spec a.access a.name a.domains) s := by
  unfold askOf openTunnel
  cases cfg.checkType who.token spec with
  | error err =>
    refine ⟨fun err h => ?_, fun a h => (nomatch h)⟩
    cases h
    rfl
  | ok access =>
  have hname : ∀ f : String → Prog Op (Except OpenError Tunnel),
      eval (objects cfg) t w (do
        let random ← if spec.name = "" then ask (.randomID 4) else pure ""
        f (if spec.name = "" then "t-" ++ random else spec.name)) s =
      eval (objects cfg) t w
        (f (if spec.name = "" then "t-" ++ w.randomID 4 else spec.name)) s := by
    intro f
    by_cases h : spec.name = ""
    · simp only [if_pos h]
      rfl
    · simp only [if_neg h]
      rfl
  dsimp only
  rw [hname (openNamed cfg who spec access)]
  unfold openNamed
  cases cfg.checkName who.token spec
      (if spec.name = "" then "t-" ++ w.randomID 4 else spec.name) with
  | error err =>
    refine ⟨fun err h => ?_, fun a h => (nomatch h)⟩
    cases h
    rfl
  | ok domains =>
    refine ⟨fun err h => (nomatch h), fun a h => ?_⟩
    cases h
    exact ⟨rfl, rfl⟩

def replyOf : Except OpenError Tunnel → Option Reply
  | .error err => errorReply err
  | .ok tn => some (.registered [tn.endpoint])

def openedOf : Except OpenError Tunnel → List Tunnel × Option OpenError
  | .error err => ([], some err)
  | .ok tn => ([tn], none)

def Shared.keep (v : Shared) (t : ℕ) : Except OpenError Tunnel → Shared
  | .error _ => v
  | .ok tn => { v with tunnels := Function.update v.tunnels t (v.tunnels t ++ [tn]) }

theorem addTunnels_shared (s : Server γ) (tn : Tunnel) :
    ((objects cfg).answer t w (.addTunnels [tn]) s).1.shared = s.shared.keep t (.ok tn) :=
  onSession_tunnels s t fun a => { a with tunnels := a.tunnels ++ [tn] }

theorem eval_register (who : Identity) (spec : TunnelSpec) :
    ∃ s0 : Server γ, s0.shared = s.shared ∧
      (eval (objects cfg) t w (register cfg who [spec]) s).1 =
        replyOf (eval (objects cfg) t w (openTunnel cfg who spec) s0).1 ∧
      (eval (objects cfg) t w (register cfg who [spec]) s).2.shared =
        (eval (objects cfg) t w (openTunnel cfg who spec) s0).2.shared.keep t
          (eval (objects cfg) t w (openTunnel cfg who spec) s0).1 := by
  refine ⟨((objects cfg).answer t w .startRegister s).1, onSession_shared s t fun _ => rfl, ?_⟩
  generalize hs0 : ((objects cfg).answer t w .startRegister s).1 = s0
  unfold register
  rw [if_neg (by simp), ask_bind, eval_call, hs0, eval_bind]
  have hall : eval (objects cfg) t w (openAll cfg who [spec] []) s0 =
      eval (objects cfg) t w (openTunnel cfg who spec >>= fun out => pure (openedOf out)) s0 := by
    unfold openAll
    rw [eval_bind, eval_bind]
    cases (eval (objects cfg) t w (openTunnel cfg who spec) s0).1 <;> rfl
  rw [hall, eval_bind]
  generalize eval (objects cfg) t w (openTunnel cfg who spec) s0 = out
  obtain ⟨out, s1⟩ := out
  cases out with
  | error err =>
    have hskip : ¬ (cfg.cluster.isSome = true ∧ ([] : List Tunnel) ≠ []) := by simp
    dsimp only [eval_done, Prog.pure_eq, openedOf, undo, Prog.done_bind]
    rw [if_neg hskip]
    exact ⟨rfl, onSession_shared s1 t fun _ => rfl⟩
  | ok tn =>
    dsimp only [eval_done, Prog.pure_eq, openedOf, ask_bind]
    rw [eval_call, eval_call]
    have hend := onSession_shared ((objects cfg).answer t w (.addTunnels [tn]) s1).1 t
      (f := fun a => { a with registering := none }) fun _ => rfl
    exact ⟨rfl, hend.trans (addTunnels_shared cfg s1 tn)⟩

def Shared.parkOne (t : ℕ) (now : ℤ) (v : Shared) (tn : Tunnel) : Shared :=
  (v.closeStale (some tn)).put (v.registry.park tn.res t now)

theorem eval_parkAll (ts : List Tunnel) (s : Server γ) :
    (eval (objects cfg) t w (parkAll ts) s).2.shared =
      ts.foldl (Shared.parkOne t w.now) s.shared := by
  induction ts generalizing s with
  | nil => rfl
  | cons tn ts ih =>
    unfold parkAll
    rw [ask_bind, eval_call, ask_bind, eval_call, ih, List.foldl_cons]
    congr 1
    have hclose : ((objects cfg).answer t w (.closeTunnel tn) s).1.shared =
        s.shared.closeStale (some tn) := closeStale_shared s (some tn)
    have hreg : ((objects cfg).answer t w (.closeTunnel tn) s).1.registry = s.registry :=
      closeListener_registry s tn
    generalize ((objects cfg).answer t w (.closeTunnel tn) s).1 = s1 at hclose hreg ⊢
    have hpark : ((objects cfg).answer t w (.park tn.res) s1).1.shared =
        s1.shared.put (s1.registry.park tn.res t w.now) := rfl
    rw [hpark, hclose, hreg]
    rfl

theorem eval_closeTunnels (hcfg : cfg.cluster = none) (sessionID : String) (s : Server γ) :
    (eval (objects cfg) t w (closeTunnels cfg sessionID) s).2.shared =
      (s.shared.tunnels t).foldl (Shared.parkOne t w.now)
        { s.shared with tunnels := Function.update s.shared.tunnels t [] } := by
  have htake : ((objects cfg).answer t w .takeTunnels s).1.shared =
      { s.shared with tunnels := Function.update s.shared.tunnels t [] } :=
    onSession_tunnels s t fun a => { a with tunnels := [] }
  unfold closeTunnels
  rw [ask_bind, eval_call, eval_bind]
  have hskip : ¬ (cfg.cluster.isSome = true ∧
      ((objects cfg).answer t w .takeTunnels s).2 ≠ []) := by simp [hcfg]
  rw [if_neg hskip]
  refine (eval_parkAll cfg _ _).trans ?_
  rw [htake]
  rfl

def expireAll : List ℕ → Prog Op Unit
  | [] => pure ()
  | ref :: refs => do
    ask (.expire ref)
    expireAll refs

theorem eval_expireAll (refs : List ℕ) (s : Server γ) :
    (eval (objects cfg) t w (expireAll refs) s).2.shared =
      s.shared.put (refs.foldl NameRegistry.expire s.registry) := by
  induction refs generalizing s with
  | nil => rfl
  | cons ref refs ih =>
    unfold expireAll
    rw [ask_bind, eval_call, ih]
    rfl

end
end L8Tunnel.Registrar
