import L8Tunnel.Registrar.Sound

/-! # A registration that runs alone -/

namespace L8Tunnel.Registrar
open Base Registry Auth NameRegistry Runs
open Relay (hasPublicPort)

variable {γ : Type}

/-- One tunnel of a registration, after its checks. -/
structure Ask where
  spec : TunnelSpec
  name : String
  access : Access
  domains : List String

namespace Ask

def NameOf (spec : TunnelSpec) (name : String) : Prop :=
  if spec.name = "" then ∃ random, name = "t-" ++ random else name = spec.name

structure Checked (cfg : Config γ) (who : Identity) (a : Ask) : Prop where
  type : cfg.checkType who.token a.spec = .ok a.access
  named : NameOf a.spec a.name
  name : cfg.checkName who.token a.spec a.name = .ok a.domains

def Unchecked (cfg : Config γ) (who : Identity) (spec : TunnelSpec) : Prop :=
  (∃ err, cfg.checkType who.token spec = .error err) ∨
    ∃ name err, NameOf spec name ∧ cfg.checkName who.token spec name = .error err

def ported (a : Ask) : Prop := hasPublicPort a.spec.type ∧ a.access.requiresToken = false
def requested (a : Ask) : ℤ := a.spec.publicPort.toNat
instance (a : Ask) : Decidable a.ported := inferInstanceAs (Decidable (_ ∧ _))

end Ask

def PortKept (r : NameRegistry) (ref : ℕ) (requested : ℤ) : Prop :=
  (r.cells ref).port ≠ 0 ∧ (requested = 0 ∨ requested = (r.cells ref).port)

/-- The port of a tunnel that opens: the one it has, or a new one. -/
inductive Ported (r : NameRegistry) (ref : ℕ) (requested : ℤ) : NameRegistry → Prop where
  | held : PortKept r ref requested → Ported r ref requested r
  | taken (p : ℤ) : ¬ PortKept r ref requested → p ≠ 0 → p ∉ r.ports → p ≠ (r.cells ref).port →
      Ported r ref requested ((r.addPort p).setPort ref p)

/-- How opening a tunnel that ends well changes the registry. -/
inductive Opens (t : ℕ) (who : Identity) (a : Ask) (r : NameRegistry) :
    ℕ → Bool → NameRegistry → Prop where
  | mk {c : NameRegistry.Claimed} {r2 r3 : NameRegistry} (tn : Tunnel) :
      r.claim a.name a.spec.type who.token.id who.agentID t who.token.policy.maxTunnels = .ok c →
      c.registry.setDomains c.res a.domains = .ok r2 →
      (if a.ported then Ported r2 c.res a.requested r3 else r3 = r2) →
      Opens t who a r c.res c.existed (r3.activate c.res tn)

/-- How opening one that fails does, with what is rolled back. -/
inductive FailsToOpen (t : ℕ) (who : Identity) (a : Ask) (r : NameRegistry) :
    NameRegistry → Prop where
  | claim {kind : RuleKind} :
      r.claim a.name a.spec.type who.token.id who.agentID t who.token.policy.maxTunnels =
        .error kind → FailsToOpen t who a r r
  | domain {c : NameRegistry.Claimed} {d : String} (now : ℤ) :
      r.claim a.name a.spec.type who.token.id who.agentID t who.token.policy.maxTunnels = .ok c →
      c.registry.setDomains c.res a.domains = .error d →
      FailsToOpen t who a r (c.registry.rollback c.res t c.existed now)
  | port {c : NameRegistry.Claimed} {r2 : NameRegistry} (now : ℤ) :
      r.claim a.name a.spec.type who.token.id who.agentID t who.token.policy.maxTunnels = .ok c →
      c.registry.setDomains c.res a.domains = .ok r2 →
      FailsToOpen t who a r (r2.rollback c.res t c.existed now)

section
variable {cfg : Config γ} {t : ℕ} {s s' : Server γ}

theorem NameRegistry.freePort_addPort {r : NameRegistry} {p : ℤ} (hp : p ∉ r.ports) :
    (r.addPort p).freePort p = r := by
  simp [addPort, freePort, hp]

theorem onRegistering_registry (s : Server γ) (u : ℕ) (f : Registering → Registering) :
    (s.onRegistering u f).registry = s.registry := rfl

theorem listen_registry (s : Server γ) (w : World) (p : ℤ) :
    (s.listen w p).1.registry = s.registry := by
  unfold Server.listen
  split <;> rfl

theorem runs_tryListen {p : ℤ} {out : Except String ℕ}
    (h : Runs (objects cfg) t (tryListen p) s out s') :
    (∃ err, out = .error err ∧ s'.registry = s.registry) ∨
      (∃ ln, out = .ok ln ∧ p ∉ s.registry.ports ∧ s'.registry = s.registry.addPort p) := by
  unfold tryListen at h
  rw [ask_bind, call_iff] at h
  obtain ⟨w, h⟩ := h
  by_cases hp : p ∈ s.registry.ports
  · rw [answer_reservePort_taken hp] at h
    obtain ⟨rfl, rfl⟩ := done_iff.mp h
    exact .inl ⟨_, rfl, rfl⟩
  · rw [answer_reservePort_free hp] at h
    simp only [if_true, ask_bind] at h
    obtain ⟨w, h⟩ := call_iff.mp h
    have hreg : ((objects cfg).answer t w (.listen p) ({ s with
        registry := s.registry.addPort p }.onRegistering t
          fun g => { g with reserving := some p })).1.registry = s.registry.addPort p :=
      listen_registry _ w p
    cases hout : ((objects cfg).answer t w (.listen p) ({ s with
        registry := s.registry.addPort p }.onRegistering t
          fun g => { g with reserving := some p })).2 with
    | ok ln =>
      rw [hout] at h
      obtain ⟨rfl, rfl⟩ := done_iff.mp h
      exact .inr ⟨ln, rfl, hp, hreg⟩
    | error err =>
      rw [hout] at h
      obtain ⟨w', h⟩ := call_iff.mp h
      obtain ⟨rfl, rfl⟩ := done_iff.mp h
      refine .inl ⟨err, rfl, ?_⟩
      show (releasePort _ p) = _
      rw [hreg]
      exact freePort_addPort hp

variable {ref : ℕ} {who : Identity} {out : Except OpenError Tunnel}

theorem runs_firstPort {out : Option (ℕ × ℤ)} : ∀ {ports : List ℤ} {s : Server γ},
    Runs (objects cfg) t (firstPort ref ports) s out s' → (out = none ∧ s'.registry = s.registry) ∨
      ∃ ln, ∃ p ∈ ports, out = some (ln, p) ∧ p ∉ s.registry.ports ∧
        s'.registry = (s.registry.addPort p).setPort ref p
  | [], s, h => by
    obtain ⟨rfl, rfl⟩ := done_iff.mp h
    exact .inl ⟨rfl, rfl⟩
  | p :: ports, s, h => by
    obtain ⟨got, s1, htry, hrest⟩ := bind_iff.mp h
    rcases runs_tryListen htry with ⟨err, rfl, hreg⟩ | ⟨ln, rfl, hp, hreg⟩
    · rcases runs_firstPort hrest with hnone | ⟨ln, q, hq, hout, hfree, hs⟩
      · exact .inl (hreg ▸ hnone)
      · rw [hreg] at hfree hs
        exact .inr ⟨ln, q, List.mem_cons_of_mem _ hq, hout, hfree, hs⟩
    · obtain ⟨w, hset⟩ := call_iff.mp hrest
      obtain ⟨rfl, rfl⟩ := done_iff.mp hset
      refine .inr ⟨ln, p, List.mem_cons_self, rfl, hp, ?_⟩
      show setPort _ ref p = _
      rw [hreg]

theorem runs_listenTunnelPort {requested previous : ℤ} {policy : Policy}
    {out : Except OpenError (ℕ × ℤ)}
    (h : Runs (objects cfg) t (listenTunnelPort cfg.rules ref requested previous policy) s out s') :
    (∃ err, out = .error err ∧ s'.registry = s.registry) ∨
      ∃ got, out = .ok got ∧ Ported s.registry ref requested s'.registry := by
  unfold listenTunnelPort at h
  rw [ask_bind] at h
  obtain ⟨w, h⟩ := call_iff.mp h
  have hheld : ((objects cfg).answer t w (.portOf ref) s) = (s, (s.registry.cells ref).port) := rfl
  rw [hheld] at h
  dsimp only at h
  split at h
  next hkept =>
    obtain ⟨w, h⟩ := call_iff.mp h
    have hreg : ((objects cfg).answer t w (.listen (s.registry.cells ref).port) s).1.registry =
        s.registry := listen_registry s w _
    cases hout : ((objects cfg).answer t w (.listen (s.registry.cells ref).port) s).2 with
    | error err =>
      simp only [hout] at h
      obtain ⟨rfl, rfl⟩ := done_iff.mp h
      exact .inl ⟨_, rfl, hreg⟩
    | ok ln =>
      simp only [hout] at h
      obtain ⟨rfl, rfl⟩ := done_iff.mp h
      refine .inr ⟨_, rfl, ?_⟩
      rw [hreg]
      exact .held hkept
  next hkept =>
  split at h
  next hreq =>
    split at h
    · obtain ⟨rfl, rfl⟩ := done_iff.mp h
      exact .inl ⟨_, rfl, rfl⟩
    obtain ⟨got, s1, htry, hrest⟩ := bind_iff.mp h
    rcases runs_tryListen htry with ⟨err, rfl, hreg⟩ | ⟨ln, rfl, hp, hreg⟩
    · obtain ⟨rfl, rfl⟩ := done_iff.mp hrest
      exact .inl ⟨_, rfl, hreg⟩
    · obtain ⟨w, hset⟩ := call_iff.mp hrest
      obtain ⟨rfl, rfl⟩ := done_iff.mp hset
      refine .inr ⟨_, rfl, ?_⟩
      show Ported s.registry ref requested (setPort _ ref requested)
      rw [hreg]
      refine .taken requested hkept hreq hp fun heq => ?_
      exact hkept ⟨heq ▸ hreq, .inr heq⟩
  next hreq =>
    split at h
    · obtain ⟨rfl, rfl⟩ := done_iff.mp h
      exact .inl ⟨_, rfl, rfl⟩
    next lo hi hrange =>
      have hlo : 1 ≤ lo := cfg.valid.1.trans (Rules.allocationRange_ok hrange).1
      obtain ⟨got, s1, hfirst, hrest⟩ := bind_iff.mp h
      rcases runs_firstPort hfirst with ⟨rfl, hreg⟩ | ⟨ln, p, hp, rfl, hfree, hreg⟩
      · obtain ⟨rfl, rfl⟩ := done_iff.mp hrest
        exact .inl ⟨_, rfl, hreg⟩
      · obtain ⟨rfl, rfl⟩ := done_iff.mp hrest
        refine .inr ⟨_, rfl, hreg ▸ ?_⟩
        have h0 : p ≠ 0 := tried_ne_zero hlo hp
        -- no port was asked for, so the reservation had none
        refine .taken p hkept h0 hfree fun heq => hkept ⟨heq ▸ h0, .inl (not_not.mp hreq)⟩

theorem runs_bindTunnel (hcfg : cfg.cluster = none) {a : Ask} {tn : Tunnel}
    (haccess : tn.access = a.access)
    (h : Runs (objects cfg) t (bindTunnel cfg who a.spec tn) s out s') :
    (∃ err, out = .error err ∧ s'.registry = s.registry) ∨
      ∃ tn', out = .ok tn' ∧ tn'.res = tn.res ∧ tn'.existed = tn.existed ∧
        if a.ported then Ported s.registry tn.res a.requested s'.registry
        else s'.registry = s.registry := by
  unfold bindTunnel at h
  rw [if_neg (by simp [hcfg]), haccess] at h
  have hiff : (hasPublicPort a.spec.type ∧ a.access.requiresToken = false) ↔ a.ported := Iff.rfl
  by_cases hp : a.ported
  · rw [if_pos (hiff.mpr hp)] at h
    simp only [if_pos hp]
    obtain ⟨got, s1, hlisten, hrest⟩ := bind_iff.mp h
    rcases runs_listenTunnelPort hlisten with ⟨err, rfl, hreg⟩ | ⟨⟨ln, port⟩, rfl, hported⟩
    · obtain ⟨rfl, rfl⟩ := done_iff.mp hrest
      exact .inl ⟨err, rfl, hreg⟩
    · obtain ⟨rfl, rfl⟩ := done_iff.mp hrest
      exact .inr ⟨_, rfl, rfl, rfl, hported⟩
  · rw [if_neg (mt hiff.mp hp)] at h
    simp only [if_neg hp]
    obtain ⟨rfl, rfl⟩ := done_iff.mp h
    exact .inr ⟨_, rfl, rfl, rfl, rfl⟩

theorem answer_claim (cfg : Config γ) (t : ℕ) (s : Server γ) (w : World)
    (name : String) (typ : TunnelType) (tokenID agentID : String) (maxTunnels : ℤ) :
    (∃ kind, s.registry.claim name typ tokenID agentID t maxTunnels = .error kind ∧
      (objects cfg).answer t w (.claim name typ tokenID agentID maxTunnels) s = (s, .error kind)) ∨
    ∃ c s1, s.registry.claim name typ tokenID agentID t maxTunnels = .ok c ∧
      (objects cfg).answer t w (.claim name typ tokenID agentID maxTunnels) s =
        (s1, .ok (c.res, c.existed)) ∧ s1.registry = c.registry := by
  cases hc : s.registry.claim name typ tokenID agentID t maxTunnels with
  | error kind => exact .inl ⟨kind, rfl, answer_claim_refused hc⟩
  | ok c =>
    refine .inr ⟨c, _, rfl, answer_claim_granted hc, ?_⟩
    rw [onRegistering_registry, closeStale_registry]

theorem runs_rollback {existed : Bool} {α : Type} {a out : α}
    (h : Runs (objects cfg) t (do ask (.rollback ref existed); pure a) s out s') :
    ∃ now, out = a ∧ s'.registry = s.registry.rollback ref t existed now := by
  rw [ask_bind] at h
  obtain ⟨w, h⟩ := call_iff.mp h
  obtain ⟨rfl, rfl⟩ := done_iff.mp h
  exact ⟨w.now, rfl, rfl⟩

theorem runs_openChecked (hcfg : cfg.cluster = none) {a : Ask}
    (h : Runs (objects cfg) t (openChecked cfg who a.spec a.access a.name a.domains) s out s') :
    (∃ err, out = .error err ∧ FailsToOpen t who a s.registry s'.registry) ∨
      ∃ tn, out = .ok tn ∧ Opens t who a s.registry tn.res tn.existed s'.registry := by
  unfold openChecked at h
  rw [ask_bind] at h
  obtain ⟨w, h⟩ := call_iff.mp h
  rcases answer_claim cfg t s w a.name a.spec.type who.token.id who.agentID
    who.token.policy.maxTunnels with ⟨kind, hc, hans⟩ | ⟨c, s1, hc, hans, hreg⟩
  · rw [hans] at h
    obtain ⟨rfl, rfl⟩ := done_iff.mp h
    exact .inl ⟨_, rfl, .claim hc⟩
  rw [hans] at h
  dsimp only [ask_bind] at h
  obtain ⟨w, h⟩ := call_iff.mp h
  cases hd : s1.registry.setDomains c.res a.domains with
  | error d =>
    rw [answer_setDomains_refused hd] at h
    obtain ⟨now, rfl, hs'⟩ := runs_rollback h
    rw [hreg] at hd hs'
    exact .inl ⟨_, rfl, hs' ▸ .domain now hc hd⟩
  | ok r2 =>
    rw [answer_setDomains_done hd] at h
    dsimp only at h
    obtain ⟨w, h⟩ := call_iff.mp h
    obtain ⟨got, s2, hbind, hrest⟩ := bind_iff.mp h
    rw [hreg] at hd
    rcases runs_bindTunnel hcfg (a := a) rfl hbind with ⟨err, rfl, hreg2⟩ | ⟨tn, rfl, hres, hex, hport⟩
    · obtain ⟨now, rfl, hs'⟩ := runs_rollback hrest
      rw [hreg2] at hs'
      exact .inl ⟨_, rfl, hs' ▸ .port now hc hd⟩
    · obtain ⟨w, hact⟩ := call_iff.mp hrest
      obtain ⟨rfl, rfl⟩ := done_iff.mp hact
      refine .inr ⟨_, rfl, ?_⟩
      rw [hres, hex]
      exact .mk tn hc hd hport

theorem runs_openTunnel (hcfg : cfg.cluster = none) {spec : TunnelSpec}
    (h : Runs (objects cfg) t (openTunnel cfg who spec) s out s') :
    (∃ err, out = .error err ∧ Ask.Unchecked cfg who spec ∧ s'.registry = s.registry) ∨
      ∃ a : Ask, a.spec = spec ∧ a.Checked cfg who ∧
        ((∃ err, out = .error err ∧ FailsToOpen t who a s.registry s'.registry) ∨
          ∃ tn, out = .ok tn ∧ Opens t who a s.registry tn.res tn.existed s'.registry) := by
  unfold openTunnel at h
  cases htype : cfg.checkType who.token spec with
  | error err =>
    rw [htype] at h
    obtain ⟨rfl, rfl⟩ := done_iff.mp h
    exact .inl ⟨err, rfl, .inl ⟨err, htype⟩, rfl⟩
  | ok access =>
    rw [htype] at h
    dsimp only at h
    -- the name is drawn or given, then checked
    obtain ⟨name, hname, h⟩ : ∃ name, Ask.NameOf spec name ∧
        Runs (objects cfg) t (openNamed cfg who spec access name) s out s' := by
      split at h
      next hempty =>
        obtain ⟨w, h⟩ := call_iff.mp h
        refine ⟨_, ?_, h⟩
        rw [Ask.NameOf, if_pos hempty]
        exact ⟨_, rfl⟩
      next hgiven =>
        refine ⟨_, ?_, h⟩
        rw [Ask.NameOf, if_neg hgiven]
    unfold openNamed at h
    cases hcheck : cfg.checkName who.token spec name with
    | error err =>
      rw [hcheck] at h
      obtain ⟨rfl, rfl⟩ := done_iff.mp h
      exact .inl ⟨err, rfl, .inr ⟨name, err, hname, hcheck⟩, rfl⟩
    | ok domains =>
      rw [hcheck] at h
      exact .inr ⟨⟨spec, name, access, domains⟩, rfl, ⟨htype, hname, hcheck⟩,
        runs_openChecked hcfg (a := ⟨spec, name, access, domains⟩) h⟩

/-- The loop over a registration's specs: it opens up to the first failure. -/
inductive Tries (cfg : Config γ) (t : ℕ) (who : Identity) :
    List TunnelSpec → NameRegistry → List (Ask × ℕ × Bool) → Option Ask → NameRegistry → Prop where
  | unchecked {spec : TunnelSpec} {rest : List TunnelSpec} {r : NameRegistry} :
      Ask.Unchecked cfg who spec → Tries cfg t who (spec :: rest) r [] none r
  | fails {a : Ask} {rest : List TunnelSpec} {r r' : NameRegistry} :
      a.Checked cfg who → FailsToOpen t who a r r' →
      Tries cfg t who (a.spec :: rest) r [] (some a) r'
  | opens {a : Ask} {rest : List TunnelSpec} {r r1 r' : NameRegistry} {ref : ℕ} {existed : Bool}
      {os : List (Ask × ℕ × Bool)} {f : Option Ask} :
      a.Checked cfg who → Opens t who a r ref existed r1 → Tries cfg t who rest r1 os f r' →
      Tries cfg t who (a.spec :: rest) r ((a, ref, existed) :: os) f r'

/-- What was opened is rolled back, one by one. -/
inductive Undone (t : ℕ) : List (ℕ × Bool) → NameRegistry → NameRegistry → Prop where
  | nil (r : NameRegistry) : Undone t [] r r
  | cons {ref : ℕ} {existed : Bool} {os : List (ℕ × Bool)} {r r' : NameRegistry} (now : ℤ) :
      Undone t os (r.rollback ref t existed now) r' → Undone t ((ref, existed) :: os) r r'

theorem runs_openAll (hcfg : cfg.cluster = none) {err : OpenError} :
    ∀ {specs : List TunnelSpec} {before all : List Tunnel} {s : Server γ},
      Runs (objects cfg) t (openAll cfg who specs before) s (all, some err) s' →
      ∃ os f opened, Tries cfg t who specs s.registry os f s'.registry ∧ all = before ++ opened ∧
        opened.map Tunnel.claimed = os.map (·.2)
  | [], before, all, s, h => by
    obtain ⟨heq, -⟩ := done_iff.mp h
    cases heq
  | spec :: specs, before, all, s, h => by
    obtain ⟨out, s1, hopen, hrest⟩ := bind_iff.mp h
    rcases runs_openTunnel hcfg hopen with ⟨e, rfl, hun, hreg⟩ | ⟨a, rfl, hchecked, hcases⟩
    · obtain ⟨heq, rfl⟩ := done_iff.mp hrest
      cases heq
      exact ⟨[], none, [], hreg ▸ .unchecked hun, by simp, rfl⟩
    rcases hcases with ⟨e, rfl, hfails⟩ | ⟨tn, rfl, hopens⟩
    · obtain ⟨heq, rfl⟩ := done_iff.mp hrest
      cases heq
      exact ⟨[], some a, [], .fails hchecked hfails, by simp, rfl⟩
    · obtain ⟨os, f, opened, htries, rfl, hmap⟩ := runs_openAll hcfg hrest
      exact ⟨(a, tn.res, tn.existed) :: os, f, tn :: opened, .opens hchecked hopens htries,
        by simp, by simp [hmap, Tunnel.claimed]⟩

theorem runs_undo : ∀ {opened : List Tunnel} {s : Server γ} {u : Unit},
    Runs (objects cfg) t (undo opened) s u s' →
    Undone t (opened.map Tunnel.claimed) s.registry s'.registry
  | [], s, u, h => by
    obtain ⟨-, rfl⟩ := done_iff.mp h
    exact .nil _
  | tn :: opened, s, u, h => by
    unfold undo at h
    rw [ask_bind] at h
    obtain ⟨w, h⟩ := call_iff.mp h
    rw [ask_bind] at h
    obtain ⟨w', h⟩ := call_iff.mp h
    refine .cons w'.now ?_
    have hundo := runs_undo h
    have hreg : ((objects cfg).answer t w (.closeTunnel tn) s).1.registry = s.registry :=
      closeListener_registry s tn
    have hroll : ((objects cfg).answer t w' (.rollback tn.res tn.existed)
        ((objects cfg).answer t w (.closeTunnel tn) s).1).1.registry =
        s.registry.rollback tn.res t tn.existed w'.now := by
      show rollback _ tn.res t tn.existed w'.now = _
      rw [hreg]
    rwa [hroll] at hundo

theorem register_failed {specs : List TunnelSpec} (hspecs : specs ≠ [])
    {reply : Option Reply} (hfailed : ∀ endpoints, reply ≠ some (.registered endpoints))
    (h : Runs (objects cfg) t (register cfg who specs) s reply s') :
    ∃ w1 w2 w3 opened err s2 s3,
      Runs (objects cfg) t (openAll cfg who specs []) ((objects cfg).answer t w1 .startRegister s).1
        (opened, some err) s2 ∧
      Runs (objects cfg) t (undo opened) s2 () s3 ∧
      s' = ((objects cfg).answer t w3 .endRegister
        (if cfg.cluster.isSome ∧ opened ≠ [] then
          ((objects cfg).answer t w2 (.releaseTunnels who.sessionID (tunnelNames opened)) s3).1
        else s3)).1 := by
  unfold register at h
  rw [if_neg hspecs, ask_bind] at h
  obtain ⟨w1, h⟩ := call_iff.mp h
  obtain ⟨⟨opened, err⟩, s2, hopen, hrest⟩ := bind_iff.mp h
  cases err with
  | none =>
    obtain ⟨w2, hadd⟩ := call_iff.mp hrest
    obtain ⟨w3, hend⟩ := call_iff.mp hadd
    obtain ⟨rfl, -⟩ := done_iff.mp hend
    exact absurd rfl (hfailed _)
  | some err =>
    obtain ⟨_, s3, hundo, hrest⟩ := bind_iff.mp hrest
    by_cases hsend : cfg.cluster.isSome ∧ opened ≠ []
    · rw [if_pos hsend, ask_bind] at hrest
      obtain ⟨w2, hrest⟩ := call_iff.mp hrest
      obtain ⟨w3, hrest⟩ := call_iff.mp hrest
      obtain ⟨-, rfl⟩ := done_iff.mp hrest
      exact ⟨w1, w2, w3, opened, err, s2, s3, hopen, hundo, by rw [if_pos hsend]⟩
    · rw [if_neg hsend] at hrest
      obtain ⟨w3, hrest⟩ := call_iff.mp hrest
      obtain ⟨-, rfl⟩ := done_iff.mp hrest
      exact ⟨w1, w3, w3, opened, err, s2, s3, hopen, hundo, by rw [if_neg hsend]⟩

theorem runs_register (hcfg : cfg.cluster = none) {specs : List TunnelSpec} (hspecs : specs ≠ [])
    {reply : Option Reply} (hfailed : ∀ endpoints, reply ≠ some (.registered endpoints))
    (h : Runs (objects cfg) t (register cfg who specs) s reply s') :
    ∃ os f r, Tries cfg t who specs s.registry os f r ∧
      Undone t (os.map (·.2)) r s'.registry := by
  obtain ⟨w1, w2, w3, opened, err, s2, s3, hopen, hundo, rfl⟩ := register_failed hspecs hfailed h
  obtain ⟨os, f, all, htries, rfl, hmap⟩ := runs_openAll hcfg hopen
  have hundone := runs_undo hundo
  rw [hmap] at hundone
  rw [if_neg (by simp [hcfg])]
  exact ⟨os, f, _, htries, hundone⟩

end
end L8Tunnel.Registrar
