import L8Tunnel.Registrar.Restore

/-! # A registration that fails in a cluster (relay/session.go, tun/relaynode/link.go) -/

namespace L8Tunnel.Registrar
open Base Auth Server Runs
open Claims (Engine ActiveFor activeFor_congr)
open Relay (hasPublicPort ClaimRequest ClaimResult Failure Message Node claimRequest
  claimSpec tunnelTypeOf lostReplies)

variable {γ : Type}

/-- The engine as a clustered relay reaches it, and the messages sent to it. -/
structure Uplink where
  engine : Engine
  sent : List Message := []

def claimAnswer : ClaimResult → Except OpenError ℤ
  | .port p => .ok p
  | .remote code msg => .error (.remote code msg)
  | .unavailable => .error .unavailable
  | .invalidType msg => .error (.other msg)
  | .unexpected k => .error (.other ("registry returned " ++ toString k ++ " tunnels"))

namespace Uplink

def send (k : Uplink) (m : Message) : Uplink := { k with sent := k.sent ++ [m] }

def cluster (n : Node) (cfg : Claims.Config) : Cluster Uplink where
  claimTunnel w c k :=
    let out := Relay.claimTunnel cfg n.relayID c [] w.claims k.engine
    ({ k with engine := out.1 }, claimAnswer out.2)
  parkTunnels sessionID names k := k.send (.park sessionID names)
  releaseTunnels sessionID names k := k.send (.release sessionID names)
  agentUp a k := k.send (.agentUp a)
  agentDown agentID sessionID reason k := k.send (.agentDown agentID sessionID reason)

end Uplink

def handleAll (n : Node) (cfg : Claims.Config) (env : Claims.Env) (ms : List Message) (e : Engine) :
    Engine :=
  ms.foldl (fun e m => (e.handle cfg env (m.request n)).1) e

def Held (tokenID : String) (e : Engine) (name : String) (port : Int32) : Prop :=
  ∃ r, e.tunnels.get name = some r ∧ r.tokenId = tokenID ∧
    (r.state = .active ∨ r.state = .grace) ∧ r.publicPort = port

instance (tokenID : String) (e : Engine) (name : String) (port : Int32) :
    Decidable (Held tokenID e name port) :=
  decidable_of_iff ((e.tunnels.get name).any fun r => r.tokenId = tokenID ∧
    (r.state = .active ∨ r.state = .grace) ∧ r.publicPort = port) (by
    unfold Held
    cases e.tunnels.get name <;> simp)

structure ClaimedNames (n : Node) (sessionID : String) (names : List String) (e e' : Engine) :
    Prop where
  mine : ∀ name ∈ names, ∃ r, e'.tunnels.get name = some r ∧ r.relayId = n.relayID ∧
    r.sessionId = sessionID
  others : ∀ name, name ∉ names → e'.tunnels.get name = e.tunnels.get name
  relay : names ≠ [] → n.relayID ≠ ""

theorem released_get {n : Node} {ecfg : Claims.Config} {sessionID : String} {names : List String}
    {e e' : Engine} (h : ClaimedNames n sessionID names e e') (hnames : names ≠ [])
    (env : Claims.Env) (name : String) :
    (handleAll n ecfg env [.release sessionID names] e').tunnels.get name =
      if name ∈ names then none else e.tunnels.get name := by
  have hn := h.relay hnames
  have hhandle : handleAll n ecfg env [.release sessionID names] e' =
      e'.release (Message.request n (.release sessionID names)) := by
    simp only [handleAll, List.foldl_cons, List.foldl_nil, Message.request, Engine.handle, hn,
      if_false]
  rw [hhandle, Engine.release_get]
  by_cases hmem : name ∈ names
  · obtain ⟨r, hget, hrelay, hsession⟩ := h.mine name hmem
    have hserved : Engine.servedBy (Message.request n (.release sessionID names)) r = true := by
      simp [Engine.servedBy, Message.request, hrelay, hsession]
    rw [if_pos ⟨hmem, by rw [hget]; exact hserved⟩, if_pos hmem]
  · rw [if_neg fun hboth => hmem hboth.1, if_neg hmem, h.others name hmem]

def replyMissed (n : Node) (cfg : Claims.Config) (c : ClaimRequest) (fs : List Failure)
    (e : Engine) : Bool :=
  match tunnelTypeOf c.type with
  | .error _ => false
  | .ok typ => (lostReplies fs).any fun env =>
    (e.handle cfg env (claimRequest n.relayID c typ)).2.error = .unspecified

structure Gained (n : Node) (sessionID : String) (names : List String) (e e' : Engine) : Prop where
  mine : ∀ name ∈ names, ActiveFor n.relayID e' name sessionID
  others : ∀ name, name ∉ names → e'.tunnels.get name = e.tunnels.get name
  relay : names ≠ [] → n.relayID ≠ ""

section
variable {n : Node} {ecfg : Claims.Config} {sessionID : String} {names : List String}
  {e e' e'' : Engine} {c : ClaimRequest} {typ : TunTunnelType} {env : Claims.Env}

theorem Gained.nil (n : Node) (sessionID : String) (e : Engine) : Gained n sessionID [] e e :=
  ⟨by simp, fun _ _ => rfl, by simp⟩

theorem Gained.append {names' : List String} (h : Gained n sessionID names e e')
    (h' : Gained n sessionID names' e' e'') : Gained n sessionID (names ++ names') e e'' := by
  refine ⟨fun m hm => ?_, fun m hm => ?_, fun hne => ?_⟩
  · by_cases hm' : m ∈ names'
    · exact h'.mine m hm'
    · rw [activeFor_congr (h'.others m hm')]
      exact h.mine m ((List.mem_append.mp hm).resolve_right hm')
  · simp only [List.mem_append, not_or] at hm
    rw [h'.others m hm.2, h.others m hm.1]
  · by_cases hnil : names = []
    · exact h'.relay (by simpa [hnil] using hne)
    · exact h.relay hnil

theorem accepted_relay
    (hacc : (e.handle ecfg env (claimRequest n.relayID c typ)).2.error = .unspecified) :
    n.relayID ≠ "" := by
  intro hn
  simp [Engine.handle, claimRequest, hn, Claims.refuse] at hacc

theorem claimed_one {recs : List TunLiveTunnel}
    (hnames : recs.map (·.name) = (claimRequest n.relayID c typ).tunnels.map (·.name)) :
    ∃ rec, recs = [rec] := by
  apply List.length_eq_one_iff.mp
  have hlen := congrArg List.length hnames
  simpa [claimRequest] using hlen

theorem accepted_opens
    (hacc : (e.handle ecfg env (claimRequest n.relayID c typ)).2.error = .unspecified) :
    Gained n c.sessionID [c.name] e (e.handle ecfg env (claimRequest n.relayID c typ)).1 := by
  have hn := accepted_relay hacc
  rw [Relay.handle_claim rfl hn] at hacc ⊢
  rcases e.claim_cases ecfg env (claimRequest n.relayID c typ) with
    ⟨r, hr, hc⟩ | ⟨recs, olds, hg, _, hnames, hc⟩
  · rw [hc] at hacc
    exact absurd hacc hr
  obtain ⟨rec, hrec⟩ := claimed_one hnames
  subst hrec
  have hname : rec.name = c.name := by simpa [claimRequest, claimSpec] using hnames
  have hrec := hg.admitted rec List.mem_cons_self
  rw [hc]
  refine ⟨?_, ?_, fun _ => hn⟩
  · intro m hm
    refine ⟨rec, ?_, hrec.active, hrec.relayId, hrec.sessionId⟩
    rw [(Engine.told_same olds _).tunnels, List.mem_singleton.mp hm, ← hname]
    simp
  · intro m hm
    rw [(Engine.told_same olds _).tunnels]
    show (Engine.setTunnel e rec).tunnels.get m = _
    rw [Engine.setTunnel_tunnels, Table.get_put_ne]
    rw [hname]
    simpa using hm

theorem accepted_port
    (hacc : (e.handle ecfg env (claimRequest n.relayID c typ)).2.error = .unspecified) :
    ∃ p, Relay.resultOf (e.handle ecfg env (claimRequest n.relayID c typ)).2 = .port p := by
  have hn := accepted_relay hacc
  rw [Relay.handle_claim rfl hn] at hacc ⊢
  rcases e.claim_cases ecfg env (claimRequest n.relayID c typ) with
    ⟨r, hr, hc⟩ | ⟨recs, olds, _, _, hnames, hc⟩
  · rw [hc] at hacc
    exact absurd hacc hr
  · obtain ⟨rec, hrec⟩ := claimed_one hnames
    rw [hc, hrec]
    exact ⟨_, rfl⟩

theorem refused_same
    (href : (e.handle ecfg env (claimRequest n.relayID c typ)).2.error ≠ .unspecified) :
    (e.handle ecfg env (claimRequest n.relayID c typ)).1 = e := by
  by_cases hn : n.relayID = ""
  · simp [Engine.handle, claimRequest, hn]
  rw [Relay.handle_claim rfl hn] at href ⊢
  rcases e.claim_cases ecfg env (claimRequest n.relayID c typ) with
    ⟨r, _, hc⟩ | ⟨recs, olds, _, _, _, hc⟩
  · rw [hc]
  · rw [hc] at href
    exact absurd rfl href

theorem accepted_fresh
    (hacc : (e.handle ecfg env (claimRequest n.relayID c typ)).2.error = .unspecified)
    (relay : String) : ¬ ActiveFor relay e c.name c.sessionID := by
  rintro ⟨r, hget, hact, _, hsess⟩
  have hspec : claimSpec c typ ∈ (claimRequest n.relayID c typ).tunnels := List.mem_singleton_self _
  exact (Relay.duplicate_refused ecfg env rfl (accepted_relay hacc) hspec ⟨r, hget, hact, hsess⟩).2
    hacc

theorem failed_asks (n : Node) (ecfg : Claims.Config) (c : ClaimRequest)
    (typ : TunTunnelType) (fs : List Failure) (e : Engine) :
    ((∀ env ∈ lostReplies fs,
        (e.handle ecfg env (claimRequest n.relayID c typ)).2.error ≠ .unspecified) ∧
      Relay.failed ecfg (claimRequest n.relayID c typ) fs e = e) ∨
    ∃ env ∈ lostReplies fs,
      (e.handle ecfg env (claimRequest n.relayID c typ)).2.error = .unspecified ∧
      Relay.failed ecfg (claimRequest n.relayID c typ) fs e =
        (e.handle ecfg env (claimRequest n.relayID c typ)).1 := by
  induction fs with
  | nil => exact .inl ⟨by simp [lostReplies], rfl⟩
  | cons f fs ih =>
    cases f with
    | requestLost => exact ih
    | replyLost env =>
      have hlost : lostReplies (.replyLost env :: fs) = env :: lostReplies fs := rfl
      rw [hlost]
      show (_ ∧ Relay.failed ecfg _ fs (e.handle ecfg env _).1 = e) ∨
        ∃ env' ∈ env :: lostReplies fs, _ ∧ Relay.failed ecfg _ fs (e.handle ecfg env _).1 = _
      by_cases hacc : (e.handle ecfg env (claimRequest n.relayID c typ)).2.error = .unspecified
      · refine .inr ⟨env, List.mem_cons_self, hacc, ?_⟩
        have hspec : claimSpec c typ ∈ (claimRequest n.relayID c typ).tunnels :=
          List.mem_singleton_self _
        exact Relay.failed_of_serves ecfg rfl (accepted_relay hacc) hspec
          (Relay.accepted_serves rfl hspec hacc) fs
      · rw [refused_same hacc]
        rcases ih with ⟨hall, heq⟩ | ⟨env', hmem, hacc', heq⟩
        · exact .inl ⟨List.forall_mem_cons.mpr ⟨hacc, hall⟩, heq⟩
        · exact .inr ⟨env', List.mem_cons_of_mem _ hmem, hacc', heq⟩

theorem claimTunnel_lossy (n : Node) (ecfg : Claims.Config) (c : ClaimRequest) (fs : List Failure)
    (last : Option Claims.Env) (e : Engine) :
    (replyMissed n ecfg c fs e = false ∧
      ∃ r, (claimAnswer r).isOk = false ∧ Relay.claimTunnel ecfg n.relayID c fs last e = (e, r)) ∨
    (replyMissed n ecfg c fs e = true ∧ (∀ relay, ¬ ActiveFor relay e c.name c.sessionID) ∧
      ∃ e' r, (claimAnswer r).isOk = false ∧ Gained n c.sessionID [c.name] e e' ∧
        Relay.claimTunnel ecfg n.relayID c fs last e = (e', r)) ∨
    (replyMissed n ecfg c fs e = false ∧ ∃ e' p, Gained n c.sessionID [c.name] e e' ∧
      Relay.claimTunnel ecfg n.relayID c fs last e = (e', .port p)) := by
  unfold replyMissed Relay.claimTunnel
  cases htyp : tunnelTypeOf c.type with
  | error msg => exact .inl ⟨rfl, .invalidType msg, rfl, rfl⟩
  | ok typ =>
  dsimp only [Relay.answered]
  rcases failed_asks n ecfg c typ fs e with ⟨hall, heq⟩ | ⟨env, hmem, hacc, heq⟩
  · have hno : ((lostReplies fs).any fun env =>
        (e.handle ecfg env (claimRequest n.relayID c typ)).2.error = .unspecified) = false := by
      simpa using hall
    rw [hno, heq]
    cases last with
    | none => exact .inl ⟨rfl, .unavailable, rfl, rfl⟩
    | some env =>
    by_cases hacc : (e.handle ecfg env (claimRequest n.relayID c typ)).2.error = .unspecified
    · obtain ⟨p, hp⟩ := accepted_port hacc
      exact .inr (.inr ⟨rfl, _, p, accepted_opens hacc, Prod.ext rfl hp⟩)
    · refine .inl ⟨rfl, _, ?_, Prod.ext (refused_same hacc) rfl⟩
      simp [Relay.resultOf, hacc, claimAnswer, Except.isOk, Except.toBool]
  · have hyes : ((lostReplies fs).any fun env =>
        (e.handle ecfg env (claimRequest n.relayID c typ)).2.error = .unspecified) = true := by
      simpa using ⟨env, hmem, hacc⟩
    have hspec : claimSpec c typ ∈ (claimRequest n.relayID c typ).tunnels := List.mem_singleton_self _
    rw [hyes, heq]
    refine .inr (.inl ⟨rfl, accepted_fresh hacc,
      (e.handle ecfg env (claimRequest n.relayID c typ)).1, ?_⟩)
    cases last with
    | none => exact ⟨.unavailable, rfl, accepted_opens hacc, rfl⟩
    | some env' =>
      obtain ⟨hsame, href⟩ := Relay.duplicate_refused ecfg env' rfl (accepted_relay hacc) hspec
        (Relay.accepted_serves rfl hspec hacc)
      refine ⟨_, ?_, accepted_opens hacc, Prod.ext hsame rfl⟩
      simp [Relay.resultOf, href, claimAnswer, Except.isOk, Except.toBool]

end

def Op.isLocal {β : Type} : Op β → Bool
  | .claimTunnel _ | .parkTunnels _ _ | .releaseTunnels _ _ | .agentUp _ | .agentDown _ _ _ => false
  | _ => true

theorem answer_cluster (cfg : Config γ) {β : Type} {op : Op β} (hop : op.isLocal) (t : ℕ) (w : World)
    (s : Server γ) : (s.answer cfg t w op).1.cluster = s.cluster := by
  have hclose : ∀ (s : Server γ) (tn : Tunnel), (s.closeListener tn).cluster = s.cluster := by
    intro s tn
    unfold closeListener
    split <;> rfl
  cases op with
  | claimTunnel | parkTunnels | releaseTunnels | agentUp | agentDown => cases hop
  | closeTunnel tn => exact hclose s tn
  | claim =>
    dsimp only [answer, claim]
    split
    · rfl
    next c _ =>
      show (closeStale _ c.stale).cluster = _
      cases c.stale with
      | some tn => exact hclose _ tn
      | none => rfl
  | listen p =>
    dsimp only [answer, Server.listen]
    split <;> rfl
  | setDomains | reserve | reservePort | track =>
    dsimp only [answer]
    split <;> rfl
  | tokenByID =>
    dsimp only [answer]
    split
    · rfl
    · split <;> rfl
  | _ => rfl

theorem undo_isLocal : ∀ opened : List Tunnel, (undo opened).All fun _ op => op.isLocal
  | [] => trivial
  | _ :: opened => ⟨rfl, fun _ => ⟨rfl, fun _ => undo_isLocal opened⟩⟩

section
variable {cfg : Config γ} {k : Cluster γ} {who : Identity} {t : ℕ} {s s' : Server γ}

theorem runs_local {α : Type} {p : Prog Op α} {a : α} (hp : p.All fun _ op => op.isLocal)
    (h : Runs (objects cfg) t p s a s') : s'.cluster = s.cluster :=
  frame cluster (fun _ _ w s hop => answer_cluster cfg hop t w s) hp h

theorem runs_call_local {α β : Type} {op : Op β} {next : β → Prog Op α} {a : α} (hop : op.isLocal)
    (h : Runs (objects cfg) t (.call op next) s a s') :
    ∃ b s1, s1.cluster = s.cluster ∧ Runs (objects cfg) t (next b) s1 a s' := by
  obtain ⟨w, h⟩ := call_iff.mp h
  exact ⟨_, _, answer_cluster cfg hop t w s, h⟩

theorem answer_claimTunnel (hcfg : cfg.cluster = some k) (w : World) (c : ClaimRequest) :
    (objects cfg).answer t w (.claimTunnel c) s =
      ({ s with cluster := (k.claimTunnel w c s.cluster).1 }, (k.claimTunnel w c s.cluster).2) := by
  dsimp only [objects, answer]
  rw [hcfg]

theorem answer_releaseTunnels (hcfg : cfg.cluster = some k) (w : World) (sessionID : String)
    (names : List String) :
    ((objects cfg).answer t w (.releaseTunnels sessionID names) s).1.cluster =
      k.releaseTunnels sessionID names s.cluster := by
  dsimp only [objects, answer]
  rw [hcfg]

theorem answer_parkTunnels (hcfg : cfg.cluster = some k) (w : World) (sessionID : String)
    (names : List String) :
    ((objects cfg).answer t w (.parkTunnels sessionID names) s).1.cluster =
      k.parkTunnels sessionID names s.cluster := by
  dsimp only [objects, answer]
  rw [hcfg]

theorem answer_agentDown (hcfg : cfg.cluster = some k) (w : World) (agentID sessionID : String)
    (reason : Relay.DisconnectReason) :
    ((objects cfg).answer t w (.agentDown agentID sessionID reason) s).1.cluster =
      k.agentDown agentID sessionID reason s.cluster := by
  dsimp only [objects, answer]
  rw [hcfg]

/-- What an answer of the cluster does, for any kind of cluster. -/
structure Answering (k : Cluster γ) (who : Identity) (P : String → γ → Bool → γ → Prop) : Prop where
  unasked : ∀ name g, P name g false g
  claim : ∀ (w : World) (c : ClaimRequest) (g : γ), c.sessionID = who.sessionID →
    P c.name g (k.claimTunnel w c g).2.isOk (k.claimTunnel w c g).1

variable {P : String → γ → Bool → γ → Prop}
variable {tn : Tunnel} {spec : TunnelSpec} {out : Except OpenError Tunnel}

theorem runs_claimInCluster (hcfg : cfg.cluster = some k) (hP : Answering k who P)
    {out : Except OpenError ℤ}
    (h : Runs (objects cfg) t (claimInCluster cfg who tn spec) s out s') :
    P tn.endpoint.name s.cluster out.isOk s'.cluster := by
  unfold claimInCluster at h
  dsimp only at h
  split at h
  · obtain ⟨rfl, rfl⟩ := done_iff.mp h
    exact hP.unasked _ _
  split at h
  · obtain ⟨rfl, rfl⟩ := done_iff.mp h
    exact hP.unasked _ _
  obtain ⟨w, h⟩ := call_iff.mp h
  obtain ⟨rfl, rfl⟩ := done_iff.mp h
  rw [answer_claimTunnel hcfg]
  exact hP.claim w (clusterClaim who tn spec _) s.cluster rfl

theorem withAddress_name (cfg : Config γ) (tn : Tunnel) (port : ℤ) :
    (withAddress cfg tn port).name = tn.endpoint.name := by
  unfold withAddress
  split <;> rfl

theorem runs_bindTunnel_cluster (hcfg : cfg.cluster = some k) (hP : Answering k who P)
    (h : Runs (objects cfg) t (bindTunnel cfg who spec tn) s out s') :
    P tn.endpoint.name s.cluster out.isOk s'.cluster ∧
      ∀ tn', out = .ok tn' → tn'.endpoint.name = tn.endpoint.name := by
  unfold bindTunnel at h
  rw [if_pos (by rw [hcfg]; rfl)] at h
  obtain ⟨got, s1, hclaim, hrest⟩ := bind_iff.mp h
  have hasked := runs_claimInCluster hcfg hP hclaim
  cases got with
  | error err =>
    obtain ⟨rfl, rfl⟩ := done_iff.mp hrest
    exact ⟨hasked, by simp⟩
  | ok port =>
    obtain ⟨rfl, rfl⟩ := done_iff.mp hrest
    refine ⟨hasked, ?_⟩
    intro tn' heq
    cases heq
    exact withAddress_name cfg tn port

theorem runs_openChecked_cluster (hcfg : cfg.cluster = some k) (hP : Answering k who P)
    {access : Access} {name : String} {domains : List String}
    (h : Runs (objects cfg) t (openChecked cfg who spec access name domains) s out s') :
    P name s.cluster out.isOk s'.cluster ∧ ∀ tn, out = .ok tn → tn.endpoint.name = name := by
  unfold openChecked at h
  rw [ask_bind] at h
  obtain ⟨b, s1, h1, h⟩ := runs_call_local rfl h
  rw [← h1]
  cases b with
  | error kind =>
    obtain ⟨rfl, rfl⟩ := done_iff.mp h
    exact ⟨hP.unasked _ _, by simp⟩
  | ok got =>
  obtain ⟨ref, existed⟩ := got
  dsimp only [ask_bind] at h
  obtain ⟨b, s2, h2, h⟩ := runs_call_local rfl h
  rw [← h2]
  cases b with
  | error d =>
    dsimp only [ask_bind] at h
    obtain ⟨_, s3, h3, h⟩ := runs_call_local rfl h
    obtain ⟨rfl, rfl⟩ := done_iff.mp h
    rw [← h3]
    exact ⟨hP.unasked _ _, by simp⟩
  | ok _ =>
  dsimp only [ask_bind] at h
  obtain ⟨id, s3, h3, h⟩ := runs_call_local rfl h
  rw [← h3]
  obtain ⟨got, s4, hbind, h⟩ := bind_iff.mp h
  obtain ⟨hasked, hname⟩ := runs_bindTunnel_cluster hcfg hP hbind
  cases got with
  | error err =>
    dsimp only [ask_bind] at h
    obtain ⟨_, s5, h5, h⟩ := runs_call_local rfl h
    obtain ⟨rfl, rfl⟩ := done_iff.mp h
    rw [h5]
    exact ⟨hasked, by simp⟩
  | ok tn =>
    dsimp only [ask_bind] at h
    obtain ⟨_, s5, h5, h⟩ := runs_call_local rfl h
    obtain ⟨rfl, rfl⟩ := done_iff.mp h
    rw [h5]
    refine ⟨hasked, ?_⟩
    intro tn' heq
    cases heq
    exact hname tn rfl

theorem runs_openTunnel_cluster (hcfg : cfg.cluster = some k) (hP : Answering k who P)
    (h : Runs (objects cfg) t (openTunnel cfg who spec) s out s') :
    ∃ name, Ask.NameOf spec name ∧ P name s.cluster out.isOk s'.cluster ∧
      ∀ tn, out = .ok tn → tn.endpoint.name = name := by
  have hnamed : ∀ {access : Access} {name : String} {s : Server γ},
      Runs (objects cfg) t (openNamed cfg who spec access name) s out s' →
      P name s.cluster out.isOk s'.cluster ∧ ∀ tn, out = .ok tn → tn.endpoint.name = name := by
    intro access name s h
    unfold openNamed at h
    split at h
    · obtain ⟨rfl, rfl⟩ := done_iff.mp h
      exact ⟨hP.unasked _ _, by simp⟩
    · exact runs_openChecked_cluster hcfg hP h
  unfold openTunnel at h
  split at h
  · obtain ⟨rfl, rfl⟩ := done_iff.mp h
    obtain ⟨name, hname⟩ : ∃ name, Ask.NameOf spec name := by
      unfold Ask.NameOf
      split
      · exact ⟨_, "", rfl⟩
      · exact ⟨_, rfl⟩
    exact ⟨name, hname, hP.unasked _ _, by simp⟩
  split at h
  next hempty =>
    rw [ask_bind] at h
    obtain ⟨random, s1, h1, h⟩ := runs_call_local rfl h
    rw [← h1]
    refine ⟨"t-" ++ random, ?_, hnamed h⟩
    rw [Ask.NameOf, if_pos hempty]
    exact ⟨random, rfl⟩
  next hgiven =>
    refine ⟨spec.name, ?_, hnamed h⟩
    rw [Ask.NameOf, if_neg hgiven]

/-- The names a registration opens, one after the other. -/
inductive Granted (P : String → γ → Bool → γ → Prop) : List String → γ → γ → Prop where
  | nil (g : γ) : Granted P [] g g
  | cons {name : String} {names : List String} {g g1 g' : γ} :
      P name g true g1 → Granted P names g1 g' → Granted P (name :: names) g g'

theorem runs_openAll_cluster (hcfg : cfg.cluster = some k) (hP : Answering k who P)
    {err : OpenError} : ∀ {specs : List TunnelSpec} {before all : List Tunnel} {s : Server γ},
      Runs (objects cfg) t (openAll cfg who specs before) s (all, some err) s' →
      ∃ pre failing rest names last g, specs = pre ++ failing :: rest ∧
        List.Forall₂ Ask.NameOf pre names ∧ Ask.NameOf failing last ∧
        tunnelNames all = tunnelNames before ++ names ∧ Granted P names s.cluster g ∧
        P last g false s'.cluster
  | [], before, all, s, h => by
    obtain ⟨heq, -⟩ := done_iff.mp h
    cases heq
  | spec :: specs, before, all, s, h => by
    obtain ⟨out, s1, hopen, hrest⟩ := bind_iff.mp h
    obtain ⟨name, hname, hasked, hendpoint⟩ := runs_openTunnel_cluster hcfg hP hopen
    cases out with
    | error err =>
      obtain ⟨heq, rfl⟩ := done_iff.mp hrest
      cases heq
      exact ⟨[], spec, specs, [], name, _, rfl, .nil, hname, by simp, .nil _, hasked⟩
    | ok tn =>
      obtain ⟨pre, failing, rest, names, last, g, hspecs, hpre, hlast, hall, hgranted, hfailed⟩ :=
        runs_openAll_cluster hcfg hP hrest
      refine ⟨spec :: pre, failing, rest, name :: names, last, g, by rw [hspecs]; rfl,
        .cons hname hpre, hlast, ?_, .cons hasked hgranted, hfailed⟩
      rw [hall]
      simp [tunnelNames, hendpoint tn rfl]

theorem runs_register_cluster (hcfg : cfg.cluster = some k) (hP : Answering k who P)
    {specs : List TunnelSpec} (hspecs : specs ≠ []) {reply : Option Reply}
    (hfailed : ∀ endpoints, reply ≠ some (.registered endpoints))
    (h : Runs (objects cfg) t (register cfg who specs) s reply s') :
    ∃ pre failing rest names last g g', specs = pre ++ failing :: rest ∧
      List.Forall₂ Ask.NameOf pre names ∧ Ask.NameOf failing last ∧
      Granted P names s.cluster g ∧ P last g false g' ∧
      s'.cluster = if names = [] then g' else k.releaseTunnels who.sessionID names g' := by
  obtain ⟨w1, w2, w3, opened, err, s2, s3, hopen, hundo, rfl⟩ := register_failed hspecs hfailed h
  obtain ⟨pre, failing, rest, names, last, g, hsplit, hpre, hlast, hall, hgranted, hasked⟩ :=
    runs_openAll_cluster hcfg hP hopen
  have hnames : tunnelNames opened = names := by simpa [tunnelNames] using hall
  have hundone := runs_local (undo_isLocal opened) hundo
  refine ⟨pre, failing, rest, names, last, g, s2.cluster, hsplit, hpre, hlast, hgranted, hasked, ?_⟩
  refine (answer_cluster cfg rfl t w3 _).trans ?_
  by_cases hempty : opened = []
  · -- nothing was opened, so nothing is released
    rw [if_neg fun hboth => hboth.2 hempty, if_pos (by rw [← hnames, hempty]; rfl), hundone]
  · have hne : names ≠ [] := by simpa [← hnames, tunnelNames] using hempty
    rw [if_pos ⟨by rw [hcfg]; rfl, hempty⟩, if_neg hne, answer_releaseTunnels hcfg, hundone, hnames]

end

section
variable {n : Node} {ecfg : Claims.Config} {cfg : Config Uplink} {who : Identity} {t : ℕ}
  {s s' : Server Uplink}

/-- The engine refuses a tunnel, or grants it. -/
inductive Asked (n : Node) (who : Identity) (name : String) (k : Uplink) : Bool → Uplink → Prop where
  | refused : Asked n who name k false k
  | granted {e : Engine} : Gained n who.sessionID [name] k.engine e →
      Asked n who name k true { k with engine := e }

theorem Asked.unchanged {name : String} {k k' : Uplink} (h : Asked n who name k false k') :
    k' = k := by
  cases h
  rfl

theorem asked_claimTunnel (n : Node) (ecfg : Claims.Config) (who : Identity) :
    Answering (Uplink.cluster n ecfg) who (Asked n who) where
  unasked _ _ := .refused
  claim w c k hc := by
    dsimp only [Uplink.cluster]
    rcases claimTunnel_lossy n ecfg c [] w.claims k.engine with
      ⟨-, r, hr, heq⟩ | ⟨hmissed, -⟩ | ⟨-, e', p, hgained, heq⟩
    · rw [heq, hr]
      exact .refused
    · unfold replyMissed at hmissed
      split at hmissed <;> cases hmissed
    · rw [heq]
      exact .granted (hc ▸ hgained)

theorem Granted.claimed {names : List String} {k k' : Uplink}
    (h : Granted (Asked n who) names k k') :
    k'.sent = k.sent ∧ Gained n who.sessionID names k.engine k'.engine := by
  induction h with
  | nil g => exact ⟨rfl, .nil _ _ _⟩
  | cons hone _ ih =>
    cases hone with
    | granted hgained => exact ⟨ih.1, hgained.append ih.2⟩

theorem Gained.claimedNames {names : List String} {e e' : Engine}
    (h : Gained n who.sessionID names e e') : ClaimedNames n who.sessionID names e e' where
  mine name hname := by
    obtain ⟨r, hget, -, hrelay, hsession⟩ := h.mine name hname
    exact ⟨r, hget, hrelay, hsession⟩
  others := h.others
  relay := h.relay

/-- In a cluster, a token loses exactly those of its names that a registration
had opened before the spec that fails. -/
theorem failed_registration_keeps_iff (hcfg : cfg.cluster = some (Uplink.cluster n ecfg))
    {specs : List TunnelSpec} (hspecs : specs ≠ []) {reply : Option Reply}
    (hfailed : ∀ endpoints, reply ≠ some (.registered endpoints))
    (h : Runs (objects cfg) t (register cfg who specs) s reply s') :
    ∃ pre failing rest names ms, specs = pre ++ failing :: rest ∧
      List.Forall₂ Ask.NameOf pre names ∧
      ClaimedNames n who.sessionID names s.cluster.engine s'.cluster.engine ∧
      s'.cluster.sent = s.cluster.sent ++ ms ∧
      ∀ env name port, Held who.token.id s.cluster.engine name port →
        (Held who.token.id (handleAll n ecfg env ms s'.cluster.engine) name port ↔
          name ∉ names) := by
  obtain ⟨pre, failing, rest, names, last, g, g', hsplit, hpre, -, hgranted, hasked, hs'⟩ :=
    runs_register_cluster hcfg (asked_claimTunnel n ecfg who) hspecs hfailed h
  obtain rfl := hasked.unchanged
  obtain ⟨hsent, hgained⟩ := hgranted.claimed
  have hclaimed := hgained.claimedNames
  by_cases hno : names = []
  · subst hno
    rw [if_pos rfl] at hs'
    rw [hs', hsent]
    refine ⟨pre, failing, rest, [], [], hsplit, hpre, hclaimed, by simp, ?_⟩
    rintro env name port ⟨r, hget, hr⟩
    exact iff_of_true ⟨r, (hclaimed.others name (by simp)).trans hget, hr⟩ (by simp)
  · rw [if_neg hno] at hs'
    rw [hs']
    refine ⟨pre, failing, rest, names, [.release who.sessionID names], hsplit, hpre, hclaimed,
      congrArg (· ++ _) hsent, ?_⟩
    rintro env name port ⟨r, hget, hr⟩
    have hengine : ((Uplink.cluster n ecfg).releaseTunnels who.sessionID names g').engine =
      g'.engine := rfl
    unfold Held
    rw [hengine, released_get hclaimed hno]
    by_cases hmem : name ∈ names
    · simp [hmem]
    · rw [if_neg hmem]
      exact iff_of_true ⟨r, hget, hr⟩ hmem

end

def demoNode : Node := { relayID := "r0" }
def demoEngineConfig : Claims.Config := { rules := demoConfig.rules, grace := 60 * Claims.second }

def demoClustered : Config Uplink :=
  { rules := demoConfig.rules, pathMatch := demoConfig.pathMatch, netip := demoConfig.netip
    crypto := demoConfig.crypto, cluster := some (Uplink.cluster demoNode demoEngineConfig)
    valid := demoConfig.valid }

def graceEngine : Engine :=
  Engine.new.after demoEngineConfig
    [({ now := 0 }, .handle (claimRequest "r0"
      { sessionID := "1", agentID := "A", tokenID := "T", name := "a", type := .tcp } .tcp)),
    ({ now := 0 }, .handle (Message.request demoNode (.park "1" ["a"])))]

def demoRelay : Server Uplink :=
  Server.new 60 true demoTokens { engine := graceEngine }

def afterClusterRefusal : Option Reply × Server Uplink :=
  Runs.eval (objects demoClustered) 2 ({ claims := some { now := 0 } } : World)
    (register demoClustered (demoWho "2") (asksAgain .tcp)) demoRelay

theorem runs_clusterRefusal :
    Runs (objects demoClustered) 2 (register demoClustered (demoWho "2") (asksAgain .tcp)) demoRelay
      afterClusterRefusal.1 afterClusterRefusal.2 :=
  of_eval (objects demoClustered) 2 _ _ demoRelay

theorem clusterRefusal_failed (endpoints : List Endpoint) :
    afterClusterRefusal.1 ≠ some (.registered endpoints) := by
  intro heq
  have hnot : afterClusterRefusal.1.any Reply.isRegistered = false := by decide +kernel
  rw [heq] at hnot
  cases hnot

theorem failed_registration_keeps_iff_reclaimed :
    Held "T" graceEngine "a" 7000 ∧
    ∃ pre failing rest names ms, asksAgain .tcp = pre ++ failing :: rest ∧
      List.Forall₂ Ask.NameOf pre names ∧
      ClaimedNames demoNode "2" names graceEngine afterClusterRefusal.2.cluster.engine ∧
      afterClusterRefusal.2.cluster.sent = [] ++ ms ∧
      ∀ env name port, Held "T" graceEngine name port →
        (Held "T" (handleAll demoNode demoEngineConfig env ms
          afterClusterRefusal.2.cluster.engine) name port ↔ name ∉ names) :=
  ⟨by decide +kernel, failed_registration_keeps_iff rfl (by simp [asksAgain]) clusterRefusal_failed
    runs_clusterRefusal⟩

/-- The token held `a` before the registration that failed, and not after it. -/
theorem refusal_releases_reclaimed :
    Held "T" graceEngine "a" 7000 ∧
    Runs (objects demoClustered) 2 (register demoClustered (demoWho "2") (asksAgain .tcp)) demoRelay
      afterClusterRefusal.1 afterClusterRefusal.2 ∧
    afterClusterRefusal.1.any Reply.isRegistered = false ∧
    ¬ Held "T" (handleAll demoNode demoEngineConfig { now := 0 }
      afterClusterRefusal.2.cluster.sent afterClusterRefusal.2.cluster.engine) "a" 7000 :=
  ⟨by decide +kernel, runs_clusterRefusal, by decide +kernel, by decide +kernel⟩

end L8Tunnel.Registrar
