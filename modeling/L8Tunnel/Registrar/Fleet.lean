import L8Tunnel.Registrar.Abandon

/-! # Revoking a token in a cluster (tun/relaynode/ctl.go, relay/admin.go) -/

namespace L8Tunnel.Registrar
open Base NameRegistry
open Claims (Engine Same)
open Relay (Message Node DisconnectReason)

variable {γ : Type}

def outbox : Cluster (List Message) where
  claimTunnel _ _ sent := (sent, .error .unavailable)
  parkTunnels sessionID names sent := sent ++ [.park sessionID names]
  releaseTunnels sessionID names sent := sent ++ [.release sessionID names]
  agentUp a sent := sent ++ [.agentUp a]
  agentDown agentID sessionID reason sent := sent ++ [.agentDown agentID sessionID reason]

def AgentSession.identity (a : AgentSession) : Identity :=
  ⟨a.id, a.token.getD { id := "" }, a.agentID⟩

inductive Ended (cfg : Config γ) : List ℕ → Server γ → Server γ → Prop where
  | nil (s : Server γ) : Ended cfg [] s s
  | cons {u : ℕ} {us : List ℕ} {s s1 s' : Server γ} :
      Runs (objects cfg) u (endSession cfg (s.sessions u).identity) s () s1 → Ended cfg us s1 s' →
      Ended cfg (u :: us) s s'

def Revoked (cfg : Config γ) (T : String) (s s' : Server γ) : Prop :=
  ∃ ctl closed s1 us, Runs (objects cfg) ctl (Caller.prog cfg (.revokeToken T)) s closed s1 ∧
    us.Perm (closed.filter (· ∈ s.tracked)) ∧ Ended cfg us s1 s'

/-- A relay of the fleet that has revoked the token, with what it sent to the engine. -/
structure Member (T : String) where
  node : Node
  cfg : Config (List Message)
  before : Server (List Message)
  after : Server (List Message)
  sent : List Message
  clustered : cfg.cluster = some outbox
  revoked : Revoked cfg T before after
  sends : after.cluster = before.cluster ++ sent

def arrived (cfg : Claims.Config) (ds : List (Claims.Env × Node × Message)) (e : Engine) : Engine :=
  ds.foldl (fun e d => (e.handle cfg d.1 (d.2.2.request d.2.1)).1) e

def Server.Finds (s : Server γ) (T : String) (u : ℕ) : Prop :=
  (s.sessions u).token.any (fun t => t.id = T) = true ∨
    ∃ ref, s.registry.Named ref ∧ (s.registry.cells ref).tokenID = T ∧
      (s.registry.cells ref).session = some u

/-- A session of the relay lists the name of the record, is found for the token and
is not being closed for another reason. -/
def Releases (n : Node) (T : String) (s : Server γ) (name : String) (r : TunLiveTunnel) : Prop :=
  n.relayID ≠ "" ∧ r.relayId = n.relayID ∧ ∃ u ∈ s.tracked, s.Finds T u ∧
    ((s.sessions u).reason = .agentClosed ∨ (s.sessions u).reason = .tokenRevoked) ∧
    name ∈ tunnelNames (s.sessions u).tunnels ∧
    ((s.sessions u).id = "" ∨ r.sessionId = (s.sessions u).id)

theorem deleteLocked_keeps (r : NameRegistry) (ref u : ℕ) :
    ((r.deleteLocked ref).cells u).tokenID = (r.cells u).tokenID ∧
      ((r.deleteLocked ref).cells u).session = (r.cells u).session := by
  rw [deleteLocked_cells]
  split <;> exact ⟨rfl, rfl⟩

variable {T name : String} {n : Node} {r : TunLiveTunnel}

theorem mem_releaseOnes {u : ℕ} (names : List String) (acc : NameRegistry × List ℕ) :
    u ∈ (names.foldl (releaseOne T) acc).2 ↔ u ∈ acc.2 ∨
      ∃ n ∈ names, ∃ ref, acc.1.names.get n = some ref ∧ (acc.1.cells ref).tokenID = T ∧
        (acc.1.cells ref).session = some u := by
  induction names generalizing acc with
  | nil => simp
  | cons name names ih =>
    rw [List.foldl_cons, ih]
    unfold releaseOne
    cases hget : acc.1.names.get name with
    | none => simp [hget]
    | some ref =>
      dsimp only
      by_cases htok : (acc.1.cells ref).tokenID = T
      · rw [if_pos htok]
        constructor
        · rintro (h | ⟨n, hn, ref', hget', htok', hsess'⟩)
          · rcases List.mem_append.mp h with h | h
            · exact .inl h
            · exact .inr ⟨name, List.mem_cons_self, ref, hget, htok, Option.mem_toList.mp h⟩
          · rw [deleteLocked_names] at hget'
            rw [(deleteLocked_keeps _ _ _).1] at htok'
            rw [(deleteLocked_keeps _ _ _).2] at hsess'
            split at hget'
            · cases hget'
            · exact .inr ⟨n, List.mem_cons_of_mem _ hn, ref', hget', htok', hsess'⟩
        · rintro (h | ⟨n, hn, ref', hget', htok', hsess'⟩)
          · exact .inl (List.mem_append_left _ h)
          by_cases href : ref' = ref
          · subst href
            exact .inl (List.mem_append_right _ (Option.mem_toList.mpr hsess'))
          · refine .inr ⟨n, ?_, ref', ?_, ?_, ?_⟩
            · rcases List.mem_cons.mp hn with rfl | hn
              · exact absurd (Option.some.inj (hget'.symm.trans hget)) href
              · exact hn
            · rw [deleteLocked_names, if_neg]
              · exact hget'
              · exact fun h => href (Option.some.inj (hget'.symm.trans h))
            · exact (deleteLocked_keeps _ _ _).1.trans htok'
            · exact (deleteLocked_keeps _ _ _).2.trans hsess'
      · rw [if_neg htok]
        simp [hget, htok]

theorem mem_releaseToken {r : NameRegistry} {order : RangeOrder} {u : ℕ} :
    u ∈ (r.releaseToken T order).2 ↔ ∃ ref, r.Named ref ∧ (r.cells ref).tokenID = T ∧
      (r.cells ref).session = some u := by
  unfold releaseToken
  rw [mem_releaseOnes]
  constructor
  · rintro (h | ⟨n, _, ref, hget, hrest⟩)
    · cases h
    · exact ⟨ref, named_of_get hget, hrest⟩
  · rintro ⟨ref, hnamed, hrest⟩
    exact .inr ⟨_, (r.names.mem_range order _).mpr ⟨ref, hnamed⟩, ref, hnamed, hrest⟩

section
variable {cfg : Config γ} {t : ℕ} {s s' : Server γ}

def AgentSession.close (a : AgentSession) : AgentSession :=
  { a with reason := if a.reason = .agentClosed then .tokenRevoked else a.reason }

theorem close_close (a : AgentSession) : a.close.close = a.close := by
  unfold AgentSession.close
  split <;> simp

theorem runs_closeAll {us : List ℕ} {x : Unit} (h : Runs (objects cfg) t (closeAll us) s x s') :
    s' = { s with sessions := fun u => if u ∈ us then (s.sessions u).close else s.sessions u } := by
  induction us generalizing s with
  | nil =>
    obtain ⟨-, rfl⟩ := Runs.done_iff.mp h
    simp
  | cons v us ih =>
    obtain ⟨w, h⟩ := Runs.call_iff.mp h
    rw [ih h]
    have hone : ((objects cfg).answer t w (.closeSession v .tokenRevoked) s).1 =
        { s with sessions := Function.update s.sessions v (s.sessions v).close } := rfl
    rw [hone]
    congr 1
    funext u
    by_cases hu : u = v
    · subst hu
      by_cases hmem : u ∈ us <;> simp [hmem, close_close]
    · simp [hu]

def Op.keepsOthers {β : Type} : Op β → Bool
  | .closeSession _ _ => false
  | _ => true

theorem runs_revokeToken {closed : List ℕ}
    (h : Runs (objects cfg) t (Caller.prog cfg (.revokeToken T)) s closed s') :
    closed.Nodup ∧ (∀ u ∈ s.tracked, u ∈ closed ↔ s.Finds T u) ∧ s'.cluster = s.cluster ∧
      ∀ u, s'.sessions u = if u ∈ closed then (s.sessions u).close else s.sessions u := by
  change Runs (objects cfg) t (.call (.deleteToken T) fun _ => .call (.releaseToken T) fun holders =>
    .call (.sessionsOf T) fun scanned => closeAll (holders ++ scanned).dedup >>= fun _ =>
      .done (holders ++ scanned).dedup) s closed s' at h
  obtain ⟨w0, h⟩ := Runs.call_iff.mp h
  obtain ⟨w1, h⟩ := Runs.call_iff.mp h
  obtain ⟨w2, h⟩ := Runs.call_iff.mp h
  obtain ⟨_, s1, hclose, h⟩ := Runs.bind_iff.mp h
  obtain ⟨rfl, rfl⟩ := Runs.done_iff.mp h
  rw [runs_closeAll hclose]
  refine ⟨List.nodup_dedup _, fun u hu => ?_, rfl, fun u => rfl⟩
  rw [List.mem_dedup, List.mem_append]
  unfold Server.Finds
  rw [or_comm]
  refine or_congr ?_ mem_releaseToken
  show u ∈ (w2.order.visit s.tracked).filter _ ↔ _
  rw [List.mem_filter, (w2.order.perm s.tracked).mem_iff]
  exact and_iff_right hu

theorem answer_sessions_other (cfg : Config γ) {β : Type} {op : Op β} (hop : op.keepsOthers) (t : ℕ)
    (w : World) (s : Server γ) {u : ℕ} (hu : u ≠ t) :
    (s.answer cfg t w op).1.sessions u = s.sessions u := by
  cases op with
  | closeSession => cases hop
  | claim =>
    dsimp only [Server.answer, Server.claim]
    split
    · rfl
    · simp [Server.onRegistering, Server.onSession, hu, closeStale_sessions]
  | closeTunnel tn => exact congrFun (closeListener_sessions s tn) u
  | track | reservePort =>
    dsimp only [Server.answer]
    split
    · rfl
    · simp [Server.onRegistering, Server.onSession, hu]
  | tokenByID =>
    dsimp only [Server.answer]
    split
    · rfl
    split
    · rfl
    · simp [Server.onSession, hu]
  | releasePort | setPort | rollback | setToken | startRegister | endRegister | addTunnels
  | takeTunnels =>
    dsimp only [Server.answer]
    simp [Server.onRegistering, Server.onSession, hu]
  | setDomains | reserve | claimTunnel | parkTunnels | releaseTunnels | agentUp | agentDown =>
    dsimp only [Server.answer]
    split <;> rfl
  | listen =>
    dsimp only [Server.answer, Server.listen]
    split <;> rfl
  | _ => rfl

theorem endSession_keepsOthers (cfg : Config γ) (who : Identity) :
    (endSession cfg who).All fun _ op => op.keepsOthers := by
  have hclose : (closeTunnels cfg who.sessionID).All fun _ op => op.keepsOthers := by
    refine (closeTunnels_ends cfg who.sessionID).mono fun _ op hop => ?_
    cases op with
    | closeSession => cases hop
    | _ => rfl
  unfold endSession
  split
  · exact ⟨rfl, fun _ => ⟨rfl, fun _ => hclose⟩⟩
  · exact hclose

theorem ended_posts {k : Cluster γ} (hcfg : cfg.cluster = some k) {us : List ℕ} (hus : us.Nodup)
    (h : Ended cfg us s s') :
    s'.cluster = (us.flatMap fun u => endMessages (s.sessions u).identity (s.listed u)).foldl k.post
      s.cluster := by
  induction h with
  | nil s => rfl
  | @cons u us s s1 s' hrun _ ih =>
    obtain ⟨hu, hus⟩ := List.nodup_cons.mp hus
    have hothers : ∀ v ∈ us, s1.sessions v = s.sessions v := by
      intro v hv
      have hne : v ≠ u := fun heq => hu (heq ▸ hv)
      exact Runs.frame (fun s => s.sessions v)
        (fun _ _ w s hop => answer_sessions_other cfg hop u w s hne)
        (endSession_keepsOthers cfg _) hrun
    have hrest : (us.flatMap fun v => endMessages (s1.sessions v).identity (s1.listed v)) =
        us.flatMap fun v => endMessages (s.sessions v).identity (s.listed v) := by
      refine List.flatMap_congr fun v hv => ?_
      unfold Server.listed
      rw [hothers v hv]
    rw [ih hus, hrest, runs_endSession hcfg hrun, List.flatMap_cons, List.foldl_append]

end

theorem outbox_post {ms : List Message} (hms : ∀ m ∈ ms, ∃ id, OfSession id m)
    (sent : List Message) : ms.foldl outbox.post sent = sent ++ ms := by
  induction ms generalizing sent with
  | nil => simp
  | cons m ms ih =>
    obtain ⟨⟨id, hm⟩, hms⟩ := List.forall_mem_cons.mp hms
    have hone : outbox.post sent m = sent ++ [m] := by
      cases m with
      | park | release | agentDown | agentUp => rfl
      | announce | heartbeat => cases hm
    rw [List.foldl_cons, hone, ih hms, List.append_assoc, List.singleton_append]

def Frees (n : Node) (name : String) (r : TunLiveTunnel) : Message → Prop
  | .release id names =>
    n.relayID ≠ "" ∧ r.relayId = n.relayID ∧ name ∈ names ∧ (id = "" ∨ r.sessionId = id)
  | _ => False

theorem Frees.same {r' : TunLiveTunnel} (h : Same r r') (m : Message) :
    Frees n name r' m ↔ Frees n name r m := by
  cases m with
  | release id names => simp only [Frees, h.relayId, h.sessionId]
  | _ => exact Iff.rfl

section
variable {ecfg : Claims.Config} {sessionID : String}
variable {m : Message} {e : Engine}

theorem handled_record (ecfg : Claims.Config) (hm : OfSession sessionID m) (env : Claims.Env)
    (hget : e.tunnels.get name = some r) :
    (Frees n name r m ∧ (e.handle ecfg env (m.request n)).1.tunnels.get name = none) ∨
      (¬ Frees n name r m ∧
        ∃ r', (e.handle ecfg env (m.request n)).1.tunnels.get name = some r' ∧ Same r r') := by
  by_cases hn : n.relayID = ""
  · have hreq : (m.request n).relayId = "" := (Message.request_relayId n m).trans hn
    refine .inr ⟨?_, r, by simp [Engine.handle, hreq, hget], .refl r⟩
    cases m with
    | release => exact fun h => h.1 hn
    | _ => exact fun h => h
  cases m with
  | park id names =>
    refine .inr ⟨fun h => h, ?_⟩
    rw [Message.handle_park hn, Engine.park_get, hget]
    split
    · refine ⟨_, rfl, ?_⟩
      dsimp only
      split <;> rfl
    · exact ⟨r, rfl, .refl r⟩
  | release id names =>
    have hfrees : Frees n name r (.release id names) ↔
        name ∈ names ∧ (e.tunnels.get name).any
          (Engine.servedBy ((Message.release id names).request n)) = true := by
      rw [hget, Option.any_some, Claims.servedBy_iff]
      simp only [Frees, Message.request]
      tauto
    rw [Message.handle_release hn, Engine.release_get, hfrees]
    by_cases hserved : name ∈ names ∧ (e.tunnels.get name).any
        (Engine.servedBy ((Message.release id names).request n)) = true
    · exact .inl ⟨hserved, if_pos hserved⟩
    · exact .inr ⟨hserved, r, (if_neg hserved).trans hget, .refl r⟩
  | agentDown agentID id reason =>
    refine .inr ⟨fun h => h, r, ?_, .refl r⟩
    rw [Message.handle_agentDown hn, (Engine.agentDown_same e ecfg env _).tunnels, hget]
  | announce | heartbeat | agentUp => cases hm

theorem handled_none (hm : OfSession sessionID m) (env : Claims.Env)
    (hget : e.tunnels.get name = none) :
    (e.handle ecfg env (m.request n)).1.tunnels.get name = none := by
  by_cases hn : n.relayID = ""
  · have hreq : (m.request n).relayId = "" := (Message.request_relayId n m).trans hn
    simp [Engine.handle, hreq, hget]
  cases m with
  | park id names =>
    rw [Message.handle_park hn, Engine.park_get, hget]
    split <;> rfl
  | release id names =>
    rw [Message.handle_release hn, Engine.release_get, hget]
    split <;> rfl
  | agentDown agentID id reason =>
    rw [Message.handle_agentDown hn, (Engine.agentDown_same e ecfg env _).tunnels, hget]
  | announce | heartbeat | agentUp => cases hm

end

theorem arrived_record {ecfg : Claims.Config} {ds : List (Claims.Env × Node × Message)}
    (hds : ∀ d ∈ ds, ∃ id, OfSession id d.2.2) (e : Engine) :
    (∀ r', (arrived ecfg ds e).tunnels.get name = some r' →
        ∃ r, e.tunnels.get name = some r ∧ Same r r' ∧ ∀ d ∈ ds, ¬ Frees d.2.1 name r d.2.2) ∧
      ∀ r, e.tunnels.get name = some r → (∀ d ∈ ds, ¬ Frees d.2.1 name r d.2.2) →
        ∃ r', (arrived ecfg ds e).tunnels.get name = some r' ∧ Same r r' := by
  induction ds generalizing e with
  | nil => exact ⟨fun r' h => ⟨r', h, .refl r', by simp⟩, fun r h _ => ⟨r, h, .refl r⟩⟩
  | cons d ds ih =>
    obtain ⟨⟨id, hd⟩, hds⟩ := List.forall_mem_cons.mp hds
    obtain ⟨hback, hforth⟩ := ih hds (e.handle ecfg d.1 (d.2.2.request d.2.1)).1
    constructor
    · intro r' hr'
      obtain ⟨r1, hget1, hsame1, hnone1⟩ := hback r' hr'
      cases hget : e.tunnels.get name with
      | none => cases hget1.symm.trans (handled_none hd d.1 hget)
      | some r =>
        rcases handled_record ecfg hd d.1 hget with ⟨_, hgone⟩ | ⟨hnot, r2, hget2, hsame2⟩
        · cases hget1.symm.trans hgone
        · cases hget1.symm.trans hget2
          refine ⟨r, rfl, hsame2.trans hsame1, List.forall_mem_cons.mpr ⟨hnot, fun x hx => ?_⟩⟩
          rw [← Frees.same hsame2]
          exact hnone1 x hx
    · intro r hget hnone
      obtain ⟨hnot, hnone⟩ := List.forall_mem_cons.mp hnone
      rcases handled_record ecfg hd d.1 hget with ⟨hfrees, _⟩ | ⟨_, r2, hget2, hsame2⟩
      · exact absurd hfrees hnot
      · obtain ⟨r', hr', hsame'⟩ := hforth r2 hget2 fun x hx => by
          rw [Frees.same hsame2]
          exact hnone x hx
        exact ⟨r', hr', hsame2.trans hsame'⟩

theorem frees_endMessages (who : Identity) (listed : List Tunnel × DisconnectReason) :
    (∃ m ∈ endMessages who listed, Frees n name r m) ↔
      n.relayID ≠ "" ∧ r.relayId = n.relayID ∧ listed.2 = .tokenRevoked ∧
        name ∈ tunnelNames listed.1 ∧ (who.sessionID = "" ∨ r.sessionId = who.sessionID) := by
  unfold endMessages
  split
  next hempty => simp [Frees, hempty, tunnelNames]
  next =>
    split
    next hrevoked => simp [Frees, hrevoked]
    next hother => simp [Frees, hother]

theorem close_reason (a : AgentSession) :
    a.close.reason = .tokenRevoked ↔ a.reason = .agentClosed ∨ a.reason = .tokenRevoked := by
  unfold AgentSession.close
  by_cases h : a.reason = .agentClosed <;> simp [h]

namespace Member
variable (m : Member T)

theorem sent_eq : ∃ us : List ℕ, (∀ u, u ∈ us ↔ u ∈ m.before.tracked ∧ m.before.Finds T u) ∧
    m.sent = us.flatMap fun u => endMessages (m.before.sessions u).identity
      ((m.before.sessions u).tunnels, (m.before.sessions u).close.reason) := by
  obtain ⟨ctl, closed, s1, us, hrun, hperm, hended⟩ := m.revoked
  obtain ⟨hnodup, hclosed, hcluster, hsessions⟩ := runs_revokeToken hrun
  have hmem : ∀ u, u ∈ us ↔ u ∈ closed ∧ u ∈ m.before.tracked := by
    intro u
    rw [hperm.mem_iff, List.mem_filter, decide_eq_true_iff]
  have hus : us.Nodup := hperm.nodup_iff.mpr (hnodup.filter _)
  have hsent := ended_posts m.clustered hus hended
  rw [outbox_post, hcluster, m.sends] at hsent
  · refine ⟨us, fun u => ?_, ?_⟩
    · rw [hmem, and_comm]
      exact and_congr_right fun htracked => hclosed u htracked
    · rw [List.append_cancel_left hsent]
      refine List.flatMap_congr fun u hu => ?_
      unfold Server.listed
      rw [hsessions u, if_pos ((hmem u).mp hu).1]
      rfl
  · intro msg hmsg
    obtain ⟨u, _, hmsg⟩ := List.mem_flatMap.mp hmsg
    exact ⟨_, endMessages_ofSession _ _ msg hmsg⟩

theorem sent_ofSession : ∀ msg ∈ m.sent, ∃ id, OfSession id msg := by
  obtain ⟨us, _, hsent⟩ := m.sent_eq
  intro msg hmsg
  rw [hsent] at hmsg
  obtain ⟨u, _, hmsg⟩ := List.mem_flatMap.mp hmsg
  exact ⟨_, endMessages_ofSession _ _ msg hmsg⟩

theorem frees_iff (name : String) (r : TunLiveTunnel) :
    (∃ msg ∈ m.sent, Frees m.node name r msg) ↔ Releases m.node T m.before name r := by
  obtain ⟨us, hus, hsent⟩ := m.sent_eq
  have hsome : (∃ msg ∈ m.sent, Frees m.node name r msg) ↔ ∃ u ∈ us, ∃ msg ∈
      endMessages (m.before.sessions u).identity
        ((m.before.sessions u).tunnels, (m.before.sessions u).close.reason),
      Frees m.node name r msg := by
    rw [hsent]
    constructor
    · rintro ⟨msg, hmsg, hfrees⟩
      obtain ⟨u, hu, hmsg⟩ := List.mem_flatMap.mp hmsg
      exact ⟨u, hu, msg, hmsg, hfrees⟩
    · rintro ⟨u, hu, msg, hmsg, hfrees⟩
      exact ⟨msg, List.mem_flatMap.mpr ⟨u, hu, hmsg⟩, hfrees⟩
  rw [hsome]
  simp only [frees_endMessages, close_reason, hus]
  constructor
  · rintro ⟨u, ⟨htracked, hfinds⟩, hn, hrelay, hrest⟩
    exact ⟨hn, hrelay, u, htracked, hfinds, hrest⟩
  · rintro ⟨hn, hrelay, u, htracked, hfinds, hrest⟩
    exact ⟨u, ⟨htracked, hfinds⟩, hn, hrelay, hrest⟩

end Member

/-- Once the messages have arrived the engine holds no record of the token
exactly if every record it held is one that a session of its relay lists, with
the token and not being closed for another reason. -/
theorem revocation_frees_iff {T : String} {ecfg : Claims.Config} (fleet : List (Member T))
    {ds : List (Claims.Env × Node × Message)}
    (hds : (ds.map Prod.snd).Perm (fleet.flatMap fun m => m.sent.map fun msg => (m.node, msg)))
    (e : Engine) :
    (∀ name r, (arrived ecfg ds e).tunnels.get name = some r → r.tokenId ≠ T) ↔
      ∀ name r, e.tunnels.get name = some r → r.tokenId = T →
        ∃ m ∈ fleet, Releases m.node T m.before name r := by
  have hof : ∀ d ∈ ds, ∃ id, OfSession id d.2.2 := by
    intro d hd
    obtain ⟨m, _, hmsg⟩ := List.mem_flatMap.mp (hds.mem_iff.mp (List.mem_map_of_mem hd))
    obtain ⟨msg, hmsg, heq⟩ := List.mem_map.mp hmsg
    rw [← heq]
    exact m.sent_ofSession msg hmsg
  have hfrees : ∀ name r, (∃ d ∈ ds, Frees d.2.1 name r d.2.2) ↔
      ∃ m ∈ fleet, Releases m.node T m.before name r := by
    intro name r
    simp only [← Member.frees_iff]
    constructor
    · rintro ⟨d, hd, hfrees⟩
      obtain ⟨m, hm, hmsg⟩ := List.mem_flatMap.mp (hds.mem_iff.mp (List.mem_map_of_mem hd))
      obtain ⟨msg, hmsg, heq⟩ := List.mem_map.mp hmsg
      rw [← heq] at hfrees
      exact ⟨m, hm, msg, hmsg, hfrees⟩
    · rintro ⟨m, hm, msg, hmsg, hfrees⟩
      have hmem : (m.node, msg) ∈ fleet.flatMap fun m => m.sent.map fun msg => (m.node, msg) :=
        List.mem_flatMap.mpr ⟨m, hm, List.mem_map_of_mem hmsg⟩
      obtain ⟨d, hd, heq⟩ := List.mem_map.mp (hds.mem_iff.mpr hmem)
      refine ⟨d, hd, ?_⟩
      rw [heq]
      exact hfrees
  simp only [← hfrees]
  constructor
  · intro hnone name r hget htok
    by_contra hno
    obtain ⟨r', hget', hsame⟩ := (arrived_record hof e).2 r hget fun d hd hfrees => hno ⟨d, hd, hfrees⟩
    exact hnone name r' hget' (hsame.tokenId.trans htok)
  · intro hall name r' hget' htok
    obtain ⟨r, hget, hsame, hno⟩ := (arrived_record hof e).1 r' hget'
    obtain ⟨d, hd, hfrees⟩ := hall name r hget (hsame.tokenId.symm.trans htok)
    exact hno d hd hfrees

def demoPosting : Config (List Message) :=
  { rules := demoConfig.rules, pathMatch := demoConfig.pathMatch, netip := demoConfig.netip
    crypto := demoConfig.crypto, cluster := some outbox, valid := demoConfig.valid }

def demoServing : Server (List Message) :=
  { Server.new 60 true demoTokens [] with
    tracked := [2]
    sessions := Function.update (fun _ => {}) 2
      { id := "2", token := some (demoWho "2").token, agentID := "A"
        tunnels := [{ res := 0, existed := false, endpoint := { name := "b", type := .tcp } }] } }

def demoRevoked : List ℕ × Server (List Message) :=
  Runs.eval (objects demoPosting) 0 ({} : World) (Caller.prog demoPosting (.revokeToken "T"))
    demoServing

def demoLeft : Server (List Message) :=
  (Runs.eval (objects demoPosting) 2 ({} : World)
    (endSession demoPosting (demoRevoked.2.sessions 2).identity) demoRevoked.2).2

def demoMember : Member "T" where
  node := demoNode
  cfg := demoPosting
  before := demoServing
  after := demoLeft
  sent := demoLeft.cluster
  clustered := rfl
  revoked := ⟨0, demoRevoked.1, demoRevoked.2, [2], Runs.of_eval _ _ _ _ _, by decide +kernel,
    .cons (Runs.of_eval _ _ _ _ _) (.nil _)⟩
  sends := rfl

def demoNames : Engine :=
  graceEngine.after demoEngineConfig
    [({ now := 0 }, .handle (Relay.claimRequest "r0"
      { sessionID := "2", agentID := "A", tokenID := "T", name := "b", type := .tcp } .tcp))]

def demoArriving : List (Claims.Env × Node × Message) :=
  demoMember.sent.map fun msg => ({ now := 1 }, demoNode, msg)

theorem demoArriving_perm : (demoArriving.map Prod.snd).Perm
    ([demoMember].flatMap fun m => m.sent.map fun msg => (m.node, msg)) := by
  simp [demoArriving, demoMember, Function.comp_def]

theorem revocation_frees_iff_serving :
    (demoMember.sent.length = 2) ∧
    ((∀ name r, (arrived demoEngineConfig demoArriving demoNames).tunnels.get name = some r →
        r.tokenId ≠ "T") ↔
      ∀ name r, demoNames.tunnels.get name = some r → r.tokenId = "T" →
        ∃ m ∈ [demoMember], Releases m.node "T" m.before name r) :=
  ⟨by decide +kernel, revocation_frees_iff [demoMember] demoArriving_perm demoNames⟩

/-- `b` is free, and `a` is still the token's. -/
theorem grace_outlives_token :
    (demoArriving.map Prod.snd).Perm
      ([demoMember].flatMap fun m => m.sent.map fun msg => (m.node, msg)) ∧
    (arrived demoEngineConfig demoArriving demoNames).tunnels.get "b" = none ∧
    ((arrived demoEngineConfig demoArriving demoNames).tunnels.get "a").any
      (fun r => r.tokenId = "T") = true :=
  ⟨demoArriving_perm, by decide +kernel, by decide +kernel⟩

end L8Tunnel.Registrar
