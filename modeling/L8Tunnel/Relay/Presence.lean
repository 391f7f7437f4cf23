import L8Tunnel.Relay.Link

/-! # Agent presence (tun/relaynode/link.go, claims/lifecycle.go) -/

namespace L8Tunnel.Relay
open Base Claims

inductive DisconnectReason where
  | agentClosed | heartbeat | tokenRevoked | drained | takeover | operator
  deriving DecidableEq

def disconnectReason : DisconnectReason → TunDisconnectReason
  | .heartbeat => .heartbeatTimeout
  | .tokenRevoked => .tokenRevoked
  | .drained => .relayDrained
  | .takeover => .takeover
  | .operator => .operator
  | .agentClosed => .agentClosed

structure AgentInfo where
  sessionID : String
  agentID : String
  tokenID : String := ""
  tokenName : String := ""
  certSerial : String := ""
  version : String := ""
  os : String := ""
  arch : String := ""
  publicIP : String := ""
  webSocket : Bool := false
  connectedAt : ℤ

def agentOf (a : AgentInfo) : TunAgent :=
  { agentId := a.agentID, tokenId := a.tokenID, tokenName := a.tokenName
    certSerial := a.certSerial, sessionId := a.sessionID, version := a.version, os := a.os
    arch := a.arch, publicIp := a.publicIP
    transport := if a.webSocket then .websocket else .tls, connectedAt := a.connectedAt }

def agentUpRequest (relayID : String) (a : AgentInfo) : TunClaimRequest :=
  { kind := .agentUp, relayId := relayID, agent := some (agentOf a) }

def agentDownRequest (relayID agentID sessionID : String) (reason : DisconnectReason) :
    TunClaimRequest :=
  { kind := .agentDown, relayId := relayID, agentId := agentID, sessionId := sessionID
    reason := disconnectReason reason }

structure Session where
  info : AgentInfo
  ended : Option DisconnectReason

/-- The sessions of one agent on one relay, oldest first. -/
structure Sessions where
  relayID : String
  agentID : String
  all : List Session
  relay_ne : relayID ≠ ""
  agent_ne : agentID ≠ ""
  nonempty : all ≠ []
  ofAgent : ∀ s ∈ all, s.info.agentID = agentID ∧ s.info.sessionID ≠ ""
  distinct : (all.map (·.info.sessionID)).Nodup
  increasing : all.Pairwise fun s t => s.info.connectedAt < t.info.connectedAt

/-- A message about a session; each is sent from a goroutine of its own. -/
inductive Report where
  | up (s : Session)
  | down (s : Session) (reason : DisconnectReason)

namespace Sessions

def newest (S : Sessions) : Session := S.all.getLast S.nonempty
theorem newest_mem (S : Sessions) : S.newest ∈ S.all := List.getLast_mem S.nonempty

def reportsOf (s : Session) : List Report :=
  match s.ended with
  | none => [.up s]
  | some reason => [.up s, .down s reason]

def reports (S : Sessions) : List Report := S.all.flatMap reportsOf

def request (S : Sessions) : Report → TunClaimRequest
  | .up s => agentUpRequest S.relayID s.info
  | .down s reason => agentDownRequest S.relayID S.agentID s.info.sessionID reason

def deliver (S : Sessions) (cfg : Config) (e : Engine) (m : Env × Report) : Engine :=
  (e.handle cfg m.1 (S.request m.2)).1

/-- The record shows the newest session online if it has not ended, and is not
online if every session has ended. -/
structure Converged (S : Sessions) (e : Engine) : Prop where
  online : S.newest.ended = none → ∃ a, e.agents.get S.agentID = some a ∧ a.state = .online ∧
    a.sessionId = S.newest.info.sessionID
  offline : (∀ s ∈ S.all, s.ended ≠ none) →
    ∀ a, e.agents.get S.agentID = some a → a.state ≠ .online

def LastUp (ms : List Report) (s : Session) (after : List Report) : Prop :=
  (∃ before, ms = before ++ .up s :: after) ∧ ∀ t, Report.up t ∉ after

/-- The order of arrival that the handlers presume: the last AGENT_UP is the
newest session's if that one has not ended, and if all have ended its
AGENT_DOWN comes after it. -/
def Ordered (S : Sessions) (ms : List Report) : Prop :=
  ∀ s after, LastUp ms s after →
    (S.newest.ended = none → s.info.sessionID = S.newest.info.sessionID) ∧
    ((∀ t ∈ S.all, t.ended ≠ none) →
      ∃ t reason, Report.down t reason ∈ after ∧ t.info.sessionID = s.info.sessionID)

theorem LastUp.eq {ms after after' : List Report} {s s' : Session} (h : LastUp ms s after)
    (h' : LastUp ms s' after') : s = s' ∧ after = after' := by
  obtain ⟨⟨before, rfl⟩, hno⟩ := h
  obtain ⟨⟨before', heq⟩, hno'⟩ := h'
  obtain ⟨mid, -, hmid⟩ | ⟨mid, -, hmid⟩ := List.append_eq_append_iff.mp heq
  · cases mid with
    | nil => simpa using hmid
    | cons m mid =>
      refine absurd ?_ (hno s')
      rw [(List.cons.inj hmid).2]
      exact List.mem_append_right _ List.mem_cons_self
  · cases mid with
    | nil => simpa [eq_comm] using hmid
    | cons m mid =>
      refine absurd ?_ (hno' s)
      rw [(List.cons.inj hmid).2]
      exact List.mem_append_right _ List.mem_cons_self

theorem exists_lastUp {ms : List Report} (h : ∃ s, Report.up s ∈ ms) :
    ∃ s after, LastUp ms s after := by
  induction ms with
  | nil => simp at h
  | cons m ms ih =>
    by_cases hrest : ∃ s, Report.up s ∈ ms
    · obtain ⟨s, after, ⟨before, heq⟩, hno⟩ := ih hrest
      exact ⟨s, after, ⟨m :: before, by rw [heq, List.cons_append]⟩, hno⟩
    · cases m with
      | up s => exact ⟨s, ms, ⟨[], rfl⟩, fun t ht => hrest ⟨t, ht⟩⟩
      | down s reason =>
        obtain ⟨t, ht⟩ := h
        rcases List.mem_cons.mp ht with heq | ht
        · cases heq
        · exact absurd ⟨t, ht⟩ hrest

variable {s : Session} {a : TunAgent}

theorem up_mem_reports {S : Sessions} (h : Report.up s ∈ S.reports) : s ∈ S.all := by
  obtain ⟨t, ht, hmem⟩ := List.mem_flatMap.mp h
  unfold reportsOf at hmem
  split at hmem
  · have heq : s = t := by simpa using hmem
    exact heq ▸ ht
  · have heq : s = t := by simpa using hmem
    exact heq ▸ ht

theorem reports_up {S : Sessions} : Report.up S.newest ∈ S.reports := by
  refine List.mem_flatMap.mpr ⟨S.newest, S.newest_mem, ?_⟩
  unfold reportsOf
  split
  · exact List.mem_singleton_self _
  · exact List.mem_cons_self

theorem down_mem_reports {S : Sessions} {reason : DisconnectReason}
    (h : Report.down s reason ∈ S.reports) : s ∈ S.all ∧ s.ended = some reason := by
  obtain ⟨t, ht, hmem⟩ := List.mem_flatMap.mp h
  unfold reportsOf at hmem
  split at hmem
  · simp at hmem
  next r hr =>
    have heq : s = t ∧ reason = r := by simpa using hmem
    obtain ⟨rfl, rfl⟩ := heq
    exact ⟨ht, hr⟩

theorem eq_of_sessionID (S : Sessions) {t : Session} (hs : s ∈ S.all) (ht : t ∈ S.all)
    (h : s.info.sessionID = t.info.sessionID) : s = t :=
  List.inj_on_of_nodup_map S.distinct hs ht h

theorem deliver_up_eq (S : Sessions) (cfg : Config) (e : Engine) (env : Env) (s : Session) :
    S.deliver cfg e (env, .up s) = (e.agentUp cfg env (agentUpRequest S.relayID s.info)).1 :=
  congrArg Prod.fst (if_neg S.relay_ne)

theorem deliver_down_eq (S : Sessions) (cfg : Config) (e : Engine) (env : Env) (s : Session)
    (reason : DisconnectReason) :
    S.deliver cfg e (env, .down s reason) =
      e.agentDown cfg env (agentDownRequest S.relayID S.agentID s.info.sessionID reason) :=
  congrArg Prod.fst (if_neg S.relay_ne)

theorem deliver_up (S : Sessions) (cfg : Config) (e : Engine) (env : Env) (hs : s ∈ S.all) :
    ∃ a, (S.deliver cfg e (env, .up s)).agents.get S.agentID = some a ∧ a.state = .online ∧
      a.relayId = S.relayID ∧ a.sessionId = s.info.sessionID := by
  obtain ⟨hag, hsess⟩ := S.ofAgent s hs
  have hne : s.info.agentID ≠ "" := hag ▸ S.agent_ne
  have hup : S.deliver cfg e (env, .up s) =
      e.setAgent (Engine.upAgent env S.relayID (agentOf s.info)) := by
    rw [deliver_up_eq]
    simp [Engine.agentUp, agentUpRequest, agentOf, hne, hsess]
  refine ⟨Engine.upAgent env S.relayID (agentOf s.info), ?_, rfl, rfl, rfl⟩
  rw [hup]
  have hkey : S.agentID = (Engine.upAgent env S.relayID (agentOf s.info)).agentId := hag.symm
  show (e.agents.put _).get S.agentID = _
  rw [Table.get_put, if_pos hkey]

theorem downAgent_stores (e : Engine) (cfg : Config) (env : Env) (rec : TunAgent)
    (reason : TunDisconnectReason) :
    ∃ b, (e.downAgent cfg env rec reason).agents = e.agents.put b ∧ b.agentId = rec.agentId ∧
      b.relayId = rec.relayId ∧ b.sessionId = rec.sessionId ∧ b.state ≠ .online := by
  refine ⟨_, rfl, ?_⟩
  by_cases h : reason = .tokenRevoked
  · simp [h]
  · simp [h]

theorem deliver_down (S : Sessions) (cfg : Config) (e : Engine) (env : Env) (s : Session)
    (reason : DisconnectReason) (ha : e.agents.get S.agentID = some a)
    (hrelay : a.relayId = S.relayID) :
    ∃ b, (S.deliver cfg e (env, .down s reason)).agents.get S.agentID = some b ∧
      b.relayId = S.relayID ∧ b.sessionId = a.sessionId ∧
      (b.state = .online ↔ a.state = .online ∧ a.sessionId ≠ s.info.sessionID) := by
  have hkey : a.agentId = S.agentID := Table.key_of_get ha
  rw [deliver_down_eq]
  unfold Engine.agentDown agentDownRequest
  dsimp only
  rw [ha]
  dsimp only
  by_cases hsess : a.sessionId = s.info.sessionID
  · rw [if_neg (by simp [hrelay, hsess])]
    obtain ⟨b, hput, hid, hbr, hbs, hoff⟩ := downAgent_stores e cfg env a (disconnectReason reason)
    refine ⟨b, ?_, hbr.trans hrelay, hbs, ?_⟩
    · rw [hput, Table.get_put, if_pos (hid.trans hkey).symm]
    · exact ⟨fun h => absurd h hoff, fun h => absurd hsess h.2⟩
  · rw [if_pos (Or.inr hsess)]
    exact ⟨a, ha, hrelay, rfl, by simp [hsess]⟩

variable {S : Sessions} {cfg : Config} {e : Engine}

theorem deliver_downs (ms : List (Env × Report)) (hno : ∀ t, Report.up t ∉ ms.map (·.2))
    (ha : e.agents.get S.agentID = some a) (hrelay : a.relayId = S.relayID) :
    ∃ b, (ms.foldl (S.deliver cfg) e).agents.get S.agentID = some b ∧
      b.sessionId = a.sessionId ∧
      (b.state = .online ↔ a.state = .online ∧
        ∀ t reason, Report.down t reason ∈ ms.map (·.2) → a.sessionId ≠ t.info.sessionID) := by
  induction ms generalizing e a with
  | nil => exact ⟨a, ha, rfl, by simp⟩
  | cons m ms ih =>
    obtain ⟨env, m⟩ := m
    have hrest : ∀ t, Report.up t ∉ ms.map (·.2) := fun t ht => hno t (List.mem_cons_of_mem _ ht)
    cases m with
    | up t => exact absurd List.mem_cons_self (hno t)
    | down s reason =>
      obtain ⟨b, hb, hbr, hbs, hbon⟩ :=
        deliver_down S cfg e env s reason ha hrelay
      obtain ⟨c, hc, hcs, hcon⟩ := ih hrest hb hbr
      refine ⟨c, hc, hcs.trans hbs, ?_⟩
      rw [hcon, hbon, hbs, and_assoc]
      refine and_congr_right fun _ => ?_
      constructor
      · rintro ⟨hs, hall⟩ t r ht
        rcases List.mem_cons.mp ht with heq | ht
        · cases heq
          exact hs
        · exact hall t r ht
      · intro hall
        exact ⟨hall s reason List.mem_cons_self, fun t r ht => hall t r (List.mem_cons_of_mem _ ht)⟩

theorem deliver_all (S : Sessions) (cfg : Config) (e : Engine) {ms : List (Env × Report)}
    {after : List Report} (hs : s ∈ S.all) (hlast : LastUp (ms.map (·.2)) s after) :
    ∃ b, (ms.foldl (S.deliver cfg) e).agents.get S.agentID = some b ∧
      b.sessionId = s.info.sessionID ∧
      (b.state = .online ↔
        ∀ t reason, Report.down t reason ∈ after → s.info.sessionID ≠ t.info.sessionID) := by
  obtain ⟨⟨before, hsplit⟩, hno⟩ := hlast
  obtain ⟨ms1, ms2, rfl, hms1, hms2⟩ := List.map_eq_append_iff.mp hsplit
  obtain ⟨m, ms3, rfl, hm, hms3⟩ := List.map_eq_cons_iff.mp hms2
  obtain ⟨env, m⟩ := m
  dsimp only at hm
  subst hm
  rw [List.foldl_append, List.foldl_cons]
  obtain ⟨a, ha, hon, hrelay, hsess⟩ := deliver_up S cfg (ms1.foldl (S.deliver cfg) e) env hs
  obtain ⟨b, hb, hbs, hbon⟩ := deliver_downs ms3 (hms3 ▸ hno) ha hrelay
  refine ⟨b, hb, hbs.trans hsess, ?_⟩
  rw [hbon, hms3, hsess]
  exact ⟨fun h => h.2, fun h => ⟨hon, h⟩⟩

/-- After all reports the agent's record is right exactly if they arrived in
the order the handlers presume. -/
theorem converged_iff_ordered (S : Sessions) (cfg : Config) (e : Engine)
    (ms : List (Env × Report)) (hall : (ms.map (·.2)).Perm S.reports) :
    S.Converged (ms.foldl (S.deliver cfg) e) ↔ S.Ordered (ms.map (·.2)) := by
  have hmem : ∀ {s after}, LastUp (ms.map (·.2)) s after → s ∈ S.all := by
    rintro s after ⟨⟨before, heq⟩, _⟩
    refine up_mem_reports (hall.mem_iff.mp ?_)
    rw [heq]
    simp
  have hdown : ∀ {s after}, LastUp (ms.map (·.2)) s after → ∀ t reason,
      Report.down t reason ∈ after → t ∈ S.all ∧ t.ended = some reason := by
    rintro s after ⟨⟨before, heq⟩, _⟩ t reason ht
    refine down_mem_reports (hall.mem_iff.mp ?_)
    rw [heq]
    simp [ht]
  constructor
  · intro hconv s after hlast
    obtain ⟨b, hb, hbs, hbon⟩ := deliver_all S cfg e (hmem hlast) hlast
    refine ⟨?_, ?_⟩
    · intro hopen
      obtain ⟨a, ha, _, hsess⟩ := hconv.online hopen
      have hab : a = b := Option.some.inj (ha.symm.trans hb)
      exact hbs.symm.trans (hab ▸ hsess)
    · intro hended
      have hoff := hconv.offline hended b hb
      rw [Ne, hbon] at hoff
      push Not at hoff
      obtain ⟨t, reason, ht, heq⟩ := hoff
      exact ⟨t, reason, ht, heq.symm⟩
  · intro hord
    obtain ⟨s, after, hlast⟩ := exists_lastUp ⟨S.newest, hall.mem_iff.mpr reports_up⟩
    obtain ⟨hnew, hend⟩ := hord s after hlast
    obtain ⟨b, hb, hbs, hbon⟩ := deliver_all S cfg e (hmem hlast) hlast
    refine ⟨?_, ?_⟩
    · intro hopen
      refine ⟨b, hb, hbon.mpr ?_, hbs.trans (hnew hopen)⟩
      -- a session that has not ended has no AGENT_DOWN
      intro t reason ht hsame
      obtain ⟨htm, hte⟩ := hdown hlast t reason ht
      have heq : t = S.newest :=
        S.eq_of_sessionID htm S.newest_mem (hsame.symm.trans (hnew hopen))
      rw [heq, hopen] at hte
      cases hte
    · intro hended a ha
      have hab : a = b := Option.some.inj (ha.symm.trans hb)
      obtain ⟨t, reason, ht, hsame⟩ := hend hended
      intro hon
      exact hbon.mp (hab ▸ hon) t reason ht hsame.symm

def sampleSession : Session :=
  ⟨{ sessionID := "s1", agentID := "a1", connectedAt := 10 }, some .agentClosed⟩

def sampleSessions : Sessions where
  relayID := "r0"
  agentID := "a1"
  all := [sampleSession]
  relay_ne := by decide
  agent_ne := by decide
  nonempty := by simp
  ofAgent := by simp [sampleSession]
  distinct := by simp
  increasing := by simp

def secondSession : Session :=
  ⟨{ sessionID := "s2", agentID := "a1", connectedAt := 20 }, none⟩

def twoSessions : Sessions where
  relayID := "r0"
  agentID := "a1"
  all := [sampleSession, secondSession]
  relay_ne := by decide
  agent_ne := by decide
  nonempty := by simp
  ofAgent := by simp [sampleSession, secondSession]
  distinct := by simp [sampleSession, secondSession]
  increasing := by simp [sampleSession, secondSession]

/-- The agent reconnects before the end of its first session is reported. -/
def reconnects : List (Env × Report) :=
  [({ now := 10 }, .up sampleSession), ({ now := 20 }, .up secondSession),
    ({ now := 30 }, .down sampleSession .agentClosed)]

theorem converged_reconnects :
    twoSessions.Converged (reconnects.foldl (twoSessions.deliver sampleConfig) Engine.new) := by
  have hall : (reconnects.map (·.2)).Perm twoSessions.reports := .cons _ (.swap _ _ _)
  refine (converged_iff_ordered twoSessions sampleConfig Engine.new reconnects hall).mpr ?_
  have hsecond : LastUp (reconnects.map (·.2)) secondSession [.down sampleSession .agentClosed] :=
    ⟨⟨[.up sampleSession], rfl⟩, by simp⟩
  intro s after hlast
  obtain ⟨rfl, -⟩ := hlast.eq hsecond
  exact ⟨fun _ => rfl, fun h => absurd rfl (h secondSession (by simp [twoSessions]))⟩

/-- The AGENT_DOWN of an ended session overtakes its AGENT_UP: the agent stays
online although its only session has ended. -/
theorem down_overtakes_up :
    ([({ now := 0 }, Report.down sampleSession .agentClosed),
        ({ now := 0 }, Report.up sampleSession)].map (fun m : Env × Report => m.2)).Perm
      sampleSessions.reports ∧
    ¬ sampleSessions.Converged
      ([({ now := 0 }, Report.down sampleSession .agentClosed),
        ({ now := 0 }, Report.up sampleSession)].foldl
        (sampleSessions.deliver sampleConfig) Engine.new) := by
  refine ⟨List.Perm.swap _ _ _, fun h => ?_⟩
  have hended : ∀ s ∈ sampleSessions.all, s.ended ≠ none := by
    simp [sampleSessions, sampleSession]
  exact h.offline hended _ rfl rfl

end Sessions
end L8Tunnel.Relay
