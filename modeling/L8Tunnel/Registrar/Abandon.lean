import L8Tunnel.Registrar.Cluster

/-! # A registration that is given up (relay/session.go, tun/relaynode/link.go) -/

namespace L8Tunnel.Registrar
open Base Server Runs
open Claims (Engine ActiveFor activeFor_congr)
open Relay (Message Node)

variable {γ : Type}

/-- The uplink with the names whose grant never reached the relay. -/
structure Wire extends Uplink where
  unheard : List String := []

namespace Wire

def send (k : Wire) (m : Message) : Wire := { k with toUplink := k.toUplink.send m }

def cluster (n : Node) (cfg : Claims.Config) : Cluster Wire where
  claimTunnel w c k :=
    let out := Relay.claimTunnel cfg n.relayID c w.lost w.claims k.engine
    let missed := if replyMissed n cfg c w.lost k.engine then [c.name] else []
    ({ k with engine := out.1, unheard := k.unheard ++ missed }, claimAnswer out.2)
  parkTunnels sessionID names k := k.send (.park sessionID names)
  releaseTunnels sessionID names k := k.send (.release sessionID names)
  agentUp a k := k.send (.agentUp a)
  agentDown agentID sessionID reason k := k.send (.agentDown agentID sessionID reason)

end Wire

def Cluster.post (k : Cluster γ) (g : γ) : Message → γ
  | .park sessionID names => k.parkTunnels sessionID names g
  | .release sessionID names => k.releaseTunnels sessionID names g
  | .agentUp a => k.agentUp a g
  | .agentDown agentID sessionID reason => k.agentDown agentID sessionID reason g
  | .announce _ | .heartbeat _ => g

def delivered (n : Node) (cfg : Claims.Config) (ds : List (Claims.Env × Message)) (e : Engine) :
    Engine :=
  ds.foldl (fun e d => (e.handle cfg d.1 (d.2.request n)).1) e

def endSession (cfg : Config γ) (who : Identity) : Prog Op Unit := do
  if cfg.cluster.isSome then
    let reason ← ask .reason
    ask (.agentDown who.agentID who.sessionID reason)
  closeTunnels cfg who.sessionID

def registerAndEnd (cfg : Config γ) (who : Identity) (specs : List TunnelSpec) :
    Prog Op (Option Reply) := do
  let reply ← register cfg who specs
  endSession cfg who
  pure reply

/-- One tunnel of a registration at the engine: refused, granted, or granted unheard. -/
inductive Tried (n : Node) (sessionID name : String) (k : Wire) : Bool → Wire → Prop where
  | refused : Tried n sessionID name k false k
  | unheard {e : Engine} : (∀ relay, ¬ ActiveFor relay k.engine name sessionID) →
      Gained n sessionID [name] k.engine e →
      Tried n sessionID name k false { k with engine := e, unheard := k.unheard ++ [name] }
  | granted {e : Engine} : Gained n sessionID [name] k.engine e →
      Tried n sessionID name k true { k with engine := e }

variable {n : Node} {sessionID name : String} {k k' : Wire}

theorem Tried.failed (h : Tried n sessionID name k false k') :
    ∃ missed, missed ⊆ [name] ∧ Gained n sessionID missed k.engine k'.engine ∧
      (∀ m ∈ missed, ∀ relay, ¬ ActiveFor relay k.engine m sessionID) ∧
      k'.unheard = k.unheard ++ missed ∧ k'.sent = k.sent := by
  cases h with
  | refused => exact ⟨[], by simp, .nil _ _ _, by simp, by simp, rfl⟩
  | unheard hfresh hgained =>
    exact ⟨[name], List.Subset.refl _, hgained, by simpa using hfresh, rfl, rfl⟩

theorem tried_claimTunnel (n : Node) (ecfg : Claims.Config) (who : Identity) :
    Answering (Wire.cluster n ecfg) who (Tried n who.sessionID) where
  unasked _ _ := .refused
  claim w c k hc := by
    rw [← hc]
    dsimp only [Wire.cluster]
    rcases claimTunnel_lossy n ecfg c w.lost w.claims k.engine with
      ⟨hm, r, hr, heq⟩ | ⟨hm, hfresh, e', r, hr, hgained, heq⟩ | ⟨hm, e', p, hgained, heq⟩
    · rw [hm, heq, hr]
      simpa using Tried.refused
    · rw [hm, heq, hr]
      exact .unheard hfresh hgained
    · rw [hm, heq]
      simpa [claimAnswer, Except.isOk, Except.toBool] using Tried.granted hgained

theorem Granted.gained {names : List String} (h : Granted (Tried n sessionID) names k k') :
    Gained n sessionID names k.engine k'.engine ∧ k'.unheard = k.unheard ∧ k'.sent = k.sent := by
  induction h with
  | nil g => exact ⟨.nil _ _ _, rfl, rfl⟩
  | cons hone _ ih =>
    cases hone with
    | granted hgained => exact ⟨hgained.append ih.1, ih.2.1, ih.2.2⟩

/-- A registration that gave up: what it opened, and what it missed. -/
structure Stopped (n : Node) (sessionID : String) (specs : List TunnelSpec)
    (tried opened missed : List String) (k k' : Wire) : Prop where
  drawn : List.Forall₂ Ask.NameOf (specs.take tried.length) tried
  missed_tried : missed ⊆ tried
  gained : Gained n sessionID (opened ++ missed) k.engine k'.engine
  apart : ∀ name ∈ missed, name ∉ opened
  fresh : ∀ name ∈ missed, ∀ relay, ¬ ActiveFor relay k.engine name sessionID
  unheard : k'.unheard = k.unheard ++ missed
  sent : k'.sent = k.sent

theorem Granted.stopped {pre : List TunnelSpec} {failing : TunnelSpec} {names : List String}
    {last : String} {g : Wire} (hpre : List.Forall₂ Ask.NameOf pre names)
    (hlast : Ask.NameOf failing last) (rest : List TunnelSpec)
    (h : Granted (Tried n sessionID) names k g) (hfailed : Tried n sessionID last g false k') :
    ∃ tried missed, Stopped n sessionID (pre ++ failing :: rest) tried names missed k k' := by
  obtain ⟨hgained, hunheard, hsent⟩ := h.gained
  obtain ⟨missed, hsub, hmissed, hfresh, hunheard', hsent'⟩ := hfailed.failed
  have hapart : ∀ m ∈ missed, m ∉ names := fun m hm hnames =>
    hfresh m hm _ (hgained.mine m hnames)
  refine ⟨names ++ [last], missed, ?_, List.subset_append_of_subset_right _ hsub,
    hgained.append hmissed, hapart, ?_, by rw [hunheard', hunheard], hsent'.trans hsent⟩
  · have htake : (pre ++ failing :: rest).take (names ++ [last]).length = pre ++ [failing] := by
      simp [List.take_append, ← hpre.length_eq, List.take_of_length_le]
    rw [htake]
    exact List.rel_append hpre (.cons hlast .nil)
  · intro m hm relay hactive
    rw [← activeFor_congr (hgained.others m (hapart m hm))] at hactive
    exact hfresh m hm relay hactive

section
variable {k : Cluster γ} {cfg : Config γ} {who : Identity} {t : ℕ} {s s' : Server γ}

def Op.keepsSession {β : Type} : Op β → Bool
  | .track _ | .addTunnels _ | .takeTunnels | .closeSession _ _ => false
  | _ => true

def Server.listed (s : Server γ) (t : ℕ) : List Tunnel × Relay.DisconnectReason :=
  ((s.sessions t).tunnels, (s.sessions t).reason)

theorem listed_onRegistering (s : Server γ) (t : ℕ) (f : Registering → Registering) :
    (s.onRegistering t f).listed t = s.listed t := by
  simp [onRegistering, onSession, listed]

theorem answer_listed (cfg : Config γ) {β : Type} (op : Op β) (hop : op.keepsSession) (t : ℕ)
    (w : World) (s : Server γ) : (s.answer cfg t w op).1.listed t = s.listed t := by
  have hclose : ∀ (s : Server γ) (tn : Tunnel), (s.closeListener tn).listed t = s.listed t := by
    intro s tn
    unfold closeListener
    split <;> rfl
  cases op with
  | track | addTunnels | takeTunnels | closeSession => cases hop
  | closeTunnel tn => exact hclose s tn
  | releasePort | setPort | rollback => exact listed_onRegistering _ t _
  | claim =>
    dsimp only [answer, claim]
    split
    · rfl
    next c _ =>
      refine (listed_onRegistering _ t _).trans ?_
      show (closeStale _ c.stale).listed t = _
      cases c.stale with
      | some tn => exact hclose _ tn
      | none => rfl
  | listen p =>
    dsimp only [answer, Server.listen]
    split <;> rfl
  | setDomains | reserve =>
    dsimp only [answer]
    split <;> rfl
  | reservePort =>
    dsimp only [answer]
    split
    · rfl
    · exact listed_onRegistering _ t _
  | tokenByID =>
    dsimp only [answer]
    split
    · rfl
    · split
      · rfl
      · simp [onSession, listed]
  | setToken | startRegister | endRegister =>
    dsimp only [answer]
    simp [onSession, listed]
  | claimTunnel | parkTunnels | releaseTunnels | agentUp | agentDown =>
    dsimp only [answer]
    split <;> rfl
  | _ => rfl

theorem runs_keeps {α : Type} {p : Prog Op α} {a : α} (hp : p.All fun _ op => op.keepsSession)
    (h : Runs (objects cfg) t p s a s') : s'.listed t = s.listed t :=
  frame (listed · t) (fun _ _ w s hop => answer_listed cfg _ hop t w s) hp h

theorem opens_keepsSession {α : Type} {p : Prog Op α} (hp : p.All fun _ op => op.opens) :
    p.All fun _ op => op.keepsSession :=
  hp.mono fun _ op hop => by
    cases op with
    | track | addTunnels | takeTunnels | closeSession => cases hop
    | _ => rfl

theorem parkAll_aside : ∀ ts : List Tunnel,
    (parkAll ts).All fun _ op => op.isLocal ∧ op.keepsSession
  | [] => trivial
  | _ :: ts => ⟨⟨rfl, rfl⟩, fun _ => ⟨⟨rfl, rfl⟩, fun _ => parkAll_aside ts⟩⟩

def undoMessages (who : Identity) (opened : List String) : List Message :=
  if opened = [] then [] else [.release who.sessionID opened]

def endMessages (who : Identity) (listed : List Tunnel × Relay.DisconnectReason) : List Message :=
  .agentDown who.agentID who.sessionID listed.2 ::
    if listed.1 = [] then []
    else if listed.2 = .tokenRevoked then [.release who.sessionID (tunnelNames listed.1)]
    else [.park who.sessionID (tunnelNames listed.1)]

theorem runs_closeTunnels_posts (hcfg : cfg.cluster = some k) {u : Unit}
    {listed : List Tunnel × Relay.DisconnectReason} (hl : s.listed t = listed)
    (h : Runs (objects cfg) t (closeTunnels cfg who.sessionID) s u s') :
    s'.cluster = (endMessages who listed).tail.foldl k.post s.cluster := by
  subst hl
  unfold closeTunnels at h
  rw [ask_bind] at h
  obtain ⟨w, h⟩ := call_iff.mp h
  have htaken : ((objects cfg).answer t w .takeTunnels s).2 = (s.listed t).1 := rfl
  have h1 : ((objects cfg).answer t w .takeTunnels s).1.cluster = s.cluster := rfl
  have hr1 : (((objects cfg).answer t w .takeTunnels s).1.listed t).2 = (s.listed t).2 := by
    dsimp only [objects, answer]
    simp [onSession, listed]
  rw [htaken] at h
  obtain ⟨_, s2, hpark, h⟩ := bind_iff.mp h
  have h2 := runs_local ((parkAll_aside _).mono fun _ _ hop => hop.1) hpark
  have hr2 := congrArg Prod.snd (runs_keeps ((parkAll_aside _).mono fun _ _ hop => hop.2) hpark)
  rw [h1] at h2
  rw [hr1] at hr2
  by_cases hempty : (s.listed t).1 = []
  · rw [if_neg fun hboth => hboth.2 hempty] at h
    obtain ⟨-, rfl⟩ := done_iff.mp h
    rw [h2]
    simp [endMessages, hempty]
  rw [if_pos ⟨by rw [hcfg]; rfl, hempty⟩, ask_bind] at h
  obtain ⟨w2, h⟩ := call_iff.mp h
  have hreason : ((objects cfg).answer t w2 .reason s2).2 = (s.listed t).2 := hr2
  have hs2 : ((objects cfg).answer t w2 .reason s2).1 = s2 := rfl
  rw [hreason, hs2] at h
  by_cases hrevoked : (s.listed t).2 = .tokenRevoked
  · rw [if_pos hrevoked] at h
    obtain ⟨w3, h⟩ := call_iff.mp h
    obtain ⟨-, rfl⟩ := done_iff.mp h
    rw [answer_releaseTunnels hcfg, h2]
    simp [endMessages, hempty, hrevoked, Cluster.post]
  · rw [if_neg hrevoked] at h
    obtain ⟨w3, h⟩ := call_iff.mp h
    obtain ⟨-, rfl⟩ := done_iff.mp h
    rw [answer_parkTunnels hcfg, h2]
    simp [endMessages, hempty, hrevoked, Cluster.post]

theorem runs_endSession (hcfg : cfg.cluster = some k) {u : Unit}
    (h : Runs (objects cfg) t (endSession cfg who) s u s') :
    s'.cluster = (endMessages who (s.listed t)).foldl k.post s.cluster := by
  unfold endSession at h
  rw [if_pos (by rw [hcfg]; rfl), ask_bind] at h
  obtain ⟨w1, h⟩ := call_iff.mp h
  have hreason : ((objects cfg).answer t w1 .reason s).2 = (s.listed t).2 := rfl
  have hs1 : ((objects cfg).answer t w1 .reason s).1 = s := rfl
  rw [hreason, hs1] at h
  obtain ⟨w2, h⟩ := call_iff.mp h
  have hl : ((objects cfg).answer t w2
      (.agentDown who.agentID who.sessionID (s.listed t).2) s).1.listed t = s.listed t :=
    answer_listed cfg _ rfl t w2 s
  rw [runs_closeTunnels_posts hcfg hl h, answer_agentDown hcfg]
  rfl

end

def OfSession (sessionID : String) : Message → Prop
  | .park id _ | .release id _ => id = sessionID
  | .agentDown _ _ _ => True
  | _ => False

theorem endMessages_ofSession (who : Identity) (listed : List Tunnel × Relay.DisconnectReason) :
    ∀ m ∈ endMessages who listed, OfSession who.sessionID m := by
  intro m hm
  rcases List.mem_cons.mp hm with rfl | hm
  · trivial
  split at hm
  · cases hm
  split at hm
  all_goals
    rw [List.mem_singleton.mp hm]
    rfl

theorem Wire.foldl_post (n : Node) (ecfg : Claims.Config) {id : String} {ms : List Message}
    (hms : ∀ m ∈ ms, OfSession id m) (k : Wire) :
    ms.foldl (Wire.cluster n ecfg).post k = { k with sent := k.sent ++ ms } := by
  induction ms generalizing k with
  | nil => simp
  | cons m ms ih =>
    obtain ⟨hm, hms⟩ := List.forall_mem_cons.mp hms
    have hone : (Wire.cluster n ecfg).post k m = { k with sent := k.sent ++ [m] } := by
      cases m with
      | park | release | agentDown | agentUp => rfl
      | announce | heartbeat => cases hm
    rw [List.foldl_cons, hone, ih hms]
    simp

section
variable {ecfg : Claims.Config} {cfg : Config Wire} {who : Identity} {t : ℕ} {s s' : Server Wire}

theorem register_listed {specs : List TunnelSpec} {reply : Option Reply}
    (hfailed : ∀ endpoints, reply ≠ some (.registered endpoints))
    (h : Runs (objects cfg) t (register cfg who specs) s reply s') : s'.listed t = s.listed t := by
  by_cases hspecs : specs = []
  · unfold register at h
    rw [if_pos hspecs] at h
    obtain ⟨-, rfl⟩ := done_iff.mp h
    rfl
  obtain ⟨w1, w2, w3, opened, err, s2, s3, hopen, hundo, rfl⟩ := register_failed hspecs hfailed h
  have hopened : s3.listed t = s.listed t := by
    rw [runs_keeps (opens_keepsSession (undo_opens opened)) hundo,
      runs_keeps (opens_keepsSession (openAll_opens cfg who specs [])) hopen]
    exact answer_listed cfg .startRegister rfl t w1 s
  refine (answer_listed cfg .endRegister rfl t w3 _).trans ?_
  split
  · exact (answer_listed cfg (.releaseTunnels _ _) rfl t w2 s3).trans hopened
  · exact hopened

theorem runs_register_wire (hcfg : cfg.cluster = some (Wire.cluster n ecfg))
    {specs : List TunnelSpec} {reply : Option Reply}
    (hfailed : ∀ endpoints, reply ≠ some (.registered endpoints))
    (h : Runs (objects cfg) t (register cfg who specs) s reply s') :
    ∃ tried opened missed, Stopped n who.sessionID specs tried opened missed s.cluster
        { s'.cluster with sent := s.cluster.sent } ∧
      s'.cluster.sent = s.cluster.sent ++ undoMessages who opened := by
  by_cases hspecs : specs = []
  · unfold register at h
    rw [if_pos hspecs] at h
    obtain ⟨-, rfl⟩ := done_iff.mp h
    exact ⟨[], [], [], ⟨by simp, by simp, .nil _ _ _, by simp, by simp, by simp, rfl⟩,
      by simp [undoMessages]⟩
  obtain ⟨pre, failing, rest, names, last, g, g', rfl, hpre, hlast, hgranted, htried, hs'⟩ :=
    runs_register_cluster hcfg (tried_claimTunnel n ecfg who) hspecs hfailed h
  obtain ⟨tried, missed, hst⟩ := hgranted.stopped hpre hlast rest htried
  refine ⟨tried, names, missed, ?_, ?_⟩
  · rw [hs', ← hst.sent]
    split <;> exact hst
  · rw [hs', undoMessages, ← hst.sent]
    split
    · exact (List.append_nil _).symm
    · rfl

end

section
variable {ecfg : Claims.Config} {relay : String}

theorem activeFor_handled {m : Message} (hm : OfSession sessionID m) (env : Claims.Env) (e : Engine) :
    ActiveFor relay (e.handle ecfg env (m.request n)).1 name sessionID ↔
      ActiveFor relay e name sessionID ∧
        ¬ (n.relayID ≠ "" ∧ relay = n.relayID ∧ m.ends name sessionID = true) := by
  by_cases hn : n.relayID = ""
  · have hreq : (m.request n).relayId = "" := (Message.request_relayId n m).trans hn
    simp [Engine.handle, hreq, hn]
  cases m with
  | park id names =>
    cases hm
    rw [Message.handle_park hn, Claims.activeFor_park]
    simp [Message.request, Message.ends, hn, and_comm]
  | release id names =>
    cases hm
    rw [Message.handle_release hn, Claims.activeFor_release]
    simp [Message.request, Message.ends, hn, and_comm]
  | agentDown agentID id reason =>
    rw [Message.handle_agentDown hn, Engine.agentDown_active e ecfg env _ relay name sessionID]
    simp [Message.ends]
  | announce | heartbeat | agentUp => cases hm

variable {ds : List (Claims.Env × Message)} {opened names ended : List String} {e e' : Engine}

theorem activeFor_delivered (hds : ∀ d ∈ ds, OfSession sessionID d.2) (e : Engine) :
    ActiveFor relay (delivered n ecfg ds e) name sessionID ↔
      ActiveFor relay e name sessionID ∧ ¬ (n.relayID ≠ "" ∧ relay = n.relayID ∧
        ∃ d ∈ ds, d.2.ends name sessionID = true) := by
  induction ds generalizing e with
  | nil => simp [delivered]
  | cons d ds ih =>
    obtain ⟨hd, hds⟩ := List.forall_mem_cons.mp hds
    have hcons : delivered n ecfg (d :: ds) e =
        delivered n ecfg ds (e.handle ecfg d.1 (d.2.request n)).1 := rfl
    rw [hcons, ih hds, activeFor_handled hd, and_assoc, ← not_or]
    refine and_congr_right fun _ => not_congr ?_
    simp only [List.mem_cons, exists_eq_or_imp]
    tauto

/-- The session has the name active, and nothing it will send takes it away. -/
def Stray (n : Node) (sessionID : String) (ended : List String) (e : Engine) (name : String) : Prop :=
  ∃ relay, ActiveFor relay e name sessionID ∧
    ¬ (n.relayID ≠ "" ∧ relay = n.relayID ∧ name ∈ ended)

def RequestName (specs : List TunnelSpec) (tried : List String) (name : String) : Prop :=
  name ∈ tried ∨ ∃ spec ∈ specs, spec.name = name ∧ name ≠ ""

theorem ends_iff (who : Identity) (opened : List String)
    (listed : List Tunnel × Relay.DisconnectReason) (name : String) :
    (∃ m ∈ undoMessages who opened ++ endMessages who listed, m.ends name who.sessionID = true) ↔
      name ∈ opened ++ tunnelNames listed.1 := by
  have hundo : (∃ m ∈ undoMessages who opened, m.ends name who.sessionID = true) ↔ name ∈ opened := by
    unfold undoMessages
    split
    next h => simp [h]
    next => simp [Message.ends]
  have hend : (∃ m ∈ endMessages who listed, m.ends name who.sessionID = true) ↔
      name ∈ tunnelNames listed.1 := by
    unfold endMessages
    split
    next h => simp [h, Message.ends, tunnelNames]
    next => split <;> simp [Message.ends]
  simp only [List.mem_append, or_and_right, exists_or, hundo, hend]

theorem messages_ofSession (who : Identity) (opened : List String)
    (listed : List Tunnel × Relay.DisconnectReason) :
    ∀ m ∈ undoMessages who opened ++ endMessages who listed, OfSession who.sessionID m := by
  intro m hm
  rcases List.mem_append.mp hm with hm | hm
  · unfold undoMessages at hm
    split at hm
    · cases hm
    · rw [List.mem_singleton.mp hm]
      rfl
  · exact endMessages_ofSession who listed m hm

theorem active_iff_stray {who : Identity} {listed : List Tunnel × Relay.DisconnectReason}
    (hds : (ds.map Prod.snd).Perm (undoMessages who opened ++ endMessages who listed))
    (e : Engine) :
    (∃ relay, ActiveFor relay (delivered n ecfg ds e) name who.sessionID) ↔
      Stray n who.sessionID (opened ++ tunnelNames listed.1) e name := by
  have hof : ∀ d ∈ ds, OfSession who.sessionID d.2 := fun d hd =>
    messages_ofSession who opened listed d.2 (hds.mem_iff.mp (List.mem_map_of_mem hd))
  have hends : (∃ d ∈ ds, d.2.ends name who.sessionID = true) ↔
      name ∈ opened ++ tunnelNames listed.1 := by
    rw [← ends_iff]
    constructor
    · rintro ⟨d, hd, hend⟩
      exact ⟨d.2, hds.mem_iff.mp (List.mem_map_of_mem hd), hend⟩
    · rintro ⟨m, hm, hend⟩
      obtain ⟨d, hd, rfl⟩ := List.mem_map.mp (hds.mem_iff.mpr hm)
      exact ⟨d, hd, hend⟩
  unfold Stray
  simp only [activeFor_delivered hof, hends]

theorem stray_gained (h : Gained n sessionID names e e') (hname : name ∈ names) :
    Stray n sessionID ended e' name ↔ name ∉ ended := by
  have hmine := h.mine name hname
  constructor
  · rintro ⟨relay, hactive, hnot⟩ hended
    exact hnot ⟨h.relay (List.ne_nil_of_mem hname), hactive.relay_unique hmine, hended⟩
  · exact fun hnot => ⟨n.relayID, hmine, fun hend => hnot hend.2.2⟩

theorem stray_others (h : Gained n sessionID names e e') (hname : name ∉ names) :
    Stray n sessionID ended e' name ↔ Stray n sessionID ended e name := by
  unfold Stray
  simp only [activeFor_congr (h.others name hname)]

theorem stray_append {listed : List String} (hname : name ∉ opened) :
    Stray n sessionID (opened ++ listed) e name ↔ Stray n sessionID listed e name := by
  simp [Stray, hname]

end

/-- The engine holds no active record of the session for a name of the request
exactly if the session had none that it did not list, and no claim was accepted
without the relay hearing of it, unless the session lists the name. -/
theorem abandoned_claim_inactive_iff {n : Node} {ecfg : Claims.Config} {cfg : Config Wire}
    (hcfg : cfg.cluster = some (Wire.cluster n ecfg)) {who : Identity} {specs : List TunnelSpec}
    {reply : Option Reply} (hfailed : ∀ endpoints, reply ≠ some (.registered endpoints)) {t : ℕ}
    {s s' : Server Wire} (h : Runs (objects cfg) t (registerAndEnd cfg who specs) s reply s') :
    ∃ tried opened missed, List.Forall₂ Ask.NameOf (specs.take tried.length) tried ∧
      s'.cluster.unheard = s.cluster.unheard ++ missed ∧
      s'.cluster.sent =
        s.cluster.sent ++ (undoMessages who opened ++ endMessages who (s.listed t)) ∧
      ∀ ds : List (Claims.Env × Message),
        (ds.map Prod.snd).Perm (undoMessages who opened ++ endMessages who (s.listed t)) →
        ((∀ name, RequestName specs tried name →
            ∀ relay, ¬ ActiveFor relay (delivered n ecfg ds s'.cluster.engine) name who.sessionID) ↔
          (∀ name, RequestName specs tried name → name ∉ opened →
            ¬ Stray n who.sessionID (tunnelNames (s.listed t).1) s.cluster.engine name) ∧
          ∀ name ∈ missed, name ∈ tunnelNames (s.listed t).1) := by
  obtain ⟨reply', s1, hreg, hrest⟩ := bind_iff.mp h
  obtain ⟨_, s2, hend, hrest⟩ := bind_iff.mp hrest
  obtain ⟨rfl, rfl⟩ := done_iff.mp hrest
  obtain ⟨tried, opened, missed, hst, hsent⟩ := runs_register_wire hcfg hfailed hreg
  have hlisted := register_listed hfailed hreg
  have hcluster := runs_endSession hcfg hend
  rw [Wire.foldl_post n ecfg (endMessages_ofSession who _)] at hcluster
  have hengine : s'.cluster.engine = s1.cluster.engine := by rw [hcluster]
  rw [hlisted] at hcluster
  refine ⟨tried, opened, missed, hst.drawn, ?_, ?_, fun ds hds => ?_⟩
  · rw [hcluster]
    exact hst.unheard
  · rw [hcluster]
    show s1.cluster.sent ++ _ = _
    rw [hsent, List.append_assoc]
  rw [hengine]
  have hactive : ∀ name, (∀ relay, ¬ ActiveFor relay (delivered n ecfg ds s1.cluster.engine) name
      who.sessionID) ↔
      ¬ Stray n who.sessionID (opened ++ tunnelNames (s.listed t).1) s1.cluster.engine name := by
    intro name
    rw [← not_exists, active_iff_stray hds]
  simp only [hactive]
  constructor
  · refine fun hnone => ⟨fun name hreq hopened hstray => ?_, fun name hmissed => ?_⟩
    · have hmissed : name ∉ missed := by
        intro hmissed
        obtain ⟨relay, hact, _⟩ := hstray
        exact hst.fresh name hmissed relay hact
      have hgained : name ∉ opened ++ missed := by simp [hopened, hmissed]
      refine hnone name hreq ?_
      rwa [stray_append hopened, stray_others hst.gained hgained]
    · have hnot := hnone name (.inl (hst.missed_tried hmissed))
      rw [stray_append (hst.apart name hmissed),
        stray_gained hst.gained (List.mem_append_right _ hmissed), not_not] at hnot
      exact hnot
  · rintro ⟨hbefore, hmissed⟩ name hreq hstray
    by_cases hopened : name ∈ opened
    · rw [stray_gained hst.gained (List.mem_append_left _ hopened)] at hstray
      exact hstray (List.mem_append_left _ hopened)
    rw [stray_append hopened] at hstray
    by_cases hmem : name ∈ missed
    · rw [stray_gained hst.gained (List.mem_append_right _ hmem)] at hstray
      exact hstray (hmissed name hmem)
    · rw [stray_others hst.gained (by simp [hopened, hmem])] at hstray
      exact hbefore name hreq hopened hstray

def demoWired : Config Wire :=
  { rules := demoConfig.rules, pathMatch := demoConfig.pathMatch, netip := demoConfig.netip
    crypto := demoConfig.crypto, cluster := some (Wire.cluster demoNode demoEngineConfig)
    valid := demoConfig.valid }

def wireEval (w : World) (specs : List TunnelSpec) : Option Reply × Server Wire :=
  Runs.eval (objects demoWired) 2 w (registerAndEnd demoWired (demoWho "2") specs)
    (Server.new 60 true demoTokens { engine := Engine.new })

theorem runs_wireEval (w : World) (specs : List TunnelSpec) :
    Runs (objects demoWired) 2 (registerAndEnd demoWired (demoWho "2") specs)
      (new 60 true demoTokens { engine := Engine.new }) (wireEval w specs).1
      (wireEval w specs).2 :=
  of_eval (objects demoWired) 2 w _ _

theorem not_registered {reply : Option Reply} (h : reply.any Reply.isRegistered = false)
    (endpoints : List Endpoint) : reply ≠ some (.registered endpoints) := by
  rintro rfl
  cases h

/-- Every ask is answered: `a` is opened and released, `b` refused. -/
theorem abandoned_claim_inactive_iff_refused :
    ((wireEval { claims := some { now := 0 } } (asksAgain .tcp)).1.any Reply.isRegistered = false) ∧
    ∃ tried opened missed, List.Forall₂ Ask.NameOf ((asksAgain .tcp).take tried.length) tried ∧
      (wireEval { claims := some { now := 0 } } (asksAgain .tcp)).2.cluster.unheard = [] ++ missed ∧
      (wireEval { claims := some { now := 0 } } (asksAgain .tcp)).2.cluster.sent =
        [] ++ (undoMessages (demoWho "2") opened ++ endMessages (demoWho "2") ([], .agentClosed)) ∧
      ∀ ds : List (Claims.Env × Message),
        (ds.map Prod.snd).Perm
          (undoMessages (demoWho "2") opened ++ endMessages (demoWho "2") ([], .agentClosed)) →
        ((∀ name, RequestName (asksAgain .tcp) tried name → ∀ relay,
            ¬ ActiveFor relay (delivered demoNode demoEngineConfig ds
              (wireEval { claims := some { now := 0 } } (asksAgain .tcp)).2.cluster.engine) name
              "2") ↔
          (∀ name, RequestName (asksAgain .tcp) tried name → name ∉ opened →
            ¬ Stray demoNode "2" [] Engine.new name) ∧ ∀ name ∈ missed, name ∈ ([] : List String)) :=
  have hno : (wireEval { claims := some { now := 0 } } (asksAgain .tcp)).1.any
      Reply.isRegistered = false := by decide +kernel
  ⟨hno, abandoned_claim_inactive_iff rfl (not_registered hno)
    (runs_wireEval { claims := some { now := 0 } } (asksAgain .tcp))⟩

/-- The engine accepts the claim of `a` and its reply is lost; the relay gives up
and sends nothing that ends `a`. -/
theorem lost_reply_stays_active :
    Runs (objects demoWired) 2 (registerAndEnd demoWired (demoWho "2") [{ name := "a", type := .tcp }])
      (new 60 true demoTokens { engine := Engine.new })
      (wireEval { lost := [.replyLost { now := 0 }] } [{ name := "a", type := .tcp }]).1
      (wireEval { lost := [.replyLost { now := 0 }] } [{ name := "a", type := .tcp }]).2 ∧
    ((wireEval { lost := [.replyLost { now := 0 }] } [{ name := "a", type := .tcp }]).1.any
      Reply.isRegistered = false) ∧
    ActiveFor "r0" (delivered demoNode demoEngineConfig
      ((wireEval { lost := [.replyLost { now := 0 }] }
        [{ name := "a", type := .tcp }]).2.cluster.sent.map fun m => ({ now := 1 }, m))
      (wireEval { lost := [.replyLost { now := 0 }] }
        [{ name := "a", type := .tcp }]).2.cluster.engine) "a" "2" :=
  ⟨runs_wireEval _ _, by decide +kernel, by decide +kernel⟩

end L8Tunnel.Registrar
