import Mathlib.Data.List.Perm.Basic
import L8Tunnel.Relay.Exchange

/-! # The registry's view of a relay -/

namespace L8Tunnel.Relay
open Base Claims Table Message

def Message.fromSession : Message → Bool
  | .park sessionID _ => sessionID ≠ ""
  | .release sessionID _ => sessionID ≠ ""
  | _ => true

def Lists (st : Status) (name id : String) : Bool :=
  st.any fun s => s.id = id && s.tunnels.any fun t => t.name = name

namespace Exchange

def holds (x : Exchange) (name id : String) : Bool :=
  (x.sessions.get id).any fun s => name ∈ s.names

def ending (x : Exchange) (name id : String) : Bool := x.inFlight.any (Message.ends name id)

def Settled (x : Exchange) : Prop :=
  x.inFlight = [] ∧ ∀ s ∈ x.sessions.values, s.opened = none

def Agrees (relayID : String) (x : Exchange) : Prop :=
  ∀ name id, ActiveFor relayID x.engine name id ↔
    ∃ s ∈ x.sessions.values, s.id = id ∧ ∃ t ∈ s.tunnels, t.name = name

def Converges (n : Node) (R : Exchange → Action → Exchange → Prop) : Prop :=
  ∀ as x, Run R start as x → x.Settled → x.Agrees n.relayID

def Current (x : Exchange) (st : Status) : Prop :=
  (∀ s ∈ x.sessions.values, ∀ name ∈ s.names, Lists st name s.id = true) ∧
    ∀ u ∈ st, ∀ t ∈ u.tunnels, x.holds t.name u.id = true ∨
      x.ending t.name u.id = true ∧ ∀ s ∈ x.sessions.values, t.name ∉ s.names

def Unrivalled (x : Exchange) (id name : String) : Prop :=
  (∀ own ∈ x.sessions.get id, ∀ s ∈ x.sessions.values, s.id ≠ id → name ∈ s.names →
    ∃ r ∈ x.engine.tunnels.get name,
      r.tokenId ≠ own.info.tokenID ∨ r.agentId ≠ own.info.agentID) ∧
    (x.ending name id = true →
      ∃ r ∈ x.engine.tunnels.get name, r.state = .active ∧ r.sessionId = id)

def Timely (x : Exchange) : Action → Prop
  | .claim id c _ => x.Unrivalled id c.name
  | .deliver i _ => ∀ st, x.inFlight[i]? = some (.announce st) → x.Current st
  | _ => True

variable {x y : Exchange} {name id relayID : String} {s : AgentSession} {ms : List Message}

theorem holds_iff : x.holds name id = true ↔ ∃ s, x.sessions.get id = some s ∧ name ∈ s.names := by
  unfold holds
  cases x.sessions.get id with
  | none => simp
  | some s => simp

theorem holds_store : (x.store s).holds name id = true ↔
    if id = s.id then name ∈ s.names else x.holds name id = true := by
  unfold holds store
  rw [get_put]
  by_cases h : id = s.id
  · simp [h]
  · simp [h]

theorem holds_send : (x.send ms).holds name id = x.holds name id := rfl

theorem ending_send : (x.send ms).ending name id = true ↔
    x.ending name id = true ∨ ms.any (ends name id) = true := by
  unfold ending send
  rw [List.any_append, Bool.or_eq_true]

theorem ending_erase {i : ℕ} {m : Message} (h : x.inFlight[i]? = some m) :
    x.ending name id = true ↔
      m.ends name id = true ∨ (x.inFlight.eraseIdx i).any (ends name id) = true := by
  obtain ⟨hi, rfl⟩ := List.getElem?_eq_some_iff.mp h
  unfold ending
  rw [List.any_eq_true, List.any_eq_true]
  constructor
  · rintro ⟨m, hm, he⟩
    rcases List.mem_cons.mp ((List.getElem_cons_eraseIdx_perm hi).mem_iff.mpr hm) with rfl | hm
    · exact .inl he
    · exact .inr ⟨m, hm, he⟩
  · rintro (he | ⟨m, hm, he⟩)
    · exact ⟨_, List.getElem_mem hi, he⟩
    · exact ⟨m, List.mem_of_mem_eraseIdx hm, he⟩

theorem mem_sessions {s : AgentSession} : s ∈ x.sessions.values ↔ x.sessions.get s.id = some s :=
  mem_values _ _

end Exchange

variable {send : List String → Message}

theorem ends_unlessEmpty {sid name id : String}
    (hsend : ∀ names, ends name id (send names) = decide (sid = id ∧ name ∈ names))
    (ts : List TunnelStatus) :
    (unlessEmpty send ts).any (ends name id) = true ↔ sid = id ∧ name ∈ ts.map (·.name) := by
  unfold unlessEmpty
  split
  next h => simp [h]
  next => simp [hsend]

theorem fromSession_unlessEmpty {ts : List TunnelStatus}
    (hsend : ∀ names, (send names).fromSession = true) :
    ∀ m ∈ unlessEmpty send ts, m.fromSession = true := by
  intro m hm
  unfold unlessEmpty at hm
  split at hm
  · cases hm
  · rw [List.mem_singleton.mp hm]
    exact hsend _

namespace Exchange
variable {x y : Exchange} {name id relayID : String} {s : AgentSession} {ms : List Message}

/-- What a session holds is ACTIVE for it, and what is ACTIVE is held or about to be given up.
-/
structure Tracks (relayID : String) (x : Exchange) : Prop where
  held : ∀ name id, x.holds name id = true →
    ActiveFor relayID x.engine name id ∧ x.ending name id = false
  owed : ∀ name id, ActiveFor relayID x.engine name id →
    x.holds name id = true ∨ x.ending name id = true

theorem Tracks.relay (h : Tracks relayID x) (hsame : SameActive x.engine y.engine)
    (hkept : ∀ name id, y.holds name id = true → x.holds name id = true)
    (hgiven : ∀ name id, x.holds name id = true → y.holds name id = true ∨ y.ending name id = true)
    (hsent : ∀ name id, x.ending name id = true → y.ending name id = true)
    (hfair : ∀ name id, y.holds name id = true → y.ending name id = true → x.ending name id = true) :
    Tracks relayID y where
  held name id hy := by
    obtain ⟨hact, hend⟩ := h.held name id (hkept name id hy)
    refine ⟨(hsame relayID name id).mpr hact, Bool.eq_false_iff.mpr fun he => ?_⟩
    rw [hfair name id hy he] at hend
    cases hend
  owed name id hact := by
    rcases h.owed name id ((hsame relayID name id).mp hact) with hx | hx
    · exact hgiven name id hx
    · exact .inr (hsent name id hx)

theorem Tracks.granted (h : Tracks relayID x) {name₀ id₀ : String}
    (hact : ∀ name id, ActiveFor relayID y.engine name id ↔
      if name = name₀ then id = id₀ else ActiveFor relayID x.engine name id)
    (hholds : ∀ name id, y.holds name id = true ↔
      x.holds name id = true ∨ name = name₀ ∧ id = id₀)
    (hending : ∀ name id, y.ending name id = x.ending name id)
    (hsole : ∀ id, x.holds name₀ id = true → id = id₀) (hquiet : x.ending name₀ id₀ = false) :
    Tracks relayID y where
  held name id hy := by
    rw [hact, hending]
    by_cases hname : name = name₀
    · subst hname
      have hid : id = id₀ := ((hholds name id).mp hy).elim (hsole id) fun h => h.2
      rw [if_pos rfl, hid]
      exact ⟨rfl, hquiet⟩
    · rw [if_neg hname]
      exact h.held name id (((hholds name id).mp hy).resolve_right fun h => hname h.1)
  owed name id ha := by
    rw [hact] at ha
    rw [hholds, hending]
    by_cases hname : name = name₀
    · rw [if_pos hname] at ha
      exact .inl (.inr ⟨hname, ha⟩)
    · rw [if_neg hname] at ha
      exact (h.owed name id ha).imp_left .inl

variable {m : Message} {e : Engine}

theorem Tracks.handled (h : Tracks relayID x)
    (hact : ∀ name id, ActiveFor relayID y.engine name id ↔ ActiveFor relayID x.engine name id ∧
      m.ends name id = false)
    (hholds : ∀ name id, y.holds name id = x.holds name id)
    (hending : ∀ name id, x.ending name id = true ↔
      m.ends name id = true ∨ y.ending name id = true) :
    Tracks relayID y where
  held name id hy := by
    obtain ⟨ha, he⟩ := h.held name id (hholds name id ▸ hy)
    have hnot := (hending name id).not.mp (Bool.eq_false_iff.mp he)
    rw [not_or, Bool.not_eq_true, Bool.not_eq_true] at hnot
    exact ⟨(hact name id).mpr ⟨ha, hnot.1⟩, hnot.2⟩
  owed name id ha := by
    obtain ⟨hx, hm⟩ := (hact name id).mp ha
    rw [hholds]
    refine (h.owed name id hx).imp_right fun he => ?_
    exact ((hending name id).mp he).resolve_left (Bool.eq_false_iff.mp hm)

structure Inv (n : Node) (x : Exchange) : Prop where
  owned : Owned n.relayID x.engine
  ids : ∀ id s, x.sessions.get id = some s → id ≠ "" ∧ id ∈ x.used
  distinct : ∀ id s, x.sessions.get id = some s → s.names.Nodup
  senders : ∀ m ∈ x.inFlight, m.fromSession = true
  tracks : x.Tracks n.relayID

theorem inv_start (n : Node) : start.Inv n where
  owned m r h := by simp [start, Engine.new] at h
  ids id s h := by simp [start] at h
  distinct id s h := by simp [start] at h
  senders m h := by simp [start] at h
  tracks :=
    ⟨fun name id h => by simp [holds, start] at h,
      fun name id h => absurd h (activeFor_none (by simp [start, Engine.new]))⟩

variable {n : Node} {opened : List TunnelStatus}

theorem idle_some (h : x.idle id = some s) : x.sessions.get id = some s ∧ s.opened = none := by
  obtain ⟨hget, hopen⟩ := Option.filter_eq_some_iff.mp h
  exact ⟨hget, by simpa using hopen⟩

theorem registering_some (h : x.registering id = some (s, opened)) :
    x.sessions.get id = some s ∧ s.opened = some opened := by
  obtain ⟨s', hget, hopen⟩ := Option.bind_eq_some_iff.mp h
  obtain ⟨os, hos, heq⟩ := Option.map_eq_some_iff.mp hopen
  cases heq
  exact ⟨hget, hos⟩

theorem Inv.sent (h : x.Inv n) (hfrom : ∀ m ∈ ms, m.fromSession = true)
    (hquiet : ∀ name id, ms.any (ends name id) = false) : (x.send ms).Inv n where
  owned := h.owned
  ids := h.ids
  distinct := h.distinct
  senders m hm := (List.mem_append.mp hm).elim (h.senders m) (hfrom m)
  tracks := by
    have hend : ∀ name id, (x.send ms).ending name id = true → x.ending name id = true := by
      intro name id he
      rw [ending_send, hquiet] at he
      simpa using he
    exact h.tracks.relay (fun _ _ _ => Iff.rfl) (fun _ _ hy => hy) (fun _ _ hx => .inl hx)
      (fun _ _ hx => ending_send.mpr (.inl hx)) (fun name id _ he => hend name id he)

theorem Inv.stored (h : x.Inv n) (s' : AgentSession) (ms : List Message) (hget : x.sessions.get id = some s)
    (hid : s'.id = id) (hfrom : ∀ m ∈ ms, m.fromSession = true)
    (hnodup : s'.names.Nodup) (hsub : ∀ name ∈ s'.names, name ∈ s.names)
    (hgiven : ∀ name ∈ s.names, name ∈ s'.names ∨ ms.any (ends name id) = true)
    (honly : ∀ name id', ms.any (ends name id') = true → id' = id ∧ name ∉ s'.names) :
    ((x.store s').send ms).Inv n where
  owned := h.owned
  ids := forall_put h.ids (hid ▸ h.ids id s hget)
  distinct := forall_put h.distinct hnodup
  senders m hm := (List.mem_append.mp hm).elim (h.senders m) (hfrom m)
  tracks := by
    have hown : ∀ name, x.holds name id = true ↔ name ∈ s.names := by
      intro name
      rw [holds_iff, hget]
      simp
    refine h.tracks.relay (fun _ _ _ => Iff.rfl) ?_ ?_ ?_ ?_
    · intro name i hy
      rw [holds_send, holds_store, hid] at hy
      split at hy
      next hi =>
        rw [hi, hown]
        exact hsub name hy
      next => exact hy
    · intro name i hx
      rw [holds_send, holds_store, ending_send, hid]
      by_cases hi : i = id
      · subst hi
        rw [if_pos rfl]
        exact (hgiven name ((hown name).mp hx)).imp_right .inr
      · rw [if_neg hi]
        exact .inl hx
    · exact fun name i hx => ending_send.mpr (.inl hx)
    · intro name i hy he
      rw [ending_send] at he
      refine he.resolve_right fun hm => ?_
      obtain ⟨hi, hnot⟩ := honly name i hm
      rw [holds_send, holds_store, hid, if_pos hi] at hy
      exact hnot hy

theorem send_nil (x : Exchange) : x.send [] = x := by
  simp [send]

theorem Inv.renamed (h : x.Inv n) {s' : AgentSession} (hget : x.sessions.get id = some s)
    (hid : s'.id = s.id) (hnames : s'.names = s.names) : (x.store s').Inv n := by
  have hstored := h.stored s' [] hget (hid.trans (key_of_get hget)) (by simp)
    (hnames ▸ h.distinct id s hget) (fun name hname => hnames ▸ hname)
    (fun name hname => .inl (hnames ▸ hname)) (by simp)
  rwa [send_nil] at hstored

theorem Inv.rolledBack (h : x.Inv n) (hreg : x.registering id = some (s, opened)) :
    (x.rollback s opened).Inv n := by
  obtain ⟨hget, hopen⟩ := registering_some hreg
  have hid : s.id = id := key_of_get hget
  have hne : s.id ≠ "" := hid ▸ (h.ids id s hget).1
  have hnames : s.names = s.tunnels.map (·.name) ++ opened.map (·.name) := by
    simp [AgentSession.names, hopen]
  have hkept : ({ s with opened := none } : AgentSession).names = s.tunnels.map (·.name) := by
    simp [AgentSession.names]
  have hnodup := h.distinct id s hget
  rw [hnames, List.nodup_append] at hnodup
  have hends : ∀ name i, (unlessEmpty (release s.id) opened).any (ends name i) = true ↔
      s.id = i ∧ name ∈ opened.map (·.name) :=
    fun name i => ends_unlessEmpty (fun _ => rfl) opened
  refine h.stored _ _ hget hid ?_ ?_ ?_ ?_ ?_
  · exact fromSession_unlessEmpty fun names => by simpa [fromSession] using hne
  · rw [hkept]
    exact hnodup.1
  · intro name hname
    rw [hkept] at hname
    rw [hnames]
    exact List.mem_append_left _ hname
  · intro name hname
    rw [hkept, hends]
    rw [hnames] at hname
    exact (List.mem_append.mp hname).imp_right fun ho => ⟨hid, ho⟩
  · intro name i he
    obtain ⟨hi, ho⟩ := (hends name i).mp he
    rw [hkept]
    exact ⟨hi.symm.trans hid, fun ht => hnodup.2.2 name ht name ho rfl⟩

theorem Inv.connected (h : x.Inv n) {a : AgentInfo} (hne : a.sessionID ≠ "")
    (hnew : a.sessionID ∉ x.used) (remote : String) :
    Inv n (({ x with used := a.sessionID :: x.used }.store { info := a, remote := remote }).send
      [.agentUp a]) := by
  have hnone : x.sessions.get a.sessionID = none := by
    cases hget : x.sessions.get a.sessionID with
    | none => rfl
    | some s => exact absurd (h.ids _ s hget).2 hnew
  have hfree : ∀ name, x.holds name a.sessionID = false := by
    intro name
    simp [holds, hnone]
  have hids : ∀ i t, x.sessions.get i = some t → i ≠ "" ∧ i ∈ a.sessionID :: x.used :=
    fun i t ht => ⟨(h.ids i t ht).1, List.mem_cons_of_mem _ (h.ids i t ht).2⟩
  refine Inv.sent ⟨h.owned, forall_put hids ⟨hne, List.mem_cons_self⟩,
    forall_put h.distinct List.nodup_nil, h.senders, ?_⟩ (by simp [fromSession])
    (by simp [ends])
  · have hsame : ∀ name i,
        (store { x with used := a.sessionID :: x.used } { info := a, remote := remote }).holds name i =
          true ↔ x.holds name i = true := by
      intro name i
      rw [holds_store]
      split
      next hi =>
        rw [hi]
        exact iff_of_false (List.not_mem_nil) (by simp [AgentSession.id, hfree])
      next => exact Iff.rfl
    exact h.tracks.relay (fun _ _ _ => Iff.rfl) (fun name i => (hsame name i).mp)
      (fun name i hx => .inl ((hsame name i).mpr hx)) (fun _ _ hx => hx) (fun _ _ _ he => he)

theorem holds_finish {reason : DisconnectReason} : (x.finish s reason).holds name id = true ↔
    id ≠ s.id ∧ x.holds name id = true := by
  show ((x.sessions.del s.id).get id).any _ = true ↔ _
  rw [get_del]
  by_cases hi : id = s.id
  · simp [hi]
  · simp [hi, holds]

theorem Inv.finished (h : x.Inv n) (hidle : x.idle id = some s) (reason : DisconnectReason) :
    (x.finish s reason).Inv n := by
  obtain ⟨hget, hopen⟩ := idle_some hidle
  have hid : s.id = id := key_of_get hget
  have hne : s.id ≠ "" := hid ▸ (h.ids id s hget).1
  have hnames : s.names = s.tunnels.map (·.name) := by
    simp [AgentSession.names, hopen]
  have hends : ∀ name i,
      (.agentDown s.info.agentID s.id reason :: closeTunnels s reason).any (ends name i) = true ↔
        s.id = i ∧ name ∈ s.names := by
    intro name i
    rw [List.any_cons, hnames]
    show (false || (closeTunnels s reason).any _) = true ↔ _
    rw [Bool.false_or]
    refine ends_unlessEmpty (fun names => ?_) s.tunnels
    split
    · rfl
    · rfl
  have hdel : ∀ name i, (x.finish s reason).holds name i = true ↔ i ≠ id ∧ x.holds name i = true :=
    fun name i => hid ▸ holds_finish
  refine ⟨h.owned, forall_del h.ids, forall_del h.distinct, ?_, ?_⟩
  · intro m hm
    refine (List.mem_append.mp hm).elim (h.senders m) fun hm => ?_
    rcases List.mem_cons.mp hm with rfl | hm
    · rfl
    · refine fromSession_unlessEmpty (fun names => ?_) m hm
      split
      · simpa [fromSession] using hne
      · simpa [fromSession] using hne
  · refine h.tracks.relay (fun _ _ _ => Iff.rfl) (fun name i hy => ((hdel name i).mp hy).2) ?_
      (fun name i hx => ending_send.mpr (.inl hx)) ?_
    · intro name i hx
      by_cases hi : i = id
      · obtain ⟨t, ht, hname⟩ := holds_iff.mp hx
        rw [hi, hget] at ht
        cases ht
        exact .inr (ending_send.mpr (.inr ((hends name i).mpr ⟨hid.trans hi.symm, hname⟩)))
      · exact .inl ((hdel name i).mpr ⟨hi, hx⟩)
    · intro name i hy he
      refine (ending_send.mp he).resolve_right fun hm => ?_
      exact ((hdel name i).mp hy).1 (((hends name i).mp hm).1.symm.trans hid)

theorem Inv.engine (h : x.Inv n) (hown : Owned n.relayID e) (hsame : SameActive x.engine e) :
    Inv n { x with engine := e } where
  owned := hown
  ids := h.ids
  distinct := h.distinct
  senders := h.senders
  tracks := h.tracks.relay hsame (fun _ _ hy => hy) (fun _ _ hx => .inl hx) (fun _ _ hx => hx)
    (fun _ _ _ he => he)

variable {cfg : Config} {env : Env}

theorem Inv.swept (h : x.Inv n) (hin : x.engine.inTime cfg env = true) :
    Inv n { x with engine := x.engine.sweep cfg env } :=
  h.engine (h.owned.upkeep (Engine.sweep_upkeep _ _ _)) (Engine.sweep_active hin)

theorem claimTunnel_active (hn : n.relayID ≠ "") (cfg : Config) (env : Env) (c : ClaimRequest)
    (e : Engine) :
    (∃ r, (∀ p, r ≠ .port p) ∧ claimTunnel cfg n.relayID c [] (some env) e = (e, r)) ∨
      ∃ e' p, claimTunnel cfg n.relayID c [] (some env) e = (e', .port p) ∧
        (Owned n.relayID e → Owned n.relayID e') ∧
        (∀ old, e.tunnels.get c.name = some old → old.tokenId = c.tokenID ∧
          (old.state = .active → old.agentId = c.agentID ∧ old.sessionId ≠ c.sessionID)) ∧
        ∀ name id, ActiveFor n.relayID e' name id ↔
          if name = c.name then id = c.sessionID else ActiveFor n.relayID e name id := by
  cases htyp : tunnelTypeOf c.type with
  | error msg => exact .inl ⟨.invalidType msg, by simp, by simp [claimTunnel, htyp]⟩
  | ok typ =>
  have hclaim : e.handle cfg env (claimRequest n.relayID c typ) =
      e.claim cfg env (claimRequest n.relayID c typ) := handle_claim rfl hn
  have hown : Owned n.relayID e →
      Owned n.relayID (e.handle cfg env (claimRequest n.relayID c typ)).1 :=
    fun h => Owned.handle h cfg env
  have hresult : claimTunnel cfg n.relayID c [] (some env) e =
      ((e.claim cfg env (claimRequest n.relayID c typ)).1,
        resultOf (e.claim cfg env (claimRequest n.relayID c typ)).2) := by
    simp only [claimTunnel, htyp, answered, failed, hclaim]
  have hone : (claimRequest n.relayID c typ).tunnels = [claimSpec c typ] := rfl
  rw [hresult]
  rcases claim_active hone cfg env e with ⟨hsame, herr⟩ | ⟨⟨rec, hresp⟩, hold, hact⟩
  · refine .inl ⟨_, fun p => ?_, by rw [hsame]⟩
    rw [resultOf, if_pos herr]
    simp
  · rw [hresp]
    exact .inr ⟨_, _, rfl, hclaim ▸ hown, hold, hact⟩

theorem Inv.claimed (h : x.Inv n) (hn : n.relayID ≠ "") (hreg : x.registering id = some (s, opened))
    {c : ClaimRequest} (hfree : x.Unrivalled id c.name) : (x.claim n cfg env c s opened).Inv n := by
  obtain ⟨hget, hopen⟩ := registering_some hreg
  have hid : s.id = id := key_of_get hget
  rcases claimTunnel_active hn cfg env (s.claimFor c) x.engine with
    ⟨r, hr, hc⟩ | ⟨e, p, hc, hown, hold, hact⟩
  · have hx : x.claim n cfg env c s opened = x.rollback s opened := by
      unfold claim
      rw [hc]
      cases r with
      | port p => exact absurd rfl (hr p)
      | _ => rfl
    rw [hx]
    exact h.rolledBack hreg
  · have hx : x.claim n cfg env c s opened = { x with engine := e }.store
        { s with opened := some (opened ++ [openTunnel c p]) } := by
      unfold claim
      rw [hc]
    rw [hx]
    have hnames : ({ s with opened := some (opened ++ [openTunnel c p]) } : AgentSession).names =
        s.names ++ [c.name] := by
      simp [AgentSession.names, hopen, openTunnel]
    -- the engine would have refused a name the session has
    have hnew : c.name ∉ s.names := by
      intro hname
      obtain ⟨old, hr, hstate, _, hsess⟩ := (h.tracks.held c.name id (holds_iff.mpr ⟨s, hget, hname⟩)).1
      exact (((hold old hr).2 hstate).2) (hsess.trans hid.symm)
    refine ⟨hown h.owned, forall_put h.ids (hid ▸ h.ids id s hget),
      forall_put h.distinct ?_, h.senders, h.tracks.granted hact ?_ (fun _ _ => rfl) ?_ ?_⟩
    · rw [hnames]
      exact List.nodup_append.mpr ⟨h.distinct id s hget, List.nodup_singleton _,
        fun a ha b hb hab => hnew (List.mem_singleton.mp hb ▸ hab ▸ ha)⟩
    · intro name i
      show _ ↔ _ ∨ name = c.name ∧ i = s.id
      rw [holds_store, hnames]
      show (if i = s.id then _ else _) ↔ _
      by_cases hi : i = s.id
      · rw [if_pos hi, List.mem_append, List.mem_singleton, hi, hid, holds_iff, hget]
        simp
      · rw [if_neg hi, or_iff_left fun h => hi h.2]
        exact Iff.rfl
    · -- another session that has the name is another token's or agent's
      intro i hx
      by_contra hi
      obtain ⟨t, ht, hmem⟩ := holds_iff.mp hx
      have hti : t.id = i := key_of_get ht
      obtain ⟨r, hr, hother⟩ := hfree.1 s hget t (mem_sessions.mpr (hti.symm ▸ ht))
        (fun h => hi (hti.symm.trans (h.trans hid.symm))) hmem
      obtain ⟨r', hr', hstate, _⟩ := (h.tracks.held c.name i hx).1
      cases hr.symm.trans hr'
      obtain ⟨htok, hag⟩ := hold r hr
      exact hother.elim (fun h => h htok) fun h => h (hag hstate).1
    · refine Bool.eq_false_iff.mpr fun he => ?_
      have he' : x.ending c.name s.id = true := he
      rw [hid] at he'
      obtain ⟨r, hr, hstate, hsess⟩ := hfree.2 he'
      exact ((hold r hr).2 hstate).2 (hsess.trans hid.symm)

theorem handle_active (hn : n.relayID ≠ "") (hfrom : m.fromSession = true)
    (hother : ∀ st, m ≠ .announce st) (e : Engine) :
    ActiveFor n.relayID (e.handle cfg env (m.request n)).1 name id ↔
      ActiveFor n.relayID e name id ∧ m.ends name id = false := by
  have hkeep : ∀ e' : Engine, SameActive e e' →
      (ActiveFor n.relayID e' name id ↔ ActiveFor n.relayID e name id ∧ false = false) :=
    fun e' h => (h n.relayID name id).trans (by simp)
  cases m with
  | park sid names =>
    have hsid : sid ≠ "" := by simpa [fromSession] using hfrom
    rw [handle_park hn]
    refine activeFor_park.trans (and_congr_right fun _ => ?_)
    show _ ↔ decide (sid = id ∧ name ∈ names) = false
    rw [decide_eq_false_iff_not]
    exact not_congr ⟨fun h => ⟨(h.2.2.resolve_left hsid).symm, h.1⟩,
      fun h => ⟨h.2, rfl, .inr h.1.symm⟩⟩
  | release sid names =>
    have hsid : sid ≠ "" := by simpa [fromSession] using hfrom
    rw [handle_release hn]
    refine activeFor_release.trans (and_congr_right fun _ => ?_)
    show _ ↔ decide (sid = id ∧ name ∈ names) = false
    rw [decide_eq_false_iff_not]
    exact not_congr ⟨fun h => ⟨(h.2.2.resolve_left hsid).symm, h.1⟩,
      fun h => ⟨h.2, rfl, .inr h.1.symm⟩⟩
  | announce st => exact absurd rfl (hother st)
  | heartbeat st =>
    have hcall : (e.handle cfg env ((heartbeat st).request n)).1 =
        e.heartbeat env (n.heartbeatRequest st) := congrArg Prod.fst (if_neg hn)
    rw [hcall]
    exact hkeep _ (Engine.heartbeat_active e env _)
  | agentUp a =>
    have hcall : (e.handle cfg env ((agentUp a).request n)).1 =
        (e.agentUp cfg env (agentUpRequest n.relayID a)).1 := congrArg Prod.fst (if_neg hn)
    rw [hcall]
    exact hkeep _ (Engine.agentUp_active e cfg env _)
  | agentDown agentID sid reason =>
    rw [handle_agentDown hn]
    exact hkeep _ (Engine.agentDown_active e cfg env _)

theorem announce_active (hn : n.relayID ≠ "") (hown : Owned n.relayID e) (st : Status) :
    (ActiveFor n.relayID (e.handle cfg env (n.announceRequest st)).1 name id →
        ∃ u ∈ st, u.id = id ∧ ∃ t ∈ u.tunnels, t.name = name) ∧
      (Lists st name id = true →
        ∃ id', ActiveFor n.relayID (e.handle cfg env (n.announceRequest st)).1 name id') := by
  have hcall : (e.handle cfg env (n.announceRequest st)).1 =
      (e.announce cfg env (n.announceRequest st)).1 := congrArg Prod.fst (if_neg hn)
  have hann := announceRequest_announces hn cfg st
  have hact : ∀ id', ActiveFor n.relayID (e.handle cfg env (n.announceRequest st)).1 name id' ↔
      ∃ t, (listings cfg (state st).1 name).getLast? = some t ∧ t.sessionId = id' := by
    intro id'
    rw [hcall]
    exact activeFor_announce hann hown fun t ht => state_active ht
  constructor
  · intro ha
    obtain ⟨r, hr, hsess⟩ := (hact id).mp ha
    obtain ⟨hstate, hname⟩ := mem_listings_state.mp (List.mem_of_getLast? hr)
    obtain ⟨u, hu, t, ht, rfl⟩ := mem_state.mp hstate
    exact ⟨u, hu, hsess, t, ht, hname⟩
  · intro hl
    unfold Lists at hl
    obtain ⟨u, hu, hlu⟩ := List.any_eq_true.mp hl
    obtain ⟨_, hany⟩ := Bool.and_eq_true_iff.mp hlu
    obtain ⟨t, ht, hname⟩ := List.any_eq_true.mp hany
    have hmem : liveTunnel u t ∈ listings cfg (state st).1 name :=
      mem_listings_state.mpr ⟨mem_state.mpr ⟨u, hu, t, ht, rfl⟩, of_decide_eq_true hname⟩
    cases hlast : (listings cfg (state st).1 name).getLast? with
    | none =>
      rw [List.getLast?_eq_none_iff.mp hlast] at hmem
      cases hmem
    | some r => exact ⟨r.sessionId, (hact _).mpr ⟨r, hlast, rfl⟩⟩

theorem Tracks.announced (h : Tracks n.relayID x) (hn : n.relayID ≠ "")
    (hown : Owned n.relayID x.engine) {st : Status} (hcur : x.Current st)
    (hengine : y.engine = (x.engine.handle cfg env (n.announceRequest st)).1)
    (hholds : ∀ name id, y.holds name id = x.holds name id)
    (hending : ∀ name id, y.ending name id = x.ending name id) : Tracks n.relayID y := by
  have hlast : ∀ name id, ActiveFor n.relayID y.engine name id →
      x.holds name id = true ∨
        x.ending name id = true ∧ ∀ s ∈ x.sessions.values, name ∉ s.names := by
    intro name id ha
    rw [hengine] at ha
    obtain ⟨u, hu, rfl, t, ht, rfl⟩ := (announce_active hn hown st).1 ha
    exact hcur.2 u hu t ht
  constructor
  · intro name id hy
    rw [hholds] at hy
    obtain ⟨hact, he⟩ := h.held name id hy
    obtain ⟨s, hget, hname⟩ := holds_iff.mp hy
    have hid : s.id = id := key_of_get hget
    have hs : s ∈ x.sessions.values := mem_sessions.mpr (hid.symm ▸ hget)
    obtain ⟨id', ha⟩ := (announce_active hn hown st).2 (hcur.1 s hs name hname)
    rw [← hengine] at ha
    -- whoever the last listing names holds the name too
    have hx : x.holds name id' = true := (hlast name id' ha).resolve_right fun h => h.2 s hs hname
    have hsame : id = id' := hact.unique (h.held name id' hx).1
    rw [hending]
    exact ⟨hsame ▸ ha, he⟩
  · intro name id ha
    rw [hholds, hending]
    exact (hlast name id ha).imp_right fun h => h.1

theorem Inv.delivered (h : x.Inv n) (hn : n.relayID ≠ "") {i : ℕ} (hm : x.inFlight[i]? = some m)
    (hcur : ∀ st, m = .announce st → x.Current st) :
    Inv n { x with
      engine := (x.engine.handle cfg env (m.request n)).1, inFlight := x.inFlight.eraseIdx i } where
  owned := by
    have hown : Owned (m.request n).relayId x.engine := by
      rw [request_relayId]
      exact h.owned
    have hafter := hown.handle cfg env
    rwa [request_relayId] at hafter
  ids := h.ids
  distinct := h.distinct
  senders m hm := h.senders m (List.mem_of_mem_eraseIdx hm)
  tracks := by
    have hfrom := h.senders m (List.mem_of_getElem? hm)
    have hending : ∀ name id, x.ending name id = true ↔ m.ends name id = true ∨
        (x.inFlight.eraseIdx i).any (ends name id) = true := fun name id => ending_erase hm
    by_cases hann : ∃ st, m = .announce st
    · obtain ⟨st, rfl⟩ := hann
      refine h.tracks.announced hn h.owned (hcur st rfl) rfl (fun _ _ => rfl) fun name id => ?_
      rw [Bool.eq_iff_iff]
      exact ((hending name id).trans (or_iff_right Bool.false_ne_true)).symm
    · exact h.tracks.handled
        (fun name id => handle_active hn hfrom (fun st hst => hann ⟨st, hst⟩) x.engine)
        (fun _ _ => rfl) hending

theorem inv_step (hn : n.relayID ≠ "") (x : Exchange) (a : Action) (y : Exchange) (h : x.Inv n)
    (hs : Guarded Timely (Step n cfg) x a y) : y.Inv n := by
  obtain ⟨htimely, hstep⟩ := hs
  unfold Step next at hstep
  cases a with
  | connect a remote =>
    dsimp only at hstep
    split at hstep
    · cases hstep
    next hok =>
      cases hstep
      rw [not_or] at hok
      exact h.connected hok.1 hok.2 remote
  | register id =>
    obtain ⟨s, hidle, rfl⟩ := Option.map_eq_some_iff.mp hstep
    obtain ⟨hget, hopen⟩ := idle_some hidle
    exact h.renamed hget rfl (by simp [AgentSession.names, hopen])
  | claim id c env =>
    obtain ⟨⟨s, opened⟩, hreg, rfl⟩ := Option.map_eq_some_iff.mp hstep
    exact h.claimed hn hreg htimely
  | abort id =>
    obtain ⟨⟨s, opened⟩, hreg, rfl⟩ := Option.map_eq_some_iff.mp hstep
    exact h.rolledBack hreg
  | complete id =>
    obtain ⟨⟨s, opened⟩, hreg, rfl⟩ := Option.map_eq_some_iff.mp hstep
    obtain ⟨hget, hopen⟩ := registering_some hreg
    exact h.renamed hget rfl (by simp [AgentSession.names, hopen])
  | finish id reason =>
    obtain ⟨s, hidle, rfl⟩ := Option.map_eq_some_iff.mp hstep
    exact h.finished hidle reason
  | announce m order =>
    cases hstep
    exact h.sent (by simp [fromSession]) (by simp [ends])
  | heartbeat m order =>
    cases hstep
    exact h.sent (by simp [fromSession]) (by simp [ends])
  | deliver i env =>
    obtain ⟨m, hm, rfl⟩ := Option.map_eq_some_iff.mp hstep
    exact h.delivered hn hm fun st hst => htimely st (hst ▸ hm)
  | sweep env =>
    dsimp only at hstep
    split at hstep
    next hin =>
      cases hstep
      exact h.swept hin
    next => cases hstep

theorem Settled.holds (h : x.Settled) : x.holds name id = true ↔
    ∃ s ∈ x.sessions.values, s.id = id ∧ ∃ t ∈ s.tunnels, t.name = name := by
  have hnames : ∀ s ∈ x.sessions.values, (name ∈ s.names ↔ ∃ t ∈ s.tunnels, t.name = name) := by
    intro s hs
    simp [AgentSession.names, h.2 s hs]
  rw [holds_iff]
  constructor
  · rintro ⟨s, hget, hname⟩
    have hid : s.id = id := key_of_get hget
    have hs : s ∈ x.sessions.values := mem_sessions.mpr (hid.symm ▸ hget)
    exact ⟨s, hs, hid, (hnames s hs).mp hname⟩
  · rintro ⟨s, hs, rfl, hlist⟩
    exact ⟨s, mem_sessions.mp hs, (hnames s hs).mpr hlist⟩

/-- The registry's view of a relay converges along every run in which each
announcement is up to date when it arrives and no claim meets a rival. -/
theorem converges_of_timely (n : Node) (cfg : Config) (hn : n.relayID ≠ "") :
    Converges n (Guarded Timely (Step n cfg)) := by
  intro as x hrun hsettled name id
  have hinv : x.Inv n := hrun.invariant (inv_step hn) (inv_start n)
  have hquiet : x.ending name id = false := by
    simp [ending, hsettled.1]
  rw [← hsettled.holds]
  constructor
  · intro hact
    exact (hinv.tracks.owed name id hact).resolve_right (Bool.eq_false_iff.mp hquiet)
  · exact fun hx => (hinv.tracks.held name id hx).1

def sampleNode : Node := { relayID := "r0" }

def sampleInfo : AgentInfo :=
  { sessionID := "s1", agentID := "a1", tokenID := "tok1", connectedAt := 10 }

def sampleTunnel : ClaimRequest :=
  { sessionID := "", agentID := "", tokenID := "", tunnelID := "t1", name := "n", type := .http }

def announcedAfter : List Action :=
  [.connect sampleInfo "192.0.2.1:4000", .register "s1", .claim "s1" sampleTunnel { now := 0 },
    .complete "s1", .announce {} RangeOrder.stored, .deliver 0 { now := 0 }, .deliver 0 { now := 0 }]

def announcedBefore : List Action :=
  [.connect sampleInfo "192.0.2.1:4000", .register "s1", .claim "s1" sampleTunnel { now := 0 },
    .announce {} RangeOrder.stored, .complete "s1", .deliver 0 { now := 0 }, .deliver 0 { now := 0 }]

theorem announced_after_converges : ∃ x,
    Run (Guarded Timely (Step sampleNode sampleConfig)) start announcedAfter x ∧
      x.Settled ∧ x.Agrees "r0" ∧ ActiveFor "r0" x.engine "n" "s1" := by
  have hrun : ∃ x, Run (Guarded Timely (Step sampleNode sampleConfig)) start announcedAfter x ∧
      x.Settled ∧ ActiveFor "r0" x.engine "n" "s1" := by
    refine ⟨_, .cons ⟨trivial, rfl⟩ (.cons ⟨trivial, rfl⟩ (.cons ⟨?_, rfl⟩ (.cons ⟨trivial, rfl⟩
      (.cons ⟨trivial, rfl⟩ (.cons ⟨?_, rfl⟩ (.cons ⟨?_, rfl⟩ (.nil _))))))), ?_, ?_⟩
    · show Unrivalled _ _ _
      unfold Unrivalled
      decide
    · intro st h
      cases h
    · intro st h
      cases h
      unfold Current
      decide
    · unfold Settled
      decide
    · exact ⟨_, rfl, rfl, rfl, rfl⟩
  obtain ⟨x, hrun, hsettled, hact⟩ := hrun
  exact ⟨x, hrun, hsettled,
    converges_of_timely sampleNode sampleConfig (by decide) _ x hrun hsettled, hact⟩

/-- The announcement was taken before the session listed the tunnel and arrives
after: the tunnel is parked and stays so, although its session lists it. -/
theorem announced_before_parked : ¬ Converges sampleNode (Step sampleNode sampleConfig) := by
  intro h
  have hrun : ∃ x, Run (Step sampleNode sampleConfig) start announcedBefore x ∧ x.Settled ∧
      (∃ s ∈ x.sessions.values, s.id = "s1" ∧ ∃ t ∈ s.tunnels, t.name = "n") ∧
      ∃ r, x.engine.tunnels.get "n" = some r ∧ r.state = .grace := by
    refine ⟨_, .cons rfl (.cons rfl (.cons rfl (.cons rfl (.cons rfl (.cons rfl (.cons rfl
      (.nil _))))))), ?_, ?_, ⟨_, rfl, rfl⟩⟩
    · unfold Settled
      decide
    · decide
  obtain ⟨x, hrun, hsettled, hlists, r, hr, hgrace⟩ := hrun
  have hact := (h _ x hrun hsettled "n" "s1").mpr hlists
  rw [activeFor_some hr, hgrace] at hact
  cases hact.1

end Exchange
end L8Tunnel.Relay
