import L8Tunnel.Auth.RateLimit
import L8Tunnel.Edge.Status

/-! # Alert rules (tun/alerts/evaluate.go) -/

namespace L8Tunnel.Alerts
open Base GoSort Auth Edge

inductive TunAlertCondition where
  | unspecified | relayLost | noReadyRelay | edgePoolDown | certExpiring | edgeListenerFailed
  | tokenOffline | agentOffline
  | unknown (code : Int32)
  deriving DecidableEq

def TunAlertCondition.string : TunAlertCondition → String
  | .unspecified => "TUN_ALERT_CONDITION_UNSPECIFIED"
  | .relayLost => "TUN_ALERT_CONDITION_RELAY_LOST"
  | .noReadyRelay => "TUN_ALERT_CONDITION_NO_READY_RELAY"
  | .edgePoolDown => "TUN_ALERT_CONDITION_EDGE_POOL_DOWN"
  | .certExpiring => "TUN_ALERT_CONDITION_CERT_EXPIRING"
  | .edgeListenerFailed => "TUN_ALERT_CONDITION_EDGE_LISTENER_FAILED"
  | .tokenOffline => "TUN_ALERT_CONDITION_TOKEN_OFFLINE"
  | .agentOffline => "TUN_ALERT_CONDITION_AGENT_OFFLINE"
  | .unknown code => toString code.toInt

structure TunAlertRule where
  ruleId : String := ""
  name : String := ""
  condition : TunAlertCondition
  threshold : Int32 := 0
  tokenId : String := ""
  agentId : String := ""
  cooldownMinutes : Int32 := 0
  enabled : Bool := true
  lastFired : ℤ := 0

structure EdgeNode where
  edgeId : String
  lastSeen : ℤ
  listeners : List EdgeListenerStatus
  backends : List EdgeBackendStatus
  simulated : Bool

/-- What the evaluator is given at a call; data it could not fetch has its flag false. -/
structure Snapshot where
  now : ℤ
  liveOK : Bool := false
  relays : List TunRelay := []
  agents : List TunAgent := []
  edgeOK : Bool := false
  nodes : List EdgeNode := []
  domains : List EdgeDomainRow := []

structure Firing where
  rule : TunAlertRule
  subject : String
  message : String

/-- The memory between calls: since when a watched subject has had no record. -/
structure Evaluator where
  missingSince : GoMap String ℤ := ∅

/-- `time.Unix(sec, 0)` in nanoseconds since 1970. The seconds are counted from
year 1 in 64 bits, so one near the end of `int64` wraps into the past. -/
def timeUnix (sec : ℤ) : ℤ :=
  ((sec + 62135596800).bmod 18446744073709551616 - 62135596800) * 1000000000

def unixOf (t : ℤ) : ℤ := t / 1000000000

/-- A product of a `time.Duration`, which wraps at 64 bits. -/
def duration (d : ℤ) : ℤ := d.bmod 18446744073709551616

def minute : ℤ := 60000000000
def day : ℤ := 86400000000000
def edgeStale : ℤ := 2 * minute
def defaultCooldownMinutes : ℤ := 60

section
variable (format : ℤ → String)

def stamp (unix : ℤ) : String := if unix = 0 then "never" else format unix
def orNone (s : String) : String := if s = "" then "no error recorded" else s

def ports (l : EdgeListenerStatus) : String :=
  if l.portEnd > l.port then toString l.port.toInt ++ "-" ++ toString l.portEnd.toInt
  else toString l.port.toInt

def countReal (relays : List TunRelay) : ℕ := relays.countP fun r => !r.simulated

def liveNodes (s : Snapshot) : List EdgeNode :=
  s.nodes.filter fun n => !n.simulated && decide (timeSub s.now (timeUnix n.lastSeen) ≤ edgeStale)

def conditionText (r : TunAlertRule) : String :=
  match r.condition with
  | .relayLost => "Relays lost"
  | .noReadyRelay => "No relay is ready"
  | .edgePoolDown => "Edge backends down"
  | .edgeListenerFailed => "Edge listeners that couldn't bind"
  | .certExpiring => "Certificates expiring within " ++ toString r.threshold.toInt ++ " days"
  | .tokenOffline => "Offline for more than " ++ toString r.threshold.toInt ++ " minutes"
  | .agentOffline => "Offline for more than " ++ toString r.threshold.toInt ++ " minutes"
  | c => c.string

def lostRelays (s : Snapshot) : List String :=
  (s.relays.filter fun rl => !rl.simulated && rl.state = .down).map fun rl =>
    "relay " ++ rl.relayId ++ ", last seen " ++ stamp format rl.lastSeen

def noReadyRelay (s : Snapshot) : List String :=
  if s.relays.any fun rl => !rl.simulated && rl.state = .ready then []
  else [toString (countReal s.relays) ++ " relays known, none ready"]

def downBackends (s : Snapshot) : List String :=
  (liveNodes s).flatMap fun n => (n.backends.filter fun b => !b.healthy).map fun b =>
    "edge " ++ n.edgeId ++ ": " ++ b.domain ++ " port " ++ toString b.listenPort.toInt ++
      ", backend " ++ b.target ++ " down (" ++ orNone b.lastError ++ ")"

def failedListeners (s : Snapshot) : List String :=
  (liveNodes s).flatMap fun n => (n.listeners.filter fun l => !l.bound).map fun l =>
    "edge " ++ n.edgeId ++ ": port " ++ ports l ++ " for " ++ GoString.join l.domains ", " ++ ": " ++
      orNone l.error

def expiringCerts (r : TunAlertRule) (s : Snapshot) : List String :=
  let before := unixOf (s.now + duration (r.threshold.toInt * day))
  (s.domains.filter fun d => d.certNotAfter ≠ 0 && decide (d.certNotAfter ≤ before)).map fun d =>
    d.domain ++ ": the certificate " ++
      (if d.certNotAfter ≤ unixOf s.now then "expired" else "expires") ++ " " ++
      stamp format d.certNotAfter

def missingKey (r : TunAlertRule) : String :=
  match r.condition with
  | .tokenOffline => "token/" ++ r.tokenId
  | .agentOffline => "agent/" ++ r.agentId
  | _ => ""

def scan (isMatch : TunAgent → Bool) : List TunAgent → ℤ → List String → Option (ℤ × List String)
  | [], latest, names => some (latest, names)
  | a :: rest, latest, names =>
    if a.simulated || !isMatch a then scan isMatch rest latest names
    else if a.state = .online then none
    else scan isMatch rest (if a.lastSeen > latest then a.lastSeen else latest) (names ++ [a.agentId])

namespace Evaluator

def offline (r : TunAlertRule) (s : Snapshot) (isMatch : TunAgent → Bool) (what : String)
    (e : Evaluator) : Evaluator × List String :=
  let key := missingKey r
  let forgets : Evaluator := { missingSince := e.missingSince.del key }
  match scan isMatch s.agents 0 [] with
  | none => (forgets, [])
  | some (latest, names) =>
    let limit := duration (r.threshold.toInt * minute)
    if names = [] then
      match e.missingSince.get key with
      | none => ({ missingSince := e.missingSince.set key s.now }, [])
      | some since =>
        if timeSub s.now since < limit then (e, [])
        else (e, [what ++ ": no agent connected since at least " ++ stamp format (unixOf since)])
    else if timeSub s.now (timeUnix latest) < limit then (forgets, [])
    else (forgets, [what ++ ": offline since " ++ stamp format latest ++ " (agents " ++
      GoString.join names ", " ++ ")"])

def holds (r : TunAlertRule) (s : Snapshot) (e : Evaluator) : Evaluator × Option (List String) :=
  match r.condition with
  | .relayLost => (e, if s.liveOK then some (lostRelays format s) else none)
  | .noReadyRelay => (e, if s.liveOK then some (noReadyRelay s) else none)
  | .edgePoolDown => (e, if s.edgeOK then some (downBackends s) else none)
  | .edgeListenerFailed => (e, if s.edgeOK then some (failedListeners s) else none)
  | .certExpiring => (e, if s.edgeOK then some (expiringCerts format r s) else none)
  | .tokenOffline =>
    if s.liveOK then
      let out := e.offline format r s (fun a => a.tokenId = r.tokenId) ("token " ++ r.tokenId)
      (out.1, some out.2)
    else (e, none)
  | .agentOffline =>
    if s.liveOK then
      let out := e.offline format r s (fun a => a.agentId = r.agentId) ("agent " ++ r.agentId)
      (out.1, some out.2)
    else (e, none)
  | _ => (e, none)

end Evaluator

def TunAlertRule.cooldown (r : TunAlertRule) : ℤ :=
  let d := duration (r.cooldownMinutes.toInt * minute)
  if d ≤ 0 then defaultCooldownMinutes * minute else d

def TunAlertRule.cooling (r : TunAlertRule) (s : Snapshot) : Bool :=
  r.lastFired ≠ 0 && decide (timeSub s.now (timeUnix r.lastFired) < r.cooldown)

def firing (r : TunAlertRule) (items : List String) : Firing :=
  { rule := r, subject := "l8tunnel alert: " ++ r.name
    message := conditionText r ++ ":\n- " ++ GoString.join (sortStrings items) "\n- " }

namespace Evaluator

def judge (s : Snapshot) (e : Evaluator) (r : TunAlertRule) : Evaluator × Option Firing :=
  if r.enabled = false then (e, none)
  else
    let out := e.holds format r s
    match out.2 with
    | none => (out.1, none)
    | some items =>
      if items = [] then (out.1, none)
      else if r.cooling s then (out.1, none)
      else (out.1, some (firing r items))

def judgeAll (s : Snapshot) (rules : List TunAlertRule) (e : Evaluator) :
    Evaluator × List Firing :=
  rules.foldl (fun acc r =>
    let out := acc.1.judge format s r
    (out.1, acc.2 ++ out.2.toList)) (e, [])

def watched (rules : List TunAlertRule) : List String := (rules.map missingKey).filter (· ≠ "")

def dropUnwatched (order : RangeOrder) (rules : List TunAlertRule) (e : Evaluator) : Evaluator :=
  { missingSince := (e.missingSince.range order).foldl (fun m key =>
      if key ∈ watched rules then m else m.del key) e.missingSince }

def due (order : RangeOrder) (rules : List TunAlertRule) (s : Snapshot) (e : Evaluator) :
    Evaluator × List Firing :=
  let out := e.judgeAll format s rules
  (out.1.dropUnwatched order rules, out.2)

end Evaluator
end

/-- Whom an offline rule watches; rules with one subject share an entry of the memory. -/
inductive Subject where
  | token (id : String)
  | agent (id : String)
  deriving DecidableEq

namespace Subject

def key : Subject → String
  | .token id => "token/" ++ id
  | .agent id => "agent/" ++ id

def what : Subject → String
  | .token id => "token " ++ id
  | .agent id => "agent " ++ id

def watches : Subject → TunAgent → Bool
  | .token id, a => a.tokenId = id
  | .agent id, a => a.agentId = id

theorem key_inj {u v : Subject} (h : u.key = v.key) : u = v := by
  have hlist := congrArg String.toList h
  cases u <;> cases v <;> simp [key] at hlist
  · rw [String.toList_injective hlist]
  · rw [String.toList_injective hlist]

theorem key_ne_empty (u : Subject) : u.key ≠ "" := by
  intro h
  have hlist := congrArg String.toList h
  cases u <;> simp [key] at hlist

def records (u : Subject) (s : Snapshot) : List TunAgent :=
  s.agents.filter fun a => !a.simulated && u.watches a

def Online (u : Subject) (s : Snapshot) : Prop := ∃ a ∈ u.records s, a.state = .online

def newest (u : Subject) (s : Snapshot) : ℤ :=
  (u.records s).foldl (fun latest a => max latest a.lastSeen) 0

end Subject

def TunAlertRule.subject (r : TunAlertRule) : Option Subject :=
  match r.condition with
  | .tokenOffline => some (.token r.tokenId)
  | .agentOffline => some (.agent r.agentId)
  | _ => none

theorem missingKey_eq (r : TunAlertRule) : missingKey r = (r.subject.map Subject.key).getD "" := by
  unfold missingKey TunAlertRule.subject
  cases r.condition <;> rfl

section
variable {r : TunAlertRule} {u : Subject}

theorem missingKey_of_subject (h : r.subject = some u) : missingKey r = u.key := by
  rw [missingKey_eq, h]
  rfl

theorem subject_of_missingKey (h : missingKey r = u.key) : r.subject = some u := by
  rw [missingKey_eq] at h
  cases hr : r.subject with
  | none =>
    rw [hr] at h
    exact (u.key_ne_empty h.symm).elim
  | some v =>
    rw [hr] at h
    rw [Subject.key_inj h]

end

theorem scan_eq (isMatch : TunAgent → Bool) (agents : List TunAgent) (latest : ℤ)
    (names : List String) :
    scan isMatch agents latest names =
      let rs := agents.filter fun a => !a.simulated && isMatch a
      if rs.any (·.state = .online) then none
      else some (rs.foldl (fun latest a => max latest a.lastSeen) latest,
        names ++ rs.map TunAgent.agentId) := by
  induction agents generalizing latest names with
  | nil => simp [scan]
  | cons a rest ih =>
    unfold scan
    cases hkeep : (!a.simulated && isMatch a) with
    | false =>
      have hskip : (a.simulated || !isMatch a) = true := by
        cases hsim : a.simulated <;> simp_all
      rw [if_pos hskip, ih, List.filter_cons_of_neg (by simp [hkeep])]
    | true =>
      have hskip : ¬ (a.simulated || !isMatch a) = true := by
        cases hsim : a.simulated <;> simp_all
      rw [if_neg hskip, List.filter_cons_of_pos (by simp [hkeep])]
      by_cases hon : a.state = .online
      · simp [hon]
      · have hmax : (if a.lastSeen > latest then a.lastSeen else latest) = max latest a.lastSeen := by
          omega
        rw [if_neg hon, ih, hmax]
        simp [hon]

section
variable {format : ℤ → String} {u : Subject} {r : TunAlertRule} {s : Snapshot} {e : Evaluator}

theorem any_online : ((u.records s).any (·.state = .online)) = true ↔ u.Online s := by
  simp [Subject.Online]

theorem scan_online (h : u.Online s) : scan u.watches s.agents 0 [] = none :=
  (scan_eq u.watches s.agents 0 []).trans (if_pos (any_online.mpr h))

theorem scan_offline (h : ¬ u.Online s) :
    scan u.watches s.agents 0 [] =
      some (u.newest s, (u.records s).map TunAgent.agentId) :=
  (scan_eq u.watches s.agents 0 []).trans (if_neg fun hany => h (any_online.mp hany))

theorem holds_offline (h : r.subject = some u) :
    e.holds format r s =
      if s.liveOK then ((e.offline format r s u.watches u.what).1,
        some (e.offline format r s u.watches u.what).2) else (e, none) := by
  unfold TunAlertRule.subject at h
  unfold Evaluator.holds
  split at h
  · cases h
    rename_i hr
    rw [hr]
    rfl
  · cases h
    rename_i hr
    rw [hr]
    rfl
  · cases h

theorem holds_other (h : r.subject = none) : (e.holds format r s).1 = e := by
  unfold TunAlertRule.subject at h
  unfold Evaluator.holds
  cases hr : r.condition <;> rw [hr] at h <;> first | rfl | cases h

def Remembers (u : Subject) (s : Snapshot) (e t : Evaluator) : Prop :=
  t.missingSince.get u.key = e.missingSince.get u.key ∨ t.missingSince.get u.key = none ∨
    (t.missingSince.get u.key = some s.now ∧ ¬ u.Online s)

theorem remembers_del (v : Subject) (key : String) :
    Remembers v s e { missingSince := e.missingSince.del key } := by
  unfold Remembers
  rw [GoMap.get_del_eq_ite]
  split
  · exact .inr (.inl rfl)
  · exact .inl rfl

theorem offline_remembers (v : Subject) (h : r.subject = some u) :
    Remembers v s e (e.offline format r s u.watches u.what).1 := by
  unfold Evaluator.offline
  dsimp only
  rw [missingKey_of_subject h]
  by_cases hon : u.Online s
  · rw [scan_online hon]
    exact remembers_del v u.key
  rw [scan_offline hon]
  dsimp only
  split
  · split
    · unfold Remembers
      dsimp only
      rw [GoMap.get_set_eq_ite]
      split
      next hkey =>
        rw [Subject.key_inj hkey]
        exact .inr (.inr ⟨rfl, hon⟩)
      next => exact .inl rfl
    · split
      · exact .inl rfl
      · exact .inl rfl
  · split
    · exact remembers_del v u.key
    · exact remembers_del v u.key

theorem offline_online (h : r.subject = some u) (hon : u.Online s) :
    (e.offline format r s u.watches u.what).1.missingSince.get u.key = none := by
  unfold Evaluator.offline
  dsimp only
  rw [missingKey_of_subject h, scan_online hon]
  exact GoMap.get_del _ _

def Overdue (u : Subject) (r : TunAlertRule) (s : Snapshot) (e : Evaluator) : Prop :=
  (∃ since, e.missingSince.get u.key = some since ∧
    duration (r.threshold.toInt * minute) ≤ timeSub s.now since) ∨
  (u.records s ≠ [] ∧ duration (r.threshold.toInt * minute) ≤ timeSub s.now (timeUnix (u.newest s)))

theorem overdue_of_items (format : ℤ → String) (h : r.subject = some u)
    (hitems : (e.offline format r s u.watches u.what).2 ≠ []) : Overdue u r s e := by
  unfold Evaluator.offline at hitems
  dsimp only at hitems
  rw [missingKey_of_subject h] at hitems
  by_cases hon : u.Online s
  · rw [scan_online hon] at hitems
    exact (hitems rfl).elim
  rw [scan_offline hon] at hitems
  dsimp only at hitems
  split at hitems
  · split at hitems
    · exact (hitems rfl).elim
    next since hsince =>
      split at hitems
      · exact (hitems rfl).elim
      next hlong => exact .inl ⟨since, hsince, Int.not_lt.mp hlong⟩
  next hnames =>
    split at hitems
    · exact (hitems rfl).elim
    next hlong =>
      refine .inr ⟨fun hnil => hnames ?_, Int.not_lt.mp hlong⟩
      rw [hnil]
      rfl

theorem judge_fst : (e.judge format s r).1 = if r.enabled = false then e else (e.holds format r s).1 := by
  unfold Evaluator.judge
  split
  · rfl
  · dsimp only
    split
    · rfl
    · split
      · rfl
      · split
        · rfl
        · rfl

theorem judge_remembers (u : Subject) : Remembers u s e (e.judge format s r).1 := by
  rw [judge_fst]
  split
  · exact .inl rfl
  · cases hr : r.subject with
    | none =>
      rw [holds_other hr]
      exact .inl rfl
    | some v =>
      rw [holds_offline hr]
      split
      · exact offline_remembers u hr
      · exact .inl rfl

theorem judge_online (hlive : s.liveOK = true) (hon : u.Online s) (henabled : r.enabled = true)
    (h : r.subject = some u) : (e.judge format s r).1.missingSince.get u.key = none := by
  rw [judge_fst, if_neg (by simp [henabled]), holds_offline h, if_pos hlive]
  exact offline_online h hon

theorem judge_firing {f : Firing} (h : (e.judge format s r).2 = some f) :
    f.rule = r ∧ ∀ u, r.subject = some u → Overdue u r s e := by
  unfold Evaluator.judge at h
  split at h
  · cases h
  dsimp only at h
  split at h
  · cases h
  next items hitems =>
    split at h
    · cases h
    next hne =>
      split at h
      · cases h
      cases h
      refine ⟨rfl, fun u hu => ?_⟩
      rw [holds_offline hu] at hitems
      split at hitems
      · refine overdue_of_items format hu ?_
        rw [Option.some.inj hitems]
        exact hne
      · cases hitems

variable {rules : List TunAlertRule}

theorem judgeAll_concat (rules : List TunAlertRule) (r : TunAlertRule) :
    e.judgeAll format s (rules ++ [r]) =
      (((e.judgeAll format s rules).1.judge format s r).1,
        (e.judgeAll format s rules).2 ++
          ((e.judgeAll format s rules).1.judge format s r).2.toList) := by
  unfold Evaluator.judgeAll
  rw [List.foldl_concat]

theorem Remembers.trans {e1 e2 e3 : Evaluator} (h : Remembers u s e1 e2) (h' : Remembers u s e2 e3) :
    Remembers u s e1 e3 := by
  rcases h' with hsame | hlost | hnew
  · unfold Remembers
    rw [hsame]
    exact h
  · exact .inr (.inl hlost)
  · exact .inr (.inr hnew)

theorem judgeAll_remembers (rules : List TunAlertRule) :
    Remembers u s e (e.judgeAll format s rules).1 := by
  induction rules using List.reverseRecOn with
  | nil => exact .inl rfl
  | append_singleton rules r ih =>
    rw [judgeAll_concat]
    exact ih.trans (judge_remembers u)

theorem judgeAll_online (hlive : s.liveOK = true) (hon : u.Online s)
    (h : ∃ r ∈ rules, r.enabled = true ∧ r.subject = some u) :
    (e.judgeAll format s rules).1.missingSince.get u.key = none := by
  induction rules using List.reverseRecOn with
  | nil =>
    obtain ⟨r, hr, -⟩ := h
    cases hr
  | append_singleton rules r ih =>
    rw [judgeAll_concat]
    dsimp only
    by_cases hlast : r.enabled = true ∧ r.subject = some u
    · exact judge_online hlive hon hlast.1 hlast.2
    · have hbefore : ∃ r ∈ rules, r.enabled = true ∧ r.subject = some u := by
        obtain ⟨r', hr', hr''⟩ := h
        rcases List.mem_append.mp hr' with hmem | hmem
        · exact ⟨r', hmem, hr''⟩
        · rw [List.mem_singleton.mp hmem] at hr''
          exact (hlast hr'').elim
      have hlastly : Remembers u s (e.judgeAll format s rules).1
          ((e.judgeAll format s rules).1.judge format s r).1 := judge_remembers u
      rcases hlastly with hsame | hlost | ⟨-, hoff⟩
      · exact hsame.trans (ih hbefore)
      · exact hlost
      · exact (hoff hon).elim

theorem judgeAll_firing {f : Firing} (h : f ∈ (e.judgeAll format s rules).2) :
    ∃ t, Remembers u s e t ∧ (f.rule.subject = some u → Overdue u f.rule s t) := by
  induction rules using List.reverseRecOn with
  | nil => cases h
  | append_singleton rules r ih =>
    rw [judgeAll_concat] at h
    rcases List.mem_append.mp h with hbefore | hlast
    · exact ih hbefore
    · obtain ⟨hrule, hover⟩ := judge_firing (Option.mem_toList.mp hlast)
      rw [hrule]
      exact ⟨_, judgeAll_remembers rules, hover u⟩

theorem mem_watched : u.key ∈ Evaluator.watched rules ↔ ∃ r ∈ rules, r.subject = some u := by
  unfold Evaluator.watched
  rw [List.mem_filter, List.mem_map]
  constructor
  · rintro ⟨⟨r, hr, hkey⟩, -⟩
    exact ⟨r, hr, subject_of_missingKey hkey⟩
  · rintro ⟨r, hr, hu⟩
    exact ⟨⟨r, hr, missingKey_of_subject hu⟩, decide_eq_true u.key_ne_empty⟩

theorem dropUnwatched_unwatched (order : RangeOrder) (h : ∀ r ∈ rules, r.subject ≠ some u) :
    (e.dropUnwatched order rules).missingSince.get u.key = none := by
  have hkey : ¬ u.key ∈ Evaluator.watched rules := fun hmem => by
    obtain ⟨r, hr, hu⟩ := mem_watched.mp hmem
    exact h r hr hu
  unfold Evaluator.dropUnwatched
  dsimp only
  rw [GoMap.get_foldl_del_unless]
  split
  · rfl
  next hout =>
    refine Option.eq_none_iff_forall_ne_some.mpr fun t ht => hout ⟨?_, hkey⟩
    exact (GoMap.mem_range e.missingSince order u.key).mpr ⟨t, ht⟩

theorem dropUnwatched_remembers (order : RangeOrder) (rules : List TunAlertRule) :
    Remembers u s e (e.dropUnwatched order rules) := by
  unfold Evaluator.dropUnwatched Remembers
  dsimp only
  rw [GoMap.get_foldl_del_unless]
  split
  · exact .inr (.inl rfl)
  · exact .inl rfl

end

/-- One `Due`, with the order in which Go's map loop at its end runs. -/
structure Call where
  rules : List TunAlertRule
  snapshot : Snapshot
  order : RangeOrder

inductive Step (format : ℤ → String) : Evaluator → Call → Evaluator → Prop where
  | due (e : Evaluator) (c : Call) :
    Step format e c (e.due format c.order c.rules c.snapshot).1

def Seen (u : Subject) (c : Call) : Prop := c.snapshot.liveOK = true ∧ u.Online c.snapshot

/-- A call that shows the subject online while the evaluator remembers it as missing
judges it by a rule that is enabled, or has no rule for it. -/
def Heeds (u : Subject) (e : Evaluator) (c : Call) : Prop :=
  Seen u c → ∀ since, e.missingSince.get u.key = some since → since < c.snapshot.now →
    (∃ r ∈ c.rules, r.enabled = true ∧ r.subject = some u) ∨ ∀ r ∈ c.rules, r.subject ≠ some u

def Fresh (u : Subject) (past : List Call) (e : Evaluator) : Prop :=
  ∀ since, e.missingSince.get u.key = some since →
    ∀ c ∈ past, Seen u c → c.snapshot.now ≤ since

section
variable {format : ℤ → String} {u : Subject} {e t : Evaluator} {c : Call} {past calls : List Call}

theorem Fresh.remembers (h : Fresh u past e) (hm : Remembers u c.snapshot e t)
    (hclock : ∀ c' ∈ past, c'.snapshot.now ≤ c.snapshot.now) : Fresh u past t := by
  intro since hsince c' hc' hseen
  rcases hm with hsame | hlost | ⟨hnew, -⟩
  · exact h since (hsame ▸ hsince) c' hc' hseen
  · rw [hlost] at hsince
    cases hsince
  · rw [hnew] at hsince
    cases hsince
    exact hclock c' hc'

theorem due_remembers (format : ℤ → String) (u : Subject) (e : Evaluator) (c : Call) :
    Remembers u c.snapshot e (e.due format c.order c.rules c.snapshot).1 :=
  (judgeAll_remembers c.rules).trans (dropUnwatched_remembers c.order c.rules)

theorem due_seen (hheeds : Heeds u e c) (hseen : Seen u c) {since : ℤ}
    (h : (e.due format c.order c.rules c.snapshot).1.missingSince.get u.key = some since) :
    c.snapshot.now ≤ since := by
  rcases due_remembers format u e c with hsame | hlost | ⟨-, hoff⟩
  · refine Int.not_lt.mp fun hlt => ?_
    have hforgets : (e.due format c.order c.rules c.snapshot).1.missingSince.get u.key = none := by
      rcases hheeds hseen since (hsame ▸ h) hlt with hjudged | hnone
      · have hgone : (e.judgeAll format c.snapshot c.rules).1.missingSince.get u.key = none :=
          judgeAll_online hseen.1 hseen.2 hjudged
        rcases dropUnwatched_remembers (u := u) (s := c.snapshot) c.order c.rules with
          hkept | hdropped | ⟨-, hoff⟩
        · exact hkept.trans hgone
        · exact hdropped
        · exact (hoff hseen.2).elim
      · exact dropUnwatched_unwatched c.order hnone
    rw [hforgets] at h
    cases h
  · rw [hlost] at h
    cases h
  · exact (hoff hseen.2).elim

/-- One evaluation, whose clock is not behind any before it. -/
theorem Fresh.step (h : Fresh u past e) (hheeds : Heeds u e c)
    (hclock : ∀ c' ∈ past, c'.snapshot.now ≤ c.snapshot.now) :
    Fresh u (past ++ [c]) (e.due format c.order c.rules c.snapshot).1 := by
  intro since hsince c' hc' hseen
  rcases List.mem_append.mp hc' with hpast | hlast
  · exact h.remembers (due_remembers format u e c) hclock since hsince c' hpast hseen
  · rw [List.mem_singleton.mp hlast] at hseen ⊢
    exact due_seen hheeds hseen hsince

theorem Fresh.run (h : Fresh u past e) (hrun : Run (Guarded (Heeds u) (Step format)) e calls t)
    (hclock : (past ++ calls).Pairwise fun c c' => c.snapshot.now ≤ c'.snapshot.now) :
    Fresh u (past ++ calls) t := by
  induction hrun generalizing past with
  | nil => simpa using h
  | @cons e _ t c calls hstep _ ih =>
    obtain ⟨hheeds, ⟨⟩⟩ := hstep
    have hbefore : ∀ c' ∈ past, c'.snapshot.now ≤ c.snapshot.now := fun c' hc' =>
      (List.pairwise_append.mp hclock).2.2 c' hc' c List.mem_cons_self
    rw [List.append_cons] at hclock ⊢
    exact ih (h.step hheeds hbefore) hclock

theorem timeSub_lt {now since d : ℤ} (h : now - since < d) (hd : 0 < d)
    (hfits : d ≤ 9223372036854775807) : timeSub now since < d := by
  unfold timeSub
  omega

theorem duration_threshold {r : TunAlertRule} (hpos : 0 < r.threshold.toInt)
    (hfits : r.threshold.toInt ≤ 153722867) :
    duration (r.threshold.toInt * minute) = r.threshold.toInt * minute := by
  unfold duration minute
  exact Int.bmod_eq_of_le (by omega) (by omega)

/-- No offline rule fires within its threshold of a sighting, as long as every sighting
reaches the memory and the records. Within is less than, as `offline` compares the times:
a sighting exactly the threshold ago does not hold an alert back. -/
theorem offline_alert_within_threshold {call : Call} {f : Firing}
    (hrun : Run (Guarded (Heeds u) (Step format)) {} calls e)
    (hclock : (calls ++ [call]).Pairwise fun c c' => c.snapshot.now ≤ c'.snapshot.now)
    (hrecords : u.records call.snapshot ≠ [] → ∀ c ∈ calls, Seen u c →
      c.snapshot.now ≤ timeUnix (u.newest call.snapshot))
    (hfits : f.rule.threshold.toInt ≤ 153722867)
    (hf : f ∈ (e.due format call.order call.rules call.snapshot).2) (hu : f.rule.subject = some u) :
    ∀ c ∈ calls, call.snapshot.now - c.snapshot.now < f.rule.threshold.toInt * minute →
      ¬ Seen u c := by
  intro c hc hwithin hseen
  obtain ⟨hpast, -, hlater⟩ := List.pairwise_append.mp hclock
  have hbefore : ∀ c' ∈ calls, c'.snapshot.now ≤ call.snapshot.now := fun c' hc' =>
    hlater c' hc' call (List.mem_singleton.mpr rfl)
  have hnew : Fresh u [] {} := fun _ _ c' hc' => (List.not_mem_nil hc').elim
  have hfresh : Fresh u calls e := hnew.run hrun hpast
  obtain ⟨t, hremembers, hoverdue⟩ := judgeAll_firing (u := u) hf
  have hpos : 0 < f.rule.threshold.toInt := by
    have hnow := hbefore c hc
    unfold minute at hwithin
    omega
  have hlimit : ∀ {since : ℤ}, c.snapshot.now ≤ since →
      ¬ duration (f.rule.threshold.toInt * minute) ≤ timeSub call.snapshot.now since := by
    intro since hsince
    rw [duration_threshold hpos hfits, Int.not_le]
    refine timeSub_lt (by omega) (by unfold minute; omega) (by unfold minute; omega)
  rcases hoverdue hu with ⟨since, hsince, hlong⟩ | ⟨hne, hlong⟩
  · exact hlimit (hfresh.remembers hremembers hbefore since hsince c hc hseen) hlong
  · exact hlimit (hrecords hne c hc hseen) hlong

end

def laptopRule : TunAlertRule :=
  { name := "laptop", condition := .agentOffline, threshold := 5, agentId := "laptop" }

def laptopCall (minutes : ℤ) (enabled : Bool) (agents : List TunAgent) : Call where
  rules := [{ laptopRule with enabled := enabled }]
  snapshot := { now := minutes * minute, liveOK := true, agents := agents }
  order := .stored

def laptopOnline : TunAgent := { agentId := "laptop", state := .online }

def laptopFiring : Firing :=
  firing laptopRule ["agent laptop: no agent connected since at least never"]

def afterCalls (calls : List Call) : Evaluator :=
  calls.foldl (fun e c => (e.due toString c.order c.rules c.snapshot).1) {}

/-- No record at minute 0, a sighting at 4 that clears the memory, and none from 9 on. -/
def laptopCalls : List Call :=
  [laptopCall 0 true [], laptopCall 4 true [laptopOnline], laptopCall 9 true [],
    laptopCall 12 true []]

def laptopGone : TunAgent := { agentId := "laptop", state := .offline, lastSeen := 300 }

theorem offline_alert_within_threshold_laptop :
    (afterCalls (laptopCalls.take 1)).missingSince.get "agent/laptop" = some 0 ∧
    (afterCalls (laptopCalls.take 2)).missingSince.get "agent/laptop" = none ∧
    firing laptopRule ["agent laptop: offline since 300 (agents laptop)"] ∈
      ((afterCalls laptopCalls).due toString .stored [laptopRule]
        (laptopCall 14 true [laptopGone]).snapshot).2 ∧
    ∀ c ∈ laptopCalls, 14 * minute - c.snapshot.now < 5 * minute →
      ¬ Seen (.agent "laptop") c := by
  have hheeds : ∀ minutes agents e,
      Heeds (.agent "laptop") e (laptopCall minutes true agents) :=
    fun _ _ _ _ _ _ _ => .inl ⟨laptopRule, List.mem_singleton.mpr rfl, rfl, rfl⟩
  have hrun : Run (Guarded (Heeds (.agent "laptop")) (Step toString)) {} laptopCalls
      (afterCalls laptopCalls) :=
    .cons ⟨hheeds _ _ _, .due _ _⟩ (.cons ⟨hheeds _ _ _, .due _ _⟩
      (.cons ⟨hheeds _ _ _, .due _ _⟩ (.cons ⟨hheeds _ _ _, .due _ _⟩ (.nil _))))
  have hfires : firing laptopRule ["agent laptop: offline since 300 (agents laptop)"] ∈
      ((afterCalls laptopCalls).due toString .stored [laptopRule]
        (laptopCall 14 true [laptopGone]).snapshot).2 :=
    List.mem_singleton.mpr rfl
  have hunseen : ∀ minutes, ¬ Seen (.agent "laptop") (laptopCall minutes true []) :=
    fun _ hseen => by
      obtain ⟨-, a, ha, -⟩ := hseen
      cases ha
  have hrecords : ∀ c ∈ laptopCalls, Seen (.agent "laptop") c →
      c.snapshot.now ≤ timeUnix ((Subject.agent "laptop").newest
        (laptopCall 14 true [laptopGone]).snapshot) := by
    intro c hc hseen
    simp only [laptopCalls, List.mem_cons, List.not_mem_nil, or_false] at hc
    rcases hc with rfl | rfl | rfl | rfl
    · exact absurd hseen (hunseen 0)
    · decide
    · exact absurd hseen (hunseen 9)
    · exact absurd hseen (hunseen 12)
  exact ⟨rfl, rfl, hfires, offline_alert_within_threshold hrun (by decide) (fun _ => hrecords)
    (by decide) hfires rfl⟩

/-- A rule that is disabled while its agent is online fires as soon as it is enabled
again. -/
theorem offline_alert_after_sighting :
    ¬ ∀ (format : ℤ → String) (u : Subject) (calls : List Call) (e : Evaluator) (call : Call)
      (f : Firing), Run (Step format) {} calls e →
      (calls ++ [call]).Pairwise (fun c c' => c.snapshot.now ≤ c'.snapshot.now) →
      f ∈ (e.due format call.order call.rules call.snapshot).2 → f.rule.subject = some u →
      ∀ c ∈ calls, call.snapshot.now - c.snapshot.now < f.rule.threshold.toInt * minute →
        ¬ Seen u c := by
  intro h
  have hrun : Run (Step toString) {} [laptopCall 0 true [], laptopCall 6 false [laptopOnline]]
      (afterCalls [laptopCall 0 true [], laptopCall 6 false [laptopOnline]]) :=
    .cons (.due _ _) (.cons (.due _ _) (.nil _))
  have hfires : laptopFiring ∈ ((afterCalls
      [laptopCall 0 true [], laptopCall 6 false [laptopOnline]]).due toString .stored
        [laptopRule] (laptopCall 7 true []).snapshot).2 := by
    exact List.mem_singleton.mpr rfl
  have hseen : Seen (.agent "laptop") (laptopCall 6 false [laptopOnline]) :=
    ⟨rfl, laptopOnline, List.mem_singleton.mpr rfl, rfl⟩
  exact h toString (.agent "laptop") _ _ (laptopCall 7 true []) _ hrun (by decide) hfires rfl
    (laptopCall 6 false [laptopOnline]) (List.mem_cons_of_mem _ List.mem_cons_self) (by decide) hseen

end L8Tunnel.Alerts
