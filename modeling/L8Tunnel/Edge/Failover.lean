import L8Tunnel.Edge.Pool

/-! # Dialing a backend, and the next one when it fails (edge/pool.go, tunnel.go) -/

namespace L8Tunnel.Edge
open Base.Net

/-- What a dial meets, turn by turn: the changes of other goroutines before the pick
and during the dial, the random choices, and the error of the dial if it fails. -/
structure DialEnv where
  before : ℕ → Pool → Pool
  during : ℕ → Pool → Pool
  random : ℕ → ℕ × ℕ
  outcome : ℕ → Option String
  now : ℕ → ℤ
  handshake : Option String
  before_same : ∀ n p, Pool.Same p (before n p)
  during_same : ∀ n p, Pool.Same p (during n p)

/-- How a dial ends: the member that is connected, those tried, and the pool after it. -/
structure Dialed where
  conn : Option ℕ
  tried : List ℕ
  pool : Pool

namespace Pool

def turn (env : DialEnv) (client : Addr) (d : Dialing) (p : Pool) : Pool × Option ℕ :=
  (env.before d.tried.length p).choose client d (env.random d.tried.length)

def refused (env : DialEnv) (client : Addr) (d : Dialing) (p : Pool) (ref : ℕ) (why : String) : Pool :=
  (env.during d.tried.length (turn env client d p).1).dialFailed ref why (env.now d.tried.length)

def dialFrom (env : DialEnv) (client : Addr) : ℕ → Dialing → Pool → Option Dialed
  | 0, _, _ => none
  | fuel + 1, d, p =>
    match (turn env client d p).2 with
    | none => some ⟨none, d.tried, (turn env client d p).1⟩
    | some ref =>
      match env.outcome d.tried.length with
      | some why => dialFrom env client fuel (d.next ref) (refused env client d p ref why)
      | none =>
        some ⟨some ref, d.tried ++ [ref],
          (env.during d.tried.length (turn env client d p).1).connected ref⟩

variable {p q : Pool} {client : Addr} {tried : List ℕ} {random : ℕ × ℕ} {d : Dialing}

theorem smoothRoundRobin_some {cands : List ℕ} (hne : cands ≠ []) :
    ∃ best, (p.smoothRoundRobin cands).2 = some best := by
  have hlast : ∃ best, (cands.foldl roundOne (p, 0, none)).2.2 = some best := by
    rw [← List.dropLast_concat_getLast hne, List.foldl_concat]
    exact ⟨_, rfl⟩
  obtain ⟨best, hbest⟩ := hlast
  refine ⟨best, ?_⟩
  unfold smoothRoundRobin
  simp only [hbest]

theorem pick_none (h : (p.pick client tried random).2 = none) : p.candidates tried = [] := by
  unfold pick at h
  cases hcands : p.candidates tried with
  | nil => rfl
  | cons first rest =>
    rw [hcands] at h
    dsimp only at h
    split at h
    · cases h
    · cases h
    · cases h
    · obtain ⟨best, hbest⟩ := smoothRoundRobin_some (p := p) (List.cons_ne_nil first rest)
      rw [hbest] at h
      cases h

theorem pick_nil (h : p.candidates tried = []) : p.pick client tried random = (p, none) := by
  unfold pick
  rw [h]

theorem same_choose (p : Pool) (client : Addr) (d : Dialing) (random : ℕ × ℕ) :
    Same p (p.choose client d random).1 := by
  unfold choose
  split
  · exact .refl p
  · exact (pick_spec p client d.tried random).1

def turns (p : Pool) (d : Dialing) : ℕ :=
  (p.members.filter fun ref => ref ∉ d.tried).length + if d.first.isSome then 1 else 0

theorem turns_le (p : Pool) (d : Dialing) : p.turns d ≤ p.members.length + 1 := by
  have hfilter := List.length_filter_le (fun ref => decide (ref ∉ d.tried)) p.members
  unfold turns
  split
  · omega
  · omega

theorem turns_next {ref : ℕ} (h : (p.choose client d random).2 = some ref)
    (hmembers : q.members = p.members) : q.turns (d.next ref) < p.turns d := by
  have hsub : (p.members.filter fun u => u ∉ (d.next ref).tried).Sublist
      (p.members.filter fun u => u ∉ d.tried) := by
    refine List.monotone_filter_right p.members fun u hu => ?_
    have hu' := of_decide_eq_true hu
    exact decide_eq_true fun hmem => hu' (List.mem_append_left _ hmem)
  have hle := hsub.length_le
  have hnext : q.turns (d.next ref) = (p.members.filter fun u => u ∉ (d.next ref).tried).length := by
    unfold turns
    rw [hmembers]
    rfl
  rw [hnext]
  unfold turns
  cases hfirst : d.first with
  | some r =>
    have hone : (if (some r).isSome then 1 else 0) = 1 := rfl
    omega
  | none =>
    unfold choose at h
    rw [hfirst] at h
    obtain ⟨hmem, -, -, hout⟩ := mem_candidates.mp ((pick_spec p client d.tried random).2 ref h)
    have hlt : (p.members.filter fun u => u ∉ (d.next ref).tried).length <
        (p.members.filter fun u => u ∉ d.tried).length := by
      refine Nat.lt_of_le_of_ne hle fun heq => ?_
      have hsame := hsub.eq_of_length heq
      have hin : ref ∈ p.members.filter fun u => u ∉ d.tried :=
        List.mem_filter.mpr ⟨hmem, decide_eq_true hout⟩
      rw [← hsame] at hin
      exact of_decide_eq_true (List.mem_filter.mp hin).2 (List.mem_append_right _ (.head _))
    exact Nat.lt_of_lt_of_le hlt (Nat.le_add_right _ _)

theorem same_turn (env : DialEnv) (client : Addr) (d : Dialing) (p : Pool) :
    Same p (turn env client d p).1 :=
  (env.before_same _ p).trans (same_choose _ client d _)

theorem same_refused (env : DialEnv) (client : Addr) (d : Dialing) (p : Pool) (ref : ℕ)
    (why : String) : Same p (refused env client d p ref why) :=
  ((same_turn env client d p).trans (env.during_same _ _)).trans (same_dialFailed _ ref why _)

/-- Induction over the dialing loop by what one turn finds: no member left, a connection, or a
refusal after which the loop goes on. With more fuel than turns left the loop returns. -/
theorem dialFrom_rule (env : DialEnv) (client : Addr) {motive : Dialing → Pool → Dialed → Prop}
    (exhausted : ∀ d p, (turn env client d p).2 = none →
      motive d p ⟨none, d.tried, (turn env client d p).1⟩)
    (connects : ∀ d p ref pool, (turn env client d p).2 = some ref →
      env.outcome d.tried.length = none → motive d p ⟨some ref, d.tried ++ [ref], pool⟩)
    (fails : ∀ d p ref why out, (turn env client d p).2 = some ref →
      env.outcome d.tried.length = some why →
      motive (d.next ref) (refused env client d p ref why) out → motive d p out)
    (d : Dialing) (p : Pool) :
    ∃ out, (∀ fuel, p.turns d < fuel → dialFrom env client fuel d p = some out) ∧
      motive d p out := by
  generalize hk : p.turns d = k
  induction k using Nat.strong_induction_on generalizing d p with
  | _ k ih =>
    subst hk
    cases hturn : (turn env client d p).2 with
    | none =>
      refine ⟨_, fun fuel hfuel => ?_, exhausted d p hturn⟩
      obtain ⟨fuel, rfl⟩ := Nat.exists_eq_add_of_lt hfuel
      simp only [dialFrom, hturn]
    | some ref =>
      cases houtcome : env.outcome d.tried.length with
      | none =>
        refine ⟨_, fun fuel hfuel => ?_, connects d p ref
          ((env.during d.tried.length (turn env client d p).1).connected ref) hturn houtcome⟩
        obtain ⟨fuel, rfl⟩ := Nat.exists_eq_add_of_lt hfuel
        simp only [dialFrom, hturn, houtcome]
      | some why =>
        have hfewer : (refused env client d p ref why).turns (d.next ref) <
            (env.before d.tried.length p).turns d := by
          refine turns_next hturn ?_
          rw [(same_refused env client d p ref why).members, (env.before_same _ p).members]
        have hbefore : (env.before d.tried.length p).turns d = p.turns d := by
          unfold turns
          rw [(env.before_same _ p).members]
        rw [hbefore] at hfewer
        obtain ⟨out, hreturns, hout⟩ := ih _ hfewer (d.next ref) _ rfl
        refine ⟨out, fun fuel hfuel => ?_, fails d p ref why out hturn houtcome hout⟩
        obtain ⟨more, rfl⟩ := Nat.exists_eq_add_of_lt hfuel
        simp only [dialFrom, hturn, houtcome]
        exact hreturns _ (by omega)

/-- Turns that each choose a member, dial it and fail: from the state `d` of the loop
and the pool `p` to the state `last` and the pool `q`. -/
inductive FailedTurns (env : DialEnv) (client : Addr) : Dialing → Pool → Dialing → Pool → Prop
  | none (d : Dialing) (p : Pool) : FailedTurns env client d p d p
  | dial {d last : Dialing} {p q : Pool} {ref : ℕ} {why : String}
      (hturn : (turn env client d p).2 = some ref)
      (hfails : env.outcome d.tried.length = some why)
      (rest : FailedTurns env client (d.next ref) (refused env client d p ref why) last q) :
      FailedTurns env client d p last q

/-- The loop's turns fail up to the last one, which meets the pool `q` and ends it: with
what it chose, whose dial succeeds, or with nothing to choose. Turn `n` dials the `n`-th
member of `tried`. Without a connection, no enabled member is left out that the last pick
has seen healthy. -/
structure Failover (env : DialEnv) (client : Addr) (d : Dialing) (p : Pool) (out : Dialed)
    (last : Dialing) (q : Pool) : Prop where
  turns : FailedTurns env client d p last q
  conn : out.conn = (turn env client last q).2
  tried : out.tried = last.tried ++ out.conn.toList
  connected : out.conn.isSome → env.outcome last.tried.length = none
  failed : ∀ n < last.tried.length, (env.outcome n).isSome
  members : ∀ ref ∈ out.tried, ref ∈ p.members
  once : out.tried.Nodup
  exhausted : out.conn = none → ∀ ref ∈ p.members, (p.cells ref).disabled = false →
    (∃ n, out.tried[n]? = some ref ∧ (env.outcome n).isSome) ∨
      ((env.before last.tried.length q).cells ref).healthy = false

/-- The loop has tried members of the pool, each once, and all have failed. -/
structure Underway (env : DialEnv) (p : Pool) (d : Dialing) : Prop where
  members : ∀ ref ∈ d.tried, ref ∈ p.members
  once : d.tried.Nodup
  failed : ∀ n < d.tried.length, (env.outcome n).isSome
  first : ∀ ref, d.first = some ref → ref ∈ p.members ∧ ref ∉ d.tried

theorem Failover.dial {env : DialEnv} {out : Dialed} {last : Dialing} {ref : ℕ} {why : String}
    (hturn : (turn env client d p).2 = some ref) (hfails : env.outcome d.tried.length = some why)
    (h : Failover env client (d.next ref) (refused env client d p ref why) out last q) :
    Failover env client d p out last q := by
  have hs := same_refused env client d p ref why
  refine ⟨.dial hturn hfails h.turns, h.conn, h.tried, h.connected, h.failed, fun u hu => ?_,
    h.once, fun hnone u hu hon => ?_⟩
  · rw [← hs.members]
    exact h.members u hu
  · refine h.exhausted hnone u ?_ ?_
    · rw [hs.members]
      exact hu
    · rw [hs.disabled]
      exact hon

namespace Underway
variable {env : DialEnv} {ref : ℕ}

theorem same (hs : Same p q) (h : Underway env p d) : Underway env q d := by
  refine ⟨fun u hu => ?_, h.once, h.failed, fun u hu => ?_⟩
  · rw [hs.members]
    exact h.members u hu
  · rw [hs.members]
    exact h.first u hu

theorem chosen (h : Underway env p d) (hchoose : (p.choose client d random).2 = some ref) :
    ref ∈ p.members ∧ ref ∉ d.tried := by
  unfold choose at hchoose
  cases hfirst : d.first with
  | some r =>
    rw [hfirst] at hchoose
    cases hchoose
    exact h.first ref hfirst
  | none =>
    rw [hfirst] at hchoose
    obtain ⟨hmem, -, -, hout⟩ :=
      mem_candidates.mp ((pick_spec p client d.tried random).2 ref hchoose)
    exact ⟨hmem, hout⟩

theorem tried_concat (h : Underway env p d) (hmem : ref ∈ p.members) (hout : ref ∉ d.tried) :
    (∀ u ∈ d.tried ++ [ref], u ∈ p.members) ∧ (d.tried ++ [ref]).Nodup := by
  constructor
  · intro u hu
    rcases List.mem_append.mp hu with hu | hu
    · exact h.members u hu
    · rw [List.mem_singleton.mp hu]
      exact hmem
  · exact List.nodup_append_comm.mp (List.nodup_cons.mpr ⟨hout, h.once⟩)

theorem next (h : Underway env p d) (hmem : ref ∈ p.members) (hout : ref ∉ d.tried)
    (hfails : (env.outcome d.tried.length).isSome) : Underway env p (d.next ref) := by
  obtain ⟨hmembers, honce⟩ := h.tried_concat hmem hout
  refine ⟨hmembers, honce, fun n hn => ?_, fun u hu => by cases hu⟩
  have hlen : (d.next ref).tried.length = d.tried.length + 1 := List.length_append
  by_cases hlast : n = d.tried.length
  · rw [hlast]
    exact hfails
  · exact h.failed n (by omega)

theorem exhausted (h : Underway env p d) (hnone : (turn env client d p).2 = none) :
    Failover env client d p ⟨none, d.tried, (turn env client d p).1⟩ d p := by
  have hs := env.before_same d.tried.length p
  have hempty : (env.before d.tried.length p).candidates d.tried = [] := by
    unfold turn choose at hnone
    cases hfirst : d.first with
    | some r =>
      rw [hfirst] at hnone
      cases hnone
    | none =>
      rw [hfirst] at hnone
      exact pick_none hnone
  refine ⟨.none d p, hnone.symm, (List.append_nil _).symm, fun hsome => (nomatch hsome), h.failed,
    h.members, h.once, fun _ ref hr hon => ?_⟩
  by_cases htried : ref ∈ d.tried
  · obtain ⟨n, hn, hget⟩ := List.getElem_of_mem htried
    exact .inl ⟨n, List.getElem?_eq_some_iff.mpr ⟨hn, hget⟩, h.failed n hn⟩
  · refine .inr (Bool.eq_false_iff.mpr fun hhealthy => ?_)
    have hcand : ref ∈ (env.before d.tried.length p).candidates d.tried := by
      refine mem_candidates.mpr ⟨?_, ?_, hhealthy, htried⟩
      · rw [hs.members]
        exact hr
      · rw [hs.disabled]
        exact hon
    rw [hempty] at hcand
    cases hcand

theorem connects (h : Underway env p d) (hturn : (turn env client d p).2 = some ref)
    (hmem : ref ∈ p.members) (hout : ref ∉ d.tried) (hok : env.outcome d.tried.length = none)
    (pool : Pool) : Failover env client d p ⟨some ref, d.tried ++ [ref], pool⟩ d p := by
  obtain ⟨hmembers, honce⟩ := h.tried_concat hmem hout
  exact ⟨.none d p, hturn.symm, rfl, fun _ => hok, h.failed, hmembers, honce, nofun⟩

end Underway

/-- The loop ends, and its outcome is the failover that the environment's outcomes spell out. -/
theorem dialFrom_spec (env : DialEnv) (client : Addr) (h : Underway env p d) :
    ∃ out last q, (∀ fuel, p.turns d < fuel → dialFrom env client fuel d p = some out) ∧
      Failover env client d p out last q := by
  have hchosen : ∀ {d p ref}, Underway env p d → (turn env client d p).2 = some ref →
      ref ∈ p.members ∧ ref ∉ d.tried := by
    intro d p ref h hturn
    rw [← (env.before_same d.tried.length p).members]
    exact (h.same (env.before_same _ p)).chosen hturn
  obtain ⟨out, hreturns, hout⟩ := dialFrom_rule env client
    (motive := fun d p out => Underway env p d → ∃ last q, Failover env client d p out last q)
    (fun d p hnone h => ⟨d, p, h.exhausted hnone⟩)
    (fun d p ref pool hturn hok h =>
      ⟨d, p, h.connects hturn (hchosen h hturn).1 (hchosen h hturn).2 hok pool⟩)
    (fun d p ref why out hturn hfails ih h => by
      have hsome : (env.outcome d.tried.length).isSome := Option.isSome_of_eq_some hfails
      have hnext := h.next (hchosen h hturn).1 (hchosen h hturn).2 hsome
      obtain ⟨last, q, hrest⟩ := ih (hnext.same (same_refused env client d p ref why))
      exact ⟨last, q, hrest.dial hturn hfails⟩)
    d p
  obtain ⟨last, q, hfailover⟩ := hout h
  exact ⟨out, last, q, hreturns, hfailover⟩

theorem underway_start (env : DialEnv) (p : Pool) : Underway env p {} :=
  ⟨fun _ h => (List.not_mem_nil h).elim, List.nodup_nil, fun _ h => (Nat.not_lt_zero _ h).elim,
    fun _ h => by cases h⟩

theorem underway_dialAddr (env : DialEnv) (p : Pool) (addr : String) :
    Underway env p (p.dialAddr addr) :=
  ⟨fun _ h => (List.not_mem_nil h).elim, List.nodup_nil, fun _ h => (Nat.not_lt_zero _ h).elim,
    fun _ h => ⟨List.mem_of_find?_eq_some h, List.not_mem_nil⟩⟩

/-- `dial` and `dialAddr`. -/
theorem failover_tries_once (env : DialEnv) (p : Pool) :
    (∀ client, ∃ out last q,
      (∀ more, dialFrom env client (p.members.length + 2 + more) {} p = some out) ∧
        Failover env client {} p out last q) ∧
    (∀ addr, ∃ out last q,
      (∀ more, dialFrom env .zero (p.members.length + 2 + more) (p.dialAddr addr) p = some out) ∧
        Failover env .zero (p.dialAddr addr) p out last q) := by
  constructor
  · intro client
    obtain ⟨out, last, q, hreturns, hout⟩ := dialFrom_spec env client (underway_start env p)
    have hturns := p.turns_le {}
    exact ⟨out, last, q, fun more => hreturns _ (by omega), hout⟩
  · intro addr
    obtain ⟨out, last, q, hreturns, hout⟩ :=
      dialFrom_spec env .zero (underway_dialAddr env p addr)
    have hturns := p.turns_le (p.dialAddr addr)
    exact ⟨out, last, q, fun more => hreturns _ (by omega), hout⟩

def twoMembers : Pool :=
  { next := 2, members := [0, 1], cells := fun ref => { addr := toString ref, weight := 1 } }

def secondAnswers : DialEnv where
  before _ p := p
  during _ p := p
  random _ := (0, 0)
  outcome n := if n = 0 then some "connection refused" else none
  now _ := 0
  handshake := none
  before_same _ p := .refl p
  during_same _ p := .refl p

/-- The dial of the first member fails, the dial of the second does not. -/
theorem failover_tries_once_second : ∃ out last q,
    dialFrom secondAnswers .zero 4 {} twoMembers = some out ∧ out.conn = some 1 ∧
      out.tried = [0, 1] ∧ last.tried = [0] ∧ (q.cells 0).fails = 1 ∧
      Failover secondAnswers .zero {} twoMembers out last q := by
  obtain ⟨out, last, q, hreturns, hout⟩ := (failover_tries_once secondAnswers twoMembers).1 .zero
  have hdialed : dialFrom secondAnswers .zero 4 {} twoMembers = some out := hreturns 0
  have hconn : out.conn = some 1 := by
    have hsome : (dialFrom secondAnswers .zero 4 {} twoMembers).bind Dialed.conn = some 1 := by decide
    rwa [hdialed] at hsome
  have htried : out.tried = [0, 1] := by
    have hsome : (dialFrom secondAnswers .zero 4 {} twoMembers).map Dialed.tried = some [0, 1] := by
      decide
    rw [hdialed] at hsome
    exact Option.some.inj hsome
  have hlast : last.tried = [0] := by
    have hsplit := hout.tried
    rw [htried, hconn] at hsplit
    exact (List.append_left_inj [1]).mp hsplit.symm
  refine ⟨out, last, q, hdialed, hconn, htried, hlast, ?_, hout⟩
  have hturns := hout.turns
  cases hturns with
  | none => cases hlast
  | dial hturn hfails rest =>
    cases hturn
    cases hfails
    cases rest with
    | none => decide
    | dial hturn hfails => cases hfails

def handshakeFailed (p : Pool) (ref : ℕ) (why : String) (now : ℤ) : Pool :=
  (p.disconnected ref).dialFailed ref ("TLS: " ++ why) now

def secure (fwd : EdgePortForward) (env : DialEnv) (out : Dialed) : Pool × Option ℕ :=
  match out.conn with
  | none => (out.pool, none)
  | some ref =>
    if fwd.backendScheme = .http then (out.pool, some ref)
    else match env.handshake with
      | none => (out.pool, some ref)
      | some why => (out.pool.handshakeFailed ref why (env.now out.tried.length), none)

def openFrom (fwd : EdgePortForward) (env : DialEnv) (client : Addr) (fuel : ℕ) (d : Dialing)
    (p : Pool) : Option (Pool × Option ℕ) :=
  (dialFrom env client fuel d p).map (secure fwd env)

def openStreamTo (fwd : EdgePortForward) (env : DialEnv) (backend : String) (fuel : ℕ) (p : Pool) :
    Option (Pool × Option ℕ) :=
  openFrom fwd env .zero fuel (p.dialAddr backend) p

/-- The errors and readings of the clock that follow a cancellation. -/
structure Canceled where
  dial : ℕ → String
  handshake : String
  random : ℕ → ℕ × ℕ
  now : ℕ → ℤ

def Canceled.env (c : Canceled) : DialEnv where
  before _ p := p
  during _ p := p
  random := c.random
  outcome n := some (c.dial n)
  now := c.now
  handshake := some c.handshake
  before_same _ p := .refl p
  during_same _ p := .refl p

/-- Where opening a stream is when the request is canceled. -/
inductive Stage where
  | loop (client : Addr) (d : Dialing)
  | dial (client : Addr) (d : Dialing) (ref : ℕ)
  | handshake (ref turn : ℕ)

/-- What is left of opening a stream at a stage, once the request is
canceled. -/
def Stage.rest (fwd : EdgePortForward) (c : Canceled) (fuel : ℕ) (p : Pool) :
    Stage → Option (Pool × Option ℕ)
  | .loop client d => openFrom fwd c.env client fuel d p
  | .dial client d ref =>
    openFrom fwd c.env client fuel (d.next ref)
      (p.dialFailed ref (c.dial d.tried.length) (c.now d.tried.length))
  | .handshake ref turn => some (p.handshakeFailed ref c.handshake (c.now turn), none)

def Stage.Idle (p : Pool) : Stage → Prop
  | .loop _ d => d.first = none ∧ p.candidates d.tried = []
  | .dial _ _ _ => False
  | .handshake _ _ => False

def SameHealth (p q : Pool) : Prop :=
  ∀ ref, (q.cells ref).fails = (p.cells ref).fails ∧ (q.cells ref).healthy = (p.cells ref).healthy

def NoFewer (p q : Pool) : Prop := ∀ ref, (p.cells ref).fails ≤ (q.cells ref).fails

theorem fails_modify (p : Pool) (ref : ℕ) {f : Member → Member} (hf : ∀ m, (f m).fails = m.fails)
    (u : ℕ) : ((p.modify ref f).cells u).fails = (p.cells u).fails := by
  by_cases hu : u = ref
  · subst hu
    simp [modify, hf]
  · simp [modify, hu]

theorem fails_foldl_roundOne (cands : List ℕ) (acc : Pool × ℤ × Option ℕ) (u : ℕ) :
    ((cands.foldl roundOne acc).1.cells u).fails = (acc.1.cells u).fails := by
  induction cands generalizing acc with
  | nil => rfl
  | cons ref cands ih =>
    rw [List.foldl_cons, ih]
    exact fails_modify acc.1 ref (f := fun m => { m with current := m.current + m.weight })
      (fun _ => rfl) u

theorem fails_pick (p : Pool) (client : Addr) (tried : List ℕ) (random : ℕ × ℕ) (u : ℕ) :
    ((p.pick client tried random).1.cells u).fails = (p.cells u).fails := by
  unfold pick
  split
  · rfl
  next first rest _ =>
    split
    · rfl
    · rfl
    · rfl
    · unfold smoothRoundRobin
      dsimp only
      split
      · exact fails_foldl_roundOne _ (p, 0, none) u
      · rw [← fails_foldl_roundOne (first :: rest) (p, 0, none) u]
        exact fails_modify (f := fun m => { m with current := m.current - _ }) _ _ (fun _ => rfl) u

theorem fails_choose (p : Pool) (client : Addr) (d : Dialing) (random : ℕ × ℕ) (u : ℕ) :
    ((p.choose client d random).1.cells u).fails = (p.cells u).fails := by
  unfold choose
  split
  · rfl
  · exact fails_pick p client d.tried random u

theorem fails_dialFailed (p : Pool) (ref : ℕ) (why : String) (now : ℤ) :
    ((p.dialFailed ref why now).cells ref).fails = (p.cells ref).fails + 1 := by
  simp [dialFailed, modify, Member.failed]

theorem noFewer_dialFailed (p : Pool) (ref : ℕ) (why : String) (now : ℤ) :
    NoFewer p (p.dialFailed ref why now) := by
  intro u
  by_cases hu : u = ref
  · subst hu
    rw [fails_dialFailed]
    omega
  · simp [dialFailed, modify, hu]

theorem fails_refused (c : Canceled) (client : Addr) (d : Dialing) (p : Pool) (ref : ℕ)
    (why : String) :
    ((refused c.env client d p ref why).cells ref).fails = (p.cells ref).fails + 1 := by
  unfold refused
  rw [fails_dialFailed]
  show (((p.choose client d _).1.cells ref).fails) + 1 = _
  rw [fails_choose]

theorem noFewer_refused (c : Canceled) (client : Addr) (d : Dialing) (p : Pool) (ref : ℕ)
    (why : String) : NoFewer p (refused c.env client d p ref why) := by
  intro u
  have hcount := noFewer_dialFailed (turn c.env client d p).1 ref why (c.now d.tried.length) u
  have hturn : ((turn c.env client d p).1.cells u).fails = (p.cells u).fails :=
    fails_choose p client d _ u
  rw [hturn] at hcount
  exact hcount

theorem dialFrom_canceled (c : Canceled) (client : Addr) (d : Dialing) (p : Pool) :
    ∃ out, (∀ fuel, p.turns d < fuel → dialFrom c.env client fuel d p = some out) ∧
      out.conn = none ∧ NoFewer p out.pool ∧
      ((turn c.env client d p).2 = none → out.pool = (turn c.env client d p).1) ∧
      ∀ ref, (turn c.env client d p).2 = some ref →
        (p.cells ref).fails < (out.pool.cells ref).fails := by
  refine dialFrom_rule c.env client (motive := fun d p out => out.conn = none ∧
      NoFewer p out.pool ∧
      ((turn c.env client d p).2 = none → out.pool = (turn c.env client d p).1) ∧
      ∀ ref, (turn c.env client d p).2 = some ref →
        (p.cells ref).fails < (out.pool.cells ref).fails)
    (fun d p hnone => ?_) (fun d p ref pool _ hok => ?_)
    (fun d p ref why out hturn hfails ih => ?_) d p
  · refine ⟨rfl, fun u => ?_, fun _ => rfl, fun ref hr => ?_⟩
    · exact Int.le_of_eq (fails_choose p client d _ u).symm
    · rw [hnone] at hr
      cases hr
  · cases hok
  · obtain ⟨hconn, hmore, -, -⟩ := ih
    refine ⟨hconn, fun u => Int.le_trans (noFewer_refused c client d p ref why u) (hmore u), fun hnone => ?_,
      fun u hu => ?_⟩
    · rw [hturn] at hnone
      cases hnone
    · rw [hturn] at hu
      cases hu
      have hcount := fails_refused c client d p ref why
      have hlater := hmore ref
      omega

theorem choose_none_iff : (p.choose client d random).2 = none ↔
    d.first = none ∧ p.candidates d.tried = [] := by
  unfold choose
  cases hfirst : d.first with
  | some ref => simp
  | none =>
    refine ⟨fun hnone => ⟨rfl, pick_none hnone⟩, fun ⟨_, hempty⟩ => ?_⟩
    exact congrArg Prod.snd (pick_nil hempty)

theorem not_sameHealth {p q : Pool} (ref : ℕ) (h : (p.cells ref).fails < (q.cells ref).fails) :
    ¬ SameHealth p q := by
  intro hsame
  have hkept := (hsame ref).1
  omega

/-- A canceled loop returns no member, and leaves health as it was only when
there was nothing left to try. -/
theorem openFrom_canceled (fwd : EdgePortForward) (c : Canceled) (client : Addr) (d : Dialing)
    (p : Pool) :
    ∃ q, (∀ fuel, p.members.length + 1 < fuel →
        openFrom fwd c.env client fuel d p = some (q, none)) ∧
      NoFewer p q ∧ (SameHealth p q ↔ d.first = none ∧ p.candidates d.tried = []) := by
  obtain ⟨out, hreturns, hconn, hmore, hidle, hbusy⟩ := dialFrom_canceled c client d p
  have hturns := p.turns_le d
  have hsecure : secure fwd c.env out = (out.pool, none) := by
    unfold secure
    rw [hconn]
  refine ⟨out.pool, fun fuel hfuel => ?_, hmore, fun hsame => ?_, fun hempty => ?_⟩
  · unfold openFrom
    rw [hreturns fuel (by omega), Option.map_some, hsecure]
  · -- whatever the turn dialed has a failure more
    refine choose_none_iff.mp (?_ : (turn c.env client d p).2 = none)
    cases hturn : (turn c.env client d p).2 with
    | none => rfl
    | some ref => exact absurd hsame (not_sameHealth ref (hbusy ref hturn))
  · have hturn : turn c.env client d p = (p, none) := by
      show p.choose client d (c.random d.tried.length) = _
      unfold choose
      rw [hempty.1]
      exact pick_nil hempty.2
    rw [hidle (congrArg Prod.snd hturn), hturn]
    exact fun ref => ⟨rfl, rfl⟩

/-- A canceled request leaves the counts alone exactly if it has nothing to dial. -/
theorem canceled_leaves_health_iff (fwd : EdgePortForward) (c : Canceled) (p : Pool) (stage : Stage) :
    ∃ q, (∀ more, stage.rest fwd c (p.members.length + 2 + more) p = some (q, none)) ∧
      (SameHealth p q ↔ stage.Idle p) := by
  cases stage with
  | loop client d =>
    obtain ⟨q, hreturns, -, hsame⟩ := openFrom_canceled fwd c client d p
    exact ⟨q, fun more => hreturns _ (by omega), hsame⟩
  | dial client d ref =>
    obtain ⟨q, hreturns, hmore, -⟩ := openFrom_canceled fwd c client (d.next ref)
      (p.dialFailed ref (c.dial d.tried.length) (c.now d.tried.length))
    have hcount := hmore ref
    rw [fails_dialFailed] at hcount
    refine ⟨q, fun more => hreturns _ ?_, iff_of_false (not_sameHealth ref ?_) not_false⟩
    · rw [(same_dialFailed p ref _ _).members]
      omega
    · omega
  | handshake ref turn =>
    refine ⟨_, fun more => rfl, iff_of_false (not_sameHealth ref ?_) not_false⟩
    have hclosed : ((p.disconnected ref).cells ref).fails = (p.cells ref).fails := by
      refine fails_modify p ref ?_ ref
      exact fun _ => rfl
    unfold handshakeFailed
    rw [fails_dialFailed]
    omega

def oneMember : Pool := { next := 1, members := [0], cells := fun _ => { addr := "10.0.0.1:80", weight := 1 } }

def goneAway : Canceled :=
  { dial := fun _ => "operation was canceled", handshake := "context canceled"
    random := fun _ => (0, 0), now := fun _ => 0 }

/-- A request that has been canceled before its dial counts a failure, and after three
of them the member is down. -/
theorem canceled_marks_down :
    let abort := fun p : Pool => ((openStreamTo {} goneAway.env "10.0.0.1:80" 3 p).map Prod.fst).getD p
    (oneMember.cells 0).healthy = true ∧
      ((abort oneMember).cells 0).fails = 1 ∧
      ((abort (abort (abort oneMember))).cells 0).healthy = false := by
  decide

end Pool
end L8Tunnel.Edge
