import L8Tunnel.Base.Argmax
import L8Tunnel.Base.RoundRobin
import L8Tunnel.Edge.Pool

/-! # What the balancing algorithms pick (edge/pool.go, edgeconf/targets.go) -/

namespace L8Tunnel.Edge.Pool
open Base Net

def share (p : Pool) (cands : List ℕ) (ref : ℕ) : ℤ := cands.count ref * (p.cells ref).weight
def roundOf (p : Pool) (cands : List ℕ) : ℤ := (cands.map fun ref => (p.cells ref).weight).sum
def currents (p : Pool) (ref : ℕ) : ℤ := (p.cells ref).current

theorem total_share (p : Pool) (cands : List ℕ) :
    RoundRobin.total cands.toFinset (p.share cands) = p.roundOf cands := by
  unfold RoundRobin.total roundOf
  rw [Finset.sum_list_map_count]
  refine Finset.sum_congr rfl fun ref _ => ?_
  rw [nsmul_eq_mul]
  rfl

variable {p : Pool} {cands : List ℕ}

theorem share_pos (h : ∀ ref ∈ cands, 0 < (p.cells ref).weight) :
    ∀ ref ∈ cands.toFinset, 0 < p.share cands ref := by
  intro ref hmem
  have hin : ref ∈ cands := List.mem_toFinset.mp hmem
  have hcount : 0 < (cands.count ref : ℤ) := by exact_mod_cast List.count_pos_iff.mpr hin
  exact mul_pos hcount (h ref hin)

/-- The loop of smooth round robin after the members of `done`. -/
structure Rounds (p : Pool) (done : List ℕ) (acc : Pool × ℤ × Option ℕ) : Prop where
  cells : ∀ u, acc.1.cells u =
    { p.cells u with current := (p.cells u).current + p.share done u }
  total : acc.2.1 = p.roundOf done
  best : done ≠ [] → ∃ best ∈ done, acc.2.2 = some best ∧
    ∀ u ∈ done, acc.1.currents u ≤ acc.1.currents best
  start : done = [] → acc.2.2 = none

theorem share_concat (p : Pool) (done : List ℕ) (ref u : ℕ) :
    p.share (done ++ [ref]) u = p.share done u + if u = ref then (p.cells u).weight else 0 := by
  unfold share
  rw [List.count_append, List.count_singleton]
  by_cases hu : u = ref
  · subst hu
    simp
    ring
  · have hne : (ref == u) = false := by simpa using fun heq => hu heq.symm
    simp [hu, hne]

theorem Rounds.next {done : List ℕ} {acc : Pool × ℤ × Option ℕ} (h : Rounds p done acc) {ref : ℕ}
    (hweight : 0 ≤ (p.cells ref).weight) : Rounds p (done ++ [ref]) (roundOne acc ref) := by
  have hcells : ∀ u, (roundOne acc ref).1.cells u =
      { p.cells u with current := (p.cells u).current + p.share (done ++ [ref]) u } := by
    intro u
    rw [share_concat]
    by_cases hu : u = ref
    · subst hu
      simp only [roundOne, modify, Function.update_self, h.cells, if_true]
      rw [add_assoc]
    · simp only [roundOne, modify, Function.update_of_ne hu, h.cells, if_neg hu, add_zero]
  have hcurrent : ∀ u, (roundOne acc ref).1.currents u =
      acc.1.currents u + if u = ref then (p.cells u).weight else 0 := by
    intro u
    unfold currents
    rw [hcells, h.cells, share_concat]
    exact (add_assoc _ _ _).symm
  refine ⟨hcells, ?_, fun _ => ?_, fun hnil => absurd hnil (by simp)⟩
  · have hadd : (roundOne acc ref).2.1 = acc.2.1 + ((roundOne acc ref).1.cells ref).weight := rfl
    rw [hadd, hcells, h.total]
    simp [roundOf]
  · cases hacc : acc.2.2 with
    | none =>
      have hdone : done = [] := by
        by_contra hne
        obtain ⟨best, -, hbest, -⟩ := h.best hne
        rw [hacc] at hbest
        cases hbest
      subst hdone
      refine ⟨ref, List.mem_cons_self, ?_, fun u hu => ?_⟩
      · simp [roundOne, hacc]
      · rw [List.mem_singleton.mp hu]
    | some best =>
      have hdone : done ≠ [] := by
        intro hnil
        rw [h.start hnil] at hacc
        cases hacc
      obtain ⟨best', hmem, hbest, hmost⟩ := h.best hdone
      obtain rfl : best = best' := Option.some.inj (hacc.symm.trans hbest)
      have hnew : (roundOne acc ref).2.2 =
          some (if (roundOne acc ref).1.currents best < (roundOne acc ref).1.currents ref then ref
            else best) := by
        simp only [roundOne, hacc, currents]
      have hgrows : acc.1.currents best ≤ (roundOne acc ref).1.currents best := by
        rw [hcurrent]
        split
        next heq =>
          rw [heq]
          omega
        next => omega
      have hother : ∀ u, u ≠ ref → (roundOne acc ref).1.currents u = acc.1.currents u := by
        intro u hu
        rw [hcurrent, if_neg hu, add_zero]
      by_cases hless : (roundOne acc ref).1.currents best < (roundOne acc ref).1.currents ref
      · -- the candidate has more than the best so far
        rw [if_pos hless] at hnew
        refine ⟨ref, by simp, hnew, fun u hu => ?_⟩
        by_cases hu' : u = ref
        · rw [hu']
        · have hold : u ∈ done := (List.mem_append.mp hu).resolve_right (by simpa using hu')
          have hle := hmost u hold
          rw [hother u hu']
          omega
      · rw [if_neg hless] at hnew
        refine ⟨best, List.mem_append_left _ hmem, hnew, fun u hu => ?_⟩
        by_cases hu' : u = ref
        · rw [hu']
          exact not_lt.mp hless
        · have hold : u ∈ done := (List.mem_append.mp hu).resolve_right (by simpa using hu')
          rw [hother u hu']
          exact (hmost u hold).trans hgrows

/-- The loop of smooth weighted round robin, as the round it takes over all candidates. -/
theorem rounds_foldl (h : ∀ ref ∈ cands, 0 ≤ (p.cells ref).weight) :
    Rounds p cands (cands.foldl roundOne (p, 0, none)) := by
  induction cands using List.reverseRecOn with
  | nil =>
    refine ⟨fun u => ?_, rfl, fun hne => absurd rfl hne, fun _ => rfl⟩
    simp [share]
  | append_singleton cands ref ih =>
    rw [List.foldl_concat]
    exact (ih fun u hu => h u (List.mem_append_left _ hu)).next (h ref (by simp))

theorem smoothRoundRobin_turn (hne : cands ≠ []) (h : ∀ ref ∈ cands, 0 < (p.cells ref).weight) :
    ∃ best, (p.smoothRoundRobin cands).2 = some best ∧
      RoundRobin.Turn cands.toFinset (p.share cands) p.currents best
        (p.smoothRoundRobin cands).1.currents ∧
      ∀ u, ((p.smoothRoundRobin cands).1.cells u).weight = (p.cells u).weight := by
  have hround := rounds_foldl fun ref href => (h ref href).le
  obtain ⟨best, hmem, hbest, hmost⟩ := hround.best hne
  have hout : p.smoothRoundRobin cands =
      ((cands.foldl roundOne (p, 0, none)).1.modify best fun m =>
        { m with current := m.current - p.roundOf cands }, some best) := by
    unfold smoothRoundRobin
    simp only [hbest, hround.total]
  have hbefore : ∀ u, (cands.foldl roundOne (p, 0, none)).1.currents u =
      p.currents u + p.share cands u := by
    intro u
    unfold currents
    rw [hround.cells]
  rw [hout]
  refine ⟨best, rfl, ⟨List.mem_toFinset.mpr hmem, fun u hu => ?_, fun u _ => ?_⟩, fun u => ?_⟩
  · have hle := hmost u (List.mem_toFinset.mp hu)
    rw [hbefore, hbefore] at hle
    exact hle
  · rw [total_share, ← hbefore]
    by_cases hu : u = best
    · subst hu
      simp [currents, modify]
    · simp [currents, modify, hu]
  · by_cases hu : u = best
    · subst hu
      simp [modify, hround.cells]
    · simp [modify, hu, hround.cells]

def afterCalls (cands : List ℕ) (p : Pool) (t : ℕ) : Pool :=
  (fun q => (q.smoothRoundRobin cands).1)^[t] p

def pickAt (cands : List ℕ) (p : Pool) (t : ℕ) : Option ℕ :=
  ((afterCalls cands p t).smoothRoundRobin cands).2

theorem afterCalls_succ (cands : List ℕ) (p : Pool) (t : ℕ) :
    afterCalls cands p (t + 1) = ((afterCalls cands p t).smoothRoundRobin cands).1 :=
  Function.iterate_succ_apply' _ t p

theorem afterCalls_weight (hne : cands ≠ []) (h : ∀ ref ∈ cands, 0 < (p.cells ref).weight)
    (t : ℕ) : ∀ u, ((afterCalls cands p t).cells u).weight = (p.cells u).weight := by
  induction t with
  | zero => exact fun u => rfl
  | succ t ih =>
    have hpos : ∀ ref ∈ cands, 0 < ((afterCalls cands p t).cells ref).weight := by
      intro ref href
      rw [ih]
      exact h ref href
    obtain ⟨-, -, -, hweight⟩ := smoothRoundRobin_turn hne hpos
    intro u
    rw [afterCalls_succ, hweight, ih]

theorem schedule_calls (hne : cands ≠ []) (h : ∀ ref ∈ cands, 0 < (p.cells ref).weight)
    (hstart : ∀ ref ∈ cands, (p.cells ref).current = 0) :
    ∃ pick : ℕ → ℕ, (∀ t, pickAt cands p t = some (pick t)) ∧
      RoundRobin.Schedule cands.toFinset (p.share cands)
        (fun t => (afterCalls cands p t).currents) pick := by
  have hturn : ∀ t, ∃ best, pickAt cands p t = some best ∧
      RoundRobin.Turn cands.toFinset (p.share cands) (afterCalls cands p t).currents best
        (afterCalls cands p (t + 1)).currents := by
    intro t
    have hweight := afterCalls_weight hne h t
    have hpos : ∀ ref ∈ cands, 0 < ((afterCalls cands p t).cells ref).weight := by
      intro ref href
      rw [hweight]
      exact h ref href
    have hshare : (afterCalls cands p t).share cands = p.share cands := by
      funext u
      unfold share
      rw [hweight]
    obtain ⟨best, hbest, hturn, -⟩ := smoothRoundRobin_turn hne hpos
    rw [hshare, ← afterCalls_succ] at hturn
    exact ⟨best, hbest, hturn⟩
  choose pick hpick hturn using hturn
  exact ⟨pick, hpick, fun ref href => hstart ref (List.mem_toFinset.mp href), hturn⟩

/-- What smooth round robin gives each member in every round, and at no time too much. -/
structure ExactRounds (p : Pool) (cands : List ℕ) : Prop where
  picks : ∀ t, ∃ ref ∈ cands, pickAt cands p t = some ref
  sum : ∀ t, ∑ ref ∈ cands.toFinset, ((afterCalls cands p t).cells ref).current = 0
  low : ∀ t, ∀ ref ∈ cands, -p.roundOf cands < ((afterCalls cands p t).cells ref).current
  again : ∀ k : ℕ, ∀ ref ∈ cands,
    ((afterCalls cands p (k * (p.roundOf cands).toNat)).cells ref).current = 0
  picked : ∀ k : ℕ, ∀ ref ∈ cands,
    (RoundRobin.times (fun t => pickAt cands p (k * (p.roundOf cands).toNat + t)) (some ref)
      (p.roundOf cands).toNat : ℤ) = p.share cands ref
  ahead : ∀ t : ℕ, ∀ ref ∈ cands,
    RoundRobin.times (pickAt cands p) (some ref) t * p.roundOf cands <
      t * p.share cands ref + p.roundOf cands

theorem round_robin_exact {p : Pool} {cands : List ℕ} (hne : cands ≠ [])
    (hweights : ∀ ref ∈ cands, 0 < (p.cells ref).weight)
    (hstart : ∀ ref ∈ cands, (p.cells ref).current = 0) : ExactRounds p cands := by
  obtain ⟨pick, hpick, hschedule⟩ := schedule_calls hne hweights hstart
  have hpos := share_pos hweights
  have hmem : ∀ {ref}, ref ∈ cands → ref ∈ cands.toFinset := List.mem_toFinset.mpr
  have htimes : ∀ (a t ref : ℕ), RoundRobin.times (fun k => pickAt cands p (a + k)) (some ref) t =
      RoundRobin.times (fun k => pick (a + k)) ref t := by
    intro a t ref
    unfold RoundRobin.times
    simp only [hpick, Option.some.injEq]
  have htotal := total_share p cands
  constructor
  · intro t
    exact ⟨pick t, List.mem_toFinset.mp (hschedule.turn t).mem, hpick t⟩
  · exact fun t => (hschedule.balanced hpos t).sum
  · intro t ref href
    rw [← htotal]
    exact (hschedule.balanced hpos t).low ref (hmem href)
  · intro k ref href
    rw [← htotal]
    exact hschedule.round hpos k (hmem href)
  · intro k ref href
    rw [← htotal, htimes]
    exact hschedule.times_window hpos k (hmem href)
  · intro t ref href
    have hlt := hschedule.times_lt hpos (hmem href) t
    have hzero := htimes 0 t ref
    simp only [Nat.zero_add] at hzero
    rw [← htotal, hzero]
    exact hlt

def twoToOne : Pool :=
  { cells := fun ref => { weight := if ref = 0 then 2 else 1 }, next := 2, members := [0, 1] }

theorem round_robin_exact_twoToOne :
    ExactRounds twoToOne [0, 1] ∧ twoToOne.roundOf [0, 1] = 3 ∧
      (List.range 6).map (pickAt [0, 1] twoToOne) =
        [some 0, some 1, some 0, some 0, some 1, some 0] := by
  have hweights : ∀ ref ∈ [0, 1], 0 < (twoToOne.cells ref).weight := by decide
  have hstart : ∀ ref ∈ [0, 1], (twoToOne.cells ref).current = 0 := by decide
  exact ⟨round_robin_exact (List.cons_ne_nil 0 [1]) hweights hstart, rfl, rfl⟩

def scoreBy (hash : Addr → String → UInt64) (client : Addr) (m : Member) : UInt64 :=
  hash client m.addr / 1048576 * UInt64.ofBitVec (BitVec.ofInt 64 m.weight)

def sourceHashBy (hash : Addr → String → UInt64) (p : Pool) (client : Addr) (first : ℕ)
    (rest : List ℕ) : ℕ :=
  (rest.foldl (fun best ref =>
    let s := scoreBy hash client (p.cells ref)
    if best.2 < s then (ref, s) else best) (first, scoreBy hash client (p.cells first))).1

def pickBy (hash : Addr → String → UInt64) (p : Pool) (client : Addr) (tried : List ℕ)
    (random : ℕ × ℕ) : Pool × Option ℕ :=
  match p.candidates tried with
  | [] => (p, none)
  | first :: rest =>
    match p.fwd.lb with
    | .leastConn => (p, some (p.leastConn first rest))
    | .sourceHash => (p, some (p.sourceHashBy hash client first rest))
    | .random => (p, some (p.randomPick random first rest))
    | _ => p.smoothRoundRobin (first :: rest)

def fnvHash (client : Addr) (addr : String) : UInt64 := fnv1a (asSlice client ++ Bytes.ofString addr)

theorem pick_eq_pickBy (p : Pool) (client : Addr) (tried : List ℕ) (random : ℕ × ℕ) :
    p.pick client tried random = p.pickBy fnvHash client tried random := rfl

theorem scoreBy_toNat (hash : Addr → String → UInt64) (client : Addr) {m : Member}
    (hlow : 1 ≤ m.weight) (hhigh : m.weight ≤ 100) :
    (scoreBy hash client m).toNat = (hash client m.addr).toNat / 1048576 * m.weight.toNat := by
  have hweight : (UInt64.ofBitVec (BitVec.ofInt 64 m.weight)).toNat = m.weight.toNat := by
    show (BitVec.ofInt 64 m.weight).toNat = _
    rw [BitVec.toNat_ofInt]
    exact congrArg Int.toNat (Int.emod_eq_of_lt (by omega) (by omega))
  have hdiv : (hash client m.addr / 1048576).toNat = (hash client m.addr).toNat / 1048576 :=
    UInt64.toNat_div _ _
  have hhash : (hash client m.addr).toNat < 18446744073709551616 := UInt64.toNat_lt _
  unfold scoreBy
  rw [UInt64.toNat_mul, hweight, hdiv]
  refine Nat.mod_eq_of_lt ?_
  -- the division leaves 44 bits and the weight takes seven
  have hquot : (hash client m.addr).toNat / 1048576 ≤ 17592186044415 := by omega
  have hfactor : m.weight.toNat ≤ 100 := by omega
  calc (hash client m.addr).toNat / 1048576 * m.weight.toNat
      ≤ 17592186044415 * 100 := Nat.mul_le_mul hquot hfactor
    _ < 2 ^ 64 := by decide

theorem sourceHashBy_eq_argmax (hash : Addr → String → UInt64) (p : Pool) (client : Addr)
    (first : ℕ) (rest : List ℕ) :
    some (p.sourceHashBy hash client first rest) =
      (first :: rest).argmax fun ref => (scoreBy hash client (p.cells ref)).toNat := by
  unfold sourceHashBy
  suffices hloop : ∃ best, rest.foldl (fun best ref =>
      let s := scoreBy hash client (p.cells ref)
      if best.2 < s then (ref, s) else best) (first, scoreBy hash client (p.cells first)) =
        (best, scoreBy hash client (p.cells best)) ∧
      (first :: rest).argmax (fun ref => (scoreBy hash client (p.cells ref)).toNat) = some best by
    obtain ⟨best, hfold, harg⟩ := hloop
    rw [hfold, harg]
  induction rest using List.reverseRecOn with
  | nil => exact ⟨first, rfl, rfl⟩
  | append_singleton rest ref ih =>
    obtain ⟨best, hfold, harg⟩ := ih
    rw [List.foldl_concat, hfold, ← List.cons_append, List.argmax_concat, harg]
    by_cases hless : (scoreBy hash client (p.cells best)).toNat <
        (scoreBy hash client (p.cells ref)).toNat
    · refine ⟨ref, ?_, if_pos hless⟩
      exact if_pos (UInt64.lt_iff_toNat_lt.mpr hless)
    · refine ⟨best, ?_, if_neg hless⟩
      exact if_neg fun hlt => hless (UInt64.lt_iff_toNat_lt.mp hlt)

theorem pickBy_sourceHash {hash : Addr → String → UInt64} (hlb : p.fwd.lb = .sourceHash)
    (client : Addr) (tried : List ℕ) (random : ℕ × ℕ) :
    (p.pickBy hash client tried random).2 =
      (p.candidates tried).argmax fun ref => (scoreBy hash client (p.cells ref)).toNat := by
  unfold pickBy
  cases p.candidates tried with
  | nil => rfl
  | cons first rest =>
    dsimp only
    rw [hlb]
    exact sourceHashBy_eq_argmax hash p client first rest

/-- The candidates of `q` are those of `p` and one more: either it is picked, or the
pick of `p`. Read the other way, a candidate that is not the pick can go. -/
theorem source_hash_moves {hash : Addr → String → UInt64} {p q : Pool}
    (hp : p.fwd.lb = .sourceHash) (hq : q.fwd.lb = .sourceHash) {tried tried' l₁ l₂ : List ℕ}
    {x : ℕ} (hbefore : p.candidates tried = l₁ ++ l₂) (hafter : q.candidates tried' = l₁ ++ x :: l₂)
    (hsame : ∀ ref ∈ l₁ ++ l₂, (q.cells ref).addr = (p.cells ref).addr ∧
      (q.cells ref).weight = (p.cells ref).weight)
    (hweights : ∀ ref ∈ l₁ ++ x :: l₂, 1 ≤ (q.cells ref).weight ∧ (q.cells ref).weight ≤ 100)
    (client : Addr) (random random' : ℕ × ℕ) :
    ((q.pickBy hash client tried' random').2 = some x ∨
      (q.pickBy hash client tried' random').2 = (p.pickBy hash client tried random).2) ∧
    ((q.pickBy hash client tried' random').2 ≠ some x →
      (p.pickBy hash client tried random).2 = (q.pickBy hash client tried' random').2) ∧
    ∀ ref ∈ l₁ ++ x :: l₂, (scoreBy hash client (q.cells ref)).toNat =
      (hash client (q.cells ref).addr).toNat / 1048576 * (q.cells ref).weight.toNat := by
  have hscores : (l₁ ++ l₂).argmax (fun ref => (scoreBy hash client (p.cells ref)).toNat) =
      (l₁ ++ l₂).argmax fun ref => (scoreBy hash client (q.cells ref)).toNat := by
    refine Argmax.argmax_congr fun ref href => ?_
    unfold scoreBy
    rw [(hsame ref href).1, (hsame ref href).2]
  have hinsert := Argmax.argmax_insert (fun ref => (scoreBy hash client (q.cells ref)).toNat) x l₁ l₂
  rw [pickBy_sourceHash hp, pickBy_sourceHash hq, hbefore, hafter, hscores]
  refine ⟨hinsert, fun hne => (hinsert.resolve_left hne).symm, fun ref href => ?_⟩
  exact scoreBy_toNat hash client (hweights ref href).1 (hweights ref href).2

def hashed (down : Bool) : Pool :=
  { fwd := { lb := .sourceHash }, next := 3, members := [0, 1, 2]
    cells := fun ref =>
      { addr := toString ref ++ ":80", weight := 1 + ref, healthy := !(down && ref == 1) } }

/-- Member 1 takes the client 0.0.0.1; 0.0.0.2 stays with member 2 when it goes. -/
theorem source_hash_moves_hashed :
    ((hashed false).pick (.v4 1) [] (0, 0)).2 = some 1 ∧
      ((hashed false).pick (.v4 2) [] (0, 0)).2 = some 2 ∧
      ((hashed true).pick (.v4 2) [] (0, 0)).2 = some 2 := by
  have hbefore : (hashed true).candidates [] = [0] ++ [2] := rfl
  have hafter : (hashed false).candidates [] = [0] ++ 1 :: [2] := rfl
  have hweights : ∀ ref ∈ [0] ++ 1 :: [2],
      1 ≤ ((hashed false).cells ref).weight ∧ ((hashed false).cells ref).weight ≤ 100 := by
    decide
  have htwo : ((hashed false).pick (.v4 2) [] (0, 0)).2 = some 2 := by decide +kernel
  refine ⟨by decide +kernel, htwo, ?_⟩
  rw [pick_eq_pickBy] at htwo ⊢
  have hother : ((hashed false).pickBy fnvHash (.v4 2) [] (0, 0)).2 ≠ some 1 := by
    rw [htwo]
    decide
  have hstays := (source_hash_moves rfl rfl hbefore hafter (fun ref _ => ⟨rfl, rfl⟩) hweights
    (.v4 2) (0, 0) (0, 0)).2.1 hother
  exact hstays.trans htwo

/-- The active connections for each unit of weight, in exact rationals. -/
def load (m : Member) : ℚ := m.active / m.weight

theorem cross_toInt {m best : Member} (hactive : 0 ≤ m.active ∧ m.active < 2 ^ 56)
    (hweight : 1 ≤ best.weight ∧ best.weight ≤ 100) :
    (Int64.ofInt m.active * Int64.ofInt best.weight).toInt = m.active * best.weight := by
  have hlow : 0 ≤ m.active * best.weight := mul_nonneg hactive.1 (by omega)
  have hhigh : m.active * best.weight ≤ 2 ^ 56 * 100 :=
    mul_le_mul hactive.2.le hweight.2 (by omega) (by norm_num)
  rw [Int64.toInt_mul, Int64.toInt_ofInt_of_le (by omega) (by omega),
    Int64.toInt_ofInt_of_le (by omega) (by omega)]
  exact Int.bmod_eq_of_le (by omega) (by omega)

theorem lessBusy_iff {m best : Member} (hactive : 0 ≤ m.active ∧ m.active < 2 ^ 56)
    (hactive' : 0 ≤ best.active ∧ best.active < 2 ^ 56)
    (hweight : 1 ≤ m.weight ∧ m.weight ≤ 100) (hweight' : 1 ≤ best.weight ∧ best.weight ≤ 100) :
    lessBusy m best = true ↔ load m < load best := by
  have hpos : (0 : ℚ) < m.weight := by exact_mod_cast hweight.1
  have hpos' : (0 : ℚ) < best.weight := by exact_mod_cast hweight'.1
  unfold lessBusy load
  rw [decide_eq_true_iff, Int64.lt_iff_toInt_lt, cross_toInt hactive hweight',
    cross_toInt hactive' hweight, div_lt_div_iff₀ hpos hpos']
  exact_mod_cast Iff.rfl

/-- The pick of LEAST_CONN: every candidate before it has more active connections for
its weight, none has fewer, and no product of the comparisons leaves 64 bits. -/
theorem least_conn_first_minimum (hlb : p.fwd.lb = .leastConn) {tried : List ℕ}
    (hne : p.candidates tried ≠ [])
    (hweight : ∀ ref ∈ p.candidates tried, 1 ≤ (p.cells ref).weight ∧ (p.cells ref).weight ≤ 100)
    (hactive : ∀ ref ∈ p.candidates tried,
      0 ≤ (p.cells ref).active ∧ (p.cells ref).active < 2 ^ 56)
    (client : Addr) (random : ℕ × ℕ) :
    (∃ before best after, p.candidates tried = before ++ best :: after ∧
      p.pick client tried random = (p, some best) ∧
      (∀ ref ∈ before, load (p.cells best) < load (p.cells ref)) ∧
      ∀ ref ∈ p.candidates tried, load (p.cells best) ≤ load (p.cells ref)) ∧
    ∀ ref ∈ p.candidates tried, ∀ other ∈ p.candidates tried,
      (Int64.ofInt (p.cells ref).active * Int64.ofInt (p.cells other).weight).toInt =
        (p.cells ref).active * (p.cells other).weight := by
  refine ⟨?_, fun ref href other hother => cross_toInt (hactive ref href) (hweight other hother)⟩
  obtain ⟨first, rest, hcands⟩ := List.exists_cons_of_ne_nil hne
  rw [hcands] at hweight hactive
  have hmin : Argmax.FirstMin (fun ref => load (p.cells ref)) (first :: rest)
      (p.leastConn first rest) :=
    Argmax.firstMin_foldl fun a ha b hb =>
      lessBusy_iff (hactive a ha) (hactive b hb) (hweight a ha) (hweight b hb)
  have hle := hmin.le
  obtain ⟨before, after, hsplit, hbefore, -⟩ := hmin
  refine ⟨before, p.leastConn first rest, after, hcands.trans hsplit, ?_, hbefore, ?_⟩
  · unfold pick
    rw [hcands, hlb]
  · rw [hcands]
    exact hle

/-- Loads 3/2, 1 and 1: the second is picked, and not the third. -/
def busy : Pool :=
  { fwd := { lb := .leastConn }, next := 3, members := [0, 1, 2]
    cells := fun ref => { weight := [2, 1, 3].getD ref 1, active := [3, 1, 3].getD ref 0 } }

theorem least_conn_first_minimum_busy :
    (busy.pick .zero [] (0, 0)).2 = some 1 ∧
    ∃ before best after, busy.candidates [] = before ++ best :: after ∧
      busy.pick .zero [] (0, 0) = (busy, some best) ∧
      (∀ ref ∈ before, load (busy.cells best) < load (busy.cells ref)) ∧
      ∀ ref ∈ busy.candidates [], load (busy.cells best) ≤ load (busy.cells ref) := by
  have hcands : busy.candidates [] = [0, 1, 2] := rfl
  refine ⟨by decide, (least_conn_first_minimum rfl ?_ ?_ ?_ .zero (0, 0)).1⟩
  · rw [hcands]
    exact List.cons_ne_nil _ _
  · rw [hcands]
    decide
  · rw [hcands]
    decide

end L8Tunnel.Edge.Pool
