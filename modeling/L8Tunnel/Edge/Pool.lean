import L8Tunnel.Base.Bytes
import L8Tunnel.Base.GoMap
import L8Tunnel.Base.Net
import L8Tunnel.Types

/-! # Backend pools (edge/pool.go, health.go) -/

namespace L8Tunnel.Edge
open Base Net

def EdgeTarget.weightOf (t : EdgeTarget) : ℤ := if t.weight < 1 then 1 else t.weight.toInt
def EdgeTarget.address (t : EdgeTarget) : String := joinHostPort t.host (toString t.port.toInt)

/-- A backend with its health and its balancing state; the counters are `int` or `int64` in the
source. -/
structure Member where
  addr : String := ""
  host : String := ""
  weight : ℤ := 0
  disabled : Bool := false
  healthy : Bool := true
  active : ℤ := 0
  fails : ℤ := 0
  passes : ℤ := 0
  lastErr : String := ""
  lastCheck : ℤ := 0
  current : ℤ := 0

def unhealthyAfter : ℤ := 3
def healthyAfter : ℤ := 2

namespace Member

def failed (why : String) (now : ℤ) (m : Member) : Member :=
  { m with
    fails := m.fails + 1, passes := 0, lastErr := why, lastCheck := now
    healthy := if m.fails + 1 ≥ unhealthyAfter then false else m.healthy }

def passed (now : ℤ) (m : Member) : Member :=
  let m := { m with passes := m.passes + 1, lastCheck := now }
  if m.passes ≥ healthyAfter ∨ m.healthy then { m with fails := 0, lastErr := "", healthy := true }
  else m

end Member

/-- A pool keeps its members in cells, which a dial holds on to while the list changes. -/
structure Pool where
  id : String := ""
  fwd : EdgePortForward := {}
  nodeIP : String := ""
  cells : ℕ → Member := fun _ => {}
  next : ℕ := 0
  members : List ℕ := []
  stopped : Bool := false

abbrev Lookup := String → Except String (List String)

namespace Pool

def modify (p : Pool) (ref : ℕ) (f : Member → Member) : Pool :=
  { p with cells := Function.update p.cells ref (f (p.cells ref)) }

def addMember (keep : GoMap String ℕ) (acc : Pool × List ℕ) (host : String) (port weight : ℤ)
    (disabled : Bool) : Pool × List ℕ :=
  let addr := joinHostPort host (toString port)
  match keep.get addr with
  | some ref =>
    (acc.1.modify ref fun m => { m with weight := weight, disabled := disabled }, acc.2 ++ [ref])
  | none =>
    ({ acc.1 with
        cells := Function.update acc.1.cells acc.1.next
          { addr := addr, host := host, weight := weight, disabled := disabled }
        next := acc.1.next + 1 },
      acc.2 ++ [acc.1.next])

def keepOf (p : Pool) (old : List ℕ) : GoMap String ℕ :=
  old.foldl (fun keep ref => keep.set (p.cells ref).addr ref) ∅

def resolveMembers (lookup : Lookup) (p : Pool) (old : List ℕ) : Pool × List ℕ :=
  let keep := p.keepOf old
  match p.fwd.targetKind with
  | .targets =>
    p.fwd.targets.foldl (fun acc t =>
      addMember keep acc t.host t.port.toInt (EdgeTarget.weightOf t) t.disabled) (p, [])
  | .dns =>
    match lookup p.fwd.targetDns with
    | .error _ => (p, old)
    | .ok ips =>
      ips.foldl (fun acc ip => addMember keep acc ip p.fwd.targetPort.toInt 1 false) (p, [])
  | .nodeLocal => addMember keep (p, []) p.nodeIP p.fwd.targetPort.toInt 1 false
  | _ => (p, [])

def newPool (lookup : Lookup) (id : String) (fwd : EdgePortForward) (nodeIP : String) : Pool :=
  let p : Pool := { id := id, fwd := fwd, nodeIP := nodeIP }
  if fwd.targetKind = .relays then p
  else
    let out := p.resolveMembers lookup []
    { out.1 with members := out.2 }

def refresh (lookup : Lookup) (p : Pool) : Pool :=
  if p.fwd.targetKind = .dns then
    let out := p.resolveMembers lookup p.members
    { out.1 with members := out.2 }
  else p

def stop (p : Pool) : Pool := { p with stopped := true }

def fnv1a (bytes : List UInt8) : UInt64 :=
  bytes.foldl (fun h b => (h ^^^ b.toUInt64) * 1099511628211) 14695981039346656037

def asSlice : Addr → List UInt8
  | .zero => []
  | .v4 bits => Bytes.digits 4 bits.toNat
  | .v6 bits _ => Bytes.digits 16 bits.toNat

def score (client : Addr) (m : Member) : UInt64 :=
  fnv1a (asSlice client ++ Bytes.ofString m.addr) / 1048576 *
    UInt64.ofBitVec (BitVec.ofInt 64 m.weight)

/-- Fewer active connections per unit of weight, in 64-bit arithmetic. -/
def lessBusy (m best : Member) : Bool :=
  Int64.ofInt m.active * Int64.ofInt best.weight < Int64.ofInt best.active * Int64.ofInt m.weight

def leastConn (p : Pool) (first : ℕ) (rest : List ℕ) : ℕ :=
  rest.foldl (fun best ref => if lessBusy (p.cells ref) (p.cells best) then ref else best) first

def sourceHash (p : Pool) (client : Addr) (first : ℕ) (rest : List ℕ) : ℕ :=
  (rest.foldl (fun best ref =>
    let s := score client (p.cells ref)
    if best.2 < s then (ref, s) else best) (first, score client (p.cells first))).1

def randomPick (p : Pool) (random : ℕ × ℕ) (first : ℕ) (rest : List ℕ) : ℕ :=
  let cands := first :: rest
  let a := cands.getD (random.1 % cands.length) first
  let b := cands.getD (random.2 % cands.length) first
  if (p.cells b).active < (p.cells a).active then b else a

def roundOne (acc : Pool × ℤ × Option ℕ) (ref : ℕ) : Pool × ℤ × Option ℕ :=
  let p := acc.1.modify ref fun m => { m with current := m.current + m.weight }
  let best := match acc.2.2 with
    | none => ref
    | some best => if (p.cells best).current < (p.cells ref).current then ref else best
  (p, acc.2.1 + (p.cells ref).weight, some best)

def smoothRoundRobin (p : Pool) (cands : List ℕ) : Pool × Option ℕ :=
  let out := cands.foldl roundOne (p, 0, none)
  match out.2.2 with
  | none => (out.1, none)
  | some best =>
    (out.1.modify best fun m => { m with current := m.current - out.2.1 }, some best)

def candidates (p : Pool) (tried : List ℕ) : List ℕ :=
  p.members.filter fun ref =>
    (p.cells ref).disabled = false ∧ (p.cells ref).healthy ∧ ref ∉ tried

def pick (p : Pool) (client : Addr) (tried : List ℕ) (random : ℕ × ℕ) : Pool × Option ℕ :=
  match p.candidates tried with
  | [] => (p, none)
  | first :: rest =>
    match p.fwd.lb with
    | .leastConn => (p, some (p.leastConn first rest))
    | .sourceHash => (p, some (p.sourceHash client first rest))
    | .random => (p, some (p.randomPick random first rest))
    | _ => p.smoothRoundRobin (first :: rest)

structure Dialing where
  first : Option ℕ := none
  tried : List ℕ := []

def dialAddr (p : Pool) (addr : String) : Dialing :=
  { first := p.members.find? fun ref => (p.cells ref).addr = addr }

def choose (p : Pool) (client : Addr) (d : Dialing) (random : ℕ × ℕ) : Pool × Option ℕ :=
  match d.first with
  | some ref => (p, some ref)
  | none => p.pick client d.tried random

def Dialing.next (d : Dialing) (ref : ℕ) : Dialing := { first := none, tried := d.tried ++ [ref] }

def dialFailed (p : Pool) (ref : ℕ) (why : String) (now : ℤ) : Pool :=
  p.modify ref (Member.failed why now)

def connected (p : Pool) (ref : ℕ) : Pool := p.modify ref fun m => { m with active := m.active + 1 }

def disconnected (p : Pool) (ref : ℕ) : Pool :=
  p.modify ref fun m => { m with active := m.active - 1 }

/-- Only health, counters and balancing state may differ. -/
structure Same (p q : Pool) : Prop where
  fwd : q.fwd = p.fwd
  nodeIP : q.nodeIP = p.nodeIP
  next : q.next = p.next
  members : q.members = p.members
  addr : ∀ ref, (q.cells ref).addr = (p.cells ref).addr
  disabled : ∀ ref, (q.cells ref).disabled = (p.cells ref).disabled

namespace Same
variable {p q r : Pool}

theorem refl (p : Pool) : Same p p := ⟨rfl, rfl, rfl, rfl, fun _ => rfl, fun _ => rfl⟩

theorem trans (h : Same p q) (h' : Same q r) : Same p r :=
  ⟨h'.fwd.trans h.fwd, h'.nodeIP.trans h.nodeIP, h'.next.trans h.next,
    h'.members.trans h.members, fun ref => (h'.addr ref).trans (h.addr ref),
    fun ref => (h'.disabled ref).trans (h.disabled ref)⟩

theorem modify (p : Pool) (ref : ℕ) {f : Member → Member}
    (hf : ∀ m, (f m).addr = m.addr ∧ (f m).disabled = m.disabled) : Same p (p.modify ref f) := by
  have hcell : ∀ u, ((p.modify ref f).cells u).addr = (p.cells u).addr ∧
      ((p.modify ref f).cells u).disabled = (p.cells u).disabled := by
    intro u
    by_cases hu : u = ref
    · subst hu
      simp [Pool.modify, hf]
    · simp [Pool.modify, hu]
  exact ⟨rfl, rfl, rfl, rfl, fun u => (hcell u).1, fun u => (hcell u).2⟩

end Same

variable (p : Pool) (ref : ℕ)

theorem same_dialFailed (why : String) (now : ℤ) : Same p (p.dialFailed ref why now) :=
  .modify p ref fun _ => ⟨rfl, rfl⟩

theorem same_passed (now : ℤ) : Same p (p.modify ref (Member.passed now)) := by
  refine .modify p ref fun m => ?_
  unfold Member.passed
  dsimp only
  split <;> exact ⟨rfl, rfl⟩

theorem same_connected : Same p (p.connected ref) :=
  .modify p ref fun _ => ⟨rfl, rfl⟩

theorem same_disconnected : Same p (p.disconnected ref) :=
  .modify p ref fun _ => ⟨rfl, rfl⟩

theorem foldl_roundOne (cands : List ℕ) (acc : Pool × ℤ × Option ℕ) :
    Same acc.1 (cands.foldl roundOne acc).1 ∧
    ∀ best, (cands.foldl roundOne acc).2.2 = some best → acc.2.2 = some best ∨ best ∈ cands := by
  induction cands generalizing acc with
  | nil => exact ⟨.refl _, fun best h => .inl h⟩
  | cons ref cands ih =>
    obtain ⟨hsame, hbest⟩ := ih (roundOne acc ref)
    have hone : Same acc.1 (roundOne acc ref).1 :=
      .modify acc.1 ref (f := fun m => { m with current := m.current + m.weight })
        fun _ => ⟨rfl, rfl⟩
    refine ⟨hone.trans hsame, fun best h => ?_⟩
    rcases hbest best h with hsome | hmem
    · unfold roundOne at hsome
      dsimp only at hsome
      cases hacc : acc.2.2 with
      | none =>
        rw [hacc] at hsome
        cases hsome
        exact .inr List.mem_cons_self
      | some old =>
        rw [hacc] at hsome
        dsimp only at hsome
        split at hsome
        · cases hsome
          exact .inr List.mem_cons_self
        · exact .inl hsome
    · exact .inr (List.mem_cons_of_mem _ hmem)

/-- Picking moves only the weights' balances, and the pick is a candidate. -/
theorem smoothRoundRobin_spec (cands : List ℕ) :
    Same p (p.smoothRoundRobin cands).1 ∧
    ∀ best, (p.smoothRoundRobin cands).2 = some best → best ∈ cands := by
  obtain ⟨hsame, hbest⟩ := foldl_roundOne cands (p, 0, none)
  unfold smoothRoundRobin
  cases hout : (cands.foldl roundOne (p, 0, none)).2.2 with
  | none =>
    simp only [hout]
    exact ⟨hsame, fun best h => by cases h⟩
  | some best =>
    simp only [hout]
    refine ⟨hsame.trans (.modify _ best fun _ => ⟨rfl, rfl⟩), fun b hb => ?_⟩
    cases hb
    exact (hbest best hout).resolve_left (by simp)

theorem foldl_keeps_mem {α β : Type} (π : β → α) {g : β → α → β}
    (hg : ∀ b a, g b a = b ∨ π (g b a) = a) (rest : List α) (b : β) :
    π (rest.foldl g b) ∈ π b :: rest := by
  induction rest generalizing b with
  | nil => exact List.mem_cons_self
  | cons a rest ih =>
    rw [List.foldl_cons]
    rcases hg b a with hkeep | htake
    · rw [hkeep]
      rcases List.mem_cons.mp (ih b) with h | h
      · exact List.mem_cons.mpr (.inl h)
      · exact List.mem_cons_of_mem _ (List.mem_cons_of_mem _ h)
    · have hmem := ih (g b a)
      rw [htake] at hmem
      exact List.mem_cons_of_mem _ hmem

theorem leastConn_mem (first : ℕ) (rest : List ℕ) : p.leastConn first rest ∈ first :: rest := by
  refine foldl_keeps_mem (fun ref : ℕ => ref) (fun best ref => ?_) rest first
  split
  · exact .inr rfl
  · exact .inl rfl

theorem sourceHash_mem (client : Addr) (first : ℕ) (rest : List ℕ) :
    p.sourceHash client first rest ∈ first :: rest := by
  refine foldl_keeps_mem Prod.fst (fun best ref => ?_) rest (first, score client (p.cells first))
  dsimp only
  split
  · exact .inr rfl
  · exact .inl rfl

theorem randomPick_mem (random : ℕ × ℕ) (first : ℕ) (rest : List ℕ) :
    p.randomPick random first rest ∈ first :: rest := by
  have hget : ∀ i, (first :: rest).getD (i % (first :: rest).length) first ∈ first :: rest := by
    intro i
    have hlt : i % (first :: rest).length < (first :: rest).length :=
      Nat.mod_lt _ (by simp)
    rw [List.getD_eq_getElem?_getD, List.getElem?_eq_getElem hlt]
    exact List.getElem_mem hlt
  unfold randomPick
  dsimp only
  split
  · exact hget _
  · exact hget _

/-- Whatever the balancing mode, a pick is a candidate and only balancing state moves. -/
theorem pick_spec (client : Addr) (tried : List ℕ) (random : ℕ × ℕ) :
    Same p (p.pick client tried random).1 ∧
    ∀ ref, (p.pick client tried random).2 = some ref → ref ∈ p.candidates tried := by
  unfold pick
  cases hcands : p.candidates tried with
  | nil => exact ⟨.refl p, fun ref h => by cases h⟩
  | cons first rest =>
    dsimp only
    split
    · refine ⟨.refl p, fun ref h => ?_⟩
      cases h
      exact leastConn_mem p first rest
    · refine ⟨.refl p, fun ref h => ?_⟩
      cases h
      exact sourceHash_mem p client first rest
    · refine ⟨.refl p, fun ref h => ?_⟩
      cases h
      exact randomPick_mem p random first rest
    · exact smoothRoundRobin_spec p (first :: rest)

theorem mem_candidates {p : Pool} {tried : List ℕ} {ref : ℕ} :
    ref ∈ p.candidates tried ↔ ref ∈ p.members ∧ (p.cells ref).disabled = false ∧
      (p.cells ref).healthy ∧ ref ∉ tried := by
  simp only [candidates, List.mem_filter, decide_eq_true_eq]

end Pool

/-- The addresses of a forward's enabled targets; `resolves` says which addresses
a DNS name has had. -/
def TargetOf (resolves : String → String → Prop) (nodeIP : String) (f : EdgePortForward)
    (addr : String) : Prop :=
  match f.targetKind with
  | .targets => ∃ t ∈ f.targets, t.disabled = false ∧ addr = EdgeTarget.address t
  | .dns => ∃ ip, resolves f.targetDns ip ∧ addr = joinHostPort ip (toString f.targetPort.toInt)
  | .nodeLocal => addr = joinHostPort nodeIP (toString f.targetPort.toInt)
  | _ => False

def Lookup.Within (lookup : Lookup) (resolves : String → String → Prop) : Prop :=
  ∀ name ips, lookup name = .ok ips → ∀ ip ∈ ips, resolves name ip

namespace Pool

def Listed (T : String → Prop) (p : Pool) (refs : List ℕ) : Prop :=
  ∀ ref ∈ refs, ref < p.next ∧ ((p.cells ref).disabled = false → T (p.cells ref).addr)

def Keeping (keep : GoMap String ℕ) (p : Pool) : Prop :=
  ∀ addr ref, keep.get addr = some ref → ref < p.next ∧ (p.cells ref).addr = addr

section
variable {T : String → Prop} {keep : GoMap String ℕ}

theorem listed_addMember (acc : Pool × List ℕ) {host : String} {port : ℤ} (weight : ℤ)
    {disabled : Bool} (h : Listed T acc.1 acc.2) (hkeep : Keeping keep acc.1)
    (hT : disabled = false → T (joinHostPort host (toString port))) :
    Listed T (addMember keep acc host port weight disabled).1
      (addMember keep acc host port weight disabled).2 ∧
    Keeping keep (addMember keep acc host port weight disabled).1 ∧
    (addMember keep acc host port weight disabled).1.fwd = acc.1.fwd ∧
    (addMember keep acc host port weight disabled).1.nodeIP = acc.1.nodeIP := by
  unfold addMember
  dsimp only
  cases hget : keep.get (joinHostPort host (toString port)) with
  | some ref =>
    obtain ⟨hlt, haddr⟩ := hkeep _ ref hget
    refine ⟨fun u hu => ?_, fun addr u hu => ?_, rfl, rfl⟩
    · by_cases heq : u = ref
      · subst heq
        refine ⟨hlt, fun hon => ?_⟩
        simp only [modify, Function.update_self] at hon ⊢
        rw [haddr]
        exact hT hon
      · have hmem : u ∈ acc.2 := by simpa [heq] using hu
        simpa [modify, heq] using h u hmem
    · refine ⟨(hkeep addr u hu).1, ?_⟩
      by_cases heq : u = ref
      · subst heq
        simpa [modify] using (hkeep addr u hu).2
      · simpa [modify, heq] using (hkeep addr u hu).2
  | none =>
    refine ⟨fun u hu => ?_, fun addr u hu => ?_, rfl, rfl⟩
    · by_cases heq : u = acc.1.next
      · subst heq
        refine ⟨Nat.lt_succ_self _, fun hon => ?_⟩
        simp only [Function.update_self] at hon ⊢
        exact hT hon
      · have hmem : u ∈ acc.2 := by simpa [heq] using hu
        obtain ⟨hlt, hold⟩ := h u hmem
        refine ⟨Nat.lt_succ_of_lt hlt, ?_⟩
        simpa [heq] using hold
    · obtain ⟨hlt, haddr⟩ := hkeep addr u hu
      refine ⟨Nat.lt_succ_of_lt hlt, ?_⟩
      simpa [Nat.ne_of_lt hlt] using haddr

theorem listed_foldl {α : Type} {acc : Pool × List ℕ} (host : α → String) (port weight : α → ℤ) (disabled : α → Bool)
    (xs : List α) (hT : ∀ x ∈ xs, disabled x = false →
      T (joinHostPort (host x) (toString (port x))))
    (h : Listed T acc.1 acc.2) (hkeep : Keeping keep acc.1) :
    Listed T (xs.foldl (fun acc x =>
        addMember keep acc (host x) (port x) (weight x) (disabled x)) acc).1
      (xs.foldl (fun acc x =>
        addMember keep acc (host x) (port x) (weight x) (disabled x)) acc).2 ∧
    (xs.foldl (fun acc x =>
      addMember keep acc (host x) (port x) (weight x) (disabled x)) acc).1.fwd = acc.1.fwd ∧
    (xs.foldl (fun acc x =>
      addMember keep acc (host x) (port x) (weight x) (disabled x)) acc).1.nodeIP =
        acc.1.nodeIP := by
  induction xs generalizing acc with
  | nil => exact ⟨h, rfl, rfl⟩
  | cons x xs ih =>
    obtain ⟨h1, hkeep1, hfwd, hnode⟩ := listed_addMember acc (weight x) h hkeep
      (hT x List.mem_cons_self)
    obtain ⟨h2, hfwd2, hnode2⟩ := ih (fun y hy => hT y (List.mem_cons_of_mem _ hy)) h1 hkeep1
    exact ⟨h2, hfwd2.trans hfwd, hnode2.trans hnode⟩

end

structure Right (resolves : String → String → Prop) (p : Pool) : Prop where
  listed : Listed (TargetOf resolves p.nodeIP p.fwd) p p.members

section
variable {resolves : String → String → Prop} {p q : Pool}
variable {old : List ℕ} {lookup : Lookup}

theorem keeping_keepOf {T : String → Prop} (h : Listed T p old) : Keeping (p.keepOf old) p := by
  have hfold : ∀ (refs : List ℕ) (keep : GoMap String ℕ), (∀ ref ∈ refs, ref < p.next) →
      Keeping keep p →
      Keeping (refs.foldl (fun keep ref => keep.set (p.cells ref).addr ref) keep) p := by
    intro refs
    induction refs with
    | nil => exact fun keep _ hk => hk
    | cons ref refs ih =>
      intro keep hlt hk
      refine ih _ (fun u hu => hlt u (List.mem_cons_of_mem _ hu)) fun addr u hu => ?_
      rw [GoMap.get_set_eq_ite] at hu
      split at hu
      next heq =>
        cases hu
        exact ⟨hlt ref List.mem_cons_self, heq.symm⟩
      next => exact hk addr u hu
  exact hfold old ∅ (fun ref hr => (h ref hr).1) fun addr ref hr => by simp at hr

theorem listed_resolveMembers (hl : lookup.Within resolves)
    (h : Listed (TargetOf resolves p.nodeIP p.fwd) p old) :
    Listed (TargetOf resolves p.nodeIP p.fwd) (p.resolveMembers lookup old).1
      (p.resolveMembers lookup old).2 ∧ (p.resolveMembers lookup old).1.fwd = p.fwd ∧
    (p.resolveMembers lookup old).1.nodeIP = p.nodeIP := by
  have hkeep := keeping_keepOf h
  have hnil : Listed (TargetOf resolves p.nodeIP p.fwd) p [] := fun ref hr => by cases hr
  unfold resolveMembers
  dsimp only
  cases hkind : p.fwd.targetKind with
  | targets =>
    refine listed_foldl EdgeTarget.host (fun t => t.port.toInt) EdgeTarget.weightOf
      EdgeTarget.disabled p.fwd.targets (fun t ht hon => ?_) hnil hkeep
    simp only [TargetOf, hkind]
    exact ⟨t, ht, hon, rfl⟩
  | dns =>
    cases hlook : lookup p.fwd.targetDns with
    | error err => exact ⟨h, rfl, rfl⟩
    | ok ips =>
      refine listed_foldl (fun ip => ip) (fun _ => p.fwd.targetPort.toInt) (fun _ => 1)
        (fun _ => false) ips (fun ip hip _ => ?_) hnil hkeep
      simp only [TargetOf, hkind]
      exact ⟨ip, hl _ _ hlook ip hip, rfl⟩
  | nodeLocal =>
    have hnode : false = false → TargetOf resolves p.nodeIP p.fwd
        (joinHostPort p.nodeIP (toString p.fwd.targetPort.toInt)) := by
      intro _
      simp only [TargetOf, hkind]
    obtain ⟨h1, -, hfwd, hsame⟩ := listed_addMember (p, []) 1 hnil hkeep hnode
    exact ⟨h1, hfwd, hsame⟩
  | relays => exact ⟨hnil, rfl, rfl⟩
  | unspecified => exact ⟨hnil, rfl, rfl⟩
  | unknown code => exact ⟨hnil, rfl, rfl⟩

theorem right_newPool (hl : lookup.Within resolves) (id : String) (fwd : EdgePortForward)
    (nodeIP : String) :
    Right resolves (newPool lookup id fwd nodeIP) ∧ (newPool lookup id fwd nodeIP).fwd = fwd ∧
      (newPool lookup id fwd nodeIP).nodeIP = nodeIP := by
  unfold newPool
  dsimp only
  split
  · exact ⟨⟨fun ref hr => by cases hr⟩, rfl, rfl⟩
  · have hnil : Listed (TargetOf resolves nodeIP fwd)
        ({ id := id, fwd := fwd, nodeIP := nodeIP } : Pool) [] := fun ref hr => by cases hr
    obtain ⟨h, hfwd, hnode⟩ := listed_resolveMembers hl hnil
    refine ⟨⟨?_⟩, hfwd, hnode⟩
    rw [hfwd, hnode]
    exact h

theorem Right.same (h : Right resolves p) (hs : Same p q) : Right resolves q := by
  refine ⟨fun ref hr => ?_⟩
  rw [hs.members] at hr
  obtain ⟨hlt, hon⟩ := h.listed ref hr
  rw [hs.next, hs.disabled, hs.addr, hs.nodeIP, hs.fwd]
  exact ⟨hlt, hon⟩

theorem right_refresh (hl : lookup.Within resolves) (h : Right resolves p) :
    Right resolves (p.refresh lookup) ∧ (p.refresh lookup).fwd = p.fwd ∧
      (p.refresh lookup).nodeIP = p.nodeIP := by
  unfold refresh
  split
  · obtain ⟨hlisted, hfwd, hnode⟩ := listed_resolveMembers hl h.listed
    refine ⟨⟨?_⟩, hfwd, hnode⟩
    rw [hfwd, hnode]
    exact hlisted
  · exact ⟨h, rfl, rfl⟩

/-- The pool after some steps: forward and addresses stay, members may have been added. -/
structure Later (p q : Pool) : Prop where
  fwd : q.fwd = p.fwd
  nodeIP : q.nodeIP = p.nodeIP
  next : p.next ≤ q.next
  addr : ∀ ref < p.next, (q.cells ref).addr = (p.cells ref).addr

theorem Later.refl (p : Pool) : Later p p := ⟨rfl, rfl, Nat.le_refl _, fun _ _ => rfl⟩

theorem Later.trans {r : Pool} (h : Later p q) (h' : Later q r) : Later p r :=
  ⟨h'.fwd.trans h.fwd, h'.nodeIP.trans h.nodeIP, Nat.le_trans h.next h'.next,
    fun ref hr => (h'.addr ref (Nat.lt_of_lt_of_le hr h.next)).trans (h.addr ref hr)⟩

theorem Same.later (h : Same p q) : Later p q :=
  ⟨h.fwd, h.nodeIP, Nat.le_of_eq h.next.symm, fun ref _ => h.addr ref⟩

theorem later_addMember (keep : GoMap String ℕ) (acc : Pool × List ℕ) (host : String)
    (port weight : ℤ) (disabled : Bool) :
    Later acc.1 (addMember keep acc host port weight disabled).1 := by
  unfold addMember
  dsimp only
  split
  next ref _ =>
    refine ⟨rfl, rfl, Nat.le_refl _, fun u _ => ?_⟩
    by_cases hu : u = ref
    · subst hu
      simp [modify]
    · simp [modify, hu]
  next =>
    refine ⟨rfl, rfl, Nat.le_succ _, fun u hu => ?_⟩
    simp [Nat.ne_of_lt hu]

theorem later_refresh (lookup : Lookup) (p : Pool) : Later p (p.refresh lookup) := by
  have hfold : ∀ (keep : GoMap String ℕ) (ips : List String) (acc : Pool × List ℕ),
      Later acc.1 (ips.foldl (fun acc ip =>
        addMember keep acc ip p.fwd.targetPort.toInt 1 false) acc).1 := by
    intro keep ips
    induction ips with
    | nil => exact fun acc => .refl _
    | cons ip ips ih => exact fun acc => (later_addMember keep acc ip _ 1 false).trans (ih _)
  unfold refresh
  split
  next hdns =>
    have hlater : Later p (p.resolveMembers lookup p.members).1 := by
      unfold resolveMembers
      simp only [hdns]
      split
      · exact .refl p
      · exact hfold _ _ (p, [])
    exact ⟨hlater.fwd, hlater.nodeIP, hlater.next, hlater.addr⟩
  next => exact .refl p

theorem later_stop (p : Pool) : Later p p.stop := ⟨rfl, rfl, Nat.le_refl _, fun _ _ => rfl⟩

end
end Pool

namespace Member

/-- A dial or health check: why it failed, if it did, and when. -/
def checked (result : Option String × ℤ) (m : Member) : Member :=
  match result.1 with
  | some why => m.failed why result.2
  | none => m.passed result.2

/-- The results come newest first, a pass as `true`: three failures in a row
were met more recently than two passes in a row. -/
def down : List Bool → Bool
  | false :: false :: false :: _ => true
  | true :: true :: _ => false
  | _ :: results => down results
  | [] => false

/-- What the counters remember of the results. -/
structure Counts (l : List Bool) (m : Member) : Prop where
  passes : 0 ≤ m.passes ∧ (0 < m.passes ↔ l.head? = some true)
  fails : m.healthy = true →
    0 ≤ m.fails ∧ (0 < m.fails ↔ l.head? = some false) ∧ (1 < m.fails ↔ l.take 2 = [false, false])
  healthy : m.healthy = !down l

variable {l : List Bool} {m : Member}

theorem down_pass : down (true :: l) = (down l && l.head? != some true) := by
  rcases l with _ | ⟨_ | _, l⟩ <;> simp [down]

theorem down_fail : down (false :: l) = (down l || l.take 2 == [false, false]) := by
  rcases l with _ | ⟨_ | _, _ | ⟨_ | _, l⟩⟩ <;> simp [down]

theorem Counts.failed (h : Counts l m) (why : String) (now : ℤ) :
    Counts (false :: l) (m.failed why now) := by
  obtain ⟨-, hfails, hhealthy⟩ := h
  have htake : (false :: l).take 2 = [false, false] ↔ l.head? = some false := by cases l <;> simp
  have hdown := down_fail (l := l)
  unfold Member.failed unhealthyAfter
  constructor
  · simp
  · grind
  · grind

theorem Counts.passed (h : Counts l m) (now : ℤ) : Counts (true :: l) (m.passed now) := by
  obtain ⟨⟨hpos, hpass⟩, hfails, hhealthy⟩ := h
  have hdown := down_pass (l := l)
  unfold Member.passed healthyAfter
  constructor
  · grind
  · grind
  · grind

/-- In whatever order dials and checks end, a member counts as down exactly if
three of them failed in a row and no two have passed in a row since. -/
theorem unhealthy_iff_down (addr host : String) (weight : ℤ) (disabled : Bool)
    (results : List (Option String × ℤ)) :
    (results.foldr checked { addr, host, weight, disabled }).healthy =
      !down (results.map fun r => r.1.isNone) := by
  refine Counts.healthy (l := results.map fun r => r.1.isNone) ?_
  induction results with
  | nil => exact ⟨by simp, by simp, rfl⟩
  | cons r results ih =>
    obtain ⟨_ | why, now⟩ := r
    · exact ih.passed now
    · exact ih.failed why now

end Member
end L8Tunnel.Edge
