import L8Tunnel.Registrar.Agreement

/-! # A standalone relay and the engine in lockstep -/

namespace L8Tunnel.Registrar
open Base Registry Shared
open Claims (Engine unix)
open Relay (Message)

structure Grown (r r' : NameRegistry) : Prop where
  grace : r'.grace = r.grace
  next : r.next ≤ r'.next

namespace Grown
open NameRegistry
variable {r r1 r' : NameRegistry} {ref t : ℕ}

theorem refl (r : NameRegistry) : Grown r r := ⟨rfl, le_refl _⟩

theorem trans (h : Grown r r1) (h' : Grown r1 r') : Grown r r' :=
  ⟨h'.grace.trans h.grace, h.next.trans h'.next⟩

theorem modify {f : Reservation → Reservation} (hf : ∀ v, (f v).name = v.name) :
    Grown r (r.modify ref f hf) := ⟨rfl, le_modify_next r ref hf⟩

theorem setPort (r : NameRegistry) (ref : ℕ) (p : ℤ) : Grown r (r.setPort ref p) := by
  dsimp only [NameRegistry.setPort]
  split
  · exact ⟨rfl, le_max_left _ _⟩
  · exact modify _

theorem deleteLocked (r : NameRegistry) (ref : ℕ) : Grown r (r.deleteLocked ref) := by
  refine ⟨?_, le_deleteLocked_next r ref⟩
  unfold NameRegistry.deleteLocked
  dsimp only
  split <;> split <;> rfl

theorem park (r : NameRegistry) (ref t : ℕ) (now : ℤ) : Grown r (r.park ref t now) := by
  have h1 : Grown r (r.modify ref (fun v => { v with session := none, tunnel := none })
      fun _ => rfl) := modify _
  refine park_induction (fun _ => refl r) (fun _ _ => h1) (fun _ _ _ => ?_) fun _ _ _ _ => ?_
  · exact h1.trans (deleteLocked _ _)
  · exact h1.trans (modify _)

theorem rollback (r : NameRegistry) (ref t : ℕ) (existed : Bool) (now : ℤ) :
    Grown r (r.rollback ref t existed now) := by
  unfold NameRegistry.rollback
  split
  · exact park r ref t now
  split
  · exact deleteLocked r ref
  · exact refl r

theorem claim {name tokenID agentID : String} {typ : TunnelType} {maxTunnels : ℤ} {c : Claimed}
    (hc : r.claim name typ tokenID agentID t maxTunnels = .ok c) : Grown r c.registry := by
  obtain ⟨-, rfl⟩ | ⟨ref, stale, -, rfl⟩ := claim_ok hc
  · exact ⟨rfl, Nat.le_succ _⟩
  · exact ⟨rfl, le_max_left _ _⟩

theorem setDomains {ds : List String} (hr : r.setDomains ref ds = .ok r') : Grown r r' := by
  obtain ⟨rfl, -⟩ := setDomains_ok hr
  exact ⟨rfl, le_max_left _ _⟩

end Grown

section
open NameRegistry
variable {r r' : NameRegistry} {t u : ℕ} {who : Identity} {a : Ask} {existed : Bool} {c : Claimed}

theorem named_setDomains {ref : ℕ} {ds : List String} (hr : r.setDomains ref ds = .ok r') :
    r'.Named u ↔ r.Named u := by
  obtain ⟨rfl, -⟩ := setDomains_ok hr
  have hnames : ∀ n, (r.replaceDomains ref ds).names.get n = r.names.get n := fun _ => rfl
  exact named_congr hnames u

theorem Books.ported (h : Books r fun _ => none) {ref : ℕ} (hnamed : r.Named ref) {requested : ℤ}
    (hp : Ported r ref requested r') : Books r' fun _ => none := by
  cases hp with
  | held => exact h
  | taken p hnot h0 hfree hne =>
    have hadd : Books (r.addPort p) (Function.update (fun _ => none) 0 (some p)) :=
      h.addPort hfree rfl
    have hnamed' : (r.addPort p).Named ref := hnamed
    have hset := hadd.setPort hnamed' (Function.update_self ..) h0
    rwa [Function.update_idem, Function.update_eq_self] at hset

theorem Opens.books (ho : Opens t who a r u existed r') (h : Books r fun _ => none) :
    Books r' fun _ => none := by
  cases ho with
  | @mk c r2 r3 tn hc hd hport =>
    have hnamed : c.registry.Named c.res := named_of_get (claim_cell hc).1
    have h2 := (h.claim hc).setDomains hnamed hd
    refine Books.modify ?_ _ fun _ => ⟨rfl, rfl⟩
    split at hport
    · exact h2.ported ((named_setDomains hd).mpr hnamed) hport
    · rw [hport]
      exact h2

theorem Opens.grown (ho : Opens t who a r u existed r') : Grown r r' := by
  cases ho with
  | @mk c r2 r3 tn hc hd hport =>
    refine (((Grown.claim hc).trans (Grown.setDomains hd)).trans ?_).trans (Grown.modify _)
    split at hport
    · cases hport with
      | held => exact Grown.refl _
      | taken p =>
        have hset := Grown.setPort (r2.addPort p) c.res p
        exact ⟨hset.grace, hset.next⟩
    · rw [hport]
      exact Grown.refl _

theorem FailsToOpen.books (hf : FailsToOpen t who a r r') (h : Books r fun _ => none) :
    Books r' fun _ => none := by
  cases hf with
  | claim => exact h
  | domain now hc hd =>
    exact (h.claim hc).rollback now fun _ _ => named_of_get (claim_cell hc).1
  | port now hc hd =>
    have hnamed := named_of_get (claim_cell hc).1
    exact ((h.claim hc).setDomains hnamed hd).rollback now
      fun _ _ => (named_setDomains hd).mpr hnamed

theorem FailsToOpen.grown (hf : FailsToOpen t who a r r') : Grown r r' := by
  cases hf with
  | claim => exact Grown.refl r
  | domain now hc hd => exact (Grown.claim hc).trans (Grown.rollback _ _ _ _ _)
  | port now hc hd =>
    exact ((Grown.claim hc).trans (Grown.setDomains hd)).trans (Grown.rollback _ _ _ _ _)

theorem FailsToOpen.apart_of_ne (hf : FailsToOpen t who a r r')
    (hc : r.claim a.name a.spec.type who.token.id who.agentID t who.token.policy.maxTunnels =
      .ok c) (hne : u ≠ c.res) : Apart u r r' := by
  cases hf with
  | claim => exact Apart.refl u r
  | domain now hc' hd =>
    cases hc.symm.trans hc'
    exact (Apart.claim hc hne).trans (Apart.rollback hne now)
  | port now hc' hd =>
    cases hc.symm.trans hc'
    exact ((Apart.claim hc hne).trans (Apart.setDomains hne hd)).trans (Apart.rollback hne now)

theorem FailsToOpen.restored (hf : FailsToOpen t who a r r') (hclustered : r.clustered = false)
    (hnew : r.names.get a.name = none) : Restored r r' := by
  refine ((Over.refl r t).fails hf hclustered fun c hc u hu => ?_).restored
  rw [hnew] at hu
  cases hu

structure OpenCell (who : Identity) (a : Ask) (r : NameRegistry) (v : Reservation) : Prop where
  agent : v.agentID = who.agentID
  timer : v.timer = false
  permanent : v.permanent = true → ∃ u, r.names.get a.name = some u ∧ (r.cells u).permanent = true
  port : ¬ a.ported → v.port = r.heldPort a.name

theorem OpenCell.of_claim (hc : r.claim a.name a.spec.type who.token.id who.agentID t
    who.token.policy.maxTunnels = .ok c) : OpenCell who a r (c.registry.cells c.res) := by
  refine ⟨?_, ?_, ?_, fun _ => claimed_port hc⟩
  all_goals
    obtain ⟨hget, rfl⟩ | ⟨ref, stale, hget, rfl⟩ := claim_ok hc
    · simp [alloc_cells]
    · simp [hget]

theorem Opens.cell (ho : Opens t who a r u existed r') : OpenCell who a r (r'.cells u) := by
  cases ho with
  | @mk c r2 r3 tn hc hd hport =>
    obtain ⟨hagent, htimer, hperm, hzero⟩ := OpenCell.of_claim hc
    obtain ⟨rfl, -⟩ := setDomains_ok hd
    by_cases hp : a.ported
    · rw [if_pos hp] at hport
      cases hport with
      | held =>
        refine ⟨?_, ?_, ?_, fun h => absurd hp h⟩ <;>
          simpa [activate, replaceDomains_cells]
      | taken p =>
        refine ⟨?_, ?_, ?_, fun h => absurd hp h⟩ <;>
          simpa [activate, setPort_cells, replaceDomains_cells]
    · rw [if_neg hp] at hport
      subst hport
      refine ⟨?_, ?_, ?_, fun h => ?_⟩
      · simpa [activate, replaceDomains_cells]
      · simpa [activate, replaceDomains_cells]
      · simpa [activate, replaceDomains_cells]
      · simpa [activate, replaceDomains_cells] using hzero h

end

def Idle (r : NameRegistry) (refs : List ℕ) (u : ℕ) : Prop :=
  u ∈ refs ∧ (r.cells u).session = none ∧ (r.cells u).permanent = false

/-- The registry after the timers of `refs`. -/
structure Expired (refs : List ℕ) (r r' : NameRegistry) : Prop where
  grown : Grown r r'
  mode : r'.closed = r.closed ∧ r'.clustered = r.clustered
  names : ∀ n u, r'.names.get n = some u ↔ r.names.get n = some u ∧ ¬ Idle r refs u
  cells : ∀ u, ∃ b, r'.cells u = { r.cells u with timer := b }
  kept : ∀ u, ¬ Idle r refs u → r'.cells u = r.cells u

namespace Expired
open NameRegistry

theorem nil (r : NameRegistry) : Expired [] r r where
  grown := Grown.refl r
  mode := ⟨rfl, rfl⟩
  names := by simp [Idle]
  cells := fun u => ⟨(r.cells u).timer, rfl⟩
  kept := fun _ _ => rfl

theorem one (r : NameRegistry) (ref : ℕ) : Expired [ref] r (r.expire ref) := by
  unfold NameRegistry.expire
  split
  next hidle =>
    refine ⟨Grown.deleteLocked r ref, deleteLocked_mode r ref, fun n u => ?_, fun u => ?_,
      fun u hu => ?_⟩
    · rw [deleteLocked_names]
      by_cases hn : r.names.get n = some ref
      · rw [if_pos hn, hn]
        refine iff_of_false (by simp) ?_
        rintro ⟨hu, hnot⟩
        cases hu
        exact hnot ⟨List.mem_singleton.mpr rfl, hidle.2⟩
      · rw [if_neg hn]
        refine (and_iff_left_of_imp fun hu hin => hn ?_).symm
        rw [hu, List.mem_singleton.mp hin.1]
    · rw [deleteLocked_cells]
      split
      · exact ⟨false, rfl⟩
      · exact ⟨(r.cells u).timer, rfl⟩
    · rw [deleteLocked_cells, if_neg]
      rintro rfl
      exact hu ⟨List.mem_singleton.mpr rfl, hidle.2⟩
  next hnot =>
    refine ⟨Grown.refl r, ⟨rfl, rfl⟩, fun n u => ?_, fun u => ⟨(r.cells u).timer, rfl⟩,
      fun _ _ => rfl⟩
    refine (and_iff_left_of_imp fun hu hin => hnot ?_).symm
    rw [← List.mem_singleton.mp hin.1]
    exact ⟨named_of_get hu, hin.2⟩

variable {refs : List ℕ} {r r' : NameRegistry}

theorem cons {ref : ℕ} {r1 : NameRegistry} (h : Expired [ref] r r1) (h' : Expired refs r1 r') :
    Expired (ref :: refs) r r' := by
  have hfields : ∀ u, (r1.cells u).session = (r.cells u).session ∧
      (r1.cells u).permanent = (r.cells u).permanent := by
    intro u
    obtain ⟨b, hb⟩ := h.cells u
    rw [hb]
    exact ⟨rfl, rfl⟩
  have hidle : ∀ u, Idle r (ref :: refs) u ↔ Idle r [ref] u ∨ Idle r1 refs u := by
    intro u
    simp only [Idle, List.mem_cons, List.not_mem_nil, or_false, hfields, or_and_right]
  refine ⟨h.grown.trans h'.grown, ⟨h'.mode.1.trans h.mode.1, h'.mode.2.trans h.mode.2⟩,
    fun n u => ?_, fun u => ?_, fun u hu => ?_⟩
  · rw [h'.names, h.names, hidle, not_or, and_assoc]
  · obtain ⟨b, hb⟩ := h.cells u
    obtain ⟨b', hb'⟩ := h'.cells u
    refine ⟨b', ?_⟩
    rw [hb', hb]
  · rw [hidle, not_or] at hu
    rw [h'.kept u hu.2, h.kept u hu.1]

theorem all : ∀ (refs : List ℕ) (r : NameRegistry), Expired refs r (refs.foldl expire r)
  | [], r => nil r
  | ref :: refs, r => (one r ref).cons (all refs (r.expire ref))

theorem books {reserving : ℕ → Option ℤ} (h : Books r reserving) (refs : List ℕ) :
    Books (refs.foldl expire r) reserving := by
  induction refs generalizing r with
  | nil => exact h
  | cons ref refs ih => exact ih h.expire

theorem not_idle {u : ℕ} (hsess : (r.cells u).session.isSome) : ¬ Idle r refs u := by
  intro hidle
  rw [hidle.2.1] at hsess
  cases hsess

theorem get_none (h : Expired refs r r') {n : String}
    (hn : ∀ u, r.names.get n = some u → Idle r refs u) : r'.names.get n = none := by
  cases hr : r'.names.get n with
  | none => rfl
  | some u =>
    obtain ⟨hu, hnot⟩ := (h.names n u).mp hr
    exact absurd (hn u hu) hnot

theorem sound {v : Shared} (h : Expired refs v.registry r) (hv : v.Sound)
    (hbooks : Books r fun _ => none) : (v.put r).Sound := by
  refine ⟨hbooks, hv.fresh, fun k p hk => ?_⟩
  obtain ⟨u, tn, hu, hport, h0, hsess, hrest⟩ := hv.owned k p hk
  have hcell : r.cells u = v.registry.cells u := h.kept u (not_idle hsess)
  refine ⟨u, tn, ?_, ?_⟩
  · show r.names.get (r.cells u).name = some u
    rw [hcell]
    exact (h.names _ u).mpr ⟨hu, not_idle hsess⟩
  · show (r.cells u).port = p ∧ p ≠ 0 ∧ (r.cells u).session.isSome ∧ (r.cells u).tunnel = some tn ∧ _
    rw [hcell]
    exact ⟨hport, h0, hsess, hrest⟩

end Expired

section
variable {S : Setting} {s s' : Both}

theorem Alike.mono {used used' : List ℕ} {v : Reservation} {rec : TunLiveTunnel}
    (h : Alike S used v rec) (hused : ∀ t ∈ used, t ∈ used') : Alike S used' v rec := by
  obtain ⟨t, ht, hrest⟩ := h.session
  exact { h with session := ⟨t, hused t ht, hrest⟩ }

theorem Agree.put (h : Agree S s) {r : NameRegistry}
    (hv : s'.relay.shared = s.relay.shared.put r) (hdesk : s'.desk = s.desk)
    (hused : ∀ t ∈ s.used, t ∈ s'.used) (hbooks : Books r fun _ => none) (hgrown : Grown s.reg r)
    (hmode : r.closed = s.reg.closed ∧ r.clustered = s.reg.clustered)
    (hnames : ∀ n, r.names.get n = s.reg.names.get n)
    (hcells : ∀ u < s.reg.next, r.cells u = s.reg.cells u) : Agree S s' := by
  have hreg : s'.reg = r := congrArg registry hv
  have hrecs : s'.recs = s.recs := congrArg (·.engine.tunnels) hdesk
  have hsockets : s'.relay.sockets = s.relay.sockets := congrArg sockets hv
  have hnext : s'.relay.nextSocket = s.relay.nextSocket := congrArg nextSocket hv
  have htunnels : s'.relay.shared.tunnels = s.relay.shared.tunnels := by rw [hv]; rfl
  have hnamed := NameRegistry.named_congr hnames
  constructor
  · rw [hv]
    refine ⟨hbooks, h.sound.fresh, fun k p hk => ?_⟩
    obtain ⟨u, tn, hu, hrest⟩ := h.sound.owned k p hk
    refine ⟨u, tn, (hnamed u).mpr hu, ?_⟩
    have hcell : r.cells u = s.reg.cells u := hcells u hu.lt
    show (r.cells u).port = p ∧ p ≠ 0 ∧ (r.cells u).session.isSome ∧ (r.cells u).tunnel = some tn ∧ _
    rw [hcell]
    exact hrest
  · rw [hdesk]
    exact h.indexed
  · rw [hreg, hgrown.grace]
    exact h.grace
  · rw [hreg, hmode.1, hmode.2]
    exact h.mode
  · rw [hdesk]
    exact h.relays
  · rw [hdesk]
    exact h.agents
  · intro n
    rw [hreg, hrecs, hnames]
    cases hn : s.reg.names.get n with
    | none =>
      rw [h.get_none.mp hn]
      exact .none
    | some u =>
      obtain ⟨rec, hrec, halike⟩ := h.get_some hn
      rw [hrec]
      refine .some ?_
      rw [hcells u (s.reg.named_lt n u hn)]
      exact halike.mono hused
  · rw [hdesk, htunnels]
    exact h.held
  · intro t ht
    rw [htunnels] at ht ⊢
    obtain ⟨hin, tn, htn, hlt, hln, hstands⟩ := h.sessions t ht
    refine ⟨hused t hin, tn, htn, ?_, ?_, ?_⟩
    · rw [hreg]
      exact hlt.trans_le hgrown.next
    · rw [hnext]
      exact hln
    · unfold Stands
      rw [hreg, hrecs, hsockets, hcells _ hlt, hnames]
      exact hstands

theorem Agree.same (h : Agree S s) (hv : s'.relay.shared = s.relay.shared)
    (hdesk : s'.desk = s.desk) (hused : ∀ t ∈ s.used, t ∈ s'.used) : Agree S s' :=
  h.put hv hdesk hused h.books (Grown.refl _) ⟨rfl, rfl⟩ (fun _ => rfl) fun _ _ => rfl

end

theorem serve_get (v : Shared) (a : Ask) (p : ℤ) (j : ℕ) :
    (v.serve a p).sockets.get j =
      if a.ported ∧ j = v.nextSocket then some p else v.sockets.get j := by
  unfold serve
  by_cases hp : a.ported
  · rw [if_pos hp]
    show (v.sockets.set v.nextSocket p).get j = _
    rw [GoMap.get_set_eq_ite]
    simp only [hp, true_and]
  · rw [if_neg hp, if_neg fun h => hp h.1]

theorem serve_rest (v : Shared) (a : Ask) (p : ℤ) :
    v.nextSocket ≤ (v.serve a p).nextSocket ∧ (a.ported → v.nextSocket < (v.serve a p).nextSocket) ∧
    (v.serve a p).tunnels = v.tunnels := by
  unfold serve
  split
  next => exact ⟨Nat.le_succ _, fun _ => Nat.lt_succ_self _, rfl⟩
  next hp => exact ⟨le_refl _, fun h => absurd h hp, rfl⟩

/-- A claim that the relay grants. -/
structure Opening (t : ℕ) (who : Identity) (a : Ask) (v : Shared) (k : NameRegistry.Claimed)
    (tn : Tunnel) (r : NameRegistry) (p : ℤ) : Prop where
  claim : v.registry.claim a.name a.spec.type who.token.id who.agentID t
    who.token.policy.maxTunnels = .ok k
  opens : Opens t who a v.registry k.res tn.existed r
  res : tn.res = k.res
  name : tn.endpoint.name = a.name
  tunnel : (r.cells k.res).tunnel = some tn
  listener : tn.listener = if a.ported then some v.nextSocket else none
  port : if a.ported then (r.cells k.res).port = p else p = 0

namespace Opening
variable {t : ℕ} {who : Identity} {a : Ask} {v : Shared} {k : NameRegistry.Claimed} {tn : Tunnel}
  {r : NameRegistry} {p : ℤ}

abbrev after (t : ℕ) (a : Ask) (v : Shared) (k : NameRegistry.Claimed) (tn : Tunnel)
    (r : NameRegistry) (p : ℤ) : Shared :=
  (((v.closeStale k.stale).serve a p).put r).keep t (.ok tn)

theorem get_after (j : ℕ) : (after t a v k tn r p).sockets.get j =
    if a.ported ∧ j = v.nextSocket then some p
    else if k.stale.bind (·.listener) = some j then none else v.sockets.get j := by
  show ((v.closeStale k.stale).serve a p).sockets.get j = _
  rw [serve_get, (closeStale_rest v k.stale).1, closeStale_get]

theorem next_after : v.nextSocket ≤ (after t a v k tn r p).nextSocket ∧
    (a.ported → v.nextSocket < (after t a v k tn r p).nextSocket) := by
  have hrest := serve_rest (v.closeStale k.stale) a p
  rw [(closeStale_rest v k.stale).1] at hrest
  exact ⟨hrest.1, hrest.2.1⟩

theorem tunnels_after : (after t a v k tn r p).tunnels =
    Function.update v.tunnels t (v.tunnels t ++ [tn]) := by
  have hsame : ((v.closeStale k.stale).serve a p).tunnels = v.tunnels :=
    (serve_rest _ a p).2.2.trans (closeStale_rest v k.stale).2
  show Function.update ((v.closeStale k.stale).serve a p).tunnels t _ = _
  rw [hsame]
  show Function.update v.tunnels t (((v.closeStale k.stale).serve a p).tunnels t ++ [tn]) = _
  rw [hsame]

theorem closed_after {j : ℕ} (hlt : j < v.nextSocket) (hj : v.sockets.get j = none) :
    (after t a v k tn r p).sockets.get j = none := by
  rw [get_after, if_neg fun h => Nat.ne_of_lt hlt h.2, hj, ite_self]

variable (ho : Opening t who a v k tn r p)
include ho

theorem placed : Placed t a k.res r := opens_placed ho.opens

theorem stale_closed {u : ℕ} (hu : v.registry.names.get a.name = some u) {tn' : Tunnel}
    (hsess : (v.registry.cells u).session.isSome) (htn : (v.registry.cells u).tunnel = some tn')
    {j : ℕ} (hj : tn'.listener = some j) (hlt : j < v.nextSocket) :
    (after t a v k tn r p).sockets.get j = none := by
  rw [get_after, if_neg fun h => Nat.ne_of_lt hlt h.2, if_pos]
  rcases claim_stale ho.claim with ⟨hnone, -⟩ | ⟨u', hget, -, hstale⟩
  · rw [hnone] at hu
    cases hu
  · cases hget.symm.trans hu
    rw [hstale, if_pos hsess, htn]
    exact hj

theorem res_eq {u : ℕ} (hu : v.registry.Named u) (heq : u = k.res) :
    v.registry.names.get a.name = some u := by
  rcases (claim_cell ho.claim).2.2.2 with ⟨-, hget, -⟩ | ⟨-, -, hnew, -⟩
  · rw [heq]
    exact hget
  · exact absurd (heq.trans hnew) (Nat.ne_of_lt hu.lt)

theorem sound (h : v.Sound) (hp : a.ported → p ≠ 0) : (after t a v k tn r p).Sound := by
  refine ⟨ho.opens.books h.books, fun j q hj => ?_, fun j q hj => ?_⟩
  · rw [get_after] at hj
    split at hj
    next hnew =>
      rw [hnew.2]
      exact next_after.2 hnew.1
    split at hj
    · cases hj
    · exact (h.fresh j q hj).trans_le next_after.1
  · rw [get_after] at hj
    split at hj
    next hnew =>
      cases hj
      have hport := ho.port
      have hln := ho.listener
      rw [if_pos hnew.1] at hport hln
      rw [hnew.2]
      refine ⟨k.res, tn, NameRegistry.named_of_get ho.placed.name, hport, hp hnew.1, ?_, ho.tunnel,
        hln⟩
      show (r.cells k.res).session.isSome = true
      rw [ho.placed.session]
      rfl
    next hold =>
    split at hj
    · cases hj
    next hopen =>
    obtain ⟨u, tn', hu, hport, h0, hsess, htn, hln⟩ := h.owned j q hj
    have hne : u ≠ k.res := by
      intro heq
      have hclosed := ho.stale_closed (ho.res_eq hu heq) hsess htn hln (h.fresh j q hj)
      rw [get_after, if_neg hold, if_neg hopen, hj] at hclosed
      cases hclosed
    have hapart := Apart.opens ho.opens hne
    refine ⟨u, tn', ?_, ?_⟩
    · show r.names.get (r.cells u).name = some u
      rw [hapart.cell]
      exact hapart.names _ hu
    · show (r.cells u).port = q ∧ q ≠ 0 ∧ (r.cells u).session.isSome ∧
        (r.cells u).tunnel = some tn' ∧ _
      rw [hapart.cell]
      exact ⟨hport, h0, hsess, htn, hln⟩

end Opening

section
variable {S : Setting} {s s' : Both} {c : Claim} {a : Ask} {k : NameRegistry.Claimed} {tn : Tunnel}
  {r : NameRegistry} {p : ℤ} {q : Int32} {rec : TunLiveTunnel}

theorem RecordOf.get (hrec : RecordOf S c a q rec)
    (hengine : s'.desk.engine = s.desk.engine.setTunnel rec) (n : String) :
    s'.recs.get n = if n = a.name then some rec else s.recs.get n := by
  have hrecs : s'.recs = (s.desk.engine.setTunnel rec).tunnels := congrArg Engine.tunnels hengine
  rw [hrecs, Claims.Engine.setTunnel_tunnels, Table.get_put, hrec.name]

theorem Agree.alike_opened (h : Agree S s)
    (ho : Opening c.session (S.who c) a s.relay.shared k tn r q.toInt)
    (hrec : RecordOf S c a q rec) (hname : a.name ≠ "")
    (hbounds : if a.ported then S.cfg.rules.portMin ≤ q.toInt ∧ q.toInt ≤ S.cfg.rules.portMax
      else q.toInt = 0)
    (hplain : ¬ a.ported → s.reg.heldPort a.name = 0) :
    Alike S (c.session :: s.used) (r.cells k.res) rec := by
  have hcell := ho.opens.cell
  have hport : (r.cells k.res).port = q.toInt := by
    by_cases hp : a.ported
    · have hport := ho.port
      rwa [if_pos hp] at hport
    · rw [if_neg hp] at hbounds
      rw [hcell.port hp, hbounds]
      exact hplain hp
  constructor
  · rw [hrec.name]
    exact hname
  · rw [hrec.token, opens_token ho.opens]
    rfl
  · rw [hrec.agent, hcell.agent]
    rfl
  · rw [hrec.port, hport]
  · intro h0
    rw [hport] at h0 ⊢
    split at hbounds
    · exact hbounds
    · exact absurd hbounds h0
  · rw [hrec.domains, ho.placed.domains]
  · exact hrec.relay
  · exact hrec.real
  · cases hperm : (r.cells k.res).permanent with
    | false => rfl
    | true =>
      obtain ⟨u, hu, hlasting⟩ := hcell.permanent hperm
      obtain ⟨old, -, halike⟩ := h.get_some hu
      exact absurd (halike.lasting.symm.trans hlasting) Bool.false_ne_true
  · exact ⟨c.session, List.mem_cons_self, hrec.session,
      .inl ⟨ho.placed.session, hcell.timer, hrec.active⟩⟩

theorem Stands.opened {t : ℕ} {tn' : Tunnel} (hstands : Stands S s t tn') (ht : t ≠ c.session)
    (hln : ∀ j, tn'.listener = some j → j < s.relay.nextSocket)
    (ho : Opening c.session (S.who c) a s.relay.shared k tn r p) (hrec : RecordOf S c a q rec)
    (hv : s'.relay.shared = Opening.after c.session a s.relay.shared k tn r p)
    (hengine : s'.desk.engine = s.desk.engine.setTunnel rec) : Stands S s' t tn' := by
  have hreg : s'.reg = r := congrArg registry hv
  have hsockets : ∀ j, s'.relay.sockets.get j =
      (Opening.after c.session a s.relay.shared k tn r p).sockets.get j := by
    intro j
    rw [← hv]
    rfl
  have hget := hrec.get hengine
  have hother : ∀ rec', (∀ old, s.recs.get tn'.endpoint.name = some old →
        old.sessionId ≠ S.sessionID t) →
      s'.recs.get tn'.endpoint.name = some rec' → rec'.sessionId ≠ S.sessionID t := by
    intro rec' hold hrec'
    rw [hget] at hrec'
    split at hrec'
    · cases hrec'
      rw [hrec.session]
      exact fun heq => ht (S.sessionID_inj heq).symm
    · exact hold rec' hrec'
  have hne : some c.session ≠ some t := fun heq => ht (Option.some.inj heq).symm
  by_cases hres : tn'.res = k.res
  · -- the reservation is the claim's now
    refine .inr ⟨?_, fun rec' hrec' => ?_, fun j hj => ?_⟩
    · rw [hreg, hres, ho.placed.session]
      exact hne
    · rcases hstands with ⟨hn, hsess, -⟩ | ⟨-, hold, -⟩
      · have hname := ho.res_eq (NameRegistry.named_of_get hn) hres
        have heq : tn'.endpoint.name = a.name := by
          rw [← s.reg.keyed _ _ hn]
          exact s.reg.keyed _ _ hname
        rw [hget, if_pos heq] at hrec'
        cases hrec'
        rw [hrec.session]
        exact fun heq => ht (S.sessionID_inj heq).symm
      · exact hother rec' hold hrec'
    · rw [hsockets]
      rcases hstands with ⟨hn, hsess, htn⟩ | ⟨-, -, hclosed⟩
      · refine ho.stale_closed (ho.res_eq (NameRegistry.named_of_get hn) hres) ?_ htn hj (hln j hj)
        show (s.reg.cells tn'.res).session.isSome = true
        rw [hsess]
        rfl
      · exact Opening.closed_after (hln j hj) (hclosed j hj)
  · have hapart := Apart.opens ho.opens hres
    rcases hstands with ⟨hn, hsess, htn⟩ | ⟨hsess, hold, hclosed⟩
    · left
      rw [hreg, hapart.cell]
      exact ⟨hapart.names _ hn, hsess, htn⟩
    · refine .inr ⟨?_, fun rec' => hother rec' hold, fun j hj => ?_⟩
      · rw [hreg, hapart.cell]
        exact hsess
      · rw [hsockets]
        exact Opening.closed_after (hln j hj) (hclosed j hj)

theorem Agree.opened (h : Agree S s) (hfresh : c.session ∉ s.used)
    (ho : Opening c.session (S.who c) a s.relay.shared k tn r q.toInt)
    (hrec : RecordOf S c a q rec) (hindexed : Claims.Indexed (s.desk.engine.setTunnel rec))
    (hname : a.name ≠ "")
    (hbounds : if a.ported then S.cfg.rules.portMin ≤ q.toInt ∧ q.toInt ≤ S.cfg.rules.portMax
      else q.toInt = 0)
    (hplain : ¬ a.ported → s.reg.heldPort a.name = 0)
    (hv : s'.relay.shared = Opening.after c.session a s.relay.shared k tn r q.toInt)
    (hdesk : s'.desk = { engine := s.desk.engine.setTunnel rec
                         held := Function.update s.desk.held c.session
                          (s.desk.held c.session ++ [a.name]) })
    (hused : s'.used = c.session :: s.used) : Agree S s' := by
  have hreg : s'.reg = r := congrArg registry hv
  have hengine : s'.desk.engine = s.desk.engine.setTunnel rec := by rw [hdesk]
  have hheld : s'.desk.held = Function.update s.desk.held c.session
      (s.desk.held c.session ++ [a.name]) := by rw [hdesk]
  have htunnels : s'.relay.shared.tunnels = Function.update s.relay.shared.tunnels c.session
      (s.relay.shared.tunnels c.session ++ [tn]) := by
    rw [hv, Opening.tunnels_after]
  have hnext : s'.relay.nextSocket =
      (Opening.after c.session a s.relay.shared k tn r q.toInt).nextSocket := by
    rw [← hv]
    rfl
  have hmode := opens_mode ho.opens
  have hvalid := S.cfg.valid
  have hempty : s.relay.shared.tunnels c.session = [] := by
    by_contra hne
    exact hfresh (h.sessions c.session hne).1
  constructor
  · rw [hv]
    refine ho.sound h.sound fun hp => ?_
    rw [if_pos hp] at hbounds
    omega
  · rw [hengine]
    exact hindexed
  · rw [hreg, ho.opens.grown.grace]
    exact h.grace
  · rw [hreg, hmode.1, hmode.2]
    exact h.mode
  · rw [hengine, (Claims.Engine.setTunnel_rest _ rec).1]
    exact h.relays
  · rw [hengine, (Claims.Engine.setTunnel_rest _ rec).2]
    exact h.agents
  · intro n
    rw [hreg, hrec.get hengine, hused]
    by_cases hn : n = a.name
    · rw [if_pos hn, hn, ho.placed.name]
      exact .some (h.alike_opened ho hrec hname hbounds hplain)
    · rw [if_neg hn, opens_names ho.opens hn]
      show Option.Rel _ (s.reg.names.get n) _
      cases hget : s.reg.names.get n with
      | none =>
        rw [h.get_none.mp hget]
        exact .none
      | some u =>
        obtain ⟨old, hold, halike⟩ := h.get_some hget
        have hne : u ≠ k.res := by
          intro heq
          have hsame := ho.res_eq (NameRegistry.named_of_get hget) heq
          exact hn ((s.reg.keyed n u hget).symm.trans (s.reg.keyed _ u hsame))
        rw [hold]
        refine .some ?_
        rw [(Apart.opens ho.opens hne).cell]
        exact halike.mono fun t => List.mem_cons_of_mem _
  · intro t
    rw [hheld, htunnels]
    by_cases ht : t = c.session
    · subst ht
      rw [Function.update_self, Function.update_self, h.held, hempty]
      simp [tunnelNames, ho.name]
    · rw [Function.update_of_ne ht, Function.update_of_ne ht]
      exact h.held t
  · intro t hne
    rw [htunnels] at hne ⊢
    rw [hused, hreg, hnext]
    by_cases ht : t = c.session
    · subst ht
      rw [Function.update_self, hempty]
      refine ⟨List.mem_cons_self, tn, rfl, ?_, fun j hj => ?_, .inl ?_⟩
      · rw [ho.res]
        exact r.named_lt _ _ ho.placed.name
      · rw [ho.listener] at hj
        split at hj
        next hp =>
          cases hj
          exact Opening.next_after.2 hp
        next => cases hj
      · rw [hreg, ho.res, ho.name]
        exact ⟨ho.placed.name, ho.placed.session, ho.tunnel⟩
    · rw [Function.update_of_ne ht] at hne ⊢
      obtain ⟨hin, tn', htn, hlt, hln, hstands⟩ := h.sessions t hne
      have hle : s.relay.shared.nextSocket ≤
          (Opening.after c.session a s.relay.shared k tn r q.toInt).nextSocket :=
        Opening.next_after.1
      exact ⟨List.mem_cons_of_mem _ hin, tn', htn, hlt.trans_le ho.opens.grown.next,
        fun j hj => (hln j hj).trans_le hle, hstands.opened ht hln ho hrec hv hengine⟩

end

section
open NameRegistry
variable {r : NameRegistry} {u ref t : ℕ} {now : ℤ}

theorem park_kept (ref t : ℕ) (now : ℤ) (hmode : r.closed = false ∧ r.clustered = false)
    (hnamed : (r.cells ref).session = some t → r.Named ref)
    (hperm : (r.cells ref).session = some t → (r.cells ref).permanent = false) :
    (∀ n, (r.park ref t now).names.get n = r.names.get n) ∧
    ∀ u, (r.park ref t now).cells u =
      if u = ref ∧ (r.cells ref).session = some t then
        { r.cells u with session := none, tunnel := none, expires := now + r.grace, timer := true }
      else r.cells u := by
  by_cases hsess : (r.cells ref).session = some t
  · have hopen : ¬ (r.closed ∨ r.clustered) := by simp [hmode]
    rw [park_waits now hsess (hnamed hsess) (hperm hsess) hopen]
    refine ⟨fun _ => rfl, fun u => ?_⟩
    rw [modify_cells, modify_cells]
    by_cases hu : u = ref
    · rw [if_pos hu, if_pos hu, if_pos ⟨hu, hsess⟩]
    · rw [if_neg hu, if_neg hu, if_neg fun h => hu h.1]
  · have hpark : r.park ref t now = r := by
      unfold NameRegistry.park
      rw [if_pos hsess]
    rw [hpark]
    refine ⟨fun _ => rfl, fun u => ?_⟩
    rw [if_neg fun h => hsess h.2]

theorem park_mode : (r.park ref t now).closed = r.closed ∧
    (r.park ref t now).clustered = r.clustered := by
  have hmode : (r.rollback ref t true now).closed = r.closed ∧
      (r.rollback ref t true now).clustered = r.clustered := rollback_mode
  exact hmode

end

section
variable {S : Setting} {s s' : Both} {t : ℕ} {now : ℤ} {tn : Tunnel}

theorem Agree.deskEnds_engine (h : Agree S s) (now : ℤ) (ht : s.relay.shared.tunnels t = [tn]) :
    (S.deskEnds t now s.desk).engine = s.desk.engine.park S.engine { now := now }
      ((Message.park (S.sessionID t) [tn.endpoint.name]).request S.node) := by
  have hheld : s.desk.held t = [tn.endpoint.name] := by
    rw [h.held, ht]
    rfl
  show (if s.desk.held t = [] then s.desk.engine else _) = _
  rw [hheld, if_neg (by simp)]
  exact congrArg Prod.fst (if_neg S.named)

theorem Agree.deskEnds_get (h : Agree S s) (now : ℤ) (ht : s.relay.shared.tunnels t = [tn])
    (hstands : Stands S s t tn) (n : String) :
    (S.deskEnds t now s.desk).engine.tunnels.get n =
      if n = tn.endpoint.name ∧ (s.reg.cells tn.res).session = some t then
        (s.recs.get n).map (Engine.parked (unix (now + S.engine.grace)))
      else s.recs.get n := by
  have hserved : ∀ rec, s.recs.get tn.endpoint.name = some rec →
      (Engine.servedBy ((Message.park (S.sessionID t) [tn.endpoint.name]).request S.node) rec = true ↔
        (s.reg.cells tn.res).session = some t) := by
    intro rec hrec
    obtain ⟨u, hu, halike⟩ := h.get_record hrec
    have hiff : Engine.servedBy ((Message.park (S.sessionID t) [tn.endpoint.name]).request S.node)
        rec = true ↔ rec.sessionId = S.sessionID t := by
      simp [Engine.servedBy, Message.request, halike.relay, S.sessionID_ne]
    rw [hiff]
    rcases hstands with ⟨hn, hsess, -⟩ | ⟨hsess, hold, -⟩
    · cases hn.symm.trans hu
      refine iff_of_true ?_ hsess
      obtain ⟨t', -, hid, ⟨hs, -⟩ | ⟨hs, -⟩⟩ := halike.session
      · cases hs.symm.trans hsess
        exact hid
      · rw [hs] at hsess
        cases hsess
    · exact iff_of_false (hold rec hrec) hsess
  have hgrace : (if ((Message.park (S.sessionID t) [tn.endpoint.name]).request S.node).graceUntil = 0
      then unix (now + S.engine.grace) else
      ((Message.park (S.sessionID t) [tn.endpoint.name]).request S.node).graceUntil) =
      unix (now + S.engine.grace) := if_pos rfl
  rw [h.deskEnds_engine now ht, Engine.park_get, hgrace]
  have hnames : n ∈ ((Message.park (S.sessionID t) [tn.endpoint.name]).request S.node).names ↔
      n = tn.endpoint.name := List.mem_singleton
  simp only [hnames]
  by_cases hn : n = tn.endpoint.name
  · subst hn
    rw [if_pos rfl]
    cases hrec : s.recs.get tn.endpoint.name with
    | none => simp
    | some rec =>
      by_cases hsess : (s.reg.cells tn.res).session = some t
      · rw [if_pos ⟨rfl, hsess⟩, Option.map_some, if_pos ((hserved rec hrec).mpr hsess)]
        rfl
      · rw [if_neg fun h => hsess h.2, Option.map_some, if_neg (mt (hserved rec hrec).mp hsess)]
  · rw [if_neg hn, if_neg fun h => hn h.1]

theorem Alike.parked {used : List ℕ} {v : Reservation} {rec : TunLiveTunnel}
    (h : Alike S used v rec) (now : ℤ) :
    Alike S used { v with session := none, tunnel := none, expires := now + S.engine.grace
                          timer := true }
      (Engine.parked (unix (now + S.engine.grace)) rec) := by
  obtain ⟨t', ht', hid, -⟩ := h.session
  exact { h with session := ⟨t', ht', hid, .inr ⟨rfl, rfl, rfl, rfl, rfl⟩⟩ }

structure Departed (S : Setting) (s s' : Both) (t : ℕ) (now : ℤ) (tn : Tunnel) : Prop where
  used : s'.used = s.used
  current : (s.reg.cells tn.res).session = some t →
    s.reg.names.get tn.endpoint.name = some tn.res ∧
      (s.reg.cells tn.res).tunnel = some tn
  registry : s'.reg = s.reg.park tn.res t now
  names : ∀ n, s'.reg.names.get n = s.reg.names.get n
  cells : ∀ u, s'.reg.cells u =
    if u = tn.res ∧ (s.reg.cells tn.res).session = some t then
      { s.reg.cells u with
        session := none, tunnel := none, expires := now + S.engine.grace, timer := true }
    else s.reg.cells u
  sockets : ∀ j, s'.relay.sockets.get j =
    if tn.listener = some j then none else s.relay.sockets.get j
  nextSocket : s'.relay.nextSocket = s.relay.nextSocket
  tunnels : s'.relay.shared.tunnels = Function.update s.relay.shared.tunnels t []
  records : ∀ n, s'.recs.get n =
    if n = tn.endpoint.name ∧ (s.reg.cells tn.res).session = some t then
      (s.recs.get n).map (Engine.parked (unix (now + S.engine.grace)))
    else s.recs.get n
  held : s'.desk.held = Function.update s.desk.held t []
  engine : s'.desk.engine = s.desk.engine.park S.engine { now := now }
    ((Message.park (S.sessionID t) [tn.endpoint.name]).request S.node)

theorem Agree.departed (h : Agree S s) (ht : s.relay.shared.tunnels t = [tn])
    (hstands : Stands S s t tn) (hused : s'.used = s.used)
    (hv : s'.relay.shared = parkOne t now
      { s.relay.shared with tunnels := Function.update s.relay.shared.tunnels t [] } tn)
    (hdesk : s'.desk = S.deskEnds t now s.desk) : Departed S s s' t now tn := by
  have hcurrent : (s.reg.cells tn.res).session = some t →
      s.reg.names.get tn.endpoint.name = some tn.res ∧
        (s.reg.cells tn.res).tunnel = some tn := by
    intro hsess
    rcases hstands with ⟨hn, -, htn⟩ | ⟨hnot, -⟩
    · exact ⟨hn, htn⟩
    · exact absurd hsess hnot
  have hlasting : (s.reg.cells tn.res).session = some t →
      (s.reg.cells tn.res).permanent = false := by
    intro hsess
    obtain ⟨rec, -, halike⟩ := h.get_some (hcurrent hsess).1
    exact halike.lasting
  obtain ⟨hnames, hcells⟩ := park_kept tn.res t now h.mode
    (fun hsess => NameRegistry.named_of_get (hcurrent hsess).1) hlasting
  have hreg : s'.reg = s.reg.park tn.res t now :=
    congrArg registry hv
  have hget := h.deskEnds_get now ht hstands
  rw [h.grace, ← hreg] at hcells
  rw [← hreg] at hnames
  rw [← hdesk] at hget
  refine ⟨hused, hcurrent, hreg, hnames, hcells, fun j => ?_,
    (congrArg nextSocket hv).trans (closeStale_rest _ (some tn)).1,
    (congrArg tunnels hv).trans (closeStale_rest _ (some tn)).2, hget,
    congrArg Desk.held hdesk, ?_⟩
  · have hclosed := closeStale_get { s.relay.shared with
      tunnels := Function.update s.relay.shared.tunnels t [] } (some tn) j
    rw [Option.bind_some] at hclosed
    rw [← show s.relay.shared.sockets = s.relay.sockets from rfl, ← hclosed]
    exact congrArg (fun v => v.sockets.get j) hv
  · rw [hdesk]
    exact h.deskEnds_engine now ht

namespace Departed
variable (d : Departed S s s' t now tn)
include d

theorem other {u : ℕ} (hu : ¬ (u = tn.res ∧ (s.reg.cells tn.res).session = some t)) :
    s'.reg.cells u = s.reg.cells u := by
  rw [d.cells, if_neg hu]

theorem socket_open {j : ℕ} {q : ℤ} (hj : s'.relay.sockets.get j = some q) :
    tn.listener ≠ some j ∧ s.relay.sockets.get j = some q := by
  rw [d.sockets] at hj
  split at hj
  · cases hj
  next hopen => exact ⟨hopen, hj⟩

theorem sound (h : Agree S s) : s'.relay.shared.Sound := by
  refine ⟨?_, fun j q hj => ?_, fun j q hj => ?_⟩
  · show Books s'.reg _
    rw [d.registry]
    exact h.books.park now
  · show j < s'.relay.nextSocket
    rw [d.nextSocket]
    exact h.sound.fresh j q (d.socket_open hj).2
  · obtain ⟨hopen, hj⟩ := d.socket_open hj
    obtain ⟨u, tn', hu, hport, h0, hsess, htn', hln⟩ := h.sound.owned j q hj
    have hne : ¬ (u = tn.res ∧ (s.reg.cells tn.res).session = some t) := by
      rintro ⟨rfl, hs⟩
      have htn : (s.reg.cells tn.res).tunnel = some tn := (d.current hs).2
      cases htn.symm.trans htn'
      exact hopen hln
    refine ⟨u, tn', (NameRegistry.named_congr d.names u).mpr hu, ?_⟩
    show (s'.reg.cells u).port = q ∧ q ≠ 0 ∧
      (s'.reg.cells u).session.isSome ∧
      (s'.reg.cells u).tunnel = some tn' ∧ _
    rw [d.other hne]
    exact ⟨hport, h0, hsess, htn', hln⟩

theorem alike (h : Agree S s) (n : String) :
    Option.Rel (fun u rec => Alike S s'.used (s'.reg.cells u) rec)
      (s'.reg.names.get n) (s'.recs.get n) := by
  rw [d.used, d.names, d.records]
  cases hn : s.reg.names.get n with
  | none =>
    rw [h.get_none.mp hn]
    simp only [Option.map_none, ite_self]
    exact .none
  | some u =>
    obtain ⟨rec, hrec, halike⟩ := h.get_some hn
    rw [hrec]
    by_cases hmine : u = tn.res ∧ (s.reg.cells tn.res).session = some t
    · have hname : n = tn.endpoint.name := by
        have hcur := (d.current hmine.2).1
        rw [← hmine.1] at hcur
        rw [← s.reg.keyed n u hn, ← s.reg.keyed _ u hcur]
      rw [if_pos ⟨hname, hmine.2⟩, Option.map_some]
      refine .some ?_
      rw [d.cells, if_pos hmine]
      exact halike.parked now
    · have hne : ¬ (n = tn.endpoint.name ∧
          (s.reg.cells tn.res).session = some t) := by
        rintro ⟨rfl, hs⟩
        have hcur := (d.current hs).1
        cases hn.symm.trans hcur
        exact hmine ⟨rfl, hs⟩
      rw [if_neg hne]
      refine .some ?_
      rw [d.other hmine]
      exact halike

theorem stands {t' : ℕ} {tn' : Tunnel} (ht' : t' ≠ t) (hstands : Stands S s t' tn') :
    Stands S s' t' tn' := by
  rcases hstands with ⟨hn', hsess', htn'⟩ | ⟨hsess', hold', hclosed'⟩
  · left
    rw [d.names, d.other]
    · exact ⟨hn', hsess', htn'⟩
    · rintro ⟨heq, hs⟩
      rw [heq, hs] at hsess'
      exact ht' (Option.some.inj hsess').symm
  · refine .inr ⟨?_, fun rec hrec => ?_, fun j hj => ?_⟩
    · rw [d.cells]
      split
      · simp
      · exact hsess'
    · rw [d.records] at hrec
      split at hrec
      · cases hold : s.recs.get tn'.endpoint.name with
        | none => simp [hold] at hrec
        | some old =>
          rw [hold] at hrec
          cases hrec
          exact hold' old hold
      · exact hold' rec hrec
    · rw [d.sockets, hclosed' j hj, ite_self]

end Departed

theorem Departed.agree (d : Departed S s s' t now tn) (h : Agree S s) : Agree S s' := by
  have hrest := Claims.Engine.park_rest s.desk.engine S.engine { now := now }
    ((Message.park (S.sessionID t) [tn.endpoint.name]).request S.node)
  rw [← d.engine] at hrest
  refine ⟨d.sound h, ?_, ?_, ?_, ?_, ?_, d.alike h, fun t' => ?_, fun t' hne => ?_⟩
  · rw [d.engine]
    exact h.indexed.upkeep (Claims.Engine.park_upkeep _ _ _ _)
  · rw [d.registry, (Grown.park _ _ _ _).grace]
    exact h.grace
  · rw [d.registry, park_mode.1, park_mode.2]
    exact h.mode
  · rw [hrest.1]
    exact h.relays
  · rw [hrest.2]
    exact h.agents
  · rw [d.tunnels, d.held]
    by_cases ht' : t' = t
    · subst ht'
      rw [Function.update_self, Function.update_self]
      rfl
    · rw [Function.update_of_ne ht', Function.update_of_ne ht']
      exact h.held t'
  · rw [d.tunnels] at hne ⊢
    by_cases ht' : t' = t
    · subst ht'
      rw [Function.update_self] at hne
      exact absurd rfl hne
    · rw [Function.update_of_ne ht'] at hne ⊢
      obtain ⟨hin, tn', htn', hlt, hln, hstands⟩ := h.sessions t' hne
      rw [d.used, d.registry, d.nextSocket]
      exact ⟨hin, tn', htn', hlt.trans_le (Grown.park _ _ _ _).next, hln, d.stands ht' hstands⟩

theorem Agree.ends (h : Agree S s) (t : ℕ) (now : ℤ) :
    Agree S { s with relay := S.relayEnds t now s.relay, desk := S.deskEnds t now s.desk } := by
  have hv : (S.relayEnds t now s.relay).shared = (s.relay.shared.tunnels t).foldl
      (parkOne t now)
      { s.relay.shared with tunnels := Function.update s.relay.shared.tunnels t [] } :=
    eval_closeTunnels S.cfg S.alone (S.sessionID t) s.relay
  by_cases hnone : s.relay.shared.tunnels t = []
  · -- the session has claimed nothing
    refine h.same ?_ ?_ fun _ ht => ht
    · rw [hnone, ← hnone] at hv
      rw [hnone, List.foldl_nil, ← hnone, Function.update_eq_self] at hv
      exact hv
    · have hheld : s.desk.held t = [] := by
        rw [h.held, hnone]
        rfl
      show ({ engine := _, held := _ } : Desk) = s.desk
      rw [hheld, if_pos rfl, ← hheld, Function.update_eq_self]
  · obtain ⟨-, tn, htn, hlt, hln, hstands⟩ := h.sessions t hnone
    rw [htn] at hv
    have hleft : Departed S s
        { s with relay := S.relayEnds t now s.relay, desk := S.deskEnds t now s.desk } t now tn :=
      h.departed htn hstands rfl hv rfl
    exact hleft.agree h

end

section
variable {S : Setting} {s s' : Both} {now : ℤ}

theorem unix_le {t now : ℤ} (h : t ≤ now) : unix t ≤ unix now := by
  unfold Claims.unix Claims.second
  omega

def NameRegistry.Punctual (r : NameRegistry) (now : ℤ) : Prop :=
  ∀ n u, r.names.get n = some u → (r.cells u).timer →
    unix (r.cells u).expires ≤ unix now → (r.cells u).expires ≤ now

variable {r : NameRegistry} {n : String}

theorem mem_due {u : ℕ} (hn : r.names.get n = some u) (order : RangeOrder) :
    u ∈ order.visit (r.due now) ↔ (r.cells u).timer ∧ (r.cells u).expires ≤ now := by
  have hmem : u ∈ r.names.entries.map (·.2) :=
    List.mem_map.mpr ⟨⟨n, u⟩, AList.mem_lookup_iff.mp hn, rfl⟩
  rw [(order.perm _).mem_iff, NameRegistry.due, List.mem_filter, decide_eq_true_iff]
  exact and_iff_right hmem

theorem Alike.idle_iff {used : List ℕ} {u : ℕ} {rec : TunLiveTunnel}
    (halike : Alike S used (r.cells u) rec) (hn : r.names.get n = some u) (hp : r.Punctual now)
    (order : RangeOrder) :
    Idle r (order.visit (r.due now)) u ↔
      Engine.graceOver { now := now, order := order } rec = true := by
  have hpunctual := hp n u hn
  unfold Idle Engine.graceOver
  rw [mem_due hn, decide_eq_true_iff]
  obtain ⟨t, -, -, ⟨hs, htimer, hstate⟩ | ⟨hs, -, htimer, hstate, huntil⟩⟩ := halike.session
  · simp [hs, hstate]
  · simp only [hs, htimer, hstate, huntil, halike.lasting, halike.real, true_and, and_true]
    exact ⟨unix_le, hpunctual htimer⟩

structure Swept (S : Setting) (s s' : Both) (now : ℤ) (order : RangeOrder) : Prop where
  used : s'.used = s.used
  sound : s'.relay.shared.Sound
  expired : Expired (order.visit (s.reg.due now)) s.reg s'.reg
  sockets : s'.relay.sockets = s.relay.sockets
  nextSocket : s'.relay.nextSocket = s.relay.nextSocket
  tunnels : s'.relay.shared.tunnels = s.relay.shared.tunnels
  records : ∀ n, s'.recs.get n =
    if (s.recs.get n).any (Engine.graceOver { now := now, order := order }) = true
    then none else s.recs.get n
  relays : s'.desk.engine.relays = s.desk.engine.relays
  agents : s'.desk.engine.agents = s.desk.engine.agents
  held : s'.desk.held = s.desk.held
  engine : s'.desk.engine = s.desk.engine.sweep S.engine { now := now, order := order }

theorem Agree.swept (h : Agree S s) (order : RangeOrder) (hused : s'.used = s.used)
    (hv : s'.relay.shared = s.relay.shared.put
      ((order.visit (s.reg.due now)).foldl NameRegistry.expire s.reg))
    (hdesk : s'.desk = S.deskGrace now order s.desk) : Swept S s s' now order := by
  have hengine : s'.desk.engine =
      s.desk.engine.sweep S.engine { now := now, order := order } := congrArg Desk.engine hdesk
  obtain ⟨hget, hrelays, hagents⟩ := Engine.sweep_get S.engine { now := now, order := order }
    h.relays h.agents
  rw [← hengine] at hget hrelays hagents
  have hexp := Expired.all (order.visit (s.reg.due now)) s.reg
  have hbooks := Expired.books h.books (order.visit (s.reg.due now))
  have hsound := hexp.sound (v := s.relay.shared) h.sound hbooks
  rw [← hv] at hsound
  have hreg : s'.reg = (order.visit (s.reg.due now)).foldl
      NameRegistry.expire s.reg := congrArg registry hv
  rw [← hreg] at hexp
  refine ⟨hused, hsound, hexp, congrArg sockets hv, congrArg nextSocket hv, ?_,
    hget, hrelays, hagents, ?_, hengine⟩
  · rw [hv]
    rfl
  · rw [hdesk]
    rfl

namespace Swept
variable {order : RangeOrder} (w : Swept S s s' now order)
include w

theorem alike (h : Agree S s) (hp : s.reg.Punctual now) (n : String) :
    Option.Rel (fun u rec => Alike S s'.used (s'.reg.cells u) rec)
      (s'.reg.names.get n) (s'.recs.get n) := by
  rw [w.records, w.used]
  cases hn : s.reg.names.get n with
  | none =>
    rw [w.expired.get_none (by simp [hn]), h.get_none.mp hn, ite_self]
    exact .none
  | some u =>
    obtain ⟨rec, hrec, halike⟩ := h.get_some hn
    have hidle := halike.idle_iff hn hp order
    rw [hrec, Option.any_some]
    by_cases hover : Idle s.reg (order.visit (s.reg.due now)) u
    · have hnone : s'.reg.names.get n = none := by
        refine w.expired.get_none fun v hv => ?_
        cases hn.symm.trans hv
        exact hover
      rw [hnone, if_pos (hidle.mp hover)]
      exact .none
    · rw [(w.expired.names n u).mpr ⟨hn, hover⟩, if_neg (mt hidle.mpr hover)]
      refine .some ?_
      rw [w.expired.kept u hover]
      exact halike

theorem stands {t : ℕ} {tn : Tunnel} (h : Stands S s t tn) : Stands S s' t tn := by
  rcases h with ⟨hn, hsess, htn⟩ | ⟨hsess, hold, hclosed⟩
  · have hnot : ¬ Idle s.reg (order.visit (s.reg.due now)) tn.res :=
      Expired.not_idle (by rw [hsess]; rfl)
    left
    rw [w.expired.kept _ hnot]
    exact ⟨(w.expired.names _ _).mpr ⟨hn, hnot⟩, hsess, htn⟩
  · refine .inr ⟨?_, fun rec hrec => ?_, ?_⟩
    · obtain ⟨b, hb⟩ := w.expired.cells tn.res
      rw [hb]
      exact hsess
    · rw [w.records] at hrec
      split at hrec
      · cases hrec
      · exact hold rec hrec
    · rw [w.sockets]
      exact hclosed

theorem agree (h : Agree S s) (hp : s.reg.Punctual now) : Agree S s' := by
  constructor
  · exact w.sound
  · rw [w.engine]
    exact h.indexed.upkeep (Engine.sweep_upkeep _ _ _)
  · rw [w.expired.grown.grace]
    exact h.grace
  · rw [w.expired.mode.1, w.expired.mode.2]
    exact h.mode
  · rw [w.relays]
    exact h.relays
  · rw [w.agents]
    exact h.agents
  · exact w.alike h hp
  · rw [w.tunnels, w.held]
    exact h.held
  · intro t ht
    rw [w.tunnels] at ht ⊢
    obtain ⟨hin, tn, htn, hlt, hln, hstands⟩ := h.sessions t ht
    rw [w.used, w.nextSocket]
    exact ⟨hin, tn, htn, hlt.trans_le w.expired.grown.next, hln, w.stands hstands⟩

end Swept

theorem Agree.graceEnds (h : Agree S s) (hp : s.reg.Punctual now)
    (order : RangeOrder) (hused : s'.used = s.used)
    (hv : s'.relay.shared = s.relay.shared.put
      ((order.visit (s.reg.due now)).foldl NameRegistry.expire s.reg))
    (hdesk : s'.desk = S.deskGrace now order s.desk) : Agree S s' :=
  (h.swept order hused hv hdesk).agree h hp

end

def NameRegistry.Offers (r : NameRegistry) (rules : Rules) (u : ℕ) (requested : ℤ) : Prop :=
  PortKept r u requested ∨
  (rules.portMin ≤ requested ∧ requested ≤ rules.portMax ∧ requested ∉ r.ports) ∨
  (requested = 0 ∧ (r.cells u).port = 0 ∧ ∃ p, rules.portMin ≤ p ∧ p ≤ rules.portMax ∧ p ∉ r.ports)

/-- A name that is held and may be had again is asked for with a port if it has
one, and its domains and its port can be had. -/
def Claim.Fits (S : Setting) (r : NameRegistry) (c : Claim) : Prop :=
  c.Capped ∧ ∀ a, askOf S.cfg c.world (S.who c) c.spec = .ok a →
    ∀ u, r.names.get a.name = some u →
    ∀ d, r.decision a.name c.token.id c.agentID c.session c.token.policy.maxTunnels = .ok d →
    ((r.cells u).port ≠ 0 → a.ported) ∧ r.domainsFree a.name a.domains = true ∧
    (a.ported → r.Offers S.cfg.rules u a.requested)

/-- What may happen; a timer that is due by the second has to be due. -/
def Happening.Fits (S : Setting) (s : Both) : Happening → Prop
  | .claim c => c.Fits S s.relay.registry
  | .sessionEnds _ _ => True
  | .graceEnds now _ => s.relay.registry.Punctual now

section
variable {S : Setting} {s s' : Both} {c : Claim} {a : Ask}

theorem choosePort_offered {r : NameRegistry} {rules : Rules} {u : ℕ} {requested : ℤ}
    (h : r.Offers rules u requested) (hmin : 1 ≤ rules.portMin) (previous : ℤ) :
    ∃ p, choosePort rules.portMin rules.portMax requested previous (r.cells u).port
      (· ∉ r.ports) = .ok p := by
  unfold choosePort
  rcases h with hkept | ⟨hge, hle, hfree⟩ | ⟨rfl, h0, q, hge, hle, hfree⟩
  · exact ⟨_, if_pos hkept⟩
  · split
    · exact ⟨_, rfl⟩
    rw [if_pos (by omega), if_neg (by omega), if_pos (by simpa using hfree)]
    exact ⟨requested, rfl⟩
  · rw [if_neg fun h => h.1 h0, if_neg (by simp)]
    dsimp only
    cases hfind : ((if rules.portMin ≤ previous ∧ previous ≤ rules.portMax then [previous]
        else []) ++ portsFrom rules.portMin rules.portMax).find? (· ∉ r.ports) with
    | some p => exact ⟨p, rfl⟩
    | none =>
      have hnone := List.find?_eq_none.mp hfind q
        (List.mem_append_right _ (mem_portsFrom.mpr ⟨hge, hle⟩))
      exact absurd hfree (by simpa using hnone)

theorem Claim.Fits.granted (hfits : c.Fits S s.reg)
    (hask : askOf S.cfg c.world (S.who c) c.spec = .ok a) {u : ℕ}
    (hu : s.reg.names.get a.name = some u) {d : Decision}
    (hd : s.reg.decision a.name c.token.id c.agentID c.session
      c.token.policy.maxTunnels = .ok d) :
    ∃ p, s.reg.verdict S.cfg.rules c.session (S.who c) a = .ok p := by
  obtain ⟨-, hdomains, hport⟩ := hfits.2 a hask u hu d hd
  have hd' : s.reg.decision a.name (S.who c).token.id (S.who c).agentID c.session
      (S.who c).token.policy.maxTunnels = .ok d := hd
  have hheld : s.reg.heldPort a.name = (s.reg.cells u).port := by
    unfold NameRegistry.heldPort
    rw [hu]
    rfl
  unfold NameRegistry.verdict
  rw [hd', hdomains, hheld]
  show ∃ p, (if a.ported then _ else _) = Except.ok p
  by_cases hp : a.ported
  · rw [if_pos hp]
    exact choosePort_offered (hport hp) S.cfg.valid.1 a.previous
  · rw [if_neg hp]
    exact ⟨0, rfl⟩

theorem Agree.claim (h : Agree S s) (hfresh : c.session ∉ s.used) (hfits : c.Fits S s.reg) :
    Agree S { relay := (S.relayClaim c s.relay).2, desk := (S.deskClaim c s.desk).2
              used := c.session :: s.used } := by
  have hused : ∀ t ∈ s.used, t ∈ c.session :: s.used := fun t => List.mem_cons_of_mem _
  cases hask : askOf S.cfg c.world (S.who c) c.spec with
  | error err =>
    obtain ⟨-, hshared, hdesk⟩ := claim_error hask s
    exact h.same hshared hdesk hused
  | ok a =>
    have hrelay := relayClaim_ends S c h.sound hask
    have hdesk := h.deskClaim hfresh hfits.1 hask
    generalize hdue : s.reg.verdict S.cfg.rules c.session (S.who c) a = due
      at hrelay hdesk
    generalize S.deskClaim c s.desk = out at hdesk ⊢
    generalize (S.relayClaim c s.relay).1 = ans at hrelay
    generalize hv : (S.relayClaim c s.relay).2.shared = v at hrelay
    cases hrelay with
    | barred code hc =>
      cases hdesk with
      | refused => exact h.same hv rfl hused
    | @undone code k r hc hfails =>
      cases hdesk with
      | refused =>
        obtain ⟨d, hd⟩ := claim_decision.2 k hc
        have hnew : s.reg.names.get a.name = none := by
          cases hu : s.reg.names.get a.name with
          | none => rfl
          | some u =>
            obtain ⟨p, hp⟩ := hfits.granted hask hu hd
            rw [hdue] at hp
            cases hp
        rcases claim_stale hc with ⟨-, hstale⟩ | ⟨u, hu, -⟩
        swap
        · rw [show s.relay.shared.registry = s.reg from rfl, hnew] at hu
          cases hu
        rw [hstale] at hv
        have hres : k.res = s.reg.next := by
          rcases (claim_cell hc).2.2.2 with ⟨-, hget, -⟩ | ⟨-, -, hres, -⟩
          · cases hnew.symm.trans hget
          · exact hres
        have hrestored := hfails.restored h.mode.2 hnew
        refine h.put hv rfl hused (hfails.books h.books) hfails.grown hfails.mode hrestored.names
          fun u hu => ?_
        exact (hfails.apart_of_ne hc (by omega)).cell
    | @opened p k tn r hc ho hres hname htn hln hport =>
      cases hdesk with
      | granted q rec hrec hindexed =>
        obtain ⟨-, hchecked⟩ := askOf_ok hask
        have hvalid := (Rules.checkName_none hchecked.rules).1
        refine h.opened hfresh ⟨hc, ho, hres, hname, htn, hln, hport⟩ hrec hindexed
          (validName_ne_empty hvalid) (h.port_bounds hdue) (fun hp => ?_) hv rfl rfl
        unfold NameRegistry.heldPort
        cases hu : s.reg.names.get a.name with
        | none => rfl
        | some u =>
          obtain ⟨d, hd⟩ := claim_decision.2 k hc
          by_contra h0
          exact hp ((hfits.2 a hask u hu d hd).1 h0)

theorem agree_start (S : Setting) : Agree S S.start where
  sound := ⟨Books.new _ _, by intro k p hk; simp [Setting.start, Server.new, Server.shared] at hk,
    by intro k p hk; simp [Setting.start, Server.new, Server.shared] at hk⟩
  indexed := Claims.Indexed.new
  grace := rfl
  mode := ⟨rfl, rfl⟩
  relays := fun _ => rfl
  agents := fun _ => rfl
  records := fun _ => .none
  held := fun _ => rfl
  sessions := fun _ h => absurd rfl h

theorem Agree.step (h : Agree S s) {a : Happening} (hfits : a.Fits S s) (hstep : S.Step s a s') :
    Agree S s' := by
  cases hstep with
  | claim c hfresh => exact h.claim hfresh hfits
  | sessionEnds t now => exact h.ends t now
  | graceEnds now order => exact h.graceEnds hfits order rfl (eval_expireAll S.cfg _ s.relay) rfl

/-- In every run of happenings that fit, the engine gives each claim the answer
that a standalone relay gives it. -/
theorem engine_decides_alike {as : List Happening}
    (hrun : Run (Guarded (fun s a => a.Fits S s) S.Step) S.start as s) (c : Claim)
    (hfresh : c.session ∉ s.used) (hcap : c.Capped) :
    (S.relayClaim c s.relay).1 = (S.deskClaim c s.desk).1 := by
  have hagree : Agree S s :=
    hrun.invariant (I := Agree S) (fun _ _ _ h hs => h.step hs.1 hs.2) (agree_start S)
  exact hagree.answers hfresh hcap

end

def demoSetting : Setting where
  cfg := demoConfig
  engine := demoEngineConfig
  node := demoNode
  sessionID t := String.ofList (List.replicate (t + 1) 's')
  alone := rfl
  rules := rfl
  named := by decide
  sessionID_ne t h := by simpa using congrArg String.length h
  sessionID_inj t u h := by simpa using congrArg String.length h

def demoClaim (session : ℕ) (spec : TunnelSpec) : Claim where
  session := session
  token := { id := "T" }
  agentID := "A"
  spec := spec
  world := {}
  hasToken := by decide
  hasAgent := by decide
  anyPort := rfl
  binds := rfl

def demoGone : Both :=
  let c := demoClaim 1 { name := "a", type := .tcp }
  let s : Both :=
    { relay := (demoSetting.relayClaim c demoSetting.start.relay).2
      desk := (demoSetting.deskClaim c demoSetting.start.desk).2, used := [1] }
  { s with relay := demoSetting.relayEnds 1 0 s.relay, desk := demoSetting.deskEnds 1 0 s.desk }

theorem demoClaim_capped (session : ℕ) (spec : TunnelSpec) : (demoClaim session spec).Capped := by
  show -2147483648 ≤ (0 : ℤ) ∧ (0 : ℤ) < 2147483648
  decide

theorem demoGone_run : Run (Guarded (fun s a => a.Fits demoSetting s) demoSetting.Step)
    demoSetting.start
    [.claim (demoClaim 1 { name := "a", type := .tcp }), .sessionEnds 1 0] demoGone := by
  refine .cons ⟨⟨demoClaim_capped _ _, fun a _ u hu => ?_⟩, .claim _ _ (by simp [Setting.start])⟩
    (.cons ⟨trivial, .sessionEnds _ _ _⟩ (.nil _))
  simp [Setting.start, Server.new, NameRegistry.new] at hu

/-- The name is had again with its port. -/
theorem engine_decides_alike_reclaimed :
    (demoSetting.deskClaim (demoClaim 2 { name := "a", type := .tcp }) demoGone.desk).1 =
      some (.ok 7000) ∧
    (demoSetting.relayClaim (demoClaim 2 { name := "a", type := .tcp }) demoGone.relay).1 =
      (demoSetting.deskClaim (demoClaim 2 { name := "a", type := .tcp }) demoGone.desk).1 :=
  ⟨by decide +kernel, engine_decides_alike demoGone_run _ (by decide +kernel)
    (demoClaim_capped _ _)⟩

def demoRetyped : Both :=
  let c := demoClaim 2 { name := "a", type := .http }
  { relay := (demoSetting.relayClaim c demoGone.relay).2
    desk := (demoSetting.deskClaim c demoGone.desk).2, used := 2 :: demoGone.used }

/-- On the relay the reservation of `a` keeps its port, for the engine it is free. -/
theorem port_kept_by_relay_alone : ∃ as,
    Run demoSetting.Step demoSetting.start as demoRetyped ∧
    (demoClaim 3 { name := "b", type := .tcp, publicPort := 7000 }).session ∉ demoRetyped.used ∧
    (demoClaim 3 { name := "b", type := .tcp, publicPort := 7000 }).Capped ∧
    (demoSetting.relayClaim (demoClaim 3 { name := "b", type := .tcp, publicPort := 7000 })
      demoRetyped.relay).1 = some (.error .portUnavailable) ∧
    (demoSetting.deskClaim (demoClaim 3 { name := "b", type := .tcp, publicPort := 7000 })
      demoRetyped.desk).1 = some (.ok 7000) := by
  refine ⟨[.claim (demoClaim 1 { name := "a", type := .tcp }), .sessionEnds 1 0,
    .claim (demoClaim 2 { name := "a", type := .http })], ?_, by decide +kernel,
    demoClaim_capped _ _, by decide +kernel, by decide +kernel⟩
  exact .cons (.claim _ _ (by simp [Setting.start])) (.cons (.sessionEnds _ _ _)
    (.cons (.claim demoGone _ (by decide +kernel)) (.nil _)))

end L8Tunnel.Registrar
