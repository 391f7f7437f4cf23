import L8Tunnel.Edge.Current
import L8Tunnel.EdgeConf.Stored

/-! # What `Apply` leaves behind (edge/edge.go) -/

namespace L8Tunnel.Edge
open Base Net Auth
open EdgeConf (names slotOf entry entry_add base_add single_add newRouteSet_concat)

/-- A forward that is configured: its pool key, its domain and its access. -/
structure Entry where
  key : String
  domain : EdgeDomain
  fwd : EdgePortForward
  access : Access

def entriesOfDomain (c : SiteConfig) (d : EdgeDomain) : List Entry :=
  if d.enabled = false then []
  else match parseAccess c.netip c.crypto { allowIps := d.allowIps, denyIps := d.denyIps } with
    | .error _ => []
    | .ok access => (d.portForwards.zipIdx.filter fun fi => fi.1.enabled).map fun fi =>
      ⟨poolKey d fi.1 fi.2, d, fi.1, access⟩

def entriesOf (c : SiteConfig) (domains : List EdgeDomain) : List Entry :=
  domains.flatMap (entriesOfDomain c)

namespace Gathered

def addEntry (c : SiteConfig) (lookup : Lookup) (old : GoMap String ℕ) (g : Gathered)
    (e : Entry) : Gathered :=
  match (old.get e.key).filter fun ref => (g.heap ref).fwd = e.fwd with
  | some ref => g.route e.key ref e.domain e.fwd e.access
  | none =>
    (g.alloc (.newPool lookup e.key e.fwd c.nodeIP)).route e.key g.next e.domain e.fwd e.access

theorem addForwards_eq (c : SiteConfig) (lookup : Lookup) (old : GoMap String ℕ) (d : EdgeDomain)
    (access : Access) (fis : List (EdgePortForward × ℕ)) (g : Gathered) :
    fis.foldl (addForward c lookup old d access) g =
      ((fis.filter fun fi => fi.1.enabled).map fun fi =>
        (⟨poolKey d fi.1 fi.2, d, fi.1, access⟩ : Entry)).foldl (addEntry c lookup old) g := by
  induction fis generalizing g with
  | nil => rfl
  | cons fi fis ih =>
    rw [List.foldl_cons, ih]
    cases hon : fi.1.enabled with
    | false => simp [addForward, hon]
    | true =>
      rw [List.filter_cons_of_pos (by simp [hon]), List.map_cons, List.foldl_cons]
      congr 1
      unfold addForward addEntry
      exact if_neg (by simp [hon])

theorem addDomain_eq (c : SiteConfig) (lookup : Lookup) (old : GoMap String ℕ) (g : Gathered)
    (d : EdgeDomain) :
    addDomain c lookup old g d = (entriesOfDomain c d).foldl (addEntry c lookup old) g := by
  unfold addDomain entriesOfDomain
  by_cases hoff : d.enabled = false
  · rw [if_pos hoff, if_pos hoff]
    rfl
  · rw [if_neg hoff, if_neg hoff]
    cases parseAccess c.netip c.crypto { allowIps := d.allowIps, denyIps := d.denyIps } with
    | error why => rfl
    | ok access => exact addForwards_eq c lookup old d access _ g

end Gathered

theorem Sites.gather_eq (c : SiteConfig) (lookup : Lookup) (domains : List EdgeDomain) (s : Sites) :
    s.gather c lookup domains =
      (entriesOf c domains).foldl (Gathered.addEntry c lookup s.pools)
        { heap := s.heap, next := s.next } := by
  have hfold : ∀ (ds : List EdgeDomain) (g : Gathered),
      ds.foldl (Gathered.addDomain c lookup s.pools) g =
        (ds.flatMap (entriesOfDomain c)).foldl (Gathered.addEntry c lookup s.pools) g := by
    intro ds
    induction ds with
    | nil => exact fun _ => rfl
    | cons d ds ih =>
      intro g
      rw [List.foldl_cons, ih, Gathered.addDomain_eq, List.flatMap_cons, List.foldl_append]
  exact hfold domains _

def Covered (c : SiteConfig) (domains : List EdgeDomain) (p : ℤ) : Prop :=
  ∃ d ∈ domains, d.enabled = true ∧
    (∃ access, parseAccess c.netip c.crypto { allowIps := d.allowIps, denyIps := d.denyIps } =
      .ok access) ∧
    ∃ f ∈ d.portForwards, f.enabled = true ∧ p ∈ portsOf f

theorem covered_iff (c : SiteConfig) (domains : List EdgeDomain) (p : ℤ) :
    Covered c domains p ↔ ∃ e ∈ entriesOf c domains, p ∈ portsOf e.fwd := by
  constructor
  · rintro ⟨d, hd, hon, ⟨access, hparse⟩, f, hf, hfon, hp⟩
    obtain ⟨i, hi⟩ := List.mem_iff_getElem?.mp hf
    have hfi : (f, i) ∈ d.portForwards.zipIdx := List.mem_zipIdx_iff_getElem?.mpr hi
    refine ⟨⟨poolKey d f i, d, f, access⟩, List.mem_flatMap.mpr ⟨d, hd, ?_⟩, hp⟩
    unfold entriesOfDomain
    rw [if_neg (by simp [hon]), hparse]
    exact List.mem_map.mpr ⟨(f, i), List.mem_filter.mpr ⟨hfi, by simp [hfon]⟩, rfl⟩
  · rintro ⟨e, he, hp⟩
    obtain ⟨d, hd, hmem⟩ := List.mem_flatMap.mp he
    unfold entriesOfDomain at hmem
    split at hmem
    · cases hmem
    next hon =>
      split at hmem
      · cases hmem
      next access hparse =>
        obtain ⟨⟨f, i⟩, hfi, rfl⟩ := List.mem_map.mp hmem
        obtain ⟨hzip, hfon⟩ := List.mem_filter.mp hfi
        exact ⟨d, hd, by simpa using hon, ⟨access, hparse⟩, f,
          List.mem_of_getElem? (List.mem_zipIdx_iff_getElem?.mp hzip), by simpa using hfon, hp⟩

inductive Place where
  | name (k : Bool × String)
  | base
  | single

def Fills (d : EdgeDomain) (f : EdgePortForward) : Place → Prop
  | .name k => d.kind ≠ .tunnelBase ∧ k ∈ (names d).map slotOf
  | .base => d.kind = .tunnelBase
  | .single => f.protocol = .tcp

def RouteSet.at (rs : RouteSet) : Place → Option Route
  | .name k => entry rs k
  | .base => rs.base
  | .single => rs.single

variable {rs : RouteSet} {r : Route} {k : Place}

theorem at_add_self (h : Fills r.domain r.fwd k) : (rs.add r).at k = some r := by
  cases k with
  | name k => exact (entry_add r rs k).trans (if_pos h)
  | base => exact (base_add r rs).trans (if_pos h)
  | single => exact (single_add r rs).trans (if_pos h)

theorem at_add_other (h : ¬ Fills r.domain r.fwd k) : (rs.add r).at k = rs.at k := by
  cases k with
  | name k => exact (entry_add r rs k).trans (if_neg h)
  | base => exact (base_add r rs).trans (if_neg h)
  | single => exact (single_add r rs).trans (if_neg h)

theorem newRouteSet_at (hr : Fills r.domain r.fwd k) (pre post : List Route)
    (hpost : ∀ r' ∈ post, ¬ Fills r'.domain r'.fwd k) :
    (newRouteSet (pre ++ r :: post)).at k = some r := by
  induction post using List.reverseRecOn with
  | nil =>
    rw [newRouteSet_concat]
    exact at_add_self hr
  | append_singleton post r' ih =>
    have hsplit : pre ++ r :: (post ++ [r']) = (pre ++ r :: post) ++ [r'] := by simp
    rw [hsplit, newRouteSet_concat, at_add_other (hpost r' (by simp))]
    exact ih fun r'' hr'' => hpost r'' (List.mem_append_left _ hr'')

namespace Sites

def Unchanged (s : Sites) (e : Entry) : Prop :=
  ∃ ref, s.pools.get e.key = some ref ∧ (s.heap ref).fwd = e.fwd

def Shown (es : List Entry) (e : Entry) : Prop :=
  ∃ pre post p k, es = pre ++ e :: post ∧ p ∈ portsOf e.fwd ∧ Fills e.domain e.fwd k ∧
    ∀ e' ∈ post, p ∈ portsOf e'.fwd → ¬ Fills e'.domain e'.fwd k

def Event.Distinct (c : SiteConfig) (s : Sites) : Event → Prop
  | .apply _ domains _ =>
    ((entriesOf c domains).Pairwise fun a b => a.key = b.key → s.Unchanged a ∧ s.Unchanged b) ∧
    ∀ e ∈ entriesOf c domains, ∃ e' ∈ entriesOf c domains, e'.key = e.key ∧
      Shown (entriesOf c domains) e'
  | _ => True

def Entry.route (pools : GoMap String ℕ) (e : Entry) : Route :=
  { domain := e.domain, fwd := e.fwd, access := e.access, pool := (pools.get e.key).getD 0
    tunnel := if e.fwd.mode = .terminate then
      some ⟨e.key, (pools.get e.key).getD 0, e.fwd, e.access⟩ else none }

/-- The pools gathered for the entries: one for each key, an old one where the forward is the
same. -/
structure Keyed (s : Sites) (es : List Entry) (g : Gathered) : Prop where
  next : s.next ≤ g.next
  old : ∀ ref < s.next, g.heap ref = s.heap ref
  keys : ∀ k ref, g.pools.get k = some ref → ref < g.next ∧ ∃ e ∈ es, e.key = k
  listed : ∀ e ∈ es, ∃ ref, g.pools.get e.key = some ref
  before : ∀ k ref, g.pools.get k = some ref → ref < s.next → s.pools.get k = some ref
  one : ∀ k k' ref, g.pools.get k = some ref → g.pools.get k' = some ref → k = k'
  kept : ∀ e ∈ es, ∀ ref, s.pools.get e.key = some ref → (s.heap ref).fwd = e.fwd →
    g.pools.get e.key = some ref
  routes : g.routes = es.map (Entry.route g.pools)

structure Gathers (s : Sites) (es : List Entry) (g : Gathered) : Prop extends Keyed s es g where
  new : ∀ ref < g.next, s.next ≤ ref → ∃ k, g.pools.get k = some ref

section
variable {c : SiteConfig} {s : Sites} {es : List Entry} {g : Gathered} {e : Entry}

theorem Gathers.start (s : Sites) : Gathers s [] { heap := s.heap, next := s.next } where
  next := Nat.le_refl _
  old _ _ := rfl
  keys k ref h := by simp at h
  listed e h := by cases h
  before k ref h := by simp at h
  one k k' ref h := by simp at h
  new ref hlt hle := absurd hlt (Nat.not_lt.mpr hle)
  kept e h := by cases h
  routes := rfl

variable {pools : GoMap String ℕ} {k : String} {ref : ℕ} {lookup : Lookup} {heap : ℕ → Pool}
  {domains : List EdgeDomain} {bind : ℤ → Bool} {order : RangeOrder} {version : ℤ}
  {routes : List Route} {env : ApplyEnv} {t : Sites} (p : Pool)

theorem route_congr (hk : ∀ u, pools.get k = some u → u = ref)
    (hes : ∀ e ∈ es, ∃ u, pools.get e.key = some u) :
    es.map (Entry.route (pools.set k ref)) = es.map (Entry.route pools) := by
  refine List.map_congr_left fun e he => ?_
  obtain ⟨u, hu⟩ := hes e he
  have hget : (pools.set k ref).get e.key = pools.get e.key := by
    rw [GoMap.get_set_eq_ite]
    split
    next heq =>
      rw [heq] at hu ⊢
      rw [hu, hk u hu]
    next => rfl
  unfold Entry.route
  rw [hget]

structure Stores (s : Sites) (g : Gathered) (e : Entry) (ref : ℕ) : Prop where
  lt : ref < g.next
  same : ∀ u, g.pools.get e.key = some u → u = ref
  before : ref < s.next → s.pools.get e.key = some ref
  one : ∀ k, g.pools.get k = some ref → k = e.key
  new : ∀ u < g.next, s.next ≤ u → u = ref ∨ ∃ k, g.pools.get k = some u
  kept : ∀ u, s.pools.get e.key = some u → (s.heap u).fwd = e.fwd → u = ref

theorem Keyed.route (h : Keyed s es g) (hs : Stores s g e ref) :
    Gathers s (es ++ [e]) (g.route e.key ref e.domain e.fwd e.access) := by
  have hget : ∀ k u, (g.pools.set e.key ref).get k = some u →
      k = e.key ∧ u = ref ∨ k ≠ e.key ∧ g.pools.get k = some u := by
    intro k u hu
    rw [GoMap.get_set_eq_ite] at hu
    split at hu
    next hk => exact .inl ⟨hk, (Option.some.inj hu).symm⟩
    next hk => exact .inr ⟨hk, hu⟩
  have hset : ∀ k u, g.pools.get k = some u → (g.pools.set e.key ref).get k = some u := by
    intro k u hu
    rw [GoMap.get_set_eq_ite]
    split
    next hk =>
      rw [hk] at hu
      rw [hs.same u hu]
    next => exact hu
  have hself : (g.pools.set e.key ref).get e.key = some ref := GoMap.get_set ..
  refine { next := h.next, old := h.old, keys := ?keys, listed := ?listed, before := ?before,
           one := ?one, kept := ?kept, routes := ?routes, new := ?new }
  case keys =>
    intro k u hu
    rcases hget k u hu with ⟨rfl, rfl⟩ | ⟨-, hu⟩
    · exact ⟨hs.lt, e, List.mem_append_right _ List.mem_cons_self, rfl⟩
    · obtain ⟨hlt, e', he', hk⟩ := h.keys k u hu
      exact ⟨hlt, e', List.mem_append_left _ he', hk⟩
  case listed =>
    intro e' he'
    rcases List.mem_append.mp he' with he' | he'
    · obtain ⟨u, hu⟩ := h.listed e' he'
      exact ⟨u, hset _ u hu⟩
    · cases List.mem_singleton.mp he'
      exact ⟨ref, hself⟩
  case before =>
    intro k u hu hlt
    rcases hget k u hu with ⟨rfl, rfl⟩ | ⟨-, hu⟩
    · exact hs.before hlt
    · exact h.before k u hu hlt
  case one =>
    intro k k' u hu hu'
    rcases hget k u hu with ⟨hk, heq⟩ | ⟨-, hold⟩
    · rcases hget k' u hu' with ⟨hk', -⟩ | ⟨-, hold'⟩
      · exact hk.trans hk'.symm
      · rw [heq] at hold'
        exact hk.trans (hs.one k' hold').symm
    · rcases hget k' u hu' with ⟨hk', heq⟩ | ⟨-, hold'⟩
      · rw [heq] at hold
        exact (hs.one k hold).trans hk'.symm
      · exact h.one k k' u hold hold'
  case new =>
    intro u hlt hle
    rcases hs.new u hlt hle with rfl | ⟨k, hk⟩
    · exact ⟨e.key, hself⟩
    · exact ⟨k, hset k u hk⟩
  case kept =>
    intro e' he' u hu hfwd
    rcases List.mem_append.mp he' with he' | he'
    · exact hset _ u (h.kept e' he' u hu hfwd)
    · cases List.mem_singleton.mp he'
      rw [hs.kept u hu hfwd]
      exact hself
  case routes =>
    have hmap : es.map (Entry.route (g.pools.set e.key ref)) = es.map (Entry.route g.pools) :=
      route_congr hs.same h.listed
    have hlast : (Entry.route (g.pools.set e.key ref) e) =
        { domain := e.domain, fwd := e.fwd, access := e.access, pool := ref
          tunnel := if e.fwd.mode = .terminate then some ⟨e.key, ref, e.fwd, e.access⟩ else none } := by
      unfold Entry.route
      rw [hself]
      rfl
    show g.routes ++ [_] = (es ++ [e]).map (Entry.route (g.pools.set e.key ref))
    rw [List.map_append, hmap, List.map_singleton, hlast, h.routes]

theorem Keyed.alloc (h : Keyed s es g) (p : Pool) : Keyed s es (g.alloc p) := by
  refine ⟨Nat.le_succ_of_le h.next, fun ref hlt => ?_,
    fun k ref hk => ⟨Nat.lt_succ_of_lt (h.keys k ref hk).1, (h.keys k ref hk).2⟩, h.listed,
    h.before, h.one, h.kept, h.routes⟩
  rw [← h.old ref hlt]
  exact Function.update_of_ne (Nat.ne_of_lt (Nat.lt_of_lt_of_le hlt h.next)) ..

theorem Gathers.addEntry (h : Gathers s es g)
    (hkeys : ∀ k ref, s.pools.get k = some ref → ref < s.next)
    (hone : ∀ k k' ref, s.pools.get k = some ref → s.pools.get k' = some ref → k = k')
    (hpair : ∀ a ∈ es, a.key = e.key → s.Unchanged a ∧ s.Unchanged e) :
    Gathers s (es ++ [e]) (g.addEntry c lookup s.pools e) := by
  unfold Gathered.addEntry
  split
  next ref hold =>
    obtain ⟨hget, hfwd⟩ := Option.filter_eq_some_iff.mp hold
    have hlt := hkeys e.key ref hget
    refine h.toKeyed.route ⟨?_, ?_, ?_, ?_, ?_, ?_⟩
    · exact Nat.lt_of_lt_of_le hlt h.next
    · -- an entry of this key that came before kept the same pool
      intro u hu
      obtain ⟨-, a, ha, hkey⟩ := h.keys e.key u hu
      obtain ⟨⟨v, hv, hvfwd⟩, -⟩ := hpair a ha hkey
      have hg := h.kept a ha v hv hvfwd
      rw [hkey] at hv hg
      rw [hget] at hv
      cases hv
      rw [hu] at hg
      exact Option.some.inj hg
    · exact fun _ => hget
    · exact fun k hk => hone k e.key ref (h.before k ref hk hlt) hget
    · exact fun u hu hle => .inr (h.new u hu hle)
    · intro u hu _
      rw [hget] at hu
      exact (Option.some.inj hu).symm
  next hnone =>
    have hnew : ¬ s.Unchanged e := by
      rintro ⟨ref, hget, hfwd⟩
      have hlt := hkeys e.key ref hget
      rw [hget, Option.filter_some_pos (by rw [h.old ref hlt]; simpa using hfwd)] at hnone
      cases hnone
    have hfree : g.pools.get e.key = none := by
      rw [Option.eq_none_iff_forall_ne_some]
      intro u hu
      obtain ⟨-, a, ha, hkey⟩ := h.keys e.key u hu
      exact hnew (hpair a ha hkey).2
    refine (h.toKeyed.alloc _).route ⟨Nat.lt_succ_self _, ?_, ?_, ?_, ?_, ?_⟩
    · intro u hu
      rw [show (g.alloc _).pools = g.pools from rfl, hfree] at hu
      cases hu
    · exact fun hlt => absurd hlt (Nat.not_lt.mpr h.next)
    · intro k hk
      exact absurd (h.keys k _ hk).1 (Nat.lt_irrefl _)
    · intro u hu hle
      rcases Nat.lt_succ_iff_lt_or_eq.mp hu with hlt | rfl
      · exact .inr (h.new u hlt hle)
      · exact .inl rfl
    · exact fun u hu hfwd => absurd ⟨u, hu, hfwd⟩ hnew

/-- The loop over the entries of a configuration; two entries of one pool key must agree with
the pool that exists. -/
theorem Gathers.foldl (hkeys : ∀ k ref, s.pools.get k = some ref → ref < s.next)
    (hone : ∀ k k' ref, s.pools.get k = some ref → s.pools.get k' = some ref → k = k')
    (post : List Entry) (h : Gathers s es g)
    (hpairs : (es ++ post).Pairwise fun a b => a.key = b.key → s.Unchanged a ∧ s.Unchanged b) :
    Gathers s (es ++ post) (post.foldl (Gathered.addEntry c lookup s.pools) g) := by
  induction post generalizing es g with
  | nil => simpa using h
  | cons e post ih =>
    have hsplit : es ++ e :: post = (es ++ [e]) ++ post := by simp
    rw [hsplit] at hpairs ⊢
    refine ih (h.addEntry hkeys hone fun a ha => ?_) hpairs
    exact (List.pairwise_append.mp (List.pairwise_append.mp hpairs).1).2.2 a ha e
      List.mem_cons_self

theorem stopOld_other (h : s.pools.get k = some ref → g.pools.get k = some ref) :
    s.stopOld g heap k ref = heap ref := by
  unfold stopOld
  cases hget : s.pools.get k with
  | none => rfl
  | some u =>
    dsimp only
    split
    · rfl
    next hne =>
      refine Function.update_of_ne (fun heq => hne ?_) ..
      rw [← heq]
      exact h (heq ▸ hget)

theorem stopOld_stops (hold : s.pools.get k = some ref) (hgone : g.pools.get k ≠ some ref) :
    (s.stopOld g heap k ref).stopped = true := by
  unfold stopOld
  rw [hold]
  dsimp only
  rw [if_neg hgone, Function.update_self]
  rfl

theorem stopOld_stopped (k : String) (h : (heap ref).stopped = true) :
    (s.stopOld g heap k ref).stopped = true := by
  by_cases hk : s.pools.get k = some ref → g.pools.get k = some ref
  · rw [stopOld_other hk]
    exact h
  · obtain ⟨hold, hgone⟩ := Classical.not_imp.mp hk
    exact stopOld_stops hold hgone

theorem foldl_stopOld_stopped (keys : List String)
    (h : (heap ref).stopped = true ∨
      ∃ k ∈ keys, s.pools.get k = some ref ∧ g.pools.get k ≠ some ref) :
    (keys.foldl (s.stopOld g) heap ref).stopped = true := by
  induction keys generalizing heap with
  | nil =>
    refine h.resolve_right ?_
    rintro ⟨k, hk, -⟩
    cases hk
  | cons k keys ih =>
    refine ih ?_
    rcases h with h | ⟨j, hj, hold, hgone⟩
    · exact .inl (stopOld_stopped k h)
    · rcases List.mem_cons.mp hj with rfl | hj
      · exact .inl (stopOld_stops hold hgone)
      · exact .inr ⟨j, hj, hold, hgone⟩

theorem foldl_stopOld_other (keys : List String)
    (h : ∀ k, s.pools.get k = some ref → g.pools.get k = some ref) :
    keys.foldl (s.stopOld g) heap ref = heap ref := by
  induction keys generalizing heap with
  | nil => rfl
  | cons k keys ih => exact ih.trans (stopOld_other (h k))

def Uses (s : Sites) (ref : ℕ) : Prop :=
  ∃ port l k r, s.edge.listeners.get port = some l ∧ l.routes.at k = some r ∧ r.pool = ref

/-- The edge between Applies: it listens on the covered ports, and every pool is in use or
stopped. -/
structure Tidy (c : SiteConfig) (s : Sites) : Prop where
  opened : s.edge.closed = false
  keys : ∀ k ref, s.pools.get k = some ref → ref < s.next
  one : ∀ k k' ref, s.pools.get k = some ref → s.pools.get k' = some ref → k = k'
  ports : ∀ p, (∃ l, s.edge.listeners.get p = some l) ↔ Covered c s.domains p
  pools : ∀ ref < s.next, (s.heap ref).stopped = true ∨
    ∃ k, s.pools.get k = some ref ∧ s.Uses ref

theorem tidy_start (c : SiteConfig) : Tidy c {} := by
  refine ⟨rfl, fun k ref h => ?_, fun k k' ref h => ?_, fun p => ⟨?_, ?_⟩, fun ref h => ?_⟩
  · simp at h
  · simp at h
  · rintro ⟨l, hl⟩
    cases hl
  · rintro ⟨d, hd, -⟩
    cases hd
  · exact absurd h (Nat.not_lt_zero ref)

theorem Tidy.gather (h : Tidy c s) (lookup : Lookup)
    (hpairs : (entriesOf c domains).Pairwise fun a b => a.key = b.key → s.Unchanged a ∧ s.Unchanged
      b) :
    Gathers s (entriesOf c domains) (s.gather c lookup domains) := by
  rw [gather_eq]
  exact (Gathers.start s).foldl h.keys h.one (entriesOf c domains) hpairs

theorem uses_of_shown {e : Edge} (hroutes : routes = es.map (Entry.route pools)) {x : Entry}
    (hx : Shown es x) :
    ∃ port l k, (e.relisten bind order routes version).listeners.get port = some l ∧
      l.routes.at k = some (Entry.route pools x) := by
  obtain ⟨pre, post, p, k, rfl, hp, hfills, hlast⟩ := hx
  have hfilter : routes.filter (fun r => p ∈ portsOf r.fwd) =
      (pre.map (Entry.route pools)).filter (fun r => p ∈ portsOf r.fwd) ++
        Entry.route pools x :: (post.map (Entry.route pools)).filter fun r => p ∈ portsOf r.fwd := by
    have hpx : decide (p ∈ portsOf (Entry.route pools x).fwd) = true := decide_eq_true hp
    rw [hroutes, List.map_append, List.map_cons, List.filter_append, List.filter_cons, if_pos hpx]
  have hget : (byPort routes).get p = some (routes.filter fun r => p ∈ portsOf r.fwd) := by
    rw [get_byPort, if_neg (by simp [hfilter])]
  obtain ⟨l, hl, -, hset⟩ : Opened _ p (e.relisten bind order routes version).listeners :=
    relisten_opened hget
  refine ⟨p, l, k, hl, ?_⟩
  rw [hset, hfilter]
  refine newRouteSet_at hfills _ _ fun r hr => ?_
  obtain ⟨hr, hpr⟩ := List.mem_filter.mp hr
  obtain ⟨y, hy, rfl⟩ := List.mem_map.mp hr
  exact hlast y hy (of_decide_eq_true hpr)

theorem relisten_listens {e : Edge} {p : ℤ} :
    (∃ l, (e.relisten bind order routes version).listeners.get p = some l) ↔
      ∃ r ∈ routes, p ∈ portsOf r.fwd := by
  constructor
  · rintro ⟨l, hl⟩
    cases hm : (byPort routes).get p with
    | none =>
      rw [relisten_uncovered hm] at hl
      cases hl
    | some rs =>
      rw [get_byPort] at hm
      split at hm
      · cases hm
      next hne =>
        obtain ⟨r, hr⟩ := List.exists_mem_of_ne_nil _ hne
        obtain ⟨hmem, hp⟩ := List.mem_filter.mp hr
        exact ⟨r, hmem, by simpa using hp⟩
  · rintro ⟨r, hr, hp⟩
    have hmem : r ∈ routes.filter fun r => p ∈ portsOf r.fwd :=
      List.mem_filter.mpr ⟨hr, by simpa using hp⟩
    have hget : (byPort routes).get p = some (routes.filter fun r => p ∈ portsOf r.fwd) := by
      rw [get_byPort, if_neg (List.ne_nil_of_mem hmem)]
    obtain ⟨l, hl, -⟩ : Opened _ p (e.relisten bind order routes version).listeners :=
      relisten_opened hget
    exact ⟨l, hl⟩

theorem Tidy.apply (h : Tidy c s) (hd : Event.Distinct c s (.apply env domains version)) :
    Tidy c (s.apply c env domains version) := by
  obtain ⟨hpairs, hshown⟩ := hd
  have hg := h.gather env.lookup hpairs
  have happly : s.apply c env domains version = _ := if_neg (by simp [h.opened])
  rw [happly]
  have hcovered : ∀ p, (∃ r ∈ (s.gather c env.lookup domains).routes, p ∈ portsOf r.fwd) ↔
      Covered c domains p := by
    intro p
    rw [covered_iff, hg.routes]
    simp [Entry.route]
  refine ⟨h.opened, fun k ref hk => (hg.keys k ref hk).1, hg.one,
    fun p => relisten_listens.trans (hcovered p), fun ref hlt => ?_⟩
  -- a pool kept under a key is that of a forward, and some forward of the key is shown
  have huses : ∀ k, (s.gather c env.lookup domains).pools.get k = some ref →
      ∃ port l k' r, (s.edge.relisten env.bind env.order (s.gather c env.lookup domains).routes
        version).listeners.get port = some l ∧ l.routes.at k' = some r ∧ r.pool = ref := by
    intro k hk
    obtain ⟨-, x, hx, rfl⟩ := hg.keys k ref hk
    obtain ⟨y, -, hkey, hy⟩ := hshown x hx
    obtain ⟨port, l, k', hl, hat⟩ := uses_of_shown hg.routes hy
    refine ⟨port, l, k', _, hl, hat, ?_⟩
    rw [← hkey] at hk
    simp [Entry.route, hk]
  by_cases hnew : s.next ≤ ref
  · obtain ⟨k, hk⟩ := hg.new ref hlt hnew
    exact .inr ⟨k, hk, huses k hk⟩
  · have hold := Nat.not_le.mp hnew
    rcases h.pools ref hold with hstopped | ⟨k, hk, -⟩
    · exact .inl (foldl_stopOld_stopped _ (.inl (by rw [hg.old ref hold]; exact hstopped)))
    · by_cases hkept : (s.gather c env.lookup domains).pools.get k = some ref
      · exact .inr ⟨k, hkept, huses k hkept⟩
      · refine .inl (foldl_stopOld_stopped _ (.inr ⟨k, ?_, hk, hkept⟩))
        exact (GoMap.mem_range _ _ k).mpr ⟨ref, hk⟩

theorem Tidy.apply_keeps (h : Tidy c s) (hd : Event.Distinct c s (.apply env domains version))
    (he : e ∈ entriesOf c domains) (hk : s.pools.get e.key = some ref)
    (hfwd : (s.heap ref).fwd = e.fwd) :
    (s.apply c env domains version).pools.get e.key = some ref ∧
      (s.apply c env domains version).heap ref = s.heap ref := by
  have hg := h.gather env.lookup hd.1
  have happly : s.apply c env domains version = _ := if_neg (by simp [h.opened])
  have hkept := hg.kept e he ref hk hfwd
  rw [happly]
  refine ⟨hkept, ?_⟩
  have hsame : ∀ k, s.pools.get k = some ref →
      (s.gather c env.lookup domains).pools.get k = some ref := by
    intro k hk'
    rw [h.one k e.key ref hk' hk]
    exact hkept
  exact (foldl_stopOld_other _ hsame).trans (hg.old ref (h.keys _ ref hk))

/-- A step that leaves listeners, pools and configuration alone. -/
structure Quiet (s t : Sites) : Prop where
  edge : t.edge = s.edge
  pools : t.pools = s.pools
  next : t.next = s.next
  domains : t.domains = s.domains
  stopped : ∀ ref, (t.heap ref).stopped = (s.heap ref).stopped

theorem Quiet.refl (s : Sites) : Quiet s s := ⟨rfl, rfl, rfl, rfl, fun _ => rfl⟩

theorem Quiet.trans {u : Sites} (h : Quiet s t) (h' : Quiet t u) : Quiet s u :=
  ⟨h'.edge.trans h.edge, h'.pools.trans h.pools, h'.next.trans h.next,
    h'.domains.trans h.domains, fun ref => (h'.stopped ref).trans (h.stopped ref)⟩

theorem Tidy.quiet (h : Tidy c s) (hq : Quiet s t) : Tidy c t := by
  refine ⟨?_, ?_, ?_, fun p => ?_, fun ref hlt => ?_⟩
  · rw [hq.edge]
    exact h.opened
  · rw [hq.pools, hq.next]
    exact h.keys
  · rw [hq.pools]
    exact h.one
  · rw [hq.edge, hq.domains]
    exact h.ports p
  · rw [hq.stopped, hq.pools]
    rw [hq.next] at hlt
    unfold Uses
    rw [hq.edge]
    exact h.pools ref hlt

theorem quiet_setPool (s : Sites) (ref : ℕ) {p : Pool} (hp : p.stopped = (s.heap ref).stopped) :
    Quiet s (s.setPool ref p) := by
  refine ⟨rfl, rfl, rfl, rfl, fun u => ?_⟩
  by_cases hu : u = ref
  · subst hu
    simpa [setPool] using hp
  · simp [setPool, hu]

theorem quiet_setRequest (s : Sites) (i : ℕ) (r : Inflight) : Quiet s (s.setRequest i r) :=
  ⟨rfl, rfl, rfl, rfl, fun _ => rfl⟩

theorem quiet_ask (s : Sites) (i : ℕ) (a : Option Asking) : Quiet s (s.ask i a) :=
  ⟨rfl, rfl, rfl, rfl, fun _ => rfl⟩

theorem stopped_smoothRoundRobin (cands : List ℕ) :
    (p.smoothRoundRobin cands).1.stopped = p.stopped := by
  have hfold : ∀ (refs : List ℕ) (acc : Pool × ℤ × Option ℕ),
      (refs.foldl Pool.roundOne acc).1.stopped = acc.1.stopped := by
    intro refs
    induction refs with
    | nil => exact fun _ => rfl
    | cons ref refs ih => exact fun acc => ih _
  unfold Pool.smoothRoundRobin
  dsimp only
  split
  · exact hfold cands _
  · exact hfold cands _

theorem stopped_pick (client : Addr) (tried : List ℕ) (random : ℕ × ℕ) :
    (p.pick client tried random).1.stopped = p.stopped := by
  unfold Pool.pick
  split
  · rfl
  · split
    · rfl
    · rfl
    · rfl
    · exact stopped_smoothRoundRobin p _

theorem stopped_choose (client : Addr) (d : Pool.Dialing) (random : ℕ × ℕ) :
    (p.choose client d random).1.stopped = p.stopped := by
  unfold Pool.choose
  split
  · rfl
  · exact stopped_pick p client d.tried random

theorem stopped_resolveMembers (lookup : Lookup) (p : Pool) (old : List ℕ) :
    (p.resolveMembers lookup old).1.stopped = p.stopped := by
  have hone : ∀ (keep : GoMap String ℕ) (acc : Pool × List ℕ) host port weight disabled,
      (Pool.addMember keep acc host port weight disabled).1.stopped = acc.1.stopped := by
    intro keep acc host port weight disabled
    unfold Pool.addMember
    dsimp only
    split <;> rfl
  have hfold : ∀ {α : Type} (f : Pool × List ℕ → α → Pool × List ℕ),
      (∀ acc x, (f acc x).1.stopped = acc.1.stopped) → ∀ (xs : List α) (acc : Pool × List ℕ),
      (xs.foldl f acc).1.stopped = acc.1.stopped := by
    intro α f hf xs
    induction xs with
    | nil => exact fun _ => rfl
    | cons x xs ih => exact fun acc => (ih _).trans (hf acc x)
  unfold Pool.resolveMembers
  dsimp only
  split
  · exact hfold _ (fun acc t => hone _ acc ..) _ _
  · split
    · rfl
    · exact hfold _ (fun acc ip => hone _ acc ..) _ _
  · exact hone ..
  · rfl

theorem stopped_refresh (lookup : Lookup) (p : Pool) : (p.refresh lookup).stopped = p.stopped := by
  unfold Pool.refresh
  split
  · exact stopped_resolveMembers lookup p p.members
  · rfl

theorem quiet_lookup (env : ServeEnv) (i : ℕ) (port : ℤ) (r : HttpProxy.Request) :
    Quiet s (s.lookup c env i port r) := by
  unfold Sites.lookup
  split
  · exact .refl s
  · split
    · split
      · exact .refl s
      · exact quiet_ask ..
    · exact .refl s

theorem quiet_sni (env : ServeEnv) (i : ℕ) : Quiet s (s.sni c env i) := by
  unfold sni
  split
  · exact .refl s
  · split
    · split
      · exact quiet_ask ..
      · exact quiet_ask ..
    · exact .refl s

theorem quiet_pick (env : ServeEnv) (i : ℕ) : Quiet s (s.pick c env i) := by
  unfold Sites.pick
  split
  · exact .refl s
  · split
    · split
      · exact (quiet_setPool _ _ (stopped_pick ..)).trans (quiet_ask ..)
      · exact quiet_ask ..
    · exact .refl s

theorem quiet_proxyFor (i : ℕ) : Quiet s (s.proxyFor i) := by
  unfold proxyFor
  split
  · exact .refl s
  · split
    · exact ⟨rfl, rfl, rfl, rfl, fun _ => rfl⟩
    · exact .refl s

theorem quiet_startDial (s : Sites) (i : ℕ) : Quiet s (s.startDial i) := by
  unfold startDial
  split
  · exact .refl s
  · exact quiet_setRequest ..

theorem stopped_dials {i : ℕ} {random : ℕ × ℕ} {out : Inflight × Pool.Dialing × Pool × ℕ}
    (h : s.dials i random = some out) : out.2.2.1.stopped = (s.heap out.1.proxy.pool).stopped := by
  unfold dials at h
  split at h
  · cases h
  · split at h
    · cases h
    · obtain ⟨ref, -, rfl⟩ := Option.map_eq_some_iff.mp h
      exact stopped_choose ..

theorem quiet_attempt (s : Sites) (i : ℕ) (random : ℕ × ℕ) (now : ℤ) (outcome : Outcome) :
    Quiet s (s.attempt i random now outcome) := by
  unfold attempt
  split
  · split
    · exact .refl s
    · exact quiet_setRequest ..
  next r d p ref hdials =>
    have hstopped : p.stopped = (s.heap r.proxy.pool).stopped := stopped_dials hdials
    have hset : ∀ (q : Pool) (r' : Inflight), q.stopped = p.stopped →
        Quiet s ((s.setPool r.proxy.pool q).setRequest i r') := fun q r' hq =>
      (quiet_setPool s _ (hq.trans hstopped)).trans (quiet_setRequest ..)
    split
    · exact hset _ _ rfl
    · exact hset _ _ rfl
    · exact hset _ _ rfl

theorem quiet_upkeep (s : Sites) (ref member : ℕ) (u : Upkeep) : Quiet s (s.upkeep ref member u) := by
  cases u with
  | passed now => exact quiet_setPool s ref rfl
  | failed why now => exact quiet_setPool s ref rfl
  | closed => exact quiet_setPool s ref rfl

/-- Only `Apply` changes the listeners and stops pools. -/
theorem quiet_after (ev : Event) :
    (∃ env domains version, ev = .apply env domains version) ∨ Quiet s (s.after c ev) := by
  cases ev with
  | apply env domains version => exact .inl ⟨env, domains, version, rfl⟩
  | lookup env i port r => exact .inr (quiet_lookup ..)
  | sni env i => exact .inr (quiet_sni ..)
  | pick env i => exact .inr (quiet_pick ..)
  | proxyFor i => exact .inr (quiet_proxyFor i)
  | startDial i => exact .inr (quiet_startDial ..)
  | attempt i random now outcome => exact .inr (quiet_attempt ..)
  | upkeep ref member u => exact .inr (quiet_upkeep ..)
  | refresh ref answers => exact .inr (quiet_setPool s ref (stopped_refresh ..))

theorem Tidy.step {resolves : String → String → Prop} {ev : Event} (h : Tidy c s)
    (hd : ev.Distinct c s) (hs : Step c resolves s ev t) : Tidy c t := by
  cases hs
  rcases quiet_after (c := c) (s := s) ev with ⟨env, domains, version, rfl⟩ | hq
  · exact h.apply hd
  · exact h.quiet hq

end

/-- After every `Apply` the edge listens on the ports that are configured, every
pool that was ever made is stopped or in use, and a forward that has not changed
keeps its pool. -/
theorem apply_leaves_configured {c : SiteConfig} {resolves : String → String → Prop}
    {evs : List Event} {s : Sites}
    (hrun : Run (Guarded (Event.Distinct c) (Step c resolves)) {} evs s) :
    (∀ p, (∃ l, s.edge.listeners.get p = some l) ↔ Covered c s.domains p) ∧
    (∀ ref < s.next, (s.heap ref).stopped = true ∨ ∃ k, s.pools.get k = some ref ∧ s.Uses ref) ∧
    ∀ env domains version t,
      Guarded (Event.Distinct c) (Step c resolves) s (.apply env domains version) t →
      t.domains = domains ∧
      ∀ e ∈ entriesOf c domains, ∀ ref, s.pools.get e.key = some ref →
        (s.heap ref).fwd = e.fwd → t.pools.get e.key = some ref ∧ t.heap ref = s.heap ref := by
  have h : Tidy c s :=
    hrun.invariant (I := Tidy c) (fun _ _ _ h hs => h.step hs.1 hs.2) (tidy_start c)
  refine ⟨h.ports, h.pools, ?_⟩
  rintro env domains version t ⟨hd, hs⟩
  cases hs
  refine ⟨?_, fun e he ref hk hfwd => h.apply_keeps hd he hk hfwd⟩
  show (s.apply c env domains version).domains = domains
  unfold apply
  rw [if_neg (by simp [h.opened])]

def siteOnce : Sites := Sites.after siteConfig {} (siteApply [site "10.0.0.1"])

def siteEntry : Entry :=
  ⟨poolKey (site "10.0.0.1") (siteForward "10.0.0.1") 0, site "10.0.0.1", siteForward "10.0.0.1", {}⟩

theorem siteApply_distinct (s : Sites) :
    Event.Distinct siteConfig s (siteApply [site "10.0.0.1"]) := by
  have hentries : entriesOf siteConfig [site "10.0.0.1"] = [siteEntry] := rfl
  have hport : (443 : ℤ) ∈ portsOf (siteForward "10.0.0.1") := by
    rw [mem_portsOf]
    decide
  have hfills : Fills (site "10.0.0.1") (siteForward "10.0.0.1") (.name (slotOf "a.io")) :=
    ⟨by decide, List.mem_map.mpr ⟨"a.io", List.mem_cons_self, rfl⟩⟩
  show List.Pairwise _ (entriesOf siteConfig [site "10.0.0.1"]) ∧ _
  rw [hentries]
  refine ⟨List.pairwise_singleton _ _, fun e he => ⟨siteEntry, List.mem_cons_self, ?_, ?_⟩⟩
  · rw [List.mem_singleton.mp he]
  · exact ⟨[], [], 443, _, rfl, hport, hfills, fun e' he' => by cases he'⟩

theorem apply_leaves_configured_again :
    (∃ l, siteOnce.edge.listeners.get 443 = some l) ∧
    (Sites.after siteConfig siteOnce (siteApply [site "10.0.0.1"])).pools.get siteEntry.key =
      some 0 := by
  have hstep : ∀ s : Sites, Guarded (Event.Distinct siteConfig) (Step siteConfig fun _ _ => False) s
      (siteApply [site "10.0.0.1"]) (s.after siteConfig (siteApply [site "10.0.0.1"])) :=
    fun s => ⟨siteApply_distinct s, .mk s _ (siteApply_within _)⟩
  obtain ⟨hports, -, hkept⟩ := apply_leaves_configured (.cons (hstep {}) (.nil siteOnce))
  refine ⟨(hports 443).mpr ?_, ?_⟩
  · refine ⟨site "10.0.0.1", List.mem_cons_self, rfl, ⟨_, rfl⟩, siteForward "10.0.0.1",
      List.mem_cons_self, rfl, ?_⟩
    rw [mem_portsOf]
    decide
  · exact ((hkept _ _ _ _ (hstep siteOnce)).2 siteEntry List.mem_cons_self 0 rfl rfl).1

def twiceForward (port : Int32) : EdgePortForward :=
  { siteForward "10.0.0.1" with forwardId := "f", listenPort := port }

def twice : EdgeDomain :=
  { site "10.0.0.1" with portForwards := [twiceForward 443, twiceForward 8443] }

/-- The first of two forwards with one ID leaves a pool that nothing will stop. -/
theorem pool_left_running :
    ¬ ∀ (c : SiteConfig) (resolves : String → String → Prop) (evs : List Event) (s : Sites),
      Run (Step c resolves) {} evs s →
      (∀ p, (∃ l, s.edge.listeners.get p = some l) ↔ Covered c s.domains p) ∧
      (∀ ref < s.next, (s.heap ref).stopped = true ∨ ∃ k, s.pools.get k = some ref ∧ s.Uses ref) ∧
      ∀ env domains version t, Step c resolves s (.apply env domains version) t →
        t.domains = domains ∧
        ∀ e ∈ entriesOf c domains, ∀ ref, s.pools.get e.key = some ref →
          (s.heap ref).fwd = e.fwd → t.pools.get e.key = some ref ∧ t.heap ref = s.heap ref := by
  intro h
  have hrun : Run (Step siteConfig fun _ _ => False) {} [siteApply [twice]]
      (Sites.after siteConfig {} (siteApply [twice])) :=
    .cons (.mk _ _ (siteApply_within _)) (.nil _)
  obtain ⟨-, hpools, -⟩ := h _ _ _ _ hrun
  have hmap : (Sites.after siteConfig {} (siteApply [twice])).pools =
      ((∅ : GoMap String ℕ).set "d/f" 0).set "d/f" 1 := rfl
  rcases hpools 0 (by decide) with hstopped | ⟨k, hk, -⟩
  · have hrunning : ((Sites.after siteConfig {} (siteApply [twice])).heap 0).stopped = false := rfl
    rw [hrunning] at hstopped
    cases hstopped
  · rw [hmap, GoMap.get_set_eq_ite] at hk
    split at hk
    · cases hk
    next hne =>
      rw [GoMap.get_set_ne _ _ hne] at hk
      simp at hk

end Sites
end L8Tunnel.Edge
