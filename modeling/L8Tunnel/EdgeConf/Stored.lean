import Mathlib.Data.List.Induction
import L8Tunnel.Base.Except
import L8Tunnel.Base.Run
import L8Tunnel.EdgeConf.Validate

/-! # The stored edge domains -/

namespace L8Tunnel.EdgeConf
open Base Auth GoString
open Edge (portsOf lastPort mem_portsOf Route RouteSet newRouteSet routesOf byPort protoOf)

inductive Edit where
  | put (d : EdgeDomain) (baseDomain : String)
  | delete (id : String)

/-- The list of domains changes by accepted puts and by deletions, in any order of rows. -/
inductive Step (lib : Library) : List EdgeDomain → Edit → List EdgeDomain → Prop where
  | put {ds ds' : List EdgeDomain} {d d' : EdgeDomain} {baseDomain : String} :
      d.domainId ≠ "" → validateDomain lib d ds baseDomain = .ok d' →
      ds'.Perm (d' :: ds.filter fun o => o.domainId ≠ d.domainId) →
      Step lib ds (.put d baseDomain) ds'
  | delete {ds ds' : List EdgeDomain} {id : String} :
      ds'.Perm (ds.filter fun o => o.domainId ≠ id) → Step lib ds (.delete id) ds'

def Compatible (a b : EdgePortForward) : Prop :=
  overlap a b = true → a.protocol = b.protocol ∧ a.protocol ≠ .tcp

/-- What holds of one stored domain. -/
structure Sound (d : EdgeDomain) : Prop where
  normal : ∀ n ∈ names d, normalizeName n = .ok n ∧ GoString.toLower n = n
  nodup : (names d).Nodup
  ports : d.portForwards.Pairwise Compatible

/-- Two domains share no name and no port that only one can have. -/
structure Apart (d o : EdgeDomain) : Prop where
  names : ∀ n ∈ names d, n ∉ names o
  base : d.kind = .tunnelBase → o.kind ≠ .tunnelBase
  ports : ∀ a ∈ d.portForwards, ∀ b ∈ o.portForwards, Compatible a b

/-- No two stored domains conflict. -/
structure Consistent (ds : List EdgeDomain) : Prop where
  ids : (ds.map EdgeDomain.domainId).Nodup
  sound : ∀ d ∈ ds, Sound d
  apart : ∀ d ∈ ds, ∀ o ∈ ds, d.domainId ≠ o.domainId → Apart d o

theorem overlap_comm (a b : EdgePortForward) : overlap a b = overlap b a := by
  unfold overlap
  rw [decide_eq_decide]
  exact and_comm

variable {a b : EdgePortForward} {d o d' : EdgeDomain} {r : Route}

theorem Compatible.symm (h : Compatible a b) : Compatible b a := by
  intro hover
  obtain ⟨hsame, htcp⟩ := h (by rw [overlap_comm]; exact hover)
  exact ⟨hsame.symm, hsame ▸ htcp⟩

theorem Apart.symm (h : Apart d o) : Apart o d where
  names n hn hd := h.names n hd hn
  base ho hd := h.base hd ho
  ports a ha b hb := (h.ports b hb a ha).symm

theorem overlap_of_mem {p : ℤ} (ha : p ∈ portsOf a) (hb : p ∈ portsOf b) : overlap a b = true := by
  have hend : ∀ f, (endPort f).toInt = lastPort f := by
    intro f
    unfold endPort lastPort
    split <;> rfl
  rw [mem_portsOf] at ha hb
  unfold overlap
  rw [decide_eq_true_eq, Int32.le_iff_toInt_le, Int32.le_iff_toInt_le, hend, hend]
  omega

theorem listedTwice_none {seen ns : List String} (h : listedTwice seen ns = none) :
    ns.Nodup ∧ ∀ n ∈ ns, n ∉ seen := by
  induction ns generalizing seen with
  | nil => exact ⟨List.nodup_nil, fun n hn => by cases hn⟩
  | cons n ns ih =>
    unfold listedTwice at h
    split at h
    · cases h
    next hn =>
      obtain ⟨hnodup, hout⟩ := ih h
      refine ⟨List.nodup_cons.mpr ⟨fun hmem => hout n hmem List.mem_cons_self, hnodup⟩, ?_⟩
      intro m hm
      rcases List.mem_cons.mp hm with rfl | hm
      · exact hn
      · exact fun hs => hout m hm (List.mem_cons_of_mem _ hs)

theorem overlapsIn_none {fs : List EdgePortForward} (h : overlapsIn d fs = none) :
    fs.Pairwise Compatible := by
  induction fs with
  | nil => exact .nil
  | cons a rest ih =>
    unfold overlapsIn at h
    obtain ⟨hfirst, hrest⟩ := Option.or_eq_none_iff.mp h
    refine .cons (fun b hb hover => ?_) (ih hrest)
    have hnone := List.findSome?_eq_none_iff.mp hfirst b hb
    rw [if_pos hover] at hnone
    cases hnone

theorem portConflict_none (h : portConflict o a b = none) : Compatible a b := by
  intro hover
  unfold portConflict at h
  rw [if_neg (by simp [hover])] at h
  split at h
  · cases h
  next hsame =>
  split at h
  · cases h
  next htcp => exact ⟨not_not.mp hsame, htcp⟩

theorem checkOther_none (hid : o.domainId ≠ d.domainId) (h : checkOther d o = none) :
    (∀ n ∈ names o, toLower n ∉ names d) ∧
      (d.kind = .tunnelBase → o.kind ≠ .tunnelBase) := by
  unfold checkOther at h
  rw [if_neg hid] at h
  split at h
  · cases h
  next hbase =>
    refine ⟨fun n hn hmem => ?_, fun hd ho => hbase ⟨hd, ho.trans hd.symm⟩⟩
    have hnone := List.findSome?_eq_none_iff.mp h n hn
    rw [if_pos hmem] at hnone
    cases hnone

theorem normalizeNames_mapM (h : normalizeNames d = .ok d') :
    (names d).mapM normalizeName = .ok (names d') ∧
      d' = { d with domain := d'.domain, aliases := d'.aliases } := by
  unfold normalizeNames at h
  split at h
  · cases h
  obtain ⟨domain, hdomain, h⟩ := bind_eq_ok.mp h
  obtain ⟨aliases, haliases, h⟩ := bind_eq_ok.mp h
  cases h
  exact ⟨mapM_eq_ok.mpr (.cons hdomain (mapM_eq_ok.mp haliases)), rfl⟩

theorem normalizeNames_ok (h : normalizeNames d = .ok d') :
    d'.domainId = d.domainId ∧
      ∀ n ∈ names d', normalizeName n = .ok n ∧ toLower n = n := by
  obtain ⟨hmap, hd⟩ := normalizeNames_mapM h
  refine ⟨by rw [hd], fun n hn => ?_⟩
  obtain ⟨s, -, hs⟩ := exists_of_mapM_eq_ok hmap hn
  exact normalizeName_again hs

section
variable {lib : Library} {ds ds' : List EdgeDomain} {baseDomain : String}

theorem validateDomain_ok (h : validateDomain lib d ds baseDomain = .ok d')
    (hds : ∀ o ∈ ds, Sound o) :
    d'.domainId = d.domainId ∧ Sound d' ∧ ∀ o ∈ ds, o.domainId ≠ d.domainId → Apart d' o := by
  unfold validateDomain at h
  split at h
  · cases h
  next d'' hnorm =>
  split at h
  · cases h
  next hcheck =>
  cases h
  obtain ⟨hid, hnormal⟩ := normalizeNames_ok hnorm
  simp only [checkDomain, Option.or_eq_none_iff] at hcheck
  obtain ⟨-, -, htwice, hothers, -, hports⟩ := hcheck
  unfold checkPortConflicts at hports
  obtain ⟨hown, hcross⟩ := Option.or_eq_none_iff.mp hports
  refine ⟨hid, ⟨hnormal, (listedTwice_none htwice).1, overlapsIn_none hown⟩, fun o ho hne => ?_⟩
  rw [← hid] at hne
  obtain ⟨hnames, hbase⟩ := checkOther_none hne (List.findSome?_eq_none_iff.mp hothers o ho)
  refine ⟨fun n hn hno => ?_, hbase, fun a ha b hb => ?_⟩
  · -- the other's names are stored in lower case
    have hlower := hnames n hno
    rw [((hds o ho).normal n hno).2] at hlower
    exact hlower hn
  · have hnone := List.findSome?_eq_none_iff.mp hcross o ho
    rw [if_neg hne] at hnone
    exact portConflict_none
      (List.findSome?_eq_none_iff.mp (List.findSome?_eq_none_iff.mp hnone a ha) b hb)

theorem Consistent.perm (h : Consistent ds) (hperm : ds'.Perm ds) : Consistent ds' where
  ids := (hperm.map EdgeDomain.domainId).nodup_iff.mpr h.ids
  sound d hd := h.sound d (hperm.mem_iff.mp hd)
  apart d hd o ho := h.apart d (hperm.mem_iff.mp hd) o (hperm.mem_iff.mp ho)

theorem Consistent.without (h : Consistent ds) (id : String) :
    Consistent (ds.filter fun o => o.domainId ≠ id) where
  ids := h.ids.sublist ((List.filter_sublist (l := ds)).map EdgeDomain.domainId)
  sound d hd := h.sound d (List.mem_filter.mp hd).1
  apart d hd o ho := h.apart d (List.mem_filter.mp hd).1 o (List.mem_filter.mp ho).1

theorem Consistent.put (h : Consistent ds) (hv : validateDomain lib d ds baseDomain = .ok d') :
    Consistent (d' :: ds.filter fun o => o.domainId ≠ d.domainId) := by
  obtain ⟨hid, hsound, hapart⟩ := validateDomain_ok hv h.sound
  have hrest := h.without d.domainId
  have hkept : ∀ o ∈ ds.filter (fun o => o.domainId ≠ d.domainId),
      o ∈ ds ∧ o.domainId ≠ d.domainId := fun o ho => by simpa using ho
  refine ⟨?_, fun o ho => ?_, fun a ha b hb hne => ?_⟩
  · rw [List.map_cons, List.nodup_cons]
    refine ⟨fun hmem => ?_, hrest.ids⟩
    obtain ⟨o, ho, hoid⟩ := List.mem_map.mp hmem
    exact (hkept o ho).2 (hoid.trans hid)
  · rcases List.mem_cons.mp ho with rfl | ho
    · exact hsound
    · exact hrest.sound o ho
  · rcases List.mem_cons.mp ha with rfl | ha'
    · rcases List.mem_cons.mp hb with rfl | hb'
      · exact absurd rfl hne
      · exact hapart b (hkept b hb').1 (hkept b hb').2
    · rcases List.mem_cons.mp hb with rfl | hb'
      · exact (hapart a (hkept a ha').1 (hkept a ha').2).symm
      · exact hrest.apart a ha' b hb' hne

/-- An edit that the service accepts keeps the stored domains consistent. -/
theorem Consistent.step (h : Consistent ds) {e : Edit} (hstep : Step lib ds e ds') :
    Consistent ds' := by
  cases hstep with
  | put hid hv hperm => exact (h.put hv).perm hperm
  | delete hperm => exact (h.without _).perm hperm

theorem consistent_run {edits : List Edit} (hrun : Run (Step lib) [] edits ds) : Consistent ds := by
  refine hrun.invariant (I := Consistent) (fun _ _ _ h hs => h.step hs) ⟨List.nodup_nil, ?_, ?_⟩
  · intro d hd
    cases hd
  · intro d hd
    cases hd

end

def covering (ds : List EdgeDomain) (p : ℤ) : List EdgePortForward :=
  (ds.flatMap EdgeDomain.portForwards).filter fun f => p ∈ portsOf f

section
variable {ds : List EdgeDomain} (h : Consistent ds)
include h

variable {f : EdgePortForward}

theorem Consistent.eq_or_apart (hd : d ∈ ds) (ho : o ∈ ds) : o = d ∨ Apart d o := by
  by_cases hid : d.domainId = o.domainId
  · exact .inl (List.inj_on_of_nodup_map h.ids ho hd hid.symm)
  · exact .inr (h.apart d hd o ho hid)

theorem Consistent.one_name (hd : d ∈ ds) (ho : o ∈ ds) {n : String} (hn : n ∈ names d)
    (hno : n ∈ names o) : o = d :=
  (h.eq_or_apart hd ho).resolve_right fun hapart => hapart.names n hn hno

theorem Consistent.one_base (hd : d ∈ ds) (ho : o ∈ ds) (hbase : d.kind = .tunnelBase)
    (hobase : o.kind = .tunnelBase) : o = d :=
  (h.eq_or_apart hd ho).resolve_right fun hapart => hapart.base hbase hobase

theorem Consistent.covering_pairwise (p : ℤ) :
    (covering ds p).Pairwise fun a b => a.protocol = b.protocol ∧ a.protocol ≠ .tcp := by
  have hall : (ds.flatMap EdgeDomain.portForwards).Pairwise Compatible := by
    refine List.pairwise_flatMap.mpr ⟨fun d hd => (h.sound d hd).ports, ?_⟩
    have hids : ds.Pairwise fun d o => d.domainId ≠ o.domainId := List.pairwise_map.mp h.ids
    exact hids.imp_of_mem fun hd ho hne => (h.apart _ hd _ ho hne).ports
  refine (hall.filter _).imp_of_mem fun ha hb hcompat => hcompat ?_
  exact overlap_of_mem (by simpa using (List.mem_filter.mp ha).2)
    (by simpa using (List.mem_filter.mp hb).2)

theorem Consistent.one_protocol {p : ℤ} {g : EdgePortForward} (hf : f ∈ covering ds p)
    (hg : g ∈ covering ds p) : g.protocol = f.protocol := by
  have hpairs : (covering ds p).Pairwise fun a b => a.protocol = b.protocol :=
    (h.covering_pairwise p).imp fun hab => hab.1
  have hsymm : Std.Symm fun a b : EdgePortForward => a.protocol = b.protocol :=
    ⟨fun _ _ he => he.symm⟩
  by_cases hgf : g = f
  · rw [hgf]
  · exact hpairs.forall hg hf hgf

theorem Consistent.one_tcp {p : ℤ} (hf : f ∈ covering ds p) (htcp : f.protocol = .tcp) :
    covering ds p = [f] := by
  have hpairs := h.covering_pairwise p
  have hsame : ∀ g ∈ covering ds p, g.protocol = f.protocol := fun g hg => h.one_protocol hf hg
  generalize covering ds p = fs at hf hpairs hsame
  cases fs with
  | nil => cases hf
  | cons a rest =>
    cases rest with
    | nil => rw [List.mem_singleton.mp hf]
    | cons b rest =>
      -- the first of two would not be TCP
      have hne := (List.rel_of_pairwise_cons hpairs (List.mem_cons_self : b ∈ b :: rest)).2
      exact absurd ((hsame a List.mem_cons_self).trans htcp) hne

end

def slotOf (name : String) : Bool × String :=
  match GoString.cutPrefix (GoString.toLower name) "*" with
  | some rest => (true, rest)
  | none => (false, GoString.toLower name)

def entry (rs : RouteSet) (k : Bool × String) : Option Route :=
  if k.1 then rs.wildcards.get k.2 else rs.byName.get k.2

theorem slotOf_inj {m n : String} (hm : toLower m = m) (hn : toLower n = n)
    (h : slotOf m = slotOf n) : m = n := by
  unfold slotOf at h
  rw [hm, hn] at h
  cases hcm : cutPrefix m "*" with
  | none =>
    cases hcn : cutPrefix n "*" with
    | none =>
      rw [hcm, hcn] at h
      exact (Prod.mk.inj h).2
    | some rest =>
      rw [hcm, hcn] at h
      cases h
  | some rest =>
    cases hcn : cutPrefix n "*" with
    | none =>
      rw [hcm, hcn] at h
      cases h
    | some rest' =>
      rw [hcm, hcn] at h
      cases h
      rw [cutPrefix_eq_some hcm, cutPrefix_eq_some hcn]

section
variable (r : Route) (rs : RouteSet)

theorem entry_addName (name : String) (k : Bool × String) :
    entry (RouteSet.addName r rs name) k = if k = slotOf name then some r else entry rs k := by
  obtain ⟨wild, n⟩ := k
  unfold RouteSet.addName slotOf entry
  dsimp only
  cases hcut : cutPrefix (toLower name) "*" with
  | none => cases wild <;> simp [GoMap.get_set_eq_ite]
  | some rest => cases wild <;> simp [GoMap.get_set_eq_ite]

theorem foldl_addName (ns : List String) (k : Bool × String) :
    entry (ns.foldl (RouteSet.addName r) rs) k =
      (if k ∈ ns.map slotOf then some r else entry rs k) ∧
    (ns.foldl (RouteSet.addName r) rs).base = rs.base ∧
    (ns.foldl (RouteSet.addName r) rs).single = rs.single := by
  induction ns generalizing rs with
  | nil => exact ⟨rfl, rfl, rfl⟩
  | cons n ns ih =>
    have hone : (RouteSet.addName r rs n).base = rs.base ∧
        (RouteSet.addName r rs n).single = rs.single := by
      unfold RouteSet.addName
      dsimp only
      split <;> exact ⟨rfl, rfl⟩
    obtain ⟨hentry, hbase, hsingle⟩ := ih (RouteSet.addName r rs n)
    rw [List.foldl_cons]
    refine ⟨?_, hbase.trans hone.1, hsingle.trans hone.2⟩
    rw [hentry, entry_addName]
    by_cases hk : k ∈ ns.map slotOf
    · simp [hk]
    · simp [hk]

/-- Where a route added to a set can be found: under each of its names, exact or wildcard. -/
theorem entry_add (k : Bool × String) :
    entry (rs.add r) k =
      if r.domain.kind ≠ .tunnelBase ∧ k ∈ (names r.domain).map slotOf then some r
      else entry rs k := by
  have hsame : ∀ rs' : RouteSet, rs' = (if r.fwd.protocol = .tcp then
      { rs with single := some r } else rs) → entry rs' k = entry rs k := by
    rintro rs' rfl
    split <;> rfl
  unfold RouteSet.add
  dsimp only
  by_cases hbase : r.domain.kind = .tunnelBase
  · have hno : ¬ (r.domain.kind ≠ .tunnelBase ∧ k ∈ (names r.domain).map slotOf) :=
      fun hand => hand.1 hbase
    have hkept := hsame _ rfl
    rw [if_pos hbase, if_neg hno]
    exact hkept
  · rw [if_neg hbase, (foldl_addName r _ _ k).1, hsame _ rfl]
    simp [hbase, names]

theorem base_add : (rs.add r).base = if r.domain.kind = .tunnelBase then some r else rs.base := by
  unfold RouteSet.add
  dsimp only
  split
  · rfl
  · rw [(foldl_addName r _ _ (false, "")).2.1]
    split <;> rfl

theorem single_add : (rs.add r).single = if r.fwd.protocol = .tcp then some r else rs.single := by
  unfold RouteSet.add
  dsimp only
  split
  · split <;> rfl
  · rw [(foldl_addName r _ _ (false, "")).2.2]
    split <;> rfl

end

theorem newRouteSet_concat (pre : List Route) (r : Route) :
    newRouteSet (pre ++ [r]) = (newRouteSet pre).add r := by
  unfold newRouteSet
  rw [List.foldl_append]
  rfl

structure Comes (routes : List Route) (rs : RouteSet) : Prop where
  entry : ∀ k r, entry rs k = some r → r ∈ routes ∧ k ∈ (names r.domain).map slotOf
  base : ∀ r, rs.base = some r → r ∈ routes ∧ r.domain.kind = .tunnelBase
  single : ∀ r, rs.single = some r → r ∈ routes ∧ r.fwd.protocol = .tcp

theorem comes_newRouteSet (routes : List Route) : Comes routes (newRouteSet routes) := by
  induction routes using List.reverseRecOn with
  | nil =>
    refine ⟨fun k r hr => ?_, fun r hr => ?_, fun r hr => ?_⟩
    · unfold EdgeConf.entry at hr
      split at hr <;> simp [newRouteSet] at hr
    · cases hr
    · cases hr
  | append_singleton routes r ih =>
    rw [newRouteSet_concat]
    have hmem : ∀ {r'}, r' ∈ routes → r' ∈ routes ++ [r] := fun hr => List.mem_append_left _ hr
    have hself : r ∈ routes ++ [r] := List.mem_append_right _ List.mem_cons_self
    refine ⟨fun k r' hr => ?_, fun r' hr => ?_, fun r' hr => ?_⟩
    · rw [entry_add] at hr
      split at hr
      next hand =>
        cases hr
        exact ⟨hself, hand.2⟩
      next => exact ⟨hmem (ih.entry k r' hr).1, (ih.entry k r' hr).2⟩
    · rw [base_add] at hr
      split at hr
      next hbase =>
        cases hr
        exact ⟨hself, hbase⟩
      next => exact ⟨hmem (ih.base r' hr).1, (ih.base r' hr).2⟩
    · rw [single_add] at hr
      split at hr
      next htcp =>
        cases hr
        exact ⟨hself, htcp⟩
      next => exact ⟨hmem (ih.single r' hr).1, (ih.single r' hr).2⟩

def Kept (old new : Option Route) : Prop :=
  ∀ r, old = some r → ∃ r', new = some r' ∧ r'.domain = r.domain

structure Keeps (rs rs' : RouteSet) : Prop where
  byName : ∀ n, Kept (rs.byName.get n) (rs'.byName.get n)
  wildcards : ∀ n, Kept (rs.wildcards.get n) (rs'.wildcards.get n)
  base : Kept rs.base rs'.base
  single : Kept rs.single rs'.single

theorem kept_ite {c : Prop} [Decidable c] {old : Option Route}
    (h : c → ∀ r0, old = some r0 → r.domain = r0.domain) :
    Kept old (if c then some r else old) := by
  intro r0 hr0
  split
  next hc => exact ⟨r, rfl, h hc r0 hr0⟩
  next => exact ⟨r0, hr0, rfl⟩

theorem mem_routesOf {n : Netip} {c : Crypto} {ds : List EdgeDomain} (hr : r ∈ routesOf n c ds) :
    r.domain ∈ ds ∧ r.fwd ∈ r.domain.portForwards := by
  obtain ⟨d, hd, hr⟩ := List.mem_flatMap.mp hr
  split at hr
  · cases hr
  split at hr
  · cases hr
  · obtain ⟨f, hf, rfl⟩ := List.mem_map.mp hr
    exact ⟨hd, (List.mem_filter.mp hf).1⟩

section
variable {ds : List EdgeDomain} (h : Consistent ds) {n : Netip} {c : Crypto} {p : ℤ}
  {routes : List Route} (hroutes : (byPort (routesOf n c ds)).get p = some routes)
include hroutes

theorem mem_byPort {r : Route} (hr : r ∈ routes) :
    r.domain ∈ ds ∧ r.fwd ∈ r.domain.portForwards ∧ p ∈ portsOf r.fwd ∧
      r.fwd ∈ covering ds p := by
  rw [Edge.get_byPort] at hroutes
  split at hroutes
  · cases hroutes
  cases hroutes
  obtain ⟨hmem, hp⟩ := List.mem_filter.mp hr
  obtain ⟨hd, hf⟩ := mem_routesOf hmem
  exact ⟨hd, hf, by simpa using hp,
    List.mem_filter.mpr ⟨List.mem_flatMap.mpr ⟨r.domain, hd, hf⟩, hp⟩⟩

include h

theorem Consistent.proto {r : Route} (hr : r ∈ routes) : r.fwd.protocol = protoOf routes := by
  cases routes with
  | nil => cases hr
  | cons first rest =>
    exact h.one_protocol (mem_byPort hroutes List.mem_cons_self).2.2.2
      (mem_byPort hroutes hr).2.2.2

theorem Consistent.keeps {pre post : List Route} {r : Route} (hsplit : routes = pre ++ r :: post) :
    Keeps (newRouteSet pre) (newRouteSet (pre ++ [r])) := by
  have hmem : r ∈ routes := by simp [hsplit]
  have hpre : ∀ r0 ∈ pre, r0 ∈ routes := fun r0 hr0 => by simp [hsplit, hr0]
  have hd := (mem_byPort hroutes hmem).1
  have hcomes := comes_newRouteSet pre
  have hentry : ∀ k, Kept (entry (newRouteSet pre) k) (entry ((newRouteSet pre).add r) k) := by
    intro k
    rw [entry_add]
    refine kept_ite fun ⟨_, hk⟩ r0 hr0 => ?_
    obtain ⟨hr0mem, hk0⟩ := hcomes.entry k r0 hr0
    have hd0 := (mem_byPort hroutes (hpre r0 hr0mem)).1
    -- the two have a name with one slot, which is one name
    obtain ⟨m, hm, hmk⟩ := List.mem_map.mp hk
    obtain ⟨m0, hm0, hmk0⟩ := List.mem_map.mp hk0
    have heq : m = m0 := slotOf_inj ((h.sound _ hd).normal m hm).2
      ((h.sound _ hd0).normal m0 hm0).2 (hmk.trans hmk0.symm)
    exact h.one_name hd0 hd hm0 (heq ▸ hm)
  rw [newRouteSet_concat]
  refine ⟨fun k => hentry (false, k), fun k => hentry (true, k), ?_, ?_⟩
  · rw [base_add]
    refine kept_ite fun hbase r0 hr0 => ?_
    obtain ⟨hr0mem, hbase0⟩ := hcomes.base r0 hr0
    exact h.one_base (mem_byPort hroutes (hpre r0 hr0mem)).1 hd hbase0 hbase
  · rw [single_add]
    refine kept_ite fun htcp r0 hr0 => ?_
    obtain ⟨hr0mem, htcp0⟩ := hcomes.single r0 hr0
    obtain ⟨hd0, hf0, hp0, -⟩ := mem_byPort hroutes (hpre r0 hr0mem)
    obtain ⟨-, hf, hp, -⟩ := mem_byPort hroutes hmem
    refine (h.eq_or_apart hd0 hd).resolve_right fun hapart => ?_
    exact (hapart.ports _ hf0 _ hf (overlap_of_mem hp0 hp)).2 htcp0

end

/-- However the stored domains came about, a name belongs to one of them, one
is the tunnel base, a port has one protocol and a TCP port one forward; and
`Apply` builds every route set without overwriting an entry with another
domain's route. -/
theorem stored_domains_never_conflict {lib : Library} {edits : List Edit} {ds : List EdgeDomain}
    (hrun : Run (Step lib) [] edits ds) :
    (ds.map EdgeDomain.domainId).Nodup ∧
    (∀ d ∈ ds, ∀ m ∈ names d, normalizeName m = .ok m ∧ (names d).count m = 1 ∧
      ∀ o ∈ ds, m ∈ names o → o = d) ∧
    (∀ d ∈ ds, ∀ o ∈ ds, d.kind = .tunnelBase → o.kind = .tunnelBase → o = d) ∧
    (∀ p, ∀ f ∈ covering ds p, (∀ g ∈ covering ds p, g.protocol = f.protocol) ∧
      (f.protocol = .tcp → covering ds p = [f])) ∧
    ∀ (n : Netip) (c : Crypto) (p : ℤ) (routes : List Route),
      (byPort (routesOf n c ds)).get p = some routes →
      (∀ r ∈ routes, r.fwd.protocol = protoOf routes) ∧
      ∀ pre r post, routes = pre ++ r :: post →
        Keeps (newRouteSet pre) (newRouteSet (pre ++ [r])) := by
  have h := consistent_run hrun
  refine ⟨h.ids, fun d hd m hm => ⟨((h.sound d hd).normal m hm).1, ?_, fun o ho hmo => ?_⟩,
    fun d hd o ho => h.one_base hd ho, fun p f hf => ⟨fun g hg => h.one_protocol hf hg,
    h.one_tcp hf⟩, fun n c p routes hroutes => ⟨fun r hr => h.proto hroutes hr,
    fun pre r post hsplit => h.keeps hroutes hsplit⟩⟩
  · exact List.count_eq_one_of_mem (h.sound d hd).nodup hm
  · exact h.one_name hd ho hm hmo

def plainLibrary : Library := ⟨.plain, fun _ => false⟩

def tlsForward : EdgePortForward :=
  { listenPort := 443, protocol := .tls, mode := .passthrough, targetKind := .nodeLocal
    targetPort := 8443, enabled := true }

def portRange : EdgePortForward :=
  { listenPort := 7000, listenPortEnd := 7010, protocol := .tcp, mode := .passthrough
    targetKind := .nodeLocal, targetPort := 5432, enabled := true }

def firstSite : EdgeDomain :=
  { domainId := "1", domain := "A.io", aliases := ["*.a.io"], kind := .site, enabled := true
    portForwards := [tlsForward] }

def secondSite : EdgeDomain :=
  { domainId := "2", domain := "b.io", kind := .site, enabled := true
    portForwards := [tlsForward, portRange] }

def firstStored : EdgeDomain := { firstSite with domain := "a.io" }
def twoSites : List EdgeDomain := [secondSite, firstStored]

theorem twoSites_run : Run (Step plainLibrary) [] [.put firstSite "x.io", .put secondSite "x.io"]
    twoSites := by
  have hfirst : validateDomain plainLibrary firstSite [] "x.io" = .ok firstStored := rfl
  have hsecond : validateDomain plainLibrary secondSite [firstStored] "x.io" = .ok secondSite := rfl
  exact .cons (.put (by decide) hfirst (.refl _)) (.cons (.put (by decide) hsecond (.refl _))
    (.nil _))

theorem stored_domains_never_conflict_two : twoSites.length = 2 ∧
    ∀ p, ∀ f ∈ covering twoSites p, (∀ g ∈ covering twoSites p, g.protocol = f.protocol) ∧
      (f.protocol = .tcp → covering twoSites p = [f]) :=
  ⟨rfl, (stored_domains_never_conflict twoSites_run).2.2.2.1⟩

end L8Tunnel.EdgeConf
