import L8Tunnel.Registrar.Grace

/-! # Who a custom domain belongs to (relay/registry.go) -/

namespace L8Tunnel.Registrar
open Base Protocol

namespace NameRegistry

def lookup (r : NameRegistry) (name : String) : Option Tunnel × TunnelType × Bool :=
  match r.names.get name with
  | none => (none, .unspecified, false)
  | some ref => ((r.cells ref).tunnel, (r.cells ref).typ, true)

def answer (r : NameRegistry) : Option ℕ → Option Tunnel × TunnelType × String × Bool
  | none => (none, .unspecified, "", false)
  | some ref => ((r.cells ref).tunnel, (r.cells ref).typ, (r.cells ref).name, true)

def findDomain (r : NameRegistry) (domain : String) : Option ℕ :=
  (wildcardsOf domain).foldl (fun res w => if res.isSome then res else r.domains.get w)
    (r.domains.get domain)

def lookupDomain (r : NameRegistry) (domain : String) :
    Option Tunnel × TunnelType × String × Bool :=
  r.answer (r.findDomain domain)

end NameRegistry

abbrev Owners := String → Option ℕ

namespace Owners

def give (own : Owners) (ref : ℕ) (ds : List String) : Owners := fun d =>
  if d ∈ ds then some ref else if own d = some ref then none else own d

def lose (own : Owners) (gone : ℕ → Bool) : Owners := fun d =>
  (own d).filter fun ref => !gone ref

def next (own : Owners) (s : Timers) (e : TimerEvent) (s' : Timers) : Owners :=
  match e with
  | .setDomains ref ds =>
    match s.reg.setDomains ref ds with
    | .error _ => own
    | .ok _ => own.give ref ds
  | .rollback ref sess false =>
    if (s.reg.cells ref).session = some sess then own.lose fun u => u = ref else own
  | _ => own.lose fun u => s.reg.Named u ∧ ¬ s'.reg.Named u

section
variable {own : Owners} {s s' : Timers} {ref : ℕ} {ds : List String}

theorem next_refused {d : String} (h : s.reg.setDomains ref ds = .error d) :
    own.next s (.setDomains ref ds) s' = own := by
  simp only [next, h]

theorem next_setDomains {r : NameRegistry} (h : s.reg.setDomains ref ds = .ok r) :
    own.next s (.setDomains ref ds) s' = own.give ref ds := by
  simp only [next, h]

end

end Owners

def OwnedStep (p : Timers × Owners) (e : TimerEvent) (p' : Timers × Owners) : Prop :=
  p.1.Step e p'.1 ∧ p'.2 = p.2.next p.1 e p'.1

def Accepted : TimerEvent → Prop
  | .setDomains _ ds => ∀ d ∈ ds, ∃ raw, normalizeTunnelDomain raw = .ok d
  | _ => True

def Covers (s host : String) : Prop := (∃ p, host = p ++ "." ++ s) ∧ '.' ∈ s.toList

def NoCloser (own : Owners) (s host : String) : Prop :=
  ∀ s', Covers s' host → s.length < s'.length → own ("*." ++ s') = none

/-- The closest owner of a host wins: the exact name, else the longest wildcard over it. -/
structure Closest (own : Owners) (host : String) (res : Option ℕ) : Prop where
  exact : ∀ ref, own host = some ref → res = some ref
  wildcard : own host = none → ∀ s ref, Covers s host → own ("*." ++ s) = some ref →
    NoCloser own s host → res = some ref
  nothing : own host = none → (∀ s, Covers s host → own ("*." ++ s) = none) → res = none

/-- What a lookup of any host answers. `self`: the wildcard over the host itself
makes no difference. -/
structure DomainLookup (r : NameRegistry) (own : Owners) : Prop where
  closest : ∀ host, ∃ res, r.lookupDomain host = r.answer res ∧ Closest own host res
  self : ∀ host, ∃ res, r.lookupDomain host = r.answer res ∧
    Closest (Function.update own ("*." ++ host) none) host res
  deeper : ∀ d p ref, own ("*." ++ d) = some ref → own (p ++ "." ++ d) = none →
    NoCloser own d (p ++ "." ++ d) → r.lookupDomain (p ++ "." ++ d) = r.answer (some ref)
  listed : ∀ d ref, own d = some ref → d ∈ (r.cells ref).domains
  named : ∀ ref, r.Named ref → ∀ d ∈ (r.cells ref).domains, own d = some ref

section
variable {own : Owners} {host : String}

theorem findDomain_eq (r : NameRegistry) (host : String) :
    r.findDomain host =
      (r.domains.get host).or ((wildcardsOf host).findSome? r.domains.get) := by
  unfold NameRegistry.findDomain
  generalize r.domains.get host = first
  induction wildcardsOf host generalizing first with
  | nil =>
    rw [List.foldl_nil, List.findSome?_nil, Option.or_none]
  | cons w ws ih =>
    rw [List.foldl_cons, ih]
    cases first with
    | none =>
      rw [Option.none_or, List.findSome?_cons]
      cases r.domains.get w with
      | none => rfl
      | some ref => rfl
    | some ref => rfl

theorem not_covers_self (d : String) : ¬ Covers d d := by
  rintro ⟨⟨p, hp⟩, -⟩
  have hlen := congrArg String.length hp
  have hdot : ".".length = 1 := rfl
  rw [String.length_append, String.length_append, hdot] at hlen
  omega

theorem star_ne (d : String) : d ≠ "*." ++ d := by
  intro h
  have hlen := congrArg String.length h
  have hstar : "*.".length = 2 := rfl
  rw [String.length_append, hstar] at hlen
  omega

theorem closest_find (own : Owners) (host : String) :
    Closest own host ((own host).or ((wildcardsOf host).findSome? own)) where
  exact ref h := by
    rw [h]
    rfl
  wildcard hnone s ref hcovers hs hcloser := by
    rw [hnone, Option.none_or, List.findSome?_eq_some_iff]
    obtain ⟨before, after, hsplit⟩ := List.append_of_mem (mem_wildcardsOf.mpr hcovers)
    refine ⟨before, "*." ++ s, after, hsplit, hs, fun w hw => ?_⟩
    have hmem : w ∈ wildcardsOf host := by
      rw [hsplit]
      exact List.mem_append_left _ hw
    have hlonger : ("*." ++ s).length < w.length := by
      have hpair := wildcardsOf_pairwise host
      rw [hsplit, List.pairwise_append] at hpair
      exact hpair.2.2 w hw _ List.mem_cons_self
    obtain ⟨i, -, rfl⟩ := List.mem_map.mp hmem
    refine hcloser _ (mem_wildcardsOf.mp hmem) ?_
    rw [String.length_append, String.length_append] at hlonger
    omega
  nothing hnone hall := by
    rw [hnone, Option.none_or, List.findSome?_eq_none_iff]
    intro w hw
    have hmem := hw
    obtain ⟨i, -, rfl⟩ := List.mem_map.mp hw
    exact hall _ (mem_wildcardsOf.mp hmem)

theorem Closest.self {res : Option ℕ} (h : Closest own host res) :
    Closest (Function.update own ("*." ++ host) none) host res := by
  have hhost : Function.update own ("*." ++ host) none host = own host :=
    Function.update_of_ne (star_ne host) _ _
  have hwild : ∀ s, Covers s host →
      Function.update own ("*." ++ host) none ("*." ++ s) = own ("*." ++ s) := by
    intro s hs
    refine Function.update_of_ne (fun heq => ?_) _ _
    exact not_covers_self host (star_inj heq ▸ hs)
  constructor
  · intro ref href
    exact h.exact ref (hhost ▸ href)
  · intro hnone s ref hs href hcloser
    refine h.wildcard (hhost ▸ hnone) s ref hs (hwild s hs ▸ href) fun s' hs' hlt => ?_
    rw [← hwild s' hs']
    exact hcloser s' hs' hlt
  · intro hnone hall
    refine h.nothing (hhost ▸ hnone) fun s hs => ?_
    rw [← hwild s hs]
    exact hall s hs

end

structure Unmoved (r r' : NameRegistry) : Prop where
  domains : r'.domains = r.domains
  cells : ∀ u, (r'.cells u).domains = (r.cells u).domains
  named : ∀ u, r'.Named u ↔ r.Named u

namespace Unmoved
variable {r r' : NameRegistry} {ref : ℕ}

theorem refl (r : NameRegistry) : Unmoved r r := ⟨rfl, fun _ => rfl, fun _ => Iff.rfl⟩

theorem trans {r1 : NameRegistry} (h : Unmoved r r1) (h' : Unmoved r1 r') : Unmoved r r' where
  domains := h'.domains.trans h.domains
  cells u := (h'.cells u).trans (h.cells u)
  named u := (h'.named u).trans (h.named u)

theorem modify {f : Reservation → Reservation} (hf : ∀ v, (f v).name = v.name)
    (hdomains : ∀ v, (f v).domains = v.domains) : Unmoved r (r.modify ref f hf) where
  domains := rfl
  cells u := by
    rw [NameRegistry.modify_cells]
    split
    · exact hdomains _
    · rfl
  named := NameRegistry.named_modify r ref hf

theorem freePort (port : ℤ) : Unmoved r (r.freePort port) := ⟨rfl, fun _ => rfl, fun _ => Iff.rfl⟩
theorem addPort (port : ℤ) : Unmoved r (r.addPort port) := ⟨rfl, fun _ => rfl, fun _ => Iff.rfl⟩
theorem shut : Unmoved r { r with closed := true } := ⟨rfl, fun _ => rfl, fun _ => Iff.rfl⟩

end Unmoved

/-- The registry's index of domains is the owners' table. -/
structure Tracks (r : NameRegistry) (own : Owners) : Prop where
  index : ∀ d, r.domains.get d = own d
  listed : ∀ d ref, own d = some ref → d ∈ (r.cells ref).domains
  named : ∀ ref, r.Named ref → ∀ d ∈ (r.cells ref).domains, own d = some ref
  accepted : ∀ d ref, own d = some ref → ∃ raw, normalizeTunnelDomain raw = .ok d

theorem Tracks.lookup {r : NameRegistry} {own : Owners} (h : Tracks r own) : DomainLookup r own := by
  have hfind : ∀ host, r.lookupDomain host =
      r.answer ((own host).or ((wildcardsOf host).findSome? own)) := by
    intro host
    unfold NameRegistry.lookupDomain
    rw [findDomain_eq, h.index, funext h.index]
  refine ⟨fun host => ⟨_, hfind host, closest_find own host⟩,
    fun host => ⟨_, hfind host, (closest_find own host).self⟩,
    fun d p ref hd hhost hcloser => ?_, h.listed, h.named⟩
  obtain ⟨raw, hraw⟩ := h.accepted _ ref hd
  have hdot := normalizeDomain_dotted (normalizeTunnelDomain_wild hraw)
  rw [hfind, (closest_find own _).wildcard hhost d ref ⟨⟨p, rfl⟩, hdot⟩ hd hcloser]

namespace Tracks
variable {r r' : NameRegistry} {own : Owners} {ref : ℕ}

theorem new (grace : ℤ) (clustered : Bool) : Tracks (.new grace clustered) fun _ => none where
  index d := GoMap.get_empty d
  listed d ref h := by cases h
  named ref h := by
    unfold NameRegistry.Named NameRegistry.new at h
    rw [GoMap.get_empty] at h
    cases h
  accepted d ref h := by cases h

theorem unmoved (h : Tracks r own) (hw : Unmoved r r') : Tracks r' own where
  index d := by
    rw [hw.domains]
    exact h.index d
  listed d ref hd := by
    rw [hw.cells]
    exact h.listed d ref hd
  named ref hn := by
    rw [hw.cells]
    exact h.named ref ((hw.named ref).mp hn)
  accepted := h.accepted

theorem alloc (h : Tracks r own) {v : Reservation} (hfree : r.names.get v.name = none)
    (hv : v.domains = []) : Tracks (r.alloc v) own where
  index := h.index
  listed d ref hd := by
    have hlt : ref < r.next := r.domain_lt d ref ((h.index d).trans hd)
    rw [NameRegistry.alloc_cells, if_neg (Nat.ne_of_lt hlt)]
    exact h.listed d ref hd
  named ref hn d hd := by
    rw [NameRegistry.alloc_cells] at hd
    split at hd
    · rw [hv] at hd
      cases hd
    next hne =>
      exact h.named ref (((NameRegistry.named_alloc hfree ref).mp hn).resolve_right hne) d hd
  accepted := h.accepted

theorem setDomains (h : Tracks r own) {ds : List String} (hr : r.setDomains ref ds = .ok r')
    (hds : ∀ d ∈ ds, ∃ raw, normalizeTunnelDomain raw = .ok d) : Tracks r' (own.give ref ds) := by
  obtain ⟨rfl, hfree⟩ := setDomains_ok hr
  have hgive : ∀ d u, own.give ref ds d = some u → (d ∈ ds ∧ u = ref) ∨ (u ≠ ref ∧ own d = some u) := by
    intro d u hd
    unfold Owners.give at hd
    split at hd
    next hmem => exact .inl ⟨hmem, (Option.some.inj hd).symm⟩
    next =>
      split at hd
      · cases hd
      next hne => exact .inr ⟨fun hu => hne (hu ▸ hd), hd⟩
  constructor
  · intro d
    rw [NameRegistry.replaceDomains_get, h.index]
    unfold Owners.give
    split
    · rfl
    · by_cases hown : own d = some ref
      · rw [if_pos ⟨h.listed d ref hown, hown⟩, if_pos hown]
      · rw [if_neg fun hc => hown hc.2, if_neg hown]
  · intro d u hd
    rw [NameRegistry.replaceDomains_cells]
    rcases hgive d u hd with ⟨hmem, rfl⟩ | ⟨hne, hown⟩
    · rw [if_pos rfl]
      exact hmem
    · rw [if_neg hne]
      exact h.listed d u hown
  · intro u hn d hd
    rw [NameRegistry.replaceDomains_cells] at hd
    unfold Owners.give
    split at hd
    next hu => rw [if_pos hd, hu]
    next hne =>
      have hold : r.Named u := by
        have hsame := @NameRegistry.named_congr r (r.replaceDomains ref ds) (fun _ => rfl) u
        exact hsame.mp hn
      have hown := h.named u hold d hd
      -- a domain of another reservation was refused
      have hnot : d ∉ ds := by
        intro hmem
        rcases hfree d hmem with hnone | hself
        · cases hown.symm.trans ((h.index d).symm.trans hnone)
        · exact hne (Option.some.inj (hown.symm.trans ((h.index d).symm.trans hself)))
      rw [if_neg hnot, if_neg fun hc => hne (Option.some.inj (hown.symm.trans hc))]
      exact hown
  · intro d u hd
    rcases hgive d u hd with ⟨hmem, -⟩ | ⟨-, hown⟩
    · exact hds d hmem
    · exact h.accepted d u hown

theorem deleteLocked (h : Tracks r own) :
    Tracks (r.deleteLocked ref) (own.lose fun u => u = ref) := by
  have hlose : ∀ d u, own.lose (fun u => u = ref) d = some u ↔ own d = some u ∧ u ≠ ref := by
    intro d u
    simp [Owners.lose, Option.filter_eq_some_iff]
  have hcells : ∀ u, ((r.deleteLocked ref).cells u).domains = (r.cells u).domains := by
    intro u
    rw [NameRegistry.deleteLocked_cells]
    split <;> rfl
  constructor
  · intro d
    refine Option.ext fun u => ?_
    rw [NameRegistry.deleteLocked_domains, hlose, h.index]
    split
    next hc =>
      constructor
      · intro hu
        cases hu
      · rintro ⟨hu, hne⟩
        exact absurd (Option.some.inj (hu.symm.trans hc.2)) hne
    next hc =>
      refine ⟨fun hu => ⟨hu, ?_⟩, And.left⟩
      rintro rfl
      exact hc ⟨h.listed d u hu, hu⟩
  · intro d u hu
    rw [hcells]
    exact h.listed d u ((hlose d u).mp hu).1
  · intro u hn d hd
    rw [hcells] at hd
    obtain ⟨hn', hne⟩ := (NameRegistry.named_deleteLocked r ref u).mp hn
    exact (hlose d u).mpr ⟨h.named u hn' d hd, hne⟩
  · intro d u hu
    exact h.accepted d u ((hlose d u).mp hu).1

end Tracks

structure Sheds (r r' : NameRegistry) : Prop where
  fewer : ∀ u, r'.Named u → r.Named u
  tracks : ∀ own, Tracks r own → Tracks r' (own.lose fun u => r.Named u ∧ ¬ r'.Named u)

namespace Sheds
variable {r r' : NameRegistry} {ref : ℕ}

theorem lose_none {own : Owners} {gone : ℕ → Bool} (h : ∀ u, gone u = false) :
    own.lose gone = own := by
  funext d
  unfold Owners.lose
  cases own d with
  | none => rfl
  | some u => simp [h u]

theorem of_unmoved (hw : Unmoved r r') : Sheds r r' where
  fewer u := (hw.named u).mp
  tracks own ht := by
    rw [lose_none fun u => by simp [hw.named]]
    exact ht.unmoved hw

theorem refl (r : NameRegistry) : Sheds r r := of_unmoved (.refl r)

theorem trans {r1 : NameRegistry} (h : Sheds r r1) (h' : Sheds r1 r') : Sheds r r' where
  fewer u hu := h.fewer u (h'.fewer u hu)
  tracks own ht := by
    have hlose : own.lose (fun u => r.Named u ∧ ¬ r'.Named u) =
        (own.lose fun u => r.Named u ∧ ¬ r1.Named u).lose fun u => r1.Named u ∧ ¬ r'.Named u := by
      funext d
      unfold Owners.lose
      rw [Option.filter_filter]
      congr 1
      funext u
      have h1 := h.fewer u
      have h2 := h'.fewer u
      by_cases hr : r.Named u <;> by_cases hr1 : r1.Named u <;> by_cases hr' : r'.Named u <;>
        simp_all
    rw [hlose]
    exact h'.tracks _ (h.tracks own ht)

theorem deleteLocked (hnamed : r.Named ref) : Sheds r (r.deleteLocked ref) where
  fewer u hu := ((NameRegistry.named_deleteLocked r ref u).mp hu).1
  tracks own ht := by
    have hgone : (fun u => decide (r.Named u ∧ ¬ (r.deleteLocked ref).Named u)) =
        fun u => decide (u = ref) := by
      funext u
      rw [decide_eq_decide, NameRegistry.named_deleteLocked]
      constructor
      · rintro ⟨hu, hnot⟩
        by_contra hne
        exact hnot ⟨hu, hne⟩
      · rintro rfl
        exact ⟨hnamed, fun h => h.2 rfl⟩
    rw [hgone]
    exact ht.deleteLocked

theorem park (sess : ℕ) (now : ℤ) : Sheds r (r.park ref sess now) := by
  have hleft : Sheds r (r.modify ref (fun v => { v with session := none, tunnel := none })
      fun _ => rfl) := of_unmoved (.modify _ fun _ => rfl)
  refine NameRegistry.park_induction (fun _ => refl r) (fun _ _ => hleft) (fun _ hnamed _ => ?_)
    fun _ _ _ _ => hleft.trans (of_unmoved (.modify _ fun _ => rfl))
  exact hleft.trans (deleteLocked ((NameRegistry.named_modify r ref _ ref).mpr hnamed))

theorem expire : Sheds r (r.expire ref) := by
  unfold NameRegistry.expire
  split
  next h => exact deleteLocked h.1
  next => exact refl r

theorem unreserve (name : String) : Sheds r (r.unreserve name) := by
  unfold NameRegistry.unreserve
  split
  · exact refl r
  next ref hget =>
  split
  · exact refl r
  have hwrite : Sheds r (r.modify ref (fun v => { v with permanent := false }) fun _ => rfl) :=
    of_unmoved (.modify _ fun _ => rfl)
  dsimp only
  split
  · exact hwrite.trans (deleteLocked
      ((NameRegistry.named_modify r ref _ ref).mpr (NameRegistry.named_of_get hget)))
  · exact hwrite

theorem releaseOne (tokenID : String) (acc : NameRegistry × List ℕ) (name : String) :
    Sheds acc.1 (NameRegistry.releaseOne tokenID acc name).1 := by
  unfold NameRegistry.releaseOne
  split
  · exact refl _
  next ref hget =>
  split
  · exact deleteLocked (NameRegistry.named_of_get hget)
  · exact refl _

theorem releaseToken (tokenID : String) (order : RangeOrder) :
    Sheds r (r.releaseToken tokenID order).1 := by
  unfold NameRegistry.releaseToken
  refine List.foldlRecOn (motive := fun (acc : NameRegistry × List ℕ) => Sheds r acc.1) _ _ ?_ fun acc hacc name _ => ?_
  · exact refl r
  · exact hacc.trans (releaseOne tokenID acc name)

theorem closeOne (name : String) : Sheds r (r.closeOne name) := by
  unfold NameRegistry.closeOne
  split
  · exact refl _
  next ref hget =>
  split
  · have hstop : Sheds r (r.modify ref (fun v => { v with timer := false })
        NameRegistry.stopped_name) := of_unmoved (.modify _ fun _ => rfl)
    dsimp only
    split
    · exact hstop.trans (deleteLocked
        ((NameRegistry.named_modify r ref _ ref).mpr (NameRegistry.named_of_get hget)))
    · exact hstop
  · exact refl _

theorem close (order : RangeOrder) : Sheds r (r.close order) := by
  unfold NameRegistry.close
  exact List.foldlRecOn (motive := Sheds r) _ _ (of_unmoved .shut)
    fun r1 hr1 name _ => hr1.trans (closeOne name)

theorem setPort (port : ℤ) : Sheds r (r.setPort ref port) := by
  unfold NameRegistry.setPort
  dsimp only
  refine of_unmoved (Unmoved.trans ?_ (.modify _ fun _ => rfl))
  split
  · exact .freePort _
  · exact .refl _

end Sheds

namespace Tracks
variable {r r' : NameRegistry} {own : Owners}

theorem kept (h : Tracks r' own) (hnamed : ∀ u, r.Named u → r'.Named u) :
    Tracks r' (own.lose fun u => r.Named u ∧ ¬ r'.Named u) := by
  rw [Sheds.lose_none fun u => by simpa using hnamed u]
  exact h

variable {name tokenID : String} {s s' : Timers}

theorem claim (h : Tracks r own) {agentID : String} {typ : TunnelType} {sess : ℕ} {maxTunnels : ℤ}
    {c : NameRegistry.Claimed} (hc : r.claim name typ tokenID agentID sess maxTunnels = .ok c) :
    Tracks c.registry (own.lose fun u => r.Named u ∧ ¬ c.registry.Named u) := by
  obtain ⟨hget, rfl⟩ | ⟨ref, stale, -, rfl⟩ := NameRegistry.claim_ok hc
  · exact (h.alloc hget rfl).kept fun u hu => (NameRegistry.named_alloc hget u).mpr (.inl hu)
  · have hw : Unmoved r (r.modify ref (fun v => { v with
        timer := false, typ := typ, agentID := agentID, session := some sess, tunnel := none })
        fun _ => rfl) := .modify _ fun _ => rfl
    exact (h.unmoved hw).kept fun u hu => (hw.named u).mpr hu

theorem reserve (h : Tracks r own) {port : ℤ} (hr : r.reserve name tokenID port = .ok r') :
    Tracks r' (own.lose fun u => r.Named u ∧ ¬ r'.Named u) := by
  have hkeeps : ∀ {q q' : NameRegistry}, (Tracks q own ∧ ∀ u, r.Named u → q.Named u) →
      Unmoved q q' → Tracks q' own ∧ ∀ u, r.Named u → q'.Named u := fun hq hw =>
    ⟨hq.1.unmoved hw, fun u hu => (hw.named u).mpr (hq.2 u hu)⟩
  have hall : Tracks r' own ∧ ∀ u, r.Named u → r'.Named u := by
    refine NameRegistry.reserve_induction (P := fun q => Tracks q own ∧ ∀ u, r.Named u → q.Named u)
      hr ⟨h, fun _ hu => hu⟩ (fun hget => ⟨h.alloc hget rfl, fun u hu => ?_⟩) ?_ ?_ ?_ ?_
    · exact (NameRegistry.named_alloc hget u).mpr (.inl hu)
    · exact fun _ p hq => hkeeps hq (.freePort p)
    · exact fun _ hq => hkeeps hq (.addPort port)
    · exact fun _ _ hq => hkeeps hq (.modify _ fun _ => rfl)
    · exact fun _ _ hq => hkeeps hq (.modify _ fun _ => rfl)
  exact hall.1.kept hall.2

theorem rollback (h : Tracks s.reg own) (ref sess : ℕ) :
    Tracks (s.rollback ref sess false).reg (own.next s (.rollback ref sess false) s') := by
  show Tracks (s.rollback ref sess false).reg (if (s.reg.cells ref).session = some sess then
    own.lose fun u => u = ref else own)
  rw [Timers.rollback_reg]
  unfold NameRegistry.rollback
  rw [if_neg (by decide)]
  split
  · exact h.deleteLocked
  · exact h

theorem step {e : TimerEvent} (h : Tracks s.reg own) (hacc : Accepted e) (hstep : s.Step e s') :
    Tracks s'.reg (own.next s e s') := by
  have hshed : Sheds s.reg s'.reg →
      Tracks s'.reg (own.lose fun u => s.reg.Named u ∧ ¬ s'.reg.Named u) := fun hs => hs.tracks own h
  cases e with
  | tick d =>
    cases hstep
    exact hshed (.refl _)
  | fire timer =>
    have hreg : s'.reg = s.reg := Timers.fire_reg hstep
    exact hshed (hreg ▸ .refl _)
  | expire ref =>
    refine hshed ?_
    rw [Timers.step_expire hstep]
    show Sheds s.reg (s.expire ref).reg
    rw [Timers.expire_reg]
    exact .expire
  | claim name typ tokenID agentID sess maxTunnels =>
    cases hstep
    show Tracks (s.claim name typ tokenID agentID sess maxTunnels).reg
      (own.lose fun u => s.reg.Named u ∧
        ¬ (s.claim name typ tokenID agentID sess maxTunnels).reg.Named u)
    unfold Timers.claim
    split
    · exact h.kept fun _ hu => hu
    next c hc => exact h.claim hc
  | activate ref t =>
    cases hstep
    have hw : Unmoved s.reg (s.reg.activate ref t) := by
      unfold NameRegistry.activate
      exact .modify _ fun _ => rfl
    exact hshed (.of_unmoved hw)
  | park ref sess =>
    cases hstep
    refine hshed ?_
    rw [Timers.park_reg]
    exact .park sess _
  | rollback ref sess existed =>
    cases hstep
    cases existed with
    | true =>
      refine hshed ?_
      rw [Timers.rollback_reg]
      exact .park sess _
    | false => exact h.rollback ref sess
  | setDomains ref ds =>
    obtain ⟨d, hd, rfl⟩ | ⟨r, hr, rfl⟩ := Timers.step_setDomains hstep
    · rw [Owners.next_refused hd]
      exact h
    · rw [Owners.next_setDomains hr]
      exact h.setDomains hr hacc
  | reserve name tokenID port =>
    cases hstep
    show Tracks (s.reserve name tokenID port).reg
      (own.lose fun u => s.reg.Named u ∧ ¬ (s.reserve name tokenID port).reg.Named u)
    unfold Timers.reserve
    split
    · exact h.kept fun _ hu => hu
    next r ref hr _ => exact h.reserve hr
    next r hr _ => exact h.reserve hr
  | unreserve name =>
    cases hstep
    refine hshed ?_
    rw [Timers.unreserve_reg]
    exact .unreserve name
  | releaseToken tokenID order =>
    cases hstep
    refine hshed ?_
    rw [Timers.releaseToken_reg]
    exact .releaseToken tokenID order
  | reservePort port =>
    obtain rfl | rfl := Timers.step_reservePort hstep
    · exact hshed (.refl _)
    · exact hshed (.of_unmoved (.addPort port))
  | releasePort port =>
    cases hstep
    exact hshed (.of_unmoved (.freePort port))
  | setPort ref port =>
    cases hstep
    exact hshed (.setPort port)
  | close order =>
    cases hstep
    refine hshed ?_
    rw [Timers.close_reg]
    exact .close order

end Tracks

theorem owned_run {s s' : Timers} {events : List TimerEvent}
    (h : Run (Guarded (fun _ e => Accepted e) Timers.Step) s events s') (own : Owners)
    (ht : Tracks s.reg own) :
    ∃ own', Run OwnedStep (s, own) events (s', own') ∧ Tracks s'.reg own' := by
  induction h generalizing own with
  | nil s => exact ⟨own, .nil _, ht⟩
  | @cons s m s' e events hstep _ ih =>
    obtain ⟨hacc, hmove⟩ := hstep
    obtain ⟨own', hrun, htracks⟩ := ih (own.next s e m) (ht.step hacc hmove)
    exact ⟨own', .cons ⟨hmove, rfl⟩ hrun, htracks⟩

/-- In every registry that its operations lead to, with the owners that they make,
a lookup answers with the closest owner. -/
theorem closest_owner_wins (grace : ℤ) (clustered : Bool) {events : List TimerEvent} {s : Timers}
    (hrun : Run (Guarded (fun _ e => Accepted e) Timers.Step) { reg := .new grace clustered }
      events s) :
    ∃ own, Run OwnedStep ({ reg := .new grace clustered }, fun _ => none) events (s, own) ∧
      DomainLookup s.reg own := by
  obtain ⟨own, howned, htracks⟩ := owned_run hrun _ (Tracks.new grace clustered)
  exact ⟨own, howned, htracks.lookup⟩

def isAccepted : TimerEvent → Bool
  | .setDomains _ ds => ds.all fun d => (normalizeTunnelDomain d).toOption = some d
  | _ => true

theorem isAccepted_accepted (e : TimerEvent) (h : isAccepted e = true) : Accepted e := by
  cases e with
  | setDomains ref ds =>
    intro d hd
    refine ⟨d, ?_⟩
    have hall := List.all_eq_true.mp h d hd
    rw [decide_eq_true_eq] at hall
    cases hn : normalizeTunnelDomain d with
    | error err =>
      rw [hn] at hall
      cases hall
    | ok d' =>
      rw [hn] at hall
      rw [Option.some.inj hall]
  | _ => trivial

def twoWildcards : List TimerEvent :=
  [.claim "a" .tls "t1" "g1" 1 0, .setDomains 0 ["*.example.com"],
    .claim "b" .tls "t2" "g2" 2 0, .setDomains 1 ["*.x.example.com"], .park 1 2]

theorem closest_owner_wins_twoWildcards :
    ∃ s own, Run OwnedStep ({ reg := .new 10 false }, fun _ => none) twoWildcards (s, own) ∧
      DomainLookup s.reg own ∧
      s.reg.lookupDomain "y.x.example.com" = (none, .tls, "b", true) ∧
      s.reg.lookupDomain "y.example.com" = (none, .tls, "a", true) ∧
      s.reg.lookupDomain "example.com" = (none, .unspecified, "", false) := by
  have hplay : Run.replay (fun _ e => isAccepted e) Timers.next { reg := .new 10 false }
      twoWildcards = some _ := rfl
  have hrun := Run.of_replay (P := fun _ e => Accepted e)
    (fun _ e h => isAccepted_accepted e h) hplay
  obtain ⟨own, howned, hlookup⟩ := closest_owner_wins 10 false hrun
  exact ⟨_, own, howned, hlookup, rfl, rfl, rfl⟩

end L8Tunnel.Registrar
