import Mathlib.Data.List.Chain
import L8Tunnel.Base.GoSort
import L8Tunnel.Edge.Configured

/-! # What the edge reports (edge/status.go) -/

namespace L8Tunnel.Edge
open Base GoSort

structure EdgeListenerStatus where
  port : Int32
  portEnd : Int32 := 0
  protocol : EdgeProtocol
  bound : Bool
  error : String := ""
  domains : List String

structure EdgeBackendStatus where
  domain : String
  listenPort : Int32
  target : String
  healthy : Bool
  activeConns : ℤ
  lastError : String
  lastCheck : ℤ

structure Status where
  version : ℤ
  listeners : List EdgeListenerStatus
  backends : List EdgeBackendStatus
  accepted : ℤ

def RouteSet.all (order : RangeOrder) (rs : RouteSet) : List Route :=
  rs.base.toList ++ rs.single.toList ++ (rs.byName.range order).filterMap rs.byName.get ++
    (rs.wildcards.range order).filterMap rs.wildcards.get

def addDomain (out : List String) (r : Route) : List String :=
  if r.domain.domain ∈ out then out else out ++ [r.domain.domain]

def routeDomains (order : RangeOrder) (rs : RouteSet) : List String :=
  sortStrings ((rs.all order).foldl addDomain [])

namespace EdgeListenerStatus

def endPort (s : EdgeListenerStatus) : Int32 := if s.portEnd = 0 then s.port else s.portEnd

def merges (prev ls : EdgeListenerStatus) : Bool :=
  prev.endPort = ls.port - 1 ∧ prev.protocol = ls.protocol ∧ prev.bound ∧ ls.bound ∧
    GoString.join prev.domains "," = GoString.join ls.domains ","

def add (acc : List EdgeListenerStatus) (ls : EdgeListenerStatus) : List EdgeListenerStatus :=
  match acc.getLast? with
  | none => [ls]
  | some prev =>
    if merges prev ls then acc.dropLast ++ [{ prev with portEnd := ls.port }] else acc ++ [ls]

end EdgeListenerStatus

def Listener.status (order : RangeOrder) (errText : ℤ → String) (l : Listener) :
    EdgeListenerStatus :=
  { port := Int32.ofInt l.port, protocol := l.proto, bound := l.bound
    error := if l.bound then "" else errText l.port, domains := routeDomains order l.routes }

def inOrder (order : RangeOrder) (e : Edge) : List Listener :=
  (sortInts (e.listeners.range order)).filterMap e.listeners.get

def listenerStatus (order : RangeOrder) (errText : ℤ → String) (e : Edge) :
    List EdgeListenerStatus :=
  ((inOrder order e).map (Listener.status order errText)).foldl EdgeListenerStatus.add []

def Member.status (unix : ℤ → ℤ) (key : String) (p : Pool) (m : Member) : EdgeBackendStatus :=
  { domain := key, listenPort := p.fwd.listenPort, target := m.addr
    healthy := m.healthy && !m.disabled, activeConns := m.active, lastError := m.lastErr
    lastCheck := unix m.lastCheck }

def Sites.backendStatus (unix : ℤ → ℤ) (order : RangeOrder) (s : Sites) : List EdgeBackendStatus :=
  (sortStrings (s.pools.range order)).flatMap fun key =>
    match s.pools.get key with
    | none => []
    | some ref =>
      let p := s.heap ref
      p.members.map fun m => (p.cells m).status unix key p

def Sites.status (unix : ℤ → ℤ) (order : RangeOrder) (errText : ℤ → String) (accepted : ℤ)
    (s : Sites) : Status :=
  { version := s.edge.version, listeners := listenerStatus order errText s.edge
    backends := s.backendStatus unix order, accepted := accepted }

theorem foldl_addDomain (rs : List Route) {out : List String} (hout : out.Nodup) :
    (rs.foldl addDomain out).Nodup ∧
      ∀ name, name ∈ rs.foldl addDomain out ↔ name ∈ out ∨ ∃ r ∈ rs, r.domain.domain = name := by
  induction rs generalizing out with
  | nil => exact ⟨hout, fun name => by simp⟩
  | cons r rs ih =>
    have hone : (addDomain out r).Nodup ∧
        ∀ name, name ∈ addDomain out r ↔ name ∈ out ∨ r.domain.domain = name := by
      unfold addDomain
      split
      next hmem =>
        refine ⟨hout, fun name => ⟨.inl, fun hname => hname.elim (fun h => h) ?_⟩⟩
        rintro rfl
        exact hmem
      next hnew =>
        refine ⟨List.nodup_append_comm.mp (List.nodup_cons.mpr ⟨hnew, hout⟩), fun name => ?_⟩
        rw [List.mem_append, List.mem_singleton, eq_comm]
    obtain ⟨hnodup, hmem⟩ := ih hone.1
    refine ⟨hnodup, fun name => ?_⟩
    rw [List.foldl_cons, hmem, hone.2, or_assoc, List.exists_mem_cons_iff]

def RouteSet.Lists (rs : RouteSet) (r : Route) : Prop :=
  rs.base = some r ∨ rs.single = some r ∨ (∃ n, rs.byName.get n = some r) ∨
    ∃ n, rs.wildcards.get n = some r

theorem mem_range_filterMap (order : RangeOrder) (m : GoMap String Route) (r : Route) :
    r ∈ (m.range order).filterMap m.get ↔ ∃ n, m.get n = some r := by
  rw [List.mem_filterMap]
  constructor
  · rintro ⟨n, -, hn⟩
    exact ⟨n, hn⟩
  · rintro ⟨n, hn⟩
    exact ⟨n, (GoMap.mem_range m order n).mpr ⟨r, hn⟩, hn⟩

theorem mem_all (order : RangeOrder) (rs : RouteSet) (r : Route) : r ∈ rs.all order ↔ rs.Lists r := by
  unfold RouteSet.all RouteSet.Lists
  rw [List.mem_append, List.mem_append, List.mem_append, mem_range_filterMap, mem_range_filterMap,
    Option.mem_toList, Option.mem_toList, or_assoc, or_assoc]

theorem routeDomains_spec (order : RangeOrder) (rs : RouteSet) :
    (routeDomains order rs).Pairwise (· < ·) ∧
      ∀ name, name ∈ routeDomains order rs ↔ ∃ r, rs.Lists r ∧ r.domain.domain = name := by
  obtain ⟨hnodup, hmem⟩ := foldl_addDomain (rs.all order) List.nodup_nil
  refine ⟨sortStrings_strict hnodup, fun name => ?_⟩
  unfold routeDomains
  rw [mem_sortStrings, hmem]
  constructor
  · rintro (hnil | ⟨r, hr, hname⟩)
    · cases hnil
    · exact ⟨r, (mem_all order rs r).mp hr, hname⟩
  · rintro ⟨r, hr, hname⟩
    exact .inr ⟨r, (mem_all order rs r).mpr hr, hname⟩

namespace EdgeListenerStatus

def first (s : EdgeListenerStatus) : ℤ := s.port.toInt
def last (s : EdgeListenerStatus) : ℤ := s.endPort.toInt

/-- What the status says of one port. -/
structure OfPort where
  port : ℤ
  protocol : EdgeProtocol
  bound : Bool
  domains : List String

def expand (s : EdgeListenerStatus) : List OfPort :=
  (List.range (s.last - s.first + 1).toNat).map fun i : ℕ =>
    ⟨s.first + i, s.protocol, s.bound, s.domains⟩

def Mergeable (a b : EdgeListenerStatus) : Prop :=
  a.last + 1 = b.first ∧ a.protocol = b.protocol ∧ a.bound = true ∧ b.bound = true ∧
    a.domains = b.domains

structure Good (s : EdgeListenerStatus) : Prop where
  range : s.first ≤ s.last
  bound : s.bound = true → 0 ≤ s.first
  domains : s.domains ≠ []
  comma : ∀ d ∈ s.domains, ',' ∉ d.toList

section
variable {s prev ls : EdgeListenerStatus}

theorem first_eq_last (h : ls.portEnd = 0) : ls.last = ls.first := by
  unfold last first endPort
  rw [if_pos h]

theorem expand_single (h : ls.portEnd = 0) :
    ls.expand = [⟨ls.first, ls.protocol, ls.bound, ls.domains⟩] := by
  unfold expand
  rw [first_eq_last h]
  simp

theorem toInt_pred {p : Int32} (h : -2147483648 < p.toInt) : (p - 1).toInt = p.toInt - 1 := by
  have hlt := Int32.toInt_lt p
  rw [Int32.toInt_sub]
  refine Int.bmod_eq_of_le ?_ ?_
  · show -2147483648 ≤ p.toInt - 1
    omega
  · show p.toInt - 1 < 2147483648
    omega

theorem merges_iff (hprev : prev.Good) (hls : ls.Good) (hafter : prev.last < ls.first) :
    merges prev ls = true ↔ Mergeable prev ls := by
  have hlow := Int32.le_toInt prev.endPort
  have hport : prev.endPort = ls.port - 1 ↔ prev.last + 1 = ls.first := by
    have hpred : (ls.port - 1).toInt = ls.first - 1 := toInt_pred (by
      show -2147483648 < ls.first
      unfold last at hafter
      omega)
    rw [← Int32.toInt_inj, hpred]
    show prev.last = ls.first - 1 ↔ _
    omega
  have hcomma : "," = String.singleton ',' := rfl
  have hjoin : GoString.join prev.domains "," = GoString.join ls.domains "," ↔
      prev.domains = ls.domains := by
    rw [hcomma]
    exact ⟨GoString.join_inj hprev.comma hls.comma hprev.domains hls.domains,
      congrArg (GoString.join · _)⟩
  unfold merges Mergeable
  rw [decide_eq_true_iff, hport, hjoin]

theorem expand_extended (hprev : prev.Good) (hmerge : Mergeable prev ls) (hend : ls.portEnd = 0) :
    ({ prev with portEnd := ls.port } : EdgeListenerStatus).last = ls.last ∧
      ({ prev with portEnd := ls.port } : EdgeListenerStatus).expand = prev.expand ++ ls.expand := by
  obtain ⟨hnext, hproto, hbound, hbound', hdomains⟩ := hmerge
  have hrange := hprev.range
  have hlow := hprev.bound hbound
  have hzero : ls.port ≠ 0 := by
    intro hzero
    have hfirst : ls.first = 0 := by
      unfold first
      rw [hzero]
      rfl
    omega
  have hlast : ({ prev with portEnd := ls.port } : EdgeListenerStatus).last = ls.first := by
    unfold last endPort
    rw [if_neg hzero]
    rfl
  refine ⟨hlast.trans (first_eq_last hend).symm, ?_⟩
  have hcount : (ls.first - prev.first + 1).toNat = (prev.last - prev.first + 1).toNat + 1 := by
    omega
  have hport : prev.first + ((prev.last - prev.first + 1).toNat : ℤ) = ls.first := by omega
  rw [expand_single hend]
  unfold expand
  rw [hlast]
  show (List.range (ls.first - prev.first + 1).toNat).map _ = _
  rw [hcount, List.range_succ, List.map_append]
  refine congrArg _ ?_
  show [(⟨prev.first + _, prev.protocol, prev.bound, prev.domains⟩ : OfPort)] = _
  rw [hport, hproto, hbound, hbound', hdomains]

/-- The loop that merges neighbouring ports into ranges, after the ports of `done`. -/
structure Merged (acc : List EdgeListenerStatus) (done : List OfPort) : Prop where
  expands : acc.flatMap expand = done
  increasing : acc.Pairwise fun a b => a.last < b.first
  maximal : acc.IsChain fun a b => ¬ Mergeable a b
  good : ∀ s ∈ acc, s.Good

variable {acc : List EdgeListenerStatus} {done : List OfPort}

theorem Merged.add (h : Merged acc done) (hls : ls.Good) (hend : ls.portEnd = 0)
    (hafter : ∀ s ∈ acc, s.last < ls.first) :
    Merged (add acc ls) (done ++ ls.expand) ∧ ∀ s ∈ add acc ls, s.last ≤ ls.last := by
  rcases List.eq_nil_or_concat' acc with rfl | ⟨init, prev, rfl⟩
  · refine ⟨⟨?_, List.pairwise_singleton _ _, .singleton _, ?_⟩, ?_⟩
    · rw [← h.expands]
      exact List.append_nil _
    · intro s hs
      rw [List.mem_singleton.mp hs]
      exact hls
    · intro s hs
      exact Int.le_of_eq (congrArg last (List.mem_singleton.mp hs))
  have hmem : prev ∈ init ++ [prev] := List.mem_append_right _ (List.mem_singleton_self _)
  have hgood := h.good prev hmem
  have hsingle := first_eq_last hend
  obtain ⟨hinit, -, hbefore⟩ := List.pairwise_append.mp h.increasing
  obtain ⟨hchain, -, hjoint⟩ := List.isChain_append.mp h.maximal
  have hexpands : init.flatMap expand ++ prev.expand = done := by
    rw [← h.expands, List.flatMap_append, List.flatMap_singleton]
  unfold EdgeListenerStatus.add
  rw [List.getLast?_concat]
  dsimp only
  by_cases hmerges : merges prev ls = true
  · have hmerge := (merges_iff hgood hls (hafter prev hmem)).mp hmerges
    obtain ⟨hlast, hexpand⟩ := expand_extended hgood hmerge hend
    rw [if_pos hmerges, List.dropLast_concat]
    have hnext := hafter prev hmem
    have hrange := hgood.range
    refine ⟨⟨?_, ?_, ?_, ?_⟩, ?_⟩
    · rw [List.flatMap_append, List.flatMap_singleton, hexpand, ← List.append_assoc, hexpands]
    · refine List.pairwise_append.mpr ⟨hinit, List.pairwise_singleton _ _, fun a ha b hb => ?_⟩
      rw [List.mem_singleton.mp hb]
      exact hbefore a ha prev (List.mem_singleton_self _)
    · refine List.isChain_append.mpr ⟨hchain, .singleton _, fun a ha b hb => ?_⟩
      cases Option.mem_some_iff.mp hb
      exact hjoint a ha prev rfl
    · intro s hs
      rcases List.mem_append.mp hs with hs | hs
      · exact h.good s (List.mem_append_left _ hs)
      · rw [List.mem_singleton.mp hs]
        refine ⟨?_, hgood.bound, hgood.domains, hgood.comma⟩
        show prev.first ≤ _
        omega
    · intro s hs
      rcases List.mem_append.mp hs with hs | hs
      · have hlt := hafter s (List.mem_append_left _ hs)
        omega
      · rw [List.mem_singleton.mp hs]
        omega
  · have hapart : ¬ Mergeable prev ls := fun hmerge =>
      hmerges ((merges_iff hgood hls (hafter prev hmem)).mpr hmerge)
    rw [if_neg hmerges]
    refine ⟨⟨?_, ?_, ?_, ?_⟩, ?_⟩
    · rw [List.flatMap_append, List.flatMap_singleton, h.expands]
    · refine List.pairwise_append.mpr ⟨h.increasing, List.pairwise_singleton _ _, fun a ha b hb => ?_⟩
      rw [List.mem_singleton.mp hb]
      exact hafter a ha
    · refine List.isChain_append.mpr ⟨h.maximal, .singleton _, fun a ha b hb => ?_⟩
      cases Option.mem_some_iff.mp hb
      rw [List.getLast?_concat] at ha
      cases Option.mem_some_iff.mp ha
      exact hapart
    · intro s hs
      rcases List.mem_append.mp hs with hs | hs
      · exact h.good s hs
      · rw [List.mem_singleton.mp hs]
        exact hls
    · intro s hs
      rcases List.mem_append.mp hs with hs | hs
      · have hlt := hafter s hs
        omega
      · exact Int.le_of_eq (congrArg last (List.mem_singleton.mp hs))

/-- The loop that joins neighbouring ports with one state into a range: expanding the ranges
gives the ports back. -/
theorem merged_foldl (todo : List EdgeListenerStatus) (h : Merged acc done)
    (hgood : ∀ ls ∈ todo, ls.Good ∧ ls.portEnd = 0)
    (hsorted : todo.Pairwise fun a b => a.first < b.first)
    (hafter : ∀ s ∈ acc, ∀ ls ∈ todo, s.last < ls.first) :
    Merged (todo.foldl EdgeListenerStatus.add acc) (done ++ todo.flatMap expand) := by
  induction todo generalizing acc done with
  | nil =>
    rw [List.flatMap_nil, List.append_nil]
    exact h
  | cons ls todo ih =>
    obtain ⟨hls, hend⟩ := hgood ls List.mem_cons_self
    obtain ⟨hnext, hrest⟩ := List.pairwise_cons.mp hsorted
    obtain ⟨hmerged, hlast⟩ := h.add hls hend fun s hs => hafter s hs ls List.mem_cons_self
    rw [List.foldl_cons, List.flatMap_cons, ← List.append_assoc]
    refine ih hmerged (fun s hs => hgood s (List.mem_cons_of_mem _ hs)) hrest fun s hs u hu => ?_
    have hle := hlast s hs
    have hlt := hnext u hu
    have heq := first_eq_last hend
    omega

end
end EdgeListenerStatus

structure Listener.Sound (p : ℤ) (l : Listener) : Prop where
  fits : -2147483648 ≤ p ∧ p < 2147483648
  bindable : l.bound = true → 0 ≤ p
  routed : ∃ r, l.routes.Lists r

def Listening (e : Edge) : Prop := ∀ p l, e.listeners.get p = some l → l.Sound p

def CommaFree (e : Edge) : Prop :=
  ∀ p l r, e.listeners.get p = some l → l.routes.Lists r → ',' ∉ r.domain.domain.toList

variable {routes : List Route} {c : SiteConfig} {s : Sites} (rs : RouteSet) (r : Route)

theorem lists_addName (rs : RouteSet) (name : String) : (RouteSet.addName r rs name).Lists r := by
  unfold RouteSet.addName
  dsimp only
  split
  · exact .inr (.inr (.inr ⟨_, GoMap.get_set _ _ _⟩))
  · exact .inr (.inr (.inl ⟨_, GoMap.get_set _ _ _⟩))

theorem lists_add : (rs.add r).Lists r := by
  unfold RouteSet.add
  dsimp only
  split
  · exact .inl rfl
  · rw [← List.dropLast_concat_getLast (List.cons_ne_nil r.domain.domain r.domain.aliases),
      List.foldl_concat]
    exact lists_addName r _ _

theorem lists_newRouteSet (h : routes ≠ []) : ∃ r, (newRouteSet routes).Lists r := by
  unfold newRouteSet
  rw [← List.dropLast_concat_getLast h, List.foldl_concat]
  exact ⟨_, lists_add _ _⟩

theorem mem_of_lists {r : Route} (h : (newRouteSet routes).Lists r) : r ∈ routes := by
  rcases h with hbase | hsingle | hname | hwild
  · exact mem_of_newRouteSet (.inr (.inr hbase))
  · exact ((EdgeConf.comes_newRouteSet routes).single r hsingle).1
  · exact mem_of_newRouteSet (.inl hname)
  · exact mem_of_newRouteSet (.inr (.inl hwild))

namespace Listening
variable {e : Edge}

theorem new : Listening {} := by
  intro p l hl
  cases hl

theorem relisten (h : Listening e) {bind : ℤ → Bool} (hbind : ∀ p, bind p = true → 0 ≤ p)
    (order : RangeOrder) (routes : List Route) (version : ℤ) :
    Listening (e.relisten bind order routes version) := by
  have hcovered : ∀ p l, (e.relisten bind order routes version).listeners.get p = some l →
      routes.filter (fun r => p ∈ portsOf r.fwd) ≠ [] := by
    intro p l hl hnil
    have hm : (byPort routes).get p = none := by rw [get_byPort, if_pos hnil]
    rw [relisten_uncovered hm] at hl
    cases hl
  intro p l hl
  refine ⟨?_, ?_, ?_⟩
  · obtain ⟨r, hr⟩ := List.exists_mem_of_ne_nil _ (hcovered p l hl)
    have hmem := of_decide_eq_true (List.mem_filter.mp hr).2
    obtain ⟨hlow, hhigh⟩ := (mem_portsOf r.fwd p).mp hmem
    have hfirst := Int32.le_toInt r.fwd.listenPort
    have hlast : lastPort r.fwd < 2147483648 := by
      unfold lastPort
      split
      · exact Int32.toInt_lt _
      · exact Int32.toInt_lt _
    omega
  · rw [get_relisten] at hl
    obtain ⟨rs, -, rfl⟩ := Option.map_eq_some_iff.mp hl
    cases hold : (e.listeners.get p).filter fun l => protoOf rs = l.proto with
    | none => exact hbind p
    | some l => exact (h p l (Option.filter_eq_some_iff.mp hold).1).bindable
  · rw [relisten_routes hl]
    exact lists_newRouteSet (hcovered p l hl)

theorem apply (h : Listening s.edge) {env : ApplyEnv} (hbind : ∀ p, env.bind p = true → 0 ≤ p)
    (domains : List EdgeDomain) (version : ℤ) : Listening (s.apply c env domains version).edge := by
  unfold Sites.apply
  split
  · exact h
  · exact h.relisten hbind _ _ _

end Listening

def Sites.Event.Binds : Sites.Event → Prop
  | .apply env _ _ => ∀ p, env.bind p = true → 0 ≤ p
  | _ => True

theorem Listening.step (h : Listening s.edge) {ev : Sites.Event} (hev : ev.Binds) :
    Listening (s.after c ev).edge := by
  rcases Sites.quiet_after (c := c) (s := s) ev with ⟨env, domains, version, rfl⟩ | hq
  · exact h.apply hev domains version
  · rw [hq.edge]
    exact h

theorem Listening.run {resolves : String → String → Prop} {evs : List Sites.Event}
    (h : Run (Guarded (fun _ ev => ev.Binds) (Sites.Step c resolves)) {} evs s) :
    Listening s.edge := by
  refine h.invariant (I := fun s => Listening s.edge) ?_ Listening.new
  rintro s ev t hs ⟨hbinds, ⟨⟩⟩
  exact hs.step hbinds

def Names (rs : RouteSet) (domains : List String) : Prop :=
  domains.Pairwise (· < ·) ∧ ∀ name, name ∈ domains ↔ ∃ r, rs.Lists r ∧ r.domain.domain = name

open EdgeListenerStatus

/-- The entries tell of every listener once, in the order of the ports, and no two
of them that follow each other could be one. -/
structure Reported (e : Edge) (st : List EdgeListenerStatus) : Prop where
  once : ∃ ls : List Listener, ls.Pairwise (fun l l' => l.port < l'.port) ∧
    (∀ l, l ∈ ls ↔ e.listeners.get l.port = some l) ∧
    List.Forall₂ (fun (o : OfPort) (l : Listener) => o.port = l.port ∧ o.protocol = l.proto ∧
      o.bound = l.bound ∧ Names l.routes o.domains) (st.flatMap expand) ls
  increasing : st.Pairwise fun a b => a.last < b.first
  maximal : st.IsChain fun a b => ¬ Mergeable a b

section
variable {e : Edge} (order : RangeOrder) (errText : ℤ → String)

theorem sorted_ports (e : Edge) : (sortInts (e.listeners.range order)).Pairwise (· < ·) :=
  sortInts_strict ((order.perm _).nodup_iff.mpr e.listeners.map.keys_nodup)

theorem inOrder_sorted (e : Edge) : (inOrder order e).Pairwise fun l l' => l.port < l'.port := by
  refine List.Pairwise.filterMap _ (fun p q hpq l hl l' hl' => ?_) (sorted_ports order e)
  rw [show l.port = p from Table.key_of_get hl, show l'.port = q from Table.key_of_get hl']
  exact hpq

theorem mem_inOrder (e : Edge) (l : Listener) :
    l ∈ inOrder order e ↔ e.listeners.get l.port = some l := by
  unfold inOrder
  rw [List.mem_filterMap]
  constructor
  · rintro ⟨p, -, hl⟩
    rw [show l.port = p from Table.key_of_get hl]
    exact hl
  · intro hl
    exact ⟨l.port, mem_sortInts.mpr ((Table.mem_range e.listeners order l.port).mpr ⟨l, hl⟩), hl⟩

theorem status_first (he : Listening e) {l : Listener} (hl : e.listeners.get l.port = some l) :
    (l.status order errText).first = l.port := by
  obtain ⟨hlow, hhigh⟩ := (he l.port l hl).fits
  exact Int32.toInt_ofInt_of_le hlow hhigh

theorem status_good (he : Listening e) (hcomma : CommaFree e) {l : Listener}
    (hl : e.listeners.get l.port = some l) : (l.status order errText).Good := by
  obtain ⟨-, hnames⟩ := routeDomains_spec order l.routes
  refine ⟨Int.le_refl _, fun hbound => ?_, fun hnil => ?_, fun d hd => ?_⟩
  · rw [status_first order errText he hl]
    exact (he l.port l hl).bindable hbound
  · obtain ⟨r, hr⟩ := (he l.port l hl).routed
    have hmem := (hnames r.domain.domain).mpr ⟨r, hr, rfl⟩
    rw [show routeDomains order l.routes = [] from hnil] at hmem
    cases hmem
  · obtain ⟨r, hr, rfl⟩ := (hnames d).mp hd
    exact hcomma l.port l r hl hr

theorem status_reports (he : Listening e) (hcomma : CommaFree e) :
    Reported e (listenerStatus order errText e) := by
  have hgot : ∀ l ∈ inOrder order e, e.listeners.get l.port = some l := fun l hl =>
    (mem_inOrder order e l).mp hl
  have hempty : Merged [] [] := ⟨rfl, .nil, .nil, fun s hs => (List.not_mem_nil hs).elim⟩
  have hmerged := merged_foldl ((inOrder order e).map (Listener.status order errText)) hempty
    (fun s hs => by
      obtain ⟨l, hl, rfl⟩ := List.mem_map.mp hs
      exact ⟨status_good order errText he hcomma (hgot l hl), rfl⟩)
    (List.pairwise_map.mpr (List.Pairwise.imp_of_mem (fun {l l'} hl hl' hlt => by
      rw [status_first order errText he (hgot l hl), status_first order errText he (hgot l' hl')]
      exact hlt) (inOrder_sorted order e)))
    (fun s hs => (List.not_mem_nil hs).elim)
  refine ⟨⟨inOrder order e, inOrder_sorted order e, mem_inOrder order e, ?_⟩, hmerged.increasing,
    hmerged.maximal⟩
  have hexpands : (listenerStatus order errText e).flatMap expand =
      (inOrder order e).map fun l =>
        ⟨l.port, l.proto, l.bound, routeDomains order l.routes⟩ := by
    refine hmerged.expands.trans ?_
    rw [List.nil_append, List.flatMap_map, List.map_eq_flatMap]
    refine List.flatMap_congr fun l hl => ?_
    rw [expand_single rfl, status_first order errText he (hgot l hl)]
    rfl
  rw [hexpands, List.forall₂_map_left_iff, List.forall₂_same]
  exact fun l _ => ⟨rfl, rfl, rfl, routeDomains_spec order l.routes⟩

/-- Whatever has been applied and served before, the ranges of `Status` expand to the
listeners of the edge. -/
theorem status_lists_every_listener {c : SiteConfig} {resolves : String → String → Prop}
    {evs : List Sites.Event} {s : Sites}
    (hrun : Run (Guarded (fun _ ev => ev.Binds) (Sites.Step c resolves)) {} evs s)
    (hcomma : CommaFree s.edge) (unix : ℤ → ℤ) (order : RangeOrder) (errText : ℤ → String)
    (accepted : ℤ) : Reported s.edge (s.status unix order errText accepted).listeners :=
  status_reports order errText (Listening.run hrun) hcomma

end

def rangeSite : EdgeDomain :=
  { Sites.site "10.0.0.1" with portForwards := [{ Sites.siteForward "10.0.0.1" with listenPortEnd := 444 }] }

def rangeApply : Sites.Event :=
  .apply ⟨fun _ => .error "", fun p => decide (0 ≤ p), RangeOrder.stored⟩ [rangeSite] 0

def rangeApplied : Sites := Sites.after Sites.siteConfig {} rangeApply

theorem rangeApplied_commaFree : CommaFree rangeApplied.edge := by
  intro p l r hl hr
  rw [relisten_routes hl] at hr
  have hmem := (List.mem_filter.mp (mem_of_lists hr)).1
  rw [List.mem_singleton.mp hmem]
  decide

theorem status_lists_every_listener_range :
    (rangeApplied.edge.listeners.get 444).isSome ∧
    Reported rangeApplied.edge
      (rangeApplied.status id .stored (fun _ => "address already in use") 0).listeners := by
  have hrun : Run (Guarded (fun _ ev => ev.Binds) (Sites.Step Sites.siteConfig fun _ _ => False)) {}
      [rangeApply] rangeApplied := by
    refine .cons ⟨fun p => of_decide_eq_true, .mk _ _ ?_⟩ (.nil _)
    simp [rangeApply, Sites.Event.Within, Lookup.Within]
  exact ⟨rfl, status_lists_every_listener hrun rangeApplied_commaFree id .stored _ 0⟩

end L8Tunnel.Edge
