import L8Tunnel.Live.Routing

/-! # Who a host belongs to (tun/common/liveview.go) -/

namespace L8Tunnel.Live
open Base Claims Common Protocol L8Tunnel.Registry GoString LiveCopy

/-- Rows with unique names and domains. A name is one label and a domain has a dot, as the
checks of a claim make them. -/
structure TunnelTable (rows : List TunLiveTunnel) : Prop where
  names : ∀ t ∈ rows, ∀ u ∈ rows, t.name = u.name → t = u
  domains : ∀ t ∈ rows, ∀ u ∈ rows, ∀ d ∈ t.domains, d ∈ u.domains → t = u
  label : ∀ t ∈ rows, '.' ∉ t.name.toList
  dotted : ∀ t ∈ rows, ∀ d ∈ t.domains, '.' ∈ d.toList

def namedOwner (rows : List TunLiveTunnel) (name : String) : Option TunLiveTunnel :=
  rows.find? fun t => t.name = name

def domainOwner (rows : List TunLiveTunnel) (d : String) : Option TunLiveTunnel :=
  rows.find? fun t => d ∈ t.domains

def closestOwner (rules : Rules) (rows : List TunLiveTunnel) (host : String) :
    Option TunLiveTunnel :=
  let host := GoString.toLower host
  if rules.tunnelName host ≠ "" then namedOwner rows (rules.tunnelName host)
  else (domainOwner rows host).or ((wildcardsOf host).findSome? (domainOwner rows))

def relayOf (relays : List TunRelay) (id : String) : Option TunRelay :=
  relays.reverse.find? fun r => r.relayId = id ∧ r.relayId ≠ "" ∧ r.simulated = false

def Serves (relays : List TunRelay) (t : TunLiveTunnel) : Prop :=
  ∃ r, relayOf relays t.relayId = some r ∧ r.state ≠ .down ∧ r.podIp ≠ ""

def currentView (rows : List TunLiveTunnel) (relays : List TunRelay) : LiveView :=
  ⟨.fetch rows relays, .fetch rows relays⟩

theorem wildcardsOf_label {s : String} (h : '.' ∉ s.toList) : wildcardsOf s = [] := by
  unfold wildcardsOf split
  rw [splitChars_free h]
  rfl

theorem wildcardsOf_dotted {host w : String} (h : w ∈ wildcardsOf host) : '.' ∈ w.toList := by
  unfold wildcardsOf at h
  obtain ⟨i, -, rfl⟩ := List.mem_map.mp h
  simp

theorem validName_label {name : String} (h : validName name = true) : '.' ∉ name.toList := by
  intro hdot
  simp only [validName, isDNSLabel, Bool.and_eq_true, List.all_eq_true] at h
  exact absurd (h.1.1.2 '.' hdot) (by decide)

section
variable {rows : List TunLiveTunnel} {relays : List TunRelay} {rules : Rules} {host : String}

theorem findSome_congr {α β : Type} {f g : α → Option β} {l : List α}
    (h : ∀ x ∈ l, f x = g x) : l.findSome? f = l.findSome? g := by
  induction l with
  | nil => rfl
  | cons x l ih =>
    obtain ⟨hx, hrest⟩ := List.forall_mem_cons.mp h
    rw [List.findSome?_cons, List.findSome?_cons, hx, ih hrest]

namespace TunnelTable

theorem filter (h : TunnelTable rows) : TunnelTable (rows.filter fun t => Routable t) :=
  ⟨fun t ht u hu => h.names t (List.mem_filter.mp ht).1 u (List.mem_filter.mp hu).1,
    fun t ht u hu => h.domains t (List.mem_filter.mp ht).1 u (List.mem_filter.mp hu).1,
    fun t ht => h.label t (List.mem_filter.mp ht).1,
    fun t ht => h.dotted t (List.mem_filter.mp ht).1⟩

theorem namedOwner_iff (h : TunnelTable rows) (name : String) (t : TunLiveTunnel) :
    namedOwner rows name = some t ↔ t ∈ rows ∧ t.name = name :=
  find_unique_iff (fun t ht u hu (htn : t.name = name) (hun : u.name = name) =>
    h.names t ht u hu (htn.trans hun.symm)) t

theorem domainOwner_iff (h : TunnelTable rows) (d : String) (t : TunLiveTunnel) :
    domainOwner rows d = some t ↔ t ∈ rows ∧ d ∈ t.domains :=
  find_unique_iff (fun t ht u hu (htd : d ∈ t.domains) hud => h.domains t ht u hu d htd hud) t

theorem keyed (h : TunnelTable rows) {t u : TunLiveTunnel} (ht : t ∈ rows) (hu : u ∈ rows)
    {k : String} (htk : k ∈ keys t) (huk : k ∈ keys u) : t = u := by
  rcases List.mem_cons.mp htk with htn | htd
  · rcases List.mem_cons.mp huk with hun | hud
    · exact h.names t ht u hu (htn.symm.trans hun)
    · exact absurd (h.dotted u hu k hud) (htn ▸ h.label t ht)
  · rcases List.mem_cons.mp huk with hun | hud
    · exact absurd (h.dotted t ht k htd) (hun ▸ h.label u hu)
    · exact h.domains t ht u hu k htd hud

theorem copy_iff (h : TunnelTable rows) (relays : List TunRelay) (k : String) (t : TunLiveTunnel) :
    (fetch rows relays).byName.get k = some t ↔
      t ∈ rows.filter (fun t => Routable t) ∧ k ∈ keys t := by
  rw [fetch_byName_iff (fun t ht u hu => h.keyed ht hu), List.mem_filter, and_assoc,
    decide_eq_true_eq]

theorem copy_label (h : TunnelTable rows) (relays : List TunRelay) {name : String}
    (hname : '.' ∉ name.toList) :
    (fetch rows relays).byName.get name =
      namedOwner (rows.filter fun t => Routable t) name := by
  refine Option.ext fun t => ?_
  rw [h.copy_iff, h.filter.namedOwner_iff]
  refine and_congr_right fun ht => ?_
  rw [keys, List.mem_cons]
  constructor
  · rintro (hn | hd)
    · exact hn.symm
    · exact absurd (h.filter.dotted t ht name hd) hname
  · exact fun hn => .inl hn.symm

theorem copy_dotted (h : TunnelTable rows) (relays : List TunRelay) {d : String}
    (hd : '.' ∈ d.toList) :
    (fetch rows relays).byName.get d =
      domainOwner (rows.filter fun t => Routable t) d := by
  refine Option.ext fun t => ?_
  rw [h.copy_iff, h.filter.domainOwner_iff]
  refine and_congr_right fun ht => ?_
  rw [keys, List.mem_cons]
  constructor
  · rintro (hn | hmem)
    · exact absurd (hn ▸ hd) (h.filter.label t ht)
    · exact hmem
  · exact .inr

end TunnelTable

variable {o : TunLiveTunnel}

theorem closestOwner_mem (ho : closestOwner rules rows host = some o) : o ∈ rows := by
  unfold closestOwner at ho
  dsimp only at ho
  split at ho
  · exact List.mem_of_find?_eq_some ho
  · rcases Option.or_eq_some_iff.mp ho with hexact | ⟨-, hwild⟩
    · exact List.mem_of_find?_eq_some hexact
    · obtain ⟨w, -, hw⟩ := List.exists_of_findSome?_eq_some hwild
      exact List.mem_of_find?_eq_some hw

theorem closestOwner_dotted (h : TunnelTable rows) (ho : closestOwner rules rows host = some o) :
    rules.tunnelName (toLower host) ≠ "" ∨ '.' ∈ (toLower host).toList := by
  by_cases hbase : rules.tunnelName (toLower host) ≠ ""
  · exact .inl hbase
  refine .inr ?_
  by_contra hlabel
  unfold closestOwner at ho
  dsimp only at ho
  rw [if_neg hbase, wildcardsOf_label hlabel, List.findSome?_nil, Option.or_none,
    h.domainOwner_iff] at ho
  exact hlabel (h.dotted o ho.1 _ ho.2)

theorem lookup_closest (h : TunnelTable rows)
    (hhost : rules.tunnelName (toLower host) ≠ "" ∨
      '.' ∈ (toLower host).toList) :
    let c := fetch rows relays
    c.lookup (LiveView.tunnelKey rules host) =
      c.owner (closestOwner rules (rows.filter fun t => Routable t) host) := by
  dsimp only
  unfold lookup LiveView.tunnelKey closestOwner
  dsimp only
  congr 1
  by_cases hbase : rules.tunnelName (toLower host) ≠ ""
  · have hlabel := validName_label (Rules.tunnelName_valid hbase)
    rw [if_pos hbase, if_pos hbase, wildcardsOf_label hlabel, List.findSome?_nil, Option.or_none]
    exact h.copy_label relays hlabel
  · have hrest : (wildcardsOf (toLower host)).findSome?
          (fetch rows relays).byName.get =
        (wildcardsOf (toLower host)).findSome?
          (domainOwner (rows.filter fun t => Routable t)) :=
      findSome_congr fun w hw => h.copy_dotted relays (wildcardsOf_dotted hw)
    rw [if_neg hbase, if_neg hbase, h.copy_dotted relays (hhost.resolve_left hbase), hrest]

theorem closestOwner_routable (h : TunnelTable rows) (ho : closestOwner rules rows host = some o)
    (hr : Routable o) : closestOwner rules (rows.filter fun t => Routable t) host = some o := by
  have hnone : ∀ d, domainOwner rows d = none →
      domainOwner (rows.filter fun t => Routable t) d = none := by
    intro d hd
    unfold domainOwner at hd ⊢
    rw [List.find?_eq_none] at hd ⊢
    exact fun t ht => hd t (List.mem_filter.mp ht).1
  have hsome : ∀ d, domainOwner rows d = some o →
      domainOwner (rows.filter fun t => Routable t) d = some o := by
    intro d hd
    rw [h.domainOwner_iff] at hd
    rw [h.filter.domainOwner_iff]
    exact ⟨List.mem_filter.mpr ⟨hd.1, decide_eq_true hr⟩, hd.2⟩
  unfold closestOwner at ho ⊢
  dsimp only at ho ⊢
  by_cases hbase : rules.tunnelName (toLower host) ≠ ""
  · rw [if_pos hbase, h.namedOwner_iff] at ho
    rw [if_pos hbase, h.filter.namedOwner_iff]
    exact ⟨List.mem_filter.mpr ⟨ho.1, decide_eq_true hr⟩, ho.2⟩
  rw [if_neg hbase] at ho ⊢
  cases hexact : domainOwner rows (toLower host) with
  | some u =>
    rw [hexact] at ho
    cases ho
    rw [hsome _ hexact]
    rfl
  | none =>
    rw [hexact, Option.none_or, List.findSome?_eq_some_iff] at ho
    rw [hnone _ hexact, Option.none_or, List.findSome?_eq_some_iff]
    obtain ⟨closer, w, broader, hsplit, hw, hcloser⟩ := ho
    exact ⟨closer, w, broader, hsplit, hsome w hw, fun x hx => hnone x (hcloser x hx)⟩

theorem copy_relay (rows : List TunLiveTunnel) (relays : List TunRelay) (id : String) :
    (fetch rows relays).relays.get id = relayOf relays id := by
  have htunnels : ∀ (ts : List TunLiveTunnel) (c : LiveCopy),
      (ts.foldl addTunnel c).relays = c.relays := by
    intro ts
    induction ts with
    | nil => exact fun _ => rfl
    | cons t ts ih =>
      intro c
      rw [List.foldl_cons, ih]
      unfold addTunnel
      split <;> rfl
  have hadd : ∀ (c : LiveCopy) (r : TunRelay), (c.addRelay r).relays.get id =
      if r.relayId = id ∧ r.relayId ≠ "" ∧ r.simulated = false then some r
      else c.relays.get id := by
    intro c r
    unfold addRelay
    by_cases hskip : r.relayId = "" ∨ r.simulated = true
    · rw [if_pos hskip, if_neg]
      rintro ⟨-, hid, hsim⟩
      rcases hskip with hempty | hs
      · exact hid hempty
      · rw [hsim] at hs
        cases hs
    · have hreal : r.relayId ≠ "" ∧ r.simulated = false := by simpa using hskip
      rw [if_neg hskip, GoMap.get_set_eq_ite]
      by_cases hid : id = r.relayId
      · rw [if_pos hid, if_pos ⟨hid.symm, hreal⟩]
      · rw [if_neg hid, if_neg fun hh => hid hh.1.symm]
  have hlast : ∀ c : LiveCopy, (relays.foldl addRelay c).relays.get id =
      (relayOf relays id).or (c.relays.get id) :=
    foldl_last (fun c : LiveCopy => c.relays.get id) hadd relays
  unfold fetch
  rw [hlast, htunnels]
  exact Option.or_none

theorem copy_owner {c : Option TunLiveTunnel} {t : TunLiveTunnel} {r : TunRelay} :
    (fetch rows relays).owner c = some (t, r) ↔
      c = some t ∧ relayOf relays t.relayId = some r ∧ r.state ≠ .down ∧ r.podIp ≠ "" := by
  unfold owner
  cases c with
  | none => simp
  | some u =>
    rw [Option.bind_some, copy_relay, Option.some.injEq]
    constructor
    · intro hfound
      obtain ⟨r', hr', hup⟩ := Option.bind_eq_some_iff.mp hfound
      split at hup
      · cases hup
      next hserves =>
        cases hup
        exact ⟨rfl, hr', by simpa using hserves⟩
    · rintro ⟨rfl, hr, hserves⟩
      rw [hr, Option.bind_some, if_neg (by simpa using hserves)]

end

/-- A held host is never routed to another tunnel exactly if its owner is routable
itself, or the closest routable tunnel over the host has no relay that serves. -/
theorem held_host_not_rerouted_iff (rules : Rules) (rows : List TunLiveTunnel)
    (relays : List TunRelay) (host stale : String) (o : TunLiveTunnel) (h : TunnelTable rows)
    (ho : closestOwner rules rows host = some o) :
    (∀ t r, (currentView rows relays).tunnel rules host stale = some (t, r) → t = o) ↔
      Routable o ∨ ∀ u, closestOwner rules (rows.filter fun t => Routable t) host = some u →
        ¬ Serves relays u := by
  have htunnel : (currentView rows relays).tunnel rules host stale =
      (fetch rows relays).owner
        (closestOwner rules (rows.filter fun t => Routable t) host) := by
    rw [← lookup_closest h (closestOwner_dotted h ho)]
    unfold LiveView.tunnel currentView
    dsimp only
    split
    next => rfl
    next hsome =>
      split
      · rfl
      · exact hsome.symm
  rw [htunnel]
  constructor
  · intro hsame
    by_cases hr : Routable o
    · exact .inl hr
    refine .inr fun u hu hserves => ?_
    obtain ⟨r, hrelay, hup⟩ := hserves
    have huo := hsame u r (copy_owner.mpr ⟨hu, hrelay, hup⟩)
    obtain ⟨-, hroutable⟩ := List.mem_filter.mp (closestOwner_mem hu)
    exact hr (huo ▸ of_decide_eq_true hroutable)
  · rintro hcond t r hfound
    obtain ⟨hclosest, hrelay, hup⟩ := copy_owner.mp hfound
    rcases hcond with hr | hnone
    · rw [closestOwner_routable h ho hr] at hclosest
      exact (Option.some.inj hclosest).symm
    · exact absurd ⟨r, hrelay, hup⟩ (hnone t hclosest)

def exactDomain (state : TunLiveState) : TunLiveTunnel :=
  { name := "a", type := .tls, domains := ["app.ci.org"], relayId := "r0", agentId := "A"
    tokenId := "T", sessionId := "s1", state := state }

def wildDomain : TunLiveTunnel :=
  { name := "b", type := .tls, domains := ["*.ci.org"], relayId := "r1", agentId := "B"
    tokenId := "U", sessionId := "s2", state := .active }

def nested (state : TunLiveState) : List TunLiveTunnel := [exactDomain state, wildDomain]

def upRelays : List TunRelay :=
  [{ relayId := "r0", podIp := "10.0.0.1" }, { relayId := "r1", podIp := "10.0.0.2" }]

theorem nested_table (state : TunLiveState) : TunnelTable (nested state) := by
  have hmem : ∀ t ∈ nested state, t = exactDomain state ∨ t = wildDomain := by simp [nested]
  refine ⟨?_, ?_, ?_, ?_⟩
  · intro t ht u hu
    rcases hmem t ht with rfl | rfl <;> rcases hmem u hu with rfl | rfl <;>
      simp [exactDomain, wildDomain]
  · intro t ht u hu
    rcases hmem t ht with rfl | rfl <;> rcases hmem u hu with rfl | rfl <;>
      simp [exactDomain, wildDomain]
  · intro t ht
    rcases hmem t ht with rfl | rfl
    · show '.' ∉ "a".toList
      decide
    · decide
  · intro t ht d hd
    rcases hmem t ht with rfl | rfl
    · rw [List.mem_singleton.mp hd]
      decide
    · rw [List.mem_singleton.mp hd]
      decide

theorem nested_owner (state : TunLiveState) :
    closestOwner sampleConfig.rules (nested state) "app.ci.org" = some (exactDomain state) := by
  rfl

theorem held_host_not_rerouted_iff_active :
    (currentView (nested .active) upRelays).tunnel sampleConfig.rules "app.ci.org" "" ≠ none ∧
    ∀ t r, (currentView (nested .active) upRelays).tunnel sampleConfig.rules "app.ci.org" "" =
      some (t, r) → t = exactDomain .active :=
  ⟨by decide, (held_host_not_rerouted_iff sampleConfig.rules (nested .active) upRelays "app.ci.org" ""
    (exactDomain .active) (nested_table .active) (nested_owner .active)).mpr (.inl (by decide))⟩

/-- While `a` waits for its agent, its domain is routed to `b`. -/
theorem parked_host_rerouted :
    ¬ ∀ (rules : Rules) (rows : List TunLiveTunnel) (relays : List TunRelay) (host stale : String)
      (o : TunLiveTunnel), TunnelTable rows → closestOwner rules rows host = some o →
      (o.state = .active ∨ o.state = .grace) →
      ∀ t r, (currentView rows relays).tunnel rules host stale = some (t, r) → t = o := by
  intro h
  have hsame := h sampleConfig.rules (nested .grace) upRelays "app.ci.org" "" (exactDomain .grace)
    (nested_table .grace) (nested_owner .grace) (.inr rfl) wildDomain
    { relayId := "r1", podIp := "10.0.0.2" } (by decide)
  exact absurd hsame (by decide)

end L8Tunnel.Live
