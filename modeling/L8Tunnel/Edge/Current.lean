import L8Tunnel.Edge.Sites

/-! # A TERMINATE site serves from its current configuration -/

namespace L8Tunnel.Edge
open Base Auth Pool

def TerminateAt (domains : List EdgeDomain) (port : ℤ) (key : String) (f : EdgePortForward) :
    Prop :=
  ∃ d ∈ domains, d.enabled = true ∧ ∃ i, (f, i) ∈ d.portForwards.zipIdx ∧ f.enabled = true ∧
    f.mode = .terminate ∧ poolKey d f i = key ∧ port ∈ portsOf f

namespace Sites

/-- The tunnel's forward is the only TERMINATE forward of its key on the port. -/
def Only (domains : List EdgeDomain) (port : ℤ) (key : String) (t : PoolTunnel) : Prop :=
  ∀ f, TerminateAt domains port key f → f = t.fwd

/-- No two TERMINATE forwards of a port have one key, and none is other than the
one its listener has a proxy for, or than the one that a request on its way through
`ServeHTTP` will ask the listener's proxy for. -/
def Event.Fits (s : Sites) : Event → Prop
  | .apply _ domains _ =>
    (∀ port key f f', TerminateAt domains port key f → TerminateAt domains port key f' → f = f') ∧
    (∀ port key cached, (s.proxies port (s.opened port)).get key = some cached →
      Only domains port key cached) ∧
    ∀ i a, s.asking i = some a → a.opened = s.opened a.port → Only domains a.port a.tun.id a.tun
  | _ => True

section
variable (c : SiteConfig) (resolves : String → String → Prop)

/-- The tunnel's pool exists and serves the tunnel's forward. -/
structure Stands (heap : ℕ → Pool) (next : ℕ) (t : PoolTunnel) : Prop where
  lt : t.pool < next
  fwd : (heap t.pool).fwd = t.fwd

/-- The request's proxy and backend are of the forward as applied. -/
structure Fresh (s : Sites) (r : Inflight) : Prop where
  proxy : r.proxy.fwd = r.tun.fwd
  applied : ∃ port, TerminateAt s.domains port r.tun.id r.tun.fwd
  backend : TargetOf resolves c.nodeIP r.tun.fwd r.backend

/-- What holds of a request that has its proxy. -/
structure Served (s : Sites) (r : Inflight) : Prop where
  proxy : Stands s.heap s.next r.proxy
  started : r.started ≤ s.applied
  fresh : r.started = s.applied → Fresh c resolves s r
  first : ∀ d ref, r.dial = some d → d.first = some ref →
    ref < (s.heap r.proxy.pool).next ∧ ((s.heap r.proxy.pool).cells ref).addr = r.backend

/-- A proxy in the cache of a port's `n`-th listener: if that is the current one, its forward is
the only one of its key. -/
structure Cached (s : Sites) (port : ℤ) (n : ℕ) (key : String) (t : PoolTunnel) : Prop where
  stands : Stands s.heap s.next t
  opened : n ≤ s.opened port
  only : n = s.opened port → Only s.domains port key t

/-- What holds of a request between Lookup and its proxy. -/
structure Asked (s : Sites) (a : Asking) : Prop extends
    Cached s a.port a.opened a.tun.id a.tun where
  started : a.started ≤ s.applied
  fresh : a.started = s.applied →
    a.opened = s.opened a.port ∧ TerminateAt s.domains a.port a.tun.id a.tun.fwd
  backend : ∀ b, a.stage = .picked b → TargetOf resolves c.nodeIP a.tun.fwd b

/-- The invariant of the sites: pools, routes, caches and requests against what was applied
last. -/
structure Current (s : Sites) : Prop where
  pools : ∀ ref < s.next, (s.heap ref).Right resolves ∧ (s.heap ref).nodeIP = c.nodeIP
  keys : ∀ key ref, s.pools.get key = some ref → ref < s.next
  one : ∀ port key f f', TerminateAt s.domains port key f → TerminateAt s.domains port key f' →
    f = f'
  routes : ∀ port l, s.edge.listeners.get port = some l → ∀ r, l.routes.Has r →
    ∀ t, r.tunnel = some t → Stands s.heap s.next t ∧ TerminateAt s.domains port t.id t.fwd
  proxies : ∀ port n key t, (s.proxies port n).get key = some t → Cached s port n key t
  asking : ∀ i a, s.asking i = some a → Asked c resolves s a
  requests : ∀ i r, s.requests i = some r → Served c resolves s r

end

section
variable {c : SiteConfig} {resolves : String → String → Prop} {s : Sites}
variable {t : PoolTunnel} {ref i : ℕ} {q : Pool} {r : Inflight} {a : Asking}

theorem Stands.setPool (h : Stands s.heap s.next t) (hq : (s.heap ref).Later q) :
    Stands (s.setPool ref q).heap s.next t := by
  refine ⟨h.lt, ?_⟩
  by_cases hr : t.pool = ref
  · rw [← h.fwd, hr, ← hq.fwd]
    simp [Sites.setPool]
  · rw [← h.fwd]
    simp [Sites.setPool, hr]

theorem Current.setPool (h : Current c resolves s) (hq : (s.heap ref).Later q)
    (hright : ref < s.next → q.Right resolves) : Current c resolves (s.setPool ref q) := by
  refine ⟨fun u hu => ?_, h.keys, h.one, fun port l hl r hr t ht => ?_,
    fun port n key t ht => ?_, fun i a ha => ?_, fun i r hr => ?_⟩
  · by_cases heq : u = ref
    · subst heq
      have hself : (s.setPool u q).heap u = q := Function.update_self ..
      rw [hself, hq.nodeIP]
      exact ⟨hright hu, (h.pools u hu).2⟩
    · have hother : (s.setPool ref q).heap u = s.heap u := Function.update_of_ne heq ..
      rw [hother]
      exact h.pools u hu
  · obtain ⟨hs, hat⟩ := h.routes port l hl r hr t ht
    exact ⟨hs.setPool hq, hat⟩
  · obtain ⟨hs, hopened, honly⟩ := h.proxies port n key t ht
    exact ⟨hs.setPool hq, hopened, honly⟩
  · obtain ⟨⟨hs, hopened, honly⟩, hstarted, hfresh, hbackend⟩ := h.asking i a ha
    exact ⟨⟨hs.setPool hq, hopened, honly⟩, hstarted, hfresh, hbackend⟩
  · have hserved := h.requests i r hr
    refine ⟨hserved.proxy.setPool hq, hserved.started, fun hstart => ?_, fun d u hd hu => ?_⟩
    · obtain ⟨hproxy, happlied, hbackend⟩ := hserved.fresh hstart
      exact ⟨hproxy, happlied, hbackend⟩
    · obtain ⟨hlt, haddr⟩ := hserved.first d u hd hu
      by_cases heq : r.proxy.pool = ref
      · have hself : (s.setPool ref q).heap r.proxy.pool = q := by
          rw [heq]
          exact Function.update_self ..
        rw [heq] at hlt haddr
        rw [hself, hq.addr u hlt]
        exact ⟨Nat.lt_of_lt_of_le hlt hq.next, haddr⟩
      · have hother : (s.setPool ref q).heap r.proxy.pool = s.heap r.proxy.pool :=
          Function.update_of_ne heq ..
        rw [hother]
        exact ⟨hlt, haddr⟩

theorem Current.setSame (h : Current c resolves s) (ref : ℕ) (hq : (s.heap ref).Same q) :
    Current c resolves (s.setPool ref q) :=
  h.setPool hq.later fun hr => (h.pools ref hr).1.same hq

theorem Current.serving (h : Current c resolves s) {proxies : ℤ → ℕ → GoMap String PoolTunnel}
    {asking : ℕ → Option Asking} {requests : ℕ → Option Inflight}
    (hproxies : ∀ port n key t, (proxies port n).get key = some t → Cached s port n key t)
    (hasking : ∀ i a, asking i = some a → Asked c resolves s a)
    (hrequests : ∀ i r, requests i = some r → Served c resolves s r) :
    Current c resolves
      { s with proxies := proxies, asking := asking, requests := requests } := by
  refine ⟨h.pools, h.keys, h.one, h.routes, fun port n key t ht => ?_, fun i a ha => ?_,
    fun i r hr => ?_⟩
  · obtain ⟨hs, hopened, honly⟩ := hproxies port n key t ht
    exact ⟨hs, hopened, honly⟩
  · obtain ⟨⟨hs, hopened, honly⟩, hstarted, hfresh, hbackend⟩ := hasking i a ha
    exact ⟨⟨hs, hopened, honly⟩, hstarted, hfresh, hbackend⟩
  · obtain ⟨hproxy, hstarted, hfresh, hfirst⟩ := hrequests i r hr
    refine ⟨hproxy, hstarted, fun hs => ?_, hfirst⟩
    obtain ⟨hproxy, happlied, hbackend⟩ := hfresh hs
    exact ⟨hproxy, happlied, hbackend⟩

theorem Current.setRequest (h : Current c resolves s) (i : ℕ) (hr : Served c resolves s r) :
    Current c resolves (s.setRequest i r) := by
  refine h.serving h.proxies h.asking ((Function.forall_update_iff s.requests fun _ next =>
    ∀ r, next = some r → Served c resolves s r).mpr ⟨?_, fun j _ => h.requests j⟩)
  rintro _ ⟨⟩
  exact hr

theorem Current.ask (h : Current c resolves s) (i : ℕ) {next : Option Asking}
    (hnext : ∀ a, next = some a → Asked c resolves s a) : Current c resolves (s.ask i next) :=
  h.serving h.proxies ((Function.forall_update_iff s.asking fun _ next => ∀ a, next = some a →
    Asked c resolves s a).mpr ⟨hnext, fun j _ => h.asking j⟩) h.requests

theorem Current.drop (h : Current c resolves s) (i : ℕ) : Current c resolves (s.ask i none) :=
  h.ask i fun _ ha => nomatch ha

theorem Served.redial (h : Served c resolves s r) {dial : Option Pool.Dialing}
    (hfirst : ∀ d ref, dial = some d → d.first = some ref → ref < (s.heap r.proxy.pool).next ∧
      ((s.heap r.proxy.pool).cells ref).addr = r.backend) :
    Served c resolves s { r with dial := dial } := by
  refine ⟨h.proxy, h.started, fun hs => ?_, hfirst⟩
  obtain ⟨hproxy, happlied, hbackend⟩ := h.fresh hs
  exact ⟨hproxy, happlied, hbackend⟩

theorem Current.cached_proxyOf (h : Current c resolves s) (ha : Asked c resolves s a) :
    Cached s a.port a.opened a.tun.id (s.proxyOf a) := by
  unfold proxyOf
  cases hcached : (s.proxies a.port a.opened).get a.tun.id with
  | none => exact ha.toCached
  | some cached => exact h.proxies a.port a.opened a.tun.id cached hcached

theorem Current.keepProxy (h : Current c resolves s) (ha : Asked c resolves s a) :
    Current c resolves (s.keepProxy a) := by
  refine h.serving ?_ h.asking h.requests
  refine (Function.forall_update_iff s.proxies fun port caches => ∀ n key t,
    (caches n).get key = some t → Cached s port n key t).mpr ⟨?_, fun port _ => h.proxies port⟩
  refine (Function.forall_update_iff (s.proxies a.port) fun n cache => ∀ key t,
    cache.get key = some t → Cached s a.port n key t).mpr ⟨?_, fun n _ => h.proxies a.port n⟩
  intro key t ht
  rw [GoMap.get_set_eq_ite] at ht
  split at ht
  next hkey =>
    cases ht
    rw [hkey]
    exact h.cached_proxyOf ha
  next => exact h.proxies a.port a.opened key t ht

structure Made (domains : List EdgeDomain) (g : Gathered) (r : Route) (t : PoolTunnel) : Prop where
  stands : Stands g.heap g.next t
  fwd : t.fwd = r.fwd
  mode : t.fwd.mode = .terminate
  listed : ∃ d ∈ domains, d.enabled = true ∧ ∃ i, (t.fwd, i) ∈ d.portForwards.zipIdx ∧
    t.fwd.enabled = true ∧ poolKey d t.fwd i = t.id

structure Gathering (c : SiteConfig) (resolves : String → String → Prop) (s : Sites)
    (domains : List EdgeDomain) (g : Gathered) : Prop where
  next : s.next ≤ g.next
  old : ∀ ref < s.next, g.heap ref = s.heap ref
  pools : ∀ ref < g.next, (g.heap ref).Right resolves ∧ (g.heap ref).nodeIP = c.nodeIP
  keys : ∀ key ref, g.pools.get key = some ref → ref < g.next
  routes : ∀ r ∈ g.routes, ∀ t, r.tunnel = some t → Made domains g r t

section
variable {domains : List EdgeDomain} {g : Gathered} {d : EdgeDomain} {f : EdgePortForward} {i : ℕ}

theorem Gathering.route (h : Gathering c resolves s domains g) {ref : ℕ} (hlt : ref < g.next)
    (hfwd : (g.heap ref).fwd = f) (hd : d ∈ domains) (hon : d.enabled = true)
    (hf : (f, i) ∈ d.portForwards.zipIdx) (hfon : f.enabled = true) (access : Access) :
    Gathering c resolves s domains (g.route (poolKey d f i) ref d f access) := by
  refine ⟨h.next, h.old, h.pools, fun key u hu => ?_, fun r hr t ht => ?_⟩
  · have hget : (g.pools.set (poolKey d f i) ref).get key = some u := hu
    rw [GoMap.get_set_eq_ite] at hget
    split at hget
    · cases hget
      exact hlt
    · exact h.keys key u hget
  · rcases List.mem_append.mp hr with hr | hr
    · obtain ⟨⟨hlt', hfwd'⟩, hsame, hmode, hlisted⟩ := h.routes r hr t ht
      exact ⟨⟨hlt', hfwd'⟩, hsame, hmode, hlisted⟩
    · cases List.mem_singleton.mp hr
      dsimp only at ht
      split at ht
      next hmode =>
        cases ht
        exact ⟨⟨hlt, hfwd⟩, rfl, hmode, d, hd, hon, i, hf, hfon, rfl⟩
      next => cases ht

theorem Gathering.alloc (h : Gathering c resolves s domains g) {p : Pool}
    (hp : p.Right resolves) (hnode : p.nodeIP = c.nodeIP) :
    Gathering c resolves s domains (g.alloc p) := by
  have hold : ∀ ref < g.next, (g.alloc p).heap ref = g.heap ref := fun ref hr =>
    Function.update_of_ne (Nat.ne_of_lt hr) ..
  refine ⟨Nat.le_succ_of_le h.next, fun ref hr => ?_, fun ref hr => ?_,
    fun key ref hk => Nat.lt_succ_of_lt (h.keys key ref hk), fun r hr t ht => ?_⟩
  · rw [hold ref (Nat.lt_of_lt_of_le hr h.next)]
    exact h.old ref hr
  · rcases Nat.lt_succ_iff_lt_or_eq.mp hr with hlt | rfl
    · rw [hold ref hlt]
      exact h.pools ref hlt
    · have hself : (g.alloc p).heap g.next = p := Function.update_self ..
      rw [hself]
      exact ⟨hp, hnode⟩
  · obtain ⟨⟨hlt, hfwd⟩, hsame, hmode, hlisted⟩ := h.routes r hr t ht
    refine ⟨⟨Nat.lt_succ_of_lt hlt, ?_⟩, hsame, hmode, hlisted⟩
    rw [hold _ hlt]
    exact hfwd

variable {lookup : Lookup}

theorem Gathering.addForward (h : Gathering c resolves s domains g) (hl : lookup.Within resolves)
    (hkeys : ∀ key ref, s.pools.get key = some ref → ref < s.next) (hd : d ∈ domains)
    (hon : d.enabled = true) {fi : EdgePortForward × ℕ} (hf : fi ∈ d.portForwards.zipIdx)
    (access : Access) :
    Gathering c resolves s domains (g.addForward c lookup s.pools d access fi) := by
  unfold Gathered.addForward
  split
  · exact h
  next hfon =>
  have hfon' : fi.1.enabled = true := by simpa using hfon
  dsimp only
  cases hold : (s.pools.get (poolKey d fi.1 fi.2)).filter fun ref => (g.heap ref).fwd = fi.1 with
  | some ref =>
    obtain ⟨hget, hsame⟩ := Option.filter_eq_some_iff.mp hold
    have hlt : ref < g.next := Nat.lt_of_lt_of_le (hkeys _ ref hget) h.next
    exact h.route hlt (by simpa using hsame) hd hon hf hfon' access
  | none =>
    obtain ⟨hright, hfwd, hnode⟩ := right_newPool hl (poolKey d fi.1 fi.2) fi.1 c.nodeIP
    have hself : (g.alloc (.newPool lookup (poolKey d fi.1 fi.2) fi.1 c.nodeIP)).heap g.next =
        .newPool lookup (poolKey d fi.1 fi.2) fi.1 c.nodeIP := Function.update_self ..
    exact (h.alloc hright hnode).route (Nat.lt_succ_self _) (by rw [hself, hfwd]) hd hon hf hfon'
      access

theorem Gathering.addDomain (h : Gathering c resolves s domains g) (hl : lookup.Within resolves)
    (hkeys : ∀ key ref, s.pools.get key = some ref → ref < s.next) (hd : d ∈ domains) :
    Gathering c resolves s domains (g.addDomain c lookup s.pools d) := by
  unfold Gathered.addDomain
  split
  · exact h
  next hon =>
  split
  · exact h
  next access _ =>
    have hfold : ∀ (fis : List (EdgePortForward × ℕ)), (∀ fi ∈ fis, fi ∈ d.portForwards.zipIdx) →
        ∀ g, Gathering c resolves s domains g →
        Gathering c resolves s domains
          (fis.foldl (Gathered.addForward c lookup s.pools d access) g) := by
      intro fis
      induction fis with
      | nil => exact fun _ g hg => hg
      | cons fi fis ih =>
        intro hmem g hg
        exact ih (fun x hx => hmem x (List.mem_cons_of_mem _ hx)) _
          (hg.addForward hl hkeys hd (by simpa using hon) (hmem fi List.mem_cons_self) access)
    exact hfold _ (fun _ hfi => hfi) g h

theorem Current.gather (h : Current c resolves s) (hl : lookup.Within resolves)
    (domains : List EdgeDomain) : Gathering c resolves s domains (s.gather c lookup domains) := by
  have hfold : ∀ (ds : List EdgeDomain), (∀ d ∈ ds, d ∈ domains) →
      ∀ g, Gathering c resolves s domains g →
      Gathering c resolves s domains (ds.foldl (Gathered.addDomain c lookup s.pools) g) := by
    intro ds
    induction ds with
    | nil => exact fun _ g hg => hg
    | cons d ds ih =>
      intro hmem g hg
      exact ih (fun x hx => hmem x (List.mem_cons_of_mem _ hx)) _
        (hg.addDomain hl h.keys (hmem d List.mem_cons_self))
  refine hfold domains (fun _ hd => hd) _ ⟨Nat.le_refl _, fun _ _ => rfl, h.pools, ?_, ?_⟩
  · intro key ref hk
    simp at hk
  · intro r hr
    cases hr

end

theorem stopOld_later (g : Gathered) (keys : List String) (heap : ℕ → Pool) (ref : ℕ) :
    (heap ref).Later (keys.foldl (s.stopOld g) heap ref) ∧
      ((heap ref).Right resolves → (keys.foldl (s.stopOld g) heap ref).Right resolves) := by
  induction keys generalizing heap with
  | nil => exact ⟨.refl _, fun h => h⟩
  | cons key keys ih =>
    have hone : (heap ref).Later (s.stopOld g heap key ref) ∧
        ((heap ref).Right resolves → (s.stopOld g heap key ref).Right resolves) := by
      unfold stopOld
      cases s.pools.get key with
      | none => exact ⟨.refl _, fun h => h⟩
      | some u =>
        dsimp only
        by_cases hkept : g.pools.get key = some u
        · rw [if_pos hkept]
          exact ⟨.refl _, fun h => h⟩
        rw [if_neg hkept]
        by_cases hu : ref = u
        · subst hu
          rw [Function.update_self]
          exact ⟨later_stop _, fun h => ⟨h.listed⟩⟩
        · rw [Function.update_of_ne hu]
          exact ⟨.refl _, fun h => h⟩
    obtain ⟨hlater, hright⟩ := ih (s.stopOld g heap key)
    exact ⟨hone.1.trans hlater, fun h => hright (hone.2 h)⟩

theorem Current.apply (h : Current c resolves s) {env : ApplyEnv} {domains : List EdgeDomain}
    {version : ℤ} (hl : env.lookup.Within resolves)
    (hfits : (Event.apply env domains version).Fits s) :
    Current c resolves (s.apply c env domains version) := by
  unfold Sites.apply
  split
  · exact h
  have hg := h.gather hl domains
  generalize s.gather c env.lookup domains = g at hg
  have hstop : ∀ ref, (g.heap ref).Later
      ((s.pools.range env.order).foldl (s.stopOld g) g.heap ref) ∧
      ((g.heap ref).Right resolves →
        ((s.pools.range env.order).foldl (s.stopOld g) g.heap ref).Right resolves) :=
    stopOld_later g _ g.heap
  dsimp only
  generalize (s.pools.range env.order).foldl (s.stopOld g) g.heap = heap at hstop
  have hstands : ∀ t, Stands g.heap g.next t → Stands heap g.next t := fun t ht =>
    ⟨ht.lt, (hstop t.pool).1.fwd.trans ht.fwd⟩
  have hkept : ∀ t, Stands s.heap s.next t → Stands heap g.next t := fun t ht => by
    refine hstands t ⟨Nat.lt_of_lt_of_le ht.lt hg.next, ?_⟩
    rw [hg.old _ ht.lt]
    exact ht.fwd
  -- the count of a port goes up only when its listener is closed
  generalize hcount : (fun p => if (s.edge.listeners.get p).any fun l =>
    !stays (byPort g.routes) p l then s.opened p + 1 else s.opened p) = opened
  have hup : ∀ p, opened p = s.opened p ∨ opened p = s.opened p + 1 := by
    intro p
    rw [← hcount]
    dsimp only
    split
    · exact .inr rfl
    · exact .inl rfl
  have hcached : ∀ port n key t, Cached s port n key t →
      (n = s.opened port → Only domains port key t) →
      Stands heap g.next t ∧ n ≤ opened port ∧ (n = opened port → Only domains port key t) := by
    intro port n key t ht honly
    have hle := ht.opened
    rcases hup port with hsame | hnext
    · rw [hsame]
      exact ⟨hkept t ht.stands, hle, honly⟩
    · rw [hnext]
      exact ⟨hkept t ht.stands, Nat.le_succ_of_le hle, fun heq => by omega⟩
  obtain ⟨hone, hproxies, hasking⟩ := hfits
  refine ⟨fun ref hr => ?_, hg.keys, hone, fun port l hl r hr t ht => ?_,
    fun port n key t ht => ?_, fun i a ha => ?_, fun i r hr => ?_⟩
  · obtain ⟨hright, hnode⟩ := hg.pools ref hr
    exact ⟨(hstop ref).2 hright, (hstop ref).1.nodeIP.trans hnode⟩
  · rw [relisten_routes hl] at hr
    obtain ⟨hmem, hport⟩ := List.mem_filter.mp (mem_of_newRouteSet hr)
    obtain ⟨hst, hsame, hmode, d, hd, hon, i, hi, hfon, hkey⟩ := hg.routes r hmem t ht
    refine ⟨hstands t hst, d, hd, hon, i, hi, hfon, hmode, hkey, ?_⟩
    rw [hsame]
    simpa using hport
  · obtain ⟨hst, hle, honly⟩ := hcached port n key t (h.proxies port n key t ht) fun heq =>
      hproxies port key t (heq ▸ ht)
    exact ⟨hst, hle, honly⟩
  · obtain ⟨hask, hstarted, -, hbackend⟩ := h.asking i a ha
    obtain ⟨hst, hle, honly⟩ := hcached _ _ _ _ hask fun heq => hasking i a ha heq
    refine ⟨⟨hst, hle, honly⟩, Nat.le_succ_of_le hstarted, fun hs => ?_, hbackend⟩
    have hs' : a.started = s.applied + 1 := hs
    omega
  · have hserved := h.requests i r hr
    have hlt := hserved.proxy.lt
    refine ⟨hkept _ hserved.proxy, Nat.le_succ_of_le hserved.started, fun hs => ?_,
      fun d ref hd href => ?_⟩
    · -- it has started before this `Apply`
      have hle := hserved.started
      have hs' : r.started = s.applied + 1 := hs
      omega
    · obtain ⟨hlt', haddr⟩ := hserved.first d ref hd href
      rw [← hg.old _ hlt] at hlt' haddr
      have hlater := (hstop r.proxy.pool).1
      exact ⟨Nat.lt_of_lt_of_le hlt' hlater.next, (hlater.addr ref hlt').trans haddr⟩

theorem has_of_lookupHTTP {env : ServeEnv} {l : Listener} {host name : String}
    {state : HttpProxy.State} (h : lookupHTTP c env l host = (some t, state, name)) :
    ∃ route, l.routes.Has route ∧ route.tunnel = some t := by
  unfold lookupHTTP at h
  split at h
  · cases h
  next target htarget =>
    split at h
    · cases h
    next tun htun =>
      cases h
      exact ⟨target.route, has_of_resolve htarget, htun⟩

theorem Current.lookup (h : Current c resolves s) (env : ServeEnv) (i : ℕ) (port : ℤ)
    (r : HttpProxy.Request) : Current c resolves (s.lookup c env i port r) := by
  unfold Sites.lookup
  split
  · exact h
  next l hl =>
  split
  next tun name hlook =>
    split
    · exact h
    obtain ⟨route, hhas, htun⟩ := has_of_lookupHTTP hlook
    obtain ⟨hstands, hat⟩ := h.routes port l hl route hhas tun htun
    refine h.ask i ?_
    rintro a ⟨⟩
    exact ⟨⟨hstands, Nat.le_refl _, fun _ f hf => h.one port tun.id f tun.fwd hf hat⟩,
      Nat.le_refl _, fun _ => ⟨rfl, hat⟩, fun b hb => nomatch hb⟩
  next => exact h

theorem Asked.goOn (h : Asked c resolves s a) (stage : Stage)
    (hstage : ∀ b, stage = .picked b → TargetOf resolves c.nodeIP a.tun.fwd b) :
    Asked c resolves s { a with stage := stage } := by
  obtain ⟨⟨hs, hopened, honly⟩, hstarted, hfresh, -⟩ := h
  exact ⟨⟨hs, hopened, honly⟩, hstarted, hfresh, hstage⟩

theorem Current.sni (h : Current c resolves s) (env : ServeEnv) (i : ℕ) :
    Current c resolves (s.sni c env i) := by
  unfold Sites.sni
  split
  · exact h
  next a ha =>
  split
  · split
    · refine h.ask i ?_
      rintro a' ⟨⟩
      exact (h.asking i a ha).goOn .checked fun b hb => nomatch hb
    · exact h.drop i
  · exact h

theorem Current.pick (h : Current c resolves s) (env : ServeEnv) (i : ℕ) :
    Current c resolves (s.pick c env i) := by
  unfold Sites.pick
  split
  · exact h
  next a ha =>
  split
  · split
    next tun backend r hserve =>
      obtain ⟨rfl, hpick⟩ := HttpProxy.serveActive_proxied hserve
      obtain ⟨b, hb, hpicked⟩ := hpick _ rfl
      cases hb
      obtain ⟨ref, href, haddr⟩ := Option.map_eq_some_iff.mp hpicked
      obtain ⟨hsame, hcand⟩ := (s.heap a.tun.pool).pick_spec (clientIP r.remoteAddr) [] env.random
      obtain ⟨hmem, hon, -⟩ := mem_candidates.mp (hcand ref href)
      have hstands := (h.asking i a ha).stands
      obtain ⟨hright, hnode⟩ := h.pools a.tun.pool hstands.lt
      have htarget := (hright.listed ref hmem).2 hon
      rw [haddr, hnode, hstands.fwd] at htarget
      have hset := h.setSame a.tun.pool hsame
      refine hset.ask i ?_
      rintro a' ⟨⟩
      refine (hset.asking i a ha).goOn _ ?_
      rintro b ⟨⟩
      exact htarget
    next => exact h.drop i
  · exact h

theorem Current.proxyFor (h : Current c resolves s) (i : ℕ) :
    Current c resolves (s.proxyFor i) := by
  unfold Sites.proxyFor
  split
  · exact h
  next a ha =>
  have hask := h.asking i a ha
  split
  next backend hstage =>
    refine ((h.keepProxy hask).drop i).setRequest i ?_
    have hproxy := h.cached_proxyOf hask
    refine ⟨hproxy.stands, hask.started, fun hs => ?_, fun d u hd => nomatch hd⟩
    obtain ⟨hopened, hat⟩ := hask.fresh hs
    exact ⟨(hproxy.only hopened _ hat).symm, ⟨a.port, hat⟩, hask.backend backend hstage⟩
  next => exact h

theorem Current.startDial (h : Current c resolves s) (i : ℕ) :
    Current c resolves (s.startDial i) := by
  unfold Sites.startDial
  split
  · exact h
  next r hr =>
  have hserved := h.requests i r hr
  refine h.setRequest i (hserved.redial ?_)
  rintro d ref hd href
  cases hd
  have hfind : (s.heap r.proxy.pool).members.find? (fun ref =>
      ((s.heap r.proxy.pool).cells ref).addr = r.backend) = some ref := href
  have hmem := List.mem_of_find?_eq_some hfind
  refine ⟨((h.pools _ hserved.proxy.lt).1.listed ref hmem).1, ?_⟩
  simpa using List.find?_some hfind

/-- A dial goes to the member chosen before, or to one not tried yet in this request. -/
theorem dials_spec {i : ℕ} {random : ℕ × ℕ} {d : Pool.Dialing} {p : Pool}
    (h : s.dials i random = some (r, d, p, ref)) :
    s.requests i = some r ∧ r.dial = some d ∧ (s.heap r.proxy.pool).Same p ∧
      (d.first = some ref ∨ ref ∈ (s.heap r.proxy.pool).candidates d.tried) := by
  unfold dials at h
  split at h
  · cases h
  next r' hr =>
  split at h
  · cases h
  next d' hd =>
    dsimp only at h
    obtain ⟨u, hu, heq⟩ := Option.map_eq_some_iff.mp h
    cases heq
    refine ⟨hr, hd, ?_⟩
    unfold choose at hu ⊢
    cases hfirst : d.first with
    | some first =>
      rw [hfirst] at hu
      cases hu
      exact ⟨.refl _, .inl rfl⟩
    | none =>
      rw [hfirst] at hu
      obtain ⟨hsame, hcand⟩ := (s.heap r.proxy.pool).pick_spec .zero d.tried random
      exact ⟨hsame, .inr (hcand ref hu)⟩

theorem Current.attempt (h : Current c resolves s) (i : ℕ) (random : ℕ × ℕ) (now : ℤ)
    (outcome : Outcome) : Current c resolves (s.attempt i random now outcome) := by
  have hnone : ∀ {s : Sites}, Current c resolves s → ∀ {r : Inflight}, Served c resolves s r →
      Current c resolves (s.setRequest i { r with dial := none }) := by
    intro s hs r hr
    refine hs.setRequest i (hr.redial ?_)
    intro d ref hd
    cases hd
  unfold Sites.attempt
  split
  next =>
    split
    · exact h
    next r hr => exact hnone h (h.requests i r hr)
  next r d p ref hdials =>
    obtain ⟨hr, -, hsame, -⟩ := dials_spec hdials
    -- the request is served by the pool whatever becomes of the member
    have hserved : ∀ q, (s.heap r.proxy.pool).Same q →
        Current c resolves (s.setPool r.proxy.pool q) ∧
          Served c resolves (s.setPool r.proxy.pool q) r := by
      intro q hq
      have hset := h.setSame _ hq
      exact ⟨hset, hset.requests i r hr⟩
    split
    · obtain ⟨hset, hreq⟩ := hserved _ (hsame.trans (same_dialFailed p ref _ now))
      refine hset.setRequest i (hreq.redial ?_)
      rintro d' u hd hu
      cases hd
      cases hu
    · obtain ⟨hset, hreq⟩ := hserved _ (hsame.trans
        ((same_connected p ref).trans ((same_disconnected _ ref).trans
          (same_dialFailed _ ref _ now))))
      exact hnone hset hreq
    · obtain ⟨hset, hreq⟩ := hserved _ (hsame.trans (same_connected p ref))
      exact hnone hset hreq

theorem Current.upkeep (h : Current c resolves s) (ref member : ℕ) (u : Upkeep) :
    Current c resolves (s.upkeep ref member u) := by
  cases u with
  | passed now => exact h.setSame _ (same_passed _ member now)
  | failed why now => exact h.setSame _ (same_dialFailed _ member why now)
  | closed => exact h.setSame _ (same_disconnected _ member)

/-- The step lemma of the site table: what a reload, a request or an answer preserves. -/
theorem Current.step (h : Current c resolves s) {ev : Event} {s' : Sites} (hfits : ev.Fits s)
    (hstep : Step c resolves s ev s') : Current c resolves s' := by
  cases hstep with
  | mk hwithin =>
    cases ev with
    | apply env domains version => exact h.apply hwithin hfits
    | lookup env i port r => exact h.lookup env i port r
    | sni env i => exact h.sni env i
    | pick env i => exact h.pick env i
    | proxyFor i => exact h.proxyFor i
    | startDial i => exact h.startDial i
    | attempt i random now outcome => exact h.attempt i random now outcome
    | upkeep ref member u => exact h.upkeep ref member u
    | refresh ref answers =>
      exact h.setPool (later_refresh answers _)
        fun hr => (right_refresh hwithin (h.pools ref hr).1).1

end

section

def siteForward (host : String) : EdgePortForward :=
  { listenPort := 443, protocol := .tls, mode := .terminate, targetKind := .targets
    targets := [{ host := host, port := 80 }], backendScheme := .http, enabled := true }

def site (host : String) : EdgeDomain :=
  { domainId := "d", domain := "a.io", kind := .site, enabled := true
    portForwards := [siteForward host] }

def siteConfig : SiteConfig where
  cfg := ⟨"", [], ⟨[], fun _ => none, fun _ => none⟩⟩
  nodeIP := ""
  netip := .plain
  crypto := .plain
  http := .plain

def siteApply (ds : List EdgeDomain) : Event :=
  .apply ⟨fun _ => .error "", fun _ => true, RangeOrder.stored⟩ ds 0

variable {resolves : String → String → Prop} {s : Sites}

theorem siteApply_within (ds : List EdgeDomain) : (siteApply ds).Within resolves := by
  simp [siteApply, Event.Within, Lookup.Within]

def Event.Serves : Event → Prop
  | .apply .. => False
  | .refresh .. => False
  | _ => True

theorem Event.Serves.fits {ev : Event} (h : ev.Serves) : ev.Fits s ∧ ev.Within resolves := by
  cases ev <;> first | exact h.elim | exact ⟨trivial, trivial⟩

end
end Sites
end L8Tunnel.Edge
