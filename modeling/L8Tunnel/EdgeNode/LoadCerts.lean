import L8Tunnel.Base.Run
import L8Tunnel.Certs.Set
import L8Tunnel.EdgeConf.Validate

/-! # Loading the sites' certificates (tun/edgenode/node.go) -/

namespace L8Tunnel.EdgeNode
open Base Certs GoString

abbrev Fetch := String → Except String (List UInt8)

/-- The certificates of the edge and the fingerprints they were loaded with. -/
structure CertNode (γ : Type) where
  certs : CertSet γ := {}
  certFP : GoMap String String := ∅

def hasCert (d : EdgeDomainRow) : Bool := d.kind = .site ∧ d.certFingerprint ≠ ""

def served (d : EdgeDomainRow) : List String :=
  (EdgeConf.names d.toEdgeDomain).map GoString.toLower

namespace CertNode
variable {γ : Type}

def loadRow (tls : Tls γ) (order : RangeOrder) (fetch : Fetch) (s : CertNode γ)
    (d : EdgeDomainRow) : CertNode γ :=
  if hasCert d = false then s
  else if s.certFP.get d.domainId = some d.certFingerprint then s
  else match fetch d.certStoragePath with
    | .error _ => s
    | .ok certPEM =>
      match fetch d.keyStoragePath with
      | .error _ => s
      | .ok keyPEM =>
        match s.certs.put tls order d.domainId certPEM keyPEM
            (EdgeConf.names d.toEdgeDomain) with
        | .error _ => s
        | .ok certs => ⟨certs, s.certFP.set d.domainId d.certFingerprint⟩

def dropUnseen (order : RangeOrder) (seen : List String) (s : CertNode γ) (id : String) :
    CertNode γ :=
  if id ∈ seen then s else ⟨s.certs.remove order id, s.certFP.del id⟩

def loadCerts (tls : Tls γ) (order : RangeOrder) (fetch : Fetch) (rows : List EdgeDomainRow)
    (s : CertNode γ) : CertNode γ :=
  let seen := (rows.filter hasCert).map fun d => d.domainId
  let s := rows.foldl (loadRow tls order fetch) s
  (s.certFP.range order).foldl (dropUnseen order seen) s

end CertNode

def certificateOf {γ : Type} (tls : Tls γ) (fetch : Fetch) (d : EdgeDomainRow) : Except String γ :=
  match fetch d.certStoragePath with
  | .error e => .error e
  | .ok certPEM =>
    match fetch d.keyStoragePath with
    | .error e => .error e
    | .ok keyPEM => tls.keyPair certPEM keyPEM

/-- The node after a call, with the list and the files of that call. -/
structure Loading (γ : Type) where
  node : CertNode γ := {}
  rows : List EdgeDomainRow := []
  fetch : Fetch := fun _ => .error ""

/-- One `loadCerts`: a list of rows, the files and the order of the map loop. -/
structure Call where
  order : RangeOrder
  fetch : Fetch
  rows : List EdgeDomainRow

section
variable {γ : Type} (tls : Tls γ)

/-- What is assumed of a call: no name is that of two rows, and every certificate loads. -/
structure Call.Complete (c : Call) : Prop where
  names : c.rows.Pairwise fun d o => ∀ n ∈ served d, n ∉ served o
  loads : ∀ d ∈ c.rows, hasCert d = true → ∃ pair, certificateOf tls c.fetch d = .ok pair

inductive Load : Loading γ → Call → Loading γ → Prop where
  | mk (s : Loading γ) (c : Call) : c.Complete tls →
      Load s c ⟨s.node.loadCerts tls c.order c.fetch c.rows, c.rows, c.fetch⟩

/-- A site that comes with the fingerprint it had has the names it had, and files
with the certificate they had; and an ID is that of one row. -/
structure Call.Steady (s : Loading γ) (c : Call) : Prop where
  ids : (c.rows.map fun d => d.domainId).Nodup
  same : ∀ d ∈ c.rows, hasCert d = true → ∀ o ∈ s.rows, hasCert o = true →
    o.domainId = d.domainId → o.certFingerprint = d.certFingerprint →
    (∀ n, n ∈ served o ↔ n ∈ served d) ∧ certificateOf tls s.fetch o = certificateOf tls c.fetch d

structure Matches (fetch : Fetch) (l : CertSet.Loaded γ) (d : EdgeDomainRow) : Prop where
  names : ∀ n, n ∈ l.names ↔ n ∈ served d
  cert : certificateOf tls fetch d = .ok l.cert

abbrev Record (γ : Type) := String → Option (CertSet.Loaded γ)

/-- The loop over the rows, with `done` behind it. -/
structure Partly (c : Call) (done : List EdgeDomainRow) (s : CertNode γ) (R : Record γ) : Prop where
  holds : s.certs.Holds R
  owns : ∀ d ∈ c.rows, hasCert d = true → ∀ l, R d.domainId = some l →
    Matches tls c.fetch l d → s.certs.Owns R d.domainId
  done : ∀ d ∈ done, hasCert d = true → s.certFP.get d.domainId = some d.certFingerprint
  same : ∀ d ∈ c.rows, hasCert d = true → s.certFP.get d.domainId = some d.certFingerprint →
    ∃ l, R d.domainId = some l ∧ Matches tls c.fetch l d
  known : ∀ id l, R id = some l → ∃ f, s.certFP.get id = some f

/-- The loop that drops certificates without a row, with `ids` before it. -/
structure Mostly (c : Call) (ids : List String) (s : CertNode γ) (R : Record γ) : Prop where
  holds : s.certs.Holds R
  loaded : ∀ d ∈ c.rows, hasCert d = true → s.certFP.get d.domainId = some d.certFingerprint ∧
    ∃ l, R d.domainId = some l ∧ Matches tls c.fetch l d ∧ s.certs.Owns R d.domainId
  record : ∀ id l, R id = some l → id ∈ ids ∨ ∃ d ∈ c.rows, hasCert d = true ∧ d.domainId = id
  known : ∀ id f, s.certFP.get id = some f →
    id ∈ ids ∨ ∃ d ∈ c.rows, hasCert d = true ∧ d.domainId = id

end

section
variable {γ : Type} {tls : Tls γ} {c : Call} {s : CertNode γ} {R : Record γ}
variable {d o : EdgeDomainRow} {done : List EdgeDomainRow}

theorem loadRow_changed {order : RangeOrder} {fetch : Fetch} {pair : γ} (hcert : hasCert d = true)
    (hnew : s.certFP.get d.domainId ≠ some d.certFingerprint)
    (hpair : certificateOf tls fetch d = .ok pair) :
    s.loadRow tls order fetch d =
      ⟨(s.certs.removeLocked order d.domainId).store d.domainId pair
          (EdgeConf.names d.toEdgeDomain),
        s.certFP.set d.domainId d.certFingerprint⟩ := by
  unfold certificateOf at hpair
  unfold CertNode.loadRow
  rw [if_neg (by simp [hcert]), if_neg hnew]
  cases hc : fetch d.certStoragePath with
  | error e =>
    rw [hc] at hpair
    cases hpair
  | ok certPEM =>
    rw [hc] at hpair
    dsimp only at hpair ⊢
    cases hk : fetch d.keyStoragePath with
    | error e =>
      rw [hk] at hpair
      cases hpair
    | ok keyPEM =>
      rw [hk] at hpair
      dsimp only at hpair ⊢
      unfold CertSet.put
      rw [hpair]

theorem row_of_id (hids : (c.rows.map fun d => d.domainId).Nodup) (hd : d ∈ c.rows)
    (ho : o ∈ c.rows) (heq : o.domainId = d.domainId) : o = d :=
  List.inj_on_of_nodup_map hids ho hd heq

theorem served_disjoint (hc : c.Complete tls) (hd : d ∈ c.rows) (ho : o ∈ c.rows)
    (hne : o.domainId ≠ d.domainId) : ∀ n ∈ served o, n ∉ served d := by
  have hsymm : Std.Symm fun d o : EdgeDomainRow => ∀ n ∈ served d, n ∉ served o :=
    ⟨fun d o h n hn hd => h n hd hn⟩
  have hrows : o ≠ d := fun heq => hne (by rw [heq])
  exact hc.names.forall ho hd hrows

theorem Partly.changed (h : Partly tls c done s R) (hc : c.Complete tls)
    (hdone : ∀ o ∈ done, o ∈ c.rows) (hids : (c.rows.map fun d => d.domainId).Nodup)
    (hd : d ∈ c.rows) (hcert : hasCert d = true)
    (hnew : s.certFP.get d.domainId ≠ some d.certFingerprint) :
    ∃ R', Partly tls c (done ++ [d]) (s.loadRow tls c.order c.fetch d) R' := by
  obtain ⟨pair, hpair⟩ := hc.loads d hd hcert
  have hself : Matches tls c.fetch ⟨served d, pair⟩ d := ⟨fun _ => Iff.rfl, hpair⟩
  rw [loadRow_changed hcert hnew hpair]
  refine ⟨Function.update R d.domainId (some ⟨served d, pair⟩), h.holds.put c.order d.domainId pair _,
    fun o ho hocert l hl hm => ?_, fun o ho hocert => ?_, fun o ho hocert hfp => ?_,
    fun id l hl => ?_⟩
  · by_cases heq : o.domainId = d.domainId
    · rw [heq]
      exact CertSet.owns_put c.order d.domainId pair _
    · rw [Function.update_of_ne heq] at hl
      refine (h.owns o ho hocert l hl hm).put h.holds c.order heq pair _ fun l' hl' n hn => ?_
      rw [hl] at hl'
      cases hl'
      exact served_disjoint hc hd ho heq n ((hm.names n).mp hn)
  · rw [GoMap.get_set_eq_ite]
    rcases List.mem_append.mp ho with ho | ho
    · split
      next heq =>
        cases row_of_id hids hd (hdone o ho) heq
        exact absurd (h.done d ho hocert) hnew
      next => exact h.done o ho hocert
    · cases List.mem_singleton.mp ho
      rw [if_pos rfl]
  · rw [GoMap.get_set_eq_ite] at hfp
    by_cases heq : o.domainId = d.domainId
    · cases row_of_id hids hd ho heq
      exact ⟨_, Function.update_self .., hself⟩
    · rw [if_neg heq] at hfp
      obtain ⟨l, hl, hm⟩ := h.same o ho hocert hfp
      exact ⟨l, by rw [Function.update_of_ne heq]; exact hl, hm⟩
  · rw [GoMap.get_set_eq_ite]
    by_cases heq : id = d.domainId
    · exact ⟨_, if_pos heq⟩
    · rw [Function.update_of_ne heq] at hl
      rw [if_neg heq]
      exact h.known id l hl

theorem Partly.loadRow (h : Partly tls c done s R) (hc : c.Complete tls)
    (hdone : ∀ o ∈ done, o ∈ c.rows) (hids : (c.rows.map fun d => d.domainId).Nodup)
    (hd : d ∈ c.rows) : ∃ R', Partly tls c (done ++ [d]) (s.loadRow tls c.order c.fetch d) R' := by
  by_cases hnew : hasCert d = true ∧ s.certFP.get d.domainId ≠ some d.certFingerprint
  · exact h.changed hc hdone hids hd hnew.1 hnew.2
  · have hskip : s.loadRow tls c.order c.fetch d = s := by
      unfold CertNode.loadRow
      by_cases hcert : hasCert d = true
      · rw [if_neg (by simp [hcert]), if_pos (not_not.mp fun hne => hnew ⟨hcert, hne⟩)]
      · rw [if_pos (by simpa using hcert)]
    rw [hskip]
    refine ⟨R, h.holds, h.owns, fun o ho hocert => ?_, h.same, h.known⟩
    rcases List.mem_append.mp ho with ho | ho
    · exact h.done o ho hocert
    · cases List.mem_singleton.mp ho
      exact not_not.mp fun hne => hnew ⟨hocert, hne⟩

/-- The loop over the rows: `done` have been loaded, `todo` are still to come. -/
theorem Partly.foldl (hc : c.Complete tls) (hids : (c.rows.map fun d => d.domainId).Nodup)
    (todo : List EdgeDomainRow) :
    ∀ {done : List EdgeDomainRow} {s : CertNode γ} {R : Record γ}, Partly tls c done s R →
      (∀ o ∈ done, o ∈ c.rows) → (∀ o ∈ todo, o ∈ c.rows) →
      ∃ R', Partly tls c (done ++ todo) (todo.foldl (CertNode.loadRow tls c.order c.fetch) s) R' := by
  induction todo with
  | nil =>
    intro done s R h _ _
    exact ⟨R, by simpa using h⟩
  | cons d todo ih =>
    intro done s R h hdone htodo
    have hd := htodo d List.mem_cons_self
    obtain ⟨R1, h1⟩ := h.loadRow hc hdone hids hd
    have hsplit : done ++ d :: todo = (done ++ [d]) ++ todo := by simp
    rw [hsplit, List.foldl_cons]
    refine ih h1 (fun o ho => ?_) fun o ho => htodo o (List.mem_cons_of_mem _ ho)
    rcases List.mem_append.mp ho with ho | ho
    · exact hdone o ho
    · cases List.mem_singleton.mp ho
      exact hd

theorem mem_seen (id : String) : id ∈ (c.rows.filter hasCert).map (fun d => d.domainId) ↔
    ∃ d ∈ c.rows, hasCert d = true ∧ d.domainId = id := by
  simp only [List.mem_map, List.mem_filter, and_assoc]

theorem Mostly.dropUnseen {id : String} {ids : List String} (h : Mostly tls c (id :: ids) s R) :
    ∃ R', Mostly tls c ids
      (s.dropUnseen c.order ((c.rows.filter hasCert).map fun d => d.domainId) id) R' := by
  unfold CertNode.dropUnseen
  split
  next hseen =>
    have hrow := (mem_seen id).mp hseen
    refine ⟨R, h.holds, h.loaded, fun k l hl => ?_, fun k f hf => ?_⟩
    · rcases h.record k l hl with hk | hk
      · rcases List.mem_cons.mp hk with rfl | hk
        · exact .inr hrow
        · exact .inl hk
      · exact .inr hk
    · rcases h.known k f hf with hk | hk
      · rcases List.mem_cons.mp hk with rfl | hk
        · exact .inr hrow
        · exact .inl hk
      · exact .inr hk
  next hunseen =>
    have hne : ∀ d ∈ c.rows, hasCert d = true → d.domainId ≠ id := fun d hd hcert heq =>
      hunseen ((mem_seen id).mpr ⟨d, hd, hcert, heq⟩)
    refine ⟨Function.update R id none, h.holds.removeLocked c.order id, fun d hd hcert => ?_,
      fun k l hl => ?_, fun k f hf => ?_⟩
    · obtain ⟨hfp, l, hl, hm, ho⟩ := h.loaded d hd hcert
      refine ⟨(GoMap.get_del_ne _ (hne d hd hcert)).trans hfp, l, ?_, hm,
        ho.removeLocked h.holds c.order (hne d hd hcert)⟩
      rw [Function.update_of_ne (hne d hd hcert)]
      exact hl
    · by_cases hk : k = id
      · subst hk
        rw [Function.update_self] at hl
        cases hl
      · rw [Function.update_of_ne hk] at hl
        exact (h.record k l hl).imp_left fun hmem => (List.mem_cons.mp hmem).resolve_left hk
    · dsimp only at hf
      rw [GoMap.get_del_eq_ite] at hf
      split at hf
      · cases hf
      next hk => exact (h.known k f hf).imp_left fun hmem => (List.mem_cons.mp hmem).resolve_left hk

/-- The loop that drops certificates whose domain is gone, one identifier at a time. -/
theorem Mostly.foldl (ids : List String) :
    ∀ {s : CertNode γ} {R : Record γ}, Mostly tls c ids s R →
      ∃ R', Mostly tls c [] (ids.foldl (CertNode.dropUnseen c.order
        ((c.rows.filter hasCert).map fun d => d.domainId)) s) R' := by
  induction ids with
  | nil => exact fun h => ⟨_, h⟩
  | cons id ids ih =>
    intro s R h
    obtain ⟨R1, h1⟩ := h.dropUnseen
    exact ih h1

/-- After a call: what the set holds is what the rows list. -/
structure Follows (tls : Tls γ) (s : Loading γ) (R : Record γ) : Prop where
  holds : s.node.certs.Holds R
  loaded : ∀ d ∈ s.rows, hasCert d = true →
    s.node.certFP.get d.domainId = some d.certFingerprint ∧
    ∃ l, R d.domainId = some l ∧ Matches tls s.fetch l d ∧ s.node.certs.Owns R d.domainId
  record : ∀ id l, R id = some l → ∃ d ∈ s.rows, hasCert d = true ∧ d.domainId = id
  known : ∀ id f, s.node.certFP.get id = some f →
    ∃ d ∈ s.rows, hasCert d = true ∧ d.domainId = id

theorem follows_start (tls : Tls γ) : Follows tls {} fun _ => none :=
  ⟨CertSet.holds_empty, fun d hd => absurd hd List.not_mem_nil, fun _ _ hl => absurd hl (by simp),
    fun _ _ hf => absurd hf (by simp)⟩

theorem Follows.partly {s : Loading γ} (h : Follows tls s R) (hsteady : c.Steady tls s) :
    Partly tls c [] s.node R := by
  refine ⟨h.holds, fun d hd hcert l hl _ => ?_, fun d hd => absurd hd List.not_mem_nil,
    fun d hd hcert hfp => ?_, fun id l hl => ?_⟩
  · obtain ⟨o, ho, hocert, hid⟩ := h.record d.domainId l hl
    obtain ⟨-, -, -, -, howns⟩ := h.loaded o ho hocert
    rwa [hid] at howns
  · obtain ⟨o, ho, hocert, hid⟩ := h.known d.domainId _ hfp
    obtain ⟨hofp, l, hl, hm, -⟩ := h.loaded o ho hocert
    rw [hid, hfp] at hofp
    obtain ⟨hnames, hcertificate⟩ := hsteady.same d hd hcert o ho hocert hid
      (Option.some.inj hofp).symm
    rw [hid] at hl
    exact ⟨l, hl, fun n => (hm.names n).trans (hnames n), hcertificate ▸ hm.cert⟩
  · obtain ⟨o, ho, hocert, hid⟩ := h.record id l hl
    exact ⟨_, hid ▸ (h.loaded o ho hocert).1⟩

theorem Partly.mostly (h : Partly tls c c.rows s R) : Mostly tls c (s.certFP.range c.order) s R := by
  refine ⟨h.holds, fun d hd hcert => ?_, fun id l hl => .inl ?_, fun id f hf => .inl ?_⟩
  · have hfp := h.done d hd hcert
    obtain ⟨l, hl, hm⟩ := h.same d hd hcert hfp
    exact ⟨hfp, l, hl, hm, h.owns d hd hcert l hl hm⟩
  · exact (GoMap.mem_range _ _ id).mpr (h.known id l hl)
  · exact (GoMap.mem_range _ _ id).mpr ⟨f, hf⟩

/-- One whole load, from the rows to the identifiers dropped at its end. -/
theorem Follows.step {s t : Loading γ} (h : Follows tls s R) (hsteady : c.Steady tls s)
    (hs : Load tls s c t) : ∃ R', Follows tls t R' := by
  obtain ⟨hcomplete⟩ := hs
  obtain ⟨R1, h1⟩ := (h.partly hsteady).foldl hcomplete hsteady.ids c.rows
    (fun o ho => absurd ho List.not_mem_nil) fun o ho => ho
  rw [List.nil_append] at h1
  obtain ⟨R2, h2⟩ := h1.mostly.foldl
  refine ⟨R2, h2.holds, h2.loaded, fun id l hl => ?_, fun id f hf => ?_⟩
  · exact (h2.record id l hl).resolve_left List.not_mem_nil
  · exact (h2.known id f hf).resolve_left List.not_mem_nil

end

def Lists (rows : List EdgeDomainRow) (d : EdgeDomainRow) (name : String) : Prop :=
  d ∈ rows ∧ hasCert d = true ∧ name ∈ served d

theorem Follows.lookup {γ : Type} {tls : Tls γ} {s : Loading γ} {R : Record γ}
    (h : Follows tls s R) {d : EdgeDomainRow} {name : String} (hd : Lists s.rows d name) :
    ∃ cert, s.node.certs.lookup name = some cert ∧ certificateOf tls s.fetch d = .ok cert := by
  obtain ⟨hmem, hcert, hname⟩ := hd
  obtain ⟨-, l, hl, hm, ho⟩ := h.loaded d hmem hcert
  exact ⟨l.cert, h.holds.lookup_some ho hl ((hm.names name).mpr hname), hm.cert⟩

theorem Follows.lookup_none {γ : Type} {tls : Tls γ} {s : Loading γ} {R : Record γ}
    (h : Follows tls s R) {name : String} (hno : ∀ d, ¬ Lists s.rows d name) :
    s.node.certs.lookup name = none := by
  refine h.holds.lookup_none fun id l hl hname => ?_
  obtain ⟨d, hd, hcert, rfl⟩ := h.record id l hl
  obtain ⟨-, l', hl', hm, -⟩ := h.loaded d hd hcert
  rw [hl] at hl'
  cases hl'
  exact hno d ⟨hd, hcert, (hm.names name).mp hname⟩

/-- After every call a host gets the certificate of the site that lists it, else
of the one that lists its wildcard, else none. -/
theorem certificates_follow_domains {γ : Type} {tls : Tls γ} {calls : List Call} {s : Loading γ}
    (hrun : Run (Guarded (fun s c => Call.Steady tls s c) (Load tls)) {} calls s)
    (host name : String) (hname : name = toLower (trimSuffix host ".")) :
    (∀ d, Lists s.rows d name → s.node.certs.getCertificate host = certificateOf tls s.fetch d) ∧
    ((∀ d, ¬ Lists s.rows d name) → ∀ rest, Edge.afterLabel name = some rest →
      ∀ d, Lists s.rows d ("*" ++ rest) →
      s.node.certs.getCertificate host = certificateOf tls s.fetch d) ∧
    ((∀ d, ¬ Lists s.rows d name) →
      (∀ rest, Edge.afterLabel name = some rest → ∀ d, ¬ Lists s.rows d ("*" ++ rest)) →
      s.node.certs.getCertificate host = .error ("no certificate for " ++ quote name)) := by
  obtain ⟨R, h⟩ : ∃ R, Follows tls s R :=
    hrun.invariant (I := fun s => ∃ R, Follows tls s R)
      (fun _ _ _ ⟨_, h⟩ hs => h.step hs.1 hs.2) ⟨_, follows_start tls⟩
  subst hname
  unfold CertSet.getCertificate
  dsimp only
  refine ⟨fun d hd => ?_, fun hno rest hrest d hd => ?_, fun hno hwild => ?_⟩
  · obtain ⟨cert, hlookup, hcert⟩ := h.lookup hd
    rw [hlookup, hcert]
  · obtain ⟨cert, hlookup, hcert⟩ := h.lookup hd
    rw [h.lookup_none hno, hrest, Option.bind_some, hlookup, hcert]
  · have hnone : ((Edge.afterLabel (toLower (trimSuffix host "."))).bind
        fun rest => s.node.certs.lookup ("*" ++ rest)) = none := by
      rw [Option.bind_eq_none_iff]
      exact fun rest hrest => h.lookup_none (hwild rest hrest)
    rw [h.lookup_none hno, hnone]

def plainTls : Tls (List UInt8) := ⟨fun certPEM _ => .ok certPEM⟩
def plainFetch : Fetch := fun path => .ok (Bytes.ofString path)

def certSite (id name : String) (aliases : List String) (fingerprint : String) : EdgeDomainRow :=
  { domainId := id, domain := name, aliases := aliases, kind := .site
    certStoragePath := fingerprint, keyStoragePath := "k", certFingerprint := fingerprint }

def certCall (rows : List EdgeDomainRow) : Call := ⟨RangeOrder.stored, plainFetch, rows⟩

def certLoaded (s : Loading (List UInt8)) (rows : List EdgeDomainRow) : Loading (List UInt8) :=
  ⟨s.node.loadCerts plainTls RangeOrder.stored plainFetch rows, rows, plainFetch⟩

theorem load_certCall (s : Loading (List UInt8)) {rows : List EdgeDomainRow}
    (hnames : rows.Pairwise fun d o => ∀ n ∈ served d, n ∉ served o) :
    Load plainTls s (certCall rows) (certLoaded s rows) :=
  .mk s (certCall rows) ⟨hnames, fun _ _ _ => ⟨_, rfl⟩⟩

theorem steady_certCall (s : Loading (List UInt8)) {rows rows' : List EdgeDomainRow}
    (hids : (rows'.map fun d => d.domainId).Nodup)
    (hsame : ∀ d ∈ rows', ∀ o ∈ rows, o.domainId = d.domainId →
      o.certFingerprint = d.certFingerprint → o = d) :
    (certCall rows').Steady plainTls (certLoaded s rows) := by
  refine ⟨hids, fun d hd _ o ho _ hid hfp => ?_⟩
  rw [hsame d hd o ho hid hfp]
  exact ⟨fun _ => Iff.rfl, rfl⟩

def siteRows : List EdgeDomainRow := [certSite "d" "a.io" ["b.io"] "f", certSite "e" "c.io" [] "g"]

/-- The name b.io goes from the first site to the second, each with a new certificate. -/
def movedRows : List EdgeDomainRow :=
  [certSite "d" "a.io" [] "f2", certSite "e" "c.io" ["b.io"] "g2"]

def certMoved : Loading (List UInt8) :=
  certLoaded (certLoaded (certLoaded {} siteRows) siteRows.reverse) movedRows

theorem certificates_follow_domains_moved :
    certMoved.node.certs.getCertificate "a.io" = .ok (Bytes.ofString "f2") ∧
    certMoved.node.certs.getCertificate "b.io" = .ok (Bytes.ofString "g2") ∧
    certMoved.node.certs.getCertificate "d.io" =
      .error ("no certificate for " ++ quote "d.io") := by
  have hfirst : (certCall siteRows).Steady plainTls {} :=
    ⟨by decide, fun d _ _ o ho => absurd ho List.not_mem_nil⟩
  -- the second call has the rows of the first, so that every fingerprint is known
  have hagain : (certCall siteRows.reverse).Steady plainTls (certLoaded {} siteRows) := by
    refine steady_certCall {} (by decide) ?_
    simp [siteRows, certSite]
  have hmoved : (certCall movedRows).Steady plainTls
      (certLoaded (certLoaded {} siteRows) siteRows.reverse) := by
    refine steady_certCall _ (by decide) ?_
    simp [siteRows, movedRows, certSite]
  have hrun : Run (Guarded (fun s c => Call.Steady plainTls s c) (Load plainTls)) {}
      [certCall siteRows, certCall siteRows.reverse, certCall movedRows] certMoved :=
    .cons ⟨hfirst, load_certCall _ (by decide)⟩ (.cons ⟨hagain, load_certCall _ (by decide)⟩
      (.cons ⟨hmoved, load_certCall _ (by decide)⟩ (.nil _)))
  have hserved : ∀ {name d}, Lists movedRows d name → name ∈ ["a.io", "c.io", "b.io"] := by
    rintro name d ⟨hd, -, hname⟩
    exact List.mem_flatMap.mpr ⟨d, hd, hname⟩
  refine ⟨(certificates_follow_domains hrun "a.io" "a.io" rfl).1 _
      ⟨List.mem_cons_self, rfl, List.mem_cons_self⟩,
    (certificates_follow_domains hrun "b.io" "b.io" rfl).1 _
      ⟨List.mem_cons_of_mem _ List.mem_cons_self, rfl, List.mem_cons_of_mem _ List.mem_cons_self⟩,
    (certificates_follow_domains hrun "d.io" "d.io" rfl).2.2
      (fun d hd => absurd (hserved hd) (by decide)) fun rest hrest d hd => ?_⟩
  cases hrest
  exact absurd (hserved hd) (by decide)

/-- A name that a site gets while its certificate stays gets no certificate. -/
theorem new_name_without_certificate :
    ¬ ∀ (γ : Type) (tls : Tls γ) (calls : List Call) (s : Loading γ), Run (Load tls) {} calls s →
      ∀ host name, name = toLower (trimSuffix host ".") →
      (∀ d, Lists s.rows d name → s.node.certs.getCertificate host = certificateOf tls s.fetch d) ∧
      ((∀ d, ¬ Lists s.rows d name) → ∀ rest, Edge.afterLabel name = some rest →
        ∀ d, Lists s.rows d ("*" ++ rest) →
        s.node.certs.getCertificate host = certificateOf tls s.fetch d) ∧
      ((∀ d, ¬ Lists s.rows d name) →
        (∀ rest, Edge.afterLabel name = some rest → ∀ d, ¬ Lists s.rows d ("*" ++ rest)) →
        s.node.certs.getCertificate host =
          .error ("no certificate for " ++ quote name)) := by
  intro h
  let before := [certSite "d" "a.io" [] "f"]
  let after := [certSite "d" "a.io" ["b.io"] "f"]
  have hrun : Run (Load plainTls) {} [certCall before, certCall after]
      (certLoaded (certLoaded {} before) after) :=
    .cons (load_certCall {} (List.pairwise_singleton _ _))
      (.cons (load_certCall _ (List.pairwise_singleton _ _)) (.nil _))
  have hlists : Lists (certLoaded (certLoaded {} before) after).rows
      (certSite "d" "a.io" ["b.io"] "f") "b.io" :=
    ⟨List.mem_cons_self, rfl, List.mem_cons_of_mem _ List.mem_cons_self⟩
  have hget := (h _ _ _ _ hrun "b.io" "b.io" rfl).1 _ hlists
  have herror : (certLoaded (certLoaded {} before) after).node.certs.getCertificate "b.io" =
      .error ("no certificate for " ++ quote "b.io") := rfl
  rw [herror] at hget
  cases hget

end L8Tunnel.EdgeNode
