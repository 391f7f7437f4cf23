import L8Tunnel.Edge.TunnelBase
import L8Tunnel.EdgeConf.Stored

/-! # Storing edge domains with their certificates
(EdgeDomainServiceCallback.go, edgeconf/certs.go) -/

namespace L8Tunnel.EdgeConf
open Base

structure Leaf where
  subject : String := ""
  dnsNames : List String := []
  issuer : String := ""
  notBefore : ℤ := 0
  notAfter : ℤ := 0

/-- crypto/x509, as a parameter. -/
structure X509 where
  keyPair : List UInt8 → List UInt8 → Except String (List UInt8)
  parse : List UInt8 → Except String Leaf
  fingerprint : List UInt8 → String
  verifyHostname : Leaf → String → Bool
  equalFold : String → String → Bool
  dateOnly : ℤ → String

structure CertSummary where
  subject : String
  sans : List String
  issuer : String
  notAfter : ℤ
  fingerprint : String
  status : EdgeCertStatus
  problem : String := ""

def expiringWithin : ℤ := 2592000000000000

def covers (x : X509) (leaf : Leaf) (name : String) : Bool :=
  if (GoString.cutPrefix name "*.").isSome then leaf.dnsNames.any fun san => x.equalFold san name
  else x.verifyHostname leaf name

def statusOf (x : X509) (leaf : Leaf) (names : List String) (now : ℤ) : EdgeCertStatus × String :=
  match names.find? fun n => covers x leaf n = false with
  | some n => (.mismatch, "the certificate doesn't cover " ++ n)
  | none =>
    if leaf.notAfter < now then (.expired, "the certificate expired on " ++ x.dateOnly leaf.notAfter)
    else if now < leaf.notBefore then
      (.mismatch, "the certificate isn't valid before " ++ x.dateOnly leaf.notBefore)
    else if leaf.notAfter - now < expiringWithin then (.expiring, "")
    else (.valid, "")

def summarizeCert (x : X509) (certPEM keyPEM : List UInt8) (names : List String) (now : ℤ) :
    Except String CertSummary :=
  match x.keyPair certPEM keyPEM with
  | .error e => .error ("the certificate and key don't form a valid pair: " ++ e)
  | .ok raw =>
    match x.parse raw with
    | .error e => .error ("parse the certificate: " ++ e)
    | .ok leaf =>
      let status := statusOf x leaf names now
      .ok ⟨leaf.subject, leaf.dnsNames, leaf.issuer, leaf.notAfter, x.fingerprint raw, status.1,
        status.2⟩

def setSummary (d : EdgeDomainRow) : Option CertSummary → EdgeDomainRow
  | none =>
    { d with
      certSubject := "", certSans := [], certIssuer := "", certNotAfter := 0
      certFingerprint := "", certStatus := .missing }
  | some s =>
    { d with
      certSubject := s.subject, certSans := s.sans, certIssuer := s.issuer
      certNotAfter := s.notAfter / 1000000000, certFingerprint := s.fingerprint
      certStatus := s.status }

def copySummary (d source : EdgeDomainRow) : EdgeDomainRow :=
  { d with
    certSubject := source.certSubject, certSans := source.certSans
    certIssuer := source.certIssuer, certNotAfter := source.certNotAfter
    certFingerprint := source.certFingerprint, certStatus := source.certStatus }

/-- A PATCH: lists that are absent stay. -/
structure DomainPatch where
  row : EdgeDomainRow
  aliases : Option (List String) := none
  allowIps : Option (List String) := none
  denyIps : Option (List String) := none
  portForwards : Option (List EdgePortForward) := none

inductive Request where
  | post (d : EdgeDomainRow)
  | put (d : EdgeDomainRow)
  | patch (p : DomainPatch)

/-- What a request meets: the clock, the files and the identifiers it is given. -/
structure Moment where
  now : ℤ
  fetch : String → Except String (List UInt8)
  domainID : String
  forwardID : ℕ → String

structure Service where
  lib : Library
  x509 : X509
  cluster : Config.ClusterFile

def orText (patch old : String) : String := if patch = "" then old else patch
def orInt (patch old : ℤ) : ℤ := if patch = 0 then old else patch

def mergePatch (existing : EdgeDomainRow) (p : DomainPatch) : EdgeDomainRow where
  domainId := orText p.row.domainId existing.domainId
  domain := orText p.row.domain existing.domain
  aliases := p.aliases.getD existing.aliases
  kind := if p.row.kind = .unspecified then existing.kind else p.row.kind
  enabled := p.row.enabled || existing.enabled
  allowIps := p.allowIps.getD existing.allowIps
  denyIps := p.denyIps.getD existing.denyIps
  certStatus := if p.row.certStatus = .unspecified then existing.certStatus else p.row.certStatus
  portForwards := p.portForwards.getD existing.portForwards
  certStoragePath := orText p.row.certStoragePath existing.certStoragePath
  keyStoragePath := orText p.row.keyStoragePath existing.keyStoragePath
  certSubject := orText p.row.certSubject existing.certSubject
  certSans := existing.certSans ++ p.row.certSans
  certIssuer := orText p.row.certIssuer existing.certIssuer
  certNotAfter := orInt p.row.certNotAfter existing.certNotAfter
  certFingerprint := orText p.row.certFingerprint existing.certFingerprint
  configVersion := orInt p.row.configVersion existing.configVersion

def protectTunnelBase (cluster : Config.ClusterFile) (d : EdgeDomainRow) (existing : Option EdgeDomainRow) :
    Except String EdgeDomainRow :=
  if existing.any fun o => (decide (o.kind = .tunnelBase)) != (decide (d.kind = .tunnelBase)) then
    .error "a domain's kind can't change"
  else if d.kind ≠ .tunnelBase then .ok d
  else .ok { d with
    domain := cluster.baseDomain
    aliases := ["*." ++ cluster.baseDomain]
    portForwards := Edge.tunnelBaseForwards cluster }

def targetKindFromTargets (f : EdgePortForward) : EdgePortForward :=
  match f.targetKind with
  | .unspecified | .nodeLocal | .targets =>
    { f with targetKind := if f.targets ≠ [] then .targets else .nodeLocal }
  | _ => f

def defaultForward (m : Moment) (fi : EdgePortForward × ℕ) : EdgePortForward :=
  let f := targetKindFromTargets fi.1
  if f.forwardId ≠ "" then f
  else
    { f with
      forwardId := m.forwardID fi.2, enabled := true
      mode := if f.mode = .unspecified then .passthrough else f.mode }

def defaultNewForwards (m : Moment) (d : EdgeDomainRow) : EdgeDomainRow :=
  { d with portForwards := d.portForwards.zipIdx.map (defaultForward m) }

def coversTunnels (base n : String) : Bool :=
  (GoString.cutPrefix n "*.").isSome && (n = "*." ++ base || (GoString.cutSuffix n ("." ++ base)).isSome)

def normalizeRow (d : EdgeDomainRow) : Except String EdgeDomainRow :=
  (normalizeNames d.toEdgeDomain).map fun e => { d with toEdgeDomain := e }

def requested (m : Moment) : Request → EdgeDomainRow
  | .post d => { d with domainId := if d.domainId = "" then m.domainID else d.domainId }
  | .put d => d
  | .patch p => p.row

def existingOf (all : List EdgeDomainRow) (id : String) : Option EdgeDomainRow :=
  all.reverse.find? fun o => o.domainId = id

def merged (m : Moment) (all : List EdgeDomainRow) (req : Request) :
    Except String (EdgeDomainRow × Option EdgeDomainRow) :=
  let d := requested m req
  match existingOf all d.domainId, req with
  | none, .put _ | none, .patch _ => .error ("edge domain " ++ d.domainId ++ " doesn't exist")
  | some o, .patch p => .ok (mergePatch o p, some o)
  | o, _ => .ok (d, o)

def prepare (sv : Service) (m : Moment) (all : List EdgeDomainRow) (req : Request) :
    Except String (EdgeDomainRow × Option EdgeDomainRow) := do
  let (d, existing) ← merged m all req
  let d : EdgeDomainRow := if d.kind = .unspecified then { d with kind := .site } else d
  let d ← protectTunnelBase sv.cluster d existing
  let d ← normalizeRow d
  match if d.kind = .site then (names d.toEdgeDomain).find? (coversTunnels sv.cluster.baseDomain)
      else none with
  | some n => .error (n ++ " would cover tunnel names; list the site names under " ++
      sv.cluster.baseDomain ++ " one by one")
  | none => .ok (if d.kind = .site then defaultNewForwards m d else d, existing)

def unchanged (d : EdgeDomainRow) (existing : Option EdgeDomainRow) : Option EdgeDomainRow :=
  existing.filter fun o => d.certStoragePath = o.certStoragePath ∧
    d.keyStoragePath = o.keyStoragePath ∧ o.certFingerprint ≠ ""

def checkCertificate (x : X509) (m : Moment) (d : EdgeDomainRow) (existing : Option EdgeDomainRow) :
    Except String EdgeDomainRow :=
  if d.certStoragePath = "" ∧ d.keyStoragePath = "" then .ok (setSummary d none)
  else if d.certStoragePath = "" ∨ d.keyStoragePath = "" then
    .error "upload both the certificate chain and its private key"
  else match unchanged d existing with
    | some o => .ok (copySummary d o)
    | none => do
      let certPEM ← m.fetch d.certStoragePath
      let keyPEM ← m.fetch d.keyStoragePath
      let sum ← summarizeCert x certPEM keyPEM (names d.toEdgeDomain) m.now
      if sum.status = .mismatch ∨ sum.status = .expired then .error sum.problem
      else .ok (setSummary d (some sum))

def validate (sv : Service) (m : Moment) (all : List EdgeDomainRow) (req : Request) :
    Except String EdgeDomainRow := do
  let (d, existing) ← prepare sv m all req
  let d ← checkCertificate sv.x509 m d existing
  let e ← validateDomain sv.lib d.toEdgeDomain (all.map EdgeDomainRow.toEdgeDomain)
    sv.cluster.baseDomain
  return { d with toEdgeDomain := e, configVersion := m.now }

def leafOf (x : X509) (certPEM keyPEM : List UInt8) : Except String Leaf :=
  match x.keyPair certPEM keyPEM with
  | .error e => .error e
  | .ok raw => x.parse raw

def Fit (status : EdgeCertStatus) : Prop := status = .valid ∨ status = .expiring

def Certifies (x : X509) (files : String → List UInt8) (d : EdgeDomainRow) (n : String) : Prop :=
  ∃ leaf, leafOf x (files d.certStoragePath) (files d.keyStoragePath) = .ok leaf ∧
    covers x leaf n = true

/-- The files of a row hold a key pair whose certificate is for all its names. -/
structure Certified (x : X509) (files : String → List UInt8) (d : EdgeDomainRow) : Prop where
  pair : ∃ leaf, leafOf x (files d.certStoragePath) (files d.keyStoragePath) = .ok leaf
  names : ∀ n ∈ names d.toEdgeDomain, Certifies x files d n

inductive Change where
  | store (m : Moment) (req : Request)
  | delete (id : String)

/-- The stored rows change by accepted requests and deletions, in any row order. -/
inductive Accept (sv : Service) (files : String → List UInt8) :
    List EdgeDomainRow → Change → List EdgeDomainRow → Prop where
  | store {all all' : List EdgeDomainRow} {m : Moment} {req : Request} {d : EdgeDomainRow} :
      (∀ path data, m.fetch path = .ok data → files path = data) →
      validate sv m all req = .ok d →
      all'.Perm (d :: all.filter fun o => o.domainId ≠ d.domainId) →
      Accept sv files all (.store m req) all'
  | delete {all all' : List EdgeDomainRow} {id : String} :
      all'.Perm (all.filter fun o => o.domainId ≠ id) → Accept sv files all (.delete id) all'

/-- A request that leaves a site's good certificate where it is asks for no name
that the certificate does not cover. -/
def Change.Covering (sv : Service) (files : String → List UInt8) (all : List EdgeDomainRow) :
    Change → Prop
  | .store m req => ∀ d o, merged m all req = .ok (d, some o) → o.kind ≠ .tunnelBase →
      Fit o.certStatus → d.certStoragePath = o.certStoragePath →
      d.keyStoragePath = o.keyStoragePath →
      ∀ s ∈ names d.toEdgeDomain, ∀ n, normalizeName s = .ok n → n ∉ names o.toEdgeDomain →
        Certifies sv.x509 files o n
  | .delete _ => True

variable {all : List EdgeDomainRow} {o d' r : EdgeDomainRow} {m : Moment} {req : Request}
  {d e : EdgeDomain} {sv : Service} {existing : Option EdgeDomainRow} {x : X509} {ns : List String}
  {now : ℤ} {files : String → List UInt8} {pf : EdgePortForward} {lib : Library}

theorem existingOf_mem {id : String} (h : existingOf all id = some o) : o ∈ all :=
  List.mem_reverse.mp (List.mem_of_find?_eq_some h)

theorem merged_mem {d : EdgeDomainRow} (h : merged m all req = .ok (d, some o)) : o ∈ all := by
  unfold merged at h
  dsimp only at h
  split at h
  · cases h
  · cases h
  next hex =>
    cases h
    exact existingOf_mem hex
  next =>
    obtain ⟨-, hex⟩ := Prod.mk.inj (Except.ok.inj h)
    exact existingOf_mem hex

def baseNames (sv : Service) : List String := [sv.cluster.baseDomain, "*." ++ sv.cluster.baseDomain]

structure Prepared (sv : Service) (d : EdgeDomainRow) (existing : Option EdgeDomainRow)
    (d' : EdgeDomainRow) : Prop where
  cert : d'.certStoragePath = d.certStoragePath
  key : d'.keyStoragePath = d.keyStoragePath
  kind : ∀ o, existing = some o → (o.kind = .tunnelBase ↔ d'.kind = .tunnelBase)
  site : d'.kind ≠ .tunnelBase → (names d.toEdgeDomain).mapM normalizeName = .ok (names d'.toEdgeDomain)
  base : d'.kind = .tunnelBase → (baseNames sv).mapM normalizeName = .ok (names d'.toEdgeDomain)

theorem Prepared.of_protect {d : EdgeDomainRow}
    (h : protectTunnelBase sv.cluster d existing = .ok d')
    (hnorm : normalizeNames d'.toEdgeDomain = .ok e) :
    Prepared sv d existing { d' with toEdgeDomain := e } := by
  obtain ⟨hmap, he⟩ := normalizeNames_mapM hnorm
  have hkind : e.kind = d'.kind := by rw [he]
  unfold protectTunnelBase at h
  split at h
  · cases h
  next hsame =>
    have hex : ∀ o, existing = some o → (o.kind = .tunnelBase ↔ d.kind = .tunnelBase) := by
      rintro o rfl
      simpa using hsame
    split at h
    next hsite =>
      cases h
      refine ⟨rfl, rfl, fun o ho => ?_, fun _ => hmap, fun hbase => absurd (hkind ▸ hbase) hsite⟩
      rw [hkind]
      exact hex o ho
    next hbase =>
      cases h
      refine ⟨rfl, rfl, fun o ho => ?_, fun hsite => absurd ?_ hsite, fun _ => hmap⟩
      · rw [hkind]
        exact hex o ho
      · exact hkind.trans (not_not.mp hbase)

theorem prepare_ok (h : prepare sv m all req = .ok (d', existing)) :
    (∃ d, merged m all req = .ok (d, existing) ∧ Prepared sv d existing d') ∧
      ∀ n ∈ names d'.toEdgeDomain, normalizeName n = .ok n := by
  unfold prepare at h
  obtain ⟨⟨d, ex⟩, hmerged, h⟩ := bind_eq_ok.mp h
  dsimp only at h
  obtain ⟨d1, hprotect, h⟩ := bind_eq_ok.mp h
  obtain ⟨d2, hrow, h⟩ := bind_eq_ok.mp h
  unfold normalizeRow at hrow
  cases hnorm : normalizeNames d1.toEdgeDomain with
  | error e =>
    rw [hnorm] at hrow
    cases hrow
  | ok e =>
    rw [hnorm] at hrow
    cases hrow
    have hprep := Prepared.of_protect hprotect hnorm
    have hnormal := fun n hn => ((normalizeNames_ok hnorm).2 n hn).1
    have hmerged' : Prepared sv d ex { d1 with toEdgeDomain := e } := by
      split at hprep
      · exact ⟨hprep.cert, hprep.key, hprep.kind, hprep.site, hprep.base⟩
      · exact hprep
    split at h
    · cases h
    · cases h
      -- The defaults of a site's forwards touch neither names nor files.
      split
      · exact ⟨⟨d, hmerged, hmerged'.cert, hmerged'.key, hmerged'.kind, hmerged'.site,
          hmerged'.base⟩, hnormal⟩
      · exact ⟨⟨d, hmerged, hmerged'⟩, hnormal⟩

theorem statusOf_fit {leaf : Leaf} (h : Fit (statusOf x leaf ns now).1) :
    ∀ n ∈ ns, covers x leaf n = true := by
  unfold statusOf at h
  split at h
  · rcases h with h | h <;> cases h
  next hnone =>
    intro n hn
    simpa using List.find?_eq_none.mp hnone n hn

theorem summarizeCert_ok {certPEM keyPEM : List UInt8} {sum : CertSummary}
    (h : summarizeCert x certPEM keyPEM ns now = .ok sum) (hfit : Fit sum.status) :
    ∃ leaf, leafOf x certPEM keyPEM = .ok leaf ∧ ∀ n ∈ ns, covers x leaf n = true := by
  unfold summarizeCert at h
  unfold leafOf
  cases hpair : x.keyPair certPEM keyPEM with
  | error e =>
    rw [hpair] at h
    cases h
  | ok raw =>
    rw [hpair] at h
    dsimp only at h ⊢
    cases hparse : x.parse raw with
    | error e =>
      rw [hparse] at h
      cases h
    | ok leaf =>
      rw [hparse] at h
      cases h
      exact ⟨leaf, rfl, statusOf_fit hfit⟩

structure Resummarized (d r : EdgeDomainRow) : Prop where
  names : names r.toEdgeDomain = names d.toEdgeDomain
  kind : r.kind = d.kind
  cert : r.certStoragePath = d.certStoragePath
  key : r.keyStoragePath = d.keyStoragePath

theorem checkCertificate_ok {d : EdgeDomainRow}
    (hfiles : ∀ path data, m.fetch path = .ok data → files path = data)
    (h : checkCertificate x m d existing = .ok r) :
    Resummarized d r ∧ (Fit r.certStatus → Certified x files r ∨
      ∃ o, existing = some o ∧ d.certStoragePath = o.certStoragePath ∧
        d.keyStoragePath = o.keyStoragePath ∧ Fit o.certStatus) := by
  unfold checkCertificate at h
  split at h
  · cases h
    refine ⟨⟨rfl, rfl, rfl, rfl⟩, ?_⟩
    rintro (hfit | hfit) <;> cases hfit
  split at h
  · cases h
  split at h
  next o hun =>
    cases h
    obtain ⟨hex, hsame⟩ := Option.filter_eq_some_iff.mp hun
    obtain ⟨hcert, hkey, -⟩ := of_decide_eq_true hsame
    exact ⟨⟨rfl, rfl, rfl, rfl⟩, fun hfit => .inr ⟨o, hex, hcert, hkey, hfit⟩⟩
  next =>
    obtain ⟨certPEM, hcert, h⟩ := bind_eq_ok.mp h
    obtain ⟨keyPEM, hkey, h⟩ := bind_eq_ok.mp h
    obtain ⟨sum, hsum, h⟩ := bind_eq_ok.mp h
    split at h
    · cases h
    · cases h
      refine ⟨⟨rfl, rfl, rfl, rfl⟩, fun hfit => .inl ?_⟩
      obtain ⟨leaf, hleaf, hnames⟩ := summarizeCert_ok hsum hfit
      rw [← hfiles _ _ hcert, ← hfiles _ _ hkey] at hleaf
      exact ⟨⟨leaf, hleaf⟩, fun n hn => ⟨leaf, hleaf, hnames n hn⟩⟩

theorem normalizeNames_normal (h : normalizeNames d = .ok e)
    (hnormal : ∀ n ∈ names d, normalizeName n = .ok n) : e = d := by
  obtain ⟨hmap, he⟩ := normalizeNames_mapM h
  rw [mapM_fixed hnormal] at hmap
  have hnames : names d = names e := Except.ok.inj hmap
  have hdomain : d.domain = e.domain := (List.cons.inj hnames).1
  have haliases : d.aliases = e.aliases := (List.cons.inj hnames).2
  rw [he, ← hdomain, ← haliases]

theorem checkMode_terminate (h : checkMode d pf = none) (hmode : pf.mode = .terminate) :
    Fit d.certStatus := by
  unfold checkMode at h
  rw [hmode] at h
  dsimp only at h
  split at h
  · cases h
  split at h
  · cases h
  next hstatus =>
    by_cases hvalid : d.certStatus = .valid
    · exact .inl hvalid
    · exact .inr (not_not.mp fun hne => hstatus ⟨hvalid, hne⟩)

theorem checkForward_terminate (h : checkForward lib d pf = none) (hmode : pf.mode = .terminate) :
    Fit d.certStatus := by
  unfold checkForward at h
  split at h
  · cases h
  split at h
  · cases h
  split at h
  · cases h
  exact checkMode_terminate (Option.or_eq_none_iff.mp h).1 hmode

theorem validateDomain_normal {others : List EdgeDomain} {base : String}
    (h : validateDomain lib d others base = .ok e)
    (hnormal : ∀ n ∈ names d, normalizeName n = .ok n) :
    e = d ∧ ∀ f ∈ d.portForwards, f.mode = .terminate → Fit d.certStatus := by
  unfold validateDomain at h
  split at h
  · cases h
  next d' hnorm =>
    cases normalizeNames_normal hnorm hnormal
    split at h
    · cases h
    next hcheck =>
      cases h
      refine ⟨rfl, fun f hf hmode => ?_⟩
      simp only [checkDomain, Option.or_eq_none_iff] at hcheck
      obtain ⟨-, -, -, -, hforwards, -⟩ := hcheck
      obtain ⟨i, hi⟩ := List.mem_iff_getElem?.mp hf
      have hmem : (f, i) ∈ d.portForwards.zipIdx := List.mem_zipIdx_iff_getElem?.mpr hi
      have hnone := List.findSome?_eq_none_iff.mp hforwards (f, i) hmem
      exact checkForward_terminate (Option.map_eq_none_iff.mp hnone) hmode

structure Backed (sv : Service) (files : String → List UInt8) (d : EdgeDomainRow) : Prop where
  certified : Fit d.certStatus → Certified sv.x509 files d
  terminate : ∀ f ∈ d.portForwards, f.mode = .terminate → Fit d.certStatus
  base : d.kind = .tunnelBase → (baseNames sv).mapM normalizeName = .ok (names d.toEdgeDomain)

theorem certified_carried {d : EdgeDomainRow} (hcov : Change.Covering sv files all (.store m req))
    (hmerged : merged m all req = .ok (d, some o)) (hprep : Prepared sv d (some o) d')
    (hre : Resummarized d' r) (ho : Backed sv files o) (hfit : Fit o.certStatus)
    (hcert : d'.certStoragePath = o.certStoragePath) (hkey : d'.keyStoragePath = o.keyStoragePath) :
    Certified sv.x509 files r := by
  have hcertified := ho.certified hfit
  have hsame : ∀ n, Certifies sv.x509 files o n → Certifies sv.x509 files r n := by
    intro n hn
    unfold Certifies
    rw [hre.cert, hre.key, hcert, hkey]
    exact hn
  refine ⟨?_, fun n hn => hsame n ?_⟩
  · rw [hre.cert, hre.key, hcert, hkey]
    exact hcertified.pair
  rw [hre.names] at hn
  by_cases hold : n ∈ names o.toEdgeDomain
  · exact hcertified.names n hold
  by_cases hkind : o.kind = .tunnelBase
  · -- The base row always has the names of the cluster's file.
    have hnew := hprep.base ((hprep.kind o rfl).mp hkind)
    rw [ho.base hkind] at hnew
    exact absurd (Except.ok.inj hnew ▸ hn) hold
  · have hsite := hprep.site fun hbase => hkind ((hprep.kind o rfl).mpr hbase)
    obtain ⟨s, hs, hsn⟩ := exists_of_mapM_eq_ok hsite hn
    exact hcov d o hmerged hkind hfit (hprep.cert.symm.trans hcert) (hprep.key.symm.trans hkey) s hs n
      hsn hold

theorem validate_backed (hfiles : ∀ path data, m.fetch path = .ok data → files path = data)
    (hcov : Change.Covering sv files all (.store m req)) (hall : ∀ o ∈ all, Backed sv files o)
    (h : validate sv m all req = .ok r) : Backed sv files r := by
  unfold validate at h
  obtain ⟨⟨d', existing⟩, hprepare, h⟩ := bind_eq_ok.mp h
  dsimp only at h
  obtain ⟨r', hcheck, h⟩ := bind_eq_ok.mp h
  obtain ⟨e, hvalid, h⟩ := bind_eq_ok.mp h
  obtain ⟨⟨d, hmerged, hprep⟩, hnormal⟩ := prepare_ok hprepare
  obtain ⟨hre, hfit⟩ := checkCertificate_ok hfiles hcheck
  obtain ⟨he, hterminate⟩ := validateDomain_normal hvalid (hre.names ▸ hnormal)
  have hcertified : Fit r'.certStatus → Certified sv.x509 files r' := by
    intro hgood
    rcases hfit hgood with hnew | ⟨o, rfl, hcert, hkey, hold⟩
    · exact hnew
    · exact certified_carried hcov hmerged hprep hre (hall o (merged_mem hmerged)) hold hcert hkey
  cases h
  cases he
  refine ⟨fun hgood => ?_, hterminate, fun hbase => ?_⟩
  · obtain ⟨hpair, hnames⟩ := hcertified hgood
    exact ⟨hpair, hnames⟩
  · rw [hre.kind] at hbase
    show _ = Except.ok (names r'.toEdgeDomain)
    rw [hre.names]
    exact hprep.base hbase

theorem Accept.backed {all' : List EdgeDomainRow} {c : Change} (h : Accept sv files all c all')
    (hcov : c.Covering sv files all) (hall : ∀ o ∈ all, Backed sv files o) :
    ∀ o ∈ all', Backed sv files o := by
  cases h with
  | store hfiles hvalid hperm =>
    intro o ho
    rcases List.mem_cons.mp (hperm.mem_iff.mp ho) with rfl | ho
    · exact validate_backed hfiles hcov hall hvalid
    · exact hall o (List.mem_of_mem_filter ho)
  | delete hperm => exact fun o ho => hall o (List.mem_of_mem_filter (hperm.mem_iff.mp ho))

/-- As long as no request gives a site with a good certificate a name that the
certificate does not cover, every stored certificate covers the names of its
domain. -/
theorem stored_certificate_covers (sv : Service) (files : String → List UInt8) {cs : List Change}
    {all : List EdgeDomainRow}
    (h : Run (Guarded (fun s c => c.Covering sv files s) (Accept sv files)) [] cs all) :
    ∀ d ∈ all, (Fit d.certStatus → Certified sv.x509 files d) ∧
      ((∃ f ∈ d.portForwards, f.mode = .terminate) → Certified sv.x509 files d) := by
  have hbacked : ∀ d ∈ all, Backed sv files d :=
    h.invariant (I := fun all => ∀ d ∈ all, Backed sv files d)
      (fun _ _ _ hall hstep => hstep.2.backed hstep.1 hall) fun d hd => absurd hd List.not_mem_nil
  intro d hd
  obtain ⟨hcertified, hterminate, -⟩ := hbacked d hd
  exact ⟨hcertified, fun ⟨f, hf, hmode⟩ => hcertified (hterminate f hf hmode)⟩

def twoNames : X509 where
  keyPair cert _ := .ok cert
  parse _ := .ok { dnsNames := ["a.io", "www.a.io"], notAfter := 9000000000000000 }
  fingerprint _ := "c1"
  verifyHostname leaf name := leaf.dnsNames.contains name
  equalFold a b := a == b
  dateOnly _ := ""

def twoNamesService : Service := ⟨plainLibrary, twoNames, { baseDomain := "x.io" }⟩
def uploads : String → List UInt8 := fun _ => [1]
def uploaded : Moment := ⟨1, fun path => .ok (uploads path), "d2", fun _ => "f2"⟩

def terminated : EdgeDomainRow :=
  { domainId := "d1", domain := "a.io", kind := .site, enabled := true
    portForwards := [{ tlsForward with forwardId := "f1", mode := .terminate }]
    certStoragePath := "c", keyStoragePath := "k" }

def terminatedStored : EdgeDomainRow :=
  { terminated with
    certSans := ["a.io", "www.a.io"], certNotAfter := 9000000, certFingerprint := "c1"
    certStatus := .valid, configVersion := 1 }

def addAlias (name : String) : Change :=
  .store uploaded (.patch { row := { domainId := "d1", domain := "" }, aliases := some [name] })

theorem terminated_post : Accept twoNamesService uploads [] (.store uploaded (.post terminated))
    [terminatedStored] := by
  have h : validate twoNamesService uploaded [] (.post terminated) = .ok terminatedStored := rfl
  exact .store (fun path data hdata => Except.ok.inj hdata) h (.refl _)

def withAlias (name : String) : EdgeDomainRow := { terminatedStored with aliases := [name] }

theorem www_patch : Accept twoNamesService uploads [terminatedStored] (addAlias "www.a.io")
    [withAlias "www.a.io"] := by
  have h : validate twoNamesService uploaded [terminatedStored]
      (.patch { row := { domainId := "d1", domain := "" }, aliases := some ["www.a.io"] }) =
      .ok (withAlias "www.a.io") := rfl
  exact .store (fun path data hdata => Except.ok.inj hdata) h (.refl _)

theorem other_patch : Accept twoNamesService uploads [terminatedStored] (addAlias "b.io")
    [withAlias "b.io"] := by
  have h : validate twoNamesService uploaded [terminatedStored]
      (.patch { row := { domainId := "d1", domain := "" }, aliases := some ["b.io"] }) =
      .ok (withAlias "b.io") := rfl
  exact .store (fun path data hdata => Except.ok.inj hdata) h (.refl _)

theorem www_covering : (addAlias "www.a.io").Covering twoNamesService uploads [terminatedStored] := by
  intro d o h _ _ _ _ s hs n hn hnew
  have hmerged : merged uploaded [terminatedStored]
      (.patch { row := { domainId := "d1", domain := "" }, aliases := some ["www.a.io"] }) =
      .ok (withAlias "www.a.io", some terminatedStored) := rfl
  cases h.symm.trans hmerged
  refine ⟨_, rfl, ?_⟩
  rcases List.mem_cons.mp hs with rfl | hs
  · cases hn
    exact absurd List.mem_cons_self hnew
  · cases List.mem_singleton.mp hs
    cases hn
    rfl

theorem stored_certificate_covers_www : (withAlias "www.a.io").certStatus = .valid ∧
    Certified twoNames uploads (withAlias "www.a.io") := by
  have hpost : Change.Covering twoNamesService uploads [] (.store uploaded (.post terminated)) := by
    intro d o h
    cases (Prod.mk.inj (Except.ok.inj h)).2
  have hrun : Run (Guarded (fun s c => c.Covering twoNamesService uploads s)
      (Accept twoNamesService uploads)) [] [.store uploaded (.post terminated), addAlias "www.a.io"]
      [withAlias "www.a.io"] :=
    .cons ⟨hpost, terminated_post⟩ (.cons ⟨www_covering, www_patch⟩ (.nil _))
  exact ⟨rfl, (stored_certificate_covers twoNamesService uploads hrun _ List.mem_cons_self).1
    (.inl rfl)⟩

/-- The patch leaves the files where they are, so the certificate is not looked
at again. -/
theorem added_name_not_covered : ∃ cs all, Run (Accept twoNamesService uploads) [] cs all ∧
    ∃ d ∈ all, d.certStatus = .valid ∧ (∃ f ∈ d.portForwards, f.mode = .terminate) ∧
      "b.io" ∈ names d.toEdgeDomain ∧ ¬ Certified twoNames uploads d := by
  refine ⟨[.store uploaded (.post terminated), addAlias "b.io"], [withAlias "b.io"],
    .cons terminated_post (.cons other_patch (.nil _)), withAlias "b.io", List.mem_cons_self, rfl,
    ⟨_, List.mem_cons_self, rfl⟩, List.mem_cons_of_mem _ List.mem_cons_self, fun hcert => ?_⟩
  obtain ⟨leaf, hleaf, hcovers⟩ := hcert.names "b.io" (List.mem_cons_of_mem _ List.mem_cons_self)
  cases hleaf
  cases hcovers

end L8Tunnel.EdgeConf
