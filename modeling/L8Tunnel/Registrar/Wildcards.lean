import L8Tunnel.Registrar.Domains
import L8Tunnel.Registrar.Exclusive

/-! # What the accepted domains reach (relay/tunnel.go, router.go) -/

namespace L8Tunnel.Registrar
open Base Registry Auth Protocol GoString PathMatch

variable {γ : Type}

def hostKey (host : String) : String := GoString.toLower (GoString.trimSuffix host ".")

def relayBaseDomain (s : String) : Except String String :=
  let base := hostKey s
  if base = "" ∨ GoString.contains base "." = false then
    .error ("relay: BaseDomain " ++ GoString.quote base ++
      " must be a domain such as tunnel.example.com")
  else .ok base

def resolveHost (rules : Rules) (r : NameRegistry) (host : String) :
    Option Tunnel × TunnelType × String :=
  let host := hostKey host
  let name := rules.tunnelName host
  if name ≠ "" then
    let (t, typ, _) := r.lookup name
    (t, typ, name)
  else
    let (t, typ, name, _) := r.lookupDomain host
    (t, typ, name)

/-- What `checkDomains` has tested of a custom domain. -/
structure Checked (cfg : Config γ) (token : TokenRecord) (d : String) : Prop where
  normal : ∃ raw, normalizeTunnelDomain raw = .ok d
  outside : d ≠ cfg.rules.baseDomain ∧ ∀ p, d ≠ p ++ "." ++ cfg.rules.baseDomain
  control : d ≠ cfg.rules.controlSNI
  allowed : token.policy.allowsDomain cfg.pathMatch d = true

section
variable {cfg : Config γ} {token : TokenRecord}

theorem checkDomain_checked {typ : TunnelType} {out out' : List String} {raw : String}
    (hout : ∀ d ∈ out, Checked cfg token d) (h : cfg.checkDomain token typ out raw = .ok out') :
    ∀ d ∈ out', Checked cfg token d := by
  unfold Config.checkDomain at h
  split at h
  · cases h
  next d hd =>
  split at h
  · cases h
  split at h
  · cases h
  next hbase =>
  split at h
  · cases h
  next hallowed =>
  rw [not_or, not_or] at hbase
  have hchecked : Checked cfg token d := by
    refine ⟨⟨raw, hd⟩, ⟨hbase.1, fun p hp => hbase.2.1 ?_⟩, hbase.2.2, by simpa using hallowed⟩
    rw [hp, String.append_assoc, cutSuffix_append]
    rfl
  split at h
  · cases h
  · cases h
    intro x hx
    split at hx
    · exact hout x hx
    · rcases List.mem_append.mp hx with hx | hx
      · exact hout x hx
      · rw [List.mem_singleton.mp hx]
        exact hchecked

theorem checkDomains_checked {spec : TunnelSpec} {out : List String}
    (h : cfg.checkDomains token spec = .ok out) : ∀ d ∈ out, Checked cfg token d := by
  unfold Config.checkDomains at h
  split at h
  · cases h
    exact fun d hd => absurd hd List.not_mem_nil
  split at h
  · cases h
  · exact foldlM_invariant (I := fun out => ∀ d ∈ out, Checked cfg token d)
      (fun _ _ _ hout hstep => checkDomain_checked hout hstep) h
      fun d hd => absurd hd List.not_mem_nil

end

theorem host_front {host p d : String} (h : normalizeDomain host = .ok host)
    (hunder : host = p ++ "." ++ d) : '/' ∉ p.toList := by
  obtain ⟨-, hlabels⟩ := normalizeDomain_ok h
  intro hslash
  have hmem : '/' ∈ host.toList := by
    rw [hunder, String.append_assoc, String.toList_append]
    exact List.mem_append_left _ hslash
  exact absurd (hostChars hlabels '/' hmem) (by decide)

def StaysWithin (policy : Policy) (d : String) : Prop :=
  ∀ host p, normalizeDomain host = .ok host → host = p ++ "." ++ d →
    policy.allowsDomain isMatch host = true

def WithinPolicy (cfg : Config γ) (token : TokenRecord) : Prop :=
  ∀ spec out, cfg.checkDomains token spec = .ok out →
    ∀ d, "*." ++ d ∈ out → StaysWithin token.policy d

/-- The wildcard over `d` is valid and none of the relay's own names. -/
structure Claimable (cfg : Config γ) (d : String) : Prop where
  valid : normalizeDomain d = .ok d
  outside : "*." ++ d ≠ cfg.rules.baseDomain ∧ ∀ p, "*." ++ d ≠ p ++ "." ++ cfg.rules.baseDomain
  control : "*." ++ d ≠ cfg.rules.controlSNI

/-- Where a pattern takes the star of a wildcard for a character, the policy allows every
name under the wildcard. -/
def StarsCovered (cfg : Config γ) (policy : Policy) : Prop :=
  ∀ pattern ∈ policy.domains, ∀ ts, PathMatch.terms pattern = some ts →
    ∀ d, Claimable cfg d → fitsAsChar '*' ('.' :: d.toList) ts = true → StaysWithin policy d

theorem checkDomains_star {cfg : Config γ} {token : TokenRecord} {d : String}
    (h : Claimable cfg d) (hallowed : token.policy.allowsDomain cfg.pathMatch ("*." ++ d) = true) :
    cfg.checkDomains token { name := "a", type := .tls, domains := ["*." ++ d] } =
      .ok ["*." ++ d] := by
  have hunder : cutSuffix ("*." ++ d) ("." ++ cfg.rules.baseDomain) = none := by
    rw [Option.eq_none_iff_forall_ne_some]
    intro p hp
    refine h.outside.2 p ?_
    rw [cutSuffix_eq_some hp, String.append_assoc]
  have hone : cfg.checkDomain token .tls [] ("*." ++ d) = .ok ["*." ++ d] := by
    unfold Config.checkDomain
    rw [normalizeTunnelDomain_star h.valid]
    dsimp only
    rw [if_neg (fun hwild => hwild.2 rfl), if_neg, if_neg (by simp [hallowed])]
    · rfl
    · rw [hunder]
      rintro (hbase | hnone | hcontrol)
      · exact h.outside.1 hbase
      · cases hnone
      · exact h.control hcontrol
  show ["*." ++ d].foldlM (cfg.checkDomain token .tls) [] = _
  rw [List.foldlM_cons, hone]
  rfl

theorem star_toList (d : String) : ("*." ++ d).toList = '*' :: '.' :: d.toList := by
  rw [String.toList_append]
  rfl

/-- Every host name under every accepted wildcard is allowed itself, exactly if the
policy allows all names under the wildcards whose star its patterns take for a character. -/
theorem wildcard_within_policy_iff {cfg : Config γ} (hmatch : cfg.pathMatch = isMatch)
    (token : TokenRecord) : WithinPolicy cfg token ↔ StarsCovered cfg token.policy := by
  constructor
  · intro hwithin pattern hpattern ts hts d hclaim hchar
    have hfits : isMatch pattern ("*." ++ d) = true := by
      refine isMatch_iff.mpr ⟨ts, hts, ?_⟩
      rw [star_toList]
      exact fits_of_asChar hchar
    have hallowed : token.policy.allowsDomain cfg.pathMatch ("*." ++ d) = true := by
      rw [hmatch]
      exact List.any_eq_true.mpr ⟨pattern, hpattern, hfits⟩
    exact hwithin _ _ (checkDomains_star hclaim hallowed) d List.mem_cons_self
  · intro hcovered spec out hcheck d hd host p hhost hunder
    obtain ⟨⟨raw, hnormal⟩, houtside, hcontrol, hallowed⟩ := checkDomains_checked hcheck _ hd
    rw [hmatch] at hallowed
    obtain ⟨pattern, hpattern, hwild⟩ := List.any_eq_true.mp hallowed
    obtain ⟨ts, hts, hfits⟩ := isMatch_iff.mp hwild
    rw [star_toList] at hfits
    rcases asChar_or_fits hfits (host_front hhost hunder) with hchar | hall
    · have hclaim : Claimable cfg d := ⟨normalizeTunnelDomain_wild hnormal, houtside, hcontrol⟩
      exact hcovered pattern hpattern ts hts d hclaim hchar host p hhost hunder
    · have hname : host.toList = p.toList ++ '.' :: d.toList := by
        rw [hunder, String.toList_append, String.toList_append, List.append_assoc]
        rfl
      refine List.any_eq_true.mpr ⟨pattern, hpattern, isMatch_iff.mpr ⟨ts, hts, ?_⟩⟩
      rw [hname]
      exact hall

def subConfig : Config Unit :=
  { demoConfig with
    rules := { demoConfig.rules with baseDomain := "t.example.com" }
    pathMatch := PathMatch.isMatch }

def policyOf (patterns : List String) : TokenRecord :=
  { id := "T", policy := { domains := patterns } }

def wildcardSpec : TunnelSpec := { name := "a", type := .tls, domains := ["*.example.com"] }

/-- The first pattern takes the star of a wildcard with its own star only, the second
fits no wildcard. -/
theorem wildcard_within_policy_iff_star :
    WithinPolicy subConfig (policyOf ["*.example.com", "?x.example.com"]) := by
  refine (wildcard_within_policy_iff rfl _).mpr fun pattern hpattern ts hts d _ hchar => ?_
  rcases List.mem_cons.mp hpattern with rfl | hpattern
  · cases hts
    cases hchar
  · rw [List.mem_singleton.mp hpattern] at hts
    cases hts
    cases hchar

/-- The question mark matches the star of the wildcard, and one character of a
name. -/
theorem wildcard_beyond_policy :
    ¬ ∀ (cfg : Config Unit), cfg.pathMatch = isMatch →
      ∀ (token : TokenRecord), token.policy.validate = .ok () → WithinPolicy cfg token := by
  intro h
  have hfoo := h subConfig rfl (policyOf ["?.example.com"]) rfl wildcardSpec ["*.example.com"] rfl
    "example.com" List.mem_cons_self "foo.example.com" "foo" rfl rfl
  exact absurd hfoo (by decide)

def OwnName (base host : String) : Prop := host = base ∨ ∃ p, host = p ++ "." ++ base

/-- `resolveHost` goes to the reservation through one of its custom domains. -/
def ThroughDomain (rules : Rules) (r : NameRegistry) (host : String) (ref : ℕ) : Prop :=
  rules.tunnelName (hostKey host) = "" ∧ r.findDomain (hostKey host) = some ref

def AllChecked (cfg : Config γ) (r : NameRegistry) : Prop :=
  ∀ d ref, r.domains.get d = some ref →
    ∃ token spec out, cfg.checkDomains token spec = .ok out ∧ d ∈ out

def NameRegistry.withoutDomains (r : NameRegistry) : NameRegistry :=
  { r with
    domains := ∅
    domain_lt := by intro d ref h; simp at h }

theorem hostKey_dotted {base : String} (hne : base ≠ "") (p : String) :
    hostKey (p ++ "." ++ base) = toLower p ++ "." ++ hostKey base := by
  have htrim : trimSuffix (p ++ "." ++ base) "." = p ++ "." ++ trimSuffix base "." := by
    unfold trimSuffix
    cases hcut : cutSuffix base "." with
    | none =>
      rw [cutSuffix_append_none hne rfl hcut]
      rfl
    | some rest =>
      rw [cutSuffix_eq_some hcut, ← String.append_assoc, cutSuffix_append]
      rfl
  rw [hostKey, htrim, toLower_append, toLower_append]
  rfl

theorem tunnelName_outside {rules : Rules} {host : String}
    (h : ∀ p, host ≠ p ++ "." ++ rules.baseDomain) : rules.tunnelName host = "" := by
  unfold Rules.tunnelName
  split
  next name hcut =>
    refine absurd ?_ (h name)
    rw [cutSuffix_eq_some hcut, String.append_assoc]
  · rfl

theorem hostKey_not_under (base p : String) : hostKey base ≠ p ++ "." ++ base := by
  intro h
  have hlen := congrArg String.length h
  have hdot : ".".length = 1 := rfl
  have hlower : ∀ s, (toLower s).length = s.length := fun s => by
    simp [toLower, ← String.length_toList]
  have htrim : (trimSuffix base ".").length ≤ base.length := by
    unfold trimSuffix
    cases hcut : cutSuffix base "." with
    | none => exact le_rfl
    | some rest =>
      rw [cutSuffix_eq_some hcut, String.length_append]
      exact Nat.le_add_right _ _
  rw [hostKey, hlower, String.length_append, String.length_append, hdot] at hlen
  omega

/-- No custom domain is the base domain without its last dot, is under it or is a
wildcard over it. -/
def OffBase (base : String) (r : NameRegistry) : Prop :=
  ∀ d ref, r.domains.get d = some ref →
    ¬ OwnName (hostKey base) d ∧ ∀ s p, d = "*." ++ s → hostKey base ≠ p ++ "." ++ s

theorem findDomain_own {r : NameRegistry} {base host : String} (hoff : OffBase base r)
    (hown : OwnName (hostKey base) host) : r.findDomain host = none := by
  have hexact : r.domains.get host = none := by
    rw [Option.eq_none_iff_forall_ne_some]
    exact fun ref href => (hoff host ref href).1 hown
  rw [findDomain_eq, hexact, Option.none_or, List.findSome?_eq_none_iff]
  intro w hw
  rw [Option.eq_none_iff_forall_ne_some]
  intro ref href
  have hmem := hw
  obtain ⟨i, -, rfl⟩ := List.mem_map.mp hw
  obtain ⟨⟨q, hq⟩, -⟩ := mem_wildcardsOf.mp hmem
  generalize join ((split host '.').drop (i + 1)) "." = s at *
  obtain ⟨houtside, hover⟩ := hoff _ ref href
  -- the wildcard is over `s`: the base domain, or under it, or over it
  rcases hown with rfl | ⟨p, rfl⟩
  · exact hover s q rfl hq
  · rcases dotted_suffixes hq with rfl | ⟨t, ht⟩ | ⟨t, rfl⟩
    · exact houtside (.inr ⟨"*", rfl⟩)
    · exact hover s t rfl ht
    · refine houtside (.inr ⟨"*." ++ t, ?_⟩)
      rw [String.append_assoc, String.append_assoc, String.append_assoc]

theorem findDomain_exact {r : NameRegistry} {d : String} {ref : ℕ}
    (h : r.domains.get d = some ref) : r.findDomain d = some ref := by
  rw [findDomain_eq, h]
  rfl

theorem findDomain_covered {r : NameRegistry} {host s : String} {ref : ℕ}
    (h : r.domains.get ("*." ++ s) = some ref) (hcovers : Covers s host) :
    ∃ found, r.findDomain host = some found := by
  rw [← Option.ne_none_iff_exists', findDomain_eq]
  intro hnone
  rw [Option.or_eq_none_iff, List.findSome?_eq_none_iff] at hnone
  have hmiss := hnone.2 _ (mem_wildcardsOf.mpr hcovers)
  rw [h] at hmiss
  cases hmiss

theorem relayBaseDomain_ne {conf base : String} (h : relayBaseDomain conf = .ok base) :
    base ≠ "" := by
  unfold relayBaseDomain at h
  dsimp only at h
  split at h
  · cases h
  next hvalid => exact fun hempty => hvalid (.inl ((Except.ok.inj h).trans hempty))

/-- A domain on the base, once the check has let it in, is itself the host
that is answered through it, or covers the base. -/
theorem offBase_of_uncaptured {cfg : Config γ} {r : NameRegistry} (hne : cfg.rules.baseDomain ≠ "")
    (hchecked : AllChecked cfg r)
    (hnone : ∀ host, OwnName cfg.rules.baseDomain host →
      ∀ ref, ¬ ThroughDomain cfg.rules r host ref) :
    OffBase cfg.rules.baseDomain r := by
  intro d ref hd
  obtain ⟨token, spec, out, hcheck, hmem⟩ := hchecked d ref hd
  have hd' := checkDomains_checked hcheck d hmem
  obtain ⟨raw, hraw⟩ := hd'.normal
  refine ⟨?_, ?_⟩
  · rintro (rfl | ⟨p, rfl⟩)
    · exact hnone _ (.inl rfl) ref ⟨tunnelName_outside hd'.outside.2, findDomain_exact hd⟩
    · have hkey : hostKey (p ++ "." ++ cfg.rules.baseDomain) =
          p ++ "." ++ hostKey cfg.rules.baseDomain := by
        have hlower := normalizeTunnelDomain_lower hraw
        rw [toLower_append, toLower_append, hostKey, toLower_idem] at hlower
        rw [hostKey_dotted hne]
        exact hlower
      refine hnone (p ++ "." ++ cfg.rules.baseDomain) (.inr ⟨p, rfl⟩) ref ?_
      unfold ThroughDomain
      rw [hkey]
      exact ⟨tunnelName_outside hd'.outside.2, findDomain_exact hd⟩
  · rintro s p rfl hover
    have hdot := normalizeDomain_dotted (normalizeTunnelDomain_wild hraw)
    obtain ⟨found, hfound⟩ := findDomain_covered hd ⟨⟨p, hover⟩, hdot⟩
    exact hnone _ (.inl rfl) found ⟨tunnelName_outside (hostKey_not_under _), hfound⟩

theorem resolveHost_withoutDomains {rules : Rules} {r : NameRegistry} {host : String}
    (hnone : ∀ ref, ¬ ThroughDomain rules r host ref) :
    resolveHost rules r host = resolveHost rules r.withoutDomains host := by
  have hempty : r.withoutDomains.findDomain (hostKey host) = none := by
    have hget : ∀ d, r.withoutDomains.domains.get d = none := fun d => GoMap.get_empty d
    rw [findDomain_eq, hget, Option.none_or, List.findSome?_eq_none_iff]
    exact fun w _ => hget w
  unfold resolveHost
  dsimp only
  split
  · rfl
  next hname =>
    have hfind : r.findDomain (hostKey host) = none := by
      rw [Option.eq_none_iff_forall_ne_some]
      exact fun ref href => hnone ref ⟨not_not.mp hname, href⟩
    unfold NameRegistry.lookupDomain
    rw [hfind, hempty]
    rfl

/-- No name of the relay goes to a custom domain exactly if every custom domain is off
the base domain; and where none does, the answer is that of a registry without them. -/
theorem own_names_uncaptured_iff {cfg : Config γ} {conf : String}
    (hbase : relayBaseDomain conf = .ok cfg.rules.baseDomain) {r : NameRegistry}
    (hchecked : AllChecked cfg r) :
    ((∀ host, OwnName cfg.rules.baseDomain host → ∀ ref, ¬ ThroughDomain cfg.rules r host ref) ↔
      OffBase cfg.rules.baseDomain r) ∧
    ∀ host, (∀ ref, ¬ ThroughDomain cfg.rules r host ref) →
      resolveHost cfg.rules r host = resolveHost cfg.rules r.withoutDomains host := by
  have hne := relayBaseDomain_ne hbase
  refine ⟨⟨offBase_of_uncaptured hne hchecked, fun hoff host hown ref hthrough => ?_⟩,
    fun host => resolveHost_withoutDomains⟩
  have hkey : OwnName (hostKey cfg.rules.baseDomain) (hostKey host) := by
    rcases hown with rfl | ⟨p, rfl⟩
    · exact .inl rfl
    · exact .inr ⟨toLower p, hostKey_dotted hne p⟩
  have hmiss := findDomain_own hoff hkey
  rw [hthrough.2] at hmiss
  cases hmiss

def servedBy (d : String) : NameRegistry :=
  (((NameRegistry.new 10 false).alloc
    { name := "a", typ := .tls, tokenID := "T", session := some 1 }).replaceDomains 0 [d]).activate 0
      { res := 0, existed := false }

theorem servedBy_get {d x : String} {ref : ℕ} (h : (servedBy d).domains.get x = some ref) :
    x = d := by
  have hget : (servedBy d).domains.get x = if x ∈ [d] then some 0 else none := by
    refine (NameRegistry.replaceDomains_get _ 0 [d] x).trans ?_
    refine if_congr Iff.rfl rfl ?_
    exact if_neg fun hold => absurd hold.1 List.not_mem_nil
  rw [hget] at h
  split at h
  next hmem => exact List.mem_singleton.mp hmem
  · cases h

theorem servedBy_checked {d : String}
    (h : subConfig.checkDomains (policyOf [d]) { wildcardSpec with domains := [d] } = .ok [d]) :
    AllChecked subConfig (servedBy d) := by
  intro x ref hx
  exact ⟨_, _, _, h, List.mem_singleton.mpr (servedBy_get hx)⟩

theorem own_names_uncaptured_iff_otherDomain :
    AllChecked subConfig (servedBy "*.other.com") ∧
    ∀ ref, ¬ ThroughDomain subConfig.rules (servedBy "*.other.com") "a.b.t.example.com" ref := by
  have hchecked : AllChecked subConfig (servedBy "*.other.com") := servedBy_checked rfl
  have hbase : relayBaseDomain "T.example.com." = .ok subConfig.rules.baseDomain := by decide
  have hoff : OffBase subConfig.rules.baseDomain (servedBy "*.other.com") := by
    intro d ref hd
    obtain rfl := servedBy_get hd
    refine ⟨?_, fun s p hs hp => ?_⟩
    · rintro (heq | ⟨p, hp⟩)
      · exact absurd heq (by decide)
      · have hsuffix := cutSuffix_append (p ++ ".") (hostKey subConfig.rules.baseDomain)
        rw [← hp] at hsuffix
        exact absurd hsuffix (by simp [show cutSuffix "*.other.com" (hostKey
          subConfig.rules.baseDomain) = none by decide])
    · obtain rfl : s = "other.com" := (star_inj (a := "other.com") hs).symm
      have hsuffix := cutSuffix_append (p ++ ".") "other.com"
      rw [← hp] at hsuffix
      exact absurd hsuffix (by simp [show cutSuffix (hostKey subConfig.rules.baseDomain)
        "other.com" = none by decide])
  exact ⟨hchecked, (own_names_uncaptured_iff hbase hchecked).1.mpr hoff "a.b.t.example.com"
    (.inr ⟨"a.b", rfl⟩)⟩

/-- The wildcard over `example.com` takes the relay's base domain `t.example.com`,
which is no tunnel's name. -/
theorem own_names_captured :
    ¬ ∀ (cfg : Config Unit) (conf : String), relayBaseDomain conf = .ok cfg.rules.baseDomain →
      ∀ r, AllChecked cfg r → ∀ host, OwnName cfg.rules.baseDomain host →
      ∀ t, (resolveHost cfg.rules r host).1 = some t → cfg.rules.tunnelName (hostKey host) ≠ "" := by
  intro h
  exact h subConfig "t.example.com" rfl (servedBy "*.example.com") (servedBy_checked rfl)
    "t.example.com" (.inl rfl) { res := 0, existed := false } rfl rfl

end L8Tunnel.Registrar
