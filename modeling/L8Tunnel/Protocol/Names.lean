import L8Tunnel.Registry.Rules

/-! # Tunnel types, port ranges and domain names (protocol/names.go) -/

namespace L8Tunnel.Protocol
open Base Registry GoString

def tunnelTypeNames : List (String × TunnelType) :=
  [("tcp", .tcp), ("ssh", .ssh), ("http", .http), ("tls", .tls)]

def parseTunnelType (s : String) : Except String TunnelType :=
  match tunnelTypeNames.lookup (GoString.toLower s) with
  | some typ => .ok typ
  | none => .error ("unknown tunnel type " ++ GoString.quote s ++ " (want tcp, ssh, http or tls)")

variable {s d : String} {c : Char}

theorem parseTunnelType_ok {typ : TunnelType} (h : parseTunnelType s = .ok typ) :
    (toLower s, typ) ∈ tunnelTypeNames := by
  unfold parseTunnelType at h
  split at h
  · next found hlookup =>
    cases h
    obtain ⟨pre, post, hsplit, -⟩ := List.lookup_eq_some_iff.mp hlookup
    rw [hsplit]
    simp
  · cases h

/-- One port stands for the range of it alone; spaces around either bound are cut. -/
def parsePortRange (s : String) : Except String (ℤ × ℤ) :=
  let lo := (GoString.cut s '-').1
  let hi := (GoString.cut s '-').2.getD lo
  let invalid := "invalid port range " ++ GoString.quote s
  match GoString.atoi (GoString.trimSpace lo) with
  | .error err => .error (invalid ++ ": " ++ err)
  | .ok first =>
    match GoString.atoi (GoString.trimSpace hi) with
    | .error err => .error (invalid ++ ": " ++ err)
    | .ok last =>
      if first < 1 ∨ last > 65535 ∨ first > last then .error invalid else .ok (first, last)

theorem parsePortRange_ok {lo hi : ℤ} (h : parsePortRange s = .ok (lo, hi)) :
    1 ≤ lo ∧ lo ≤ hi ∧ hi ≤ 65535 := by
  unfold parsePortRange at h
  dsimp only at h
  split at h
  · cases h
  split at h
  · cases h
  split at h
  · cases h
  next hvalid =>
    cases h
    omega

def normalizeDomain (s : String) : Except String String :=
  let d := GoString.toLower (GoString.trimSuffix s ".")
  let labels := GoString.split d '.'
  if d.utf8ByteSize > 253 ∨ labels.length < 2 then
    .error ("domain " ++ GoString.quote s ++ " must be a host name such as app.example.com")
  else if labels.all isDNSLabel = false then
    .error ("domain " ++ GoString.quote s ++ " is not a valid host name")
  else .ok d

theorem hostChars (h : (split d '.').all isDNSLabel = true) :
    ∀ c ∈ d.toList, (isLowerAlnum c || c == '-') = true ∨ c = '.' := by
  intro c hc
  rcases mem_splitChars '.' hc with hdot | ⟨part, hpart, hcp⟩
  · exact .inr hdot
  · left
    have hlabel := List.all_eq_true.mp h (String.ofList part) (List.mem_map_of_mem hpart)
    simp only [isDNSLabel, Bool.and_eq_true, List.all_eq_true,
      String.toList_ofList] at hlabel
    exact hlabel.1.1.2 c hcp

theorem lowerRune_hostChar (h : (isLowerAlnum c || c == '-') = true ∨ c = '.') :
    lowerRune c = c := by
  rcases h with h | rfl
  · exact lowerRune_of_label h
  · decide

theorem trimSuffix_host (h : (split d '.').all isDNSLabel = true) : trimSuffix d "." = d := by
  unfold trimSuffix cutSuffix
  split
  next hsuffix =>
    -- a trailing dot would leave an empty label
    obtain ⟨cs, hcs⟩ := List.isSuffixOf_iff_suffix.mp hsuffix
    have hsplit : splitChars '.' d.toList = splitChars '.' cs ++ [[]] := by
      rw [← hcs]
      exact splitChars_concat '.' cs
    have hmem : String.ofList [] ∈ split d '.' := by
      refine List.mem_map_of_mem ?_
      rw [hsplit]
      exact List.mem_append_right _ List.mem_cons_self
    exact absurd (List.all_eq_true.mp h _ hmem) (by decide)
  next => rfl

theorem normalizeDomain_ok (h : normalizeDomain s = .ok d) :
    ¬ (d.utf8ByteSize > 253 ∨ (split d '.').length < 2) ∧
      (split d '.').all isDNSLabel = true := by
  unfold normalizeDomain at h
  dsimp only at h
  split at h
  · cases h
  next hsize =>
  split at h
  · cases h
  next hall =>
    rw [Except.ok.inj h] at hsize hall
    exact ⟨hsize, by simpa using hall⟩

theorem normalizeDomain_again (h : normalizeDomain s = .ok d) :
    normalizeDomain d = .ok d ∧
      ∀ c ∈ d.toList, (isLowerAlnum c || c == '-') = true ∨ c = '.' := by
  obtain ⟨hsize, hlabels⟩ := normalizeDomain_ok h
  have hchars := hostChars hlabels
  have hlower : toLower d = d :=
    toLower_eq_self fun c hc => lowerRune_hostChar (hchars c hc)
  refine ⟨?_, hchars⟩
  unfold normalizeDomain
  dsimp only
  rw [trimSuffix_host hlabels, hlower, if_neg hsize, if_neg (by simp [hlabels])]

theorem normalizeDomain_dotted (h : normalizeDomain s = .ok d) : '.' ∈ d.toList := by
  have hsize := (normalizeDomain_ok h).1
  rw [split_length] at hsize
  exact List.count_pos_iff.mp (by omega)

theorem hostChar_not_space (h : (isLowerAlnum c || c == '-') = true ∨ c = '.') :
    isSpace c = false ∧ c ≠ '*' := by
  rcases h with h | rfl
  · simp only [isLowerAlnum, Bool.or_eq_true, Bool.and_eq_true, decide_eq_true_eq,
      beq_iff_eq] at h
    have hrange : (97 ≤ c.toNat ∧ c.toNat ≤ 122) ∨ (48 ≤ c.toNat ∧ c.toNat ≤ 57) ∨ c.toNat = 45 := by
      rcases h with (h | h) | h
      · exact .inl h
      · exact .inr (.inl h)
      · subst h
        exact .inr (.inr rfl)
    refine ⟨?_, ?_⟩
    · unfold isSpace
      simp only [Bool.or_eq_false_iff, Bool.and_eq_false_iff, decide_eq_false_iff_not,
        List.contains_eq_mem, List.mem_cons, List.not_mem_nil, or_false]
      omega
    · rintro rfl
      revert hrange
      decide
  · decide

/-- The wildcard is cut before the check and put back after it. -/
def normalizeTunnelDomain (s : String) : Except String String :=
  let wild := GoString.cutPrefix s "*."
  match normalizeDomain (wild.getD s) with
  | .error _ =>
    .error ("domain " ++ GoString.quote s ++ " must be a host name such as app.example.com, " ++
      "or a wildcard such as *.example.com")
  | .ok d => .ok (if wild.isSome then "*." ++ d else d)

theorem star_inj {a b : String} (h : "*." ++ a = "*." ++ b) : a = b := by
  have hlist := congrArg String.toList h
  rw [String.toList_append, String.toList_append, List.append_cancel_left_eq] at hlist
  exact String.toList_injective hlist

theorem normalizeTunnelDomain_wild (h : normalizeTunnelDomain s = .ok ("*." ++ d)) :
    normalizeDomain d = .ok d := by
  unfold normalizeTunnelDomain at h
  dsimp only at h
  split at h
  · cases h
  next d' hd =>
    obtain ⟨hagain, hchars⟩ := normalizeDomain_again hd
    have heq := Except.ok.inj h
    split at heq
    · rw [← star_inj heq]
      exact hagain
    · -- a host name has no star
      have hstar : '*' ∈ d'.toList := by
        rw [heq, String.toList_append]
        exact List.mem_append_left _ List.mem_cons_self
      exact absurd rfl (hostChar_not_space (hchars '*' hstar)).2

theorem normalizeTunnelDomain_lower (h : normalizeTunnelDomain s = .ok d) : toLower d = d := by
  unfold normalizeTunnelDomain at h
  dsimp only at h
  split at h
  · cases h
  next d' hd =>
    have hlower : toLower d' = d' :=
      toLower_eq_self fun c hc => lowerRune_hostChar ((normalizeDomain_again hd).2 c hc)
    cases h
    split
    · rw [toLower_append, hlower]
      rfl
    · exact hlower

theorem normalizeTunnelDomain_star (h : normalizeDomain d = .ok d) :
    normalizeTunnelDomain ("*." ++ d) = .ok ("*." ++ d) := by
  have hcut : cutPrefix ("*." ++ d) "*." = some d := by
    simp [cutPrefix, String.toList_append]
  unfold normalizeTunnelDomain
  rw [hcut]
  dsimp only [Option.getD_some]
  rw [h]
  rfl

def isWildcardDomain (d : String) : Bool := (GoString.cutPrefix d "*.").isSome

/-- The wildcards that cover a host, nearest first; the suffix keeps two labels at least. -/
def wildcardsOf (host : String) : List String :=
  let labels := GoString.split host '.'
  (List.range (labels.length - 2)).map fun i => "*." ++ GoString.join (labels.drop (i + 1)) "."

theorem mem_wildcardsOf {host : String} :
    "*." ++ s ∈ wildcardsOf host ↔ (∃ p, host = p ++ "." ++ s) ∧ '.' ∈ s.toList := by
  have hdot : String.singleton '.' = "." := rfl
  simp only [wildcardsOf, List.mem_map, List.mem_range]
  constructor
  · rintro ⟨i, hi, h⟩
    obtain rfl := star_inj h
    have htake : (split host '.').take (i + 1) ≠ [] := by
      rw [ne_eq, List.take_eq_nil_iff, not_or]
      exact ⟨by omega, split_ne_nil host '.'⟩
    have hrest : (split host '.').drop (i + 1) ≠ [] := by
      rw [ne_eq, List.drop_eq_nil_iff]
      omega
    have hjoin := join_append '.' htake hrest
    rw [List.take_append_drop, join_split, hdot] at hjoin
    refine ⟨⟨_, hjoin⟩, ?_⟩
    -- the labels left are two or more, so there is a dot between the first two
    obtain ⟨first, tail, hsplit⟩ := List.exists_cons_of_ne_nil hrest
    have htail : tail ≠ [] := by
      have hlen := congrArg List.length hsplit
      rw [List.length_drop, List.length_cons] at hlen
      rintro rfl
      rw [List.length_nil] at hlen
      omega
    have hsep := join_append '.' (List.cons_ne_nil first []) htail
    rw [List.singleton_append, hdot] at hsep
    rw [hsplit, hsep]
    simp [String.toList_append]
  · rintro ⟨⟨p, rfl⟩, hs⟩
    have hlabels : split (p ++ "." ++ s) '.' =
        split p '.' ++ split s '.' := split_append p s '.'
    have hp : 0 < (split p '.').length :=
      List.length_pos_iff.mpr (split_ne_nil p '.')
    have hlen : 2 ≤ (split s '.').length := by
      rw [split_length]
      have := List.count_pos_iff.mpr hs
      omega
    refine ⟨(split p '.').length - 1, ?_, ?_⟩
    · rw [hlabels, List.length_append]
      omega
    · have hdrop : (split p '.').length - 1 + 1 = (split p '.').length := by
        omega
      rw [hlabels, hdrop, List.drop_left, ← hdot, join_split]

theorem wildcardsOf_pairwise (host : String) :
    (wildcardsOf host).Pairwise fun a b => b.length < a.length := by
  rw [wildcardsOf, List.pairwise_map]
  refine List.Pairwise.imp_of_mem ?_ (List.pairwise_lt_range)
  intro i j hi hj hij
  rw [List.mem_range] at hi hj
  have hmid : ((split host '.').drop (i + 1)).take (j - i) ≠ [] := by
    rw [ne_eq, List.take_eq_nil_iff, not_or, List.drop_eq_nil_iff]
    omega
  have hrest : (split host '.').drop (j + 1) ≠ [] := by
    rw [ne_eq, List.drop_eq_nil_iff]
    omega
  have hsplit : (split host '.').drop (i + 1) =
      ((split host '.').drop (i + 1)).take (j - i) ++
        (split host '.').drop (j + 1) := by
    have hdrop : (split host '.').drop (j + 1) =
        ((split host '.').drop (i + 1)).drop (j - i) := by
      rw [List.drop_drop]
      congr 1
      omega
    rw [hdrop, List.take_append_drop]
  have hjoin := join_append '.' hmid hrest
  rw [← hsplit, show String.singleton '.' = "." from rfl] at hjoin
  have hone : ".".length = 1 := rfl
  rw [hjoin]
  simp only [String.length_append, hone]
  omega

end L8Tunnel.Protocol
