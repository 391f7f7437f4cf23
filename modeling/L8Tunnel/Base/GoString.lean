import Mathlib.Algebra.Group.Int.Defs
import Mathlib.Data.List.Basic

/-! # The string functions of Go's library -/

namespace L8Tunnel.Base.GoString

/-- Lower case of one rune: ASCII letters, and the two runes outside ASCII whose lower case is
an ASCII letter. Other cased runes stay as they are. -/
def lowerRune (c : Char) : Char :=
  if c = Char.ofNat 0x130 then 'i' else if c = Char.ofNat 0x212A then 'k' else c.toLower

def toLower (s : String) : String := String.ofList (s.toList.map lowerRune)

def cutSuffix (s suffix : String) : Option String :=
  if suffix.toList.isSuffixOf s.toList then
    some (String.ofList (s.toList.take (s.toList.length - suffix.toList.length)))
  else none

def trimSuffix (s suffix : String) : String := (cutSuffix s suffix).getD s
def containsRune (s : String) (c : Char) : Bool := s.toList.contains c

def splitChars (sep : Char) : List Char → List (List Char)
  | [] => [[]]
  | c :: cs =>
    if c = sep then [] :: splitChars sep cs
    else match splitChars sep cs with
      | [] => [[c]]
      | part :: parts => (c :: part) :: parts

def split (s : String) (sep : Char) : List String := (splitChars sep s.toList).map String.ofList

def join (parts : List String) (sep : String) : String :=
  match parts with
  | [] => ""
  | p :: ps => ps.foldl (fun acc q => acc ++ sep ++ q) p

def quoteRune (c : Char) : List Char :=
  if c = '"' then ['\\', '"']
  else if c = '\\' then ['\\', '\\']
  else if c.toNat = 7 then ['\\', 'a']
  else if c.toNat = 8 then ['\\', 'b']
  else if c.toNat = 9 then ['\\', 't']
  else if c.toNat = 10 then ['\\', 'n']
  else if c.toNat = 11 then ['\\', 'v']
  else if c.toNat = 12 then ['\\', 'f']
  else if c.toNat = 13 then ['\\', 'r']
  else if c.toNat < 32 ∨ c.toNat = 127 then
    ['\\', 'x', Nat.digitChar (c.toNat / 16), Nat.digitChar (c.toNat % 16)]
  else [c]

/-- `%q` of ASCII text; runes above 127 are kept as they are, printable or not. -/
def quote (s : String) : String :=
  String.ofList ('"' :: s.toList.flatMap quoteRune ++ ['"'])

def isLowerAlnum (c : Char) : Bool := ('a' ≤ c && c ≤ 'z') || ('0' ≤ c && c ≤ '9')

def splitHostPort (s : String) : Option (String × String) :=
  let cs := s.toList
  let port := (cs.reverse.takeWhile (· ≠ ':')).reverse
  if ':' ∉ cs then none
  else
    let front := cs.take (cs.length - port.length - 1)
    match front with
    | '[' :: rest =>
      match rest.getLast? with
      | some ']' =>
        let host := rest.dropLast
        if ']' ∈ host ∨ '[' ∈ host ∨ '[' ∈ port ∨ ']' ∈ port then none
        else some (String.ofList host, String.ofList port)
      | _ => none
    | host =>
      if ':' ∈ host ∨ '[' ∈ host ∨ ']' ∈ host ∨ '[' ∈ port ∨ ']' ∈ port then none
      else some (String.ofList host, String.ofList port)

def cut (s : String) (sep : Char) : String × Option String :=
  let before := s.toList.takeWhile (· ≠ sep)
  (String.ofList before,
    if sep ∈ s.toList then some (String.ofList (s.toList.drop (before.length + 1))) else none)

def isSpace (c : Char) : Bool :=
  (9 ≤ c.toNat && c.toNat ≤ 13) || (0x2000 ≤ c.toNat && c.toNat ≤ 0x200a) ||
    [0x20, 0x85, 0xa0, 0x1680, 0x2028, 0x2029, 0x202f, 0x205f, 0x3000].contains c.toNat

def trimSpace (s : String) : String :=
  String.ofList (((s.toList.dropWhile isSpace).reverse.dropWhile isSpace).reverse)

def cutPrefix (s pre : String) : Option String :=
  if pre.toList.isPrefixOf s.toList then some (String.ofList (s.toList.drop pre.toList.length))
  else none

def contains (s sub : String) : Bool := s.toList.tails.any fun t => sub.toList.isPrefixOf t
def decimal (cs : List Char) : ℕ := cs.foldl (fun n c => n * 10 + (c.toNat - 48)) 0

def atoi (s : String) : Except String ℤ :=
  let err (why : String) := Except.error ("strconv.Atoi: parsing " ++ quote s ++ ": " ++ why)
  let ds := match s.toList with
    | '+' :: ds => ds
    | '-' :: ds => ds
    | ds => ds
  if ds = [] ∨ ds.all Char.isDigit = false then err "invalid syntax"
  else
    let n : ℤ := if s.toList.head? = some '-' then -(decimal ds : ℤ) else decimal ds
    if n < -(2 ^ 63) ∨ 2 ^ 63 ≤ n then err "value out of range" else .ok n

variable {t pre : String} {c : Char} {ps : List (List Char)} (s : String) (sep : Char)
  (cs : List Char)

theorem toLower_append (t : String) : toLower (s ++ t) = toLower s ++ toLower t := by
  unfold toLower
  rw [String.toList_append, List.map_append, String.ofList_append]

theorem cutSuffix_append (t : String) : cutSuffix (s ++ t) t = some s := by
  have hsuffix : t.toList.isSuffixOf (s ++ t).toList = true := by
    rw [List.isSuffixOf_iff_suffix, String.toList_append]
    exact List.suffix_append _ _
  unfold cutSuffix
  rw [if_pos hsuffix, String.toList_append, List.length_append, Nat.add_sub_cancel,
    List.take_left, String.ofList_toList]

theorem cutSuffix_eq_some {s suffix rest : String} (h : cutSuffix s suffix = some rest) :
    s = rest ++ suffix := by
  unfold cutSuffix at h
  split at h
  next hsuffix =>
    obtain ⟨u, hu⟩ := List.isSuffixOf_iff_suffix.mp hsuffix
    cases h
    refine String.toList_injective ?_
    rw [String.toList_append, String.toList_ofList, ← hu, List.length_append, Nat.add_sub_cancel,
      List.take_left]
  · cases h

theorem cutSuffix_append_none {s suffix : String} (ht : t ≠ "") (hc : suffix.toList = [c])
    (h : cutSuffix t suffix = none) : cutSuffix (s ++ t) suffix = none := by
  have hnot : ¬ [c] <:+ t.toList := by
    unfold cutSuffix at h
    split at h
    · cases h
    next hsuffix => rwa [hc, List.isSuffixOf_iff_suffix] at hsuffix
  unfold cutSuffix
  refine if_neg ?_
  rw [hc, List.isSuffixOf_iff_suffix, String.toList_append]
  intro hsuffix
  rcases List.suffix_or_suffix_of_suffix hsuffix (List.suffix_append _ _) with hlast | hall
  · exact hnot hlast
  · rcases List.suffix_cons_iff.mp hall with heq | hnil
    · exact hnot (heq ▸ List.suffix_rfl)
    · exact ht (String.toList_injective (List.suffix_nil.mp hnil))

theorem dotted_suffixes {p q s : String} (h : p ++ "." ++ s = q ++ "." ++ t) :
    s = t ∨ (∃ u, s = u ++ "." ++ t) ∨ ∃ u, t = u ++ "." ++ s := by
  have hunder : ∀ {a b : String}, '.' :: a.toList <:+ '.' :: b.toList →
      a = b ∨ ∃ u, b = u ++ "." ++ a := by
    intro a b hab
    rcases List.suffix_cons_iff.mp hab with heq | ⟨u, hu⟩
    · exact .inl (String.toList_injective (List.cons.inj heq).2)
    · refine .inr ⟨String.ofList u, String.toList_injective ?_⟩
      rw [← hu, String.toList_append, String.toList_append, String.toList_ofList, List.append_assoc]
      rfl
  have hlist : p.toList ++ '.' :: s.toList = q.toList ++ '.' :: t.toList := by
    have hchars := congrArg String.toList h
    rw [String.toList_append, String.toList_append, String.toList_append, String.toList_append,
      List.append_assoc, List.append_assoc] at hchars
    exact hchars
  have hs : '.' :: s.toList <:+ q.toList ++ '.' :: t.toList := hlist ▸ List.suffix_append _ _
  rcases List.suffix_or_suffix_of_suffix hs (List.suffix_append _ _) with hst | hts
  · rcases hunder hst with heq | hu
    · exact .inl heq
    · exact .inr (.inr hu)
  · rcases hunder hts with heq | hu
    · exact .inl heq.symm
    · exact .inr (.inl hu)

theorem lowerRune_of_label (h : (isLowerAlnum c || c == '-') = true) : lowerRune c = c := by
  have hrange : c.val.toNat < 65 ∨ 90 < c.val.toNat ∧ c.val.toNat < 128 := by
    simp only [isLowerAlnum, Bool.or_eq_true, Bool.and_eq_true, decide_eq_true_eq, beq_iff_eq] at h
    rcases h with (⟨hlo, hhi⟩ | ⟨_, hhi⟩) | h
    · have hlo' : (97 : ℕ) ≤ c.val.toNat := hlo
      have hhi' : c.val.toNat ≤ 122 := hhi
      omega
    · have hhi' : c.val.toNat ≤ 57 := hhi
      omega
    · subst h
      decide
  have hdotted : c ≠ Char.ofNat 0x130 := by
    rintro rfl
    revert hrange
    decide
  have hkelvin : c ≠ Char.ofNat 0x212A := by
    rintro rfl
    revert hrange
    decide
  unfold lowerRune
  rw [if_neg hdotted, if_neg hkelvin]
  unfold Char.toLower
  rw [dif_neg]
  rintro ⟨hlo, hhi⟩
  have hlo' : (65 : ℕ) ≤ c.val.toNat := hlo
  have hhi' : c.val.toNat ≤ 90 := hhi
  omega

theorem cutPrefix_eq_some {s rest : String} (h : cutPrefix s pre = some rest) :
    s = pre ++ rest := by
  unfold cutPrefix at h
  split at h
  next hpre =>
    cases h
    obtain ⟨t, ht⟩ := List.isPrefixOf_iff_prefix.mp hpre
    rw [← ht, List.drop_left, ← String.toList_inj, String.toList_append, String.toList_ofList, ht]
  next => cases h

theorem cutPrefix_eq_none {s : String} {cs : List Char} (hpre : pre.toList = c :: cs)
    (hc : c ∉ s.toList) : cutPrefix s pre = none := by
  unfold cutPrefix
  refine if_neg fun h => hc ?_
  obtain ⟨t, ht⟩ := List.isPrefixOf_iff_prefix.mp h
  rw [← ht, hpre]
  exact List.mem_cons_self

theorem toLower_eq_self {s : String} (h : ∀ c ∈ s.toList, lowerRune c = c) : toLower s = s := by
  unfold toLower
  rw [List.map_congr_left h, List.map_id', String.ofList_toList]

theorem lowerRune_idem (c : Char) : lowerRune (lowerRune c) = lowerRune c := by
  by_cases hdotted : c = Char.ofNat 0x130
  · subst hdotted
    decide
  by_cases hkelvin : c = Char.ofNat 0x212A
  · subst hkelvin
    decide
  have hlower : lowerRune c = c.toLower := by
    unfold lowerRune
    rw [if_neg hdotted, if_neg hkelvin]
  by_cases hupper : 65 ≤ c.val.toNat ∧ c.val.toNat ≤ 90
  · refine lowerRune_of_label ?_
    rw [hlower]
    have hval : c.toLower.val = c.val + 32 := by
      unfold Char.toLower
      rw [dif_pos (show c.val ≥ 'A'.val ∧ c.val ≤ 'Z'.val from hupper)]
      rfl
    have hnat : c.toLower.toNat = c.val.toNat + 32 := by
      show c.toLower.val.toNat = _
      rw [hval, UInt32.toNat_add]
      exact Nat.mod_eq_of_lt (by have : (32 : UInt32).toNat = 32 := rfl; omega)
    have hle : 'a' ≤ c.toLower ∧ c.toLower ≤ 'z' := by
      constructor
      · show (97 : ℕ) ≤ c.toLower.toNat
        omega
      · show c.toLower.toNat ≤ 122
        omega
    simp [isLowerAlnum, hle]
  · have hself : lowerRune c = c := by
      rw [hlower]
      unfold Char.toLower
      exact dif_neg hupper
    rw [hself, hself]

theorem toLower_idem : toLower (toLower s) = toLower s := by
  refine toLower_eq_self fun c hc => ?_
  rw [toLower, String.toList_ofList] at hc
  obtain ⟨c', -, rfl⟩ := List.mem_map.mp hc
  exact lowerRune_idem c'

theorem trimSpace_eq_self {s : String} (h : ∀ c ∈ s.toList, isSpace c = false) :
    trimSpace s = s := by
  have hdrop : ∀ cs : List Char, (∀ c ∈ cs, isSpace c = false) →
      cs.dropWhile isSpace = cs := by
    intro cs hcs
    cases cs with
    | nil => rfl
    | cons c cs => rw [List.dropWhile_cons_of_neg (by simp [hcs c List.mem_cons_self])]
  unfold trimSpace
  rw [hdrop _ h, hdrop _ (fun c hc => h c (List.mem_reverse.mp hc)), List.reverse_reverse,
    String.ofList_toList]

theorem mem_splitChars {cs : List Char} (h : c ∈ cs) :
    c = sep ∨ ∃ part ∈ splitChars sep cs, c ∈ part := by
  induction cs with
  | nil => cases h
  | cons x cs ih =>
    unfold splitChars
    split
    next hx =>
      rcases List.mem_cons.mp h with rfl | h
      · exact .inl hx
      · obtain hsep | ⟨part, hpart, hc⟩ := ih h
        · exact .inl hsep
        · exact .inr ⟨part, List.mem_cons_of_mem _ hpart, hc⟩
    next =>
      split
      next hnil =>
        rcases List.mem_cons.mp h with rfl | h
        · exact .inr ⟨[c], List.mem_cons_self, List.mem_cons_self⟩
        · obtain hsep | ⟨part, hpart, -⟩ := ih h
          · exact .inl hsep
          · rw [hnil] at hpart
            cases hpart
      next first parts hparts =>
        rcases List.mem_cons.mp h with rfl | h
        · exact .inr ⟨_, List.mem_cons_self, List.mem_cons_self⟩
        · obtain hsep | ⟨part, hpart, hc⟩ := ih h
          · exact .inl hsep
          · rw [hparts] at hpart
            rcases List.mem_cons.mp hpart with rfl | hpart
            · exact .inr ⟨_, List.mem_cons_self, List.mem_cons_of_mem _ hc⟩
            · exact .inr ⟨part, List.mem_cons_of_mem _ hpart, hc⟩

theorem splitChars_ne_nil : splitChars sep cs ≠ [] := by
  cases cs with
  | nil => simp [splitChars]
  | cons c cs =>
    unfold splitChars
    split
    · exact List.cons_ne_nil _ _
    · split <;> exact List.cons_ne_nil _ _

theorem splitChars_concat : splitChars sep (cs ++ [sep]) = splitChars sep cs ++ [[]] := by
  induction cs with
  | nil => simp [splitChars]
  | cons c cs ih =>
    by_cases hc : c = sep
    · simp [splitChars, hc, ih]
    · cases hparts : splitChars sep cs with
      | nil => exact absurd hparts (splitChars_ne_nil sep cs)
      | cons part parts => simp [splitChars, hc, ih, hparts]

theorem splitChars_append (a b : List Char) :
    splitChars sep (a ++ sep :: b) = splitChars sep a ++ splitChars sep b := by
  induction a with
  | nil => simp [splitChars]
  | cons c a ih =>
    by_cases hc : c = sep
    · simp [splitChars, hc, ih]
    · cases hparts : splitChars sep a with
      | nil => exact absurd hparts (splitChars_ne_nil sep a)
      | cons part parts => simp [splitChars, hc, ih, hparts]

theorem splitChars_length : (splitChars sep cs).length = cs.count sep + 1 := by
  induction cs with
  | nil => rfl
  | cons c cs ih =>
    by_cases hc : c = sep
    · simp [splitChars, hc, ih]
    · cases hparts : splitChars sep cs with
      | nil => exact absurd hparts (splitChars_ne_nil sep cs)
      | cons part parts =>
        rw [hparts] at ih
        simpa [splitChars, hc, hparts] using ih

def joinChars (sep : Char) : List (List Char) → List Char
  | [] => []
  | [p] => p
  | p :: q :: ps => p ++ sep :: joinChars sep (q :: ps)

theorem joinChars_append {qs : List (List Char)} (hp : ps ≠ []) (hq : qs ≠ []) :
    joinChars sep (ps ++ qs) = joinChars sep ps ++ sep :: joinChars sep qs := by
  induction ps with
  | nil => exact absurd rfl hp
  | cons p ps ih =>
    cases ps with
    | nil =>
      cases qs with
      | nil => exact absurd rfl hq
      | cons q qs => rfl
    | cons p' ps =>
      have hrest := ih (List.cons_ne_nil _ _)
      simp only [List.cons_append, joinChars] at hrest ⊢
      rw [hrest, List.append_assoc, List.cons_append]

theorem joinChars_splitChars : joinChars sep (splitChars sep cs) = cs := by
  induction cs with
  | nil => rfl
  | cons c cs ih =>
    cases hparts : splitChars sep cs with
    | nil => exact absurd hparts (splitChars_ne_nil sep cs)
    | cons part parts =>
      rw [hparts] at ih
      by_cases hc : c = sep
      · simp [splitChars, hc, hparts, joinChars, ih]
      · cases parts with
        | nil => simpa [splitChars, hc, hparts, joinChars] using ih
        | cons q parts => simpa [splitChars, hc, hparts, joinChars] using ih

theorem splitChars_free {sep : Char} {cs : List Char} (h : sep ∉ cs) :
    splitChars sep cs = [cs] := by
  induction cs with
  | nil => rfl
  | cons c cs ih =>
    have hc : c ≠ sep := fun heq => h (heq ▸ List.mem_cons_self)
    rw [splitChars, if_neg hc, ih fun hmem => h (List.mem_cons_of_mem c hmem)]

theorem splitChars_joinChars {sep : Char} (hne : ps ≠ []) (hsep : ∀ p ∈ ps, sep ∉ p) :
    splitChars sep (joinChars sep ps) = ps := by
  induction ps with
  | nil => exact absurd rfl hne
  | cons p ps ih =>
    have hp := splitChars_free (hsep p List.mem_cons_self)
    cases ps with
    | nil => exact hp
    | cons q ps =>
      have hrest := ih (List.cons_ne_nil q ps) fun r hr => hsep r (List.mem_cons_of_mem p hr)
      rw [joinChars, splitChars_append, hp, hrest]
      rfl

theorem toList_join (parts : List String) :
    (join parts (String.singleton sep)).toList = joinChars sep (parts.map String.toList) := by
  have hfold : ∀ (ps : List String) (p : String),
      (ps.foldl (fun acc q => acc ++ String.singleton sep ++ q) p).toList =
        joinChars sep (p.toList :: ps.map String.toList) := by
    intro ps
    induction ps with
    | nil => exact fun p => rfl
    | cons q ps ih =>
      intro p
      rw [List.foldl_cons, ih]
      cases ps with
      | nil => simp [joinChars, String.toList_append]
      | cons q' ps => simp [joinChars, String.toList_append]
  cases parts with
  | nil => rfl
  | cons p ps => exact hfold ps p

theorem join_inj {sep : Char} {ps qs : List String} (hps : ∀ p ∈ ps, sep ∉ p.toList)
    (hqs : ∀ q ∈ qs, sep ∉ q.toList) (hp : ps ≠ []) (hq : qs ≠ [])
    (h : join ps (String.singleton sep) = join qs (String.singleton sep)) : ps = qs := by
  have hsplit : ∀ {rs : List String}, rs ≠ [] → (∀ r ∈ rs, sep ∉ r.toList) →
      splitChars sep (join rs (String.singleton sep)).toList = rs.map String.toList := by
    intro rs hne hfree
    rw [toList_join]
    refine splitChars_joinChars (fun hnil => hne (List.map_eq_nil_iff.mp hnil)) fun r hr => ?_
    obtain ⟨r', hr', rfl⟩ := List.mem_map.mp hr
    exact hfree r' hr'
  have hmap : ps.map String.toList = qs.map String.toList := by
    rw [← hsplit hp hps, ← hsplit hq hqs, h]
  exact List.map_injective_iff.mpr (fun a b hab => String.toList_inj.mp hab) hmap

theorem toList_split : (split s sep).map String.toList = splitChars sep s.toList := by
  simp [split, Function.comp_def]

theorem split_append (t : String) (sep : Char) :
    split (s ++ String.singleton sep ++ t) sep = split s sep ++ split t sep := by
  have hlist : (s ++ String.singleton sep ++ t).toList = s.toList ++ sep :: t.toList := by
    simp [String.toList_append]
  unfold split
  rw [hlist, splitChars_append, List.map_append]

theorem split_ne_nil : split s sep ≠ [] := by
  simpa [split] using splitChars_ne_nil sep s.toList

theorem split_length : (split s sep).length = s.toList.count sep + 1 := by
  rw [split, List.length_map, splitChars_length]

theorem join_split : join (split s sep) (String.singleton sep) = s := by
  apply String.toList_injective
  rw [toList_join, toList_split, joinChars_splitChars]

theorem join_append {ps qs : List String} (hp : ps ≠ []) (hq : qs ≠ []) :
    join (ps ++ qs) (String.singleton sep) =
      join ps (String.singleton sep) ++ String.singleton sep ++ join qs (String.singleton sep) := by
  apply String.toList_injective
  simp only [toList_join, List.map_append, String.toList_append]
  rw [joinChars_append sep (by simpa using hp) (by simpa using hq)]
  simp

theorem cut_append {s : String} {sep : Char} (hs : sep ∉ s.toList) :
    cut (s ++ String.singleton sep ++ t) sep = (s, some t) := by
  have htake : (s.toList ++ sep :: t.toList).takeWhile (fun c => decide (c ≠ sep)) = s.toList := by
    rw [List.takeWhile_append_of_pos]
    · simp
    · intro c hc
      simp only [ne_eq, decide_not, Bool.not_eq_true', decide_eq_false_iff_not]
      rintro rfl
      exact hs hc
  have hlist : (s ++ String.singleton sep ++ t).toList = s.toList ++ sep :: t.toList := by
    simp [String.toList_append]
  unfold cut
  rw [hlist, htake]
  simp

end L8Tunnel.Base.GoString
