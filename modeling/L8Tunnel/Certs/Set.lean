import L8Tunnel.Edge.Listener

/-! # The edge's certificates (certs/set.go) -/

namespace L8Tunnel.Certs
open Base GoString

/-- `tls.X509KeyPair`: the certificate of two PEM files, or why there is none. -/
structure Tls (γ : Type) where
  keyPair : List UInt8 → List UInt8 → Except String γ

/-- The loaded certificates in cells, with the index by key and the one by name. -/
structure CertSet (γ : Type) where
  cells : ℕ → Option γ := fun _ => none
  next : ℕ := 0
  byKey : GoMap String ℕ := ∅
  names : GoMap String ℕ := ∅

namespace CertSet
variable {γ : Type}

def removeLocked (order : RangeOrder) (key : String) (s : CertSet γ) : CertSet γ :=
  match s.byKey.get key with
  | none => s
  | some old =>
    { s with
      byKey := s.byKey.del key
      names := Index.drop s.names old (s.names.range order) }

def store (key : String) (pair : γ) (names : List String) (s : CertSet γ) : CertSet γ where
  cells := Function.update s.cells s.next (some pair)
  next := s.next + 1
  byKey := s.byKey.set key s.next
  names := Index.add s.names s.next (names.map GoString.toLower)

def put (tls : Tls γ) (order : RangeOrder) (key : String) (certPEM keyPEM : List UInt8)
    (names : List String) (s : CertSet γ) : Except String (CertSet γ) :=
  match tls.keyPair certPEM keyPEM with
  | .error e => .error ("certificate for " ++ key ++ ": " ++ e)
  | .ok pair => .ok ((s.removeLocked order key).store key pair names)

def remove (order : RangeOrder) (key : String) (s : CertSet γ) : CertSet γ :=
  s.removeLocked order key

def lookup (s : CertSet γ) (name : String) : Option γ := (s.names.get name).bind s.cells

def getCertificate (s : CertSet γ) (serverName : String) : Except String γ :=
  let name := GoString.toLower (GoString.trimSuffix serverName ".")
  match s.lookup name with
  | some c => .ok c
  | none =>
    match (Edge.afterLabel name).bind fun rest => s.lookup ("*" ++ rest) with
    | some c => .ok c
    | none => .error ("no certificate for " ++ GoString.quote name)

structure Loaded (γ : Type) where
  names : List String
  cert : γ

/-- The set is what was put into it under each key; a name may still point to an older owner. -/
structure Holds (s : CertSet γ) (R : String → Option (Loaded γ)) : Prop where
  cell : ∀ key l, R key = some l → ∃ ref, s.byKey.get key = some ref ∧ s.cells ref = some l.cert
  key : ∀ key ref, s.byKey.get key = some ref → ref < s.next ∧ ∃ l, R key = some l
  one : ∀ key key' ref, s.byKey.get key = some ref → s.byKey.get key' = some ref → key = key'
  names : ∀ n ref, s.names.get n = some ref →
    ∃ key l, R key = some l ∧ s.byKey.get key = some ref ∧ n ∈ l.names

def Owns (s : CertSet γ) (R : String → Option (Loaded γ)) (key : String) : Prop :=
  ∀ l, R key = some l → ∀ n ∈ l.names, s.names.get n = s.byKey.get key

theorem holds_empty : Holds ({} : CertSet γ) fun _ => none where
  cell _ _ h := by cases h
  key _ _ h := by simp at h
  one _ _ _ h := by simp at h
  names _ _ h := by simp at h

section
variable {s : CertSet γ} {R : String → Option (Loaded γ)} {order : RangeOrder} {key : String}

theorem removeLocked_none (h : s.byKey.get key = none) : s.removeLocked order key = s := by
  unfold removeLocked
  rw [h]

theorem removeLocked_names {old : ℕ} (h : s.byKey.get key = some old) (n : String) :
    (s.removeLocked order key).names.get n =
      if s.names.get n = some old then none else s.names.get n := by
  have hnames : (s.removeLocked order key).names = Index.drop s.names old (s.names.range order) := by
    unfold removeLocked
    rw [h]
  rw [hnames, Index.get_drop]
  by_cases hn : s.names.get n = some old
  · rw [if_pos hn, if_pos ⟨(GoMap.mem_range _ _ n).mpr ⟨old, hn⟩, hn⟩]
  · rw [if_neg hn, if_neg fun hand => hn hand.2]

theorem removeLocked_byKey (s : CertSet γ) (order : RangeOrder) (key k : String) :
    (s.removeLocked order key).byKey.get k = if k = key then none else s.byKey.get k := by
  unfold removeLocked
  split
  next h =>
    split
    next hk => rw [hk, h]
    next => rfl
  next => exact GoMap.get_del_eq_ite ..

theorem removeLocked_cells (s : CertSet γ) (order : RangeOrder) (key : String) :
    (s.removeLocked order key).cells = s.cells ∧ (s.removeLocked order key).next = s.next := by
  unfold removeLocked
  split <;> exact ⟨rfl, rfl⟩

theorem Holds.removeLocked (h : Holds s R) (order : RangeOrder) (key : String) :
    Holds (s.removeLocked order key) (Function.update R key none) := by
  have hR : ∀ k l, Function.update R key none k = some l → k ≠ key ∧ R k = some l := by
    intro k l hl
    by_cases hk : k = key
    · subst hk
      rw [Function.update_self] at hl
      cases hl
    · rw [Function.update_of_ne hk] at hl
      exact ⟨hk, hl⟩
  have hkey : ∀ k ref, (s.removeLocked order key).byKey.get k = some ref →
      k ≠ key ∧ s.byKey.get k = some ref := by
    intro k ref hk
    rw [removeLocked_byKey] at hk
    split at hk
    · cases hk
    next hne => exact ⟨hne, hk⟩
  obtain ⟨hcells, hnext⟩ := removeLocked_cells s order key
  refine ⟨fun k l hl => ?_, fun k ref hk => ?_, fun k k' ref hk hk' => ?_, fun n ref hn => ?_⟩
  · obtain ⟨hne, hl⟩ := hR k l hl
    obtain ⟨ref, hget, hcell⟩ := h.cell k l hl
    exact ⟨ref, by rw [removeLocked_byKey, if_neg hne]; exact hget, by rw [hcells]; exact hcell⟩
  · obtain ⟨hne, hget⟩ := hkey k ref hk
    obtain ⟨hlt, l, hl⟩ := h.key k ref hget
    exact ⟨by rw [hnext]; exact hlt, l, by rw [Function.update_of_ne hne]; exact hl⟩
  · exact h.one k k' ref (hkey k ref hk).2 (hkey k' ref hk').2
  · have hold : s.names.get n = some ref ∧ s.byKey.get key ≠ some ref := by
      cases hb : s.byKey.get key with
      | none =>
        rw [removeLocked_none hb] at hn
        exact ⟨hn, by simp⟩
      | some old =>
        rw [removeLocked_names hb] at hn
        split at hn
        · cases hn
        next hne =>
          refine ⟨hn, fun heq => hne ?_⟩
          rw [hn, heq]
    obtain ⟨k, l, hl, hget, hmem⟩ := h.names n ref hold.1
    have hne : k ≠ key := by
      rintro rfl
      exact hold.2 hget
    exact ⟨k, l, by rw [Function.update_of_ne hne]; exact hl,
      by rw [removeLocked_byKey, if_neg hne]; exact hget, hmem⟩

variable {k n : String}

theorem Owns.removeLocked (h : Holds s R) (ho : Owns s R k) (order : RangeOrder) (hne : k ≠ key) :
    Owns (s.removeLocked order key) (Function.update R key none) k := by
  intro l hl n hn
  rw [Function.update_of_ne hne] at hl
  have hname := ho l hl n hn
  rw [removeLocked_byKey, if_neg hne]
  cases hb : s.byKey.get key with
  | none =>
    rw [removeLocked_none hb]
    exact hname
  | some old =>
    rw [removeLocked_names hb, if_neg, hname]
    intro hold
    rw [hname] at hold
    exact hne (h.one k key old hold hb)

theorem Holds.byKey_none (h : Holds s R) (hfree : R key = none) : s.byKey.get key = none := by
  rw [Option.eq_none_iff_forall_ne_some]
  intro ref href
  obtain ⟨-, l, hl⟩ := h.key key ref href
  rw [hfree] at hl
  cases hl

theorem Holds.store (h : Holds s R) (hfree : R key = none) (pair : γ) (names : List String) :
    Holds (s.store key pair names)
      (Function.update R key (some ⟨names.map toLower, pair⟩)) := by
  have hkey : ∀ k, (s.store key pair names).byKey.get k =
      if k = key then some s.next else s.byKey.get k := fun k => GoMap.get_set_eq_ite ..
  have hold : ∀ k ref, s.byKey.get k = some ref → (s.store key pair names).byKey.get k = some ref := by
    intro k ref hk
    rw [hkey, if_neg]
    · exact hk
    · rintro rfl
      rw [h.byKey_none hfree] at hk
      cases hk
  have hself : (s.store key pair names).byKey.get key = some s.next := by rw [hkey, if_pos rfl]
  refine ⟨fun k l hl => ?_, fun k ref hk => ?_, fun k k' ref hk hk' => ?_, fun n ref hn => ?_⟩
  · by_cases hk : k = key
    · subst hk
      rw [Function.update_self] at hl
      cases hl
      exact ⟨s.next, hself, Function.update_self ..⟩
    · rw [Function.update_of_ne hk] at hl
      obtain ⟨ref, hget, hcell⟩ := h.cell k l hl
      refine ⟨ref, hold k ref hget, ?_⟩
      rw [← hcell]
      exact Function.update_of_ne (Nat.ne_of_lt (h.key k ref hget).1) ..
  · rw [hkey] at hk
    split at hk
    next heq =>
      cases hk
      exact ⟨Nat.lt_succ_self _, _, by rw [heq, Function.update_self]⟩
    next hne =>
      obtain ⟨hlt, l, hl⟩ := h.key k ref hk
      exact ⟨Nat.lt_succ_of_lt hlt, l, by rw [Function.update_of_ne hne]; exact hl⟩
  · -- the new address is nobody else's
    rw [hkey] at hk hk'
    split at hk
    next heq =>
      cases hk
      split at hk'
      next heq' => exact heq.trans heq'.symm
      next => exact absurd (h.key k' _ hk').1 (Nat.lt_irrefl _)
    next =>
      split at hk'
      next =>
        cases hk'
        exact absurd (h.key k _ hk).1 (Nat.lt_irrefl _)
      next => exact h.one k k' ref hk hk'
  · have hadd : (Index.add s.names s.next (names.map toLower)).get n = some ref := hn
    rw [Index.get_add] at hadd
    split at hadd
    next hmem =>
      cases hadd
      exact ⟨key, _, Function.update_self .., hself, hmem⟩
    next =>
      obtain ⟨k, l, hl, hget, hmem⟩ := h.names n ref hadd
      have hne : k ≠ key := by
        rintro rfl
        rw [hfree] at hl
        cases hl
      exact ⟨k, l, by rw [Function.update_of_ne hne]; exact hl, hold k ref hget, hmem⟩

theorem owns_store (pair : γ) (names : List String) :
    Owns (s.store key pair names)
      (Function.update R key (some ⟨names.map toLower, pair⟩)) key := by
  intro l hl n hn
  rw [Function.update_self] at hl
  cases hl
  have hname : (s.store key pair names).names.get n = some s.next :=
    (Index.get_add ..).trans (if_pos hn)
  have hkey : (s.store key pair names).byKey.get key = some s.next := GoMap.get_set ..
  rw [hname, hkey]

theorem Owns.store (ho : Owns s R k) (hne : k ≠ key) (pair : γ) (names : List String)
    (hdisj : ∀ l, R k = some l → ∀ n ∈ l.names, n ∉ names.map toLower) :
    Owns (s.store key pair names)
      (Function.update R key (some ⟨names.map toLower, pair⟩)) k := by
  intro l hl n hn
  rw [Function.update_of_ne hne] at hl
  have hname : (s.store key pair names).names.get n = s.names.get n :=
    (Index.get_add ..).trans (if_neg (hdisj l hl n hn))
  have hkey : (s.store key pair names).byKey.get k = s.byKey.get k := GoMap.get_set_ne _ _ hne
  rw [hname, hkey]
  exact ho l hl n hn

theorem Holds.put (h : Holds s R) (order : RangeOrder) (key : String) (pair : γ)
    (names : List String) :
    Holds ((s.removeLocked order key).store key pair names)
      (Function.update R key (some ⟨names.map toLower, pair⟩)) := by
  have hstore := (h.removeLocked order key).store (Function.update_self ..) pair names
  rwa [Function.update_idem] at hstore

theorem owns_put (order : RangeOrder) (key : String) (pair : γ) (names : List String) :
    Owns ((s.removeLocked order key).store key pair names)
      (Function.update R key (some ⟨names.map toLower, pair⟩)) key :=
  owns_store pair names

theorem Owns.put (h : Holds s R) (ho : Owns s R k) (order : RangeOrder) (hne : k ≠ key) (pair : γ)
    (names : List String) (hdisj : ∀ l, R k = some l → ∀ n ∈ l.names, n ∉ names.map toLower) :
    Owns ((s.removeLocked order key).store key pair names)
      (Function.update R key (some ⟨names.map toLower, pair⟩)) k := by
  have hstore := (ho.removeLocked h order hne).store hne pair names fun l hl => by
    rw [Function.update_of_ne hne] at hl
    exact hdisj l hl
  rwa [Function.update_idem] at hstore

theorem Holds.lookup_some (h : Holds s R) (ho : Owns s R key) {l : Loaded γ} (hl : R key = some l)
    (hn : n ∈ l.names) : s.lookup n = some l.cert := by
  obtain ⟨ref, hget, hcell⟩ := h.cell key l hl
  unfold lookup
  rw [ho l hl n hn, hget]
  exact hcell

theorem Holds.lookup_none (h : Holds s R) (hn : ∀ key l, R key = some l → n ∉ l.names) :
    s.lookup n = none := by
  have hget : s.names.get n = none := by
    rw [Option.eq_none_iff_forall_ne_some]
    intro ref href
    obtain ⟨key, l, hl, -, hmem⟩ := h.names n ref href
    exact hn key l hl hmem
  unfold lookup
  rw [hget]
  rfl

end
end CertSet
end L8Tunnel.Certs
