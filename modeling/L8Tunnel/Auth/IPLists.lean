import L8Tunnel.Auth.Access
import L8Tunnel.Base.Except

/-! # The IP lists of an access policy (auth/access.go) -/

namespace L8Tunnel.Auth
open Base Net

/-- What netip promises: no prefix longer than its address, no zero address. -/
structure Netip.Lawful (n : Netip) : Prop where
  bits_le : ∀ s p, n.parsePrefix s = .ok p → p.bits ≤ bitLen p.addr
  addr_valid : ∀ s a, n.parseAddr s = .ok a → a ≠ .zero

def plain (a : Addr) : Addr := a.unmap.withoutZone

def standsFor (p : Prefix) : Prefix :=
  match p.addr with
  | .v6 x _ =>
    if x.toNat / 2 ^ 32 = 0xffff ∧ 96 ≤ p.bits then ⟨.v4 (x.setWidth 32), p.bits - 96⟩ else p
  | _ => p

def InCIDR (p : Prefix) (a : Addr) : Prop :=
  match p.addr, a with
  | .v4 x, .v4 y => Agree p.bits x y
  | .v6 x _, .v6 y _ => Agree p.bits x y
  | _, _ => False

def InEntry (n : Netip) (entry : String) (client : Addr) : Prop :=
  if GoString.containsRune entry '/' then
    ∃ p, n.parsePrefix entry = .ok p ∧ InCIDR (standsFor p) (plain client)
  else ∃ a, n.parseAddr entry = .ok a ∧ plain a = plain client

variable {p : Prefix} {a client : Addr} {n : Netip} {entries : List String} {ps : List Prefix}

theorem masked_contains (hp : p.bits ≤ bitLen p.addr) (ha : a.withoutZone = a) :
    (masked p).contains a = true ↔ InCIDR p a := by
  obtain ⟨addr, k⟩ := p
  cases addr with
  | zero => simp [masked, Prefix.contains, InCIDR]
  | v4 x =>
    cases a with
    | v4 y => exact (Prefix.contains_v4 hp _ y).trans (agree_mask hp x y)
    | zero => simp [masked, Prefix.contains, InCIDR]
    | v6 y zone => simp [masked, Prefix.contains, InCIDR]
  | v6 x zone =>
    cases a with
    | v6 y zone' =>
      have hzone : zone' = "" := by
        simpa [Addr.withoutZone, eq_comm] using ha
      subst hzone
      exact (Prefix.contains_v6 hp _ y "").trans (agree_mask hp x y)
    | zero => simp [masked, Prefix.contains, InCIDR]
    | v4 y => simp [masked, Prefix.contains, InCIDR]

theorem single_contains {x : Addr} (hx : x ≠ .zero) (ha : a.withoutZone = a) :
    (Prefix.mk x.withoutZone (bitLen x)).contains a = true ↔ x.withoutZone = a := by
  cases x with
  | zero => exact absurd rfl hx
  | v4 x =>
    cases a with
    | v4 y =>
      have hbits := (Prefix.contains_v4 le_rfl x y).trans (agree_width_iff x y)
      simpa [Addr.withoutZone, bitLen] using hbits
    | zero => simp [Prefix.contains, Addr.withoutZone]
    | v6 y zone => simp [Prefix.contains, Addr.withoutZone]
  | v6 x zone =>
    cases a with
    | v6 y zone' =>
      have hzone : zone' = "" := by
        simpa [Addr.withoutZone, eq_comm] using ha
      subst hzone
      have hbits := (Prefix.contains_v6 le_rfl x y "").trans (agree_width_iff x y)
      simpa [Addr.withoutZone, bitLen] using hbits
    | zero => simp [Prefix.contains, Addr.withoutZone]
    | v4 y => simp [Prefix.contains, Addr.withoutZone]

theorem unmap_ne_zero (h : a ≠ .zero) : a.unmap ≠ .zero := by
  cases a with
  | zero => exact absurd rfl h
  | v4 x => simp [Addr.unmap]
  | v6 x zone =>
    simp only [Addr.unmap]
    split <;> simp

/-- No prefix the entry parses to is an IPv4-mapped CIDR. -/
def NotMappedCIDR (n : Netip) (entry : String) : Prop :=
  GoString.containsRune entry '/' = true → ∀ p, n.parsePrefix entry = .ok p → standsFor p = p

/-- The entry has the client, and the code finds it there. -/
structure Caught (n : Netip) (entry : String) (client : Addr) : Prop where
  inside : InEntry n entry client
  notMapped : NotMappedCIDR n entry
  noZone : client.unmap.withoutZone = client.unmap

theorem contains_noZone (h : p.contains a = true) : a.withoutZone = a := by
  obtain ⟨addr, k⟩ := p
  cases a with
  | zero => rfl
  | v4 y => rfl
  | v6 y zone =>
    cases addr with
    | v6 x zone' =>
      have hzone : zone = "" := (of_decide_eq_true h).1
      rw [hzone]
      rfl
    | zero => cases h
    | v4 x => cases h

theorem unmap_not_mapped {y : BitVec 128} {zone : String} (h : client.unmap = .v6 y zone) :
    y.toNat / 2 ^ 32 ≠ 0xffff := by
  cases client with
  | zero => cases h
  | v4 x => cases h
  | v6 x zone' =>
    simp only [Addr.unmap] at h
    split at h
    · cases h
    next hx =>
      obtain ⟨rfl, -⟩ := Addr.v6.inj h
      exact hx

/-- An unmapped client is in no CIDR of IPv4-mapped addresses as it is parsed. -/
theorem mapped_misses (hp : p.bits ≤ bitLen p.addr) (hmapped : standsFor p ≠ p) :
    (masked p).contains client.unmap = false := by
  obtain ⟨addr, k⟩ := p
  cases addr with
  | zero => exact absurd rfl hmapped
  | v4 x => exact absurd rfl hmapped
  | v6 x zone =>
    have hx : x.toNat / 2 ^ 32 = 0xffff ∧ 96 ≤ k := by
      by_contra hnot
      exact hmapped (if_neg hnot)
    rw [← Bool.not_eq_true]
    intro hin
    have hzone := contains_noZone hin
    rw [masked_contains hp hzone] at hin
    cases hclient : client.unmap with
    | zero =>
      rw [hclient] at hin
      exact hin
    | v4 y =>
      rw [hclient] at hin
      exact hin
    | v6 y zone' =>
      rw [hclient] at hin
      have hagree : Agree 96 x y := fun i hi => hin i (Nat.lt_of_lt_of_le hi hx.2)
      have hsame := hagree.div_eq (by decide)
      exact unmap_not_mapped hclient (hsame.symm.trans hx.1)

theorem parsePrefix_contains (hn : n.Lawful) {entry : String} (hp : parsePrefix n entry = .ok p)
    (hentry : NotMappedCIDR n entry) (hzone : client.unmap.withoutZone = client.unmap) :
    p.contains client.unmap = true ↔ InEntry n entry client := by
  have hplain : plain client = client.unmap := hzone
  unfold parsePrefix at hp
  unfold InEntry
  rw [hplain]
  split at hp
  · next hslash =>
    rw [if_pos hslash]
    cases hq : n.parsePrefix entry with
    | error err =>
      rw [hq] at hp
      cases hp
    | ok q =>
      rw [hq] at hp
      cases hp
      rw [masked_contains (hn.bits_le entry q hq) hzone]
      constructor
      · intro hin
        exact ⟨q, rfl, (hentry hslash q hq).symm ▸ hin⟩
      · rintro ⟨q', hq', hin⟩
        cases hq'
        exact (hentry hslash q hq) ▸ hin
  · next hslash =>
    rw [if_neg hslash]
    cases hx : n.parseAddr entry with
    | error err =>
      rw [hx] at hp
      cases hp
    | ok x =>
      rw [hx] at hp
      cases hp
      rw [single_contains (unmap_ne_zero (hn.addr_valid entry x hx)) hzone]
      constructor
      · exact fun heq => ⟨x, rfl, heq⟩
      · rintro ⟨x', hx', heq⟩
        cases hx'
        exact heq

theorem parsePrefix_caught (hn : n.Lawful) {entry : String} (hp : parsePrefix n entry = .ok p) :
    p.contains client.unmap = true ↔ Caught n entry client := by
  constructor
  · intro hin
    have hzone := contains_noZone hin
    have hentry : NotMappedCIDR n entry := by
      intro hslash q hq
      by_contra hmapped
      have hmask : parsePrefix n entry = .ok (masked q) := by
        unfold parsePrefix
        rw [if_pos hslash, hq]
        rfl
      obtain rfl : masked q = p := Except.ok.inj (hmask.symm.trans hp)
      rw [mapped_misses (hn.bits_le entry q hq) hmapped] at hin
      cases hin
    exact ⟨(parsePrefix_contains hn hp hentry hzone).mp hin, hentry, hzone⟩
  · intro h
    exact (parsePrefix_contains hn hp h.notMapped h.noZone).mpr h.inside

theorem any_contains (hn : n.Lawful) (hps : parsePrefixes n entries = .ok ps) :
    (ps.any fun p => p.contains client.unmap) = true ↔ ∃ e ∈ entries, Caught n e client := by
  have hall := mapM_eq_ok.mp hps
  clear hps
  induction hall with
  | nil => simp
  | @cons e p es ps he _ ih =>
    rw [List.any_cons, Bool.or_eq_true, parsePrefix_caught hn he, List.exists_mem_cons_iff]
    exact or_congr_right ih

theorem parsePrefixes_nil_iff (h : parsePrefixes n entries = .ok ps) : ps = [] ↔ entries = [] := by
  have hlen := (mapM_eq_ok.mp h).length_eq
  rw [← List.length_eq_zero_iff, ← List.length_eq_zero_iff, hlen]

theorem allowsIP_eq_true_iff (a : Access) (client : Addr) :
    a.allowsIP client = true ↔ (a.deny.any fun p => p.contains client.unmap) = false ∧
      (a.allow = [] ∨ (a.allow.any fun p => p.contains client.unmap) = true) := by
  simp only [Access.allowsIP]
  by_cases hdeny : (a.deny.any fun p => p.contains client.unmap) = true
  · simp [hdeny]
  · by_cases hnil : a.allow = []
    · simp [hdeny, hnil]
    · simp [hdeny, hnil]

/-- `AllowsIP` is false for a client in a deny entry, and else true exactly if the allow
list is empty or has the client. -/
def MeansWhatItSays (n : Netip) (allow deny : List String) (a : Access) (client : Addr) : Prop :=
  ((∃ e ∈ deny, InEntry n e client) → a.allowsIP client = false) ∧
    ((¬ ∃ e ∈ deny, InEntry n e client) →
      (a.allowsIP client = true ↔ allow = [] ∨ ∃ e ∈ allow, InEntry n e client))

/-- No entry that is missed decides: a denied client is caught by a deny entry or let in
by nothing, and an allowed one that is not denied is caught by an allow entry. -/
structure NoneMissed (n : Netip) (allow deny : List String) (client : Addr) : Prop where
  denied : (∃ e ∈ deny, InEntry n e client) →
    (∃ e ∈ deny, Caught n e client) ∨ allow ≠ [] ∧ ∀ e ∈ allow, ¬ Caught n e client
  allowed : (¬ ∃ e ∈ deny, InEntry n e client) → (∃ e ∈ allow, InEntry n e client) →
    ∃ e ∈ allow, Caught n e client

theorem ip_lists_mean_iff {n : Netip} (hn : n.Lawful) {allow deny : List String} {a : Access}
    (hallow : parsePrefixes n allow = .ok a.allow) (hdeny : parsePrefixes n deny = .ok a.deny)
    (client : Addr) :
    MeansWhatItSays n allow deny a client ↔ NoneMissed n allow deny client := by
  have hcode : a.allowsIP client = true ↔ (¬ ∃ e ∈ deny, Caught n e client) ∧
      (allow = [] ∨ ∃ e ∈ allow, Caught n e client) := by
    rw [allowsIP_eq_true_iff, any_contains hn hallow, parsePrefixes_nil_iff hallow,
      ← Bool.not_eq_true, any_contains hn hdeny]
  have hinside : ∀ entries : List String, (∃ e ∈ entries, Caught n e client) →
      ∃ e ∈ entries, InEntry n e client := fun _ ⟨e, he, hc⟩ => ⟨e, he, hc.inside⟩
  unfold MeansWhatItSays
  rw [← Bool.not_eq_true, hcode]
  constructor
  · rintro ⟨hden, hall⟩
    refine ⟨fun hd => ?_, fun hd hin => ?_⟩
    · by_cases hcaught : ∃ e ∈ deny, Caught n e client
      · exact .inl hcaught
      · have hout := not_or.mp fun hin => hden hd ⟨hcaught, hin⟩
        exact .inr ⟨hout.1, fun e he hc => hout.2 ⟨e, he, hc⟩⟩
    · rcases ((hall hd).mpr (.inr hin)).2 with hnil | hcaught
      · obtain ⟨e, he, -⟩ := hin
        rw [hnil] at he
        cases he
      · exact hcaught
  · intro h
    refine ⟨fun hd => ?_, fun hd => ⟨?_, fun hin => ⟨fun hc => hd (hinside _ hc), ?_⟩⟩⟩
    · rintro ⟨hnot, hin⟩
      rcases h.denied hd with hcaught | ⟨hne, hnone⟩
      · exact hnot hcaught
      · rcases hin with hnil | ⟨e, he, hc⟩
        · exact hne hnil
        · exact hnone e he hc
    · rintro ⟨-, hin⟩
      exact hin.imp_right (hinside _)
    · exact hin.imp_right (h.allowed hd)

def fewTexts : Netip where
  parsePrefix s :=
    if s = "10.0.0.0/8" then .ok ⟨.v4 0x0a000000, 8⟩
    else if s = "::ffff:10.0.0.0/104" then .ok ⟨.v6 0xffff0a000000 "", 104⟩
    else .error "netip.ParsePrefix: no such text"
  parseAddr s :=
    if s = "fe80::1" then .ok (.v6 0xfe800000000000000000000000000001 "")
    else .error "ParseAddr: no such text"

theorem fewTexts_lawful : fewTexts.Lawful where
  bits_le s p h := by
    simp only [fewTexts] at h
    split at h
    · cases h
      decide
    split at h
    · cases h
      decide
    · cases h
  addr_valid s a h := by
    simp only [fewTexts] at h
    split at h
    · cases h
      simp
    · cases h

def tenOnly : Access :=
  { allow := [⟨.v4 0x0a000000, 8⟩], deny := [⟨.v6 0xffff0a000000 "", 104⟩] }

/-- The list denies 10.0.0.0/8 by a text that is missed. It decides for a client in
the allow list, and not for one that the allow list leaves out. -/
theorem ip_lists_mean_iff_tenOnly :
    ¬ MeansWhatItSays fewTexts ["10.0.0.0/8"] ["::ffff:10.0.0.0/104"] tenOnly (.v4 0x0a010203) ∧
      MeansWhatItSays fewTexts ["10.0.0.0/8"] ["::ffff:10.0.0.0/104"] tenOnly (.v4 0x08080808) := by
  have hiff : ∀ client, MeansWhatItSays fewTexts ["10.0.0.0/8"] ["::ffff:10.0.0.0/104"] tenOnly
      client ↔ NoneMissed fewTexts ["10.0.0.0/8"] ["::ffff:10.0.0.0/104"] client :=
    ip_lists_mean_iff fewTexts_lawful rfl rfl
  have hmapped : ∀ client, ¬ Caught fewTexts "::ffff:10.0.0.0/104" client := fun client hc =>
    absurd (hc.notMapped rfl _ rfl) (by decide)
  have hin : InEntry fewTexts "::ffff:10.0.0.0/104" (.v4 0x0a010203) :=
    ⟨_, rfl, show Agree 8 (0x0a000000 : BitVec 32) 0x0a010203 by decide⟩
  have hallow : Caught fewTexts "10.0.0.0/8" (.v4 0x0a010203) :=
    ⟨⟨_, rfl, show Agree 8 (0x0a000000 : BitVec 32) 0x0a010203 by decide⟩,
      fun _ p hp => by cases hp; rfl, rfl⟩
  have hout : ¬ InEntry fewTexts "10.0.0.0/8" (.v4 0x08080808) := by
    rintro ⟨p, hp, hagree⟩
    cases hp
    exact absurd hagree (show ¬ Agree 8 (0x0a000000 : BitVec 32) 0x08080808 by decide)
  refine ⟨fun hmeans => ?_, (hiff _).mpr ⟨fun _ => .inr ⟨by simp, ?_⟩, fun _ hall => ?_⟩⟩
  · have hdenied : ∃ e ∈ ["::ffff:10.0.0.0/104"], InEntry fewTexts e (.v4 0x0a010203) :=
      ⟨"::ffff:10.0.0.0/104", List.mem_cons_self, hin⟩
    rcases ((hiff _).mp hmeans).denied hdenied with ⟨e, he, hc⟩ | ⟨-, hnone⟩
    · rw [List.mem_singleton.mp he] at hc
      exact hmapped _ hc
    · exact hnone "10.0.0.0/8" List.mem_cons_self hallow
  · intro e he hc
    rw [List.mem_singleton.mp he] at hc
    exact hout hc.inside
  · obtain ⟨e, he, hine⟩ := hall
    rw [List.mem_singleton.mp he] at hine
    exact absurd hine hout

def denying (p : Prefix) : Access := { deny := [p] }

/-- A denied IPv4-mapped CIDR denies none of its IPv4 clients, and a denied
address none of its clients with a zone. -/
theorem ip_lists_miss :
    (parsePrefixes fewTexts ["::ffff:10.0.0.0/104"] =
        .ok (denying ⟨.v6 0xffff0a000000 "", 104⟩).deny ∧
      InEntry fewTexts "::ffff:10.0.0.0/104" (.v4 0x0a010203) ∧
      (denying ⟨.v6 0xffff0a000000 "", 104⟩).allowsIP (.v4 0x0a010203) = true) ∧
    parsePrefixes fewTexts ["fe80::1"] =
        .ok (denying ⟨.v6 0xfe800000000000000000000000000001 "", 128⟩).deny ∧
      InEntry fewTexts "fe80::1" (.v6 0xfe800000000000000000000000000001 "eth0") ∧
      (denying ⟨.v6 0xfe800000000000000000000000000001 "", 128⟩).allowsIP
        (.v6 0xfe800000000000000000000000000001 "eth0") = true := by
  have hmapped : InEntry fewTexts "::ffff:10.0.0.0/104" (.v4 0x0a010203) := by
    have hin : Agree 8 (0x0a000000 : BitVec 32) 0x0a010203 := by decide
    exact ⟨⟨.v6 0xffff0a000000 "", 104⟩, rfl, hin⟩
  have hzoned : InEntry fewTexts "fe80::1" (.v6 0xfe800000000000000000000000000001 "eth0") :=
    ⟨.v6 0xfe800000000000000000000000000001 "", rfl, rfl⟩
  exact ⟨⟨rfl, hmapped, by decide⟩, rfl, hzoned, by decide⟩

end L8Tunnel.Auth
