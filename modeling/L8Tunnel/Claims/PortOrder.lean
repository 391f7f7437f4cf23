import L8Tunnel.Claims.Single

/-! # The order of a tunnel's ports (claims/claim.go) -/

namespace L8Tunnel.Claims
open Base Engine

def firstSet (requested : Int32) (resv : Option TunReservation) (holder : Option TunLiveTunnel) :
    Int32 :=
  ([requested, (resv.map TunReservation.publicPort).getD 0,
    (holder.map TunLiveTunnel.publicPort).getD 0].find? fun p => p ≠ 0).getD 0

/-- Held by no other name, not staged by the request and not reserved for another
name. -/
structure FreeFor (e : Engine) (reservations : List TunReservation) (staged : GoMap Int32 String)
    (name : String) (p : Int32) : Prop where
  unheld : ∀ n r, e.tunnels.get n = some r → r.publicPort = p → n = name
  unstaged : nameAt staged p = ""
  unreserved : ∀ r ∈ reservations, r.publicPort = p → r.name = name

def Within (lo hi p : Int32) : Prop := lo.toInt ≤ p.toInt ∧ p.toInt ≤ hi.toInt

structure Least (good : Int32 → Prop) (lo hi p : Int32) : Prop where
  within : Within lo hi p
  holds : good p
  least : ∀ q, Within lo hi q → good q → p.toInt ≤ q.toInt

/-- Both ranges are within 1-65535, or the token has none. -/
structure PortRanges (cfg : Config) (req : TunClaimRequest) : Prop where
  rules : 1 ≤ cfg.rules.portMin ∧ cfg.rules.portMin ≤ 65535 ∧
    1 ≤ cfg.rules.portMax ∧ cfg.rules.portMax ≤ 65535
  token : req.portMin ≠ 0 → 1 ≤ req.portMin.toInt ∧ req.portMin.toInt ≤ 65535 ∧
    1 ≤ req.portMax.toInt ∧ req.portMax.toInt ≤ 65535

/-- What the choice of a port answers: `want` is the first of the ports that are
set, `lo` and `hi` bound the token's range. -/
structure PortOrder (cfg : Config) (free : Int32 → Prop) (want prev lo hi : Int32)
    (answer : Except Refusal Int32) : Prop where
  wanted : want ≠ 0 → cfg.rules.portMin ≤ want.toInt → want.toInt ≤ cfg.rules.portMax →
    free want → answer = .ok want
  outside : want ≠ 0 → (want.toInt < cfg.rules.portMin ∨ cfg.rules.portMax < want.toInt) →
    ∃ msg, answer = .error ⟨.portNotAllowed, msg⟩
  unavailable : want ≠ 0 → cfg.rules.portMin ≤ want.toInt → want.toInt ≤ cfg.rules.portMax →
    ¬ free want → ∃ msg, answer = .error ⟨.portUnavailable, msg⟩
  previous : want = 0 → Within lo hi prev → free prev → answer = .ok prev
  lowest : want = 0 → ¬ (Within lo hi prev ∧ free prev) →
    ∀ p, Least free lo hi p → answer = .ok p
  none : want = 0 → ¬ (Within lo hi prev ∧ free prev) →
    ((∃ msg, answer = .error ⟨.portUnavailable, msg⟩) ↔ ∀ p, Within lo hi p → ¬ free p)

theorem firstSet_eq (spec : TunLiveTunnel) (holder : Option TunLiveTunnel)
    (resv : Option TunReservation) :
    wantedPort spec holder resv = firstSet spec.publicPort resv holder := by
  by_cases hspec : spec.publicPort = 0
  · cases resv with
    | none =>
      cases holder with
      | none => simp [wantedPort, firstSet, hspec]
      | some h => by_cases hh : h.publicPort = 0 <;> simp [wantedPort, firstSet, hspec, hh]
    | some r =>
      by_cases hr : r.publicPort = 0
      · cases holder with
        | none => simp [wantedPort, firstSet, hspec, hr]
        | some h =>
          by_cases hh : h.publicPort = 0 <;> simp [wantedPort, firstSet, hspec, hr, hh]
      · rw [wantedPort_reserved holder hspec hr]
        simp [firstSet, hspec, hr]
  · rw [wantedPort_requested holder resv hspec]
    simp [firstSet, hspec]

theorem free_iff {e : Engine} (he : Indexed e) {reservations : List TunReservation}
    {staged : GoMap Int32 String} {name : String} {p : Int32} (hp : p ≠ 0) :
    e.free reservations staged name p = true ↔ FreeFor e reservations staged name p := by
  constructor
  · intro h
    obtain ⟨hown, hstaged, hresv⟩ := free_spec h
    refine ⟨fun n r hr hport => ?_, hstaged, reservedByOther_eq_false.mp hresv⟩
    have hget : e.byPort.get p = some n :=
      (he.ports p n).mpr ⟨r, hr, (mem_ports r p).mpr ⟨hport.symm, hp⟩⟩
    exact Indexed.owner_eq he.ports (fun r hr => (he.unnamed r hr).1) hown hget
  · intro h
    have hown : nameAt e.byPort p = "" ∨ nameAt e.byPort p = name := by
      cases hget : e.byPort.get p with
      | none => exact .inl (by rw [nameAt, hget]; rfl)
      | some n =>
        obtain ⟨r, hr, hmem⟩ := (he.ports p n).mp hget
        have hn := h.unheld n r hr ((mem_ports r p).mp hmem).1.symm
        exact .inr (by rw [nameAt, hget]; exact hn)
    have hresv := reservedByOther_eq_false.mpr h.unreserved
    simp [free, hown, h.unstaged, hresv]

/-- The search returns the least free port of the range, or there is none; the fuel given covers
the range. -/
theorem firstFree_spec (free : Int32 → Bool) (fuel : ℕ) {lo hi : Int32} (hhi : hi.toInt ≤ 65535)
    (hlo : 0 ≤ lo.toInt) (hfuel : hi.toInt - lo.toInt < fuel) :
    (∃ p, firstFree free hi fuel lo = some p ∧ Least (fun p => free p = true) lo hi p) ∨
      firstFree free hi fuel lo = none ∧ ∀ q, Within lo hi q → free q = false := by
  induction fuel generalizing lo with
  | zero =>
    refine .inr ⟨rfl, fun q hq => ?_⟩
    obtain ⟨h1, h2⟩ := hq
    omega
  | succ fuel ih =>
    unfold firstFree
    by_cases hle : lo ≤ hi
    · rw [if_pos hle]
      rw [Int32.le_iff_toInt_le] at hle
      by_cases hfree : free lo = true
      · rw [if_pos hfree]
        exact .inl ⟨lo, rfl, ⟨⟨Int.le_refl _, hle⟩, hfree, fun q hq _ => hq.1⟩⟩
      · rw [if_neg hfree]
        -- the counter does not wrap below 65535
        have hnext : (lo + 1).toInt = lo.toInt + 1 := toInt_succ (by omega)
        have hrest : ∀ q, Within lo hi q → free q = true → Within (lo + 1) hi q := by
          intro q hq hqfree
          have hne : lo ≠ q := fun heq => hfree (heq ▸ hqfree)
          have hne' : lo.toInt ≠ q.toInt := fun heq => hne (Int32.toInt_inj.mp heq)
          obtain ⟨h1, h2⟩ := hq
          exact ⟨by omega, h2⟩
        rcases @ih (lo + 1) (by omega) (by omega) with ⟨p, hp, hleast⟩ | ⟨hnone, hall⟩
        · have hwithin := hleast.within
          refine .inl ⟨p, hp, ⟨⟨?_, hwithin.2⟩, hleast.holds, fun q hq hqfree => ?_⟩⟩
          · have := hwithin.1
            omega
          · exact hleast.least q (hrest q hq hqfree) hqfree
        · refine .inr ⟨hnone, fun q hq => ?_⟩
          cases hqfree : free q with
          | false => rfl
          | true => rw [← hqfree]; exact hall q (hrest q hq hqfree)
    · rw [if_neg hle]
      rw [Int32.le_iff_toInt_le] at hle
      refine .inr ⟨rfl, fun q hq => ?_⟩
      obtain ⟨h1, h2⟩ := hq
      omega

theorem PortRanges.range {cfg : Config} {req : TunClaimRequest} (h : PortRanges cfg req) :
    1 ≤ (portRange cfg req).1.toInt ∧ (portRange cfg req).2.toInt ≤ 65535 := by
  unfold portRange
  obtain ⟨h1, h2, h3, h4⟩ := h.rules
  split
  · rw [toInt_ofInt (by omega) (by omega), toInt_ofInt (by omega) (by omega)]
    exact ⟨h1, h4⟩
  · next hne =>
    have htoken := h.token hne
    exact ⟨htoken.1, htoken.2.2.2⟩

section
variable {e : Engine} {cfg : Config} {req : TunClaimRequest} {spec : TunLiveTunnel}
  {holder : Option TunLiveTunnel} {resv : Option TunReservation}
  {reservations : List TunReservation} {staged : GoMap Int32 String}

theorem port_set (hcfg : 1 ≤ cfg.rules.portMin ∧ cfg.rules.portMin ≤ 65535 ∧
      1 ≤ cfg.rules.portMax ∧ cfg.rules.portMax ≤ 65535)
    (hwant : wantedPort spec holder resv ≠ 0) :
    e.port cfg req spec holder resv reservations staged =
      if (wantedPort spec holder resv).toInt < cfg.rules.portMin ∨
          cfg.rules.portMax < (wantedPort spec holder resv).toInt then
        .error ⟨.portNotAllowed, "port " ++ toString (wantedPort spec holder resv).toInt ++
          " is outside the relay's range " ++ toString cfg.rules.portMin ++ "-" ++
          toString cfg.rules.portMax⟩
      else if e.free reservations staged spec.name (wantedPort spec holder resv) = false then
        .error ⟨.portUnavailable, "port " ++ toString (wantedPort spec holder resv).toInt ++
          " is unavailable: it is held by another tunnel"⟩
      else .ok (wantedPort spec holder resv) := by
  obtain ⟨h1, h2, h3, h4⟩ := hcfg
  unfold port
  dsimp only
  rw [if_neg fun hboth => hwant hboth.1, if_pos hwant]
  refine if_congr ?_ rfl rfl
  rw [Int32.lt_iff_toInt_lt, Int32.lt_iff_toInt_lt, toInt_ofInt (by omega) (by omega),
    toInt_ofInt (by omega) (by omega)]

theorem port_unset (hwant : wantedPort spec holder resv = 0) :
    e.port cfg req spec holder resv reservations staged =
      if (portRange cfg req).1 ≤ spec.previousPort ∧
          spec.previousPort ≤ (portRange cfg req).2 ∧
          e.free reservations staged spec.name spec.previousPort then
        .ok spec.previousPort
      else (firstFree (e.free reservations staged spec.name) (portRange cfg req).2 (2 ^ 32)
        (portRange cfg req).1).elim (.error ⟨.portUnavailable, "no free port in the range " ++
          toString (portRange cfg req).1.toInt ++ "-" ++
          toString (portRange cfg req).2.toInt⟩) Except.ok := by
  unfold port
  dsimp only
  simp only [hwant, true_and, ne_eq, not_true_eq_false, if_false]
  cases firstFree (e.free reservations staged spec.name) (portRange cfg req).2 (2 ^ 32)
    (portRange cfg req).1 <;> rfl

end

/-- The port of a tcp or ssh tunnel, in every state with exact indexes in which a
record without a name holds nothing. -/
theorem port_order {e : Engine} (he : Indexed e) {cfg : Config} {req : TunClaimRequest}
    (hranges : PortRanges cfg req) (spec : TunLiveTunnel) (reservations : List TunReservation)
    (staged : GoMap Int32 String) :
    PortOrder cfg (FreeFor e reservations staged spec.name)
      (firstSet spec.publicPort (reservationOf reservations spec.name) (e.tunnels.get spec.name))
      spec.previousPort (portRange cfg req).1 (portRange cfg req).2
      (e.port cfg req spec (e.tunnels.get spec.name) (reservationOf reservations spec.name)
        reservations staged) := by
  rw [← firstSet_eq]
  generalize e.tunnels.get spec.name = holder
  generalize reservationOf reservations spec.name = resv
  obtain ⟨hlo, hhi⟩ := hranges.range
  have hpos : ∀ p, Within (portRange cfg req).1 (portRange cfg req).2 p → p ≠ 0 := by
    rintro p ⟨hp, -⟩ rfl
    have hzero : (0 : Int32).toInt = 0 := rfl
    omega
  have hfree : ∀ p, p ≠ 0 → (e.free reservations staged spec.name p = true ↔
      FreeFor e reservations staged spec.name p) := fun p hp => free_iff he hp
  have hprev : ((portRange cfg req).1 ≤ spec.previousPort ∧
      spec.previousPort ≤ (portRange cfg req).2 ∧
      e.free reservations staged spec.name spec.previousPort) ↔
      Within (portRange cfg req).1 (portRange cfg req).2 spec.previousPort ∧
        FreeFor e reservations staged spec.name spec.previousPort := by
    rw [← and_assoc, Int32.le_iff_toInt_le, Int32.le_iff_toInt_le]
    exact and_congr_right fun hw => hfree _ (hpos _ hw)
  have hsearch := firstFree_spec (e.free reservations staged spec.name) (2 ^ 32) hhi
    (show 0 ≤ (portRange cfg req).1.toInt by omega) (by omega)
  constructor
  · intro hwant hmin hmax hf
    rw [port_set hranges.rules hwant, if_neg (by omega), if_neg (by rw [(hfree _ hwant).mpr hf]; decide)]
  · intro hwant hout
    rw [port_set hranges.rules hwant, if_pos hout]
    exact ⟨_, rfl⟩
  · intro hwant hmin hmax hf
    have hbusy : e.free reservations staged spec.name (wantedPort spec holder resv) =
        false := by
      rw [← Bool.not_eq_true, hfree _ hwant]
      exact hf
    rw [port_set hranges.rules hwant, if_neg (by omega), if_pos hbusy]
    exact ⟨_, rfl⟩
  · intro hwant hw hf
    rw [port_unset hwant, if_pos (hprev.mpr ⟨hw, hf⟩)]
  · intro hwant hno p hp
    rw [port_unset hwant, if_neg (fun h => hno (hprev.mp h))]
    rcases hsearch with ⟨q, hq, hleast⟩ | ⟨-, hall⟩
    · -- two least ports are the same
      have hqp := hleast.least p hp.within ((hfree p (hpos p hp.within)).mpr hp.holds)
      have hpq := hp.least q hleast.within ((hfree q (hpos q hleast.within)).mp hleast.holds)
      have heq : q = p := Int32.toInt_inj.mp (by omega)
      rw [hq, heq]
      rfl
    · have hbusy := hall p hp.within
      rw [(hfree p (hpos p hp.within)).mpr hp.holds] at hbusy
      cases hbusy
  · intro hwant hno
    rw [port_unset hwant, if_neg (fun h => hno (hprev.mp h))]
    rcases hsearch with ⟨q, hq, hleast⟩ | ⟨hnone, hall⟩
    · rw [hq]
      constructor
      · rintro ⟨_, h⟩
        cases h
      · intro hnot
        exact absurd ((hfree q (hpos q hleast.within)).mp hleast.holds) (hnot q hleast.within)
    · rw [hnone]
      refine ⟨fun _ p hp hf => ?_, fun _ => ⟨_, rfl⟩⟩
      have hbusy := hall p hp
      rw [(hfree p (hpos p hp)).mpr hf] at hbusy
      cases hbusy

def returning : TunLiveTunnel := { name := "a", type := .tcp, previousPort := 22000 }
def stagedFirst : GoMap Int32 String := GoMap.set ∅ 22000 "b"

theorem returning_least : Least (FreeFor new [] stagedFirst "a") 22000 22999 22001 where
  within := by
    constructor <;> decide
  holds := {
    unheld := fun _ _ h => nomatch h
    unstaged := by decide
    unreserved := by simp }
  least := by
    rintro q ⟨hlo, -⟩ hfree
    have hstaged : nameAt stagedFirst 22000 = "b" := by decide
    have hne : (22000 : Int32) ≠ q := by
      rintro rfl
      exact absurd (hstaged.symm.trans hfree.unstaged) (by decide)
    have hne' : (22000 : Int32).toInt ≠ q.toInt := fun h => hne (Int32.toInt_inj.mp h)
    have h0 : (22000 : Int32).toInt = 22000 := rfl
    have h1 : (22001 : Int32).toInt = 22001 := rfl
    omega

theorem port_order_returning :
    PortRanges sampleConfig {} ∧
    new.port sampleConfig {} returning none none [] stagedFirst = .ok 22001 := by
  have hranges : PortRanges sampleConfig {} := ⟨by decide, fun h => absurd rfl h⟩
  have horder := port_order Indexed.new hranges returning [] stagedFirst
  refine ⟨hranges, horder.lowest rfl (fun h => ?_) 22001 returning_least⟩
  exact absurd h.2.unstaged (by decide)

def wantsHeld : TunLiveTunnel := { name := "a", type := .tcp, publicPort := 22000 }

/-- A relay announces a tunnel without a name. Both indexes are exact, but the owner
`""` of its port reads as no owner, and the port is given to another name. -/
theorem unnamed_port_given :
    Run (Step sampleConfig) new [announceOne "r0" "" 22000] unnamedHolder ∧
    Index.Exact ports unnamedHolder.tunnels unnamedHolder.byPort ∧
    Index.Exact TunLiveTunnel.domains unnamedHolder.tunnels unnamedHolder.byDomain ∧
    PortRanges sampleConfig {} ∧
    unnamedHolder.port sampleConfig {} wantsHeld none none [] ∅ = .ok 22000 ∧
    ¬ PortOrder sampleConfig (FreeFor unnamedHolder [] ∅ "a") (firstSet 22000 none none) 0
      (portRange sampleConfig {}).1 (portRange sampleConfig {}).2
      (unnamedHolder.port sampleConfig {} wantsHeld none none [] ∅) := by
  have hgiven : unnamedHolder.port sampleConfig {} wantsHeld none none [] ∅ = .ok 22000 := rfl
  obtain ⟨hports, hdomains, hheld⟩ := unnamedHolder_exact
  refine ⟨run_after _ _ _, hports, hdomains, ⟨by decide, fun h => absurd rfl h⟩, hgiven,
    fun h => ?_⟩
  have hbusy : ¬ FreeFor unnamedHolder [] ∅ "a" 22000 := fun hfree =>
    absurd (hfree.unheld "" unnamed hheld rfl) (by decide)
  obtain ⟨msg, hrefused⟩ := h.unavailable (by decide) (by decide) (by decide) hbusy
  rw [hgiven] at hrefused
  cases hrefused

end L8Tunnel.Claims
