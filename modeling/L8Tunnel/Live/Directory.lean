import L8Tunnel.Claims.Holder

/-! # The registry's directory (tun/live/directory.go, actions.go, registry.go) -/

namespace L8Tunnel.Live
open Base Claims

/-- The backend's tables, which others change. -/
structure Backend where
  reservations : List TunReservation := []
  domains : List EdgeDomain := []

/-- The registry's copy of the reservations and site names, and when a refresh for a claim last
failed. -/
structure Directory where
  reservations : List TunReservation := []
  sites : List String := []
  loaded : Bool := false
  downAt : Option ℤ := none

def liveRefreshBackoff : ℤ := 30 * second

namespace Directory

def isSiteName (d : Directory) (host : String) : Bool :=
  d.sites.contains (GoString.toLower host)

def refresh (d : Directory) (b : Option Backend) : Option Directory :=
  b.map fun b =>
    { d with
      reservations := b.reservations.filter fun r => r.reservationId ≠ ""
      sites := (b.domains.filter fun x => x.domainId ≠ "" ∧ x.kind = .site).flatMap fun x =>
        x.domain :: x.aliases
      loaded := true }

def backsOff (d : Directory) (now : ℤ) : Bool :=
  d.downAt.any fun t => now - t < liveRefreshBackoff

def refreshForClaim (d : Directory) (now : ℤ) (b : Option Backend) : Directory :=
  if d.backsOff now then d
  else (d.refresh b).getD { d with downAt := some now }

end Directory

structure Registry where
  engine : Engine
  dir : Directory
  backend : Backend

def Registry.answer (s : Registry) (up : Bool) : Option Backend := if up then some s.backend else none

/-- What reaches the registry service, with whether the backend answers, and changes of the
backend. -/
inductive Event where
  | post (now : ℤ) (order : RangeOrder) (req : TunClaimRequest) (up : Bool)
  | refresh (up : Bool)
  | restart (up : Bool)
  | sweep (now : ℤ) (order : RangeOrder)
  | command (now : ℤ) (order : RangeOrder) (cmd : TunCtlCommand)
  | change (b : Backend)

namespace Registry

def env (s : Registry) (now : ℤ) (order : RangeOrder) : Env :=
  { now := now, reservations := s.dir.reservations, isSiteName := s.dir.isSiteName, order := order }

def prepared (s : Registry) (now : ℤ) (req : TunClaimRequest) (up : Bool) : Registry :=
  if req.kind = .claim then { s with dir := s.dir.refreshForClaim now (s.answer up) } else s

def post (s : Registry) (cfg : Config) (now : ℤ) (order : RangeOrder) (req : TunClaimRequest)
    (up : Bool) : Registry × TunClaimResponse :=
  let s1 := s.prepared now req up
  let out := s1.engine.handle cfg (s1.env now order) req
  ({ s1 with engine := out.1 }, out.2)

def reload (s : Registry) (up : Bool) : Registry :=
  { s with dir := (s.dir.refresh (s.answer up)).getD s.dir }

def restarted (s : Registry) (up : Bool) : Registry :=
  ({ s with engine := Engine.new, dir := {} } : Registry).reload up

def next (cfg : Config) (s : Registry) : Event → Registry
  | .post now order req up => (s.post cfg now order req up).1
  | .refresh up => s.reload up
  | .restart up => s.restarted up
  | .sweep now order => { s with engine := s.engine.sweep cfg (s.env now order) }
  | .command now order cmd => { s with engine := (s.engine.command (s.env now order) cmd).1 }
  | .change b => { s with backend := b }

end Registry

/-- The backend stores the reservation, and as `reservations.validate` sees to
it no other one has its name. -/
def Stores (n token : String) (port : Int32) (b : Backend) : Prop :=
  (∃ r ∈ b.reservations, r.reservationId ≠ "" ∧ r.name = n ∧ r.tokenId = token ∧
    r.publicPort = port) ∧
  b.reservations.Pairwise fun r r' => r.name ≠ r'.name

def Step (cfg : Config) (n token : String) (port : Int32) (s : Registry) (a : Event)
    (t : Registry) : Prop :=
  t = s.next cfg.withDefaults a ∧ Stores n token port s.backend ∧ Stores n token port t.backend

/-- The answer to a CLAIM keeps another token off the reserved name, and every other name off
its port. -/
structure Honours (n token : String) (port : Int32) (req : TunClaimRequest)
    (resp : TunClaimResponse) : Prop where
  name : req.tokenId ≠ token → (∃ spec ∈ req.tunnels, spec.name = n) → resp.error ≠ .unspecified
  port : port ≠ 0 → ∀ t ∈ resp.tunnels, t.publicPort = port → t.name = n

/-- The condition on a step that handles a CLAIM: the directory was loaded since
the last restart, or the refresh before this claim is made and answered. -/
def Loaded (s : Registry) (a : Event) : Prop :=
  ∀ now order req up, a = .post now order req up → req.kind = .claim →
    s.dir.loaded = true ∨ (s.dir.backsOff now = false ∧ up = true)

def Cached (n token : String) (port : Int32) (rs : List TunReservation) : Prop :=
  (∃ r ∈ rs, r.name = n ∧ r.tokenId = token ∧ r.publicPort = port) ∧
    ∀ r ∈ rs, r.name = n → r.tokenId = token

def Good (n token : String) (port : Int32) (d : Directory) : Prop :=
  d.loaded = true → Cached n token port d.reservations

variable {n token : String} {port : Int32} {d : Directory} {b : Backend} {cfg : Config}

theorem cached_of_stores (h : Stores n token port b) :
    Cached n token port (b.reservations.filter fun r => r.reservationId ≠ "") := by
  obtain ⟨⟨r, hr, hid, hn, ht, hp⟩, hdistinct⟩ := h
  refine ⟨⟨r, List.mem_filter.mpr ⟨hr, by simpa using hid⟩, hn, ht, hp⟩, ?_⟩
  intro r' hr' hn'
  have hmem : r' ∈ b.reservations := (List.mem_filter.mp hr').1
  by_cases heq : r' = r
  · rw [heq]
    exact ht
  · have hsymm : Std.Symm fun r r' : TunReservation => r.name ≠ r'.name :=
      ⟨fun _ _ hne h => hne h.symm⟩
    exact absurd (hn'.trans hn.symm) (hdistinct.forall hmem hr heq)

variable {s : Registry} {now : ℤ} {up : Bool} {req : TunClaimRequest}

theorem reload_good (up : Bool) (hst : Stores n token port s.backend)
    (h : Good n token port s.dir) : Good n token port (s.reload up).dir := by
  cases up with
  | false => exact h
  | true => exact fun _ => cached_of_stores hst

theorem refreshForClaim_good {o : Option Backend} (hst : ∀ b, o = some b → Stores n token port b)
    (h : Good n token port d) : Good n token port (d.refreshForClaim now o) := by
  unfold Directory.refreshForClaim
  split
  · exact h
  cases ho : o with
  | none => exact h
  | some b => exact fun _ => cached_of_stores (hst b ho)

theorem answer_stores (hst : Stores n token port s.backend) :
    ∀ b, s.answer up = some b → Stores n token port b := by
  intro b hb
  unfold Registry.answer at hb
  split at hb
  · cases hb
    exact hst
  · cases hb

theorem prepared_good (hst : Stores n token port s.backend) (h : Good n token port s.dir) :
    Good n token port (s.prepared now req up).dir := by
  unfold Registry.prepared
  split
  · exact refreshForClaim_good (answer_stores hst) h
  · exact h

theorem good_step (s : Registry) (a : Event) (t : Registry) (h : Good n token port s.dir)
    (hs : Step cfg n token port s a t) : Good n token port t.dir := by
  obtain ⟨rfl, hst, _⟩ := hs
  cases a with
  | post now order req up => exact prepared_good hst h
  | refresh up => exact reload_good up hst h
  | restart up =>
    refine reload_good up hst ?_
    intro hl
    cases hl
  | sweep now order => exact h
  | command now order cmd => exact h
  | change b => exact h

theorem prepared_cached {order : RangeOrder} (hst : Stores n token port s.backend)
    (h : Good n token port s.dir) (hkind : req.kind = .claim)
    (hl : Loaded s (.post now order req up)) :
    Cached n token port (s.prepared now req up).dir.reservations := by
  have hgood : Good n token port (s.prepared now req up).dir := prepared_good hst h
  refine hgood ?_
  unfold Registry.prepared
  rw [if_pos hkind]
  rcases hl now order req up rfl hkind with hl | ⟨hoff, hup⟩
  · unfold Directory.refreshForClaim
    split
    · exact hl
    cases s.answer up with
    | none => exact hl
    | some b => rfl
  · simp [Directory.refreshForClaim, hoff, Registry.answer, hup, Directory.refresh]

theorem reservationOf_eq_find (rs : List TunReservation) (name : String) :
    reservationOf rs name = rs.reverse.find? fun r => r.name = name := by
  have hacc : ∀ acc : Option TunReservation,
      rs.foldl (fun resv r => if r.name = name then some r else resv) acc =
        (rs.reverse.find? fun r => r.name = name).or acc := by
    induction rs with
    | nil => intro acc; rfl
    | cons r rs ih =>
      intro acc
      rw [List.foldl_cons, ih, List.reverse_cons, List.find?_append, Option.or_assoc]
      by_cases hn : r.name = name <;> simp [hn]
  unfold reservationOf
  rw [hacc none, Option.or_none]

theorem reservationOf_cached {rs : List TunReservation} (h : Cached n token port rs) :
    ∃ r, reservationOf rs n = some r ∧ r.tokenId = token := by
  obtain ⟨⟨r, hr, hn, -, -⟩, hall⟩ := h
  cases hres : reservationOf rs n with
  | none =>
    rw [reservationOf_eq_find, List.find?_eq_none] at hres
    exact absurd hn (by simpa using hres r (List.mem_reverse.mpr hr))
  | some r' =>
    rw [reservationOf_eq_find] at hres
    have hmem : r' ∈ rs := List.mem_reverse.mp (List.mem_of_find?_eq_some hres)
    exact ⟨r', rfl, hall r' hmem (by simpa using List.find?_some hres)⟩

theorem claim_honours {e : Engine} {env : Env} (h : Cached n token port env.reservations) :
    Honours n token port req (e.claim cfg env req).2 := by
  rcases e.claim_cases cfg env req with ⟨r, hcode, hr⟩ | ⟨recs, olds, hg, -, hnames, hc⟩
  · rw [hr]
    exact ⟨fun _ _ => hcode, fun _ t ht => absurd ht List.not_mem_nil⟩
  · rw [hc]
    constructor
    · rintro htok ⟨spec, hspec, hname⟩
      obtain ⟨rec, hrec, hn⟩ := record_of_spec hnames hspec
      obtain ⟨r, hr, ht⟩ := reservationOf_cached h
      have hadm := (hg.admitted rec hrec).reserved r
      rw [hn, hname] at hadm
      exact absurd ((hadm hr).symm.trans ht) htok
    · intro hport t ht hp
      obtain ⟨⟨r, hr, hn, -, hrp⟩, -⟩ := h
      have hsame := (hg.admitted t ht).reserved_port (hp ▸ hport) hr (hrp.trans hp.symm)
      exact hsame.symm.trans hn

def Registry.start (b : Backend) : Registry := ⟨Engine.new, {}, b⟩

def HonouredAlong (cfg : Config) (n token : String) (port : Int32) (b : Backend)
    (R : Registry → Event → Registry → Prop) : Prop :=
  ∀ as s now order req up, Run R (Registry.start b) as s → Stores n token port s.backend →
    req.kind = .claim → Honours n token port req (s.post cfg.withDefaults now order req up).2

theorem honours_of_loaded (cfg : Config) (n token : String) (port : Int32) (b : Backend)
    (as : List Event) (s : Registry) (now : ℤ) (order : RangeOrder) (req : TunClaimRequest)
    (up : Bool) (hrun : Run (Guarded Loaded (Step cfg n token port)) (Registry.start b) as s)
    (hst : Stores n token port s.backend) (hkind : req.kind = .claim)
    (hl : Loaded s (.post now order req up)) :
    Honours n token port req (s.post cfg.withDefaults now order req up).2 := by
  have hgood : Good n token port s.dir := by
    refine Run.invariant (I := fun s => Good n token port s.dir)
      (fun s a t hs hr => good_step s a t hs hr.2) hrun ?_
    intro hloaded
    cases hloaded
  have hcached := prepared_cached hst hgood hkind hl
  unfold Registry.post
  dsimp only
  unfold Engine.handle
  split
  · exact ⟨fun _ _ => TunClaimError.noConfusion, fun _ t ht => absurd ht List.not_mem_nil⟩
  · rw [hkind]
    exact claim_honours hcached

def reserved : Backend :=
  { reservations := [{ reservationId := "1", name := "n", tokenId := "tok1", publicPort := 22000 }] }

theorem reserved_stores : Stores "n" "tok1" 22000 reserved :=
  ⟨⟨_, List.mem_singleton_self _, by decide, rfl, rfl, rfl⟩, List.pairwise_singleton _ _⟩

def claimBy (token : String) : TunClaimRequest :=
  { kind := .claim, relayId := "r0", agentId := "a2", tokenId := token, sessionId := "s2"
    tunnels := [httpTunnel "n" "a2" token "s2"] }

def unloaded : Registry := (Registry.start reserved).restarted false

theorem unloaded_step :
    Step sampleConfig "n" "tok1" 22000 (Registry.start reserved) (.restart false) unloaded :=
  ⟨rfl, reserved_stores, reserved_stores⟩

/-- The backend is down at the restart, answers the next refresh and is down
again when tok2 claims the name. -/
theorem honours_after_refresh :
    Honours "n" "tok1" 22000 (claimBy "tok2")
      ((unloaded.reload true).post sampleConfig.withDefaults 0 .stored (claimBy "tok2") false).2 := by
  have hother : ∀ (s : Registry) (a : Event), (∀ now order req up, a ≠ .post now order req up) →
      Loaded s a := by
    intro s a hne now order req up heq
    exact absurd heq (hne now order req up)
  refine honours_of_loaded sampleConfig "n" "tok1" 22000 reserved
    [.restart false, .refresh true] _ 0 _ _ false
    (.cons ⟨hother _ _ (fun _ _ _ _ => Event.noConfusion), unloaded_step⟩
      (.cons ⟨hother _ _ (fun _ _ _ _ => Event.noConfusion), rfl, reserved_stores, reserved_stores⟩
        (.nil _)))
    reserved_stores rfl ?_
  intro _ _ _ _ _ _
  exact .inl rfl

/-- After a restart while the backend is down the directory is empty, and a
claim of the reserved name by another token is accepted. -/
theorem outage_forgets_reservation :
    ¬ HonouredAlong sampleConfig "n" "tok1" 22000 reserved
      (Step sampleConfig "n" "tok1" 22000) := by
  intro h
  have hclaim := h [.restart false] unloaded 0 .stored (claimBy "tok2") false
    (.cons unloaded_step (.nil _)) reserved_stores rfl
  exact hclaim.name (by decide) ⟨_, List.mem_singleton_self _, rfl⟩ (by decide)

end L8Tunnel.Live
