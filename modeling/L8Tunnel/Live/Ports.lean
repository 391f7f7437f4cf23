import Mathlib.Algebra.Order.BigOperators.Group.List
import Mathlib.Algebra.Order.Ring.Nat
import L8Tunnel.Auth.Policy
import L8Tunnel.Claims.Atomic
import L8Tunnel.Live.Reserve

/-! # Assigned ports stay -/

namespace L8Tunnel.Live
open Base Claims Auth Engine

def getsPort (t : TunLiveTunnel) : Prop := hasPort t.type ∧ t.accessToken = false

/-- The registry with every tunnel it has granted. -/
structure Ports where
  registry : Registry
  granted : List TunLiveTunnel

namespace Ports

def start (b : Backend) : Ports := ⟨(Registry.start b).restarted true, []⟩

def next (cfg : Claims.Config) (svc : Service) (s : Ports) : Event → Ports
  | .post now order req up =>
    let out := s.registry.serve cfg now order req up svc up
    ⟨out.1, if req.kind = .claim then s.granted ++ out.2.tunnels else s.granted⟩
  | a => ⟨s.registry.next cfg a, s.granted⟩

def Allows (cfg : Claims.Config) (s : Ports) : Event → Prop
  | .post _ _ req up => up = true ∧
    (req.kind = .claim → RangeFits cfg req ∧
      ∀ spec ∈ req.tunnels, getsPort spec → spec.publicPort = 0) ∧
    (req.kind = .announce → ∀ t ∈ req.tunnels, t.publicPort ≠ 0 →
      ∃ g ∈ s.granted, g.name = t.name ∧ g.publicPort = t.publicPort)
  | .refresh up => up = true
  | .restart up => up = true
  | .sweep _ _ => True
  | .command _ _ _ => True
  | .change _ => False

def Step (cfg : Claims.Config) (svc : Service) (s : Ports) (a : Event) (t : Ports) : Prop :=
  Allows cfg.withDefaults s a ∧ t = s.next cfg.withDefaults svc a

end Ports

theorem allocationRange_fits {cfg : Claims.Config} (policy : Policy) {lo hi : ℤ}
    (hrules : 1 ≤ cfg.rules.portMin ∧ cfg.rules.portMin ≤ cfg.rules.portMax ∧
      cfg.rules.portMax ≤ 65535)
    (h : cfg.rules.allocationRange policy = .ok (lo, hi)) {req : TunClaimRequest}
    (hmin : req.portMin = Int32.ofInt lo) (hmax : req.portMax = Int32.ofInt hi) :
    RangeFits cfg req := by
  obtain ⟨hlo, hhi⟩ := Registry.Rules.allocationRange_ok h
  have hle := Registry.Rules.allocationRange_le hrules.2.1 h
  have hin : ∀ n, lo ≤ n → n ≤ hi → InRange cfg.rules (Int32.ofInt n) := by
    intro n h1 h2
    unfold InRange
    rw [toInt_ofInt (by omega) (by omega)]
    omega
  refine ⟨hrules, .inr ?_, .inr ?_⟩
  · rw [hmin]
    exact hin lo (Int.le_refl lo) hle
  · rw [hmax]
    exact hin hi hle (Int.le_refl hi)

section
variable {e : Engine} {cfg : Claims.Config} {env : Env} {req : TunClaimRequest}

/-- The grant keeps to the reservations there are. -/
structure Fits (rs : List TunReservation) (req : TunClaimRequest) (rec : TunLiveTunnel) : Prop where
  tokenId : rec.tokenId = req.tokenId
  ported : getsPort rec → rec.publicPort ≠ 0
  token : ∀ r, reservationOf rs rec.name = some r → r.tokenId = req.tokenId
  port : rec.publicPort ≠ 0 → ∀ r, reservationOf rs rec.name = some r → r.publicPort ≠ 0 →
    rec.publicPort = r.publicPort
  others : rec.publicPort ≠ 0 → ∀ r ∈ rs, r.publicPort = rec.publicPort → r.name = rec.name

theorem admitted_fits {rec spec : TunLiveTunnel} {staged : GoMap Int32 String}
    (hfits : RangeFits cfg req) (hreq : getsPort spec → spec.publicPort = 0)
    (hadm : Admitted e env req rec)
    (hrec : rec = { claimed env req spec with publicPort := rec.publicPort })
    (hport : Engine.PortFor e cfg env req spec staged rec.publicPort) :
    Fits env.reservations req rec := by
  have hname : rec.name = spec.name := by
    rw [hrec]
    rfl
  have hgets : getsPort rec ↔ getsPort spec := by
    rw [hrec]
    rfl
  refine ⟨hadm.tokenId, fun hget h0 => ?_, hadm.reserved, fun hne r hr hrne => ?_,
    fun hne r hr hrp => ?_⟩
  · have hspec : hasPort spec.type ∧ spec.accessToken = false := hgets.mp hget
    rw [Engine.PortFor, if_pos hspec] at hport
    have hin := port_inRange hfits hport
    have hzero : (0 : Int32).toInt = 0 := rfl
    have hmin := hfits.rules.1
    rw [h0, InRange, hzero] at hin
    omega
  · unfold Engine.PortFor at hport
    split at hport
    next hget =>
      rw [hname] at hr
      rw [hr] at hport
      exact port_wanted (wantedPort_reserved _ (hreq hget) hrne) hrne hport
    next => exact absurd hport hne
  · exact hadm.reserved_port hne hr hrp

theorem claim_port (h : (e.claim cfg env req).2.error = .unspecified) {rec : TunLiveTunnel}
    (hrec : rec ∈ (e.claim cfg env req).2.tunnels) :
    ∃ spec ∈ req.tunnels,
      rec = { claimed env req spec with publicPort := rec.publicPort } ∧
      ∃ staged, Engine.PortFor e cfg env req spec staged rec.publicPort := by
  rcases e.claim_cases cfg env req with ⟨r, hcode, hr⟩ | ⟨recs, olds, hacc, -⟩
  · rw [hr] at h
    exact absurd h hcode
  · rw [hacc.answer] at hrec
    obtain ⟨spec, hspec, staged, hc⟩ := hacc.listing rec hrec
    exact ⟨spec, hspec, hc.record, staged.ports, hc.port⟩

theorem claim_fits (hfits : RangeFits cfg req)
    (hreq : ∀ spec ∈ req.tunnels, getsPort spec → spec.publicPort = 0)
    (h : (e.claim cfg env req).2.error = .unspecified) :
    ((e.claim cfg env req).2.tunnels.map (·.name)).Nodup ∧
    (∀ rec ∈ (e.claim cfg env req).2.tunnels, Fits env.reservations req rec) ∧
    ∀ rec ∈ (e.claim cfg env req).2.tunnels, ∀ rec' ∈ (e.claim cfg env req).2.tunnels,
      rec.publicPort ≠ 0 → rec.publicPort = rec'.publicPort → rec.name = rec'.name := by
  have hport : ∀ rec ∈ (e.claim cfg env req).2.tunnels, _ := fun rec hrec => claim_port h hrec
  obtain ⟨st, hst, -, hclaim⟩ := claim_inv h
  rw [hclaim] at hport ⊢
  have hg := (Staged.stageAll_good hst Staged.none_good).granted req.tunnels
  refine ⟨?_, fun rec hrec => ?_, fun rec hrec rec' hrec' hne hp => ?_⟩
  · have hnames := filterMap_names (f := fun spec => st.recs.get spec.name) fun spec hspec => by
      obtain ⟨rec, -, hget, -⟩ := (stageAll_checked hst).2 spec hspec
      exact ⟨rec, hget, Table.key_of_get hget⟩
    dsimp only
    rw [hnames]
    exact (stageAll_looped hst).once
  · obtain ⟨spec, hspec, heq, staged, hport⟩ := hport rec hrec
    exact admitted_fits hfits (hreq spec hspec) (hg.admitted rec hrec) heq hport
  · exact hg.ports rec hrec rec' hrec' rec.publicPort
      ((mem_ports rec _).mpr ⟨rfl, hne⟩)
      ((mem_ports rec' _).mpr ⟨hp, hne⟩)

end

/-- Every port that was granted is reserved for its name. -/
structure Ports.Kept (s : Ports) : Prop where
  cached : s.registry.dir.reservations = visible s.registry.backend.reservations
  up : s.registry.dir.downAt = none
  keyed : Keyed (visible s.registry.backend.reservations)
  ported : ∀ g ∈ s.granted, getsPort g → g.publicPort ≠ 0
  reserved : ∀ g ∈ s.granted, g.publicPort ≠ 0 →
    ∃ r, s.registry.backend.stored g.name = some r ∧ r.publicPort = g.publicPort
  apart : ∀ g ∈ s.granted, ∀ g' ∈ s.granted, g.publicPort ≠ 0 → g.publicPort = g'.publicPort →
    g.name = g'.name

namespace Ports
variable {cfg : Claims.Config} {svc : Service} {s t : Ports}

theorem Kept.same (h : s.Kept) (hb : t.registry.backend = s.registry.backend)
    (hr : t.registry.dir.reservations = s.registry.dir.reservations ∨
      t.registry.dir.reservations = visible s.registry.backend.reservations)
    (hd : t.registry.dir.downAt = none) (hg : t.granted = s.granted) : t.Kept := by
  refine ⟨?_, hd, ?_, ?_, ?_, ?_⟩
  · rw [hb]
    rcases hr with hr | hr
    · exact hr.trans h.cached
    · exact hr
  · rw [hb]
    exact h.keyed
  · rw [hg]
    exact h.ported
  · rw [hg, hb]
    exact h.reserved
  · rw [hg]
    exact h.apart

variable {req : TunClaimRequest}

theorem prepared_claim (h : s.Kept) (now : ℤ) (hkind : req.kind = .claim) :
    (s.registry.prepared now req true).dir.reservations =
        visible s.registry.backend.reservations ∧
      (s.registry.prepared now req true).dir.downAt = none ∧
      (s.registry.prepared now req true).backend = s.registry.backend := by
  have hoff : ¬ s.registry.dir.backsOff now = true := by
    simp [Directory.backsOff, h.up]
  unfold Registry.prepared Directory.refreshForClaim
  rw [if_pos hkind]
  dsimp only
  rw [if_neg hoff]
  exact ⟨rfl, h.up, rfl⟩

theorem handle_claim (cfg : Claims.Config) (e : Engine) (env : Env) (hkind : req.kind = .claim) :
    (e.handle cfg env req).2.error ≠ .unspecified ∧ (e.handle cfg env req).2.tunnels = [] ∨
      (e.claim cfg env req).2.error = .unspecified ∧
        e.handle cfg env req = e.claim cfg env req := by
  unfold handle
  split
  · exact .inl ⟨TunClaimError.noConfusion, rfl⟩
  rw [hkind]
  dsimp only
  rcases e.claim_cases cfg env req with ⟨r, hcode, hr⟩ | ⟨recs, olds, -, -, -, hc⟩
  · rw [hr]
    exact .inl ⟨hcode, rfl⟩
  · rw [hc]
    exact .inr ⟨rfl, rfl⟩

theorem Kept.claimed (h : s.Kept) {recs : List TunLiveTunnel}
    (hfit : ∀ rec ∈ recs, Fits (visible s.registry.backend.reservations) req rec)
    (hapart : ∀ rec ∈ recs, ∀ rec' ∈ recs, rec.publicPort ≠ 0 → rec.publicPort = rec'.publicPort →
      rec.name = rec'.name)
    (hres : Reserves req recs s.registry.backend.reservations t.registry.backend.reservations)
    (hc : t.registry.dir.reservations = visible t.registry.backend.reservations)
    (hd : t.registry.dir.downAt = none) (hg : t.granted = s.granted ++ recs) : t.Kept := by
  -- an older tunnel and a new one have one port if and only if they have one name
  have hold : ∀ g ∈ s.granted, ∀ rec ∈ recs, g.publicPort ≠ 0 → rec.publicPort ≠ 0 →
      (g.name = rec.name ↔ g.publicPort = rec.publicPort) := by
    intro g hgs rec hrec hgp hrp
    obtain ⟨r, hr, hport⟩ := h.reserved g hgs hgp
    constructor
    · intro hname
      unfold Backend.stored at hr
      rw [hname] at hr
      rw [(hfit rec hrec).port hrp r hr (hport ▸ hgp), hport]
    · intro heq
      obtain ⟨hmem, hname⟩ := reservationOf_some hr
      rw [← hname]
      exact (hfit rec hrec).others hrp r hmem (hport.trans heq)
  refine ⟨hc, hd, hres.keyed, ?_, ?_, ?_⟩
  · rw [hg, List.forall_mem_append]
    exact ⟨h.ported, fun rec hrec => (hfit rec hrec).ported⟩
  · rw [hg, List.forall_mem_append]
    refine ⟨fun g hgs hgp => ?_, fun rec hrec hrp => ?_⟩
    · by_cases hnew : ∃ rec ∈ recs, rec.publicPort ≠ 0 ∧ rec.name = g.name
      · obtain ⟨rec, hrec, hrp, hname⟩ := hnew
        obtain ⟨r, hr, -, hport⟩ := hres.reserved rec hrec hrp
        refine ⟨r, hname ▸ hr, ?_⟩
        rw [hport, (hold g hgs rec hrec hgp hrp).mp hname.symm]
      · obtain ⟨r, hr, hport⟩ := h.reserved g hgs hgp
        refine ⟨r, ?_, hport⟩
        unfold Backend.stored
        rw [hres.others g.name fun rec hrec hrp hname => hnew ⟨rec, hrec, hrp, hname⟩]
        exact hr
    · obtain ⟨r, hr, -, hport⟩ := hres.reserved rec hrec hrp
      exact ⟨r, hr, hport⟩
  · intro g hgm g' hgm' hp heq
    rw [hg, List.mem_append] at hgm hgm'
    rcases hgm with hgs | hgr <;> rcases hgm' with hgs' | hgr'
    · exact h.apart g hgs g' hgs' hp heq
    · exact (hold g hgs g' hgr' hp (heq ▸ hp)).mpr heq
    · exact ((hold g' hgs' g hgr (heq ▸ hp) hp).mpr heq.symm).symm
    · exact hapart g hgr g' hgr' hp heq

structure Current (s : Ports) (r : Registry) : Prop where
  cached : r.dir.reservations = visible s.registry.backend.reservations
  up : r.dir.downAt = none
  backend : r.backend = s.registry.backend

theorem Kept.reserve (h : s.Kept) (haccepts : ∀ rs r, svc.accepts rs r = true) {r : Registry}
    (hr : Current s r) (now : ℤ) (hkind : req.kind = .claim) {resp : TunClaimResponse}
    (hok : resp.error = .unspecified) (hnames : (resp.tunnels.map (·.name)).Nodup)
    (hfit : ∀ rec ∈ resp.tunnels, Fits (visible s.registry.backend.reservations) req rec)
    (hapart : ∀ rec ∈ resp.tunnels, ∀ rec' ∈ resp.tunnels, rec.publicPort ≠ 0 →
      rec.publicPort = rec'.publicPort → rec.name = rec'.name) :
    Kept ⟨r.reserveAssigned svc now req resp true, s.granted ++ resp.tunnels⟩ := by
  refine h.claimed hfit hapart ?_ ?_ ?_ rfl
  · have hassigned : assigned req resp = resp.tunnels :=
      if_neg (by rw [hkind]; exact TunClaimKind.noConfusion)
    dsimp only
    rw [Registry.reserveAssigned_backend _ _ _ _ _ hok, hassigned, hr.cached, hr.backend]
    refine reserve_reserves (s.registry.backend.reservations, false) haccepts hnames h.keyed
      (fun _ _ => rfl) fun rec hrec r hr => ?_
    have htok : tokenOf req rec = req.tokenId := by
      unfold tokenOf
      rw [(hfit rec hrec).tokenId]
      split <;> rfl
    rw [htok]
    exact (hfit rec hrec).token r hr
  · exact r.reserveAssigned_cached svc now req resp (by rw [hr.cached, hr.backend])
  · exact (r.reserveAssigned_downAt svc now req resp true).trans hr.up

theorem Kept.claim (h : s.Kept) (haccepts : ∀ rs r, svc.accepts rs r = true) (now : ℤ)
    (order : RangeOrder) (hkind : req.kind = .claim) (hfits : RangeFits cfg req)
    (hreq : ∀ spec ∈ req.tunnels, getsPort spec → spec.publicPort = 0) :
    (s.next cfg svc (.post now order req true)).Kept := by
  have hcurrent : Current s (s.registry.post cfg now order req true).1 := by
    obtain ⟨hcopy, hup, hback⟩ := prepared_claim h now hkind
    exact ⟨hcopy, hup, hback⟩
  have hnext : s.next cfg svc (.post now order req true) =
      ⟨(s.registry.post cfg now order req true).1.reserveAssigned svc now req
        (s.registry.post cfg now order req true).2 true,
        s.granted ++ (s.registry.post cfg now order req true).2.tunnels⟩ := by
    simp only [next, Registry.serve, hkind, true_or, if_true]
  have hresp : (s.registry.post cfg now order req true).2 =
      ((s.registry.prepared now req true).engine.handle cfg
        ((s.registry.prepared now req true).env now order) req).2 := rfl
  rw [hnext]
  rcases handle_claim cfg (s.registry.prepared now req true).engine
    ((s.registry.prepared now req true).env now order) hkind with ⟨herr, hnone⟩ | ⟨hok, heq⟩
  · rw [← hresp] at herr hnone
    rw [hnone, Registry.reserveAssigned_refused _ _ _ _ _ herr]
    exact h.same hcurrent.backend (.inr hcurrent.cached) hcurrent.up (List.append_nil _)
  · obtain ⟨hnames, hfit, hapart⟩ := claim_fits hfits hreq hok
    have hcopy : ((s.registry.prepared now req true).env now order).reservations =
      visible s.registry.backend.reservations := hcurrent.cached
    rw [hcopy] at hfit
    rw [← heq, ← hresp] at hok hnames hfit hapart
    exact h.reserve haccepts hcurrent now hkind hok hnames hfit hapart

theorem posted_same (cfg : Claims.Config) (s : Ports) (now : ℤ) (order : RangeOrder)
    (hkind : req.kind ≠ .claim) :
    (s.registry.post cfg now order req true).1.dir = s.registry.dir ∧
      (s.registry.post cfg now order req true).1.backend = s.registry.backend := by
  simp only [Registry.post, Registry.prepared, hkind, if_false, and_self]

theorem Kept.announce (h : s.Kept) (now : ℤ) (order : RangeOrder) (hkind : req.kind = .announce)
    (hreq : ∀ t ∈ req.tunnels, t.publicPort ≠ 0 →
      ∃ g ∈ s.granted, g.name = t.name ∧ g.publicPort = t.publicPort) :
    (s.next cfg svc (.post now order req true)).Kept := by
  have hnext : s.next cfg svc (.post now order req true) =
      ⟨(s.registry.post cfg now order req true).1.reserveAssigned svc now req
        (s.registry.post cfg now order req true).2 true, s.granted⟩ := by
    simp only [next, Registry.serve, hkind, or_true, if_true, reduceCtorEq, if_false]
  have hposted := posted_same cfg s now order (show req.kind ≠ .claim by rw [hkind]; decide)
  rw [hnext, Registry.reserveAssigned_idle]
  · exact h.same hposted.2 (.inl (by rw [hposted.1])) (by rw [hposted.1]; exact h.up) rfl
  · intro t ht hp
    unfold assigned at ht
    rw [if_pos hkind] at ht
    obtain ⟨g, hg, hname, hport⟩ := hreq t (List.mem_filter.mp ht).1 hp
    obtain ⟨r, hr, hrp⟩ := h.reserved g hg (hport ▸ hp)
    refine ⟨r, ?_, hrp.trans hport⟩
    rw [hposted.1, h.cached, ← hname]
    exact hr

theorem Kept.other (h : s.Kept) (now : ℤ) (order : RangeOrder)
    (hkind : req.kind ≠ .claim ∧ req.kind ≠ .announce) :
    (s.next cfg svc (.post now order req true)).Kept := by
  have hnext : s.next cfg svc (.post now order req true) =
      ⟨(s.registry.post cfg now order req true).1, s.granted⟩ := by
    simp only [next, Registry.serve, hkind.1, hkind.2, or_self, if_false]
  have hposted := posted_same cfg s now order hkind.1
  rw [hnext]
  exact h.same hposted.2 (.inl (by rw [hposted.1])) (by rw [hposted.1]; exact h.up) rfl

theorem kept_step (haccepts : ∀ rs r, svc.accepts rs r = true) (s : Ports) (a : Event) (t : Ports)
    (h : s.Kept) (hs : Step cfg svc s a t) : t.Kept := by
  obtain ⟨hallows, rfl⟩ := hs
  cases a with
  | post now order req up =>
    obtain ⟨rfl, hclaim, hannounce⟩ := hallows
    by_cases hc : req.kind = .claim
    · exact h.claim haccepts now order hc (hclaim hc).1 (hclaim hc).2
    by_cases ha : req.kind = .announce
    · exact h.announce now order ha (hannounce ha)
    · exact h.other now order ⟨hc, ha⟩
  | refresh up =>
    obtain rfl := hallows
    exact h.same rfl (.inr rfl) h.up rfl
  | restart up =>
    obtain rfl := hallows
    exact h.same rfl (.inr rfl) rfl rfl
  | sweep now order => exact h.same rfl (.inl rfl) h.up rfl
  | command now order cmd => exact h.same rfl (.inl rfl) h.up rfl
  | change b => exact hallows.elim

theorem start_kept {b : Backend} (hb : Keyed (visible b.reservations)) : (start b).Kept := by
  refine ⟨rfl, rfl, hb, ?_, ?_, ?_⟩
  · exact fun g hg => absurd hg List.not_mem_nil
  · exact fun g hg => absurd hg List.not_mem_nil
  · exact fun g hg => absurd hg List.not_mem_nil

end Ports

/-- In every run with the backend up, two tunnels that were granted a port have
the same port if and only if they have the same name. -/
theorem assigned_ports_stay (cfg : Claims.Config) (svc : Service) (b : Backend) (as : List Event)
    (s : Ports) (haccepts : ∀ rs r, svc.accepts rs r = true) (hb : Keyed (visible b.reservations))
    (hrun : Run (Ports.Step cfg svc) (Ports.start b) as s) :
    ∀ g ∈ s.granted, ∀ g' ∈ s.granted, getsPort g → getsPort g' →
      (g.name = g'.name ↔ g.publicPort = g'.publicPort) := by
  have hkept : s.Kept := Run.invariant (I := Ports.Kept) (Ports.kept_step haccepts) hrun
    (Ports.start_kept hb)
  intro g hg g' hg' hp hp'
  constructor
  · intro hname
    obtain ⟨r, hr, hport⟩ := hkept.reserved g hg (hkept.ported g hg hp)
    obtain ⟨r', hr', hport'⟩ := hkept.reserved g' hg' (hkept.ported g' hg' hp')
    rw [hname, hr'] at hr
    cases hr
    exact hport.symm.trans hport'
  · exact hkept.apart g hg g' hg' (hkept.ported g hg hp)

def plainService : Service where
  newID rs := String.ofList (List.replicate ((rs.map (·.reservationId.length)).sum + 1) 'x')
  accepts _ _ := true
  nonempty rs h := by
    have hlen := congrArg String.length h
    simp at hlen
  fresh rs r hr h := by
    have hle : r.reservationId.length ≤ (rs.map (·.reservationId.length)).sum :=
      List.single_le_sum (fun _ _ => Nat.zero_le _) _ (List.mem_map_of_mem hr)
    have hlen := congrArg String.length h
    rw [String.length_ofList, List.length_replicate] at hlen
    omega

def claimOf (name sessionId : String) : TunClaimRequest :=
  { kind := .claim, relayId := "r1", sessionId := sessionId, agentId := "A", tokenId := "T"
    portMin := 22000, portMax := 22999, tunnels := [{ name := name, type := .tcp }] }

theorem claimOf_allowed (s : Ports) (name sessionId : String) :
    s.Allows sampleConfig.withDefaults (.post 0 .stored (claimOf name sessionId) true) := by
  refine ⟨rfl, fun _ => ⟨?_, ?_⟩, TunClaimKind.noConfusion⟩
  · exact allocationRange_fits {} (by decide) rfl rfl rfl
  · intro spec hspec _
    rw [List.mem_singleton.mp hspec]

def reclaimed : List Event :=
  [.post 0 .stored (claimOf "a" "s1") true, .post 0 .stored (claimOf "b" "s2") true,
    .restart true, .post 0 .stored (claimOf "b" "s3") true]

def reclaimedPorts : Ports :=
  reclaimed.foldl (Ports.next sampleConfig.withDefaults plainService) (Ports.start {})

theorem reclaimed_run :
    Run (Ports.Step sampleConfig plainService) (Ports.start {}) reclaimed reclaimedPorts :=
  .cons ⟨claimOf_allowed _ _ _, rfl⟩ (.cons ⟨claimOf_allowed _ _ _, rfl⟩
    (.cons ⟨rfl, rfl⟩ (.cons ⟨claimOf_allowed _ _ _, rfl⟩ (.nil _))))

/-- `b` has its port again after a restart that left the engine empty. -/
theorem assigned_ports_stay_restarted :
    (reclaimedPorts.granted.map fun g => (g.name, g.publicPort)) =
      [("a", 22000), ("b", 22001), ("b", 22001)] ∧
    ∀ g ∈ reclaimedPorts.granted, ∀ g' ∈ reclaimedPorts.granted, getsPort g → getsPort g' →
      (g.name = g'.name ↔ g.publicPort = g'.publicPort) :=
  ⟨by decide, assigned_ports_stay sampleConfig plainService {} reclaimed reclaimedPorts
    (fun _ _ => rfl) List.nodup_nil reclaimed_run⟩

end L8Tunnel.Live
