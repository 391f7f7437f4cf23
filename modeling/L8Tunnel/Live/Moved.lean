import L8Tunnel.Live.Ports

/-! # A moved reservation -/

namespace L8Tunnel.Live
open Base Claims

def Validates (svc : Service) : Prop := ∀ rs r, svc.accepts rs r = true → Unique rs r

def Older (copy rows : List TunReservation) : Prop :=
  ∀ c ∈ copy, ∃ r ∈ rows, r.reservationId = c.reservationId ∧ r.name = c.name ∧
    r.tokenId = c.tokenId

/-- Nobody but `n` has the port. -/
structure OpenTo (n : String) (q : Int32) (e : Engine) : Prop where
  index : ∀ k, e.byPort.get q = some k → k = n
  records : ∀ k rec, e.tunnels.get k = some rec → rec.publicPort = q → k = n

/-- The operator's edit: `n` is connected, its reservation is given the port
`q` of the relay's range, which nobody else has, and the write is accepted. -/
structure Moves (cfg : Claims.Config) (svc : Service) (n token : String) (q : Int32)
    (s s' : Registry) : Prop where
  range : 1 ≤ cfg.rules.portMin ∧ cfg.rules.portMin ≤ cfg.rules.portMax ∧
    cfg.rules.portMax ≤ 65535
  port : InRange cfg.rules q
  keyed : Keyed (visible s.backend.reservations)
  names : ∀ r ∈ visible s.backend.reservations, ∀ r' ∈ visible s.backend.reservations,
    r.name = r'.name → r = r'
  copy : Older s.dir.reservations (visible s.backend.reservations)
  connected : ∃ t, s.engine.tunnels.get n = some t ∧ t.state = .active
  free : OpenTo n q s.engine
  edit : ∃ r rs, s.backend.stored n = some r ∧ r.tokenId = token ∧
    svc.put s.backend.reservations { r with publicPort := q } = some rs ∧
    s' = { s with backend := { s.backend with reservations := rs } }

def Follows (cfg : Claims.Config) (svc : Service) (n : String) (s : Registry) (a : Event)
    (t : Registry) : Prop :=
  match a with
  | .post now order req up => (req.kind = .claim → ∀ spec ∈ req.tunnels, spec.name ≠ n) ∧
    ∃ upAfter, t = (s.serve cfg.withDefaults now order req up svc upAfter).1
  | .change _ => False
  | a => t = s.next cfg.withDefaults a

/-- The stored reservation names the port, and a CLAIM of the tunnel that
requests none is not refused for it and gets it. -/
structure TakesEffect (cfg : Claims.Config) (n token : String) (q : Int32) (s : Registry) :
    Prop where
  stored : ∃ r, s.backend.stored n = some r ∧ r.tokenId = token ∧ r.publicPort = q
  granted : ∀ now order req, req.kind = .claim → s.dir.backsOff now = false →
    (∀ spec ∈ req.tunnels, spec.name = n → getsPort spec ∧ spec.publicPort = 0) →
    (∀ t ∈ (s.post cfg.withDefaults now order req true).2.tunnels, t.name = n →
      t.publicPort = q) ∧
    ((∀ spec ∈ req.tunnels, spec.name = n) →
      (s.post cfg.withDefaults now order req true).2.error ≠ .portUnavailable ∧
      (s.post cfg.withDefaults now order req true).2.error ≠ .portNotAllowed)

/-- The condition: no announcement lists `n` under its token with a port that is
neither `q` nor the one of the registry's copy, none lists another tunnel with
`q`, and the refresh before a CLAIM is made and answered. -/
def Leaves (n : String) (q : Int32) (s : Registry) (a : Event) : Prop :=
  ∀ now order req up, a = .post now order req up →
    (req.kind = .announce → ∀ t ∈ req.tunnels,
      (t.publicPort = q → t.name = n) ∧
      (t.name = n → t.simulated = false → t.publicPort ≠ 0 →
        ∀ r, reservationOf s.dir.reservations n = some r → r.tokenId = tokenOf req t →
          t.publicPort = r.publicPort ∨ t.publicPort = q)) ∧
    (req.kind = .claim → s.dir.backsOff now = false ∧ up = true)

namespace OpenTo
variable {n : String} {q : Int32} {e e' : Engine}

theorem new : OpenTo n q Engine.new :=
  ⟨fun k h => by simp [Engine.new] at h, fun k rec h => by simp [Engine.new] at h⟩

theorem same (h : OpenTo n q e) (hs : SameTunnels e e') : OpenTo n q e' := by
  refine ⟨?_, ?_⟩
  · rw [hs.byPort]
    exact h.index
  · rw [hs.tunnels]
    exact h.records

theorem set (h : OpenTo n q e) {rec : TunLiveTunnel} (hrec : rec.publicPort = q → rec.name = n) :
    OpenTo n q (e.setTunnel rec) := by
  refine ⟨fun k hk => ?_, fun k r hr hp => ?_⟩
  · rw [Engine.setTunnel_byPort, Index.update, Index.get_add] at hk
    split at hk
    next hmem =>
      cases hk
      exact hrec ((Engine.mem_ports rec q).mp hmem).1.symm
    next =>
      rw [Index.get_drop] at hk
      split at hk
      · cases hk
      · exact h.index k hk
  · rw [Engine.setTunnel_tunnels, Table.get_put] at hr
    split at hr
    next hk =>
      cases hr
      rw [hk]
      exact hrec hp
    next => exact h.records k r hr hp

theorem sets (h : OpenTo n q e) {recs : List TunLiveTunnel}
    (hrecs : ∀ rec ∈ recs, rec.publicPort = q → rec.name = n) :
    OpenTo n q (recs.foldl Engine.setTunnel e) := by
  induction recs generalizing e with
  | nil => exact h
  | cons rec recs ih =>
    obtain ⟨hrec, hrest⟩ := List.forall_mem_cons.mp hrecs
    exact ih (h.set hrec) hrest

theorem delete (h : OpenTo n q e) (name : String) : OpenTo n q (e.deleteTunnel name) := by
  cases hg : e.tunnels.get name with
  | none =>
    have hsame : e.deleteTunnel name = e := by simp [Engine.deleteTunnel, hg]
    rw [hsame]
    exact h
  | some rec =>
    refine ⟨fun k hk => ?_, fun k r hr hp => ?_⟩
    · rw [Engine.deleteTunnel_byPort hg, Index.get_drop] at hk
      split at hk
      · cases hk
      · exact h.index k hk
    · rw [Engine.deleteTunnel_get] at hr
      split at hr
      · cases hr
      · exact h.records k r hr hp

theorem upkeep (h : OpenTo n q e) (hu : Upkeep e e') : OpenTo n q e' := by
  induction hu with
  | refl => exact h
  | frame _ hs ih => exact ih.same hs
  | @rewrite _ old rec _ hg hs ih =>
    refine ih.set fun hp => ih.records _ old hg ?_
    rw [← hp, hs.publicPort]
  | delete name _ ih => exact ih.delete name

theorem handle (h : OpenTo n q e) {cfg : Claims.Config} {env : Env} {req : TunClaimRequest}
    (hq : q ≠ 0)
    (hclaim : req.kind = .claim → ∃ r ∈ env.reservations, r.name = n ∧ r.publicPort = q)
    (hann : req.kind = .announce → ∀ t ∈ req.tunnels, t.publicPort = q → t.name = n) :
    OpenTo n q (e.handle cfg env req).1 := by
  rcases e.call_cases cfg env (.handle req) with
    hup | ⟨req', recs, heq, hkind, hg, hs⟩ | ⟨req', e1, us, heq, hkind, hs, hus, hup⟩
  · exact h.upkeep hup
  · cases heq
    obtain ⟨r, hr, hname, hport⟩ := hclaim hkind
    refine (h.sets fun rec hrec hp => ?_).same hs
    have hsame := (hg.admitted rec hrec).reserved_port (hp ▸ hq) hr (hport.trans hp.symm)
    exact hsame.symm.trans hname
  · cases heq
    refine ((h.same hs).sets fun rec hrec hp => ?_).upkeep hup
    obtain ⟨t, ht, rfl⟩ := List.mem_map.mp hrec
    exact hann hkind.1 t (hus t ht).1 hp

end OpenTo

structure Row (n token : String) (q : Int32) (rows : List TunReservation) : Prop where
  keyed : Keyed rows
  row : ∃ r ∈ rows, r.name = n ∧ r.tokenId = token ∧ r.publicPort = q
  one : ∀ r ∈ rows, ∀ r' ∈ rows, r.name = n → r'.name = n → r = r'
  alone : ∀ r ∈ rows, r.publicPort = q → r.name = n

namespace Row
variable {n token : String} {q : Int32} {rows : List TunReservation}

theorem reservationOf (h : Row n token q rows) :
    ∃ r, reservationOf rows n = some r ∧ r.tokenId = token ∧ r.publicPort = q := by
  obtain ⟨r, hr, hname, htok, hport⟩ := h.row
  cases hget : Claims.reservationOf rows n with
  | none =>
    rw [reservationOf_eq_find, List.find?_eq_none] at hget
    exact absurd hname (by simpa using hget r (List.mem_reverse.mpr hr))
  | some r' =>
    obtain ⟨hr', hname'⟩ := reservationOf_some hget
    rw [h.one r' hr' r hr hname' hname]
    exact ⟨r, rfl, htok, hport⟩

theorem append (h : Row n token q rows) {r : TunReservation}
    (hid : ∀ x ∈ rows, x.reservationId ≠ r.reservationId) (hname : r.name ≠ n)
    (hport : r.publicPort ≠ q) : Row n token q (rows ++ [r]) := by
  have hmem : ∀ x, x ∈ rows ++ [r] → x ∈ rows ∨ x = r := by simp
  refine ⟨keyed_append h.keyed hid, ?_, ?_, ?_⟩
  · obtain ⟨x, hx, hrest⟩ := h.row
    exact ⟨x, List.mem_append_left _ hx, hrest⟩
  · intro x hx y hy hxn hyn
    rcases hmem x hx with hx | rfl
    · rcases hmem y hy with hy | rfl
      · exact h.one x hx y hy hxn hyn
      · exact absurd hyn hname
    · exact absurd hxn hname
  · intro x hx hxq
    rcases hmem x hx with hx | rfl
    · exact h.alone x hx hxq
    · exact absurd hxq hport

variable {u x : TunReservation}

theorem mem_replaced (hx : x ∈ replaced rows u) :
    x = u ∧ (∃ y ∈ rows, y.reservationId = u.reservationId) ∨
      x ∈ rows ∧ x.reservationId ≠ u.reservationId := by
  obtain ⟨y, hy, rfl⟩ := List.mem_map.mp hx
  by_cases hid : y.reservationId = u.reservationId
  · rw [if_pos hid]
    exact .inl ⟨rfl, y, hy, hid⟩
  · rw [if_neg hid]
    exact .inr ⟨hy, hid⟩

theorem replaced_mem (hx : x ∈ rows) (hid : x.reservationId = u.reservationId) :
    u ∈ replaced rows u :=
  List.mem_map.mpr ⟨x, hx, if_pos hid⟩

theorem replaced_other (hx : x ∈ rows) (hid : x.reservationId ≠ u.reservationId) :
    x ∈ replaced rows u :=
  List.mem_map.mpr ⟨x, hx, if_neg hid⟩

theorem replace_other (h : Row n token q rows) (hx : x ∈ rows)
    (hid : x.reservationId = u.reservationId) (hname : u.name = x.name) (hne : x.name ≠ n)
    (hport : u.publicPort ≠ q) : Row n token q (replaced rows u) := by
  refine ⟨(keyed_replaced rows u).mpr h.keyed, ?_, ?_, ?_⟩
  · obtain ⟨r, hr, hrn, hrest⟩ := h.row
    refine ⟨r, replaced_other hr fun hru => hne ?_, hrn, hrest⟩
    rw [h.keyed.eq hx hr (hid.trans hru.symm)]
    exact hrn
  · intro y hy z hz hyn hzn
    rcases mem_replaced hy with ⟨rfl, -⟩ | ⟨hy, -⟩
    · exact absurd (hname.symm.trans hyn) hne
    · rcases mem_replaced hz with ⟨rfl, -⟩ | ⟨hz, -⟩
      · exact absurd (hname.symm.trans hzn) hne
      · exact h.one y hy z hz hyn hzn
  · intro y hy hyq
    rcases mem_replaced hy with ⟨rfl, -⟩ | ⟨hy, -⟩
    · exact absurd hyq hport
    · exact h.alone y hy hyq

end Row

variable {n token : String} {q : Int32} {cfg : Claims.Config} {req : TunClaimRequest}

theorem row_replaced {rows : List TunReservation} (hkeyed : Keyed rows) {u x : TunReservation}
    (hx : x ∈ rows) (hid : x.reservationId = u.reservationId) (hname : u.name = n)
    (htok : u.tokenId = token) (hport : u.publicPort = q)
    (hone : ∀ y ∈ rows, y.name = n → y.reservationId = u.reservationId)
    (halone : ∀ y ∈ rows, y.reservationId ≠ u.reservationId → y.publicPort ≠ q) :
    Row n token q (replaced rows u) := by
  refine ⟨(keyed_replaced rows u).mpr hkeyed,
    ⟨u, Row.replaced_mem hx hid, hname, htok, hport⟩, ?_, ?_⟩
  · have hu : ∀ y ∈ replaced rows u, y.name = n → y = u := by
      intro y hy hyn
      rcases Row.mem_replaced hy with ⟨rfl, -⟩ | ⟨hy, hne⟩
      · rfl
      · exact absurd (hone y hy hyn) hne
    intro y hy z hz hyn hzn
    rw [hu y hy hyn, hu z hz hzn]
  · intro y hy hyq
    rcases Row.mem_replaced hy with ⟨rfl, -⟩ | ⟨hy, hne⟩
    · exact hname
    · exact absurd hyq (halone y hy hne)

namespace Older
variable {copy rows : List TunReservation}

theorem refl (rows : List TunReservation) : Older rows rows := fun c hc => ⟨c, hc, rfl, rfl, rfl⟩

theorem append (h : Older copy rows) (r : TunReservation) : Older copy (rows ++ [r]) := by
  intro c hc
  obtain ⟨x, hx, hrest⟩ := h c hc
  exact ⟨x, List.mem_append_left _ hx, hrest⟩

theorem replace (h : Older copy rows) {u x : TunReservation} (hkeyed : Keyed rows) (hx : x ∈ rows)
    (hid : x.reservationId = u.reservationId) (hname : u.name = x.name)
    (htok : u.tokenId = x.tokenId) : Older copy (replaced rows u) := by
  intro c hc
  obtain ⟨y, hy, hyid, hyn, hyt⟩ := h c hc
  by_cases hyu : y.reservationId = u.reservationId
  · have hyx : y = x := hkeyed.eq hy hx (hyu.trans hid.symm)
    subst hyx
    exact ⟨u, Row.replaced_mem hy hyu, hyu.symm.trans hyid, hname.trans hyn, htok.trans hyt⟩
  · exact ⟨y, Row.replaced_other hy hyu, hyid, hyn, hyt⟩

end Older

section
variable {svc : Service} {existing : List TunReservation} {createdAt : ℤ}

def Spared (n : String) (q : Int32) (req : TunClaimRequest) (existing : List TunReservation)
    (t : TunLiveTunnel) : Prop :=
  t.name = n → t.publicPort ≠ 0 → ∀ r, reservationOf existing n = some r →
    r.tokenId = tokenOf req t → t.publicPort = r.publicPort ∨ t.publicPort = q

theorem reserveOne_row (hsvc : Validates svc) {acc : List TunReservation × Bool}
    {t : TunLiveTunnel} (hrow : Row n token q (visible acc.1))
    (hold : Older existing (visible acc.1)) (ht : Spared n q req existing t) :
    Row n token q (visible (reserveOne svc req existing createdAt acc t).1) ∧
      Older existing (visible (reserveOne svc req existing createdAt acc t).1) := by
  obtain ⟨r0, hr0, hname0, htok0, hport0⟩ := hrow.row
  rcases reserveOne_cases svc req existing createdAt acc t with
    ⟨hone, -⟩ | ⟨hport, ⟨r, -, hid, hname, -, hp, hacc, hone⟩ | ⟨r, hsome, htok, hne, hacc, hone⟩⟩
  · rw [hone]
    exact ⟨hrow, hold⟩
  · have hfresh : ∀ x ∈ visible acc.1, x.reservationId ≠ r.reservationId := by
      intro x hx
      rw [hid]
      exact svc.fresh _ x (mem_visible.mp hx).1
    obtain ⟨hn, hq⟩ := hsvc _ _ hacc r0 hr0 (hfresh r0 hr0)
    have hq' : r.publicPort ≠ q := fun h => hq (by rw [hp]; exact hport) (hport0.trans h.symm)
    rw [hone, visible_append _ (by rw [hid]; exact svc.nonempty _)]
    exact ⟨hrow.append hfresh (fun h => hn (hname0.trans h.symm)) hq', hold.append r⟩
  · -- the stored row that the copy's row is written over
    obtain ⟨hmem, hname⟩ := reservationOf_some hsome
    obtain ⟨x, hx, hxid, hxn, hxt⟩ := hold r hmem
    rw [hone, visible_replaced]
    refine ⟨?_, hold.replace hrow.keyed hx hxid hxn.symm hxt.symm⟩
    by_cases hn : t.name = n
    · have hxr0 : x = r0 := hrow.one x hx r0 hr0 (hxn.trans (hname.trans hn)) hname0
      have hq : t.publicPort = q :=
        (ht hn hport r (hn ▸ hsome) htok).resolve_left fun h => hne h.symm
      refine row_replaced hrow.keyed hx hxid (hname.trans hn) ?_ hq ?_ ?_
      · exact hxt.symm.trans (hxr0 ▸ htok0)
      · intro y hy hyn
        rw [hrow.one y hy x hx hyn (hxr0 ▸ hname0)]
        exact hxid
      · intro y hy hyid hyq
        have hy0 := hrow.one y hy x hx (hrow.alone y hy hyq) (hxr0 ▸ hname0)
        exact hyid (hy0 ▸ hxid)
    · have hxn' : x.name ≠ n := fun h => hn (hname.symm.trans (hxn.symm.trans h))
      have hid0 : r0.reservationId ≠ r.reservationId := fun h =>
        hxn' (by rw [hrow.keyed.eq hx hr0 (hxid.trans h.symm)]; exact hname0)
      obtain ⟨-, hq⟩ := hsvc _ _ hacc r0 hr0 hid0
      exact hrow.replace_other hx hxid hxn.symm hxn' fun h => hq hport (hport0.trans h.symm)

theorem reserve_row (hsvc : Validates svc) (acc : List TunReservation × Bool)
    {ts : List TunLiveTunnel} (hrow : Row n token q (visible acc.1))
    (hold : Older existing (visible acc.1)) (hts : ∀ t ∈ ts, Spared n q req existing t) :
    Row n token q (visible (ts.foldl (reserveOne svc req existing createdAt) acc).1) ∧
      Older existing (visible (ts.foldl (reserveOne svc req existing createdAt) acc).1) := by
  induction ts generalizing acc with
  | nil => exact ⟨hrow, hold⟩
  | cons t ts ih =>
    obtain ⟨ht, hrest⟩ := List.forall_mem_cons.mp hts
    obtain ⟨hrow', hold'⟩ := reserveOne_row hsvc hrow hold ht
    exact ih _ hrow' hold' hrest

end

theorem handle_claim_listed {e : Engine} {env : Env} (hkind : req.kind = .claim) {t : TunLiveTunnel}
    (ht : t ∈ (e.handle cfg env req).2.tunnels) : ∃ spec ∈ req.tunnels, spec.name = t.name := by
  rcases Ports.handle_claim cfg e env hkind with ⟨-, hnone⟩ | ⟨hok, heq⟩
  · rw [hnone] at ht
    cases ht
  · rw [heq] at ht
    rcases e.claim_cases cfg env req with ⟨r, hcode, hr⟩ | ⟨recs, olds, -, -, hnames, hc⟩
    · rw [hr] at hok
      exact absurd hok hcode
    · rw [hc] at ht
      have hmem : t.name ∈ req.tunnels.map (·.name) := hnames ▸ List.mem_map_of_mem ht
      simpa using hmem

/-- The edited reservation is stored, the copy is no newer, and its port is open to its name. -/
structure Settled (n token : String) (q : Int32) (s : Registry) : Prop where
  rows : Row n token q (visible s.backend.reservations)
  copy : Older s.dir.reservations (visible s.backend.reservations)
  engine : OpenTo n q s.engine

namespace Settled
variable {svc : Service} {s : Registry}

theorem withEngine (h : Settled n token q s) {e : Engine} (he : OpenTo n q e) :
    Settled n token q { s with engine := e } := ⟨h.rows, h.copy, he⟩

theorem reload (h : Settled n token q s) (up : Bool) : Settled n token q (s.reload up) := by
  cases up with
  | false => exact h
  | true => exact ⟨h.rows, .refl _, h.engine⟩

theorem restarted (h : Settled n token q s) (up : Bool) : Settled n token q (s.restarted up) := by
  have hcleared : Settled n token q { s with engine := Engine.new, dir := {} } :=
    ⟨h.rows, fun c hc => absurd hc List.not_mem_nil, .new⟩
  exact hcleared.reload up

theorem prepared (h : Settled n token q s) (now : ℤ) (req : TunClaimRequest) (up : Bool) :
    Settled n token q (s.prepared now req up) := by
  unfold Registry.prepared
  split
  · refine ⟨h.rows, ?_, h.engine⟩
    dsimp only
    unfold Directory.refreshForClaim
    split
    · exact h.copy
    cases up with
    | false => exact h.copy
    | true => exact .refl _
  · exact h

theorem reserve (h : Settled n token q s) (hsvc : Validates svc) (now : ℤ)
    {resp : TunClaimResponse} (up : Bool)
    (hts : ∀ t ∈ assigned req resp, Spared n q req s.dir.reservations t) :
    Settled n token q (s.reserveAssigned svc now req resp up) := by
  unfold Registry.reserveAssigned
  split
  · exact h
  dsimp only
  generalize hout : (assigned req resp).foldl (reserveOne svc req s.dir.reservations (unix now))
    (s.backend.reservations, false) = out
  have hwritten : Settled n token q
      { s with backend := { s.backend with reservations := out.1 } } := by
    obtain ⟨hrow, hold⟩ := reserve_row hsvc (s.backend.reservations, false) h.rows h.copy hts
    rw [hout] at hrow hold
    exact ⟨hrow, hold, h.engine⟩
  split
  · exact hwritten.reload up
  · exact hwritten

variable {now : ℤ} {order : RangeOrder} {up : Bool}

theorem prepared_copy (hoff : s.dir.backsOff now = false) (hkind : req.kind = .claim) :
    (s.prepared now req true).dir.reservations = visible s.backend.reservations := by
  unfold Registry.prepared Directory.refreshForClaim
  rw [if_pos hkind]
  dsimp only
  rw [if_neg (by rw [hoff]; exact Bool.false_ne_true)]
  rfl

theorem post (h : Settled n token q s) (hq : q ≠ 0) (hl : Leaves n q s (.post now order req up)) :
    Settled n token q (s.post cfg now order req up).1 := by
  obtain ⟨hann, hclaim⟩ := hl now order req up rfl
  refine (h.prepared now req up).withEngine ?_
  refine (h.prepared now req up).engine.handle hq (fun hkind => ?_) fun hkind t ht => (hann hkind t ht).1
  obtain ⟨hoff, rfl⟩ := hclaim hkind
  obtain ⟨r, hr, hname, -, hport⟩ := h.rows.row
  refine ⟨r, ?_, hname, hport⟩
  show r ∈ (s.prepared now req true).dir.reservations
  rw [prepared_copy hoff hkind]
  exact hr

theorem assigned_spared (hl : Leaves n q s (.post now order req up))
    (hother : req.kind = .claim → ∀ spec ∈ req.tunnels, spec.name ≠ n)
    (hkind : req.kind = .claim ∨ req.kind = .announce) :
    ∀ t ∈ assigned req (s.post cfg now order req up).2,
      Spared n q req (s.post cfg now order req up).1.dir.reservations t := by
  intro t ht hname hport
  unfold assigned at ht
  rcases hkind with hkind | hkind
  · rw [if_neg (by rw [hkind]; exact TunClaimKind.noConfusion)] at ht
    obtain ⟨spec, hspec, hn⟩ := handle_claim_listed hkind ht
    exact absurd (hn.trans hname) (hother hkind spec hspec)
  · rw [if_pos hkind] at ht
    obtain ⟨hmem, hlisted⟩ := List.mem_filter.mp ht
    have hdir : (s.post cfg now order req up).1.dir = s.dir := by
      simp only [Registry.post, Registry.prepared, hkind, reduceCtorEq, if_false]
    rw [hdir]
    have hsim : t.simulated = false := by
      simp only [Bool.decide_and, Bool.and_eq_true, decide_eq_true_eq] at hlisted
      exact hlisted.1
    exact (((hl now order req up rfl).1 hkind) t hmem).2 hname hsim hport

theorem step (hsvc : Validates svc) (hq : q ≠ 0) (s : Registry) (a : Event) (t : Registry)
    (h : Settled n token q s) (hs : Guarded (Leaves n q) (Follows cfg svc n) s a t) :
    Settled n token q t := by
  obtain ⟨hl, hs⟩ := hs
  cases a with
  | post now order req up =>
    obtain ⟨hother, upAfter, rfl⟩ := hs
    have hposted : Settled n token q (s.post cfg.withDefaults now order req up).1 := h.post hq hl
    unfold Registry.serve
    dsimp only
    split
    next hkind => exact hposted.reserve hsvc now upAfter (assigned_spared hl hother hkind)
    next => exact hposted
  | refresh up =>
    obtain rfl := hs
    exact h.reload up
  | restart up =>
    obtain rfl := hs
    exact h.restarted up
  | sweep now order =>
    obtain rfl := hs
    exact h.withEngine (h.engine.upkeep (Engine.sweep_upkeep _ _ _))
  | command now order cmd =>
    obtain rfl := hs
    exact h.withEngine (h.engine.upkeep (Engine.command_upkeep _ _ _))
  | change b => exact hs.elim

end Settled

section
variable {e : Engine} {env : Env}

theorem portFor_reserved (hin : InRange cfg.rules q)
    (hrange : 1 ≤ cfg.rules.portMin ∧ cfg.rules.portMin ≤ cfg.rules.portMax ∧
      cfg.rules.portMax ≤ 65535)
    (hrow : Row n token q env.reservations) {spec : TunLiveTunnel} (hname : spec.name = n)
    (hspec : getsPort spec ∧ spec.publicPort = 0) (staged : GoMap Int32 String) (p : Int32) :
    Engine.PortFor e cfg env req spec staged p ↔
      e.free env.reservations staged n q = true ∧ p = q := by
  obtain ⟨r, hr, -, hport⟩ := hrow.reservationOf
  have hq : q ≠ 0 := by
    intro h0
    have hzero : (0 : Int32).toInt = 0 := rfl
    rw [h0, InRange, hzero] at hin
    omega
  have hgets : hasPort spec.type ∧ spec.accessToken = false := hspec.1
  have hrules : ¬ (q < Int32.ofInt cfg.rules.portMin ∨ Int32.ofInt cfg.rules.portMax < q) := by
    obtain ⟨hlo, hhi⟩ := hin
    rw [Int32.lt_iff_toInt_lt, Int32.lt_iff_toInt_lt, toInt_ofInt (by omega) (by omega),
      toInt_ofInt (by omega) (by omega)]
    omega
  rw [Engine.PortFor, if_pos hgets, hname, hr,
    Engine.port_reserved hspec.2 (by rw [hport]; exact hq), hport, if_neg hrules, hname]
  by_cases hfree : e.free env.reservations staged n q = true
  · rw [if_neg (by rw [hfree]; exact Bool.noConfusion)]
    exact ⟨fun h => ⟨hfree, (Except.ok.inj h).symm⟩, fun h => by rw [h.2]⟩
  · rw [if_pos (by simpa using hfree)]
    refine ⟨fun h => ?_, fun h => absurd h.1 hfree⟩
    cases h

theorem free_first (he : OpenTo n q e) (hrow : Row n token q env.reservations) :
    e.free env.reservations Staged.none.ports n q = true := by
  have hindex : nameAt e.byPort q = "" ∨ nameAt e.byPort q = n := by
    unfold nameAt
    cases hget : e.byPort.get q with
    | none => exact .inl rfl
    | some k => exact .inr (he.index k hget)
  have hothers : reservedByOther env.reservations n q = false :=
    reservedByOther_eq_false.mpr hrow.alone
  have hstaged : nameAt Staged.none.ports q = "" := rfl
  simp [Engine.free, hindex, hothers, hstaged]

section
variable (hin : InRange cfg.rules q)
  (hrange : 1 ≤ cfg.rules.portMin ∧ cfg.rules.portMin ≤ cfg.rules.portMax ∧
    cfg.rules.portMax ≤ 65535)
  (hrow : Row n token q env.reservations)
  (hspec : ∀ spec ∈ req.tunnels, spec.name = n → getsPort spec ∧ spec.publicPort = 0)
include hin hrange hrow hspec

theorem claim_moved_granted (hok : (e.claim cfg env req).2.error = .unspecified) :
    ∀ t ∈ (e.claim cfg env req).2.tunnels, t.name = n → t.publicPort = q := by
  intro t ht hname
  obtain ⟨spec, hmem, heq, staged, hport⟩ := claim_port hok ht
  have hn : spec.name = n := by
    rw [← hname, heq]
    rfl
  exact ((portFor_reserved hin hrange hrow hn (hspec spec hmem hn) staged _).mp hport).2

theorem claim_moved_code (he : OpenTo n q e)
    (hall : ∀ spec ∈ req.tunnels, spec.name = n) :
    (e.claim cfg env req).2.error ≠ .portUnavailable ∧
      (e.claim cfg env req).2.error ≠ .portNotAllowed := by
  unfold Engine.claim
  split
  · simp [refuse]
  split
  · simp [refuse]
  cases hst : e.stageAll cfg env req req.tunnels .none with
  | ok st => simp
  | error r =>
    show r.code ≠ _ ∧ r.code ≠ _
    cases hspecs : req.tunnels with
    | nil =>
      rw [hspecs] at hst
      cases hst
    | cons spec specs =>
      have hmem : spec ∈ req.tunnels := hspecs ▸ List.mem_cons_self
      have hn := hall spec hmem
      rw [hspecs] at hst
      unfold Engine.stageAll at hst
      split at hst
      · cases hst
        simp [simulatedRefused]
      split at hst
      · cases hst
        simp
      split at hst
      next hc =>
        cases hst
        exact Engine.check_code hc ⟨q, (portFor_reserved hin hrange hrow hn
          (hspec spec hmem hn) _ _).mpr ⟨free_first he hrow, rfl⟩⟩
      next rec hc =>
      -- a second listing would be of the same name
      cases specs with
      | nil => cases hst
      | cons spec' specs =>
        have hn' := hall spec' (by rw [hspecs]; simp)
        have hrec : rec.name = spec'.name := by
          rw [hn', ← hn, (Engine.check_ok hc).1]
          rfl
        have htwice : ((e.stage req Staged.none rec).recs.get spec'.name).isSome = true := by
          show ((Table.put _ rec).get spec'.name).isSome = true
          rw [← hrec, Table.get_put_self]
          rfl
        unfold Engine.stageAll at hst
        split at hst
        · cases hst
          simp [simulatedRefused]
        cases hst
        simp

end

end

theorem Settled.takesEffect {s : Registry} (h : Settled n token q s) (hin : InRange cfg.rules q)
    (hrange : 1 ≤ cfg.rules.portMin ∧ cfg.rules.portMin ≤ cfg.rules.portMax ∧
      cfg.rules.portMax ≤ 65535) : TakesEffect cfg n token q s := by
  refine ⟨h.rows.reservationOf, fun now order req hkind hoff hspec => ?_⟩
  have hrow : Row n token q ((s.prepared now req true).env now order).reservations := by
    show Row n token q (s.prepared now req true).dir.reservations
    rw [Settled.prepared_copy hoff hkind]
    exact h.rows
  have hopen := (h.prepared now req true).engine
  -- the rules have no defaults
  have hin' : InRange cfg.withDefaults.rules q := hin
  refine ⟨fun t ht hname => ?_, fun hall => ?_⟩
  · rcases Ports.handle_claim cfg.withDefaults (s.prepared now req true).engine
      ((s.prepared now req true).env now order) hkind with ⟨-, hnone⟩ | ⟨hok, heq⟩
    · have hempty : (s.post cfg.withDefaults now order req true).2.tunnels = [] := hnone
      rw [hempty] at ht
      cases ht
    · have hclaim : (s.post cfg.withDefaults now order req true).2 =
          ((s.prepared now req true).engine.claim cfg.withDefaults
            ((s.prepared now req true).env now order) req).2 := congrArg Prod.snd heq
      rw [hclaim] at ht
      exact claim_moved_granted hin' hrange hrow hspec hok t ht hname
  · show ((s.prepared now req true).engine.handle cfg.withDefaults _ req).2.error ≠ _ ∧
      ((s.prepared now req true).engine.handle cfg.withDefaults _ req).2.error ≠ _
    unfold Engine.handle
    split
    · simp [refuse]
    rw [hkind]
    exact claim_moved_code hin' hrange hrow hspec hopen hall

theorem Moves.settled {svc : Service} {s s' : Registry} (hsvc : Validates svc)
    (h : Moves cfg svc n token q s s') (hq : q ≠ 0) : Settled n token q s' := by
  obtain ⟨r, rs, hr, htok, hput, rfl⟩ := h.edit
  obtain ⟨hmem, hname⟩ := reservationOf_some hr
  unfold Service.put at hput
  split at hput
  next hacc =>
    cases hput
    refine ⟨?_, ?_, h.free⟩
    · show Row n token q (visible (replaced s.backend.reservations _))
      rw [visible_replaced]
      refine row_replaced h.keyed hmem rfl hname htok rfl ?_ ?_
      · intro y hy hyn
        rw [h.names y hy r hmem (hyn.trans hname.symm)]
      · exact fun y hy hid => (hsvc _ _ hacc y hy hid).2 hq
    · show Older s.dir.reservations (visible (replaced s.backend.reservations _))
      rw [visible_replaced]
      exact h.copy.replace h.keyed hmem rfl rfl rfl
  next => cases hput

/-- In every run after the edit whose steps meet the condition, the moved
reservation takes effect. -/
theorem moved_reservation_takes_effect (cfg : Claims.Config) (svc : Service) (n token : String)
    (q : Int32) (s0 s1 : Registry) (as : List Event) (s : Registry) (hsvc : Validates svc)
    (hmoves : Moves cfg svc n token q s0 s1)
    (hrun : Run (Guarded (Leaves n q) (Follows cfg svc n)) s1 as s) :
    TakesEffect cfg n token q s := by
  have hq : q ≠ 0 := by
    intro h0
    have hin := hmoves.port
    have hmin := hmoves.range.1
    have hzero : (0 : Int32).toInt = 0 := rfl
    rw [h0, InRange, hzero] at hin
    omega
  have hsettled : Settled n token q s := Run.invariant (I := Settled n token q)
    (Settled.step hsvc hq) hrun (hmoves.settled hsvc hq)
  exact hsettled.takesEffect hmoves.port hmoves.range

instance (rs : List TunReservation) (r : TunReservation) : Decidable (Unique rs r) :=
  inferInstanceAs (Decidable (∀ o ∈ visible rs, _))

def uniqueService : Service :=
  { plainService with accepts := fun rs r => decide (Unique rs r) }

theorem uniqueService_validates : Validates uniqueService :=
  fun _ _ h => of_decide_eq_true h

def Registry.serves (s : Registry) (req : TunClaimRequest) : Registry :=
  (s.serve sampleConfig.withDefaults 0 .stored req true uniqueService true).1

def beforeMove : Registry := ((Registry.start {}).restarted true).serves (claimOf "a" "s1")

def afterMove : Registry :=
  { beforeMove with backend :=
      { reservations := beforeMove.backend.reservations.map fun r => { r with publicPort := 22001 } } }

theorem afterMove_moves : Moves sampleConfig uniqueService "a" "T" 22001 beforeMove afterMove where
  range := by decide
  port := ⟨by decide, by decide⟩
  keyed := by
    unfold Keyed
    decide
  names := by decide
  copy := Older.refl _
  connected := ⟨_, rfl, rfl⟩
  free := by
    have hvalues : ∀ v ∈ beforeMove.engine.tunnels.values, v.publicPort ≠ 22001 := by decide
    refine ⟨fun k hk => ?_, fun k rec hrec hp => ?_⟩
    · have hnone : beforeMove.engine.byPort.get 22001 = none := rfl
      rw [hnone] at hk
      cases hk
    · have hkey : rec.name = k := Table.key_of_get hrec
      exact absurd hp (hvalues rec ((Table.mem_values _ rec).mpr (by rw [hkey]; exact hrec)))
  edit := ⟨_, _, rfl, rfl, rfl, rfl⟩

theorem serves_follows (s : Registry)
    (h : req.kind = .claim → ∀ spec ∈ req.tunnels, spec.name ≠ "a") :
    Follows sampleConfig uniqueService "a" s (.post 0 .stored req true) (s.serves req) :=
  ⟨h, true, rfl⟩

theorem claim_b_other : ∀ spec ∈ (claimOf "b" "s2").tunnels, spec.name ≠ "a" := by
  intro spec hspec
  rw [List.mem_singleton.mp hspec]
  decide

/-- Tunnel `b` is claimed after the move. -/
theorem moved_reservation_takes_effect_claim :
    afterMove.backend.stored "a" ≠ none ∧
    TakesEffect sampleConfig "a" "T" 22001 (afterMove.serves (claimOf "b" "s2")) := by
  refine ⟨by decide, moved_reservation_takes_effect sampleConfig uniqueService "a" "T" 22001
    beforeMove afterMove [.post 0 .stored (claimOf "b" "s2") true] _ uniqueService_validates
    afterMove_moves (.cons ⟨?_, serves_follows _ fun _ => claim_b_other⟩ (.nil _))⟩
  intro now order req up heq
  cases heq
  exact ⟨TunClaimKind.noConfusion, fun _ => ⟨rfl, rfl⟩⟩

def announceA : TunClaimRequest :=
  { kind := .announce, relayId := "r1"
    tunnels := [{ name := "a", type := .tcp, publicPort := 22000, relayId := "r1", agentId := "A"
                  tokenId := "T", sessionId := "s1", state := .active }] }

/-- A claim of another tunnel brings the registry's copy up to date, and then
an announcement by the relay that serves `a` moves the reservation back. -/
theorem announcement_moves_back :
    ¬ ∀ (cfg : Claims.Config) (svc : Service) (n token : String) (q : Int32) (s0 s1 : Registry)
      (as : List Event) (s : Registry), Validates svc → Moves cfg svc n token q s0 s1 →
      Run (Follows cfg svc n) s1 as s → TakesEffect cfg n token q s := by
  intro h
  obtain ⟨r, hr, -, hport⟩ := (h sampleConfig uniqueService "a" "T" 22001 beforeMove afterMove
    [.post 0 .stored (claimOf "b" "s2") true, .post 0 .stored announceA true] _
    uniqueService_validates afterMove_moves
    (.cons (serves_follows _ fun _ => claim_b_other)
      (.cons (serves_follows _ TunClaimKind.noConfusion) (.nil _)))).stored
  have hback : (((afterMove.serves (claimOf "b" "s2")).serves announceA).backend.stored "a").map
      (·.publicPort) = some 22000 := by decide
  rw [hr, Option.map_some, hport] at hback
  exact absurd hback (by decide)

end L8Tunnel.Live
