import Mathlib.Data.List.Find
import L8Tunnel.Live.Directory

/-! # Reserving the ports that were assigned (tun/live/directory.go, tun/access/reservations) -/

namespace L8Tunnel.Live
open Base Claims

def visible (rs : List TunReservation) : List TunReservation :=
  rs.filter fun r => r.reservationId ≠ ""

def Backend.stored (b : Backend) (name : String) : Option TunReservation :=
  reservationOf (visible b.reservations) name

/-- The reservation service: the identifiers it gives and what its validation accepts. -/
structure Service where
  newID : List TunReservation → String
  accepts : List TunReservation → TunReservation → Bool
  nonempty : ∀ rs, newID rs ≠ ""
  fresh : ∀ rs, ∀ r ∈ rs, r.reservationId ≠ newID rs

def Unique (rs : List TunReservation) (r : TunReservation) : Prop :=
  ∀ o ∈ visible rs, o.reservationId ≠ r.reservationId →
    o.name ≠ r.name ∧ (r.publicPort ≠ 0 → o.publicPort ≠ r.publicPort)

def replaced (rs : List TunReservation) (u : TunReservation) : List TunReservation :=
  rs.map fun x => if x.reservationId = u.reservationId then u else x

namespace Service

def post (svc : Service) (rs : List TunReservation) (r : TunReservation) :
    Option (List TunReservation) :=
  let stored := { r with reservationId := svc.newID rs }
  if svc.accepts rs stored then some (rs ++ [stored]) else none

def put (svc : Service) (rs : List TunReservation) (u : TunReservation) :
    Option (List TunReservation) :=
  if svc.accepts rs u then some (replaced rs u) else none

end Service

def assigned (req : TunClaimRequest) (resp : TunClaimResponse) : List TunLiveTunnel :=
  if req.kind = .announce then
    req.tunnels.filter fun t => t.simulated = false ∧ t.name ∉ resp.conflicts
  else resp.tunnels

def tokenOf (req : TunClaimRequest) (t : TunLiveTunnel) : String :=
  if t.tokenId = "" then req.tokenId else t.tokenId

def reserveOne (svc : Service) (req : TunClaimRequest) (existing : List TunReservation)
    (createdAt : ℤ) (acc : List TunReservation × Bool) (t : TunLiveTunnel) :
    List TunReservation × Bool :=
  if t.publicPort = 0 then acc
  else
    match reservationOf existing t.name with
    | none =>
      match svc.post acc.1 { name := t.name, tokenId := tokenOf req t, publicPort := t.publicPort
                             note := "assigned automatically", createdAt := createdAt } with
      | none => acc
      | some rs => (rs, true)
    | some r =>
      if r.tokenId = tokenOf req t ∧ r.publicPort ≠ t.publicPort then
        match svc.put acc.1 { r with publicPort := t.publicPort } with
        | none => acc
        | some rs => (rs, true)
      else acc

namespace Registry

def reserveAssigned (s : Registry) (svc : Service) (now : ℤ) (req : TunClaimRequest)
    (resp : TunClaimResponse) (up : Bool) : Registry :=
  if resp.error ≠ .unspecified then s
  else
    let out := (assigned req resp).foldl (reserveOne svc req s.dir.reservations (unix now))
      (s.backend.reservations, false)
    let s1 : Registry := { s with backend := { s.backend with reservations := out.1 } }
    if out.2 then s1.reload up else s1

def serve (s : Registry) (cfg : Config) (now : ℤ) (order : RangeOrder) (req : TunClaimRequest)
    (up : Bool) (svc : Service) (upAfter : Bool) : Registry × TunClaimResponse :=
  let out := s.post cfg now order req up
  (if req.kind = .claim ∨ req.kind = .announce then
    out.1.reserveAssigned svc now req out.2 upAfter else out.1, out.2)

end Registry

variable {r : TunReservation} (rs : List TunReservation) (u : TunReservation)

theorem reservationOf_append (r : TunReservation) (name : String) :
    reservationOf (rs ++ [r]) name = if r.name = name then some r else reservationOf rs name := by
  simp [reservationOf]

theorem reservationOf_some {rs : List TunReservation} {name : String}
    (h : reservationOf rs name = some r) : r ∈ rs ∧ r.name = name := by
  rw [reservationOf_eq_find] at h
  exact ⟨List.mem_reverse.mp (List.mem_of_find?_eq_some h), by simpa using List.find?_some h⟩

def Keyed (rs : List TunReservation) : Prop := (rs.map (·.reservationId)).Nodup

theorem Keyed.eq {rs : List TunReservation} (h : Keyed rs) {r' : TunReservation} (hr : r ∈ rs)
    (hr' : r' ∈ rs) (hid : r.reservationId = r'.reservationId) : r = r' :=
  List.inj_on_of_nodup_map h hr hr' hid

theorem replaced_id (x u : TunReservation) :
    (if x.reservationId = u.reservationId then u else x).reservationId = x.reservationId := by
  split
  next h => exact h.symm
  next => rfl

theorem keyed_replaced : Keyed (replaced rs u) ↔ Keyed rs := by
  have hids : (replaced rs u).map (·.reservationId) = rs.map (·.reservationId) := by
    rw [replaced, List.map_map]
    exact List.map_congr_left fun x _ => replaced_id x u
  rw [Keyed, Keyed, hids]

theorem reservationOf_replaced
    (hname : ∀ x ∈ rs, x.reservationId = u.reservationId → x.name = u.name) (name : String) :
    reservationOf (replaced rs u) name =
      (reservationOf rs name).map fun x => if x.reservationId = u.reservationId then u else x := by
  have hsame : ∀ x ∈ rs, (if x.reservationId = u.reservationId then u else x).name = x.name := by
    intro x hx
    split
    next h => exact (hname x hx h).symm
    next => rfl
  rw [reservationOf_eq_find, reservationOf_eq_find, replaced, ← List.map_reverse, List.find?_map]
  congr 1
  refine List.find?_congr fun x hx => ?_
  simp only [Function.comp_apply, hsame x (List.mem_reverse.mp hx)]

theorem visible_append (h : r.reservationId ≠ "") : visible (rs ++ [r]) = visible rs ++ [r] := by
  simp [visible, h]

theorem visible_replaced : visible (replaced rs u) = replaced (visible rs) u := by
  rw [visible, replaced, List.filter_map, visible, replaced]
  congr 1
  refine List.filter_congr fun x _ => ?_
  rw [Function.comp_apply, replaced_id]

theorem mem_visible {rs : List TunReservation} :
    r ∈ visible rs ↔ r ∈ rs ∧ r.reservationId ≠ "" := by
  simp [visible]

theorem keyed_append {rs : List TunReservation} (h : Keyed rs)
    (hfresh : ∀ x ∈ rs, x.reservationId ≠ r.reservationId) : Keyed (rs ++ [r]) := by
  rw [Keyed, List.map_append, List.map_singleton]
  refine List.Nodup.append h (List.nodup_singleton _) ?_
  intro id hid hone
  obtain ⟨x, hx, rfl⟩ := List.mem_map.mp hid
  exact hfresh x hx (List.mem_singleton.mp hone)

section
variable (svc : Service) (req : TunClaimRequest) (existing : List TunReservation) (createdAt : ℤ)

/-- What one tunnel of a request does to the reservations: nothing, a new row, or a new port in
the row it has. -/
theorem reserveOne_cases (acc : List TunReservation × Bool) (t : TunLiveTunnel) :
    (reserveOne svc req existing createdAt acc t = acc ∧
      (t.publicPort ≠ 0 → (∀ rs r, svc.accepts rs r = true) →
        ∃ r, reservationOf existing t.name = some r ∧
          (r.tokenId = tokenOf req t → r.publicPort = t.publicPort))) ∨
    t.publicPort ≠ 0 ∧
      ((∃ r, reservationOf existing t.name = none ∧ r.reservationId = svc.newID acc.1 ∧
          r.name = t.name ∧ r.tokenId = tokenOf req t ∧ r.publicPort = t.publicPort ∧
          svc.accepts acc.1 r = true ∧
          reserveOne svc req existing createdAt acc t = (acc.1 ++ [r], true)) ∨
        ∃ r, reservationOf existing t.name = some r ∧ r.tokenId = tokenOf req t ∧
          r.publicPort ≠ t.publicPort ∧
          svc.accepts acc.1 { r with publicPort := t.publicPort } = true ∧
          reserveOne svc req existing createdAt acc t =
            (replaced acc.1 { r with publicPort := t.publicPort }, true)) := by
  unfold reserveOne
  split
  next h0 => exact .inl ⟨rfl, fun hne => absurd h0 hne⟩
  next hport =>
  cases hex : reservationOf existing t.name with
  | none =>
    dsimp only [Service.post]
    split
    next hw =>
      refine .inl ⟨rfl, fun _ hacc => ?_⟩
      rw [if_pos (hacc _ _)] at hw
      cases hw
    next rs hw =>
      split at hw
      next hacc =>
        cases hw
        exact .inr ⟨hport, .inl ⟨_, rfl, rfl, rfl, rfl, rfl, hacc, rfl⟩⟩
      next => cases hw
  | some r =>
    dsimp only [Service.put]
    split
    next hmove =>
      split
      next hw =>
        refine .inl ⟨rfl, fun _ hacc => ?_⟩
        rw [if_pos (hacc _ _)] at hw
        cases hw
      next rs hw =>
        split at hw
        next hacc =>
          cases hw
          exact .inr ⟨hport, .inr ⟨r, rfl, hmove.1, hmove.2, hacc, rfl⟩⟩
        next => cases hw
    next hstay =>
      refine .inl ⟨rfl, fun _ _ => ⟨r, rfl, fun htok => ?_⟩⟩
      by_contra hne
      exact hstay ⟨htok, hne⟩

variable {acc : List TunReservation × Bool} {ts : List TunLiveTunnel}

theorem reserve_idle
    (h : ∀ t ∈ ts, t.publicPort ≠ 0 →
      ∃ r, reservationOf existing t.name = some r ∧ r.publicPort = t.publicPort) :
    ts.foldl (reserveOne svc req existing createdAt) acc = acc := by
  induction ts with
  | nil => rfl
  | cons t ts ih =>
    obtain ⟨ht, hrest⟩ := List.forall_mem_cons.mp h
    have hone : reserveOne svc req existing createdAt acc t = acc := by
      rcases reserveOne_cases svc req existing createdAt acc t with
        ⟨hone, -⟩ | ⟨hport, ⟨r, hnone, -⟩ | ⟨r, hsome, -, hne, -⟩⟩
      · exact hone
      · obtain ⟨r', hr', -⟩ := ht hport
        rw [hnone] at hr'
        cases hr'
      · obtain ⟨r', hr', hp⟩ := ht hport
        rw [hsome] at hr'
        cases hr'
        exact absurd hp hne
    rw [List.foldl_cons, hone]
    exact ih hrest

theorem reserve_unchanged (h : (ts.foldl (reserveOne svc req existing createdAt) acc).2 = false) :
    ts.foldl (reserveOne svc req existing createdAt) acc = acc := by
  induction ts generalizing acc with
  | nil => rfl
  | cons t ts ih =>
    rw [List.foldl_cons] at h ⊢
    rw [ih h]
    rw [ih h] at h
    rcases reserveOne_cases svc req existing createdAt acc t with
      ⟨hone, -⟩ | ⟨-, ⟨r, -, -, -, -, -, -, hone⟩ | ⟨r, -, -, -, -, hone⟩⟩
    · exact hone
    · rw [hone] at h
      cases h
    · rw [hone] at h
      cases h

structure Reserves (req : TunClaimRequest) (ts : List TunLiveTunnel)
    (before after : List TunReservation) : Prop where
  keyed : Keyed (visible after)
  others : ∀ name, (∀ t ∈ ts, t.publicPort ≠ 0 → t.name ≠ name) →
    reservationOf (visible after) name = reservationOf (visible before) name
  reserved : ∀ t ∈ ts, t.publicPort ≠ 0 → ∃ r, reservationOf (visible after) t.name = some r ∧
    r.tokenId = tokenOf req t ∧ r.publicPort = t.publicPort

end

section
variable {svc : Service} {req : TunClaimRequest} {existing : List TunReservation} {createdAt : ℤ}

theorem reserveOne_reserves {acc : List TunReservation × Bool} {t : TunLiveTunnel}
    (haccepts : ∀ rs r, svc.accepts rs r = true) (hkeyed : Keyed (visible acc.1))
    (hsame : reservationOf (visible acc.1) t.name = reservationOf existing t.name)
    (hown : ∀ r, reservationOf existing t.name = some r → r.tokenId = tokenOf req t) :
    Reserves req [t] acc.1 (reserveOne svc req existing createdAt acc t).1 := by
  rcases reserveOne_cases svc req existing createdAt acc t with
    ⟨hone, hidle⟩ | ⟨hport, ⟨r, hnone, hid, hname, htok, hp, -, hone⟩ | ⟨r, hsome, htok, -, -, hone⟩⟩
  · rw [hone]
    refine ⟨hkeyed, fun _ _ => rfl, ?_⟩
    intro u hu hport
    rw [List.mem_singleton.mp hu] at hport ⊢
    obtain ⟨r, hr, hp⟩ := hidle hport haccepts
    exact ⟨r, hsame.trans hr, hown r hr, hp (hown r hr)⟩
  · rw [hone]
    have hvis : visible (acc.1 ++ [r]) = visible acc.1 ++ [r] :=
      visible_append _ (by rw [hid]; exact svc.nonempty _)
    refine ⟨?_, fun name hne => ?_, fun u hu _ => ?_⟩
    · rw [hvis]
      refine keyed_append hkeyed fun x hx => ?_
      rw [hid]
      exact svc.fresh _ x (mem_visible.mp hx).1
    · have hother : r.name ≠ name := by
        rw [hname]
        exact hne t (List.mem_singleton_self t) hport
      rw [hvis, reservationOf_append, if_neg hother]
    · rw [List.mem_singleton.mp hu, hvis, reservationOf_append, if_pos hname]
      exact ⟨r, rfl, htok, hp⟩
  · rw [hone]
    -- the copy's row is the one that is stored, so the new row takes its place
    have hstored := reservationOf_some (hsame.trans hsome)
    have hrow : ∀ x ∈ visible acc.1, x.reservationId = r.reservationId → x = r :=
      fun x hx hid => hkeyed.eq hx hstored.1 hid
    have hread := reservationOf_replaced (visible acc.1) { r with publicPort := t.publicPort }
      fun x hx hid => by rw [hrow x hx hid]
    refine ⟨?_, fun name hne => ?_, fun u hu _ => ?_⟩
    · rw [visible_replaced, keyed_replaced]
      exact hkeyed
    · rw [visible_replaced, hread]
      cases hget : reservationOf (visible acc.1) name with
      | none => rfl
      | some x =>
        have hx := reservationOf_some hget
        have hid : x.reservationId ≠ r.reservationId := by
          intro hid
          have hxr := hrow x hx.1 hid
          exact hne t (List.mem_singleton_self t) hport (by rw [← hx.2, hxr, hstored.2])
        rw [Option.map_some, if_neg hid]
    · rw [List.mem_singleton.mp hu, visible_replaced, hread, hsame, hsome, Option.map_some,
        if_pos rfl]
      exact ⟨_, rfl, htok, rfl⟩

theorem reserve_reserves (acc : List TunReservation × Bool) {ts : List TunLiveTunnel}
    (haccepts : ∀ rs r, svc.accepts rs r = true) (hnames : (ts.map (·.name)).Nodup)
    (hkeyed : Keyed (visible acc.1))
    (hsame : ∀ t ∈ ts, reservationOf (visible acc.1) t.name = reservationOf existing t.name)
    (hown : ∀ t ∈ ts, ∀ r, reservationOf existing t.name = some r → r.tokenId = tokenOf req t) :
    Reserves req ts acc.1 (ts.foldl (reserveOne svc req existing createdAt) acc).1 := by
  induction ts generalizing acc with
  | nil => exact ⟨hkeyed, fun _ _ => rfl, by simp⟩
  | cons t ts ih =>
    obtain ⟨hsame1, hsame2⟩ := List.forall_mem_cons.mp hsame
    obtain ⟨hown1, hown2⟩ := List.forall_mem_cons.mp hown
    rw [List.map_cons, List.nodup_cons] at hnames
    have hother : ∀ u ∈ ts, t.name ≠ u.name := by
      intro u hu heq
      exact hnames.1 (heq ▸ List.mem_map_of_mem hu)
    have hfirst : Reserves req [t] acc.1 (reserveOne svc req existing createdAt acc t).1 :=
      reserveOne_reserves haccepts hkeyed hsame1 hown1
    have hrest := ih _ hnames.2 hfirst.keyed (fun u hu => by
      rw [← hsame2 u hu]
      exact hfirst.others u.name fun x hx _ => List.mem_singleton.mp hx ▸ hother u hu) hown2
    refine ⟨hrest.keyed, fun name hne => ?_, fun u hu hport => ?_⟩
    · obtain ⟨hne1, hne2⟩ := List.forall_mem_cons.mp hne
      rw [List.foldl_cons, hrest.others name hne2]
      exact hfirst.others name fun x hx => List.mem_singleton.mp hx ▸ hne1
    · rcases List.mem_cons.mp hu with rfl | hu
      · obtain ⟨r, hr, hr'⟩ := hfirst.reserved u (List.mem_singleton_self u) hport
        refine ⟨r, ?_, hr'⟩
        rw [List.foldl_cons, hrest.others u.name fun x hx _ => (hother x hx).symm]
        exact hr
      · exact hrest.reserved u hu hport

end

namespace Registry
variable {resp : TunClaimResponse} (s : Registry) (svc : Service) (now : ℤ) (req : TunClaimRequest)
  (up : Bool)

theorem reserveAssigned_cached (resp : TunClaimResponse)
    (h : s.dir.reservations = visible s.backend.reservations) :
    (s.reserveAssigned svc now req resp true).dir.reservations =
      visible (s.reserveAssigned svc now req resp true).backend.reservations := by
  unfold reserveAssigned
  split
  · exact h
  dsimp only
  split
  · rfl
  next hno =>
    dsimp only
    rw [reserve_unchanged svc req _ _ (by simpa using hno)]
    exact h

theorem reserveAssigned_downAt (resp : TunClaimResponse) (up : Bool) :
    (s.reserveAssigned svc now req resp up).dir.downAt = s.dir.downAt := by
  unfold reserveAssigned
  split
  · rfl
  dsimp only
  split
  · cases up <;> rfl
  · rfl

theorem reserveAssigned_refused (h : resp.error ≠ .unspecified) :
    s.reserveAssigned svc now req resp up = s := if_pos h

theorem reserveAssigned_backend (h : resp.error = .unspecified) :
    (s.reserveAssigned svc now req resp up).backend.reservations =
      ((assigned req resp).foldl (reserveOne svc req s.dir.reservations (unix now))
        (s.backend.reservations, false)).1 := by
  unfold reserveAssigned
  rw [if_neg (not_not.mpr h)]
  dsimp only
  split
  · cases up <;> rfl
  · rfl

theorem reserveAssigned_idle (resp : TunClaimResponse) (up : Bool)
    (h : ∀ t ∈ assigned req resp, t.publicPort ≠ 0 →
      ∃ r, reservationOf s.dir.reservations t.name = some r ∧ r.publicPort = t.publicPort) :
    s.reserveAssigned svc now req resp up = s := by
  unfold reserveAssigned
  split
  · rfl
  · rw [reserve_idle svc req _ _ h]
    rfl

end Registry
end L8Tunnel.Live
