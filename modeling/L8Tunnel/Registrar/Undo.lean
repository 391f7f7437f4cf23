import L8Tunnel.Registrar.Attempt

/-! # A registration that fails -/

namespace L8Tunnel.Registrar
open Base Registry

variable {γ : Type}

structure Reservation.Alike (v w : Reservation) : Prop where
  tokenID : v.tokenID = w.tokenID
  permanent : v.permanent = w.permanent
  port : v.port = w.port
  typ : v.typ = w.typ
  domains : ∀ d, d ∈ v.domains ↔ d ∈ w.domains

theorem Reservation.Alike.trans {u v w : Reservation} (h : u.Alike v) (h' : v.Alike w) :
    u.Alike w :=
  ⟨h.tokenID.trans h'.tokenID, h.permanent.trans h'.permanent, h.port.trans h'.port,
    h.typ.trans h'.typ, fun d => (h.domains d).trans (h'.domains d)⟩

/-- The names, ports and domains are as before, and what was parked is parked. -/
structure Restored (r r' : NameRegistry) : Prop where
  names : ∀ n, r'.names.get n = r.names.get n
  kept : ∀ n u, r.names.get n = some u → (r'.cells u).Alike (r.cells u)
  parked : ∀ n u, r.names.get n = some u → (r.cells u).session = none →
    (r'.cells u).session = none
  ports : r'.ports = r.ports
  domains : ∀ d, r'.domains.get d = r.domains.get d

def SameDomains (r : NameRegistry) (u : ℕ) (ds : List String) : Prop :=
  ∀ d, (d ∈ ds ↔ d ∈ (r.cells u).domains) ∧ (d ∈ ds → r.domains.get d = some u)

def NameRegistry.active (r : NameRegistry) (n : String) : Bool :=
  (r.names.get n).any fun u => (r.cells u).session.isSome

namespace Ask

/-- If the name is reserved, opening and closing the tunnel leaves the
reservation as it is. -/
def Keeps (r : NameRegistry) (a : Ask) : Prop :=
  ∀ u, r.names.get a.name = some u →
    (r.cells u).typ = a.spec.type ∧ SameDomains r u a.domains ∧
    (a.ported → PortKept r u a.requested) ∧ (r.closed → (r.cells u).permanent)

def Granted (r : NameRegistry) (t : ℕ) (who : Identity) (earlier : List Ask) (a : Ask) : Prop :=
  a.name ∉ earlier.map Ask.name ∧
  ∃ d, registryDecide ((r.names.get a.name).map (r.holder t)) who.token.id who.agentID
    (r.activeLocked who.token.id (r.names.get a.name) +
      (earlier.countP fun b => !r.active b.name : ℕ)) who.token.policy.maxTunnels = .ok d

def Free (r : NameRegistry) (u : ℕ) (earlier : List Ask) (ds : List String) : Prop :=
  ∀ d ∈ ds, (r.domains.get d = none ∨ r.domains.get d = some u) ∧
    ∀ b ∈ earlier, r.names.get b.name = none → d ∉ b.domains

def KeepsInVain (r : NameRegistry) (t : ℕ) (who : Identity) (earlier : List Ask) (a : Ask) : Prop :=
  ∀ u, r.names.get a.name = some u → a.Granted r t who earlier →
    (r.cells u).typ = a.spec.type ∧ (r.closed → (r.cells u).permanent) ∧
    (Free r u earlier a.domains → SameDomains r u a.domains)

end Ask

structure Apart (u : ℕ) (r r' : NameRegistry) : Prop where
  cell : r'.cells u = r.cells u
  names : ∀ n, r.names.get n = some u → r'.names.get n = some u
  domains : ∀ d, r.domains.get d = some u → r'.domains.get d = some u

namespace Apart
open NameRegistry
variable {r r1 r' : NameRegistry} {u ref t : ℕ}

theorem refl (u : ℕ) (r : NameRegistry) : Apart u r r := ⟨rfl, fun _ h => h, fun _ h => h⟩

theorem trans (h : Apart u r r1) (h' : Apart u r1 r') : Apart u r r' :=
  ⟨h'.cell.trans h.cell, fun n hn => h'.names n (h.names n hn),
    fun d hd => h'.domains d (h.domains d hd)⟩

theorem modify (hne : u ≠ ref) {f : Reservation → Reservation} (hf : ∀ v, (f v).name = v.name) :
    Apart u r (r.modify ref f hf) := by
  refine ⟨?_, fun _ h => h, fun _ h => h⟩
  rw [modify_cells, if_neg hne]

theorem deleteLocked (hne : u ≠ ref) : Apart u r (r.deleteLocked ref) := by
  refine ⟨?_, fun n hn => ?_, fun d hd => ?_⟩
  · rw [deleteLocked_cells, if_neg hne]
  · rw [deleteLocked_names, if_neg, hn]
    rw [hn]
    exact fun h => hne (Option.some.inj h)
  · rw [deleteLocked_domains, if_neg, hd]
    rw [hd]
    exact fun h => hne (Option.some.inj h.2)

theorem park (hne : u ≠ ref) (now : ℤ) : Apart u r (r.park ref t now) := by
  have h1 : Apart u r (r.modify ref (fun v => { v with session := none, tunnel := none })
      fun _ => rfl) := modify hne _
  refine park_induction (fun _ => refl u r) (fun _ _ => h1) (fun _ _ _ => ?_) fun _ _ _ _ => ?_
  · exact h1.trans (deleteLocked hne)
  · exact h1.trans (modify hne _)

theorem rollback (hne : u ≠ ref) {existed : Bool} (now : ℤ) :
    Apart u r (r.rollback ref t existed now) := by
  unfold NameRegistry.rollback
  split
  · exact park hne now
  split
  · exact deleteLocked hne
  · exact refl u r

theorem setDomains (hne : u ≠ ref) {ds : List String} (hr : r.setDomains ref ds = .ok r') :
    Apart u r r' := by
  unfold NameRegistry.setDomains at hr
  split at hr
  · cases hr
  next hfree =>
  cases hr
  refine ⟨?_, fun _ h => h, fun d hd => ?_⟩
  · rw [replaceDomains_cells, if_neg hne]
  · have hnot : d ∉ ds := by
      intro hmem
      have hfree' := List.find?_eq_none.mp hfree d hmem
      exact hne (by simpa [domainTaken, hd] using hfree')
    rw [replaceDomains_get, if_neg hnot, if_neg, hd]
    rw [hd]
    exact fun h => hne (Option.some.inj h.2)

theorem setPort (hne : u ≠ ref) (p : ℤ) : Apart u r ((r.addPort p).setPort ref p) := by
  refine ⟨?_, fun n hn => ?_, fun d hd => ?_⟩
  · rw [setPort_cells, if_neg hne]
    rfl
  · rw [setPort_names]
    exact hn
  · rw [setPort_domains]
    exact hd

theorem claim {name tokenID agentID : String} {typ : TunnelType} {maxTunnels : ℤ} {c : Claimed}
    (hc : r.claim name typ tokenID agentID t maxTunnels = .ok c) (hne : u ≠ c.res) :
    Apart u r c.registry := by
  obtain ⟨hget, rfl⟩ | ⟨ref, stale, hget, rfl⟩ := claim_ok hc
  · refine ⟨?_, fun n hn => ?_, fun _ h => h⟩
    · dsimp only at hne ⊢
      rw [alloc_cells, if_neg hne]
    · show (r.names.set name r.next).get n = some u
      rw [GoMap.get_set_eq_ite, if_neg]
      · exact hn
      · rintro rfl
        rw [hget] at hn
        cases hn
  · dsimp only at hne ⊢
    exact modify hne _

theorem opens {who : Identity} {a : Ask} {existed : Bool} (h : Opens t who a r ref existed r')
    (hne : u ≠ ref) : Apart u r r' := by
  cases h with
  | @mk c r2 r3 tn hc hd hport =>
    refine (((claim hc hne).trans (setDomains hne hd)).trans ?_).trans (modify hne _)
    split at hport
    · cases hport with
      | held => exact refl u r2
      | taken p => exact setPort hne p
    · rw [hport]
      exact refl u r2

end Apart

/-- What the session's reservation of a tunnel is after it was opened. -/
structure Placed (t : ℕ) (a : Ask) (u : ℕ) (r : NameRegistry) : Prop where
  name : r.names.get a.name = some u
  session : (r.cells u).session = some t
  typ : (r.cells u).typ = a.spec.type
  domains : (r.cells u).domains = a.domains
  index : ∀ d ∈ a.domains, r.domains.get d = some u

theorem Apart.placed {t u : ℕ} {a : Ask} {r r' : NameRegistry} (h : Apart u r r')
    (hp : Placed t a u r) : Placed t a u r' where
  name := h.names _ hp.name
  session := by rw [h.cell]; exact hp.session
  typ := by rw [h.cell]; exact hp.typ
  domains := by rw [h.cell]; exact hp.domains
  index := fun d hd => h.domains d (hp.index d hd)

section
open NameRegistry
variable {r r1 r2 r3 r' : NameRegistry} {t u ref : ℕ} {who : Identity} {a b : Ask} {existed : Bool}
  {name tokenID agentID : String} {typ : TunnelType} {maxTunnels : ℤ} {c : Claimed}

theorem claim_cell (hc : r.claim name typ tokenID agentID t maxTunnels = .ok c) :
    c.registry.names.get name = some c.res ∧ (c.registry.cells c.res).session = some t ∧
    (c.registry.cells c.res).typ = typ ∧
    ((c.existed = true ∧ r.names.get name = some c.res ∧
      (c.registry.cells c.res).permanent = (r.cells c.res).permanent ∧
      (c.registry.cells c.res).port = (r.cells c.res).port ∧
      (c.registry.cells c.res).domains = (r.cells c.res).domains ∧
      (c.registry.cells c.res).tokenID = (r.cells c.res).tokenID) ∨
    (c.existed = false ∧ r.names.get name = none ∧ c.res = r.next ∧
      (c.registry.cells c.res).port = 0 ∧ (c.registry.cells c.res).domains = [] ∧
      (c.registry.cells c.res).tokenID = tokenID)) := by
  obtain ⟨hget, rfl⟩ | ⟨ref, stale, hget, rfl⟩ := claim_ok hc
  · refine ⟨GoMap.get_set _ _ _, ?_, ?_, .inr ⟨rfl, hget, rfl, ?_, ?_, ?_⟩⟩ <;>
      simp [alloc_cells]
  · refine ⟨hget, ?_, ?_, .inl ⟨rfl, hget, ?_, ?_, ?_, ?_⟩⟩ <;> simp

theorem claim_rest (hc : r.claim name typ tokenID agentID t maxTunnels = .ok c) :
    c.registry.closed = r.closed ∧ c.registry.clustered = r.clustered ∧
    c.registry.ports = r.ports ∧ c.registry.domains = r.domains := by
  obtain ⟨-, rfl⟩ | ⟨ref, stale, -, rfl⟩ := claim_ok hc
  · exact ⟨rfl, rfl, rfl, rfl⟩
  · exact ⟨rfl, rfl, rfl, rfl⟩

theorem claim_holder (hc : r.claim name typ tokenID agentID t maxTunnels = .ok c)
    (hn : r.names.get name = some u) :
    (r.cells u).tokenID = tokenID ∧ (r.cells u).session ≠ some t := by
  unfold claim decision at hc
  rw [hn] at hc
  split at hc
  · cases hc
  next hd =>
    obtain ⟨htoken, hconnected⟩ := registryDecide_ok hd
    refine ⟨htoken, fun hs => ?_⟩
    have hsame := (hconnected (by simp [holder, hs])).2
    simp [holder, hs] at hsame

theorem claim_ne_placed (hp : Placed t a u r)
    (hc : r.claim name typ tokenID agentID t maxTunnels = .ok c) : name ≠ a.name ∧ u ≠ c.res := by
  have hname : name ≠ a.name := by
    rintro rfl
    exact (claim_holder hc hp.name).2 hp.session
  refine ⟨hname, ?_⟩
  rintro rfl
  rcases (claim_cell hc).2.2.2 with ⟨-, hget, -⟩ | ⟨-, -, hnew, -⟩
  · exact hname ((r.keyed _ _ hget).symm.trans (r.keyed _ _ hp.name))
  · exact Nat.lt_irrefl _ (hnew ▸ r.named_lt _ _ hp.name)

theorem setDomains_ok {ds : List String} (hr : r.setDomains ref ds = .ok r') :
    r' = r.replaceDomains ref ds ∧ ∀ d ∈ ds, r.domains.get d = none ∨ r.domains.get d = some ref := by
  unfold NameRegistry.setDomains at hr
  split at hr
  · cases hr
  next hfree =>
  cases hr
  refine ⟨rfl, fun d hd => ?_⟩
  have hnot := List.find?_eq_none.mp hfree d hd
  cases hget : r.domains.get d with
  | none => exact .inl rfl
  | some v =>
    right
    simpa [domainTaken, hget] using hnot

theorem opens_placed (h : Opens t who a r u existed r1) : Placed t a u r1 := by
  cases h with
  | @mk c r2 r3 tn hc hd hport =>
    obtain ⟨hname, hsess, htyp, -⟩ := claim_cell hc
    obtain ⟨rfl, -⟩ := setDomains_ok hd
    have h2 : Placed t a c.res (c.registry.replaceDomains c.res a.domains) := by
      constructor
      · exact hname
      · simpa [replaceDomains_cells] using hsess
      · simpa [replaceDomains_cells] using htyp
      · simp [replaceDomains_cells]
      · intro d hmem
        rw [replaceDomains_get, if_pos hmem]
    have h3 : Placed t a c.res r3 := by
      split at hport
      · cases hport with
        | held => exact h2
        | taken p =>
          constructor
          · rw [setPort_names]
            exact h2.name
          · simpa [setPort_cells] using h2.session
          · simpa [setPort_cells] using h2.typ
          · simpa [setPort_cells] using h2.domains
          · intro d hmem
            rw [setPort_domains]
            exact h2.index d hmem
      · rw [hport]
        exact h2
    constructor
    · exact h3.name
    · simpa [activate] using h3.session
    · simpa [activate] using h3.typ
    · simpa [activate] using h3.domains
    · exact h3.index

theorem opens_ne_placed (hp : Placed t b u r) (h : Opens t who a r ref existed r1) :
    a.name ≠ b.name ∧ u ≠ ref := by
  cases h with
  | mk tn hc => exact claim_ne_placed hp hc

theorem opens_names (h : Opens t who a r u existed r1) {n : String} (hn : n ≠ a.name) :
    r1.names.get n = r.names.get n := by
  cases h with
  | @mk c r2 r3 tn hc hd hport =>
    obtain ⟨rfl, -⟩ := setDomains_ok hd
    have hclaim : c.registry.names.get n = r.names.get n := by
      obtain ⟨-, rfl⟩ | ⟨ref, stale, -, rfl⟩ := claim_ok hc
      · exact GoMap.get_set_ne _ _ hn
      · rfl
    rw [← hclaim]
    split at hport
    · cases hport with
      | held => rfl
      | taken p =>
        show (NameRegistry.setPort _ _ _).names.get n = _
        rw [setPort_names]
        rfl
    · rw [hport]
      rfl

theorem opens_token (h : Opens t who a r u existed r1) : (r1.cells u).tokenID = who.token.id := by
  cases h with
  | @mk c r2 r3 tn hc hd hport =>
    obtain ⟨rfl, -⟩ := setDomains_ok hd
    have hclaimed : (c.registry.cells c.res).tokenID = who.token.id := by
      rcases (claim_cell hc).2.2.2 with ⟨-, hget, -, -, -, htoken⟩ | ⟨-, -, -, -, -, htoken⟩
      · rw [htoken, (claim_holder hc hget).1]
      · exact htoken
    split at hport
    · cases hport with
      | held => simpa [activate, replaceDomains_cells] using hclaimed
      | taken p => simpa [activate, setPort_cells, replaceDomains_cells] using hclaimed
    · rw [hport]
      simpa [activate, replaceDomains_cells] using hclaimed

theorem opens_mode (h : Opens t who a r u existed r1) :
    r1.closed = r.closed ∧ r1.clustered = r.clustered := by
  cases h with
  | @mk c r2 r3 tn hc hd hport =>
    obtain ⟨hclosed, hclustered, -⟩ := claim_rest hc
    obtain ⟨rfl, -⟩ := setDomains_ok hd
    rw [← hclosed, ← hclustered]
    split at hport
    · cases hport with
      | held => exact ⟨rfl, rfl⟩
      | taken p => exact setPort_mode ((c.registry.replaceDomains c.res a.domains).addPort p) c.res p
    · rw [hport]
      exact ⟨rfl, rfl⟩

theorem opens_existed (h : Opens t who a r u true r1) :
    r.names.get a.name = some u ∧ (r1.cells u).permanent = (r.cells u).permanent ∧
    ((r1.cells u).port = (r.cells u).port → a.ported → PortKept r u a.requested) := by
  generalize he : true = e at h
  cases h with
  | @mk c r2 r3 tn hc hd hport =>
    rcases (claim_cell hc).2.2.2 with ⟨-, hget, hperm, hcport, -⟩ | ⟨hnew, -⟩
    swap
    · rw [hnew] at he
      cases he
    obtain ⟨rfl, -⟩ := setDomains_ok hd
    have hport2 : ((c.registry.replaceDomains c.res a.domains).cells c.res).port =
        (r.cells c.res).port := by
      simpa [replaceDomains_cells] using hcport
    have hperm2 : ((c.registry.replaceDomains c.res a.domains).cells c.res).permanent =
        (r.cells c.res).permanent := by
      simpa [replaceDomains_cells] using hperm
    refine ⟨hget, ?_, fun hsame hp => ?_⟩
    · split at hport
      · cases hport with
        | held => simpa [activate] using hperm2
        | taken p => simpa [activate, setPort_cells] using hperm2
      · rw [hport]
        simpa [activate] using hperm2
    · rw [if_pos hp] at hport
      cases hport with
      | held hkept => rwa [PortKept, hport2] at hkept
      | taken p hnot h0 hfree hne =>
        rw [hport2] at hne
        have hset : (((((c.registry.replaceDomains c.res a.domains).addPort p).setPort c.res
            p).activate c.res tn).cells c.res).port = p := by
          simp [activate, setPort_cells]
        exact absurd (hset.symm.trans hsame) hne

end

inductive OpensAll (t : ℕ) (who : Identity) :
    List (Ask × ℕ × Bool) → NameRegistry → NameRegistry → Prop where
  | nil (r : NameRegistry) : OpensAll t who [] r r
  | cons {a : Ask} {ref : ℕ} {existed : Bool} {os : List (Ask × ℕ × Bool)}
      {r r1 r' : NameRegistry} :
      Opens t who a r ref existed r1 → OpensAll t who os r1 r' →
      OpensAll t who ((a, ref, existed) :: os) r r'

section
open NameRegistry
variable {cfg : Config γ} {r r1 r' : NameRegistry} {t u : ℕ} {who : Identity} {a f : Ask}
  {os : List (Ask × ℕ × Bool)}

theorem Tries.split {specs : List TunnelSpec} {f : Option Ask}
    (h : Tries cfg t who specs r os f r') :
    ∃ rk, OpensAll t who os r rk ∧
      ((f = none ∧ r' = rk) ∨ ∃ a, f = some a ∧ FailsToOpen t who a rk r') := by
  induction h with
  | unchecked => exact ⟨_, .nil _, .inl ⟨rfl, rfl⟩⟩
  | fails _ hf => exact ⟨_, .nil _, .inr ⟨_, rfl, hf⟩⟩
  | opens _ ho _ ih =>
    obtain ⟨rk, hall, hlast⟩ := ih
    exact ⟨rk, .cons ho hall, hlast⟩

theorem OpensAll.placed (hp : Placed t a u r) (h : OpensAll t who os r r') :
    Apart u r r' ∧ ∀ o ∈ os, o.1.name ≠ a.name ∧ u ≠ o.2.1 := by
  induction h with
  | nil r => exact ⟨Apart.refl u r, by simp⟩
  | cons ho _ ih =>
    have hne := opens_ne_placed hp ho
    have hapart := Apart.opens ho hne.2
    obtain ⟨hrest, hothers⟩ := ih (hapart.placed hp)
    refine ⟨hapart.trans hrest, fun o ho => ?_⟩
    rcases List.mem_cons.mp ho with rfl | ho
    · exact hne
    · exact hothers o ho

theorem OpensAll.apart_of_ne (h : OpensAll t who os r r') (hne : ∀ o ∈ os, u ≠ o.2.1) :
    Apart u r r' := by
  induction h with
  | nil r => exact Apart.refl u r
  | cons ho _ ih =>
    exact (Apart.opens ho (hne _ List.mem_cons_self)).trans
      (ih fun o hmem => hne o (List.mem_cons_of_mem _ hmem))

theorem FailsToOpen.apart (hp : Placed t a u r) (h : FailsToOpen t who f r r') : Apart u r r' := by
  cases h with
  | claim => exact Apart.refl u r
  | domain now hc =>
    have hne := (claim_ne_placed hp hc).2
    exact (Apart.claim hc hne).trans (Apart.rollback hne now)
  | port now hc hd =>
    have hne := (claim_ne_placed hp hc).2
    exact ((Apart.claim hc hne).trans (Apart.setDomains hne hd)).trans (Apart.rollback hne now)

variable {refs : List (ℕ × Bool)} {n : String} {ref v : ℕ} {existed : Bool} {now : ℤ}
  {pre post : List (Ask × ℕ × Bool)} {rk : NameRegistry} {except : Option ℕ}

theorem Undone.apart (h : Undone t refs r r') (hne : ∀ o ∈ refs, u ≠ o.1) : Apart u r r' := by
  induction h with
  | nil r => exact Apart.refl u r
  | cons now _ ih =>
    exact (Apart.rollback (hne _ List.mem_cons_self) now).trans
      (ih fun o ho => hne o (List.mem_cons_of_mem _ ho))

theorem OpensAll.names (h : OpensAll t who os r r') (hn : n ∉ os.map (·.1.name)) :
    r'.names.get n = r.names.get n := by
  induction h with
  | nil => rfl
  | cons ho _ ih =>
    rw [List.map_cons, List.mem_cons, not_or] at hn
    rw [ih hn.2, opens_names ho hn.1]

theorem rollback_names (h : (r.rollback ref t existed now).names.get n = some v) :
    r.names.get n = some v := by
  have hdel : ∀ {q : NameRegistry}, (q.deleteLocked ref).names.get n = some v →
      q.names.get n = some v := by
    intro q hq
    rw [deleteLocked_names] at hq
    split at hq
    · cases hq
    · exact hq
  have hpark : (r.park ref t now).names.get n = some v → r.names.get n = some v := by
    refine park_induction (P := fun q => q.names.get n = some v → r.names.get n = some v)
      (fun _ hq => hq) (fun _ _ hq => hq) (fun _ _ _ hq => ?_) fun _ _ _ _ hq => hq
    have hkept := hdel hq
    exact hkept
  unfold NameRegistry.rollback at h
  split at h
  · exact hpark h
  split at h
  · exact hdel h
  · exact h

theorem Undone.names (h : Undone t refs r r') (hn : r'.names.get n = some v) :
    r.names.get n = some v := by
  induction h with
  | nil => exact hn
  | cons now _ ih => exact rollback_names (ih hn)

/-- Parking keeps the reservation without its session; only a closed registry lets a name go
that is not permanent. -/
theorem park_spec (now : ℤ) (hs : (r.cells u).session = some t) (hn : r.names.get n = some u)
    (hclustered : r.clustered = false) :
    (((r.park u t now).cells u).typ = (r.cells u).typ ∧
      ((r.park u t now).cells u).domains = (r.cells u).domains ∧
      ((r.park u t now).cells u).port = (r.cells u).port ∧
      ((r.park u t now).cells u).permanent = (r.cells u).permanent ∧
      ((r.park u t now).cells u).tokenID = (r.cells u).tokenID ∧
      ((r.park u t now).cells u).session = none) ∧
    ((r.closed = true ∧ (r.cells u).permanent = false ∧ (r.park u t now).names.get n = none) ∨
      ((r.closed → (r.cells u).permanent) ∧ (r.park u t now).names = r.names ∧
        (r.park u t now).domains = r.domains ∧ (r.park u t now).ports = r.ports ∧
        (r.park u t now).closed = r.closed ∧ (r.park u t now).clustered = r.clustered)) := by
  have hnamed : r.names.get (r.cells u).name = some u := named_of_get hn
  unfold NameRegistry.park
  rw [if_neg (not_not.mpr hs)]
  dsimp only
  rw [if_neg (by simpa using hnamed)]
  split
  next hdel =>
    have hclosed : r.closed = true := by
      rcases hdel.1 with h | h
      · exact h
      · rw [show (r.modify u _ _).clustered = r.clustered from rfl, hclustered] at h
        cases h
    have hperm : (r.cells u).permanent = false := by simpa using hdel.2
    refine ⟨by simp [deleteLocked_cells], .inl ⟨hclosed, hperm, ?_⟩⟩
    rw [deleteLocked_names]
    simp [hn]
  next hkeep =>
    have hperm : r.closed → (r.cells u).permanent := by
      intro hclosed
      by_contra hperm
      exact hkeep ⟨.inl hclosed, by simpa using hperm⟩
    split
    · refine ⟨by simp, .inr ⟨hperm, rfl, rfl, rfl, rfl, rfl⟩⟩
    · refine ⟨by simp, .inr ⟨hperm, rfl, rfl, rfl, rfl, rfl⟩⟩

theorem OpensAll.append_iff :
    OpensAll t who (pre ++ post) r r' ↔ ∃ r1, OpensAll t who pre r r1 ∧ OpensAll t who post r1 r' := by
  induction pre generalizing r with
  | nil =>
    refine ⟨fun h => ⟨r, .nil r, h⟩, ?_⟩
    rintro ⟨r1, hpre, hpost⟩
    cases hpre
    exact hpost
  | cons o pre ih =>
    constructor
    · intro h
      cases h with
      | cons ho hrest =>
        obtain ⟨r1, hpre, hpost⟩ := ih.mp hrest
        exact ⟨r1, .cons ho hpre, hpost⟩
    · rintro ⟨r1, hpre, hpost⟩
      cases hpre with
      | cons ho hpre => exact .cons ho (ih.mpr ⟨r1, hpre, hpost⟩)

theorem Undone.append {pre post : List (ℕ × Bool)} (h : Undone t (pre ++ post) r r') :
    ∃ r1, Undone t pre r r1 ∧ Undone t post r1 r' := by
  induction pre generalizing r with
  | nil => exact ⟨r, .nil r, h⟩
  | cons o pre ih =>
    cases h with
    | cons now hrest =>
      obtain ⟨r1, hpre, hpost⟩ := ih hrest
      exact ⟨r1, .cons now hpre, hpost⟩

theorem OpensAll.all_placed (h : OpensAll t who os r r') : ∀ o ∈ os, Placed t o.1 o.2.1 r' := by
  induction h with
  | nil => simp
  | cons ho hrest ih =>
    intro o hmem
    rcases List.mem_cons.mp hmem with rfl | hmem
    · have hp := opens_placed ho
      exact (OpensAll.placed hp hrest).1.placed hp
    · exact ih o hmem

theorem OpensAll.mode (h : OpensAll t who os r r') :
    r'.closed = r.closed ∧ r'.clustered = r.clustered := by
  induction h with
  | nil => exact ⟨rfl, rfl⟩
  | cons ho _ ih =>
    obtain ⟨hclosed, hclustered⟩ := opens_mode ho
    exact ⟨ih.1.trans hclosed, ih.2.trans hclustered⟩

theorem rollback_mode :
    (r.rollback ref t existed now).closed = r.closed ∧
      (r.rollback ref t existed now).clustered = r.clustered := by
  unfold NameRegistry.rollback
  split
  · refine park_induction (P := fun q => q.closed = r.closed ∧ q.clustered = r.clustered)
      (fun _ => ⟨rfl, rfl⟩) (fun _ _ => ⟨rfl, rfl⟩) (fun _ _ _ => ?_) fun _ _ _ _ => ⟨rfl, rfl⟩
    exact deleteLocked_mode _ ref
  split
  · exact deleteLocked_mode r ref
  · exact ⟨rfl, rfl⟩

theorem FailsToOpen.mode (h : FailsToOpen t who f r r') :
    r'.closed = r.closed ∧ r'.clustered = r.clustered := by
  cases h with
  | claim => exact ⟨rfl, rfl⟩
  | domain now hc =>
    obtain ⟨hclosed, hclustered, -⟩ := claim_rest hc
    rw [← hclosed, ← hclustered]
    exact rollback_mode
  | port now hc hd =>
    obtain ⟨hclosed, hclustered, -⟩ := claim_rest hc
    obtain ⟨rfl, -⟩ := setDomains_ok hd
    rw [← hclosed, ← hclustered]
    exact rollback_mode

theorem Undone.mode (h : Undone t refs r r') :
    r'.closed = r.closed ∧ r'.clustered = r.clustered := by
  induction h with
  | nil => exact ⟨rfl, rfl⟩
  | cons now _ ih => exact ⟨ih.1.trans rollback_mode.1, ih.2.trans rollback_mode.2⟩

theorem parked_left (hs : (r.cells u).session = some t) (hn : r.names.get n = some u)
    (hclustered : r.clustered = false) (h : Undone t refs (r.park u t now) r')
    (hne : ∀ o ∈ refs, u ≠ o.1) (hkept : r'.names.get n = some u) :
    (r'.cells u).typ = (r.cells u).typ ∧ (r'.cells u).domains = (r.cells u).domains ∧
    (r'.cells u).port = (r.cells u).port ∧ (r.closed → (r.cells u).permanent) ∧
    ∀ d, r.domains.get d = some u → r'.domains.get d = some u := by
  have hapart := h.apart hne
  obtain ⟨⟨htyp, hdomains, hport, -⟩, hgone | ⟨hperm, -, hindex, -⟩⟩ :=
    park_spec now hs hn hclustered
  · have hnone := h.names hkept
    rw [hgone.2.2] at hnone
    cases hnone
  · rw [hapart.cell]
    refine ⟨htyp, hdomains, hport, hperm, fun d hd => hapart.domains d ?_⟩
    rw [hindex]
    exact hd

theorem sameDomains_left (hres : Restored r r') (hn : r.names.get n = some u)
    (hdomains : (r'.cells u).domains = a.domains)
    (hindex : ∀ d ∈ a.domains, r'.domains.get d = some u) : SameDomains r u a.domains := by
  intro d
  constructor
  · rw [← (hres.kept n u hn).domains d, hdomains]
  · intro hd
    rw [← hres.domains d]
    exact hindex d hd

theorem opened_keeps {r1 : NameRegistry} (hres : Restored r r') (hclustered : r.clustered = false)
    (hall : OpensAll t who (pre ++ (a, u, existed) :: post) r rk)
    (hlast : ∀ {b : Ask} {v : ℕ}, Placed t b v rk → Apart v rk r1)
    (hmode : r1.closed = rk.closed ∧ r1.clustered = rk.clustered)
    (hundo : Undone t ((pre ++ (a, u, existed) :: post).map (·.2)) r1 r') : a.Keeps r := by
  intro v hv
  obtain ⟨ri, hpre, hrest⟩ := OpensAll.append_iff.mp hall
  have hallmode := hall.mode
  cases hrest with
  | @cons _ _ _ _ _ rj _ ho hpost =>
    -- the tunnels before this one have other names, so the name was there
    have hbefore : ∀ o ∈ pre, a.name ≠ o.1.name ∧ o.2.1 ≠ u := fun o hmem =>
      opens_ne_placed (hpre.all_placed o hmem) ho
    have hnames : ri.names.get a.name = some v := by
      rw [hpre.names, hv]
      intro hmem
      obtain ⟨o, ho, heq⟩ := List.mem_map.mp hmem
      exact (hbefore o ho).1 heq.symm
    have hexisted : existed = true ∧ u = v := by
      cases ho with
      | @mk c _ _ _ hc _ _ =>
        rcases (claim_cell hc).2.2.2 with ⟨he, hget, -⟩ | ⟨-, hget, -⟩
        · rw [hnames] at hget
          exact ⟨he, (Option.some.inj hget).symm⟩
        · rw [hnames] at hget
          cases hget
    obtain ⟨rfl, rfl⟩ := hexisted
    have happri : Apart u r ri := OpensAll.apart_of_ne hpre fun o hmem => (hbefore o hmem).2.symm
    have hp := opens_placed ho
    obtain ⟨hrest, hafter⟩ := OpensAll.placed hp hpost
    have hpk := hrest.placed hp
    have hp1 := (hlast hpk).placed hpk
    rw [List.map_append, List.map_cons] at hundo
    obtain ⟨q, hundopre, hundopost⟩ := hundo.append
    have hq : Apart u r1 q := hundopre.apart <| by
      rintro _ hmem
      obtain ⟨o, ho, rfl⟩ := List.mem_map.mp hmem
      exact (hbefore o ho).2.symm
    have hpq := hq.placed hp1
    have hcells : (q.cells u) = rj.cells u := by
      rw [hq.cell, (hlast hpk).cell, hrest.cell]
    cases hundopost with
    | cons now hundopost =>
      have hleft := parked_left (n := a.name) hpq.session hpq.name
        (by rw [hundopre.mode.2, hmode.2, hallmode.2, hclustered]) hundopost
        (by
          rintro _ hmem
          obtain ⟨o, ho, rfl⟩ := List.mem_map.mp hmem
          exact (hafter o ho).2)
        ((hres.names a.name).trans hv)
      obtain ⟨htyp, hdomains, hport, hperm, hindex⟩ := hleft
      obtain ⟨-, hpermanent, hkept⟩ := opens_existed ho
      have halike := hres.kept a.name u hv
      refine ⟨?_, ?_, ?_, ?_⟩
      · rw [← halike.typ, htyp, hpq.typ]
      · exact sameDomains_left hres hv (hdomains.trans hpq.domains)
          fun d hd => hindex d (hpq.index d hd)
      · intro hported
        have hsame : (rj.cells u).port = (ri.cells u).port := by
          rw [← hcells, ← hport, halike.port, happri.cell]
        have hkept := hkept hsame hported
        rwa [PortKept, happri.cell] at hkept
      · intro hclosed
        have hperm' := hperm (by
          rw [hundopre.mode.1, hmode.1, hallmode.1]
          exact hclosed)
        rwa [hcells, hpermanent, happri.cell] at hperm'

theorem opens_active (ho : Opens t who a r u existed r1) (hne : except ≠ some u) :
    r1.activeLocked who.token.id except =
      r.activeLocked who.token.id except + if r.active a.name then 0 else 1 := by
  have hp := opens_placed ho
  have htoken := opens_token ho
  have hset : (r1.refs.filter fun v => (r1.cells v).tokenID = who.token.id ∧
      (r1.cells v).session.isSome ∧ some v ≠ except) =
      insert u (r.refs.filter fun v => (r.cells v).tokenID = who.token.id ∧
        (r.cells v).session.isSome ∧ some v ≠ except) := by
    ext v
    rw [Finset.mem_insert, Finset.mem_filter, Finset.mem_filter, mem_refs, mem_refs]
    by_cases hv : v = u
    · subst hv
      simp [named_of_get hp.name, htoken, hp.session, hne.symm]
    · have hapart := Apart.opens ho hv
      have hnamed : r1.Named v ↔ r.Named v := by
        rw [named_iff, named_iff]
        refine ⟨fun ⟨n, hn⟩ => ⟨n, ?_⟩, fun ⟨n, hn⟩ => ⟨n, hapart.names n hn⟩⟩
        rw [← opens_names ho, hn]
        rintro rfl
        exact hv (Option.some.inj (hn.symm.trans hp.name))
      rw [hapart.cell, hnamed]
      simp [hv]
  rw [activeLocked_eq_card, activeLocked_eq_card, hset]
  have hmem : u ∈ (r.refs.filter fun v => (r.cells v).tokenID = who.token.id ∧
      (r.cells v).session.isSome ∧ some v ≠ except) ↔ r.active a.name = true := by
    rw [Finset.mem_filter, mem_refs]
    cases ho with
    | @mk c _ _ _ hc _ _ =>
      rcases (claim_cell hc).2.2.2 with ⟨-, hget, -⟩ | ⟨-, hget, hnew, -⟩
      · simp [NameRegistry.active, hget, named_of_get hget, hne.symm, (claim_holder hc hget).1]
      · simp only [NameRegistry.active, hget, Option.any_none]
        refine iff_of_false (fun h => ?_) (by simp)
        exact Nat.lt_irrefl _ (hnew ▸ h.1.lt)
  by_cases hactive : r.active a.name = true
  · rw [Finset.insert_eq_of_mem (hmem.mpr hactive), if_pos hactive, add_zero]
  · rw [Finset.card_insert_of_notMem (mt hmem.mp hactive), if_neg hactive]
    push_cast
    rfl

theorem opens_cell (ho : Opens t who a r u existed r1) (hn : n ≠ a.name)
    (hv : r.names.get n = some v) : v ≠ u ∧ r1.cells v = r.cells v := by
  have hne : v ≠ u := by
    rintro rfl
    have h1 := opens_names ho hn
    rw [hv] at h1
    exact hn ((r1.keyed _ _ h1).symm.trans (r1.keyed _ _ (opens_placed ho).name))
  exact ⟨hne, (Apart.opens ho hne).cell⟩

theorem OpensAll.cell (h : OpensAll t who os r rk) (hn : n ∉ os.map (·.1.name))
    (hv : r.names.get n = some v) : (∀ o ∈ os, v ≠ o.2.1) ∧ rk.cells v = r.cells v := by
  induction h with
  | nil => exact ⟨by simp, rfl⟩
  | cons ho _ ih =>
    rw [List.map_cons, List.mem_cons, not_or] at hn
    obtain ⟨hne, hcell⟩ := opens_cell ho hn.1 hv
    obtain ⟨hothers, hrest⟩ := ih hn.2 ((opens_names ho hn.1).trans hv)
    refine ⟨fun o hmem => ?_, hrest.trans hcell⟩
    rcases List.mem_cons.mp hmem with rfl | hmem
    · exact hne
    · exact hothers o hmem

theorem opens_active_ne (ho : Opens t who a r u existed r1) (hn : n ≠ a.name) :
    r1.active n = r.active n := by
  unfold NameRegistry.active
  rw [opens_names ho hn]
  cases hv : r.names.get n with
  | none => rfl
  | some v =>
    rw [Option.any_some, Option.any_some, (opens_cell ho hn hv).2]

theorem OpensAll.active (h : OpensAll t who os r rk) (hne : ∀ o ∈ os, except ≠ some o.2.1) :
    rk.activeLocked who.token.id except = r.activeLocked who.token.id except +
      ((os.map (·.1)).countP fun b => !r.active b.name : ℕ) := by
  induction h with
  | nil => simp
  | @cons a ref existed os r r1 rk ho hrest ih =>
    have hothers := (OpensAll.placed (opens_placed ho) hrest).2
    have hsame : (os.map (·.1)).countP (fun b => !r1.active b.name) =
        (os.map (·.1)).countP (fun b => !r.active b.name) := by
      refine List.countP_congr fun b hb => ?_
      obtain ⟨o, hmem, rfl⟩ := List.mem_map.mp hb
      rw [opens_active_ne ho (hothers o hmem).1]
    rw [ih fun o hmem => hne o (List.mem_cons_of_mem _ hmem),
      opens_active ho (hne _ List.mem_cons_self), hsame, List.map_cons, List.countP_cons]
    cases r.active a.name
    · simp
      omega
    · simp

theorem claim_ok_iff_decision (r : NameRegistry) (t : ℕ) {name tokenID agentID : String}
    {typ : TunnelType} {maxTunnels : ℤ} :
    (∃ c, r.claim name typ tokenID agentID t maxTunnels = .ok c) ↔
      ∃ d, r.decision name tokenID agentID t maxTunnels = .ok d := by
  unfold claim
  cases r.decision name tokenID agentID t maxTunnels with
  | error kind => simp
  | ok d => cases r.names.get name <;> simp

theorem granted_iff (h : OpensAll t who os r rk) :
    (∃ c, rk.claim a.name a.spec.type who.token.id who.agentID t who.token.policy.maxTunnels =
      .ok c) ↔ a.Granted r t who (os.map (·.1)) := by
  by_cases hmem : a.name ∈ os.map (·.1.name)
  · obtain ⟨o, ho, hname⟩ := List.mem_map.mp hmem
    refine iff_of_false ?_ ?_
    · rintro ⟨c, hc⟩
      exact (claim_ne_placed (h.all_placed o ho) hc).1 hname.symm
    · rintro ⟨hnot, -⟩
      rw [List.map_map] at hnot
      exact hnot hmem
  · have hnames := h.names hmem
    have hholder : (rk.names.get a.name).map (rk.holder t) =
        (r.names.get a.name).map (r.holder t) := by
      rw [hnames]
      cases hv : r.names.get a.name with
      | none => rfl
      | some v =>
        rw [Option.map_some, Option.map_some, holder, holder, (h.cell hmem hv).2]
    have hexcept : ∀ o ∈ os, r.names.get a.name ≠ some o.2.1 := by
      intro o ho hv
      exact (h.cell hmem hv).1 o ho rfl
    rw [claim_ok_iff_decision, decision, hholder, hnames, h.active hexcept, Ask.Granted,
      List.map_map]
    exact (and_iff_right hmem).symm

end
end L8Tunnel.Registrar
