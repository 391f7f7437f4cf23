import L8Tunnel.Claims.Upkeep

/-! # What an accepted claim guarantees -/

namespace L8Tunnel.Claims
open Base Registry

theorem firstFree_free {free : Int32 → Bool} {hi p q : Int32} {fuel : ℕ}
    (h : firstFree free hi fuel p = some q) : free q = true := by
  induction fuel generalizing p with
  | zero => cases h
  | succ fuel ih =>
    unfold firstFree at h
    split at h
    · split at h
      next hf =>
        cases h
        exact hf
      next => exact ih h
    · cases h

def OwnOrFree {κ : Type} [DecidableEq κ] (m : GoMap κ String) (k : κ) (name : String) : Prop :=
  nameAt m k = "" ∨ nameAt m k = name

theorem nameAt_of_get {κ : Type} [DecidableEq κ] {m : GoMap κ String} {k : κ} {n : String}
    (h : m.get k = some n) : nameAt m k = n := by
  simp [nameAt, h]

/-- What the checks of a CLAIM say of a record they let through. -/
structure Admitted (e : Engine) (env : Env) (req : TunClaimRequest) (rec : TunLiveTunnel) :
    Prop where
  named : rec.name ≠ ""
  relayId : rec.relayId = req.relayId
  agentId : rec.agentId = req.agentId
  tokenId : rec.tokenId = req.tokenId
  sessionId : rec.sessionId = req.sessionId
  active : rec.state = .active
  holder : ∀ old, e.tunnels.get rec.name = some old → old.tokenId = req.tokenId ∧
    (old.state = .active → old.agentId = req.agentId ∧ old.sessionId ≠ req.sessionId)
  port : ∀ p ∈ Engine.ports rec, OwnOrFree e.byPort p rec.name
  portReserved : ∀ p ∈ Engine.ports rec, reservedByOther env.reservations rec.name p = false
  domain : ∀ d ∈ rec.domains, OwnOrFree e.byDomain d rec.name
  reserved : ∀ r, reservationOf env.reservations rec.name = some r → r.tokenId = req.tokenId

theorem reservedByOther_eq_false {reservations : List TunReservation} {name : String} {p : Int32} :
    reservedByOther reservations name p = false ↔
      ∀ r ∈ reservations, r.publicPort = p → r.name = name := by
  simp [reservedByOther]

theorem Admitted.reserved_port {e : Engine} {env : Env} {req : TunClaimRequest}
    {rec : TunLiveTunnel} (h : Admitted e env req rec) (hne : rec.publicPort ≠ 0)
    {r : TunReservation} (hr : r ∈ env.reservations) (hport : r.publicPort = rec.publicPort) :
    r.name = rec.name := by
  have hfree := h.portReserved rec.publicPort ((Engine.mem_ports rec _).mpr ⟨rfl, hne⟩)
  exact reservedByOther_eq_false.mp hfree r hr hport

namespace Engine
variable {e : Engine} {reservations : List TunReservation} {staged : GoMap Int32 String} {p : Int32}
  {cfg : Config} {req : TunClaimRequest} {spec rec : TunLiveTunnel} {resv : Option TunReservation}
  {env : Env} {st st' : Staged} {r : Refusal} {specs : List TunLiveTunnel}

theorem free_spec {name : String} (h : e.free reservations staged name p = true) :
    OwnOrFree e.byPort p name ∧ nameAt staged p = "" ∧
      reservedByOther reservations name p = false := by
  simpa [free, OwnOrFree] using h

theorem port_free {holder : Option TunLiveTunnel}
    (h : e.port cfg req spec holder resv reservations staged = .ok p) :
    e.free reservations staged spec.name p = true := by
  unfold port at h
  dsimp only at h
  split at h
  next hprev =>
    cases h
    exact hprev.2.2.2
  next =>
    split at h
    · split at h
      · cases h
      · split at h
        · cases h
        next hf =>
          cases h
          simpa using hf
    · split at h
      next q hq =>
        cases h
        exact firstFree_free hq
      next => cases h

def PortFor (e : Engine) (cfg : Config) (env : Env) (req : TunClaimRequest) (spec : TunLiveTunnel)
    (staged : GoMap Int32 String) (p : Int32) : Prop :=
  if hasPort spec.type ∧ spec.accessToken = false then
    e.port cfg req spec (e.tunnels.get spec.name) (reservationOf env.reservations spec.name)
      env.reservations staged = .ok p
  else p = 0

/-- One turn of the loop of `check` that ends well: every test passed, and what it stages. -/
structure Checked (e : Engine) (cfg : Config) (env : Env) (req : TunClaimRequest)
    (spec : TunLiveTunnel) (st : Staged) (rec : TunLiveTunnel) : Prop where
  name : cfg.rules.checkName spec.name = none
  site : env.isSiteName (spec.name ++ "." ++ cfg.rules.baseDomain) = false
  reserved : ∀ r, reservationOf env.reservations spec.name = some r → r.tokenId = req.tokenId
  decision : ∃ d, registryDecide ((e.tunnels.get spec.name).map (holderOf req)) req.tokenId
    req.agentId (e.active req.tokenId spec.name st.recs) req.maxTunnels.toInt = .ok d
  domains : ∀ d ∈ spec.domains, OwnOrFree e.byDomain d spec.name ∧ nameAt st.domains d = ""
  port : PortFor e cfg env req spec st.ports rec.publicPort
  record : rec = { claimed env req spec with publicPort := rec.publicPort }

theorem checked (h : e.check cfg env req spec st = .ok rec) :
    Checked e cfg env req spec st rec := by
  unfold check at h
  split at h
  · cases h
  next hname =>
  dsimp only at h
  split at h
  · cases h
  next hsite =>
  split at h
  · cases h
  next hresv =>
  split at h
  · cases h
  · cases h
  next d hdec =>
  split at h
  · cases h
  next hdom =>
  have hrec : PortFor e cfg env req spec st.ports rec.publicPort ∧
      rec = { claimed env req spec with publicPort := rec.publicPort } := by
    unfold PortFor
    split at h
    next hgets =>
      rw [if_pos hgets]
      split at h
      · cases h
      next p hp =>
        cases h
        exact ⟨hp, rfl⟩
    next hgets =>
      rw [if_neg hgets]
      cases h
      exact ⟨rfl, rfl⟩
  refine ⟨hname, by simpa using hsite, fun r hr => ?_, ⟨d, hdec⟩, fun x hx => ?_, hrec.1, hrec.2⟩
  · simpa [hr] using hresv
  · have hfree := List.find?_eq_none.mp hdom x hx
    simp only [domainTaken, decide_eq_true_eq, not_or, not_and_or, not_not] at hfree
    exact hfree

namespace Checked
variable (h : Checked e cfg env req spec st rec)
include h

theorem holder {old : TunLiveTunnel} (hold : e.tunnels.get spec.name = some old) :
    old.tokenId = req.tokenId ∧
      (old.state = .active → old.agentId = req.agentId ∧ old.sessionId ≠ req.sessionId) := by
  obtain ⟨d, hdec⟩ := h.decision
  rw [hold] at hdec
  obtain ⟨htok, hconn⟩ := registryDecide_ok hdec
  refine ⟨htok, fun hact => ?_⟩
  obtain ⟨hag, hsess⟩ := hconn (by simpa [holderOf] using hact)
  exact ⟨hag, by simpa [holderOf] using hsess⟩

theorem free {p : Int32} (hp : p ∈ ports rec) :
    e.free env.reservations st.ports spec.name p = true := by
  obtain ⟨rfl, hne⟩ := (mem_ports rec p).mp hp
  have hport := h.port
  unfold PortFor at hport
  split at hport
  · exact port_free hport
  · exact absurd hport hne

end Checked

theorem check_ok (h : e.check cfg env req spec st = .ok rec) :
    rec = { claimed env req spec with publicPort := rec.publicPort } ∧
      Admitted e env req rec ∧
      (∀ p ∈ ports rec, nameAt st.ports p = "") ∧
      ∀ d ∈ rec.domains, nameAt st.domains d = "" := by
  have hc := checked h
  have hne : spec.name ≠ "" := validName_ne_empty (Rules.checkName_none hc.name).1
  have hname : rec.name = spec.name := by rw [hc.record]; rfl
  have hdomains : rec.domains = spec.domains := by rw [hc.record]; rfl
  have hfields : rec.relayId = req.relayId ∧ rec.agentId = req.agentId ∧
      rec.tokenId = req.tokenId ∧ rec.sessionId = req.sessionId ∧ rec.state = .active := by
    rw [hc.record]
    exact ⟨rfl, rfl, rfl, rfl, rfl⟩
  obtain ⟨hrelay, hagent, htoken, hsession, hactive⟩ := hfields
  refine ⟨hc.record, ?_, fun p hp => (free_spec (hc.free hp)).2.1, fun d hd => ?_⟩
  · refine ⟨?_, hrelay, hagent, htoken, hsession, hactive, ?_, ?_, ?_, ?_, ?_⟩ <;> rw [hname]
    · exact hne
    · exact fun _ => hc.holder
    · exact fun p hp => (free_spec (hc.free hp)).1
    · exact fun p hp => (free_spec (hc.free hp)).2.2
    · rw [hdomains]
      exact fun d hd => (hc.domains d hd).1
    · exact hc.reserved
  · rw [hdomains] at hd
    exact (hc.domains d hd).2

theorem port_refused {holder : Option TunLiveTunnel}
    (h : e.port cfg req spec holder resv reservations staged = .error r) :
    r.code ≠ .unspecified := by
  unfold port at h
  dsimp only at h
  split at h
  · cases h
  split at h
  · split at h
    · cases h
      simp
    split at h
    · cases h
      simp
    · cases h
  · split at h
    · cases h
    · cases h
      simp

theorem check_error (h : e.check cfg env req spec st = .error r) :
    (r.code = .invalid ∨ r.code = .nameTaken ∨ r.code = .maxTunnels) ∨
    ((hasPort spec.type ∧ spec.accessToken = false) ∧
      e.port cfg req spec (e.tunnels.get spec.name) (reservationOf env.reservations spec.name)
        env.reservations st.ports = .error r) := by
  have htaken : (nameTaken spec.name).code = .nameTaken := rfl
  unfold check at h
  split at h
  · cases h
    simp
  dsimp only at h
  split at h
  · cases h
    simp [htaken]
  split at h
  · cases h
    simp [htaken]
  split at h
  · cases h
    simp
  · cases h
    simp [htaken]
  split at h
  · cases h
    simp
  split at h
  next hgets =>
    split at h
    next hp =>
      cases h
      exact .inr ⟨hgets, hp⟩
    next => cases h
  next => cases h

theorem check_refused (h : e.check cfg env req spec st = .error r) : r.code ≠ .unspecified := by
  rcases check_error h with (hcode | hcode | hcode) | ⟨-, hport⟩
  · simp [hcode]
  · simp [hcode]
  · simp [hcode]
  · exact port_refused hport

theorem stageAll_refused (h : e.stageAll cfg env req specs st = .error r) :
    r.code ≠ .unspecified := by
  induction specs generalizing st with
  | nil => cases h
  | cons spec specs ih =>
    unfold stageAll at h
    split at h
    · cases h
      simp [simulatedRefused]
    split at h
    · cases h
      simp
    split at h
    next hc =>
      cases h
      exact check_refused hc
    next => exact ih h

theorem stageAll_checked (h : e.stageAll cfg env req specs st = .ok st') :
    (∀ n rec, st.recs.get n = some rec → st'.recs.get n = some rec) ∧
      ∀ spec ∈ specs, ∃ rec staged, st'.recs.get spec.name = some rec ∧
        Checked e cfg env req spec staged rec := by
  induction specs generalizing st with
  | nil =>
    cases h
    exact ⟨fun _ _ hr => hr, by simp⟩
  | cons spec specs ih =>
    unfold stageAll at h
    split at h
    · cases h
    split at h
    · cases h
    next hnew =>
    split at h
    · cases h
    next rec hc =>
    obtain ⟨hkeep, hrest⟩ := ih h
    have hname : rec.name = spec.name := by rw [(check_ok hc).1]; rfl
    have hput : (e.stage req st rec).recs = st.recs.put rec := rfl
    refine ⟨?_, ?_⟩
    · intro n r hr
      refine hkeep n r ?_
      have hne : n ≠ rec.name := by
        intro hn
        rw [hn, hname] at hr
        simp [hr] at hnew
      rw [hput, Table.get_put_ne _ _ hne]
      exact hr
    · intro u hu
      rcases List.mem_cons.mp hu with rfl | hu
      · refine ⟨rec, st, hkeep _ _ ?_, checked hc⟩
        rw [hput, ← hname]
        exact Table.get_put_self _ _
      · exact hrest u hu

theorem check_code (h : e.check cfg env req spec st = .error r)
    (hport : ∃ p, PortFor e cfg env req spec st.ports p) :
    r.code ≠ .portUnavailable ∧ r.code ≠ .portNotAllowed := by
  rcases check_error h with (hcode | hcode | hcode) | ⟨hgets, hrefused⟩
  · simp [hcode]
  · simp [hcode]
  · simp [hcode]
  · obtain ⟨p, hp⟩ := hport
    rw [PortFor, if_pos hgets, hrefused] at hp
    cases hp

theorem wantedPort_requested (holder : Option TunLiveTunnel) (resv : Option TunReservation)
    (hspec : spec.publicPort ≠ 0) : wantedPort spec holder resv = spec.publicPort := by
  unfold wantedPort
  cases holder <;> cases resv <;> simp [hspec]

theorem wantedPort_reserved {r : TunReservation} (holder : Option TunLiveTunnel)
    (hspec : spec.publicPort = 0) (hr : r.publicPort ≠ 0) :
    wantedPort spec holder (some r) = r.publicPort := by
  unfold wantedPort
  cases holder <;> simp [hspec, hr]

theorem port_wanted {holder : Option TunLiveTunnel} {q : Int32}
    (hwant : wantedPort spec holder resv = q) (hq : q ≠ 0)
    (h : e.port cfg req spec holder resv reservations staged = .ok p) : p = q := by
  unfold port at h
  dsimp only at h
  rw [hwant, if_neg fun hboth => hq hboth.1, if_pos hq] at h
  split at h
  · cases h
  split at h
  · cases h
  · exact (Except.ok.inj h).symm

theorem port_reserved {holder : Option TunLiveTunnel} {r : TunReservation}
    (hspec : spec.publicPort = 0) (hr : r.publicPort ≠ 0) :
    e.port cfg req spec holder (some r) reservations staged =
      if r.publicPort < Int32.ofInt cfg.rules.portMin ∨ Int32.ofInt cfg.rules.portMax < r.publicPort
      then .error ⟨.portNotAllowed, "port " ++ toString r.publicPort.toInt ++
        " is outside the relay's range " ++ toString cfg.rules.portMin ++ "-" ++
        toString cfg.rules.portMax⟩
      else if e.free reservations staged spec.name r.publicPort = false then
        .error ⟨.portUnavailable, "port " ++ toString r.publicPort.toInt ++
          " is unavailable: it is held by another tunnel"⟩
      else .ok r.publicPort := by
  unfold port
  dsimp only
  rw [wantedPort_reserved holder hspec hr, if_neg fun hboth => hr hboth.1, if_pos hr]

end Engine

/-- What is staged so far is admitted and its own indexes are exact. -/
structure Staged.Good (e : Engine) (env : Env) (req : TunClaimRequest) (st : Staged) : Prop where
  admitted : ∀ n rec, st.recs.get n = some rec → Admitted e env req rec
  ports : Index.Exact Engine.ports st.recs st.ports
  domains : Index.Exact TunLiveTunnel.domains st.recs st.domains

namespace Staged
variable {e : Engine} {cfg : Config} {env : Env} {req : TunClaimRequest} {st st' : Staged}

theorem none_good : Staged.none.Good e env req :=
  ⟨fun n rec h => by simp [Staged.none] at h, Index.exact_empty, Index.exact_empty⟩

theorem Good.unowned {ρ : Type} [DecidableEq ρ] {res : TunLiveTunnel → List ρ}
    {ix : GoMap ρ String} (hg : st.Good e env req) (hx : Index.Exact res st.recs ix) {r : ρ}
    (h : nameAt ix r = "") (k : String) : ix.get r ≠ some k := by
  intro hk
  obtain ⟨v, hv, _⟩ := (hx r k).mp hk
  have hne := (hg.admitted k v hv).named
  rw [Table.key_of_get hv] at hne
  exact hne ((nameAt_of_get hk).symm.trans h)

theorem Good.stage (hg : st.Good e env req) {rec : TunLiveTunnel}
    (hnew : st.recs.get rec.name = Option.none) (ha : Admitted e env req rec)
    (hp : ∀ p ∈ Engine.ports rec, nameAt st.ports p = "")
    (hd : ∀ d ∈ rec.domains, nameAt st.domains d = "") : (e.stage req st rec).Good e env req := by
  have hports : (e.stage req st rec).ports = Index.update Engine.ports st.recs st.ports rec := by
    unfold Index.update Index.held Engine.stage Engine.ports
    by_cases h0 : rec.publicPort = 0 <;> simp [hnew, h0, Index.add, Index.drop]
  have hdoms : (e.stage req st rec).domains =
      Index.update TunLiveTunnel.domains st.recs st.domains rec := by
    simp only [Index.update, Index.held, hnew]
    rfl
  refine ⟨?_, ?_, ?_⟩
  · intro n r hr
    have hr' : (st.recs.put rec).get n = some r := hr
    rw [Table.get_put] at hr'
    split at hr'
    · cases hr'
      exact ha
    · exact hg.admitted n r hr'
  · rw [hports]
    exact hg.ports.put rec fun p hmem k hk => absurd hk (hg.unowned hg.ports (hp p hmem) k)
  · rw [hdoms]
    exact hg.domains.put rec fun d hmem k hk => absurd hk (hg.unowned hg.domains (hd d hmem) k)

theorem stageAll_good {specs : List TunLiveTunnel}
    (h : e.stageAll cfg env req specs st = .ok st') (hg : st.Good e env req) :
    st'.Good e env req := by
  induction specs generalizing st with
  | nil =>
    cases h
    exact hg
  | cons spec specs ih =>
    unfold Engine.stageAll at h
    split at h
    · cases h
    split at h
    · cases h
    next hnew =>
    split at h
    · cases h
    next rec hc =>
    obtain ⟨heq, ha, hp, hd⟩ := Engine.check_ok hc
    have hname : rec.name = spec.name := by rw [heq]; rfl
    exact ih h (hg.stage (by simpa [hname] using hnew) ha hp hd)

end Staged

/-- The records of an accepted CLAIM: each admitted, no port or domain twice. -/
structure Granted (e : Engine) (env : Env) (req : TunClaimRequest) (recs : List TunLiveTunnel) :
    Prop where
  admitted : ∀ rec ∈ recs, Admitted e env req rec
  ports : ∀ r ∈ recs, ∀ s ∈ recs, ∀ p, p ∈ Engine.ports r → p ∈ Engine.ports s → r.name = s.name
  domains : ∀ r ∈ recs, ∀ s ∈ recs, ∀ d, d ∈ r.domains → d ∈ s.domains → r.name = s.name

/-- The claim is accepted, and each record it stores is what the rules make of one of
its listings. -/
structure Accepted (e : Engine) (cfg : Config) (env : Env) (req : TunClaimRequest)
    (recs : List TunLiveTunnel) : Prop extends Granted e env req recs where
  listing : ∀ rec ∈ recs, ∃ spec ∈ req.tunnels, ∃ staged,
    Engine.Checked e cfg env req spec staged rec
  answer : (e.claim cfg env req).2 = { tunnels := recs }

namespace Staged

theorem get_of_mem {st : Staged} {specs : List TunLiveTunnel} {rec : TunLiveTunnel}
    (h : rec ∈ specs.filterMap fun spec => st.recs.get spec.name) :
    st.recs.get rec.name = some rec := by
  obtain ⟨spec, _, hget⟩ := List.mem_filterMap.mp h
  rw [Table.key_of_get hget]
  exact hget

theorem Good.granted {e : Engine} {env : Env} {req : TunClaimRequest} {st : Staged}
    (hg : st.Good e env req) (specs : List TunLiveTunnel) :
    Granted e env req (specs.filterMap fun spec => st.recs.get spec.name) :=
  ⟨fun rec hrec => hg.admitted _ rec (get_of_mem hrec),
    fun _ hr _ hs _ => hg.ports.exclusive (get_of_mem hr) (get_of_mem hs),
    fun _ hr _ hs _ => hg.domains.exclusive (get_of_mem hr) (get_of_mem hs)⟩

end Staged

theorem filterMap_names {f : TunLiveTunnel → Option TunLiveTunnel} {specs : List TunLiveTunnel}
    (h : ∀ spec ∈ specs, ∃ rec, f spec = some rec ∧ rec.name = spec.name) :
    (specs.filterMap f).map (·.name) = specs.map (·.name) := by
  induction specs with
  | nil => rfl
  | cons spec specs ih =>
    obtain ⟨⟨rec, hrec, hname⟩, hrest⟩ := List.forall_mem_cons.mp h
    rw [List.filterMap_cons_some hrec, List.map_cons, List.map_cons, hname, ih hrest]

theorem record_of_spec {recs specs : List TunLiveTunnel} {spec : TunLiveTunnel}
    (h : recs.map (·.name) = specs.map (·.name)) (hs : spec ∈ specs) :
    ∃ rec ∈ recs, rec.name = spec.name := by
  have hmem : spec.name ∈ recs.map (·.name) := h ▸ List.mem_map_of_mem hs
  simpa using hmem

namespace Engine

/-- What a claim can do: refuse with a code and leave the engine, or store one row for each
tunnel asked for and report what was taken over. -/
theorem claim_cases (e : Engine) (cfg : Config) (env : Env) (req : TunClaimRequest) :
    (∃ r : Refusal, r.code ≠ .unspecified ∧ e.claim cfg env req = (e, refuse r.code r.msg)) ∨
      ∃ (recs : List TunLiveTunnel) (olds : List TunLiveTunnel), Accepted e cfg env req recs ∧
        req.tunnels ≠ [] ∧
        recs.map (·.name) = req.tunnels.map (·.name) ∧
        e.claim cfg env req =
          (List.foldl (fun e old => e.report (takenOver old)) (recs.foldl setTunnel e) olds,
            { tunnels := recs }) := by
  have hanswer : ∀ {st}, e.stageAll cfg env req req.tunnels .none = .ok st →
      req.tunnels ≠ [] → ¬ (req.agentId = "" ∨ req.tokenId = "" ∨ req.sessionId = "") →
      (e.claim cfg env req).2 =
        { tunnels := req.tunnels.filterMap fun spec => st.recs.get spec.name } := by
    intro st hst hne hids
    unfold claim
    rw [if_neg hne, if_neg hids, hst]
  unfold claim
  split
  · exact .inl ⟨⟨.invalid, "no tunnels to claim"⟩, by decide, rfl⟩
  next hne =>
  split
  · exact .inl ⟨⟨.invalid, "agentId, tokenId and sessionId are required"⟩, by decide, rfl⟩
  next hids =>
  split
  next r hr => exact .inl ⟨r, stageAll_refused hr, rfl⟩
  next st hst =>
  have hg := Staged.stageAll_good hst Staged.none_good
  have hchecked := (stageAll_checked hst).2
  refine .inr ⟨_, st.takeovers, ⟨hg.granted req.tunnels, fun rec hrec => ?_, hanswer hst hne hids⟩,
    hne, ?_, rfl⟩
  · obtain ⟨spec, hspec, hget⟩ := List.mem_filterMap.mp hrec
    obtain ⟨rec', staged, hget', hc⟩ := hchecked spec hspec
    cases hget.symm.trans hget'
    exact ⟨spec, hspec, staged, hc⟩
  · refine filterMap_names fun spec hspec => ?_
    obtain ⟨rec, -, hget, -⟩ := hchecked spec hspec
    exact ⟨rec, hget, Table.key_of_get hget⟩

end Engine
end L8Tunnel.Claims
