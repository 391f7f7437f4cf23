import L8Tunnel.Oidc.Web

/-! # Login codes are used once (oidc/service.go) -/

namespace L8Tunnel.Oidc
open Base HttpProxy

def checkCode (g : Signer) (cfg : Config) (s : Service) (text host : String) : Option LoginCode :=
  (g.verify g.code purposeCode text).bind fun code =>
    if s.expired code.exp ∨ normalizeHost cfg.http code.host ≠ host then none else some code

/-- The service with the codes that were checked and not yet marked as used. -/
structure Finishing where
  service : Service
  pending : List LoginCode := []
  accepted : List String := []

/-- A code is checked and then used: two steps, with other requests and the clock between. -/
inductive CodeEvent where
  | tick (d : ℕ)
  | check (text host : String)
  | use (k : ℕ)

namespace Finishing

def use (f : Finishing) (k : ℕ) (code : LoginCode) : Finishing where
  service := (f.service.useCode code.id code.exp).1
  pending := f.pending.eraseIdx k
  accepted := if (f.service.useCode code.id code.exp).2 then f.accepted ++ [code.id]
    else f.accepted

def next (g : Signer) (cfg : Config) (f : Finishing) : CodeEvent → Finishing
  | .tick d => { f with service := { f.service with now := f.service.now + d } }
  | .check text host =>
    { f with pending := f.pending ++ (checkCode g cfg f.service text host).toList }
  | .use k => (f.pending[k]?).elim f (f.use k)

end Finishing

def CodeStep (g : Signer) (cfg : Config) (f : Finishing) (e : CodeEvent) (f' : Finishing) : Prop :=
  f.next g cfg e = f'

/-- The condition: the codes of an ID have one expiry, and each comes to
`useCode` before it. -/
def CodeEvent.InTime (g : Signer) (cfg : Config) (expOf : String → ℤ) (f : Finishing) :
    CodeEvent → Prop
  | .tick _ => True
  | .check text host => ∀ code ∈ checkCode g cfg f.service text host, code.exp = expOf code.id
  | .use k => ∀ code ∈ f.pending[k]?, f.service.expired code.exp = false

/-- An accepted code is in the list of used ones until it has expired. -/
structure Finishing.Once (expOf : String → ℤ) (f : Finishing) : Prop where
  pending : ∀ code ∈ f.pending, code.exp = expOf code.id
  listed : ∀ id ∈ f.accepted,
    f.service.usedCodes.get id = some (expOf id) ∨ f.service.expired (expOf id) = true
  nodup : f.accepted.Nodup

namespace Service
variable {s : Service} {id id' : String} {e exp : ℤ}

theorem stillUsed_get (h : s.usedCodes.get id = some e) (hexp : s.expired e = false) :
    s.stillUsed.get id = some e := by
  have hlive : ((s.usedCodes.get id).any fun e => decide (e < unix s.now)) = false := by
    rw [h]
    exact hexp
  unfold stillUsed
  rw [GoMap.get_foldl_del_if]
  rw [hlive]
  simpa using h

theorem useCode_used (exp : ℤ) (h : s.usedCodes.get id = some e) (hexp : s.expired e = false) :
    (s.useCode id exp).2 = false := by
  unfold useCode
  dsimp only
  rw [if_pos (.inl (by rw [stillUsed_get h hexp]; rfl))]

theorem useCode_get_self (h : (s.useCode id exp).2 = true) :
    (s.useCode id exp).1.usedCodes.get id = some exp := by
  unfold useCode at h ⊢
  dsimp only at h ⊢
  split at h
  · cases h
  · next hfree =>
    rw [if_neg hfree]
    exact GoMap.get_set _ _ _

theorem useCode_get_ne (hne : id' ≠ id) :
    (s.useCode id exp).1.usedCodes.get id' = s.stillUsed.get id' := by
  unfold useCode
  dsimp only
  split
  · rfl
  · exact GoMap.get_set_ne _ _ hne

theorem useCode_get_false (h : (s.useCode id exp).2 = false) :
    (s.useCode id exp).1.usedCodes.get id' = s.stillUsed.get id' := by
  unfold useCode at h ⊢
  dsimp only at h ⊢
  split at h
  · next hused => rw [if_pos hused]
  · cases h

theorem expired_tick (d : ℕ) (h : s.expired exp = true) :
    { s with now := s.now + d }.expired exp = true := by
  cases hlater : { s with now := s.now + d }.expired exp with
  | true => rfl
  | false =>
    rw [expired_mono hlater] at h
    cases h

end Service

namespace Finishing
variable {g : Signer} {cfg : Config} {expOf : String → ℤ} {f : Finishing}

theorem Once.listed_use (h : f.Once expOf) (code : LoginCode) (id : String) (hid : id ∈ f.accepted)
    (hne : id ≠ code.id ∨ (f.service.useCode code.id code.exp).2 = false) :
    (f.service.useCode code.id code.exp).1.usedCodes.get id = some (expOf id) ∨
      (f.service.useCode code.id code.exp).1.expired (expOf id) = true := by
  obtain ⟨-, -, hnow⟩ := useCode_rest (s := f.service) code.id code.exp
  have hexpired : (f.service.useCode code.id code.exp).1.expired (expOf id) =
      f.service.expired (expOf id) := by
    unfold Service.expired
    rw [hnow]
  cases hexp : f.service.expired (expOf id) with
  | true => exact .inr (hexpired.trans hexp)
  | false =>
    have hget := (h.listed id hid).resolve_right (by rw [hexp]; exact Bool.false_ne_true)
    have hstill := Service.stillUsed_get hget hexp
    rcases hne with hne | hfalse
    · exact .inl ((Service.useCode_get_ne hne).trans hstill)
    · exact .inl ((Service.useCode_get_false hfalse).trans hstill)

theorem Once.use (h : f.Once expOf) {k : ℕ} {code : LoginCode} (hk : f.pending[k]? = some code)
    (hexp : f.service.expired code.exp = false) : (f.use k code).Once expOf := by
  have hcode : code.exp = expOf code.id := h.pending code (List.mem_of_getElem? hk)
  have hpending : ∀ c ∈ f.pending.eraseIdx k, c.exp = expOf c.id :=
    fun c hc => h.pending c (List.mem_of_mem_eraseIdx hc)
  cases hok : (f.service.useCode code.id code.exp).2 with
  | false =>
    refine ⟨hpending, fun id hid => ?_, ?_⟩
    · simp only [Finishing.use, hok] at hid ⊢
      exact h.listed_use code id hid (.inr hok)
    · simp only [Finishing.use, hok]
      exact h.nodup
  | true =>
    -- a code that was accepted before is in the table still, so this one was not
    have hfresh : code.id ∉ f.accepted := by
      intro hid
      have hlive : f.service.expired (expOf code.id) = false := hcode ▸ hexp
      have hget := (h.listed code.id hid).resolve_right (by rw [hlive]; exact Bool.false_ne_true)
      rw [Service.useCode_used code.exp hget hlive] at hok
      cases hok
    have haccepted : (f.use k code).accepted = f.accepted ++ [code.id] := by
      simp only [Finishing.use, hok, if_true]
    refine ⟨hpending, fun id hid => ?_, ?_⟩
    · rw [haccepted, List.mem_append, List.mem_singleton] at hid
      rcases hid with hid | rfl
      · exact h.listed_use code id hid (.inl fun heq => hfresh (heq ▸ hid))
      · exact .inl (hcode ▸ Service.useCode_get_self hok)
    · rw [haccepted]
      exact List.nodup_append.mpr ⟨h.nodup, List.nodup_singleton _, fun a ha b hb hab =>
        hfresh (List.mem_singleton.mp hb ▸ hab ▸ ha)⟩

/-- One event of the code flow; a code redeemed stays redeemed. -/
theorem Once.next (h : f.Once expOf) (e : CodeEvent) (hcond : e.InTime g cfg expOf f) :
    (f.next g cfg e).Once expOf := by
  cases e with
  | tick d =>
    exact ⟨h.pending, fun id hid => (h.listed id hid).imp_right (Service.expired_tick d), h.nodup⟩
  | check text host =>
    refine ⟨fun code hcode => ?_, h.listed, h.nodup⟩
    rcases List.mem_append.mp hcode with hold | hnew
    · exact h.pending code hold
    · exact hcond code (Option.mem_toList.mp hnew)
  | use k =>
    have hnext : f.next g cfg (.use k) = (f.pending[k]?).elim f (f.use k) := rfl
    rw [hnext]
    cases hk : f.pending[k]? with
    | none => exact h
    | some code => exact h.use hk (hcond code hk)

end Finishing

/-- A login code is accepted at most once where codes of one ID have one expiry
and reach `useCode` before it. -/
theorem code_accepted_once (g : Signer) (cfg : Config) (now : ℤ) (expOf : String → ℤ)
    {events : List CodeEvent} {f : Finishing}
    (hrun : Run (Guarded (fun f e => e.InTime g cfg expOf f) (CodeStep g cfg))
      { service := { now := now } } events f) (id : String) : f.accepted.count id ≤ 1 := by
  have honce : f.Once expOf := by
    refine hrun.invariant (I := Finishing.Once expOf) (fun f e f' h hstep => ?_) ?_
    · obtain ⟨hcond, rfl⟩ := hstep
      exact h.next e hcond
    · exact ⟨fun _ h => absurd h List.not_mem_nil, fun _ h => absurd h List.not_mem_nil,
        List.nodup_nil⟩
  exact List.nodup_iff_count_le_one.mp honce.nodup id

noncomputable def presentA : CodeEvent := .check ((Payload.code codeA).token unarySigner) "a.io"

theorem checkCode_codeA (s : Service) : checkCode unarySigner plainConfig s
    ((Payload.code codeA).token unarySigner) "a.io" =
      if s.expired 60 then none else some codeA := by
  have hv : unarySigner.verify unarySigner.code purposeCode
      ((Payload.code codeA).token unarySigner) = some codeA :=
    Signer.verify_own Payload.code codeA rfl
  have hhost : normalizeHost plainConfig.http codeA.host = "a.io" := rfl
  simp only [checkCode, hv, Option.bind_some, hhost, ne_eq, not_true_eq_false, or_false]
  rfl

def atSecond (t : ℤ) (used : GoMap String ℤ) : Service :=
  { now := t * 1000000000, usedCodes := used }

theorem next_presentA {t : ℤ} (used : GoMap String ℤ) (pending : List LoginCode)
    (accepted : List String) (ht : (atSecond t used).expired 60 = false) :
    (Finishing.mk (atSecond t used) pending accepted).next unarySigner plainConfig presentA =
      ⟨atSecond t used, pending ++ [codeA], accepted⟩ := by
  simp only [Finishing.next, presentA, checkCode_codeA, ht]
  rfl

def usedA : GoMap String ℤ := (∅ : GoMap String ℤ).set "c" 60

theorem next_use_first (t : ℤ) :
    (Finishing.mk (atSecond t ∅) [codeA, codeA] []).next unarySigner plainConfig (.use 0) =
      ⟨atSecond t usedA, [codeA], ["c"]⟩ := rfl

noncomputable def twoInTime : List CodeEvent := [presentA, presentA, .use 0, .use 0]

theorem code_accepted_once_twoInTime :
    Run (CodeStep unarySigner plainConfig) { service := { now := 0 } } twoInTime
        ⟨atSecond 0 usedA, [], ["c"]⟩ ∧
      (Finishing.mk (atSecond 0 usedA) [] ["c"]).accepted.count "c" ≤ 1 := by
  have hpresent : ∀ pending accepted,
      presentA.InTime unarySigner plainConfig (fun _ => 60) ⟨atSecond 0 ∅, pending, accepted⟩ := by
    intro pending accepted code hcode
    rw [checkCode_codeA] at hcode
    cases hcode
    rfl
  have huse : ∀ used pending accepted, (CodeEvent.use 0).InTime unarySigner plainConfig
      (fun _ => 60) ⟨atSecond 0 used, codeA :: pending, accepted⟩ := by
    intro used pending accepted code hcode
    cases hcode
    rfl
  have hrun : Run (Guarded (fun f e => e.InTime unarySigner plainConfig (fun _ => 60) f)
      (CodeStep unarySigner plainConfig)) { service := { now := 0 } } twoInTime
      ⟨atSecond 0 usedA, [], ["c"]⟩ :=
    .cons ⟨hpresent [] [], next_presentA (t := 0) ∅ [] [] rfl⟩ <|
      .cons ⟨hpresent [codeA] [], next_presentA (t := 0) ∅ [codeA] [] rfl⟩ <|
      .cons ⟨huse ∅ [codeA] [], next_use_first 0⟩ <|
      .cons ⟨huse usedA [] ["c"], rfl⟩ <| .nil _
  exact ⟨hrun.mono fun _ _ _ h => h.2,
    code_accepted_once unarySigner plainConfig 0 (fun _ => 60) hrun "c"⟩

noncomputable def twoAcrossExpiry : List CodeEvent :=
  [presentA, presentA, .use 0, .tick 1000000000, .use 0]

theorem code_accepted_twice :
    Run (CodeStep unarySigner plainConfig) { service := { now := 60000000000 } } twoAcrossExpiry
        ⟨atSecond 61 usedA, [], ["c", "c"]⟩ ∧
      (Finishing.mk (atSecond 61 usedA) [] ["c", "c"]).accepted.count "c" = 2 := by
  have htick : (Finishing.mk (atSecond 60 usedA) [codeA] ["c"]).next unarySigner plainConfig
      (.tick 1000000000) = ⟨atSecond 61 usedA, [codeA], ["c"]⟩ := rfl
  refine ⟨?_, rfl⟩
  exact .cons (next_presentA (t := 60) ∅ [] [] rfl) <|
    .cons (next_presentA (t := 60) ∅ [codeA] [] rfl) <| .cons (next_use_first 60) <|
    .cons htick <| .cons rfl <| .nil _

end L8Tunnel.Oidc
