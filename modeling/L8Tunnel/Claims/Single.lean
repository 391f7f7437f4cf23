import L8Tunnel.Claims.Active
import L8Tunnel.Claims.Exclusive

/-! # Claims of one tunnel -/

namespace L8Tunnel.Claims
open Base

variable {n hi : ℤ}

theorem toInt_ofInt (h0 : -2147483648 ≤ n) (h1 : n < 2147483648) : (Int32.ofInt n).toInt = n :=
  Int32.toInt_ofInt_of_le (by omega) (by omega)

theorem toInt_succ {p : Int32} (h : p.toInt < 2147483647) : (p + 1).toInt = p.toInt + 1 := by
  have hlow : -2147483648 ≤ p.toInt := Int32.le_toInt p
  have hback : Int32.ofInt (p.toInt + 1) = p + 1 := by
    rw [Int32.ofInt_add, Int32.ofInt_toInt]
    rfl
  rw [← hback]
  exact toInt_ofInt (by omega) (by omega)

theorem toInt_ofInt_uint32 (h0 : 0 ≤ n) (h1 : n < 4294967296) :
    (Int32.ofInt n).toInt = if n < 2147483648 then n else n - 4294967296 := by
  rw [Int32.toInt_ofInt, Int.bmod_def]
  have hsize : (Int32.size : ℤ) = 4294967296 := rfl
  rw [hsize]
  split <;> split <;> omega

theorem ofInt_uint32_eq_zero (h0 : 0 ≤ n) (h1 : n < 4294967296) : Int32.ofInt n = 0 ↔ n = 0 := by
  have hzero : (0 : Int32).toInt = 0 := rfl
  rw [← Int32.toInt_inj, toInt_ofInt_uint32 h0 h1, hzero]
  split <;> omega

theorem ofInt_uint32_between {lo : ℤ} (h0 : 0 ≤ n) (h1 : n < 4294967296) (hlo : 0 ≤ lo)
    (hlo1 : lo ≤ 65535) (hhi : 0 ≤ hi) (hhi1 : hi ≤ 65535) :
    (Int32.ofInt lo ≤ Int32.ofInt n ∧ Int32.ofInt n ≤ Int32.ofInt hi) ↔ lo ≤ n ∧ n ≤ hi := by
  rw [Int32.le_iff_toInt_le, Int32.le_iff_toInt_le, toInt_ofInt_uint32 h0 h1,
    toInt_ofInt (by omega) (by omega), toInt_ofInt (by omega) (by omega)]
  split <;> omega

theorem firstFree_eq_find? (free : Int32 → Bool) (hhi : hi < 2147483647) (n : ℕ) :
    ∀ (lo : ℤ) (fuel : ℕ), 0 ≤ lo → lo ≤ hi + 1 → (hi - lo + 1).toNat = n → n ≤ fuel →
    firstFree free (Int32.ofInt hi) fuel (Int32.ofInt lo) =
      (((List.range n).map fun k : ℕ => lo + k).find? fun p => free (Int32.ofInt p)).map
        Int32.ofInt := by
  induction n with
  | zero =>
    intro lo fuel h0 h1 hn _
    have hle : ¬ Int32.ofInt lo ≤ Int32.ofInt hi := by
      rw [Int32.le_iff_toInt_le, toInt_ofInt (by omega) (by omega),
        toInt_ofInt (by omega) (by omega)]
      omega
    cases fuel with
    | zero => rfl
    | succ fuel => simp [firstFree, hle]
  | succ n ih =>
    intro lo fuel h0 h1 hn hfuel
    obtain ⟨fuel, rfl⟩ : ∃ f, fuel = f + 1 := ⟨fuel - 1, by omega⟩
    have hle : Int32.ofInt lo ≤ Int32.ofInt hi := by
      rw [Int32.le_iff_toInt_le, toInt_ofInt (by omega) (by omega),
        toInt_ofInt (by omega) (by omega)]
      omega
    have hnext : Int32.ofInt lo + 1 = Int32.ofInt (lo + 1) := by
      rw [Int32.ofInt_add]
      rfl
    have hlist : (List.range (n + 1)).map (fun k : ℕ => lo + k) =
        lo :: (List.range n).map fun k : ℕ => lo + 1 + k := by
      rw [List.range_succ_eq_map, List.map_cons, List.map_map]
      refine List.cons_eq_cons.mpr ⟨by omega, List.map_congr_left fun k _ => ?_⟩
      simp only [Function.comp_apply, Nat.succ_eq_add_one]
      omega
    rw [firstFree, if_pos hle, hlist]
    cases hfree : free (Int32.ofInt lo) with
    | true => simp [hfree]
    | false =>
      rw [List.find?_cons_of_neg (by simp [hfree]), hnext]
      simpa using ih (lo + 1) fuel (by omega) (by omega) (by omega) (by omega)

namespace Engine
variable {e : Engine} {cfg : Config} {env : Env} {req : TunClaimRequest} {spec : TunLiveTunnel}

theorem setTunnel_rest (e : Engine) (rec : TunLiveTunnel) :
    (e.setTunnel rec).relays = e.relays ∧ (e.setTunnel rec).agents = e.agents := by
  unfold setTunnel
  cases e.tunnels.get rec.name with
  | none => exact ⟨rfl, rfl⟩
  | some old => exact ⟨rfl, rfl⟩

theorem deleteTunnel_rest (e : Engine) (name : String) :
    (e.deleteTunnel name).relays = e.relays ∧ (e.deleteTunnel name).agents = e.agents := by
  unfold deleteTunnel
  cases e.tunnels.get name with
  | none => exact ⟨rfl, rfl⟩
  | some old => exact ⟨rfl, rfl⟩

section
variable (hone : req.tunnels = [spec]) (hagent : req.agentId ≠ "") (htoken : req.tokenId ≠ "")
  (hsession : req.sessionId ≠ "") (hreal : spec.simulated = false)
include hone hagent htoken hsession hreal

theorem claim_single_error {r : Refusal} (h : e.check cfg env req spec .none = .error r) :
    e.claim cfg env req = (e, refuse r.code r.msg) := by
  have hget : Staged.none.recs.get spec.name = none := Table.get_empty _
  unfold claim
  simp [hone, hagent, htoken, hsession, stageAll, hreal, hget, h]

/-- A claim of one tunnel the relay itself holds, or nobody: the checked row is stored. -/
theorem claim_single_ok {rec : TunLiveTunnel} (h : e.check cfg env req spec .none = .ok rec)
    (hmine : ∀ old, e.tunnels.get spec.name = some old → old.relayId = req.relayId) :
    e.claim cfg env req = (e.setTunnel rec, { tunnels := [rec] }) := by
  have hget : Staged.none.recs.get spec.name = none := Table.get_empty _
  have hname : rec.name = spec.name := by
    rw [(check_ok h).1]
    rfl
  have hrec : (e.stage req .none rec).recs.get spec.name = some rec := by
    rw [← hname]
    exact Table.get_put_self _ _
  have htold : (e.stage req .none rec).takeovers = [] := by
    unfold stage
    dsimp only
    rw [hname]
    cases hold : e.tunnels.get spec.name with
    | none => rfl
    | some old => simp [hmine old hold, Staged.none]
  unfold claim
  simp [hone, hagent, htoken, hsession, stageAll, hreal, hget, h, hrec, htold]

end

theorem indexed_check {st : Staged} {rec : TunLiveTunnel} (hx : Indexed e)
    (h : e.check cfg env req spec st = .ok rec) : Indexed (e.setTunnel rec) := by
  have hgranted : Granted e env req [rec] := by
    refine ⟨?_, ?_, ?_⟩
    all_goals simp only [List.forall_mem_singleton]
    · exact (check_ok h).2.1
    · exact fun _ _ _ => trivial
    · exact fun _ _ _ => trivial
  exact hx.granted hgranted

theorem foldl_rewriteOne_rest (upd : TunLiveTunnel → Option TunLiveTunnel) (names : List String)
    (e : Engine) : (names.foldl (rewriteOne upd) e).relays = e.relays ∧
      (names.foldl (rewriteOne upd) e).agents = e.agents := by
  induction names generalizing e with
  | nil => exact ⟨rfl, rfl⟩
  | cons name names ih =>
    have hone : (rewriteOne upd e name).relays = e.relays ∧
        (rewriteOne upd e name).agents = e.agents := by
      unfold rewriteOne
      split
      · exact ⟨rfl, rfl⟩
      split
      · exact ⟨rfl, rfl⟩
      · exact setTunnel_rest e _
    obtain ⟨hr, ha⟩ := ih (rewriteOne upd e name)
    exact ⟨hr.trans hone.1, ha.trans hone.2⟩

theorem park_rest (e : Engine) (cfg : Config) (env : Env) (req : TunClaimRequest) :
    (e.park cfg env req).relays = e.relays ∧ (e.park cfg env req).agents = e.agents :=
  foldl_rewriteOne_rest _ _ _

def graceOver (env : Env) (t : TunLiveTunnel) : Bool :=
  t.simulated = false ∧ t.state = .grace ∧ t.graceUntil ≤ unix env.now

theorem sweepTunnel_eq (env : Env) (e : Engine) (name : String) :
    sweepTunnel env e name =
      if (e.tunnels.get name).any (graceOver env) then e.deleteTunnel name else e := by
  unfold sweepTunnel graceOver
  cases e.tunnels.get name with
  | none => rfl
  | some t => simp

theorem foldl_sweepTunnel (env : Env) (names : List String) (e : Engine) :
    (∀ n, (names.foldl (sweepTunnel env) e).tunnels.get n =
      if n ∈ names ∧ (e.tunnels.get n).any (graceOver env) = true then none
      else e.tunnels.get n) ∧
    (names.foldl (sweepTunnel env) e).relays = e.relays ∧
    (names.foldl (sweepTunnel env) e).agents = e.agents := by
  induction names generalizing e with
  | nil => simp
  | cons name names ih =>
    obtain ⟨hget, hrelays, hagents⟩ := ih (sweepTunnel env e name)
    rw [List.foldl_cons, hrelays, hagents]
    have hone : ∀ n, (sweepTunnel env e name).tunnels.get n =
        if n = name ∧ (e.tunnels.get n).any (graceOver env) = true then none
        else e.tunnels.get n := by
      intro n
      rw [sweepTunnel_eq]
      by_cases hover : (e.tunnels.get name).any (graceOver env) = true
      · rw [if_pos hover, deleteTunnel_get]
        by_cases hn : n = name
        · simp [hn, hover]
        · simp [hn]
      · rw [if_neg hover]
        by_cases hn : n = name
        · simp [hn, hover]
        · simp [hn]
    have hrest : (sweepTunnel env e name).relays = e.relays ∧
        (sweepTunnel env e name).agents = e.agents := by
      rw [sweepTunnel_eq]
      split
      · exact deleteTunnel_rest e name
      · exact ⟨rfl, rfl⟩
    refine ⟨fun n => ?_, hrest⟩
    rw [hget, hone]
    by_cases hn : n = name
    · by_cases hover : (e.tunnels.get n).any (graceOver env) = true
      · simp [hn, hn ▸ hover]
      · simp [hn, hn ▸ hover]
    · simp [hn]

theorem range_nil {κ ν : Type} [DecidableEq κ] {key : ν → κ} {t : Table key}
    (h : ∀ k, t.get k = none) (o : RangeOrder) : t.range o = [] := by
  refine List.eq_nil_iff_forall_not_mem.mpr fun k hk => ?_
  obtain ⟨v, hv⟩ := (Table.mem_range t o k).mp hk
  rw [h k] at hv
  cases hv

/-- With neither relays nor agents a sweep only deletes what is past its grace. -/
theorem sweep_get (cfg : Config) (env : Env) (hrelays : ∀ id, e.relays.get id = none)
    (hagents : ∀ id, e.agents.get id = none) :
    (∀ n, (e.sweep cfg env).tunnels.get n =
      if (e.tunnels.get n).any (graceOver env) = true then none else e.tunnels.get n) ∧
    (e.sweep cfg env).relays = e.relays ∧ (e.sweep cfg env).agents = e.agents := by
  obtain ⟨hget, hrest⟩ := foldl_sweepTunnel env (e.tunnels.range env.order) e
  have hsweep : e.sweep cfg env =
      (e.tunnels.range env.order).foldl (sweepTunnel env) e := by
    unfold sweep
    rw [range_nil hrelays, List.foldl_nil]
    dsimp only
    rw [hrest.2, range_nil hagents, List.foldl_nil]
  rw [hsweep]
  refine ⟨fun n => ?_, hrest⟩
  rw [hget]
  refine if_congr ⟨fun h => h.2, fun h => ⟨?_, h⟩⟩ rfl rfl
  rw [Table.mem_range]
  cases hn : e.tunnels.get n with
  | none => simp [hn] at h
  | some t => exact ⟨t, rfl⟩

end Engine
end L8Tunnel.Claims
