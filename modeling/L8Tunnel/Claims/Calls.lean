import L8Tunnel.Base.Run
import L8Tunnel.Claims.Admit

/-! # Calls of the engine and its runs -/

namespace L8Tunnel.Claims
open Base

/-- A call of the engine: a request of a relay, the sweep, or an operator's command. -/
inductive Call where
  | handle (req : TunClaimRequest)
  | sweep
  | command (cmd : TunCtlCommand)

def Engine.call (e : Engine) (cfg : Config) (env : Env) : Call → Engine
  | .handle req => (e.handle cfg env req).1
  | .sweep => e.sweep cfg env
  | .command cmd => (e.command env cmd).1

def Step (cfg : Config) (e : Engine) (a : Env × Call) (e' : Engine) : Prop :=
  e' = e.call cfg.withDefaults a.1 a.2

def Engine.after (cfg : Config) (e : Engine) (as : List (Env × Call)) : Engine :=
  as.foldl (fun e a => e.call cfg.withDefaults a.1 a.2) e

theorem run_after (cfg : Config) (e : Engine) (as : List (Env × Call)) :
    Run (Step cfg) e as (e.after cfg as) := by
  induction as generalizing e with
  | nil => exact .nil e
  | cons a as ih => exact .cons rfl (ih _)

def accepts (cfg : Config) (t : TunLiveTunnel) : Bool :=
  !(t.simulated && !cfg.allowSimulated)

def Announces (cfg : Config) (req : TunClaimRequest) : Prop :=
  req.kind = .announce ∧ req.relayId ≠ "" ∧
    ¬ (req.relay.any (·.simulated) = true ∧ cfg.allowSimulated = false)

def MayStore (e : Engine) (cfg : Config) (req : TunClaimRequest) (t : TunLiveTunnel) : Prop :=
  t ∈ req.tunnels ∧ accepts cfg t = true ∧
    ∃ u ∈ req.tunnels, accepts cfg u = true ∧ u.name = t.name ∧
      e.conflictsWith req.relayId u = false

instance (cfg : Config) (req : TunClaimRequest) : Decidable (Announces cfg req) :=
  inferInstanceAs (Decidable (_ ∧ _ ∧ ¬ _))

instance (e : Engine) (cfg : Config) (req : TunClaimRequest) (t : TunLiveTunnel) :
    Decidable (MayStore e cfg req t) :=
  inferInstanceAs (Decidable (_ ∧ _ ∧ ∃ u ∈ req.tunnels, _))

namespace Engine

theorem conflictsWith_congr {e e' : Engine} {t : TunLiveTunnel} (relayId : String)
    (h : e'.tunnels.get t.name = e.tunnels.get t.name) :
    e'.conflictsWith relayId t = e.conflictsWith relayId t := by
  unfold conflictsWith
  rw [h]

theorem announceTunnels_stores (cfg : Config) (req : TunClaimRequest) (ts : List TunLiveTunnel)
    (a : Announcing) :
    ∃ us : List TunLiveTunnel,
      (ts.foldl (announceTunnel cfg req) a).engine =
        (us.map (listed req.relayId)).foldl setTunnel a.engine ∧
      ∀ t ∈ us, t ∈ ts ∧ accepts cfg t = true ∧ ∃ u ∈ ts, accepts cfg u = true ∧
        u.name = t.name ∧ a.engine.conflictsWith req.relayId u = false := by
  induction ts generalizing a with
  | nil => exact ⟨[], rfl, by simp⟩
  | cons t ts ih =>
    rw [List.foldl_cons]
    by_cases hsim : t.simulated ∧ cfg.allowSimulated = false
    · have hstep : announceTunnel cfg req a t = a := by simp [announceTunnel, hsim]
      obtain ⟨us, heng, hus⟩ := ih a
      rw [hstep]
      refine ⟨us, heng, fun v hv => ?_⟩
      obtain ⟨hm, hacc, u, hu, hrest⟩ := hus v hv
      exact ⟨List.mem_cons_of_mem t hm, hacc, u, List.mem_cons_of_mem t hu, hrest⟩
    have hacc : accepts cfg t = true := by
      cases hs : t.simulated <;> simp_all [accepts]
    by_cases hconf : a.engine.conflictsWith req.relayId t = true
    · have hstep : (announceTunnel cfg req a t).engine = a.engine := by
        simp [announceTunnel, hsim, hconf]
      obtain ⟨us, heng, hus⟩ := ih (announceTunnel cfg req a t)
      rw [hstep] at heng hus
      refine ⟨us, heng, fun v hv => ?_⟩
      obtain ⟨hm, hacc, u, hu, hrest⟩ := hus v hv
      exact ⟨List.mem_cons_of_mem t hm, hacc, u, List.mem_cons_of_mem t hu, hrest⟩
    · have hfree : a.engine.conflictsWith req.relayId t = false := by simpa using hconf
      have hstep : (announceTunnel cfg req a t).engine =
          a.engine.setTunnel (listed req.relayId t) := by
        simp [announceTunnel, hsim, hfree]
      obtain ⟨us, heng, hus⟩ := ih (announceTunnel cfg req a t)
      rw [hstep] at heng hus
      refine ⟨t :: us, heng, fun v hv => ?_⟩
      rcases List.mem_cons.mp hv with rfl | hv
      · exact ⟨List.mem_cons_self, hacc, v, List.mem_cons_self, hacc, rfl, hfree⟩
      obtain ⟨hm, hvacc, u, hu, huacc, hname, hu'⟩ := hus v hv
      refine ⟨List.mem_cons_of_mem t hm, hvacc, ?_⟩
      -- a later listing of the name just stored is taken because this one was
      by_cases hn : u.name = t.name
      · exact ⟨t, List.mem_cons_self, hacc, hn.symm.trans hname, hfree⟩
      · refine ⟨u, List.mem_cons_of_mem t hu, huacc, hname, ?_⟩
        rw [← hu']
        refine (conflictsWith_congr req.relayId ?_).symm
        rw [setTunnel_tunnels]
        exact Table.get_put_ne _ _ hn

/-- An announce stores nothing, or stores rows it may store and then only tidies up. -/
theorem announce_cases (e : Engine) (cfg : Config) (env : Env) (req : TunClaimRequest) :
    (e.announce cfg env req).1 = e ∨
      ¬ (req.relay.any (·.simulated) = true ∧ cfg.allowSimulated = false) ∧
      ∃ (e1 : Engine) (us : List TunLiveTunnel), SameTunnels e e1 ∧
        (∀ t ∈ us, MayStore e cfg req t) ∧
        Upkeep ((us.map (listed req.relayId)).foldl setTunnel e1) (e.announce cfg env req).1 := by
  by_cases href : req.relay.any (·.simulated) ∧ cfg.allowSimulated = false
  · exact .inl (by simp [announce, href])
  have hfirst : ∀ e1 : Engine, SameTunnels e e1 →
      ∃ us : List TunLiveTunnel, (∀ t ∈ us, MayStore e cfg req t) ∧
        (req.tunnels.foldl (announceTunnel cfg req) { engine := e1 }).engine =
          (us.map (listed req.relayId)).foldl setTunnel e1 := by
    intro e1 hs
    obtain ⟨us, heng, hus⟩ := announceTunnels_stores cfg req req.tunnels { engine := e1 }
    refine ⟨us, fun t ht => ?_, heng⟩
    obtain ⟨hm, hacc, u, hu, huacc, hname, hconf⟩ := hus t ht
    have hget : e.tunnels.get u.name = e1.tunnels.get u.name := by rw [hs.tunnels]
    exact ⟨hm, hacc, u, hu, huacc, hname, (conflictsWith_congr _ hget).trans hconf⟩
  have hrest : ∀ (a : Announcing), Upkeep a.engine
      (req.agents.foldl (announceAgent cfg req)
        (a.engine.parkUnreported cfg env req a.reported)) := fun a =>
    (parkUnreported_upkeep a.engine cfg env req a.reported).trans
      (Upkeep.foldl (announceAgent_upkeep cfg req) _ _)
  refine .inr ⟨href, ?_⟩
  cases hr : req.relay with
  | none =>
    obtain ⟨us, hus, heng⟩ := hfirst e ⟨rfl, rfl, rfl⟩
    refine ⟨e, us, ⟨rfl, rfl, rfl⟩, hus, ?_⟩
    rw [← heng]
    simpa [announce, hr] using hrest _
  | some r =>
    have hs := touchRelay_same e env req.relayId (some r)
    obtain ⟨us, hus, heng⟩ := hfirst _ hs
    refine ⟨_, us, hs, hus, ?_⟩
    rw [← heng]
    have href' : ¬ (r.simulated = true ∧ cfg.allowSimulated = false) := by simpa [hr] using href
    simpa [announce, hr, href'] using hrest _

theorem told_same (olds : List TunLiveTunnel) (e : Engine) :
    SameTunnels e (olds.foldl (fun e old => e.report (takenOver old)) e) := by
  induction olds generalizing e with
  | nil => exact ⟨rfl, rfl, rfl⟩
  | cons old olds ih =>
    have h := ih (e.report (takenOver old))
    exact ⟨h.tunnels, h.byPort, h.byDomain⟩

/-- What any call does to the tunnels: upkeep, an accepted claim or an announce. Every invariant
of the engine is proved from these three cases. -/
theorem call_cases (e : Engine) (cfg : Config) (env : Env) (c : Call) :
    Upkeep e (e.call cfg env c) ∨
      (∃ req recs, c = .handle req ∧ req.kind = .claim ∧ Accepted e cfg env req recs ∧
        SameTunnels (recs.foldl setTunnel e) (e.call cfg env c)) ∨
      ∃ (req : TunClaimRequest) (e1 : Engine) (us : List TunLiveTunnel), c = .handle req ∧
        Announces cfg req ∧ SameTunnels e e1 ∧ (∀ t ∈ us, MayStore e cfg req t) ∧
        Upkeep ((us.map (listed req.relayId)).foldl setTunnel e1) (e.call cfg env c) := by
  cases c with
  | sweep => exact .inl (sweep_upkeep e cfg env)
  | command cmd => exact .inl (command_upkeep e env cmd)
  | handle req =>
    by_cases hid : req.relayId = ""
    · have hsame : e.call cfg env (.handle req) = e := by simp [call, handle, hid]
      rw [hsame]
      exact .inl (.refl e)
    have hcall : e.call cfg env (.handle req) = (e.handle cfg env req).1 := rfl
    rw [hcall]
    unfold handle
    rw [if_neg hid]
    cases hk : req.kind with
    | claim =>
      rcases e.claim_cases cfg env req with ⟨r, _, hr⟩ | ⟨recs, olds, hg, _, _, hc⟩
      · exact .inl (by simpa [hr] using Upkeep.refl e)
      · exact .inr (.inl ⟨req, recs, rfl, hk, hg, by simpa [hc] using told_same olds _⟩)
    | announce =>
      rcases e.announce_cases cfg env req with hsame | ⟨href, e1, us, hs, hus, hup⟩
      · exact .inl (by simpa [hsame] using Upkeep.refl e)
      · exact .inr (.inr ⟨req, e1, us, rfl, ⟨hk, hid, href⟩, hs, hus, hup⟩)
    | park => exact .inl (park_upkeep e cfg env req)
    | release => exact .inl (release_upkeep e req)
    | heartbeat => exact .inl (heartbeat_upkeep e env req)
    | agentUp => exact .inl (agentUp_upkeep e cfg env req)
    | agentDown => exact .inl (agentDown_upkeep e cfg env req)
    | unspecified => exact .inl (.refl e)
    | unknown code => exact .inl (.refl e)

end Engine

def sampleConfig : Config :=
  { rules := { baseDomain := "example.com", portMin := 22000, portMax := 22999 } }

/-- The record is of an accepted CLAIM and one of the records it answers with: a listing
of the request as the rules made it, in the relay's, agent's, token's and session's name. -/
structure FromClaim (cfg : Config) (env : Env) (u : Engine) (req : TunClaimRequest)
    (rec : TunLiveTunnel) : Prop where
  kind : req.kind = .claim
  accepted : (u.claim cfg.withDefaults env req).2.error = .unspecified
  answered : rec ∈ (u.claim cfg.withDefaults env req).2.tunnels
  listing : ∃ spec ∈ req.tunnels,
    rec = { Engine.claimed env req spec with publicPort := rec.publicPort }
  admitted : Admitted u env req rec

/-- But for its state, grace and counters, the record is from a CLAIM of the run that was
accepted in the state of that moment, or listed in an ANNOUNCE. -/
def FromRequest (cfg : Config) (as : List (Env × Call)) (r : TunLiveTunnel) : Prop :=
  ∃ before u env req later old, as = before ++ (env, .handle req) :: later ∧
    Run (Step cfg) Engine.new before u ∧ Same old r ∧
    (FromClaim cfg env u req old ∨
      req.kind = .announce ∧ ∃ t ∈ req.tunnels, old = Engine.listed req.relayId t)

theorem tunnel_from_request {cfg : Config} {as : List (Env × Call)} {e : Engine} {n : String}
    {r : TunLiveTunnel} (hrun : Run (Step cfg) Engine.new as e) (hr : e.tunnels.get n = some r) :
    FromRequest cfg as r := by
  rcases hrun.origin (P := fun e => ∃ old, e.tunnels.get n = some old ∧ Same old r)
    ⟨r, hr, .refl r⟩ with
    ⟨old, hold, -⟩ | ⟨before, ⟨env, c⟩, later, u, v, has, hbefore, rfl, hu, old, hold, hsame⟩
  · cases hold
  rcases u.call_cases cfg.withDefaults env c with
    hup | ⟨req, recs, rfl, hkind, hg, htun⟩ | ⟨req, e1, us, rfl, hann, htun, hus, hup⟩
  · obtain ⟨first, hfirst, hkept⟩ := hup.kept hold
    exact absurd ⟨first, hfirst, hkept.trans hsame⟩ hu
  · rw [htun.tunnels] at hold
    rcases Engine.foldl_setTunnel_get hold with ⟨hmem, -⟩ | ⟨hget, -⟩
    · obtain ⟨spec, hspec, staged, hchecked⟩ := hg.listing old hmem
      have hclaim : FromClaim cfg env u req old := by
        refine ⟨hkind, ?_, ?_, ⟨spec, hspec, hchecked.record⟩, hg.admitted old hmem⟩ <;>
          rw [hg.answer]
        exact hmem
      exact ⟨before, u, env, req, later, old, has, hbefore, hsame, .inl hclaim⟩
    · exact absurd ⟨old, hget, hsame⟩ hu
  · -- what an announcement brings in may be parked before it ends
    obtain ⟨first, hfirst, hkept⟩ := hup.kept hold
    rcases Engine.foldl_setTunnel_get hfirst with ⟨hmem, -⟩ | ⟨hget, -⟩
    · obtain ⟨t, ht, rfl⟩ := List.mem_map.mp hmem
      exact ⟨before, u, env, req, later, _, has, hbefore, hkept.trans hsame,
        .inr ⟨hann.1, t, (hus t ht).1, rfl⟩⟩
    · exact absurd ⟨first, htun.tunnels ▸ hget, hkept.trans hsame⟩ hu

def announcesThenClaims : List (Env × Call) :=
  [({ now := 0 }, .handle
    { kind := .announce, relayId := "r0", tunnels := [{ name := "a", tokenId := "t" }] }),
   ({ now := 0 }, .handle
    { kind := .claim, relayId := "r1", sessionId := "s", agentId := "A", tokenId := "t"
      tunnels := [{ name := "b", type := .tcp, publicPort := 22005 }] })]

theorem tunnel_from_request_both : ∃ r r',
    (Engine.new.after sampleConfig announcesThenClaims).tunnels.get "a" = some r ∧
      FromRequest sampleConfig announcesThenClaims r ∧
      (Engine.new.after sampleConfig announcesThenClaims).tunnels.get "b" = some r' ∧
      r'.agentId = "A" ∧ r'.publicPort = 22005 ∧ FromRequest sampleConfig announcesThenClaims r' :=
  ⟨_, _, rfl, tunnel_from_request (n := "a") (run_after _ _ _) rfl, rfl, rfl, rfl,
    tunnel_from_request (n := "b") (run_after _ _ _) rfl⟩

end L8Tunnel.Claims
