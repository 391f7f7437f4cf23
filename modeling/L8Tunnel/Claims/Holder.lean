import L8Tunnel.Claims.Announce

/-! # A held name stays with its token -/

namespace L8Tunnel.Claims
open Base Engine

def HeldFor (n tokenId : String) (e : Engine) : Prop :=
  ∃ r, e.tunnels.get n = some r ∧ r.tokenId = tokenId

def Unheld (n : String) (e : Engine) : Prop := e.tunnels.get n = none

/-- A name goes from one token to another only through a state in which nobody
holds it. -/
def ChangesHandsFree (R : Engine → Env × Call → Engine → Prop) : Prop :=
  ∀ (as bs : List (Env × Call)) (s t : Engine) (n : String) (r r' : TunLiveTunnel),
    Run R Engine.new as s → Run R s bs t →
    s.tunnels.get n = some r → t.tunnels.get n = some r' → r.tokenId ≠ r'.tokenId →
    ∃ cs ds v, bs = cs ++ ds ∧ Run R s cs v ∧ Run R v ds t ∧ Unheld n v

/-- The condition on announcements: where a listing of a held name is taken, the
last listing of the name, which is the one that stays, carries the token the
name is held for. -/
def KeepsToken (cfg : Config) (e : Engine) (a : Env × Call) : Prop :=
  ∀ req, a.2 = .handle req → Announces cfg.withDefaults req →
    ∀ r ∈ e.tunnels.values, e.takes cfg.withDefaults req.relayId req.tunnels r.name = true →
      ∀ t ∈ (listings cfg.withDefaults req.tunnels r.name).getLast?, t.tokenId = r.tokenId

variable {cfg : Config} {req : TunClaimRequest} {e : Engine} {n tok : String} {env : Env}

theorem Engine.call_announce (h : Announces cfg req) (e : Engine) (env : Env) :
    e.call cfg env (.handle req) = (e.announce cfg env req).1 := by
  obtain ⟨hkind, hid, _⟩ := h
  simp only [call, handle, hkind, if_neg hid]

theorem unreported_tokenId (cfg : Config) (env : Env) (relayId : String) (r : TunLiveTunnel) :
    (unreported cfg env relayId r).tokenId = r.tokenId := by
  unfold unreported
  split
  · rfl
  · rfl

theorem heldFor_upkeep {e' : Engine} (h : HeldFor n tok e) (hu : Upkeep e e') :
    HeldFor n tok e' ∨ Unheld n e' := by
  obtain ⟨r, hr, htok⟩ := h
  cases hg : e'.tunnels.get n with
  | none => exact .inr hg
  | some r' =>
    obtain ⟨s, hs, hsame⟩ := hu.kept hg
    have hrs : s = r := Option.some.inj (hs.symm.trans hr)
    subst hrs
    exact .inl ⟨r', hg, hsame.tokenId.trans htok⟩

theorem heldFor_granted {recs : List TunLiveTunnel} (h : HeldFor n tok e)
    (hg : Granted e env req recs) :
    HeldFor n tok (recs.foldl setTunnel e) ∨ Unheld n (recs.foldl setTunnel e) := by
  obtain ⟨r, hr, htok⟩ := h
  cases hget : (recs.foldl setTunnel e).tunnels.get n with
  | none => exact .inr hget
  | some r' =>
    rcases foldl_setTunnel_get hget with ⟨hm, hn⟩ | ⟨hold, _⟩
    · have ha := hg.admitted r' hm
      have hholder := (ha.holder r (hn ▸ hr)).1
      exact .inl ⟨r', hget, (ha.tokenId.trans hholder.symm).trans htok⟩
    · have hrr : r' = r := Option.some.inj (hold.symm.trans hr)
      exact .inl ⟨r', hget, hrr ▸ htok⟩

theorem heldFor_announce (h : HeldFor n tok e) (hann : Announces cfg req)
    (hkeep : ∀ r ∈ e.tunnels.values, e.takes cfg req.relayId req.tunnels r.name = true →
      ∀ t ∈ (listings cfg req.tunnels r.name).getLast?, t.tokenId = r.tokenId) :
    HeldFor n tok (e.announce cfg env req).1 ∨ Unheld n (e.announce cfg env req).1 := by
  obtain ⟨r, hr, htok⟩ := h
  have hname : r.name = n := Table.key_of_get hr
  have hmem : r ∈ e.tunnels.values := (Table.mem_values _ _).mpr (hname.symm ▸ hr)
  have hget := announce_get hann e env n
  by_cases ht : e.takes cfg req.relayId req.tunnels n = true
  · rw [if_pos ht] at hget
    cases hl : (listings cfg req.tunnels n).getLast? with
    | none =>
      rw [hl] at hget
      exact .inr hget
    | some t =>
      rw [hl] at hget
      have htt : t.tokenId = r.tokenId := by
        refine hkeep r hmem ?_ t ?_
        · rw [hname]
          exact ht
        · rw [hname, hl]
          rfl
      exact .inl ⟨_, hget, htt.trans htok⟩
  · rw [if_neg ht, hr] at hget
    exact .inl ⟨_, hget, (unreported_tokenId cfg env req.relayId r).trans htok⟩

theorem heldFor_step (e : Engine) (a : Env × Call) (e' : Engine) (h : HeldFor n tok e)
    (hs : Guarded (KeepsToken cfg) (Step cfg) e a e') : HeldFor n tok e' ∨ Unheld n e' := by
  obtain ⟨hcond, hstep⟩ := hs
  have heq : e' = e.call cfg.withDefaults a.1 a.2 := hstep
  subst heq
  rcases e.call_cases cfg.withDefaults a.1 a.2 with
    hu | ⟨req, recs, _, _, hg, hsame⟩ | ⟨req, _, _, hc, hann, _, _, _⟩
  · exact heldFor_upkeep h hu
  · unfold HeldFor Unheld
    rw [hsame.tunnels]
    exact heldFor_granted h hg.toGranted
  · rw [hc, call_announce hann]
    exact heldFor_announce h hann (hcond req hc hann)

theorem changesHandsFree_of_keepsToken (cfg : Config) :
    ChangesHandsFree (Guarded (KeepsToken cfg) (Step cfg)) := by
  intro as bs s t n r r' _ hrun hr hr' hne
  -- the gap rule, with `HeldFor` as what only a gap can end
  have hstart : HeldFor n r.tokenId s := ⟨r, hr, rfl⟩
  have hend : ¬ HeldFor n r.tokenId t := by
    rintro ⟨q, hq, htok⟩
    have hqr : q = r' := Option.some.inj (hq.symm.trans hr')
    subst hqr
    exact hne htok.symm
  exact Run.gap heldFor_step hrun hstart hend

def httpTunnel (name agentId tokenId sessionId : String) : TunLiveTunnel :=
  { name := name, type := .http, agentId := agentId, tokenId := tokenId, sessionId := sessionId }

def claimHttp (relayId agentId tokenId sessionId name : String) : Env × Call :=
  ({ now := 0 }, .handle
    { kind := .claim, relayId := relayId, agentId := agentId, tokenId := tokenId
      sessionId := sessionId, tunnels := [httpTunnel name agentId tokenId sessionId] })

def parkHttp (relayId sessionId name : String) : Env × Call :=
  ({ now := 0 }, .handle
    { kind := .park, relayId := relayId, sessionId := sessionId, names := [name] })

def releaseHttp (relayId sessionId name : String) : Env × Call :=
  ({ now := 0 }, .handle
    { kind := .release, relayId := relayId, sessionId := sessionId, names := [name] })

def announceHttp (relayId agentId tokenId sessionId name : String) : Env × Call :=
  ({ now := 0 }, .handle
    { kind := .announce, relayId := relayId
      tunnels := [httpTunnel name agentId tokenId sessionId] })

/-- Relay r1 announces the name for its token, releases it, and another token
claims it: the state after the release is the gap. -/
theorem changesHands_after_release :
    ∃ cs ds v,
      [announceHttp "r1" "a1" "tok1" "s2" "n", releaseHttp "r1" "s2" "n",
        claimHttp "r0" "a2" "tok2" "s3" "n"] = cs ++ ds ∧
      Run (Guarded (KeepsToken sampleConfig) (Step sampleConfig))
        (new.after sampleConfig [claimHttp "r0" "a1" "tok1" "s1" "n"]) cs v ∧
      Run (Guarded (KeepsToken sampleConfig) (Step sampleConfig)) v ds
        (new.after sampleConfig [claimHttp "r0" "a1" "tok1" "s1" "n",
          announceHttp "r1" "a1" "tok1" "s2" "n", releaseHttp "r1" "s2" "n",
          claimHttp "r0" "a2" "tok2" "s3" "n"]) ∧
      Unheld "n" v := by
  have hother : ∀ (e : Engine) (env : Env) (req : TunClaimRequest), req.kind ≠ .announce →
      KeepsToken sampleConfig e (env, .handle req) := by
    intro e env req hkind req' heq hann
    cases heq
    exact absurd hann.1 hkind
  have hann : KeepsToken sampleConfig
      (new.after sampleConfig [claimHttp "r0" "a1" "tok1" "s1" "n"])
      (announceHttp "r1" "a1" "tok1" "s2" "n") := by
    intro req heq _
    cases heq
    decide
  exact changesHandsFree_of_keepsToken sampleConfig [claimHttp "r0" "a1" "tok1" "s1" "n"] _ _ _
    "n" _ _
    (.cons ⟨hother _ _ _ (by decide), rfl⟩ (.nil _))
    (.cons ⟨hann, rfl⟩ (.cons ⟨hother _ _ _ (by decide), rfl⟩
      (.cons ⟨hother _ _ _ (by decide), rfl⟩ (.nil _))))
    rfl rfl (by decide)

/-- While a name is parked for its token, another relay announces it for
another token: the engine takes the listing. -/
theorem announce_takes_parked_name : ¬ ChangesHandsFree (Step sampleConfig) := by
  intro h
  obtain ⟨cs, ds, v, hsplit, hcs, hds, hv⟩ :=
    h [claimHttp "r0" "a1" "tok1" "s1" "n", parkHttp "r0" "s1" "n"]
      [announceHttp "r1" "a2" "tok2" "s2" "n"] _ _ "n" _ _
      (run_after _ _ _) (run_after _ _ _) rfl rfl (by decide)
  cases cs with
  | nil =>
    cases hcs
    exact absurd hv (by unfold Unheld; decide)
  | cons c cs =>
    have htail : cs ++ ds = [] := (List.cons.inj hsplit).2.symm
    obtain ⟨rfl, rfl⟩ := List.append_eq_nil_iff.mp htail
    cases hds
    exact absurd hv (by unfold Unheld; decide)

end L8Tunnel.Claims
