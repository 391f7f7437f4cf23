import L8Tunnel.Claims.Announce

/-! # Traffic of a session that was taken over -/

namespace L8Tunnel.Claims
open Base

def FromSession (s : String) (req : TunClaimRequest) : Prop :=
  (req.kind = .park ∨ req.kind = .release ∨ req.kind = .agentDown) ∧ req.sessionId = s ∨
    req.kind = .heartbeat

/-- The record of `n` is still `r` but for its counters, and the indexes give its
port and its domains to `n`. -/
structure Unharmed (n : String) (r : TunLiveTunnel) (e : Engine) : Prop where
  record : ∃ r', e.tunnels.get n = some r' ∧ r'.relayId = r.relayId ∧ r'.sessionId = r.sessionId ∧
    r'.agentId = r.agentId ∧ r'.tokenId = r.tokenId ∧ r'.state = r.state ∧
    r'.graceUntil = r.graceUntil ∧ r'.publicPort = r.publicPort ∧ r'.domains = r.domains
  port : ∀ p ∈ Engine.ports r, e.byPort.get p = some n
  domain : ∀ d ∈ r.domains, e.byDomain.get d = some n

def Touchable (s : String) (t : TunLiveTunnel) : Prop :=
  t.relayId ≠ "" ∧ (t.sessionId = s ∨ t.state = .active)

def Apart (r t : TunLiveTunnel) : Prop :=
  (∀ p ∈ Engine.ports r, p ∉ Engine.ports t) ∧ ∀ d ∈ r.domains, d ∉ t.domains

def NoRival (s n : String) (r : TunLiveTunnel) (e : Engine) : Prop :=
  ∀ m t, m ≠ n → e.tunnels.get m = some t → Touchable s t → Apart r t

/-- The record is as it was, and no record of the stale relay can harm it. -/
structure Safe (s n : String) (r : TunLiveTunnel) (e : Engine) : Prop where
  unharmed : Unharmed n r e
  alone : NoRival s n r e

variable {s n : String} {r : TunLiveTunnel} {e e' : Engine} {cfg : Config} {env : Env}
  {req : TunClaimRequest}

variable {t t' : TunLiveTunnel} {m : String}

theorem Apart.same (h : Apart r t) (hs : Same t t') : Apart r t' := by
  unfold Apart
  rw [hs.ports, hs.domains]
  exact h

theorem Safe.frame (h : Safe s n r e) (hs : SameTunnels e e') : Safe s n r e' where
  unharmed := by
    obtain ⟨hrec, hport, hdom⟩ := h.unharmed
    refine ⟨?_, ?_, ?_⟩
    · rw [hs.tunnels]
      exact hrec
    · rw [hs.byPort]
      exact hport
    · rw [hs.byDomain]
      exact hdom
  alone := by
    unfold NoRival
    rw [hs.tunnels]
    exact h.alone

theorem Safe.rewrite (h : Safe s n r e) (hget : e.tunnels.get t'.name = some t) (hs : Same t t')
    (hmine : t'.name = n → t'.state = t.state ∧ t'.graceUntil = t.graceUntil)
    (hother : t'.name ≠ n → Touchable s t) : Safe s n r (e.setTunnel t') := by
  obtain ⟨⟨r', hr', hrelay, hsess, hagent, htok, hstate, hgrace, hport, hdom⟩, hports, hdoms⟩ :=
    h.unharmed
  by_cases hn : t'.name = n
  · rw [hn, hr'] at hget
    cases hget
    have hp : Engine.ports t' = Engine.ports r := by
      rw [hs.ports]
      unfold Engine.ports
      rw [hport]
    have hd : t'.domains = r.domains := hs.domains.trans hdom
    have hkey : e.tunnels.get t'.name = some t := hn ▸ hr'
    refine ⟨⟨⟨t', ?_, hs.relayId.trans hrelay, hs.sessionId.trans hsess, ?_, hs.tokenId.trans htok,
      (hmine hn).1.trans hstate, (hmine hn).2.trans hgrace, ?_, hd⟩, ?_, ?_⟩, ?_⟩
    · rw [Engine.setTunnel_tunnels, ← hn]
      exact Table.get_put_self _ t'
    · rw [hs, hagent]
    · rw [hs, hport]
    · intro p hmem
      rw [Engine.setTunnel_byPort, Index.get_update_same hkey hs.ports, hp, if_pos hmem, hn]
    · intro d hmem
      rw [Engine.setTunnel_byDomain, Index.get_update_same hkey hs.domains, hd, if_pos hmem, hn]
    · intro m u hm hu htouch
      rw [Engine.setTunnel_tunnels, Table.get_put_ne _ _ (hn ▸ hm)] at hu
      exact h.alone m u hm hu htouch
  · have hap : Apart r t' := (h.alone _ t hn hget (hother hn)).same hs
    refine ⟨⟨⟨r', ?_, hrelay, hsess, hagent, htok, hstate, hgrace, hport, hdom⟩, ?_, ?_⟩, ?_⟩
    · rw [Engine.setTunnel_tunnels, Table.get_put_ne _ _ (Ne.symm hn)]
      exact hr'
    · intro p hmem
      rw [Engine.setTunnel_byPort, Index.get_update_same hget hs.ports, if_neg (hap.1 p hmem)]
      exact hports p hmem
    · intro d hmem
      rw [Engine.setTunnel_byDomain, Index.get_update_same hget hs.domains, if_neg (hap.2 d hmem)]
      exact hdoms d hmem
    · intro m u hm hu htouch
      rw [Engine.setTunnel_tunnels, Table.get_put] at hu
      split at hu
      · cases hu
        exact hap
      · exact h.alone m u hm hu htouch

theorem Safe.delete (h : Safe s n r e) (hm : m ≠ n) : Safe s n r (e.deleteTunnel m) := by
  obtain ⟨⟨r', hr', hrest⟩, hports, hdoms⟩ := h.unharmed
  cases hg : e.tunnels.get m with
  | none =>
    have hsame : e.deleteTunnel m = e := by
      unfold Engine.deleteTunnel
      rw [hg]
    rw [hsame]
    exact h
  | some t =>
    have hne : ¬ some n = some m := fun heq => hm (Option.some.inj heq).symm
    refine ⟨⟨⟨r', ?_, hrest⟩, ?_, ?_⟩, ?_⟩
    · rw [Engine.deleteTunnel_get, if_neg (Ne.symm hm)]
      exact hr'
    · intro p hmem
      rw [Engine.deleteTunnel_byPort hg, Index.get_drop, hports p hmem, if_neg fun h => hne h.2]
    · intro d hmem
      rw [Engine.deleteTunnel_byDomain hg, Index.get_drop, hdoms d hmem, if_neg fun h => hne h.2]
    · intro k u hk hu htouch
      rw [Engine.deleteTunnel_get] at hu
      split at hu
      · cases hu
      · exact h.alone k u hk hu htouch

theorem Safe.rewriteOne (h : Safe s n r e) (hne : r.sessionId ≠ s)
    {upd : TunLiveTunnel → Option TunLiveTunnel} (hupd : ∀ t t', upd t = some t' → Same t t')
    (hcase : ∀ t t', upd t = some t' → t.relayId ≠ "" ∧ (t.sessionId = s ∨
      t.state = .active ∧ t'.state = t.state ∧ t'.graceUntil = t.graceUntil)) (name : String) :
    Safe s n r (Engine.rewriteOne upd e name) := by
  unfold Engine.rewriteOne
  cases hg : e.tunnels.get name with
  | none => exact h
  | some t =>
    dsimp only
    cases hu : upd t with
    | none => exact h
    | some t' =>
      have hs := hupd t t' hu
      obtain ⟨hrelay, hwhy⟩ := hcase t t' hu
      have hname : t'.name = name := hs.name.trans (Table.key_of_get hg)
      refine h.rewrite (hname ▸ hg) hs (fun hn => ?_) fun _ => ⟨hrelay, hwhy.imp_right (·.1)⟩
      -- the record of `n` is not the session's
      obtain ⟨r', hr', _, hsess, _⟩ := h.unharmed.record
      rw [← hn, hname, hg] at hr'
      cases hr'
      exact (hwhy.resolve_left fun heq => hne (hsess.symm.trans heq)).2

theorem Safe.park (h : Safe s n r e) (hne : r.sessionId ≠ s) (hs : s ≠ "")
    (hid : req.relayId ≠ "") (hreq : req.sessionId = s) : Safe s n r (e.park cfg env req) := by
  unfold Engine.park
  refine List.foldlRecOn _ _ h fun e h name _ => h.rewriteOne hne ?_ ?_ name
  · intro t t' hu
    split at hu
    · cases hu
      rfl
    · cases hu
  · intro t t' hu
    split at hu
    next hserved =>
      simp only [Engine.servedBy, hreq, hs, false_or, decide_eq_true_eq] at hserved
      exact ⟨hserved.1 ▸ hid, .inl hserved.2⟩
    · cases hu

theorem Safe.release (h : Safe s n r e) (hne : r.sessionId ≠ s) (hs : s ≠ "")
    (hreq : req.sessionId = s) : Safe s n r (e.release req) := by
  unfold Engine.release
  refine List.foldlRecOn _ _ h fun e h name _ => ?_
  split
  next hserved =>
    refine h.delete ?_
    rintro rfl
    obtain ⟨r', hr', _, hsess, _⟩ := h.unharmed.record
    simp only [hr', Option.any_some, Engine.servedBy, hreq, hs, false_or, decide_eq_true_eq]
      at hserved
    exact hne (hsess.symm.trans hserved.2)
  · exact h

theorem Safe.heartbeat (h : Safe s n r e) (hne : r.sessionId ≠ s) (hid : req.relayId ≠ "") :
    Safe s n r (e.heartbeat env req) := by
  unfold Engine.heartbeat
  refine List.foldlRecOn _ _ (List.foldlRecOn _ _ (h.frame (Engine.touchRelay_same ..)) ?_) ?_
  · intro e h t _
    refine h.rewriteOne hne ?_ ?_ t.name
    · intro u u' hu
      split at hu
      · cases hu
      split at hu
      · cases hu
      · cases hu
        rfl
    · intro u u' hu
      split at hu
      · cases hu
      next hmeant =>
      simp only [not_or, not_not] at hmeant
      split at hu
      · cases hu
      · cases hu
        exact ⟨hmeant.1 ▸ hid, .inr ⟨hmeant.2, rfl, rfl⟩⟩
  · intro e h a _
    refine h.frame ?_
    unfold Engine.heartbeatAgent
    split
    · exact ⟨rfl, rfl, rfl⟩
    split
    · exact ⟨rfl, rfl, rfl⟩
    · exact Engine.setAgent_same ..

theorem Safe.agentDown (h : Safe s n r e) : Safe s n r (e.agentDown cfg env req) := by
  refine h.frame ?_
  unfold Engine.agentDown
  split
  · exact ⟨rfl, rfl, rfl⟩
  split
  · exact ⟨rfl, rfl, rfl⟩
  · exact Engine.downAgent_same ..

theorem Safe.handle (h : Safe s n r e) (hne : r.sessionId ≠ s) (hs : s ≠ "")
    (hreq : FromSession s req) : Safe s n r (e.handle cfg env req).1 := by
  unfold Engine.handle
  split
  · exact h
  next hid =>
  rcases hreq with ⟨hk | hk | hk, hsess⟩ | hk
  all_goals rw [hk]
  · exact h.park hne hs hid hsess
  · exact h.release hne hs hsess
  · exact h.agentDown
  · exact h.heartbeat hne hid

def StaleTraffic (s : String) (as : List (Env × Call)) : Prop :=
  ∀ a ∈ as, ∃ req, a.2 = .handle req ∧ FromSession s req

theorem Safe.run (h : Safe s n r e) (hne : r.sessionId ≠ s) (hs : s ≠ "")
    {as : List (Env × Call)} (hrun : Run (Step cfg) e as e') (hstale : StaleTraffic s as) :
    Safe s n r e' := by
  induction hrun with
  | nil => exact h
  | cons hstep _ ih =>
    obtain ⟨hfirst, hrest⟩ := List.forall_mem_cons.mp hstale
    obtain ⟨req, hcall, hreq⟩ := hfirst
    rw [Step, hcall] at hstep
    refine ih ?_ hrest
    rw [hstep]
    exact h.handle hne hs hreq

theorem Touchable.stored (h : Touchable s t) (hget : e.tunnels.get m = some t) (cfg : Config)
    (env : Env) :
    ∃ (req : TunClaimRequest) (e1 : Engine) (t' : TunLiveTunnel), FromSession s req ∧
      SameTunnels e e1 ∧ Same t t' ∧ (e.handle cfg env req).1 = e1.setTunnel t' := by
  rcases h.2 with hsess | hact
  · refine ⟨{ kind := .park, relayId := t.relayId, sessionId := s, names := [m] }, e,
      Engine.parked (unix (env.now + cfg.grace)) t, .inl ⟨.inl rfl, rfl⟩, ⟨rfl, rfl, rfl⟩, rfl, ?_⟩
    have hserved : Engine.servedBy
        { kind := .park, relayId := t.relayId, sessionId := s, names := [m] } t = true := by
      simp [Engine.servedBy, hsess]
    simp [Engine.handle, h.1, Engine.park, Engine.rewriteOne, hget, hserved]
  · refine ⟨{ kind := .heartbeat, relayId := t.relayId
              tunnels := [{ t with activeConns := t.activeConns + 1 }] },
      e.touchRelay env t.relayId none, { t with activeConns := t.activeConns + 1 }, .inr rfl,
      Engine.touchRelay_same .., rfl, ?_⟩
    have hname : t.name = m := Table.key_of_get hget
    have htouched : (e.touchRelay env t.relayId none).tunnels.get t.name = some t := by
      rw [(Engine.touchRelay_same e env t.relayId none).tunnels, hname]
      exact hget
    have hmore : ¬ t.activeConns = t.activeConns + 1 := by omega
    simp [Engine.handle, h.1, Engine.heartbeat, Engine.heartbeatTunnel, Engine.rewriteOne,
      htouched, hact, hmore]

theorem Unharmed.apart {e1 : Engine} (h : Unharmed n r (e1.setTunnel t'))
    (hget : e1.tunnels.get m = some t) (hs : Same t t') (hm : m ≠ n) : Apart r t := by
  have hname : t'.name = m := hs.name.trans (Table.key_of_get hget)
  have hkey : e1.tunnels.get t'.name = some t := hname ▸ hget
  have hne : ¬ some t'.name = some n := fun heq => hm (hname.symm.trans (Option.some.inj heq))
  refine ⟨fun p hp hshared => hne ?_, fun d hd hshared => hne ?_⟩
  · have hix := h.port p hp
    rwa [Engine.setTunnel_byPort, Index.get_update_same hkey hs.ports, if_pos (hs.ports ▸ hshared)]
      at hix
  · have hix := h.domain d hd
    rwa [Engine.setTunnel_byDomain, Index.get_update_same hkey hs.domains,
      if_pos (hs.domains ▸ hshared)] at hix

/-- The traffic of a session does not harm the record of another one, in any
order and number, exactly if no record it may store again lists the same port
or domain. -/
theorem stale_harmless_iff_noRival (cfg : Config) (e : Engine) (n s : String) (r : TunLiveTunnel)
    (hr : e.tunnels.get n = some r) (hne : s ≠ r.sessionId) (hs : s ≠ "")
    (hport : ∀ p ∈ Engine.ports r, e.byPort.get p = some n)
    (hdom : ∀ d ∈ r.domains, e.byDomain.get d = some n) :
    (∀ as e', StaleTraffic s as → Run (Step cfg) e as e' → Unharmed n r e') ↔ NoRival s n r e := by
  have hstart : Unharmed n r e :=
    ⟨⟨r, hr, rfl, rfl, rfl, rfl, rfl, rfl, rfl, rfl⟩, hport, hdom⟩
  constructor
  · intro hall m t hm ht htouch
    obtain ⟨req, e1, t', hreq, hsame, hs', hstep⟩ :=
      htouch.stored ht cfg.withDefaults { now := 0 }
    have hstale : StaleTraffic s [({ now := 0 }, .handle req)] := by
      intro a ha
      rw [List.mem_singleton.mp ha]
      exact ⟨req, rfl, hreq⟩
    have hafter := hall _ _ hstale (.cons rfl (.nil _))
    have hcall : e.call cfg.withDefaults { now := 0 } (.handle req) = e1.setTunnel t' := hstep
    rw [hcall] at hafter
    exact hafter.apart (hsame.tunnels ▸ ht) hs' hm
  · intro halone as e' hstale hrun
    exact (Safe.run ⟨hstart, halone⟩ (Ne.symm hne) hs hrun hstale).unharmed

def takenOverTunnel (relayId sessionId : String) : TunLiveTunnel :=
  { name := "n", type := .tcp, publicPort := 22000, relayId := relayId, agentId := "a1"
    tokenId := "tok1", sessionId := sessionId, state := .active }

theorem takenOverTunnel_ports {relayId sessionId : String} {p : Int32}
    (hp : p ∈ Engine.ports (takenOverTunnel relayId sessionId)) : p = 22000 :=
  ((Engine.mem_ports _ p).mp hp).1

def takenOver : Engine :=
  (Engine.new.setTunnel (takenOverTunnel "r0" "s0")).setTunnel (takenOverTunnel "r1" "s1")

theorem takeover_unharmed :
    takenOver.tunnels.get "n" = some (takenOverTunnel "r1" "s1") ∧
    ∀ as e', StaleTraffic "s0" as → Run (Step sampleConfig) takenOver as e' →
      Unharmed "n" (takenOverTunnel "r1" "s1") e' := by
  have hport : ∀ p ∈ Engine.ports (takenOverTunnel "r1" "s1"),
      takenOver.byPort.get p = some "n" := by
    intro p hp
    rw [takenOverTunnel_ports hp]
    decide
  have hiff := stale_harmless_iff_noRival sampleConfig takenOver "n" "s0"
    (takenOverTunnel "r1" "s1") rfl (by decide) (by decide) hport (by decide)
  refine ⟨rfl, hiff.mpr ?_⟩
  intro m t hm ht _
  simp [takenOver, Engine.new, Table.get_put, takenOverTunnel, hm] at ht

def portShared : Engine :=
  Engine.new.after sampleConfig
    [({ now := 0 }, .handle
      { kind := .announce, relayId := "r0"
        tunnels := [{ name := "n", type := .http, agentId := "a1", tokenId := "tok1", sessionId := "s0" },
          { name := "m", type := .tcp, publicPort := 22000, agentId := "a1", tokenId := "tok1"
            sessionId := "s0" }] }),
    ({ now := 0 }, .handle
      { kind := .announce, relayId := "r1"
        tunnels := [{ name := "n", type := .tcp, publicPort := 22000, agentId := "a1"
                      tokenId := "tok1", sessionId := "s1" }] })]

theorem stale_park_takes_port :
    portShared.tunnels.get "n" = some (takenOverTunnel "r1" "s1") ∧
      Unharmed "n" (takenOverTunnel "r1" "s1") portShared ∧
      ¬ ∀ as e', StaleTraffic "s0" as → Run (Step sampleConfig) portShared as e' →
        Unharmed "n" (takenOverTunnel "r1" "s1") e' := by
  have hrec : portShared.tunnels.get "n" = some (takenOverTunnel "r1" "s1") := by decide
  have hport : ∀ p ∈ Engine.ports (takenOverTunnel "r1" "s1"),
      portShared.byPort.get p = some "n" := by
    intro p hp
    rw [takenOverTunnel_ports hp]
    decide
  refine ⟨hrec, ⟨⟨_, hrec, rfl, rfl, rfl, rfl, rfl, rfl, rfl, rfl⟩, hport, by decide⟩, ?_⟩
  intro hall
  have hafter := hall [({ now := 0 }, .handle
    { kind := .park, relayId := "r0", sessionId := "s0", names := ["n", "m"] })] _
    (fun a ha => by rw [List.mem_singleton.mp ha]; exact ⟨_, rfl, .inl ⟨.inl rfl, rfl⟩⟩)
    (run_after sampleConfig portShared _)
  exact absurd (hafter.port 22000 (by decide)) (by decide)

end L8Tunnel.Claims
