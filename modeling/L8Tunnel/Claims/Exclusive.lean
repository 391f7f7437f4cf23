import L8Tunnel.Claims.Calls

/-! # Ports and domains have one owner -/

namespace L8Tunnel.Claims
open Base

/-- No port or custom domain has two owners, and the indexes say who it is. -/
structure Exclusive (e : Engine) : Prop where
  port : ∀ n m r s, e.tunnels.get n = some r → e.tunnels.get m = some s → n ≠ m →
    r.publicPort ≠ 0 → r.publicPort ≠ s.publicPort
  domain : ∀ n m r s, e.tunnels.get n = some r → e.tunnels.get m = some s → n ≠ m →
    ∀ d ∈ r.domains, d ∉ s.domains
  byPort : ∀ p n, p ≠ 0 →
    (e.byPort.get p = some n ↔ ∃ r, e.tunnels.get n = some r ∧ r.publicPort = p)
  byDomain : ∀ d n, e.byDomain.get d = some n ↔ ∃ r, e.tunnels.get n = some r ∧ d ∈ r.domains

/-- Both indexes are exact, and a record without a name lists nothing: the
engine's tests read an owner `""` as no owner. -/
structure Indexed (e : Engine) : Prop where
  ports : Index.Exact Engine.ports e.tunnels e.byPort
  domains : Index.Exact TunLiveTunnel.domains e.tunnels e.byDomain
  unnamed : ∀ r, e.tunnels.get "" = some r → Engine.ports r = [] ∧ r.domains = []

namespace Indexed
variable {e e' : Engine}

theorem exclusive (h : Indexed e) : Exclusive e where
  port n m r s hr hs hne hp heq := by
    have hpr : r.publicPort ∈ Engine.ports r := (Engine.mem_ports r _).mpr ⟨rfl, hp⟩
    have hps : r.publicPort ∈ Engine.ports s := (Engine.mem_ports s _).mpr ⟨heq, hp⟩
    exact hne (h.ports.exclusive hr hs hpr hps)
  domain n m r s hr hs hne d hd hd' := hne (h.domains.exclusive hr hs hd hd')
  byPort p n hp := by
    rw [h.ports p n]
    refine exists_congr fun r => and_congr_right fun _ => ?_
    rw [Engine.mem_ports]
    exact ⟨fun hr => hr.1.symm, fun hr => ⟨hr.symm, hp⟩⟩
  byDomain := h.domains

theorem new : Indexed Engine.new :=
  ⟨Index.exact_empty, Index.exact_empty, fun r h => by simp [Engine.new] at h⟩

theorem same (h : Indexed e) (hs : SameTunnels e e') : Indexed e' := by
  obtain ⟨ht, hp, hd⟩ := hs
  refine ⟨?_, ?_, ?_⟩
  · rw [ht, hp]
    exact h.ports
  · rw [ht, hd]
    exact h.domains
  · rw [ht]
    exact h.unnamed

theorem store (h : Indexed e) (recs : List TunLiveTunnel)
    (hp : ∀ v ∈ recs, ∀ p ∈ Engine.ports v, ∀ k, e.byPort.get p = some k → k = v.name)
    (hd : ∀ v ∈ recs, ∀ d ∈ v.domains, ∀ k, e.byDomain.get d = some k → k = v.name)
    (hpp : ∀ v ∈ recs, ∀ w ∈ recs, ∀ p, p ∈ Engine.ports v → p ∈ Engine.ports w →
      v.name = w.name)
    (hdd : ∀ v ∈ recs, ∀ w ∈ recs, ∀ d, d ∈ v.domains → d ∈ w.domains → v.name = w.name)
    (hn : ∀ v ∈ recs, v.name = "" → Engine.ports v = [] ∧ v.domains = []) :
    Indexed (recs.foldl Engine.setTunnel e) where
  ports := Index.Exact.foldl_put Engine.setTunnel_tunnels Engine.setTunnel_byPort recs e
    h.ports hp hpp
  domains := Index.Exact.foldl_put Engine.setTunnel_tunnels Engine.setTunnel_byDomain recs e
    h.domains hd hdd
  unnamed := by
    intro r hr
    rcases Engine.foldl_setTunnel_get hr with ⟨hm, hname⟩ | ⟨hget, _⟩
    · exact hn r hm hname
    · exact h.unnamed r hget

theorem rewrite (h : Indexed e) {old rec : TunLiveTunnel}
    (hg : e.tunnels.get rec.name = some old) (hs : Same old rec) : Indexed (e.setTunnel rec) := by
  refine h.store [rec] ?_ ?_ ?_ ?_ ?_
  all_goals simp only [List.forall_mem_singleton]
  · intro p hp k hk
    rw [hs.ports] at hp
    exact Option.some.inj (hk.symm.trans ((h.ports p rec.name).mpr ⟨old, hg, hp⟩))
  · intro d hd k hk
    rw [hs.domains] at hd
    exact Option.some.inj (hk.symm.trans ((h.domains d rec.name).mpr ⟨old, hg, hd⟩))
  · exact fun _ _ _ => trivial
  · exact fun _ _ _ => trivial
  · intro hname
    rw [hs.ports, hs.domains]
    exact h.unnamed old (hname ▸ hg)

theorem delete (h : Indexed e) (name : String) : Indexed (e.deleteTunnel name) := by
  cases hg : e.tunnels.get name with
  | none =>
    have hsame : e.deleteTunnel name = e := by simp [Engine.deleteTunnel, hg]
    rw [hsame]
    exact h
  | some rec =>
    have ht : (e.deleteTunnel name).tunnels = e.tunnels.del name := by
      simp only [Engine.deleteTunnel, hg]
      rfl
    refine ⟨?_, ?_, ?_⟩
    · rw [ht, Engine.deleteTunnel_byPort hg]
      exact h.ports.del name
    · rw [ht, Engine.deleteTunnel_byDomain hg]
      exact h.domains.del name
    · intro r hr
      rw [Engine.deleteTunnel_get] at hr
      split at hr
      · cases hr
      · exact h.unnamed r hr

theorem upkeep (h : Indexed e) (hu : Upkeep e e') : Indexed e' := by
  induction hu with
  | refl => exact h
  | frame _ hs ih => exact ih.same hs
  | rewrite _ hg hs ih => exact ih.rewrite hg hs
  | delete name _ ih => exact ih.delete name

theorem owner_eq {ρ : Type} [DecidableEq ρ] {res : TunLiveTunnel → List ρ} {ix : GoMap ρ String}
    (hx : Index.Exact res e.tunnels ix)
    (hun : ∀ r, e.tunnels.get "" = some r → res r = []) {x : ρ} {name k : String}
    (hfree : OwnOrFree ix x name) (hk : ix.get x = some k) : k = name := by
  unfold OwnOrFree at hfree
  rw [nameAt_of_get hk] at hfree
  rcases hfree with rfl | rfl
  · obtain ⟨r, hr, hmem⟩ := (hx x "").mp hk
    rw [hun r hr] at hmem
    cases hmem
  · rfl

theorem granted (h : Indexed e) {env : Env} {req : TunClaimRequest} {recs : List TunLiveTunnel}
    (hg : Granted e env req recs) : Indexed (recs.foldl Engine.setTunnel e) := by
  refine h.store recs ?_ ?_ hg.ports hg.domains ?_
  · intro v hv p hp k hk
    exact owner_eq h.ports (fun r hr => (h.unnamed r hr).1) ((hg.admitted v hv).port p hp) hk
  · intro v hv d hd k hk
    exact owner_eq h.domains (fun r hr => (h.unnamed r hr).2) ((hg.admitted v hv).domain d hd) hk
  · intro v hv hname
    exact absurd hname (hg.admitted v hv).named

end Indexed

/-- A listed tunnel takes no port and no domain of another record or listing. -/
structure Free (e : Engine) (cfg : Config) (req : TunClaimRequest) (t : TunLiveTunnel) : Prop where
  port : ∀ r ∈ e.tunnels.values, t.publicPort ≠ 0 → r.publicPort = t.publicPort → r.name = t.name
  domain : ∀ r ∈ e.tunnels.values, ∀ d ∈ t.domains, d ∈ r.domains → r.name = t.name
  portListed : ∀ u ∈ req.tunnels, MayStore e cfg req u →
    t.publicPort ≠ 0 → u.publicPort = t.publicPort → t.name = u.name
  domainListed : ∀ u ∈ req.tunnels, MayStore e cfg req u →
    ∀ d ∈ t.domains, d ∈ u.domains → t.name = u.name
  named : t.name = "" → t.publicPort = 0 ∧ t.domains = []

/-- Every listing that the step, if it is an announcement, may store is free. -/
def AnnouncesFree (cfg : Config) (e : Engine) (a : Env × Call) : Prop :=
  ∀ req, a.2 = .handle req → Announces cfg.withDefaults req →
    ∀ t ∈ req.tunnels, MayStore e cfg.withDefaults req t → Free e cfg.withDefaults req t

theorem Indexed.announced {e : Engine} {cfg : Config} {req : TunClaimRequest}
    {us : List TunLiveTunnel} (h : Indexed e) (hus : ∀ t ∈ us, MayStore e cfg req t)
    (hfree : ∀ t ∈ req.tunnels, MayStore e cfg req t → Free e cfg req t) :
    Indexed ((us.map (Engine.listed req.relayId)).foldl Engine.setTunnel e) := by
  have hf : ∀ t ∈ us, Free e cfg req t := fun t ht => hfree t (hus t ht).1 (hus t ht)
  have howner : ∀ {n : String} {r : TunLiveTunnel}, e.tunnels.get n = some r →
      r.name = n ∧ r ∈ e.tunnels.values := by
    intro n r hr
    have hn : r.name = n := Table.key_of_get hr
    exact ⟨hn, (Table.mem_values e.tunnels r).mpr (hn ▸ hr)⟩
  have hport : ∀ {t : TunLiveTunnel} {p : Int32},
      p ∈ Engine.ports (Engine.listed req.relayId t) → p = t.publicPort ∧ t.publicPort ≠ 0 := by
    intro t p hp
    obtain ⟨heq, hne⟩ := (Engine.mem_ports _ p).mp hp
    exact ⟨heq, fun h0 => hne (heq.trans h0)⟩
  refine h.store _ ?_ ?_ ?_ ?_ ?_
  all_goals simp only [List.forall_mem_map]
  · intro t ht p hp k hk
    obtain ⟨r, hr, hpr⟩ := (h.ports p k).mp hk
    have hrp : r.publicPort = t.publicPort :=
      ((Engine.mem_ports r p).mp hpr).1.symm.trans (hport hp).1
    exact (howner hr).1.symm.trans ((hf t ht).port r (howner hr).2 (hport hp).2 hrp)
  · intro t ht d hd k hk
    obtain ⟨r, hr, hdr⟩ := (h.domains d k).mp hk
    exact (howner hr).1.symm.trans ((hf t ht).domain r (howner hr).2 d hd hdr)
  · intro t ht u hu p hp hpu
    have hup : u.publicPort = t.publicPort := (hport hpu).1.symm.trans (hport hp).1
    exact (hf t ht).portListed u (hus u hu).1 (hus u hu) (hport hp).2 hup
  · exact fun t ht u hu d hd hdu => (hf t ht).domainListed u (hus u hu).1 (hus u hu) d hd hdu
  · intro t ht hname
    obtain ⟨hp, hd⟩ := (hf t ht).named hname
    exact ⟨by simp [Engine.ports, Engine.listed, hp], hd⟩

theorem Indexed.step {cfg : Config} (e : Engine) (a : Env × Call) (e' : Engine) (h : Indexed e)
    (hs : Guarded (AnnouncesFree cfg) (Step cfg) e a e') : Indexed e' := by
  obtain ⟨hcond, hstep⟩ := hs
  have heq : e' = e.call cfg.withDefaults a.1 a.2 := hstep
  subst heq
  rcases e.call_cases cfg.withDefaults a.1 a.2 with
    hu | ⟨req, recs, _, _, hg, hsame⟩ | ⟨req, e1, us, hc, hann, hsame, hus, hu⟩
  · exact h.upkeep hu
  · exact (h.granted hg.toGranted).same hsame
  · -- the relay's own record is written first, so the listings meet `e1`
    have hann := h.announced hus (hcond req hc hann)
    exact (hann.same (hsame.foldl_setTunnel _)).upkeep hu

/-- In a run whose announcements take nothing that is another tunnel's, every
state reached gives each port and domain one owner, and its indexes are exact. -/
theorem exclusive_of_announcesFree (cfg : Config) (as : List (Env × Call)) (e : Engine)
    (h : Run (Guarded (AnnouncesFree cfg) (Step cfg)) Engine.new as e) : Exclusive e :=
  (Run.invariant Indexed.step h Indexed.new).exclusive

def announceOne (relayId name : String) (port : Int32) : Env × Call :=
  ({ now := 0 }, .handle
    { kind := .announce, relayId := relayId
      tunnels := [{ name := name, type := .tcp, publicPort := port, agentId := name
                    tokenId := name, state := .active }] })

theorem exclusive_of_two_announcements :
    Exclusive (Engine.new.after sampleConfig [announceOne "r0" "a" 22000, announceOne "r1" "b" 22001]) := by
  refine exclusive_of_announcesFree sampleConfig
    [announceOne "r0" "a" 22000, announceOne "r1" "b" 22001] _
    (.cons ⟨?_, rfl⟩ (.cons ⟨?_, rfl⟩ (.nil _)))
  all_goals
    intro req hreq _
    cases hreq
    simp only [List.forall_mem_singleton]
    intro _
    exact ⟨by decide, by decide, by decide, by decide, by decide⟩

/-- Two relays announce tunnels of different agents with the same port: the
engine stores both, and its index names only the second. -/
theorem announce_shares_port :
    Run (Step sampleConfig) Engine.new [announceOne "r0" "a" 22000, announceOne "r1" "b" 22000]
      (Engine.new.after sampleConfig
        [announceOne "r0" "a" 22000, announceOne "r1" "b" 22000]) ∧
    ¬ Exclusive (Engine.new.after sampleConfig
        [announceOne "r0" "a" 22000, announceOne "r1" "b" 22000]) := by
  refine ⟨run_after _ _ _, fun h => ?_⟩
  have hindex := (h.byPort 22000 "a" (by decide)).mpr ⟨_, rfl, by decide⟩
  exact absurd hindex (by decide)

def unnamed : TunLiveTunnel :=
  { type := .tcp, publicPort := 22000, relayId := "r0", state := .active }

def unnamedHolder : Engine := Engine.new.after sampleConfig [announceOne "r0" "" 22000]

/-- After one announcement of a tunnel without a name both indexes are exact, and the
record holds its port. -/
theorem unnamedHolder_exact :
    Index.Exact Engine.ports unnamedHolder.tunnels unnamedHolder.byPort ∧
      Index.Exact TunLiveTunnel.domains unnamedHolder.tunnels unnamedHolder.byDomain ∧
      unnamedHolder.tunnels.get "" = some unnamed :=
  ⟨Index.exact_empty.put unnamed (fun _ _ _ hget => nomatch hget),
    Index.exact_empty.put unnamed (fun _ _ _ hget => nomatch hget), by decide⟩

end L8Tunnel.Claims
