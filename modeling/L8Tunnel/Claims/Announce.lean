import L8Tunnel.Claims.Calls

/-! # What an announcement leaves under a name -/

namespace L8Tunnel.Claims
open Base

/-- The rows of a listing under one name that the service accepts, in their order. -/
def listings (cfg : Config) (ts : List TunLiveTunnel) (n : String) : List TunLiveTunnel :=
  ts.filter fun t => accepts cfg t && decide (t.name = n)

theorem mem_listings {cfg : Config} {ts : List TunLiveTunnel} {n : String} {t : TunLiveTunnel} :
    t ∈ listings cfg ts n ↔ t ∈ ts ∧ accepts cfg t = true ∧ t.name = n := by
  simp [listings]

namespace Engine

def takes (e : Engine) (cfg : Config) (relayId : String) (ts : List TunLiveTunnel) (n : String) :
    Bool :=
  (listings cfg ts n).any fun t => !e.conflictsWith relayId t

variable {n : String} {t : TunLiveTunnel} {upd : TunLiveTunnel → Option TunLiveTunnel}
  (cfg : Config) (req : TunClaimRequest)

theorem takes_congr {e e' : Engine} (relayId : String) (ts : List TunLiveTunnel)
    (h : e'.tunnels.get n = e.tunnels.get n) :
    e'.takes cfg relayId ts n = e.takes cfg relayId ts n := by
  have hconf : ∀ t ∈ listings cfg ts n,
      e'.conflictsWith relayId t = e.conflictsWith relayId t := by
    intro t ht
    refine conflictsWith_congr relayId ?_
    rw [(mem_listings.mp ht).2.2]
    exact h
  unfold takes
  rw [Bool.eq_iff_iff, List.any_eq_true, List.any_eq_true]
  refine exists_congr fun t => and_congr_right fun ht => ?_
  rw [hconf t ht]

theorem takes_own {e : Engine} {relayId : String} {ts : List TunLiveTunnel} {r : TunLiveTunnel}
    (hr : e.tunnels.get n = some r) (hown : r.relayId = relayId) :
    e.takes cfg relayId ts n = !(listings cfg ts n).isEmpty := by
  have hconf : ∀ t ∈ listings cfg ts n, e.conflictsWith relayId t = false := by
    intro t ht
    have hn := (mem_listings.mp ht).2.2
    simp [conflictsWith, hn, hr, hown]
  unfold takes
  cases hl : listings cfg ts n with
  | nil => rfl
  | cons t us =>
    have ht := hconf t (by simp [hl])
    simp [ht]

theorem accepts_iff {cfg : Config} :
    accepts cfg t = true ↔ ¬ (t.simulated = true ∧ cfg.allowSimulated = false) := by
  cases hs : t.simulated <;> simp [accepts, hs]

theorem listings_cons (t : TunLiveTunnel) (ts : List TunLiveTunnel) (n : String) :
    listings cfg (t :: ts) n =
      if accepts cfg t = true ∧ t.name = n then t :: listings cfg ts n else listings cfg ts n := by
  by_cases h : accepts cfg t = true ∧ t.name = n
  · simp [listings, h]
  · rw [if_neg h]
    exact List.filter_cons_of_neg (by simpa using h)

theorem announceTunnel_other {cfg : Config} (a : Announcing)
    (h : ¬ (accepts cfg t = true ∧ t.name = n)) :
    (announceTunnel cfg req a t).engine.tunnels.get n = a.engine.tunnels.get n ∧
      (n ∈ (announceTunnel cfg req a t).reported ↔ n ∈ a.reported) := by
  unfold announceTunnel
  split
  · exact ⟨rfl, Iff.rfl⟩
  next hsim =>
  have hne : n ≠ t.name := fun heq => h ⟨accepts_iff.mpr hsim, heq.symm⟩
  split
  · exact ⟨rfl, Iff.rfl⟩
  · refine ⟨?_, by simp [hne]⟩
    rw [setTunnel_tunnels]
    exact Table.get_put_ne _ _ hne

theorem announceTunnels_get (ts : List TunLiveTunnel) (a : Announcing) (n : String) :
    (ts.foldl (announceTunnel cfg req) a).engine.tunnels.get n =
        (if a.engine.takes cfg req.relayId ts n then
          (listings cfg ts n).getLast?.map (listed req.relayId)
        else a.engine.tunnels.get n) ∧
      (n ∈ (ts.foldl (announceTunnel cfg req) a).reported ↔
        n ∈ a.reported ∨ a.engine.takes cfg req.relayId ts n = true) := by
  induction ts generalizing a with
  | nil => simp [takes, listings]
  | cons t ts ih =>
    rw [List.foldl_cons]
    obtain ⟨hget, hrep⟩ := ih (announceTunnel cfg req a t)
    rw [hget, hrep]
    by_cases hmine : accepts cfg t = true ∧ t.name = n
    · have hl : listings cfg (t :: ts) n = t :: listings cfg ts n := by
        rw [listings_cons, if_pos hmine]
      have hsim := accepts_iff.mp hmine.1
      by_cases hconf : a.engine.conflictsWith req.relayId t = true
      · have hstep : (announceTunnel cfg req a t).engine = a.engine ∧
            (announceTunnel cfg req a t).reported = a.reported := by
          simp [announceTunnel, hsim, hconf]
        have htakes : a.engine.takes cfg req.relayId (t :: ts) n =
            a.engine.takes cfg req.relayId ts n := by
          simp [takes, hl, hconf]
        rw [hstep.1, hstep.2, htakes, hl]
        refine ⟨?_, Iff.rfl⟩
        cases hrest : listings cfg ts n with
        | nil => simp [takes, hrest]
        | cons u us => rw [List.getLast?_cons_cons]
      · have hfree : a.engine.conflictsWith req.relayId t = false := by simpa using hconf
        have hstep : announceTunnel cfg req a t =
            { a with
              engine := a.engine.setTunnel (listed req.relayId t)
              reported := a.reported ++ [t.name] } := by
          simp [announceTunnel, hsim, hfree]
        have hstored : (a.engine.setTunnel (listed req.relayId t)).tunnels.get n =
            some (listed req.relayId t) := by
          rw [setTunnel_tunnels, ← hmine.2]
          exact Table.get_put_self _ (listed req.relayId t)
        have htakes : a.engine.takes cfg req.relayId (t :: ts) n = true := by
          simp [takes, hl, hfree]
        rw [hstep, htakes, hl]
        dsimp only
        have hown : (listed req.relayId t).relayId = req.relayId := rfl
        rw [takes_own cfg hstored hown, hstored]
        cases hrest : listings cfg ts n with
        | nil => simp [hmine.2]
        | cons u us => simp [hmine.2, List.getLast?_cons_cons]
    · obtain ⟨hkeep, hkept⟩ := announceTunnel_other req a hmine
      have hl : listings cfg (t :: ts) n = listings cfg ts n := by
        rw [listings_cons, if_neg hmine]
      have htakes : a.engine.takes cfg req.relayId (t :: ts) n =
          a.engine.takes cfg req.relayId ts n := by
        unfold takes
        rw [hl]
      rw [takes_congr cfg req.relayId ts hkeep, hkeep, hkept, htakes, hl]
      exact ⟨rfl, Iff.rfl⟩

theorem rewriteOne_get (hupd : ∀ r r', upd r = some r' → Same r r') (e : Engine) (name n : String) :
    (rewriteOne upd e name).tunnels.get n =
      if n = name then (e.tunnels.get n).map (fun r => (upd r).getD r) else e.tunnels.get n := by
  unfold rewriteOne
  cases hg : e.tunnels.get name with
  | none =>
    by_cases hn : n = name
    · simp [hn, hg]
    · simp [hn]
  | some rec =>
    dsimp only
    cases hu : upd rec with
    | none =>
      by_cases hn : n = name
      · simp [hn, hg, hu]
      · simp [hn]
    | some rec' =>
      have hname : rec'.name = name := (hupd rec rec' hu).name.trans (Table.key_of_get hg)
      rw [setTunnel_tunnels, Table.get_put, hname]
      by_cases hn : n = name
      · simp [hn, hg, hu]
      · simp [hn]

theorem rewriteOnes_get (hupd : ∀ r r', upd r = some r' → Same r r')
    (honce : ∀ r r', upd r = some r' → (upd r').getD r' = r') (names : List String) (e : Engine)
    (n : String) :
    (names.foldl (rewriteOne upd) e).tunnels.get n =
      if n ∈ names then (e.tunnels.get n).map (fun r => (upd r).getD r) else e.tunnels.get n := by
  have htwice : ∀ r, (upd ((upd r).getD r)).getD ((upd r).getD r) = (upd r).getD r := by
    intro r
    cases hu : upd r with
    | none => simp [hu]
    | some r' => simpa using honce r r' hu
  induction names generalizing e with
  | nil => simp
  | cons name names ih =>
    rw [List.foldl_cons, ih, rewriteOne_get hupd]
    by_cases hn : n = name
    · by_cases hm : n ∈ names
      · cases e.tunnels.get n with
        | none => simp [← hn]
        | some r => simp [← hn, htwice]
      · simp [← hn, hm]
    · simp [hn]

/-- A row of the relay that its listing does not name. -/
def unreported (cfg : Config) (env : Env) (relayId : String) (r : TunLiveTunnel) : TunLiveTunnel :=
  if r.relayId = relayId ∧ r.state = .active then
    { r with state := .grace, graceUntil := unix (env.now + cfg.grace) }
  else r

theorem parkUnreported_get (e : Engine) (cfg : Config) (env : Env) (req : TunClaimRequest)
    (reported : List String) (n : String) :
    (e.parkUnreported cfg env req reported).tunnels.get n =
      if n ∈ reported then e.tunnels.get n
      else (e.tunnels.get n).map (unreported cfg env req.relayId) := by
  unfold parkUnreported
  rw [rewriteOnes_get]
  · cases hg : e.tunnels.get n with
    | none => simp
    | some r =>
      have hmem : n ∈ e.tunnels.range env.order := (Table.mem_range _ _ _).mpr ⟨r, hg⟩
      have hname : r.name = n := Table.key_of_get hg
      rw [if_pos hmem]
      by_cases hrep : n ∈ reported
      · simp [hname, hrep]
      · by_cases hown : r.relayId = req.relayId ∧ r.state = .active
        · simp [hname, hrep, unreported, hown]
        · have hnot : ¬ (r.relayId = req.relayId ∧ r.name ∉ reported ∧ r.state = .active) :=
            fun h => hown ⟨h.1, h.2.2⟩
          simp only [Option.map_some, if_neg hnot, if_neg hrep, unreported, if_neg hown,
            Option.getD_none]
  · intro r r' h
    split at h
    · cases h
      rfl
    · cases h
  · intro r r' h
    split at h
    · cases h
      simp
    · cases h

theorem announceAgents_tunnels (as : List TunAgent) (e : Engine) :
    (as.foldl (announceAgent cfg req) e).tunnels = e.tunnels := by
  induction as generalizing e with
  | nil => rfl
  | cons a as ih =>
    rw [List.foldl_cons, ih]
    unfold announceAgent
    split
    · rfl
    · rfl

theorem announce_get {cfg : Config} {req : TunClaimRequest} (h : Announces cfg req) (e : Engine)
    (env : Env) (n : String) :
    (e.announce cfg env req).1.tunnels.get n =
      if e.takes cfg req.relayId req.tunnels n then
        (listings cfg req.tunnels n).getLast?.map (listed req.relayId)
      else (e.tunnels.get n).map (unreported cfg env req.relayId) := by
  have hloops : ∀ e1 : Engine, e1.tunnels = e.tunnels →
      (((req.tunnels.foldl (announceTunnel cfg req) { engine := e1 }).engine.parkUnreported cfg env
        req (req.tunnels.foldl (announceTunnel cfg req) { engine := e1 }).reported)).tunnels.get n =
      if e.takes cfg req.relayId req.tunnels n then
        (listings cfg req.tunnels n).getLast?.map (listed req.relayId)
      else (e.tunnels.get n).map (unreported cfg env req.relayId) := by
    intro e1 he1
    obtain ⟨hget, hrep⟩ := announceTunnels_get cfg req req.tunnels { engine := e1 } n
    have htakes : e1.takes cfg req.relayId req.tunnels n = e.takes cfg req.relayId req.tunnels n :=
      takes_congr cfg req.relayId req.tunnels (by rw [he1])
    dsimp only at hget hrep
    rw [htakes] at hget hrep
    rw [he1] at hget
    rw [parkUnreported_get, hget]
    by_cases ht : e.takes cfg req.relayId req.tunnels n = true
    · rw [if_pos (hrep.mpr (.inr ht)), if_pos ht, if_pos ht]
    · have hnot : n ∉ (req.tunnels.foldl (announceTunnel cfg req) { engine := e1 }).reported := by
        rw [hrep]
        simp [ht]
      rw [if_neg hnot, if_neg ht, if_neg ht]
  unfold announce
  rw [if_neg h.2.2]
  dsimp only
  rw [announceAgents_tunnels]
  cases hr : req.relay with
  | none => exact hloops e rfl
  | some r => exact hloops _ rfl

end Engine
end L8Tunnel.Claims
