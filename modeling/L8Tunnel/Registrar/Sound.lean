import L8Tunnel.Registrar.Books
import L8Tunnel.Registrar.Sessions

/-! # Ports and domains across the relay's goroutines -/

namespace L8Tunnel.Registrar
open Base Registry Auth NameRegistry

variable {γ : Type}

namespace Server

def claimsOf (s : Server γ) (u : ℕ) : List (ℕ × Bool) :=
  ((s.sessions u).registering.map (·.claims)).getD []

def reservingOf (s : Server γ) (u : ℕ) : Option ℤ := (s.sessions u).registering.bind (·.reserving)
def Unclaimed (s : Server γ) (t ref : ℕ) : Prop := ∀ u, u ≠ t → ∀ e, (ref, e) ∉ s.claimsOf u

end Server

/-- The call drops no reservation that another registration in flight works on. -/
def Spares (β : Type) (t : ℕ) (op : Op β) (s : Server γ) : Prop :=
  let cells := s.registry.cells
  match op with
  | .expire ref =>
    (cells ref).session = none ∧ (cells ref).permanent = false → s.Unclaimed t ref
  | .unreserve name => ∀ ref, s.registry.names.get name = some ref ∧ (cells ref).session = none ∧
      (cells ref).permanent = true → s.Unclaimed t ref
  | .releaseToken tokenID => ∀ ref, s.registry.Named ref ∧ (cells ref).tokenID = tokenID →
      s.Unclaimed t ref
  | .park ref =>
    (cells ref).session = some t ∧ (s.registry.closed ∨ s.registry.clustered) ∧
      (cells ref).permanent = false → s.Unclaimed t ref
  | .rollback ref existed =>
    (cells ref).session = some t ∧ (existed → (s.registry.closed ∨ s.registry.clustered) ∧
      (cells ref).permanent = false) → s.Unclaimed t ref
  | _ => True

/-- What only the thread itself knows: its registration and the cell it is opening. -/
structure Owned where
  registering : Option Registering := none
  current : Option ℕ := none

/-- The invariant of every interleaving: the books balance, with what each thread has in hand.
-/
structure Inv (s : Server γ) (L : ℕ → Owned) : Prop where
  books : Books s.registry s.reservingOf
  named : ∀ u ref, (ref, false) ∈ s.claimsOf u → (s.registry.cells ref).session = some u →
    s.registry.Named ref
  used : ∀ u c, c ∈ s.claimsOf u → c.1 < s.registry.next
  once : ∀ u ref, (s.claimsOf u).count (ref, false) ≤ 1
  own : ∀ u, (L u).registering = (s.sessions u).registering
  current : ∀ u ref, (L u).current = some ref → s.registry.Named ref ∧ ∃ e, (ref, e) ∈ s.claimsOf u

namespace Inv
variable {s s' : Server γ} {L : ℕ → Owned} {t ref : ℕ} {r' : NameRegistry} {D : ℕ → Prop}
  {g g' : Registering} {cur : Option ℕ}

theorem new (grace : ℤ) (clustered : Bool) (tokens : Table TokenRecord.id) (cluster : γ) :
    Inv (.new grace clustered tokens cluster) fun _ => {} where
  books := Books.new grace clustered
  named := by intro u ref h; simp [Server.claimsOf, Server.new] at h
  used := by intro u c h; simp [Server.claimsOf, Server.new] at h
  once := by intro u ref; simp [Server.claimsOf, Server.new]
  own := fun _ => rfl
  current := by intro u ref h; cases h

theorem claimsOf_eq (h : Inv s L) (hg : (L t).registering = some g) : s.claimsOf t = g.claims := by
  simp [Server.claimsOf, ← h.own, hg]

theorem reservingOf_eq (h : Inv s L) (hg : (L t).registering = some g) :
    s.reservingOf t = g.reserving := by
  simp [Server.reservingOf, ← h.own, hg]

theorem idle (h : Inv s L) (hg : (L t).registering = none) : s.claimsOf t = [] := by
  simp [Server.claimsOf, ← h.own, hg]

theorem frame (h : Inv s L) (hr : s'.registry = s.registry)
    (hs : ∀ u, (s'.sessions u).registering = (s.sessions u).registering) : Inv s' L := by
  have hclaims : s'.claimsOf = s.claimsOf := funext fun u => by simp [Server.claimsOf, hs]
  have hres : s'.reservingOf = s.reservingOf := funext fun u => by simp [Server.reservingOf, hs]
  constructor
  · rw [hr, hres]
    exact h.books
  · rw [hr, hclaims]
    exact h.named
  · rw [hr, hclaims]
    exact h.used
  · rw [hclaims]
    exact h.once
  · exact fun u => (h.own u).trans (hs u).symm
  · rw [hr, hclaims]
    exact h.current

theorem forget (h : Inv s L) : Inv s (Function.update L t ⟨(L t).registering, none⟩) where
  books := h.books
  named := h.named
  used := h.used
  once := h.once
  own := by
    intro u
    by_cases hu : u = t
    · subst hu
      simpa using h.own u
    · simpa [hu] using h.own u
  current := by
    intro u ref hc
    by_cases hu : u = t
    · subst hu
      simp at hc
    · rw [Function.update_of_ne hu] at hc
      exact h.current u ref hc

theorem registry (h : Inv s L) (hbooks : Books r' s.reservingOf)
    (hnamed : ∀ u, s.registry.Named u → ¬ D u → r'.Named u)
    (hsession : ∀ u v, (r'.cells u).session = some v →
      (s.registry.cells u).session = some v ∨ r'.Named u)
    (hnext : s.registry.next ≤ r'.next)
    (hspare : ∀ ref, s.registry.Named ref → D ref → s.Unclaimed t ref)
    (hmine : ∀ ref, D ref → (ref, false) ∈ s.claimsOf t → (r'.cells ref).session ≠ some t)
    (hcur : ∀ ref, D ref → (L t).current ≠ some ref) : Inv { s with registry := r' } L where
  books := hbooks
  named := by
    intro u ref hc hu
    rcases hsession ref u hu with hold | hnew
    · have hn := h.named u ref hc hold
      refine hnamed ref hn fun hD => ?_
      by_cases hut : u = t
      · subst hut
        exact hmine ref hD hc hu
      · exact hspare ref hn hD u hut false hc
    · exact hnew
  used := fun u c hc => lt_of_lt_of_le (h.used u c hc) hnext
  once := h.once
  own := h.own
  current := by
    intro u ref hc
    obtain ⟨hn, e, he⟩ := h.current u ref hc
    refine ⟨hnamed ref hn fun hD => ?_, e, he⟩
    by_cases hut : u = t
    · subst hut
      exact hcur ref hD hc
    · exact hspare ref hn hD u hut e he

theorem drops (h : Inv s L) (hbooks : Books r' s.reservingOf) (hdrops : Drops D s.registry r')
    (hspare : ∀ ref, s.registry.Named ref → D ref → s.Unclaimed t ref)
    (hmine : ∀ ref, D ref → (ref, false) ∈ s.claimsOf t → (r'.cells ref).session ≠ some t)
    (hcur : ∀ ref, D ref → (L t).current ≠ some ref) : Inv { s with registry := r' } L :=
  h.registry hbooks hdrops.named (fun u v hv => .inl (hdrops.session u v hv)) hdrops.next hspare
    hmine hcur

theorem keepsNames (h : Inv s L) (hbooks : Books r' s.reservingOf)
    (hdrops : Drops (fun _ => False) s.registry r') : Inv { s with registry := r' } L :=
  h.drops (t := 0) hbooks hdrops (fun _ _ hD => hD.elim) (fun _ hD => hD.elim)
    fun _ hD => hD.elim

section
variable (hg : (L t).registering = some g)

include hg in

theorem sessions_onRegistering (h : Inv s L) (f : Registering → Registering) (u : ℕ) :
    ((s.onRegistering t f).sessions u).registering =
      if u = t then some (f g) else (s.sessions u).registering := by
  by_cases hu : u = t
  · subst hu
    simp [Server.onRegistering, Server.onSession, ← h.own, hg]
  · simp [Server.onRegistering, Server.onSession, hu]

include hg in

theorem notes (h : Inv s L) {f : Registering → Registering} (hf : f g = g')
    (hdrops : Drops (fun _ => False) s.registry r')
    (hbooks : Books r' (Function.update s.reservingOf t g'.reserving))
    (hnamed : ∀ ref, (ref, false) ∈ g'.claims → (ref, false) ∈ g.claims ∨ r'.Named ref)
    (hused : ∀ c ∈ g'.claims, c.1 < r'.next) (honce : ∀ ref, g'.claims.count (ref, false) ≤ 1)
    (hcur : ∀ ref, cur = some ref → r'.Named ref ∧ ∃ e, (ref, e) ∈ g'.claims) :
    Inv ({ s with registry := r' }.onRegistering t f) (Function.update L t ⟨some g', cur⟩) := by
  have hs : ∀ u, (({ s with registry := r' }.onRegistering t f).sessions u).registering =
      if u = t then some (f g) else (s.sessions u).registering := h.sessions_onRegistering hg f
  rw [hf] at hs
  have hclaims : ({ s with registry := r' }.onRegistering t f).claimsOf =
      Function.update s.claimsOf t g'.claims := by
    funext u
    by_cases hu : u = t
    · subst hu
      simp [Server.claimsOf, hs]
    · simp [Server.claimsOf, hs, hu]
  have hres : ({ s with registry := r' }.onRegistering t f).reservingOf =
      Function.update s.reservingOf t g'.reserving := by
    funext u
    by_cases hu : u = t
    · subst hu
      simp [Server.reservingOf, hs]
    · simp [Server.reservingOf, hs, hu]
  have hkept : ∀ u ref, (ref, false) ∈ s.claimsOf u → (r'.cells ref).session = some u →
      r'.Named ref := fun u ref hc hu =>
    hdrops.named ref (h.named u ref hc (hdrops.session ref u hu)) id
  constructor
  · rw [hres]
    exact hbooks
  · intro u ref hc hu
    rw [hclaims] at hc
    by_cases hut : u = t
    · subst hut
      rw [Function.update_self] at hc
      rcases hnamed ref hc with hold | hn
      · exact hkept u ref (h.claimsOf_eq hg ▸ hold) hu
      · exact hn
    · rw [Function.update_of_ne hut] at hc
      exact hkept u ref hc hu
  · intro u c hc
    rw [hclaims] at hc
    by_cases hut : u = t
    · subst hut
      rw [Function.update_self] at hc
      exact hused c hc
    · rw [Function.update_of_ne hut] at hc
      exact lt_of_lt_of_le (h.used u c hc) hdrops.next
  · intro u ref
    rw [hclaims]
    by_cases hut : u = t
    · subst hut
      rw [Function.update_self]
      exact honce ref
    · rw [Function.update_of_ne hut]
      exact h.once u ref
  · intro u
    rw [hs]
    by_cases hut : u = t
    · subst hut
      simp
    · simp [hut, h.own]
  · intro u ref hc
    rw [hclaims]
    by_cases hut : u = t
    · subst hut
      rw [Function.update_self] at hc ⊢
      exact hcur ref hc
    · rw [Function.update_of_ne hut] at hc ⊢
      obtain ⟨hn, hclaim⟩ := h.current u ref hc
      exact ⟨hdrops.named ref hn id, hclaim⟩

include hg in

theorem setAside (h : Inv s L) {p : Option ℤ} (hdrops : Drops (fun _ => False) s.registry r')
    (hbooks : Books r' (Function.update s.reservingOf t p)) :
    Inv ({ s with registry := r' }.onRegistering t fun g => { g with reserving := p })
      (Function.update L t ⟨some { g with reserving := p }, (L t).current⟩) := by
  have hmine := h.claimsOf_eq hg
  refine h.notes hg (show _ = { g with reserving := p } from rfl) hdrops hbooks (fun ref hc => .inl hc)
    (fun c hc => ?_) (fun ref => ?_) fun ref hc => ?_
  · exact lt_of_lt_of_le (h.used t c (hmine ▸ hc)) hdrops.next
  · exact hmine ▸ h.once t ref
  · obtain ⟨hn, e, he⟩ := h.current t ref hc
    exact ⟨hdrops.named ref hn id, e, hmine ▸ he⟩

include hg in

theorem noteClaim (h : Inv s L) {e : Bool} (hnamed : s.registry.Named ref)
    (hnew : e = false → (ref, false) ∉ g.claims) :
    Inv (s.onRegistering t fun g => { g with claims := g.claims ++ [(ref, e)] })
      (Function.update L t ⟨some { g with claims := g.claims ++ [(ref, e)] }, some ref⟩) := by
  have hmine := h.claimsOf_eq hg
  refine h.notes hg (show _ = { g with claims := g.claims ++ [(ref, e)] } from rfl)
    (Drops.refl _ _) ?_
    (fun u hc => ?_) (fun c hc => ?_) (fun u => ?_) fun u hc => ?_
  · have hsame := h.reservingOf_eq hg
    rw [show Function.update s.reservingOf t g.reserving = s.reservingOf by
      rw [← hsame, Function.update_eq_self]]
    exact h.books
  · rcases List.mem_append.mp hc with hc | hc
    · exact .inl hc
    · simp only [List.mem_singleton, Prod.mk.injEq] at hc
      exact .inr (hc.1 ▸ hnamed)
  · rcases List.mem_append.mp hc with hc | hc
    · exact h.used t c (hmine ▸ hc)
    · rw [List.mem_singleton.mp hc]
      exact hnamed.lt
  · rw [List.count_append, List.count_singleton]
    have honce := hmine ▸ h.once t u
    split
    next heq =>
      simp only [beq_iff_eq, Prod.mk.injEq] at heq
      obtain ⟨rfl, rfl⟩ := heq
      rw [List.count_eq_zero_of_not_mem (hnew rfl)]
    next => simpa using honce
  · cases hc
    exact ⟨hnamed, e, by simp⟩

include hg in

theorem strike (h : Inv s L) (c : ℕ × Bool) :
    Inv (s.onRegistering t fun g => { g with claims := g.claims.erase c })
      (Function.update L t ⟨some { g with claims := g.claims.erase c }, none⟩) := by
  have hmine := h.claimsOf_eq hg
  refine h.notes hg (show _ = { g with claims := g.claims.erase c } from rfl) (Drops.refl _ _) ?_
    (fun u hc => .inl (List.mem_of_mem_erase hc)) (fun d hd => ?_) (fun u => ?_) fun u hc => ?_
  · have hsame := h.reservingOf_eq hg
    rw [show Function.update s.reservingOf t g.reserving = s.reservingOf by
      rw [← hsame, Function.update_eq_self]]
    exact h.books
  · exact h.used t d (hmine ▸ List.mem_of_mem_erase hd)
  · exact (List.Sublist.count_le _ List.erase_sublist).trans (hmine ▸ h.once t u)
  · cases hc

end

theorem reset (h : Inv s L) {x : Option Registering} {f : AgentSession → AgentSession}
    (hres : s.reservingOf t = none) (hx : x = none ∨ x = some {})
    (hf : ∀ a, (f a).registering = x) : Inv (s.onSession t f) (Function.update L t ⟨x, none⟩) := by
  have hs : ∀ u, ((s.onSession t f).sessions u).registering =
      if u = t then x else (s.sessions u).registering := by
    intro u
    by_cases hu : u = t
    · subst hu
      simp [Server.onSession, hf]
    · simp [Server.onSession, hu]
  have hclaims : (s.onSession t f).claimsOf = Function.update s.claimsOf t [] := by
    funext u
    by_cases hu : u = t
    · subst hu
      rcases hx with rfl | rfl <;> simp [Server.claimsOf, hs]
    · simp [Server.claimsOf, hs, hu]
  have hreserving : (s.onSession t f).reservingOf = s.reservingOf := by
    funext u
    by_cases hu : u = t
    · subst hu
      rw [hres]
      rcases hx with rfl | rfl <;> simp [Server.reservingOf, hs]
    · simp [Server.reservingOf, hs, hu]
  have hmem : ∀ u c, c ∈ (s.onSession t f).claimsOf u → c ∈ s.claimsOf u := by
    intro u c hc
    rw [hclaims] at hc
    by_cases hu : u = t
    · subst hu
      simp at hc
    · rwa [Function.update_of_ne hu] at hc
  constructor
  · rw [hreserving]
    exact h.books
  · exact fun u ref hc hu => h.named u ref (hmem u _ hc) hu
  · exact fun u c hc => h.used u c (hmem u c hc)
  · intro u ref
    rw [hclaims]
    by_cases hu : u = t
    · subst hu
      simp
    · rw [Function.update_of_ne hu]
      exact h.once u ref
  · intro u
    rw [hs]
    by_cases hu : u = t
    · subst hu
      simp
    · simp [hu, h.own]
  · intro u ref hc
    by_cases hu : u = t
    · subst hu
      simp at hc
    · rw [Function.update_of_ne hu] at hc
      rw [hclaims, Function.update_of_ne hu]
      exact h.current u ref hc

end Inv

def Op.quiet {β : Type} : Op β → Bool
  | .portOf _ | .listen _ | .closeTunnel _ | .randomID _ | .untrack | .tokenByID _ | .setToken _ _
  | .addTunnels _ | .takeTunnels | .reason | .sessionsOf _ | .closeSession _ _ | .deleteToken _
  | .claimTunnel _ | .parkTunnels _ _ | .releaseTunnels _ _ | .agentUp _ | .agentDown _ _ _ => true
  | _ => false

theorem onSession_registering (s : Server γ) (t : ℕ) {f : AgentSession → AgentSession}
    (hf : ∀ a, (f a).registering = a.registering) (u : ℕ) :
    ((s.onSession t f).sessions u).registering = (s.sessions u).registering := by
  by_cases hu : u = t
  · subst hu
    simp [Server.onSession, hf]
  · simp [Server.onSession, hu]

theorem closeListener_registry (s : Server γ) (t : Tunnel) :
    (s.closeListener t).registry = s.registry := by
  unfold Server.closeListener
  split <;> rfl

theorem closeListener_sessions (s : Server γ) (t : Tunnel) :
    (s.closeListener t).sessions = s.sessions := by
  unfold Server.closeListener
  split <;> rfl

theorem closeStale_registry (s : Server γ) (stale : Option Tunnel) :
    (s.closeStale stale).registry = s.registry := by
  cases stale with
  | none => rfl
  | some t => exact closeListener_registry s t

theorem closeStale_sessions (s : Server γ) (stale : Option Tunnel) :
    (s.closeStale stale).sessions = s.sessions := by
  cases stale with
  | none => rfl
  | some t => exact closeListener_sessions s t

theorem claim_registry {s : Server γ} {sess : ℕ} {name : String} {typ : TunnelType}
    {tokenID agentID : String} {maxTunnels : ℤ} {c : NameRegistry.Claimed}
    (hc : s.registry.claim name typ tokenID agentID sess maxTunnels = .ok c) :
    (s.claim sess name typ tokenID agentID maxTunnels).1.registry = c.registry := by
  simp [Server.claim, hc, Server.onRegistering, Server.onSession, closeStale_registry]

theorem answer_quiet (cfg : Config γ) {β : Type} {op : Op β} (hq : op.quiet) (t : ℕ) (w : World)
    (s : Server γ) :
    (s.answer cfg t w op).1.registry = s.registry ∧
      ∀ u, ((s.answer cfg t w op).1.sessions u).registering = (s.sessions u).registering := by
  cases op with
  | portOf | randomID | reason | sessionsOf => exact ⟨rfl, fun _ => rfl⟩
  | untrack | deleteToken => exact ⟨rfl, fun _ => rfl⟩
  | setToken | addTunnels | takeTunnels | closeSession =>
    refine ⟨rfl, fun u => ?_⟩
    dsimp only [Server.answer]
    refine onSession_registering s _ ?_ u
    exact fun _ => rfl
  | listen =>
    dsimp only [Server.answer, Server.listen]
    split <;> exact ⟨rfl, fun _ => rfl⟩
  | closeTunnel tn =>
    refine ⟨closeListener_registry s tn, fun u => ?_⟩
    show ((s.closeListener tn).sessions u).registering = _
    rw [closeListener_sessions]
  | tokenByID =>
    dsimp only [Server.answer]
    split
    · exact ⟨rfl, fun _ => rfl⟩
    split
    · exact ⟨rfl, fun _ => rfl⟩
    · refine ⟨rfl, fun u => ?_⟩
      dsimp only
      refine onSession_registering s _ ?_ u
      exact fun _ => rfl
  | claimTunnel | parkTunnels | releaseTunnels | agentUp | agentDown =>
    dsimp only [Server.answer]
    split <;> exact ⟨rfl, fun _ => rfl⟩
  | _ => cases hq

theorem claim_names {r : NameRegistry} {name tokenID agentID : String} {typ : TunnelType} {t : ℕ}
    {maxTunnels : ℤ} {c : NameRegistry.Claimed}
    (hc : r.claim name typ tokenID agentID t maxTunnels = .ok c) :
    c.registry.Named c.res ∧ r.next ≤ c.registry.next ∧ (∀ u, r.Named u → c.registry.Named u) ∧
      (∀ u v, (c.registry.cells u).session = some v →
        (r.cells u).session = some v ∨ c.registry.Named u) ∧
      (c.existed = false → c.res = r.next) := by
  obtain ⟨hget, rfl⟩ | ⟨ref, stale, hget, rfl⟩ := claim_ok hc
  · have hnamed := named_alloc (r := r)
      (v := { name := name, typ := typ, tokenID := tokenID, agentID := agentID, session := some t })
      hget
    refine ⟨(hnamed _).mpr (.inr rfl), Nat.le_succ _, fun u hu => (hnamed u).mpr (.inl hu),
      fun u v hv => ?_, fun _ => rfl⟩
    dsimp only at hv ⊢
    rw [alloc_cells] at hv
    split at hv
    next hu => exact .inr ((hnamed u).mpr (.inr hu))
    next => exact .inl hv
  · have hnamed := named_modify r ref
      (f := fun v => { v with
        timer := false, typ := typ, agentID := agentID, session := some t, tunnel := none })
      fun _ => rfl
    have href := named_of_get hget
    refine ⟨(hnamed ref).mpr href, le_max_left _ _, fun u hu => (hnamed u).mpr hu,
      fun u v hv => ?_, by simp⟩
    dsimp only at hv ⊢
    rw [modify_cells] at hv
    split at hv
    next hu => exact .inr ((hnamed u).mpr (hu ▸ href))
    next => exact .inl hv

theorem park_session {r : NameRegistry} {ref sess : ℕ} {now : ℤ}
    (h : (r.cells ref).session = some sess) : ((r.park ref sess now).cells ref).session = none := by
  refine park_induction (P := fun q => (q.cells ref).session = none)
    (fun hne => absurd h hne) (fun _ _ => ?_) (fun _ _ _ => ?_) fun _ _ _ _ => ?_
  · simp
  · simp [deleteLocked_cells]
  · simp

section
variable {cfg : Config γ} {t : ℕ} {α : Type} {Q : α → Owned → Prop} {l : Owned} {g : Registering}

theorem keeps_frame {β : Type} {op : Op β} {next : β → Prog Op α}
    (hop : ∀ (w : World) (s : Server γ) (L : ℕ → Owned), Inv s L → L t = l → Spares β t op s →
      Inv (s.answer cfg t w op).1 L)
    (hnext : ∀ b, Keeps (objects cfg) Spares Inv t Q (next b) l) :
    Keeps (objects cfg) Spares Inv t Q (.call op next) l := by
  intro w s L hI hl hC
  refine ⟨l, ?_, hnext _⟩
  rw [← hl, Function.update_eq_self]
  exact hop w s L hI hl hC

theorem keeps_quiet {β : Type} {op : Op β} {next : β → Prog Op α} (hq : op.quiet)
    (hnext : ∀ b, Keeps (objects cfg) Spares Inv t Q (next b) l) :
    Keeps (objects cfg) Spares Inv t Q (.call op next) l :=
  keeps_frame (fun w s _ hI _ _ =>
    hI.frame (answer_quiet cfg hq t w s).1 (answer_quiet cfg hq t w s).2) hnext

theorem keeps_all {p : Prog Op α} (hp : p.All fun _ op => op.quiet) :
    Keeps (objects cfg) Spares Inv t (fun _ l' => l' = l) p l :=
  Keeps.of_all hp fun _ _ w s _ hq hI _ _ =>
    hI.frame (answer_quiet cfg hq t w s).1 (answer_quiet cfg hq t w s).2

theorem keeps_claim {name tokenID agentID : String} {typ : TunnelType} {maxTunnels : ℤ}
    {next : Except RuleKind (ℕ × Bool) → Prog Op α} (hg : l.registering = some g)
    (herr : ∀ kind, Keeps (objects cfg) Spares Inv t Q (next (.error kind)) l)
    (hok : ∀ ref e, Keeps (objects cfg) Spares Inv t Q (next (.ok (ref, e)))
      ⟨some { g with claims := g.claims ++ [(ref, e)] }, some ref⟩) :
    Keeps (objects cfg) Spares Inv t Q
      (.call (.claim name typ tokenID agentID maxTunnels) next) l := by
  intro w s L hI hl _
  subst hl
  cases hc : s.registry.claim name typ tokenID agentID t maxTunnels with
  | error kind =>
    rw [answer_claim_refused hc]
    exact ⟨L t, by rwa [Function.update_eq_self], herr kind⟩
  | ok c =>
    rw [answer_claim_granted hc]
    refine ⟨_, ?_, hok c.res c.existed⟩
    obtain ⟨hnamed, hnext, hkeep, hsess, hnew⟩ := claim_names hc
    have h1 : Inv { s with registry := c.registry } L :=
      hI.registry (t := t) (D := fun _ => False) (hI.books.claim hc) (fun u hu _ => hkeep u hu) hsess
        hnext (fun _ _ hD => hD.elim) (fun _ hD => hD.elim) fun _ hD => hD.elim
    have hfresh : c.existed = false → (c.res, false) ∉ g.claims := fun he hmem =>
      Nat.lt_irrefl _ (hnew he ▸ hI.used t _ (hI.claimsOf_eq hg ▸ hmem))
    have h2 : Inv ({ s with registry := c.registry }.closeStale c.stale) L :=
      h1.frame (closeStale_registry _ c.stale) fun u => by rw [closeStale_sessions]
    refine h2.noteClaim hg ?_ hfresh
    rw [closeStale_registry]
    exact hnamed

theorem keeps_setDomains {ref : ℕ} {ds : List String} {next : Except String Unit → Prog Op α}
    (hcur : l.current = some ref) (hnext : ∀ b, Keeps (objects cfg) Spares Inv t Q (next b) l) :
    Keeps (objects cfg) Spares Inv t Q (.call (.setDomains ref ds) next) l := by
  refine keeps_frame (fun w s L hI hl _ => ?_) hnext
  subst hl
  dsimp only [Server.answer]
  split
  · exact hI
  next r' hr =>
    exact hI.keepsNames (hI.books.setDomains (hI.current t ref hcur).1 hr) (Drops.setDomains hr)

theorem keeps_activate {ref : ℕ} {tn : Tunnel} {next : Unit → Prog Op α}
    (hnext : Keeps (objects cfg) Spares Inv t Q (next ()) ⟨l.registering, none⟩) :
    Keeps (objects cfg) Spares Inv t Q (.call (.activate ref tn) next) l := by
  intro w s L hI hl _
  subst hl
  refine ⟨_, Inv.forget (hI.keepsNames ?_ ?_), hnext⟩
  · refine hI.books.modify _ fun _ => ?_
    exact ⟨rfl, rfl⟩
  · refine Drops.modify _ fun _ => ?_
    exact .inl rfl

theorem keeps_reservePort {p : ℤ} {next : Bool → Prog Op α} (hg : l.registering = some g)
    (hfree : g.reserving = none) (hno : Keeps (objects cfg) Spares Inv t Q (next false) l)
    (hyes : Keeps (objects cfg) Spares Inv t Q (next true)
      ⟨some { g with reserving := some p }, l.current⟩) :
    Keeps (objects cfg) Spares Inv t Q (.call (.reservePort p) next) l := by
  intro w s L hI hl _
  subst hl
  by_cases hp : p ∈ s.registry.ports
  · rw [answer_reservePort_taken hp]
    exact ⟨L t, by rwa [Function.update_eq_self], hno⟩
  · rw [answer_reservePort_free hp]
    exact ⟨_, hI.setAside hg (Drops.addPort _ p)
      (hI.books.addPort hp ((hI.reservingOf_eq hg).trans hfree)), hyes⟩

theorem keeps_releasePort {p : ℤ} {next : Unit → Prog Op α} (hg : l.registering = some g)
    (hp : g.reserving = some p)
    (hnext : Keeps (objects cfg) Spares Inv t Q (next ())
      ⟨some { g with reserving := none }, l.current⟩) :
    Keeps (objects cfg) Spares Inv t Q (.call (.releasePort p) next) l := by
  intro w s L hI hl _
  subst hl
  exact ⟨_, hI.setAside hg (Drops.freePort _ p)
    (hI.books.freePort ((hI.reservingOf_eq hg).trans hp)), hnext⟩

theorem keeps_setPort {ref : ℕ} {p : ℤ} {next : Unit → Prog Op α} (hg : l.registering = some g)
    (hp : g.reserving = some p) (h0 : p ≠ 0) (hcur : l.current = some ref)
    (hnext : Keeps (objects cfg) Spares Inv t Q (next ())
      ⟨some { g with reserving := none }, l.current⟩) :
    Keeps (objects cfg) Spares Inv t Q (.call (.setPort ref p) next) l := by
  intro w s L hI hl _
  subst hl
  exact ⟨_, hI.setAside hg (Drops.setPort p)
    (hI.books.setPort (hI.current t ref hcur).1 ((hI.reservingOf_eq hg).trans hp) h0), hnext⟩

theorem keeps_rollback {ref : ℕ} {e : Bool} {next : Unit → Prog Op α} (hg : l.registering = some g)
    (hmem : (ref, e) ∈ g.claims)
    (hnext : Keeps (objects cfg) Spares Inv t Q (next ())
      ⟨some { g with claims := g.claims.erase (ref, e) }, none⟩) :
    Keeps (objects cfg) Spares Inv t Q (.call (.rollback ref e) next) l := by
  intro w s L hI hl hspare
  subst hl
  refine ⟨_, ?_, hnext⟩
  have h1 := hI.strike hg (ref, e)
  have hbooks : Books (s.registry.rollback ref t e w.now) _ := h1.books.rollback w.now (by
    rintro rfl
    exact hI.named t ref (hI.claimsOf_eq hg ▸ hmem))
  have hothers : ∀ u, u ≠ t → (s.onRegistering t fun g =>
      { g with claims := g.claims.erase (ref, e) }).claimsOf u = s.claimsOf u := fun u hu => by
    simp [Server.claimsOf, Server.onRegistering, Server.onSession, hu]
  refine h1.drops (t := t) hbooks (Drops.rollback w.now) ?_ ?_ ?_
  · rintro u - ⟨rfl, hD⟩ v hv
    rw [hothers v hv]
    exact hspare hD v hv
  · rintro u ⟨rfl, hsess, -⟩ hc
    rw [h1.claimsOf_eq (by rw [Function.update_self])] at hc
    cases e with
    | false =>
      -- the claim was noted once, so it is no longer
      have honce := hI.once t u
      rw [hI.claimsOf_eq hg] at honce
      have hpos := List.count_pos_iff.mpr hc
      rw [List.count_erase_self] at hpos
      omega
    | true =>
      have hheld : (s.registry.cells u).session = some t := hsess
      show ((s.registry.park u t w.now).cells u).session ≠ some t
      rw [park_session hheld]
      simp
  · simp

theorem keeps_drops {β : Type} {op : Op β} {next : β → Prog Op α} (hl : l = {})
    (hop : ∀ (w : World) (s : Server γ), Spares β t op s → ∃ r' D,
      (s.answer cfg t w op).1.registry = r' ∧ (s.answer cfg t w op).1.sessions = s.sessions ∧
      (Books s.registry s.reservingOf → Books r' s.reservingOf) ∧ Drops D s.registry r' ∧
      ∀ ref, s.registry.Named ref → D ref → s.Unclaimed t ref)
    (hnext : ∀ b, Keeps (objects cfg) Spares Inv t Q (next b) l) :
    Keeps (objects cfg) Spares Inv t Q (.call op next) l := by
  refine keeps_frame (fun w s L hI hL hC => ?_) hnext
  obtain ⟨r', D, hr, hs, hbooks, hdrops, hspare⟩ := hop w s hC
  have h1 : Inv { s with registry := r' } L := by
    refine hI.drops (t := t) (hbooks hI.books) hdrops hspare ?_ ?_
    · intro ref _ hc
      rw [hI.idle (by rw [hL, hl])] at hc
      cases hc
    · intro ref _
      rw [hL, hl]
      simp
  exact h1.frame hr fun u => by rw [hs]

theorem keeps_park {ref : ℕ} {next : Unit → Prog Op α} (hl : l = {})
    (hnext : Keeps (objects cfg) Spares Inv t Q (next ()) l) :
    Keeps (objects cfg) Spares Inv t Q (.call (.park ref) next) l := by
  refine keeps_drops hl (fun w s hC => ⟨_, _, rfl, rfl, (·.park w.now), Drops.park w.now, ?_⟩)
    fun _ => hnext
  rintro u - ⟨rfl, hD⟩
  exact hC hD

theorem keeps_expire {ref : ℕ} {next : Unit → Prog Op α} (hl : l = {})
    (hnext : Keeps (objects cfg) Spares Inv t Q (next ()) l) :
    Keeps (objects cfg) Spares Inv t Q (.call (.expire ref) next) l := by
  refine keeps_drops hl (fun w s hC => ⟨_, _, rfl, rfl, (·.expire), Drops.expire, ?_⟩)
    fun _ => hnext
  rintro u - ⟨rfl, hD⟩
  exact hC hD

theorem keeps_unreserve {name : String} {next : Unit → Prog Op α} (hl : l = {})
    (hnext : Keeps (objects cfg) Spares Inv t Q (next ()) l) :
    Keeps (objects cfg) Spares Inv t Q (.call (.unreserve name) next) l := by
  refine keeps_drops hl (fun w s hC => ⟨_, _, rfl, rfl, (·.unreserve name), Drops.unreserve name, ?_⟩)
    fun _ => hnext
  exact fun u _ hD => hC u hD

theorem keeps_releaseToken {tokenID : String} {next : List ℕ → Prog Op α} (hl : l = {})
    (hnext : ∀ b, Keeps (objects cfg) Spares Inv t Q (next b) l) :
    Keeps (objects cfg) Spares Inv t Q (.call (.releaseToken tokenID) next) l := by
  refine keeps_drops hl (fun w s hC => ⟨_, _, rfl, rfl, (·.releaseToken tokenID w.order),
    Drops.releaseToken tokenID w.order, ?_⟩) hnext
  exact fun u hn hD => hC u ⟨hn, hD⟩

theorem keeps_reserve {name tokenID : String} {port : ℤ} {next : Except RuleKind Unit → Prog Op α}
    (hnext : ∀ b, Keeps (objects cfg) Spares Inv t Q (next b) l) :
    Keeps (objects cfg) Spares Inv t Q (.call (.reserve name tokenID port) next) l := by
  refine keeps_frame (fun w s L hI _ _ => ?_) hnext
  dsimp only [Server.answer]
  split
  · exact hI
  next r' hr => exact hI.keepsNames (hI.books.reserve hr) (Drops.reserve hr)

theorem keeps_track {id : String} {next : Bool → Prog Op α} (hl : l = {})
    (hnext : ∀ b, Keeps (objects cfg) Spares Inv t Q (next b) l) :
    Keeps (objects cfg) Spares Inv t Q (.call (.track id) next) l := by
  refine keeps_frame (fun w s L hI hL _ => ?_) hnext
  dsimp only [Server.answer]
  split
  · exact hI
  · have h1 : Inv { s with tracked := t :: s.tracked } L := hI.frame rfl fun _ => rfl
    have hres : s.reservingOf t = none := by simp [Server.reservingOf, ← hI.own, hL, hl]
    have h2 := h1.reset (t := t) (x := none) (f := fun _ => { id := id }) hres (.inl rfl)
      fun _ => rfl
    rwa [← hl, ← hL, Function.update_eq_self] at h2

theorem keeps_startRegister {next : Unit → Prog Op α} (hl : l = {})
    (hnext : Keeps (objects cfg) Spares Inv t Q (next ()) ⟨some {}, none⟩) :
    Keeps (objects cfg) Spares Inv t Q (.call .startRegister next) l := by
  intro w s L hI hL _
  have hres : s.reservingOf t = none := by simp [Server.reservingOf, ← hI.own, hL, hl]
  exact ⟨_, hI.reset (f := fun a => { a with registering := some {} }) hres (.inr rfl) fun _ => rfl,
    hnext⟩

theorem keeps_endRegister {next : Unit → Prog Op α} (hg : l.registering = some g)
    (hfree : g.reserving = none) (hnext : Keeps (objects cfg) Spares Inv t Q (next ()) {}) :
    Keeps (objects cfg) Spares Inv t Q (.call .endRegister next) l := by
  intro w s L hI hL _
  subst hL
  exact ⟨_, hI.reset (f := fun a => { a with registering := none })
    ((hI.reservingOf_eq hg).trans hfree) (.inl rfl) fun _ => rfl, hnext⟩

end

section
variable {cfg : Config γ} {t : ℕ}

theorem keeps_tryListen {g : Registering} {cur : Option ℕ} (hfree : g.reserving = none) (p : ℤ) :
    Keeps (objects cfg) Spares Inv t
      (fun a l => l = match a with
        | .ok _ => ⟨some { g with reserving := some p }, cur⟩
        | .error _ => ⟨some g, cur⟩)
      (tryListen p) ⟨some g, cur⟩ := by
  refine keeps_reservePort rfl hfree rfl ?_
  refine keeps_quiet rfl fun b => ?_
  cases b with
  | ok ln => rfl
  | error err =>
    refine keeps_releasePort rfl rfl ?_
    show _ = _
    rw [← hfree]

theorem keeps_firstPort {g : Registering} {ref : ℕ} (hfree : g.reserving = none) :
    ∀ ports : List ℤ, (∀ p ∈ ports, p ≠ 0) →
      Keeps (objects cfg) Spares Inv t (fun _ l => l = ⟨some g, some ref⟩)
        (firstPort ref ports) ⟨some g, some ref⟩
  | [], _ => rfl
  | p :: ports, h0 => by
    refine (keeps_tryListen hfree p).bind fun b l hl => ?_
    cases b with
    | ok ln =>
      subst hl
      refine keeps_setPort rfl rfl (h0 p (by simp)) rfl ?_
      show _ = _
      rw [← hfree]
    | error err =>
      subst hl
      exact keeps_firstPort hfree ports fun q hq => h0 q (by simp [hq])

theorem tried_ne_zero {lo hi previous p : ℤ} (hlo : 1 ≤ lo)
    (hp : p ∈ (if lo ≤ previous ∧ previous ≤ hi then [previous] else []) ++ portsFrom lo hi) :
    p ≠ 0 := by
  rcases List.mem_append.mp hp with hp | hp
  · split at hp
    next hprev =>
      rw [List.mem_singleton.mp hp]
      omega
    next => cases hp
  · simp only [portsFrom, List.mem_map] at hp
    obtain ⟨k, -, rfl⟩ := hp
    omega

theorem keeps_listenTunnelPort {g : Registering} {ref : ℕ} (hfree : g.reserving = none)
    (requested previous : ℤ) (policy : Policy) :
    Keeps (objects cfg) Spares Inv t (fun _ l => l = ⟨some g, some ref⟩)
      (listenTunnelPort cfg.rules ref requested previous policy) ⟨some g, some ref⟩ := by
  unfold listenTunnelPort
  rw [ask_bind]
  refine keeps_quiet rfl fun held => ?_
  split
  · refine keeps_quiet rfl fun b => ?_
    cases b <;> rfl
  split
  next hreq =>
    split
    · rfl
    refine (keeps_tryListen hfree requested).bind fun b l hl => ?_
    cases b with
    | error err => exact hl
    | ok ln =>
      subst hl
      refine keeps_setPort rfl rfl hreq rfl ?_
      show _ = _
      rw [← hfree]
  next =>
    split
    · rfl
    next lo hi hrange =>
      -- the range is one of valid ports, so none of those tried is zero
      have hlo : 1 ≤ lo := cfg.valid.1.trans (Rules.allocationRange_ok hrange).1
      refine (keeps_firstPort hfree _ fun p hp => tried_ne_zero hlo hp).bind fun b l hl => ?_
      cases b <;> exact hl

theorem keeps_bindTunnel {g : Registering} (hfree : g.reserving = none) (who : Identity)
    (spec : TunnelSpec) (tn : Tunnel) :
    Keeps (objects cfg) Spares Inv t
      (fun a l => l = ⟨some g, some tn.res⟩ ∧
        ∀ tn', a = .ok tn' → tn'.res = tn.res ∧ tn'.existed = tn.existed)
      (bindTunnel cfg who spec tn) ⟨some g, some tn.res⟩ := by
  unfold bindTunnel
  split
  · refine (keeps_all (claimInCluster_all (fun _ => rfl) cfg who tn spec)).bind fun b l hl => ?_
    cases b with
    | error err => exact ⟨hl, by simp⟩
    | ok port => exact ⟨hl, by rintro _ ⟨⟩; exact ⟨rfl, rfl⟩⟩
  split
  · refine (keeps_listenTunnelPort hfree _ _ _).bind fun b l hl => ?_
    cases b with
    | error err => exact ⟨hl, by simp⟩
    | ok port => exact ⟨hl, by rintro _ ⟨⟩; exact ⟨rfl, rfl⟩⟩
  · exact ⟨rfl, by rintro _ ⟨⟩; exact ⟨rfl, rfl⟩⟩

def Claiming (claims : List (ℕ × Bool)) (l : Owned) : Prop :=
  ∃ g : Registering, l = ⟨some g, none⟩ ∧ g.reserving = none ∧ g.claims.Perm claims

def Tunnel.claimed (tn : Tunnel) : ℕ × Bool := (tn.res, tn.existed)

def Opened (claims : List (ℕ × Bool)) : Except OpenError Tunnel → Owned → Prop
  | .ok tn => Claiming (claims ++ [tn.claimed])
  | .error _ => Claiming claims

theorem keeps_rolledBack {α : Type} {claims : List (ℕ × Bool)} {g : Registering} {ref : ℕ} {e : Bool}
    {cur : Option ℕ} (hfree : g.reserving = none) (hperm : g.claims.Perm claims) (a : α) :
    Keeps (objects cfg) Spares Inv t (fun b l => b = a ∧ Claiming claims l)
      (do ask (.rollback ref e); pure a)
      ⟨some { g with claims := g.claims ++ [(ref, e)] }, cur⟩ := by
  refine keeps_rollback rfl (by simp) ⟨rfl, _, rfl, hfree, ?_⟩
  refine List.Perm.trans ?_ hperm
  have hlast := List.Perm.erase (ref, e) (List.perm_append_singleton (ref, e) g.claims)
  rwa [List.erase_cons_head] at hlast

theorem keeps_openChecked (who : Identity) (spec : TunnelSpec) (access : Access) (name : String)
    (domains : List String) {claims : List (ℕ × Bool)} {l : Owned} (hl : Claiming claims l) :
    Keeps (objects cfg) Spares Inv t (Opened claims)
      (openChecked cfg who spec access name domains) l := by
  obtain ⟨g, rfl, hfree, hperm⟩ := hl
  unfold openChecked
  rw [ask_bind]
  refine keeps_claim rfl (fun kind => ⟨g, rfl, hfree, hperm⟩) fun ref e => ?_
  refine keeps_setDomains rfl fun b => ?_
  cases b with
  | error d => exact (keeps_rolledBack hfree hperm _).mono fun a l ha => by rw [ha.1]; exact ha.2
  | ok _ =>
    dsimp only [ask_bind]
    refine keeps_quiet rfl fun id => ?_
    refine (keeps_bindTunnel (g := { g with claims := g.claims ++ [(ref, e)] }) hfree who spec
      _).bind fun b l hb => ?_
    obtain ⟨rfl, hres⟩ := hb
    cases b with
    | error err => exact (keeps_rolledBack hfree hperm _).mono fun a l ha => by rw [ha.1]; exact ha.2
    | ok tn =>
      refine keeps_activate ⟨_, rfl, hfree, ?_⟩
      obtain ⟨hr, he⟩ := hres tn rfl
      rw [Tunnel.claimed, hr, he]
      exact hperm.append_right _

theorem keeps_openNamed (who : Identity) (spec : TunnelSpec) (access : Access) (name : String)
    {claims : List (ℕ × Bool)} {l : Owned} (hl : Claiming claims l) :
    Keeps (objects cfg) Spares Inv t (Opened claims) (openNamed cfg who spec access name) l := by
  unfold openNamed
  split
  · exact hl
  · exact keeps_openChecked who spec access name _ hl

theorem keeps_openTunnel (who : Identity) (spec : TunnelSpec) {claims : List (ℕ × Bool)}
    {l : Owned} (hl : Claiming claims l) :
    Keeps (objects cfg) Spares Inv t (Opened claims) (openTunnel cfg who spec) l := by
  unfold openTunnel
  split
  · exact hl
  split
  · rw [ask_bind]
    exact keeps_quiet rfl fun id => keeps_openNamed who spec _ _ hl
  · exact keeps_openNamed who spec _ _ hl

theorem keeps_openAll (who : Identity) : ∀ (specs : List TunnelSpec) (opened : List Tunnel)
    {l : Owned}, Claiming (opened.map Tunnel.claimed) l →
    Keeps (objects cfg) Spares Inv t (fun a => Claiming (a.1.map Tunnel.claimed))
      (openAll cfg who specs opened) l
  | [], _, _, hl => hl
  | spec :: specs, opened, l, hl => by
    refine (keeps_openTunnel who spec hl).bind fun b l hb => ?_
    cases b with
    | error err => exact hb
    | ok tn =>
      refine keeps_openAll who specs (opened ++ [tn]) ?_
      rw [List.map_append]
      exact hb

theorem keeps_undo : ∀ (opened : List Tunnel) {l : Owned},
    Claiming (opened.map Tunnel.claimed) l →
    Keeps (objects cfg) Spares Inv t (fun _ => Claiming []) (undo opened) l
  | [], _, hl => hl
  | tn :: opened, l, hl => by
    obtain ⟨g, rfl, hfree, hperm⟩ := hl
    unfold undo
    rw [ask_bind]
    refine keeps_quiet rfl fun _ => ?_
    rw [ask_bind]
    refine keeps_rollback rfl ?_ (keeps_undo opened ⟨_, rfl, hfree, ?_⟩)
    · exact hperm.mem_iff.mpr (by simp [Tunnel.claimed])
    · have := hperm.erase tn.claimed
      rwa [List.map_cons, List.erase_cons_head] at this

theorem keeps_ended {α : Type} {claims : List (ℕ × Bool)} {l : Owned} (hl : Claiming claims l)
    (a : α) :
    Keeps (objects cfg) Spares Inv t (fun _ l => l = {}) (do ask .endRegister; pure a) l := by
  obtain ⟨g, rfl, hfree, -⟩ := hl
  exact keeps_endRegister rfl hfree rfl

theorem keeps_register (who : Identity) (specs : List TunnelSpec) :
    Keeps (objects cfg) Spares Inv t (fun _ l => l = {}) (register cfg who specs) {} := by
  unfold register
  split
  · rfl
  rw [ask_bind]
  refine keeps_startRegister rfl ?_
  refine (keeps_openAll who specs [] ⟨{}, rfl, rfl, .refl _⟩).bind fun out l hl => ?_
  obtain ⟨opened, err⟩ := out
  cases err with
  | some err =>
    refine (keeps_undo opened hl).bind fun _ l hl => ?_
    dsimp only
    split
    · rw [ask_bind]
      exact keeps_quiet rfl fun _ => keeps_ended hl _
    · exact keeps_ended hl _
  | none =>
    dsimp only [ask_bind]
    exact keeps_quiet rfl fun _ => keeps_ended hl _

theorem keeps_parkAll : ∀ ts : List Tunnel,
    Keeps (objects cfg) Spares Inv t (fun _ l => l = {}) (parkAll ts) {}
  | [] => rfl
  | tn :: ts => by
    unfold parkAll
    rw [ask_bind]
    refine keeps_quiet rfl fun _ => ?_
    rw [ask_bind]
    exact keeps_park rfl (keeps_parkAll ts)

theorem keeps_closeTunnels (sessionID : String) :
    Keeps (objects cfg) Spares Inv t (fun _ l => l = {}) (closeTunnels cfg sessionID) {} := by
  unfold closeTunnels
  rw [ask_bind]
  refine keeps_quiet rfl fun ts => ?_
  refine (keeps_parkAll ts).bind fun _ l hl => ?_
  subst hl
  split
  · rw [ask_bind]
    refine keeps_quiet rfl fun reason => ?_
    split <;> exact keeps_quiet rfl fun _ => rfl
  · rfl

theorem keeps_handshake (a : Agent) :
    Keeps (objects cfg) Spares Inv t (fun _ l => l = {}) (handshake cfg a) {} := by
  unfold handshake
  split
  · rfl
  split
  · rfl
  refine (keeps_all (authenticate_all (fun _ => rfl) cfg _ _)).bind fun found l hl => ?_
  subst hl
  split
  · rfl
  · rfl
  split
  · rfl
  · exact keeps_quiet rfl fun _ => rfl

theorem keeps_controlLoop (who : Identity) : ∀ requests : List (List TunnelSpec),
    Keeps (objects cfg) Spares Inv t (fun _ l => l = {}) (controlLoop cfg who requests) {}
  | [] => rfl
  | specs :: rest => by
    refine (keeps_register who specs).bind fun reply l hl => ?_
    subst hl
    cases reply with
    | none => rfl
    | some _ => exact keeps_controlLoop who rest

theorem keeps_serveAgent (a : Agent) :
    Keeps (objects cfg) Spares Inv t (fun _ l => l = {}) (serveAgent cfg a) {} := by
  have hend : Keeps (objects cfg) Spares Inv t (fun _ l => l = {})
      (do closeTunnels cfg a.sessionID; ask .untrack) {} := by
    refine (keeps_closeTunnels a.sessionID).bind fun _ l hl => ?_
    subst hl
    exact keeps_quiet rfl fun _ => rfl
  unfold serveAgent
  rw [ask_bind]
  refine keeps_track rfl fun tracked => ?_
  split
  swap
  · rfl
  refine (keeps_handshake a).bind fun found l hl => ?_
  subst hl
  split
  · exact hend
  split
  · refine keeps_quiet rfl fun _ => (keeps_controlLoop _ a.requests).bind fun _ l hl => ?_
    subst hl
    exact keeps_quiet rfl fun _ => keeps_quiet rfl fun _ => hend
  · refine (keeps_controlLoop _ a.requests).bind fun _ l hl => ?_
    subst hl
    exact hend

theorem keeps_disconnectToken (tokenID : String) :
    Keeps (objects cfg) Spares Inv t (fun _ l => l = {}) (disconnectToken tokenID) {} := by
  refine keeps_releaseToken rfl fun holders => keeps_quiet rfl fun scanned => ?_
  refine (keeps_all (closeAll_all (fun _ _ => rfl) _)).bind fun _ l hl => ?_
  exact hl

theorem keeps_reserveName (name tokenID : String) (port : ℤ) :
    Keeps (objects cfg) Spares Inv t (fun _ l => l = {}) (Registrar.reserve cfg name tokenID port)
      {} := by
  unfold Registrar.reserve
  split
  · rfl
  · rw [ask_bind]
    refine keeps_reserve fun b => ?_
    split <;> rfl

theorem keeps_prog (caller : Caller) :
    Keeps (objects cfg) Spares Inv t (fun _ l => l = {}) (caller.prog cfg) {} := by
  cases caller with
  | agent a => exact Keeps.bind (M := fun _ (l : Owned) => l = {}) (keeps_serveAgent a) fun _ l hl => hl
  | reserve name tokenID port => exact (keeps_reserveName name tokenID port).bind fun _ l hl => hl
  | unreserve name => exact keeps_unreserve rfl rfl
  | disconnectToken tokenID => exact keeps_disconnectToken tokenID
  | revokeToken tokenID => exact keeps_quiet rfl fun _ => keeps_disconnectToken tokenID
  | expire ref => exact keeps_expire rfl rfl

end

abbrev start (cfg : Config γ) (grace : ℤ) (clustered : Bool) (tokens : Table TokenRecord.id)
    (cluster : γ) (callers : ℕ → Caller) : Server γ × (ℕ → Prog Op (List ℕ)) :=
  (Server.new grace clustered tokens cluster, fun t => (callers t).prog cfg)

/-- The registry's books hold at every point of every interleaving of its callers. -/
theorem books_run {cfg : Config γ} {grace : ℤ} {clustered : Bool}
    {tokens : Table TokenRecord.id} {cluster : γ} {callers : ℕ → Caller}
    {as : List (ℕ × World)} {s : Server γ} {P : ℕ → Prog Op (List ℕ)}
    (hrun : Run (Guarded (Obeys Spares) (PoolStep (objects cfg)))
      (start cfg grace clustered tokens cluster callers) as (s, P)) :
    Books s.registry s.reservingOf := by
  obtain ⟨L, hI, -⟩ := keeps_run (Q := fun _ _ l => l = {}) hrun
    (Inv.new grace clustered tokens cluster) fun t => keeps_prog (callers t)
  exact hI.books

end L8Tunnel.Registrar
