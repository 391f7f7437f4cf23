import L8Tunnel.Registrar.Exclusive

/-! # Revoking a token -/

namespace L8Tunnel.Registrar
open Base Auth

variable {γ : Type}

def Fewer (r r' : NameRegistry) : Prop :=
  ∀ u, r'.Named u → r.Named u ∧ (r'.cells u).tokenID = (r.cells u).tokenID

namespace Fewer
open NameRegistry
variable {r r1 r' : NameRegistry} {ref sess : ℕ}

theorem refl (r : NameRegistry) : Fewer r r := fun _ hu => ⟨hu, rfl⟩

theorem trans (h : Fewer r r1) (h' : Fewer r1 r') : Fewer r r' := fun u hu =>
  ⟨(h u (h' u hu).1).1, (h' u hu).2.trans (h u (h' u hu).1).2⟩

theorem same (hnames : r'.names = r.names)
    (hcells : ∀ u, (r'.cells u).tokenID = (r.cells u).tokenID) : Fewer r r' := fun u hu =>
  ⟨(named_congr (fun n => by rw [hnames]) u).mp hu, hcells u⟩

theorem modify {f : Reservation → Reservation} (hf : ∀ v, (f v).name = v.name)
    (hkeep : ∀ v, (f v).tokenID = v.tokenID) : Fewer r (r.modify ref f hf) := by
  refine same rfl fun u => ?_
  rw [modify_cells]
  split
  · exact hkeep _
  · rfl

theorem addPort (r : NameRegistry) (port : ℤ) : Fewer r (r.addPort port) := same rfl fun _ => rfl
theorem freePort (r : NameRegistry) (port : ℤ) : Fewer r (r.freePort port) := same rfl fun _ => rfl

theorem deleteLocked : Fewer r (r.deleteLocked ref) := by
  intro u hu
  refine ⟨((named_deleteLocked r ref u).mp hu).1, ?_⟩
  rw [deleteLocked_cells]
  split <;> rfl

theorem park (now : ℤ) : Fewer r (r.park ref sess now) := by
  have h1 : Fewer r (r.modify ref (fun v => { v with session := none, tunnel := none })
      fun _ => rfl) := modify _ fun _ => rfl
  refine park_induction (fun _ => refl r) (fun _ _ => h1) (fun _ _ _ => ?_) fun _ _ _ _ => ?_
  · exact h1.trans deleteLocked
  · exact h1.trans (modify _ fun _ => rfl)

theorem rollback {existed : Bool} (now : ℤ) : Fewer r (r.rollback ref sess existed now) := by
  unfold NameRegistry.rollback
  split
  · exact park now
  split
  · exact deleteLocked
  · exact refl r

theorem expire : Fewer r (r.expire ref) := by
  unfold NameRegistry.expire
  split
  · exact deleteLocked
  · exact refl r

theorem unreserve (name : String) : Fewer r (r.unreserve name) := by
  unfold NameRegistry.unreserve
  split
  · exact refl r
  split
  · exact refl r
  next u _ _ =>
  have h1 : Fewer r (r.modify u (fun v => { v with permanent := false }) fun _ => rfl) :=
    modify _ fun _ => rfl
  dsimp only
  split
  · exact h1.trans deleteLocked
  · exact h1

theorem setPort (port : ℤ) : Fewer r (r.setPort ref port) := by
  refine same (setPort_names r ref port) fun u => ?_
  rw [setPort_cells]
  split <;> rfl

theorem setDomains {ds : List String} (hr : r.setDomains ref ds = .ok r') : Fewer r r' := by
  unfold NameRegistry.setDomains at hr
  split at hr
  · cases hr
  · cases hr
    refine same rfl fun u => ?_
    rw [replaceDomains_cells]
    split <;> rfl

end Fewer

section
open NameRegistry
variable {r r' : NameRegistry} {name tokenID : String}

theorem named_alloc_token {v : Reservation} (hfree : r.names.get v.name = none) {u : ℕ}
    (hu : (r.alloc v).Named u) :
    (r.Named u ∧ ((r.alloc v).cells u).tokenID = (r.cells u).tokenID) ∨
      ((r.alloc v).cells u).tokenID = v.tokenID := by
  rw [alloc_cells]
  split
  · exact .inr rfl
  next hne =>
    rcases (named_alloc hfree u).mp hu with hu | hu
    · exact .inl ⟨hu, rfl⟩
    · exact absurd hu hne

theorem claim_token {typ : TunnelType} {agentID : String} {sess : ℕ} {maxTunnels : ℤ} {c : Claimed}
    (hc : r.claim name typ tokenID agentID sess maxTunnels = .ok c) {u : ℕ}
    (hu : c.registry.Named u) :
    (r.Named u ∧ (c.registry.cells u).tokenID = (r.cells u).tokenID) ∨
      (c.registry.cells u).tokenID = tokenID := by
  obtain ⟨hget, rfl⟩ | ⟨ref, stale, hget, rfl⟩ := claim_ok hc
  · exact named_alloc_token hget hu
  · have hfewer : Fewer r (r.modify ref (fun v => { v with
        timer := false, typ := typ, agentID := agentID, session := some sess, tunnel := none })
        fun _ => rfl) := Fewer.modify _ fun _ => rfl
    exact .inl (hfewer u hu)

theorem reserve_token {port : ℤ} (hr : r.reserve name tokenID port = .ok r') {u : ℕ}
    (hu : r'.Named u) :
    (r.Named u ∧ (r'.cells u).tokenID = (r.cells u).tokenID) ∨ (r'.cells u).tokenID = tokenID := by
  -- a write that names nobody and leaves the tokens keeps it
  have hkeeps : ∀ {q q' : NameRegistry}, (q.Named u → (r.Named u ∧ (q.cells u).tokenID =
      (r.cells u).tokenID) ∨ (q.cells u).tokenID = tokenID) → Fewer q q' → q'.Named u →
      (r.Named u ∧ (q'.cells u).tokenID = (r.cells u).tokenID) ∨ (q'.cells u).tokenID = tokenID := by
    intro q q' hq hfewer hu
    obtain ⟨hold, htok⟩ := hfewer u hu
    rw [htok]
    exact hq hold
  refine reserve_induction (P := fun q => q.Named u → (r.Named u ∧ (q.cells u).tokenID =
    (r.cells u).tokenID) ∨ (q.cells u).tokenID = tokenID) hr (fun hu => .inl ⟨hu, rfl⟩)
    (fun hget hu => named_alloc_token hget hu) ?_ ?_ ?_ ?_ hu
  · exact fun _ p hq => hkeeps hq (Fewer.freePort _ p)
  · exact fun _ hq => hkeeps hq (Fewer.addPort _ port)
  · exact fun _ _ hq => hkeeps hq (Fewer.modify _ fun _ => rfl)
  · exact fun _ _ hq => hkeeps hq (Fewer.modify _ fun _ => rfl)

/-- After a release no name is left to the token, and nothing new is named. -/
theorem releaseToken_spec (r : NameRegistry) (tokenID : String) (order : RangeOrder) :
    Fewer r (r.releaseToken tokenID order).1 ∧
      ∀ u, (r.releaseToken tokenID order).1.Named u →
        ((r.releaseToken tokenID order).1.cells u).tokenID ≠ tokenID := by
  unfold NameRegistry.releaseToken
  suffices hfold : ∀ (names : List String) (acc : NameRegistry × List ℕ), Fewer r acc.1 →
      (∀ n u, acc.1.names.get n = some u → (acc.1.cells u).tokenID = tokenID → n ∈ names) →
      Fewer r (names.foldl (releaseOne tokenID) acc).1 ∧
      ∀ u, (names.foldl (releaseOne tokenID) acc).1.Named u →
        ((names.foldl (releaseOne tokenID) acc).1.cells u).tokenID ≠ tokenID from
    hfold _ (r, []) (Fewer.refl r) fun n u hn _ => (r.names.mem_range order n).mpr ⟨u, hn⟩
  intro names
  induction names with
  | nil =>
    intro acc hacc hleft
    refine ⟨hacc, fun u hu htok => ?_⟩
    cases hleft _ u hu htok
  | cons name names ih =>
    intro acc hacc hleft
    refine ih _ ?_ ?_
    · unfold releaseOne
      split
      · exact hacc
      split
      · exact hacc.trans Fewer.deleteLocked
      · exact hacc
    · intro n u hn htok
      unfold releaseOne at hn htok
      split at hn
      next hnone =>
        simp only [hnone] at htok
        rcases List.mem_cons.mp (hleft n u hn htok) with rfl | hmem
        · rw [hnone] at hn
          cases hn
        · exact hmem
      next ref hget =>
        simp only [hget] at htok
        split at hn
        next hmine =>
          rw [if_pos hmine] at htok
          dsimp only at hn htok
          rw [deleteLocked_names] at hn
          split at hn
          · cases hn
          next hne =>
            have htok' : (acc.1.cells u).tokenID = tokenID := by
              rw [deleteLocked_cells] at htok
              split at htok <;> exact htok
            rcases List.mem_cons.mp (hleft n u hn htok') with rfl | hmem
            · exact absurd hget hne
            · exact hmem
        next hother =>
          rw [if_neg hother] at htok
          rcases List.mem_cons.mp (hleft n u hn htok) with rfl | hmem
          · rw [hget] at hn
            cases hn
            exact absurd htok hother
          · exact hmem

end

structure Calm (s s' : Server γ) : Prop where
  tracked : s'.tracked = s.tracked
  token : ∀ u, (s'.sessions u).token = (s.sessions u).token
  looked : ∀ u, (s'.sessions u).looked = (s.sessions u).looked
  tokens : s'.tokens = s.tokens
  released : s'.released = s.released

namespace Calm
variable {s s1 s' : Server γ}

theorem refl (s : Server γ) : Calm s s := ⟨rfl, fun _ => rfl, fun _ => rfl, rfl, rfl⟩

theorem trans (h : Calm s s1) (h' : Calm s1 s') : Calm s s' :=
  ⟨h'.tracked.trans h.tracked, fun u => (h'.token u).trans (h.token u),
    fun u => (h'.looked u).trans (h.looked u), h'.tokens.trans h.tokens,
    h'.released.trans h.released⟩

theorem registry (s : Server γ) (r : NameRegistry) : Calm s { s with registry := r } :=
  ⟨rfl, fun _ => rfl, fun _ => rfl, rfl, rfl⟩

theorem cluster (s : Server γ) (k : γ) : Calm s { s with cluster := k } :=
  ⟨rfl, fun _ => rfl, fun _ => rfl, rfl, rfl⟩

theorem onSession (s : Server γ) (t : ℕ) {f : AgentSession → AgentSession}
    (hf : ∀ a, (f a).token = a.token ∧ (f a).looked = a.looked) : Calm s (s.onSession t f) := by
  refine ⟨rfl, fun u => ?_, fun u => ?_, rfl, rfl⟩
  · by_cases hu : u = t
    · subst hu
      simp [Server.onSession, hf]
    · simp [Server.onSession, hu]
  · by_cases hu : u = t
    · subst hu
      simp [Server.onSession, hf]
    · simp [Server.onSession, hu]

theorem onRegistering (s : Server γ) (t : ℕ) (f : Registering → Registering) :
    Calm s (s.onRegistering t f) :=
  onSession s t fun _ => ⟨rfl, rfl⟩

theorem closeListener (s : Server γ) (tn : Tunnel) : Calm s (s.closeListener tn) := by
  unfold Server.closeListener
  split
  · exact ⟨rfl, fun _ => rfl, fun _ => rfl, rfl, rfl⟩
  · exact refl s

end Calm

def Op.calm {β : Type} : Op β → Bool
  | .track _ | .untrack | .tokenByID _ | .setToken _ _ | .deleteToken _ | .releaseToken _ => false
  | _ => true

variable {T : String} {s s' : Server γ} (cfg : Config γ)

theorem answer_calm {β : Type} {op : Op β} (hop : op.calm) (t : ℕ) (w : World) (s : Server γ) :
    Calm s (s.answer cfg t w op).1 := by
  cases op with
  | portOf | randomID | reason | sessionsOf => exact .refl s
  | activate | park | expire | unreserve => exact .registry s _
  | startRegister | endRegister | addTunnels | takeTunnels | closeSession =>
    dsimp only [Server.answer]
    refine .onSession s _ fun _ => ?_
    exact ⟨rfl, rfl⟩
  | releasePort | setPort | rollback => exact (Calm.registry s _).trans (.onRegistering _ t _)
  | closeTunnel tn => exact .closeListener s tn
  | claim name typ tokenID agentID maxTunnels =>
    dsimp only [Server.answer, Server.claim]
    split
    · exact .refl s
    next c _ =>
      refine Calm.trans ?_ (.onRegistering _ t _)
      cases c.stale with
      | some tn => exact (Calm.registry s _).trans (.closeListener _ tn)
      | none => exact .registry s _
  | setDomains | reserve =>
    dsimp only [Server.answer]
    split
    · exact .refl s
    · exact .registry s _
  | reservePort =>
    dsimp only [Server.answer]
    split
    · exact .refl s
    · exact (Calm.registry s _).trans (.onRegistering _ t _)
  | listen =>
    dsimp only [Server.answer, Server.listen]
    split
    · exact .refl s
    · exact ⟨rfl, fun _ => rfl, fun _ => rfl, rfl, rfl⟩
  | claimTunnel | parkTunnels | releaseTunnels | agentUp | agentDown =>
    dsimp only [Server.answer]
    split
    · exact .refl s
    · exact .cluster s _
  | _ => cases hop

/-- The call is not one of the two that DisconnectToken of `T` cannot bear: a
claim of the token once its reservations are dropped, and the search for its
sessions while one has found it in the store and does not say so yet. -/
def Settled (T : String) (β : Type) (_ : ℕ) (op : Op β) (s : Server γ) : Prop :=
  match op with
  | .claim _ _ tokenID _ _ => tokenID = T → T ∉ s.released
  | .reserve _ tokenID _ => tokenID = T → T ∉ s.released
  | .sessionsOf tokenID => tokenID = T →
      ∀ u ∈ s.tracked, T ∈ (s.sessions u).looked → (s.sessions u).token ≠ none
  | _ => True

def Dropped (T : String) (s : Server γ) : Prop :=
  T ∈ s.released → ∀ ref, s.registry.Named ref → (s.registry.cells ref).tokenID ≠ T

theorem dropped_fewer (h : Dropped T s) (hreleased : s'.released = s.released)
    (hfewer : Fewer s.registry s'.registry) : Dropped T s' := by
  intro hT ref href
  obtain ⟨hold, htok⟩ := hfewer ref href
  rw [htok]
  exact h (hreleased ▸ hT) ref hold

theorem answer_dropped {β : Type} (op : Op β) (t : ℕ) (w : World) (hC : Settled T β t op s)
    (h : Dropped T s) : Dropped T (s.answer cfg t w op).1 := by
  have hcalm : op.calm → (s.answer cfg t w op).1.released = s.released := fun hop =>
    (answer_calm cfg hop t w s).released
  cases op with
  | claim name typ tokenID agentID maxTunnels =>
    intro hT ref href
    rw [hcalm rfl] at hT
    dsimp only [Server.answer] at href ⊢
    cases hc : s.registry.claim name typ tokenID agentID t maxTunnels with
    | error kind =>
      have hsame : (s.claim t name typ tokenID agentID maxTunnels).1 = s := by
        simp [Server.claim, hc]
      rw [hsame] at href ⊢
      exact h hT ref href
    | ok c =>
      rw [claim_registry hc] at href ⊢
      rcases claim_token hc href with ⟨hold, htok⟩ | htok
      · rw [htok]
        exact h hT ref hold
      · rw [htok]
        exact fun heq => hC heq hT
  | reserve name tokenID port =>
    intro hT ref href
    rw [hcalm rfl] at hT
    dsimp only [Server.answer] at href ⊢
    split at href
    · exact h hT ref href
    next r' hr =>
      rcases reserve_token hr href with ⟨hold, htok⟩ | htok
      · rw [htok]
        exact h hT ref hold
      · rw [htok]
        exact fun heq => hC heq hT
  | releaseToken tokenID =>
    obtain ⟨hfewer, hnone⟩ := releaseToken_spec s.registry tokenID w.order
    intro hT ref href
    rcases List.mem_cons.mp hT with rfl | hT
    · exact hnone ref href
    · obtain ⟨hold, htok⟩ := hfewer ref href
      exact htok ▸ h hT ref hold
  | portOf | randomID | reason | sessionsOf | startRegister | endRegister | addTunnels | takeTunnels
  | closeSession | setToken | untrack | deleteToken => exact h
  | activate => exact dropped_fewer h rfl (Fewer.modify _ fun _ => rfl)
  | park => exact dropped_fewer h rfl (Fewer.park _)
  | expire => exact dropped_fewer h rfl Fewer.expire
  | unreserve => exact dropped_fewer h rfl (Fewer.unreserve _)
  | releasePort => exact dropped_fewer h rfl (Fewer.freePort _ _)
  | setPort => exact dropped_fewer h rfl (Fewer.setPort _)
  | rollback => exact dropped_fewer h rfl (Fewer.rollback _)
  | closeTunnel tn =>
    refine dropped_fewer h (hcalm rfl) ?_
    show Fewer s.registry (s.closeListener tn).registry
    rw [closeListener_registry]
    exact Fewer.refl _
  | setDomains =>
    refine dropped_fewer h (hcalm rfl) ?_
    dsimp only [Server.answer]
    split
    · exact Fewer.refl _
    next hr => exact Fewer.setDomains hr
  | reservePort =>
    refine dropped_fewer h (hcalm rfl) ?_
    dsimp only [Server.answer, NameRegistry.reservePort]
    split
    · exact Fewer.refl _
    next r' hr =>
      split at hr
      · cases hr
      · cases hr
        exact Fewer.addPort _ _
  | listen =>
    dsimp only [Server.answer, Server.listen]
    split <;> exact h
  | claimTunnel | parkTunnels | releaseTunnels | agentUp | agentDown | track =>
    dsimp only [Server.answer]
    split <;> exact h
  | tokenByID =>
    dsimp only [Server.answer]
    split
    · exact h
    split <;> exact h

/-- Where a thread is in revoking the token, or in a handshake that has found it. -/
inductive Phase where
  | idle
  | hello (ids : List String)
  | deleted
  | released
  | scanned (sessions : List ℕ)

def Scanned (T : String) (sessions : List ℕ) (s : Server γ) : Prop :=
  ∀ u ∈ s.tracked, (T ∈ (s.sessions u).looked → (s.sessions u).token ≠ none) ∧
    ∀ rec, (s.sessions u).token = some rec → rec.id = T → u ∈ sessions

def Phase.At (T : String) (s : Server γ) (t : ℕ) : Phase → Prop
  | .idle => True
  | .hello ids =>
    t ∈ s.tracked ∧ (s.sessions t).token = none ∧ ∀ id ∈ ids, id ∈ (s.sessions t).looked
  | .deleted => s.tokens.get T = none
  | .released => s.tokens.get T = none ∧ T ∈ s.released
  | .scanned sessions => s.tokens.get T = none ∧ T ∈ s.released ∧ Scanned T sessions s

theorem Phase.At.mono {u : ℕ} {l : Phase} (h : l.At T s u)
    (htokens : s.tokens.get T = none → s'.tokens.get T = none)
    (hreleased : T ∈ s.released → T ∈ s'.released) (htracked : u ∈ s.tracked → u ∈ s'.tracked)
    (hsame : (s'.sessions u).token = (s.sessions u).token ∧ (s'.sessions u).looked = (s.sessions
      u).looked)
    (hscan : ∀ sessions, s.tokens.get T = none → Scanned T sessions s → Scanned T sessions s') :
    l.At T s' u := by
  cases l with
  | idle => trivial
  | hello ids =>
    obtain ⟨h1, h2, h3⟩ := h
    exact ⟨htracked h1, hsame.1.trans h2, fun id hid => hsame.2 ▸ h3 id hid⟩
  | deleted => exact htokens h
  | released => exact ⟨htokens h.1, hreleased h.2⟩
  | scanned sessions => exact ⟨htokens h.1, hreleased h.2.1, hscan sessions h.1 h.2.2⟩

/-- What a drop of the token has left, with each thread where its phase says. -/
structure Closing (T : String) (s : Server γ) (L : ℕ → Phase) : Prop where
  dropped : Dropped T s
  phase : ∀ t, (L t).At T s t

namespace Closing
variable {L : ℕ → Phase} {t : ℕ} {l : Phase}

theorem new (T : String) (grace : ℤ) (clustered : Bool) (tokens : Table TokenRecord.id)
    (cluster : γ) : Closing T (.new grace clustered tokens cluster) fun _ => .idle :=
  ⟨fun h => absurd h List.not_mem_nil, fun _ => trivial⟩

theorem step (h : Closing T s L) (hdropped : Dropped T s') (hl : l.At T s' t)
    (htokens : s.tokens.get T = none → s'.tokens.get T = none)
    (hreleased : T ∈ s.released → T ∈ s'.released)
    (htracked : ∀ u, u ≠ t → u ∈ s.tracked → u ∈ s'.tracked)
    (hothers : ∀ u, u ≠ t → (s'.sessions u).token = (s.sessions u).token ∧
      (s'.sessions u).looked = (s.sessions u).looked)
    (hscan : ∀ sessions, s.tokens.get T = none → Scanned T sessions s → Scanned T sessions s') :
    Closing T s' (Function.update L t l) := by
  refine ⟨hdropped, fun u => ?_⟩
  by_cases hu : u = t
  · subst hu
    rw [Function.update_self]
    exact hl
  · rw [Function.update_of_ne hu]
    exact (h.phase u).mono htokens hreleased (htracked u hu) (hothers u hu) hscan

theorem still (h : Closing T s L) (hdropped : Dropped T s')
    (htokens : s.tokens.get T = none → s'.tokens.get T = none)
    (hreleased : T ∈ s.released → T ∈ s'.released) (htracked : s'.tracked = s.tracked)
    (hsame : ∀ u, (s'.sessions u).token = (s.sessions u).token ∧
      (s'.sessions u).looked = (s.sessions u).looked) : Closing T s' L := by
  refine ⟨hdropped, fun u => (h.phase u).mono htokens hreleased (htracked ▸ ·) (hsame u) ?_⟩
  intro sessions _ hs v hv
  rw [(hsame v).1, (hsame v).2]
  exact hs v (htracked ▸ hv)

end Closing

def Op.steady {β : Type} : Op β → Bool
  | .track _ | .untrack | .tokenByID _ | .setToken _ _ => false
  | _ => true

section
variable {cfg : Config γ} {t : ℕ} {α : Type} {Q : α → Phase → Prop} {l : Phase}

theorem closing_steady {β : Type} {op : Op β} (hop : op.steady) (w : World) {s : Server γ}
    {L : ℕ → Phase} (h : Closing T s L) (hC : Settled T β t op s) :
    Closing T (s.answer cfg t w op).1 L := by
  have hdropped := answer_dropped cfg op t w hC h.dropped
  by_cases hcalm : op.calm
  · have hc := answer_calm cfg hcalm t w s
    exact h.still hdropped (hc.tokens ▸ ·) (hc.released ▸ ·) hc.tracked
      fun u => ⟨hc.token u, hc.looked u⟩
  · cases op with
    | deleteToken tokenID =>
      refine h.still hdropped (fun hT => ?_) id rfl fun _ => ⟨rfl, rfl⟩
      show (s.tokens.del tokenID).get T = none
      rw [Table.get_del]
      split
      · rfl
      · exact hT
    | releaseToken tokenID =>
      exact h.still hdropped id (List.mem_cons_of_mem _) rfl fun _ => ⟨rfl, rfl⟩
    | track | untrack | tokenByID | setToken => cases hop
    | _ => exact absurd rfl hcalm

theorem steady_all {p : Prog Op α} (hp : p.All fun _ op => op.steady) :
    Keeps (objects cfg) (Settled T) (Closing T) t (fun _ l' => l' = l) p l :=
  Keeps.of_all hp fun _ _ w _ _ hop hI _ hC => closing_steady hop w hI hC

variable {id : String} {ids : List String}

theorem phase_tokenByID {next : Except String (Option TokenRecord) → Prog Op α}
    (hnone : ∀ a, (∀ rec, a ≠ .ok (some rec)) → Keeps (objects cfg) (Settled T) (Closing T) t Q
      (next a) (.hello ids))
    (hfound : ∀ rec, rec.id = id → Keeps (objects cfg) (Settled T) (Closing T) t Q
      (next (.ok (some rec))) (.hello (id :: ids))) :
    Keeps (objects cfg) (Settled T) (Closing T) t Q (.call (.tokenByID id) next) (.hello ids) := by
  intro w s L hI hl hC
  have hat : (Phase.hello ids).At T s t := hl ▸ hI.phase t
  have hsame : Closing T s (Function.update L t (.hello ids)) := by
    rwa [← hl, Function.update_eq_self]
  cases hw : w.storeError with
  | some err =>
    rw [answer_tokenByID_failed hw]
    exact ⟨_, hsame, hnone _ (by simp)⟩
  | none =>
    cases hget : s.tokens.get id with
    | none =>
      rw [answer_tokenByID_missing hw hget]
      exact ⟨_, hsame, hnone _ (by simp)⟩
    | some rec =>
      rw [answer_tokenByID_found hw hget]
      refine ⟨_, hI.step hI.dropped ?_ (fun h => h) (fun h => h) (fun _ _ h => h) (fun u hu => ?_) ?_,
        hfound rec (Table.key_of_get hget)⟩
      · obtain ⟨h1, h2, h3⟩ := hat
        refine ⟨h1, by simpa [Server.onSession] using h2, fun i hi => ?_⟩
        rcases List.mem_cons.mp hi with rfl | hi
        · simp [Server.onSession]
        · simp [Server.onSession, h3 i hi]
      · simp [Server.onSession, hu]
      · -- once the token is deleted it is not found any more
        intro sessions hT hs u hu
        have hne : T ≠ id := by
          rintro rfl
          rw [hT] at hget
          cases hget
        by_cases hut : u = t
        · subst hut
          simpa [Server.onSession, hne] using hs u hu
        · simpa [Server.onSession, hut] using hs u hu

theorem phase_setToken {rec : TokenRecord} {agentID : String} {next : ℤ → Prog Op α}
    (hmem : rec.id ∈ ids)
    (hnext : ∀ now, Keeps (objects cfg) (Settled T) (Closing T) t Q (next now) .idle) :
    Keeps (objects cfg) (Settled T) (Closing T) t Q (.call (.setToken rec agentID) next)
      (.hello ids) := by
  intro w s L hI hl hC
  have hat : (Phase.hello ids).At T s t := hl ▸ hI.phase t
  refine ⟨.idle, hI.step hI.dropped trivial (fun h => h) (fun h => h) (fun _ _ h => h)
    (fun u hu => ?_) ?_, hnext _⟩ <;> dsimp only [objects, Server.answer]
  · simp [Server.onSession, hu]
  · intro sessions _ hs u hu
    by_cases hut : u = t
    · subst hut
      have hold := (hs u hu).1
      refine ⟨by simp [Server.onSession], fun rec' hrec hT => ?_⟩
      have heq : rec = rec' := by simpa [Server.onSession] using hrec
      -- a token found before the search is one the session had by then
      exact absurd hat.2.1 (hold (hT ▸ heq ▸ hat.2.2 rec.id hmem))
    · simpa [Server.onSession, hut] using hs u hu

theorem phase_track {next : Bool → Prog Op α}
    (hyes : Keeps (objects cfg) (Settled T) (Closing T) t Q (next true) (.hello []))
    (hno : Keeps (objects cfg) (Settled T) (Closing T) t Q (next false) .idle) :
    Keeps (objects cfg) (Settled T) (Closing T) t Q (.call (.track id) next) .idle := by
  intro w s L hI hl hC
  by_cases hclosed : s.closed
  · rw [answer_track_closed hclosed]
    exact ⟨.idle, by rwa [← hl, Function.update_eq_self], hno⟩
  · rw [answer_track_open hclosed]
    refine ⟨.hello [], hI.step hI.dropped ?_ (fun h => h) (fun h => h)
      (fun _ _ h => List.mem_cons_of_mem _ h) (fun u hu => ?_) ?_, hyes⟩
    · exact ⟨List.mem_cons_self, by simp [Server.onSession], by simp⟩
    · simp [Server.onSession, hu]
    · intro sessions _ hs u hu
      by_cases hut : u = t
      · subst hut
        simp [Server.onSession]
      · have hmem : u ∈ s.tracked := by
          rcases List.mem_cons.mp hu with h | h
          · exact absurd h hut
          · exact h
        simpa [Server.onSession, hut] using hs u hmem

theorem phase_untrack {next : Unit → Prog Op α}
    (hnext : Keeps (objects cfg) (Settled T) (Closing T) t Q (next ()) .idle) :
    Keeps (objects cfg) (Settled T) (Closing T) t Q (.call .untrack next) l := by
  intro w s L hI hl hC
  refine ⟨.idle, hI.step hI.dropped trivial (fun h => h) (fun h => h) (fun u hu h => ?_)
    (fun _ _ => ⟨rfl, rfl⟩) ?_, hnext⟩
  · dsimp only [objects, Server.answer]
    simpa [hu] using h
  · intro sessions _ hs u hu
    exact hs u (List.mem_of_mem_filter hu)

def Found (ids : List String) (rec : Option TokenRecord) (l : Phase) : Prop :=
  ∃ ids', l = .hello ids' ∧ ids ⊆ ids' ∧ ∀ r, rec = some r → r.id ∈ ids'

theorem phase_certToken (ids : List String) (peer : Option Peer) :
    Keeps (objects cfg) (Settled T) (Closing T) t (fun a => Found ids (a.toOption.join))
      (certToken peer) (.hello ids) := by
  have hnot : Found ids none (.hello ids) := ⟨ids, rfl, List.Subset.refl _, by simp⟩
  unfold certToken
  split
  · exact hnot
  · exact hnot
  next id serial =>
    rw [ask_bind]
    refine phase_tokenByID (fun a ha => ?_) fun rec hid => ?_
    · obtain err | _ | rec := a
      · exact hnot
      · exact hnot
      · exact absurd rfl (ha rec)
    · dsimp only
      have hcons : ids ⊆ id :: ids := List.subset_cons_self _ _
      split
      · exact ⟨id :: ids, rfl, hcons, by rintro _ ⟨⟩; simp [hid]⟩
      · exact ⟨id :: ids, rfl, hcons, by rintro _ ⟨⟩⟩

theorem phase_verifyToken (ids : List String) (token : String) :
    Keeps (objects cfg) (Settled T) (Closing T) t (fun a => Found ids a.toOption)
      (verifyToken cfg token) (.hello ids) := by
  have hnot : Found ids none (.hello ids) := ⟨ids, rfl, List.Subset.refl _, by simp⟩
  unfold verifyToken
  split
  · exact hnot
  next id secret _ =>
    rw [ask_bind]
    refine phase_tokenByID (fun a ha => ?_) fun rec hid => ?_
    · obtain err | _ | rec := a
      · exact hnot
      · exact hnot
      · exact absurd rfl (ha rec)
    · dsimp only
      have hcons : ids ⊆ id :: ids := List.subset_cons_self _ _
      split
      · exact ⟨id :: ids, rfl, hcons, by rintro _ ⟨⟩; simp [hid]⟩
      · exact ⟨id :: ids, rfl, hcons, by rintro _ ⟨⟩⟩

theorem phase_authenticate (token : String) (peer : Option Peer) :
    Keeps (objects cfg) (Settled T) (Closing T) t (fun a => Found [] a.toOption)
      (authenticate cfg token peer) (.hello []) := by
  unfold authenticate
  refine (phase_certToken [] peer).bind fun byCert l hl => ?_
  obtain ⟨ids, rfl, -, hcert⟩ := hl
  have hnot : Found [] none (.hello ids) := ⟨ids, rfl, List.nil_subset _, by simp⟩
  split
  · exact hnot
  next byCert =>
  split
  · cases byCert with
    | none => exact hnot
    | some rec =>
      exact ⟨ids, rfl, List.nil_subset _, by rintro _ ⟨⟩; exact hcert rec rfl⟩
  refine (phase_verifyToken ids token).bind fun found l hl => ?_
  obtain ⟨ids', rfl, -, hfound⟩ := hl
  have hnot' : Found [] none (.hello ids') := ⟨ids', rfl, List.nil_subset _, by simp⟩
  split
  · exact hnot'
  next rec =>
  split
  · exact hnot'
  split
  · exact hnot'
  · exact ⟨ids', rfl, List.nil_subset _, by rintro _ ⟨⟩; exact hfound rec rfl⟩

end

theorem controlLoop_steady (who : Identity) (requests : List (List TunnelSpec)) :
    (controlLoop cfg who requests).All fun _ op => op.steady := by
  refine (controlLoop_registers cfg who requests).mono fun _ op hop => ?_
  cases op with
  | track | untrack | tokenByID | setToken => cases hop
  | _ => rfl

theorem closeTunnels_steady (sessionID : String) :
    (closeTunnels cfg sessionID).All fun _ op => op.steady := by
  refine (closeTunnels_ends cfg sessionID).mono fun _ op hop => ?_
  cases op with
  | track | untrack | tokenByID | setToken => cases hop
  | _ => rfl

section
variable {cfg : Config γ} {t : ℕ}

theorem phase_handshake (a : Agent) :
    Keeps (objects cfg) (Settled T) (Closing T) t
      (fun out l => match out with
        | .ok _ => l = .idle
        | .error _ => ∃ ids, l = .hello ids)
      (handshake cfg a) (.hello []) := by
  unfold handshake
  split
  · exact ⟨[], rfl⟩
  split
  · exact ⟨[], rfl⟩
  refine (phase_authenticate _ _).bind fun found l hl => ?_
  obtain ⟨ids, rfl, -, hfound⟩ := hl
  split
  · exact ⟨ids, rfl⟩
  · exact ⟨ids, rfl⟩
  next rec =>
  split
  · exact ⟨ids, rfl⟩
  · rw [ask_bind]
    exact phase_setToken (hfound rec rfl) fun _ => rfl

theorem phase_serveAgent (a : Agent) :
    Keeps (objects cfg) (Settled T) (Closing T) t (fun _ l => l = .idle) (serveAgent cfg a)
      .idle := by
  have hend : ∀ l, Keeps (objects cfg) (Settled T) (Closing T) t (fun _ l => l = .idle)
      (do closeTunnels cfg a.sessionID; ask .untrack) l := by
    intro l
    refine (steady_all (closeTunnels_steady cfg a.sessionID)).bind fun _ l hl => ?_
    exact phase_untrack rfl
  unfold serveAgent
  rw [ask_bind]
  refine phase_track ?_ rfl
  refine (phase_handshake a).bind fun out l hl => ?_
  split
  · exact hend l
  subst hl
  split
  · refine (steady_all (p := ask _) ⟨rfl, fun _ => trivial⟩).bind fun _ l hl => ?_
    subst hl
    refine (steady_all (controlLoop_steady cfg _ a.requests)).bind fun _ l hl => ?_
    subst hl
    refine (steady_all (p := ask _) ⟨rfl, fun _ => trivial⟩).bind fun reason l hl => ?_
    subst hl
    refine (steady_all (p := ask _) ⟨rfl, fun _ => trivial⟩).bind fun _ l hl => ?_
    exact hend l
  · refine (steady_all (controlLoop_steady cfg _ a.requests)).bind fun _ l hl => ?_
    exact hend l

theorem disconnectToken_steady (tokenID : String) :
    (disconnectToken tokenID).All fun _ op => op.steady := by
  refine ⟨rfl, fun holders => ⟨rfl, fun scanned => ?_⟩⟩
  exact (closeAll_all (fun _ _ => rfl) _).bind fun _ => trivial

theorem phase_sessionsOf {α : Type} {Q : α → Phase → Prop} {next : List ℕ → Prog Op α}
    (holders : List ℕ)
    (hnext : ∀ scanned, Keeps (objects cfg) (Settled T) (Closing T) t Q (next scanned)
      (.scanned (holders ++ scanned).dedup)) :
    Keeps (objects cfg) (Settled T) (Closing T) t Q (.call (.sessionsOf T) next) .released := by
  intro w s L hI hl hC
  have hat : Phase.released.At T s t := hl ▸ hI.phase t
  refine ⟨.scanned (holders ++ s.sessionsOf w.order T).dedup,
    hI.step hI.dropped ⟨hat.1, hat.2, fun u hu => ⟨hC rfl u hu, fun rec hrec hid => ?_⟩⟩
      (fun h => h) (fun h => h) (fun _ _ h => h) (fun _ _ => ⟨rfl, rfl⟩) fun _ _ h => h, hnext _⟩
  have hrec' : (s.sessions u).token = some rec := hrec
  have hmem : u ∈ s.sessionsOf w.order T := by
    simp only [Server.sessionsOf, List.mem_filter]
    exact ⟨(w.order.perm _).mem_iff.mpr hu, by simp [hrec', hid]⟩
  exact List.mem_dedup.mpr (List.mem_append_right _ hmem)

theorem phase_revokeToken :
    Keeps (objects cfg) (Settled T) (Closing T) t (fun sessions l => l = .scanned sessions)
      ((Caller.revokeToken T).prog cfg) .idle := by
  intro w s L hI hl hC
  refine ⟨.deleted, ?_, ?_⟩
  · have h1 : Closing T (s.answer cfg t w (.deleteToken T)).1 L := closing_steady rfl w hI hC
    refine h1.step h1.dropped ?_ (fun h => h) (fun h => h) (fun _ _ h => h)
      (fun _ _ => ⟨rfl, rfl⟩) fun _ _ h => h
    show (s.tokens.del T).get T = none
    exact Table.get_del_self _ _
  intro w s L hI hl hC
  refine ⟨.released, ?_, ?_⟩
  · have h1 : Closing T (s.answer cfg t w (.releaseToken T)).1 L := closing_steady rfl w hI hC
    have hat : Phase.deleted.At T s t := hl ▸ hI.phase t
    exact h1.step h1.dropped ⟨hat, List.mem_cons_self⟩ (fun h => h) (fun h => h) (fun _ _ h => h)
      (fun _ _ => ⟨rfl, rfl⟩) fun _ _ h => h
  refine phase_sessionsOf (s.registry.releaseToken T w.order).2 fun scanned => ?_
  refine (steady_all (closeAll_all (fun _ _ => rfl) _)).bind fun _ l hl => ?_
  exact hl

theorem phase_prog (caller : Caller) :
    Keeps (objects cfg) (Settled T) (Closing T) t
      (fun sessions l => caller = .revokeToken T → l = .scanned sessions) (caller.prog cfg)
      .idle := by
  cases caller with
  | agent a =>
    exact Keeps.bind (M := fun _ (l : Phase) => l = .idle) (phase_serveAgent a)
      fun _ l hl h => by cases h
  | reserve name tokenID port =>
    refine (steady_all ?_).mono fun a l hl h => by cases h
    refine Prog.All.bind ?_ fun _ => trivial
    unfold Registrar.reserve
    split
    · trivial
    · rw [ask_bind]
      refine ⟨rfl, fun b => ?_⟩
      dsimp only
      split <;> trivial
  | unreserve name =>
    refine (steady_all ?_).mono fun a l hl h => by cases h
    exact ⟨rfl, fun _ => trivial⟩
  | disconnectToken tokenID =>
    exact (steady_all (disconnectToken_steady tokenID)).mono fun a l hl h => by cases h
  | revokeToken tokenID =>
    by_cases hT : tokenID = T
    · subst hT
      exact phase_revokeToken.mono fun a l hl _ => hl
    · refine (steady_all ?_).mono fun a l hl h => absurd (Caller.revokeToken.inj h) hT
      exact ⟨rfl, fun _ => disconnectToken_steady tokenID⟩
  | expire ref =>
    refine (steady_all ?_).mono fun a l hl h => by cases h
    exact ⟨rfl, fun _ => trivial⟩

end

section
variable {cfg : Config γ} {grace : ℤ} {clustered : Bool} {tokens : Table TokenRecord.id}
  {cluster : γ} {callers : ℕ → Caller} {as : List (ℕ × World)} {s : Server γ}
  {P : ℕ → Prog Op (List ℕ)} {T : String}

/-- In every run without the two kinds of calls, once the token is revoked and
the sessions that were closed for it have ended, no session that is tracked has
it and no reservation is of it. -/
theorem revocation_complete
    (hrun : Run (Guarded (Obeys (Settled T)) (PoolStep (objects cfg)))
      (start cfg grace clustered tokens cluster callers) as (s, P))
    {t : ℕ} {sessions : List ℕ} (hcaller : callers t = .revokeToken T)
    (hdone : P t = .done sessions) (hended : ∀ u ∈ sessions, u ∉ s.tracked) :
    (∀ u ∈ s.tracked, ∀ rec, (s.sessions u).token = some rec → rec.id ≠ T) ∧
    ∀ ref, s.registry.Named ref → (s.registry.cells ref).tokenID ≠ T := by
  obtain ⟨L, hI, hP⟩ := keeps_run
    (Q := fun t sessions l => callers t = .revokeToken T → l = .scanned sessions) hrun
    (Closing.new T grace clustered tokens cluster) fun t => phase_prog (callers t)
  have hscanned : L t = .scanned sessions := by
    have ht := hP t
    rw [hdone] at ht
    exact ht hcaller
  obtain ⟨-, hreleased, hscan⟩ : (Phase.scanned sessions).At T s t := hscanned ▸ hI.phase t
  refine ⟨fun u hu rec hrec hid => ?_, hI.dropped hreleased⟩
  exact hended u ((hscan u hu).2 rec hrec hid) hu

end

def Op.settled (T : String) (β : Type) (_ : ℕ) (op : Op β) (s : Server γ) : Bool :=
  match op with
  | .claim _ _ tokenID _ _ | .reserve _ tokenID _ => tokenID ≠ T ∨ T ∉ s.released
  | .sessionsOf tokenID => tokenID ≠ T ∨
      ∀ u ∈ s.tracked, T ∈ (s.sessions u).looked → (s.sessions u).token ≠ none
  | _ => true

theorem settled_of_check (T : String) (β : Type) (t : ℕ) (op : Op β) (s : Server γ)
    (h : Op.settled T β t op s) : Settled T β t op s := by
  cases op with
  | claim name typ tokenID =>
    rcases of_decide_eq_true h with h | h
    · exact fun heq => absurd heq h
    · exact fun _ => h
  | reserve name tokenID =>
    rcases of_decide_eq_true h with h | h
    · exact fun heq => absurd heq h
    · exact fun _ => h
  | sessionsOf tokenID =>
    rcases of_decide_eq_true h with h | h
    · exact fun heq => absurd heq h
    · exact fun _ => h
  | _ => trivial

def twoTokens : ℕ → Caller
  | 0 => .agent (demoAgent [[{ name := "a", type := .tcp }]])
  | 1 => .agent { peer := some (some ("U", "2")), hello := some { agentId := "B" }
                  requests := [[{ name := "b", type := .tcp }]] }
  | _ => .revokeToken "T"

def twoTokensThreads : List ℕ :=
  List.replicate 14 0 ++ List.replicate 13 1 ++ [2, 2, 2, 2, 0, 0, 0, 0]

def twoTokensEnd := demoEnd twoTokens twoTokensThreads

theorem revocation_complete_two_tokens :
    twoTokensEnd.2 2 = .done [0] ∧ twoTokensEnd.1.tracked = [1] ∧
    (twoTokensEnd.1.registry.names.get "b").isSome ∧
    ∀ ref, twoTokensEnd.1.registry.Named ref →
      (twoTokensEnd.1.registry.cells ref).tokenID ≠ "T" := by
  have hrun := demo_run (settled_of_check (γ := Unit) "T") twoTokens twoTokensThreads
    (by decide +kernel)
  have htracked : twoTokensEnd.1.tracked = [1] := by decide +kernel
  have hended : ∀ u ∈ [0], u ∉ twoTokensEnd.1.tracked := by
    rw [htracked]
    decide
  have hdone : twoTokensEnd.2 2 = .done [0] := rfl
  exact ⟨hdone, htracked, by decide +kernel, (revocation_complete hrun rfl hdone hended).2⟩

def revokedInHandshake : ℕ → Caller
  | 0 => .agent (demoAgent [])
  | _ => .revokeToken "T"

theorem revoked_session_tracked : ∃ as s P,
    Run (PoolStep (objects demoConfig)) (demoStart revokedInHandshake) as (s, P) ∧
    P 1 = .done [] ∧ 0 ∈ s.tracked ∧ ((s.sessions 0).token.map (·.id)) = some "T" := by
  have hrun := demo_run_any revokedInHandshake [0, 0, 1, 1, 1, 0]
    (by decide +kernel)
  exact ⟨_, _, _, hrun, rfl, by decide +kernel, by decide +kernel⟩

end L8Tunnel.Registrar
