import L8Tunnel.Admin.Load
import L8Tunnel.Registrar.Revoke

/-! # Permanent reservations and the stored ones -/

namespace L8Tunnel.Admin
open Base Auth Registrar

variable {γ : Type}

/-- The call leaves a permanent reservation and its stored one together. `R` is how
the ports of the two are to agree. -/
def Upholds (R : ℤ → ℤ → Prop) (β : Type) (t : ℕ) (op : ApiOp β) (a : RelayAPI γ) : Prop :=
  let reg := a.srv.registry
  match op with
  | .inl (.rollback ref existed) => existed = false → reg.Named ref →
      (reg.cells ref).session = some t → (reg.cells ref).permanent = false
  | .inl (.setPort ref p) => reg.Named ref → (reg.cells ref).permanent = true →
      ∀ q, R (reg.cells ref).port q → R p q
  | .inl (.unreserve name) => a.reservations.get name = none
  | .inr (.putReservation x) => (∃ rec, a.srv.tokens.get x.tokenID = some rec) →
      ∃ p, reg.lasting x.name = some (x.tokenID, p) ∧ R p x.port
  | _ => True

def AnyPort (_ _ : ℤ) : Prop := True

def Carried (R : ℤ → ℤ → Prop) (e e' : Option (String × ℤ)) : Prop :=
  e'.map Prod.fst = e.map Prod.fst ∧
  ∀ T p p', e = some (T, p) → e' = some (T, p') → ∀ q, R p q → R p' q

variable {R : ℤ → ℤ → Prop}

theorem Carried.of_eq {e e' : Option (String × ℤ)} (h : e' = e) : Carried R e e' := by
  subst h
  refine ⟨rfl, fun T p p' hp hp' q hq => ?_⟩
  rw [hp] at hp'
  cases hp'
  exact hq

def Op.passes {β : Type} : Op β → Bool
  | .reserve _ _ _ | .unreserve _ | .releaseToken _ | .deleteToken _ => false
  | _ => true

theorem answer_tokens (cfg : Config γ) {β : Type} {op : Op β} (hop : Op.passes op) (t : ℕ)
    (w : World) (s : Server γ) : (s.answer cfg t w op).1.tokens = s.tokens := by
  cases op with
  | reserve | unreserve | releaseToken | deleteToken => cases hop
  | untrack | setToken => rfl
  | track =>
    dsimp only [Server.answer]
    split <;> rfl
  | tokenByID =>
    dsimp only [Server.answer]
    split
    · rfl
    · split <;> rfl
  | _ => exact (answer_calm cfg rfl t w s).tokens

open NameRegistry in
theorem answer_lasting (cfg : Config γ) {β : Type} {op : Op β} (hop : Op.passes op) {t : ℕ}
    (w : World) {a : RelayAPI γ} (hC : Upholds R β t (.inl op) a) (n : String) :
    Carried R (a.srv.registry.lasting n) ((a.srv.answer cfg t w op).1.registry.lasting n) := by
  cases op with
  | reserve | unreserve | releaseToken | deleteToken => cases hop
  | claim name typ tokenID agentID maxTunnels =>
    refine .of_eq ?_
    cases hc : a.srv.registry.claim name typ tokenID agentID t maxTunnels with
    | error kind =>
      have hans : (Registrar.objects cfg).answer t w (.claim name typ tokenID agentID maxTunnels)
          a.srv = (a.srv, .error kind) := answer_claim_refused hc
      exact congrArg (·.1.registry.lasting n) hans
    | ok c =>
      have hreg : (a.srv.answer cfg t w (.claim name typ tokenID agentID maxTunnels)).1.registry =
          c.registry := claim_registry hc
      rw [hreg]
      exact lasting_claim hc n
  | setDomains ref ds =>
    refine .of_eq ?_
    dsimp only [Server.answer]
    split
    · rfl
    next hr => exact lasting_setDomains hr n
  | reservePort p =>
    refine .of_eq ?_
    dsimp only [Server.answer, reservePort]
    split
    · rfl
    next hr =>
      split at hr
      · cases hr
      · cases hr
        rfl
  | releasePort => exact .of_eq rfl
  | activate ref tn =>
    refine .of_eq (lasting_modify _ (fun v => ?_) n)
    exact ⟨rfl, rfl, rfl⟩
  | park ref => exact .of_eq (lasting_park t w.now n)
  | expire ref => exact .of_eq (lasting_expire ref n)
  | rollback ref existed => exact .of_eq (lasting_rollback hC n)
  | setPort ref p =>
    have hset : (a.srv.answer cfg t w (.setPort ref p)).1.registry.lasting n = _ :=
      lasting_setPort ref p n
    rw [hset]
    refine ⟨?_, fun T p0 p' hp hp' => ?_⟩
    · rw [Option.map_map]
      congr 1
      funext e
      dsimp only [Function.comp]
      split <;> rfl
    rw [hp] at hp'
    simp only [Option.map_some, Option.some.injEq] at hp'
    split at hp'
    next hget =>
      cases hp'
      obtain ⟨u, hu, hperm, -, hport⟩ := lasting_eq_some.mp hp
      rw [hget] at hu
      cases hu
      exact hport ▸ hC (named_of_get hget) hperm
    next =>
      cases hp'
      exact fun _ h => h
  | startRegister | endRegister => exact .of_eq rfl
  | track =>
    refine .of_eq ?_
    dsimp only [Server.answer]
    split <;> rfl
  | _ => exact .of_eq (by rw [(answer_quiet cfg rfl t w a.srv).1])

/-- What a request is between its store transaction and the registry: a name that is being added
or removed, a token that is being revoked. -/
inductive Pending where
  | none
  | name (n : String)
  | token (id : String)

/-- Store and registry agree but for the names and tokens of requests under way. -/
structure Agrees (cfg : Config γ) (R : ℤ → ℤ → Prop) (requests : ℕ → Request) (a : RelayAPI γ)
    (L : ℕ → Pending) : Prop where
  kept : ∀ n x, a.reservations.get n = some x → ∃ p,
    a.srv.registry.lasting n = some (x.tokenID, p) ∧ (R p x.port ∨ ∃ t, L t = .name n)
  stored : ∀ n T p, a.srv.registry.lasting n = some (T, p) →
    (∃ x, a.reservations.get n = some x ∧ x.tokenID = T) ∨ ∃ t, L t = .name n ∨ L t = .token T
  known : ∀ n x, a.reservations.get n = some x → ∃ rec, a.srv.tokens.get x.tokenID = some rec
  revoked : ∀ t T, L t = .token T → a.srv.tokens.get T = none
  checked : ∀ n x, a.reservations.get n = some x → cfg.rules.checkReservation n x.port = none
  sessions : ∀ t, (requests t).admin = false → L t = .none

namespace Agrees
variable {cfg : Config γ} {requests : ℕ → Request} {a a' : RelayAPI γ} {L : ℕ → Pending} {t : ℕ}

theorem frame (h : Agrees cfg R requests a L) (hres : a'.reservations = a.reservations)
    (htok : a'.srv.tokens = a.srv.tokens)
    (hlast : ∀ n, Carried R (a.srv.registry.lasting n) (a'.srv.registry.lasting n)) :
    Agrees cfg R requests a' L where
  kept n x hx := by
    rw [hres] at hx
    obtain ⟨p, hp, hport⟩ := h.kept n x hx
    obtain ⟨hfst, hR⟩ := hlast n
    rw [hp] at hfst
    obtain ⟨⟨T, p'⟩, hp', rfl⟩ := Option.map_eq_some_iff.mp hfst
    exact ⟨p', hp', hport.imp_left (hR _ p p' hp hp' x.port)⟩
  stored n T p' hp' := by
    rw [hres]
    have hfst := (hlast n).1
    rw [hp'] at hfst
    obtain ⟨⟨T', p⟩, hp, hT⟩ := Option.map_eq_some_iff.mp hfst.symm
    cases hT
    exact h.stored n _ p hp
  known n x hx := by
    rw [htok]
    exact h.known n x (hres ▸ hx)
  revoked u T hu := by
    rw [htok]
    exact h.revoked u T hu
  checked n x hx := h.checked n x (hres ▸ hx)
  sessions := h.sessions

theorem still {l k : Pending} (l' : Pending) {u : ℕ} (hu : L u = k) (hl : L t = l) (hne : k ≠ l) :
    Function.update L t l' u = k := by
  refine (Function.update_of_ne ?_ _ _).trans hu
  rintro rfl
  exact hne (hu.symm.trans hl)

theorem sessions_update (h : Agrees cfg R requests a L) (hadmin : (requests t).admin = true)
    (l' : Pending) (u : ℕ) (hu : (requests u).admin = false) :
    Function.update L t l' u = .none := by
  have hut : u ≠ t := by
    rintro rfl
    rw [hadmin] at hu
    cases hu
  rw [Function.update_of_ne hut]
  exact h.sessions u hu

theorem at_name (h : Agrees cfg R requests a L) (hadmin : (requests t).admin = true) {n : String}
    {l' : Pending} (hl : L t = .none ∨ L t = .name n) (hl' : l' = .none ∨ l' = .name n)
    (htok : a'.srv.tokens = a.srv.tokens)
    (hother : ∀ m, m ≠ n → a'.reservations.get m = a.reservations.get m ∧
      a'.srv.registry.lasting m = a.srv.registry.lasting m)
    (hkept : ∀ x, a'.reservations.get n = some x →
      (∃ p, a'.srv.registry.lasting n = some (x.tokenID, p) ∧ (R p x.port ∨ l' = .name n)) ∧
      (∃ rec, a.srv.tokens.get x.tokenID = some rec) ∧
      cfg.rules.checkReservation n x.port = none)
    (hstored : ∀ T p, a'.srv.registry.lasting n = some (T, p) →
      (∃ x, a'.reservations.get n = some x ∧ x.tokenID = T) ∨ l' = .name n) :
    Agrees cfg R requests a' (Function.update L t l') := by
  -- nothing else is what this thread was or is working on
  have hname : ∀ {m u}, m ≠ n → L u = .name m → Function.update L t l' u = .name m := by
    intro m u hm hu
    rcases hl with hl | hl
    · exact still l' hu hl nofun
    · refine still l' hu hl fun heq => ?_
      cases heq
      exact hm rfl
  have htoken : ∀ {T u}, L u = .token T → Function.update L t l' u = .token T := by
    intro T u hu
    rcases hl with hl | hl
    · exact still l' hu hl nofun
    · exact still l' hu hl nofun
  constructor
  · intro m x hx
    by_cases hm : m = n
    · subst hm
      obtain ⟨⟨p, hp, hport⟩, -⟩ := hkept x hx
      refine ⟨p, hp, hport.imp_right fun hl' => ⟨t, ?_⟩⟩
      rw [Function.update_self, hl']
    · rw [(hother m hm).1] at hx
      rw [(hother m hm).2]
      obtain ⟨p, hp, hport⟩ := h.kept m x hx
      exact ⟨p, hp, hport.imp_right fun ⟨u, hu⟩ => ⟨u, hname hm hu⟩⟩
  · intro m T p hp
    by_cases hm : m = n
    · subst hm
      refine (hstored T p hp).imp_right fun hl' => ⟨t, .inl ?_⟩
      rw [Function.update_self, hl']
    · rw [(hother m hm).2] at hp
      rw [(hother m hm).1]
      exact (h.stored m T p hp).imp_right fun ⟨u, hu⟩ => ⟨u, hu.imp (hname hm) htoken⟩
  · intro m x hx
    rw [htok]
    by_cases hm : m = n
    · subst hm
      exact (hkept x hx).2.1
    · rw [(hother m hm).1] at hx
      exact h.known m x hx
  · intro u T hu
    rw [htok]
    by_cases hut : u = t
    · subst hut
      rw [Function.update_self] at hu
      rcases hl' with rfl | rfl <;> cases hu
    · rw [Function.update_of_ne hut] at hu
      exact h.revoked u T hu
  · intro m x hx
    by_cases hm : m = n
    · subst hm
      exact (hkept x hx).2.2
    · rw [(hother m hm).1] at hx
      exact h.checked m x hx
  · exact sessions_update h hadmin l'

theorem deleteToken (h : Agrees cfg R requests a L) (hadmin : (requests t).admin = true)
    (hl : L t = .none) {T : String} (ha' : a.deleteToken T = .ok a') :
    Agrees cfg R requests a' (Function.update L t (.token T)) := by
  unfold RelayAPI.deleteToken at ha'
  split at ha'
  · cases ha'
  cases ha'
  have hres : ∀ {n x}, (a.reservations.delWhere fun r => r.tokenID = T).get n = some x ↔
      a.reservations.get n = some x ∧ x.tokenID ≠ T := by
    intro n x
    rw [Table.get_delWhere, Option.filter_eq_some_iff]
    simp
  constructor
  · intro n x hx
    obtain ⟨p, hp, hport⟩ := h.kept n x (hres.mp hx).1
    exact ⟨p, hp, hport.imp_right fun ⟨u, hu⟩ => ⟨u, still _ hu hl nofun⟩⟩
  · intro n T' p hp
    rcases h.stored n T' p hp with ⟨x, hx, hT⟩ | ⟨u, hu⟩
    · by_cases hTT : T' = T
      · subst hTT
        exact .inr ⟨t, .inr (Function.update_self ..)⟩
      · exact .inl ⟨x, hres.mpr ⟨hx, hT ▸ hTT⟩, hT⟩
    · exact .inr ⟨u, hu.imp (still _ · hl nofun) (still _ · hl nofun)⟩
  · intro n x hx
    obtain ⟨hx, hne⟩ := hres.mp hx
    dsimp only
    rw [Table.get_del_ne _ hne]
    exact h.known n x hx
  · intro u T' hu
    dsimp only
    rw [Table.get_del]
    split
    · rfl
    next hne =>
      have hut : u ≠ t := by
        rintro rfl
        rw [Function.update_self] at hu
        cases hu
        exact hne rfl
      rw [Function.update_of_ne hut] at hu
      exact h.revoked u T' hu
  · exact fun n x hx => h.checked n x (hres.mp hx).1
  · exact sessions_update h hadmin _

theorem releaseToken (h : Agrees cfg R requests a L) (hadmin : (requests t).admin = true)
    {T : String} (hl : L t = .token T) (order : RangeOrder) (released : List String) :
    Agrees cfg R requests
      { a with srv := { a.srv with
          registry := (a.srv.registry.releaseToken T order).1, released := released } }
      (Function.update L t .none) := by
  have hlast : ∀ {n T' p}, (a.srv.registry.releaseToken T order).1.lasting n = some (T', p) ↔
      a.srv.registry.lasting n = some (T', p) ∧ T' ≠ T := by
    intro n T' p
    rw [NameRegistry.lasting_releaseToken, Option.filter_eq_some_iff]
    simp
  have hgone := h.revoked t T hl
  constructor
  · intro n x hx
    obtain ⟨p, hp, hport⟩ := h.kept n x hx
    obtain ⟨rec, hrec⟩ := h.known n x hx
    have hne : x.tokenID ≠ T := by
      rintro rfl
      rw [hgone] at hrec
      cases hrec
    exact ⟨p, hlast.mpr ⟨hp, hne⟩, hport.imp_right fun ⟨u, hu⟩ => ⟨u, still _ hu hl nofun⟩⟩
  · intro n T' p hp
    obtain ⟨hp, hne⟩ := hlast.mp hp
    refine (h.stored n T' p hp).imp_right fun ⟨u, hu⟩ => ⟨u, ?_⟩
    refine hu.imp (still _ · hl nofun) fun hu => still _ hu hl fun heq => ?_
    cases heq
    exact hne rfl
  · exact h.known
  · intro u T' hu
    have hut : u ≠ t := by
      rintro rfl
      rw [Function.update_self] at hu
      cases hu
    rw [Function.update_of_ne hut] at hu
    exact h.revoked u T' hu
  · exact h.checked
  · exact sessions_update h hadmin _

end Agrees

section
variable {cfg : Config γ} {requests : ℕ → Request} {t : ℕ} {α : Type}

abbrev Keeping (cfg : Config γ) (R : ℤ → ℤ → Prop) (requests : ℕ → Request) (t : ℕ)
    (Q : α → Pending → Prop) (p : Prog ApiOp α) (l : Pending) : Prop :=
  Keeps (RelayAPI.objects cfg) (Upholds R) (Agrees cfg R requests) t Q p l

theorem keeps_onRelay {p : Prog Op α} (hp : p.All fun _ op => Op.passes op) (l : Pending) :
    Keeping cfg R requests t (fun _ l' => l' = l) (onRelay p) l := by
  refine Keeps.of_all (A := fun _ op => op.elim (fun op => Op.passes op = true) fun _ => False)
    (Prog.All.embed hp) fun β op w a L hop hI _ hC => ?_
  cases op with
  | inr op => exact hop.elim
  | inl op => exact hI.frame rfl (answer_tokens cfg hop t w a.srv) (answer_lasting cfg hop w hC)

variable {Q : α → Pending → Prop} {name : String}

theorem keeps_tokenByName {l : Pending} {next : Except StoreError TokenRecord → Prog ApiOp α}
    (hnext : ∀ b, Keeping cfg R requests t Q (next b) l) :
    Keeping cfg R requests t Q (onStore (.tokenByName name) >>= next) l := by
  intro w a L hI hl _
  refine ⟨l, ?_, hnext _⟩
  rw [← hl, Function.update_eq_self]
  exact hI

theorem keeps_update {l : Pending} (l' : Pending) {op : StoreOp (Except StoreError Unit)}
    {tx : RelayAPI γ → Except StoreError (RelayAPI γ)}
    {next : Except StoreError Unit → Prog ApiOp α}
    (hop : ∀ w a, (RelayAPI.objects cfg).answer t w (.inr op) a = a.update w (tx a))
    (htx : ∀ a a' L, Agrees cfg R requests a L → L t = l → Upholds R _ t (.inr op) a → tx a = .ok
      a' → Agrees cfg R requests a' (Function.update L t l'))
    (herr : ∀ err, Keeping cfg R requests t Q (next (.error err)) l)
    (hok : Keeping cfg R requests t Q (next (.ok ())) l') :
    Keeping cfg R requests t Q (onStore op >>= next) l := by
  intro w a L hI hl hC
  have hsame : Agrees cfg R requests a (Function.update L t l) := by
    rw [← hl, Function.update_eq_self]
    exact hI
  rw [hop]
  unfold RelayAPI.update
  cases ha : tx a with
  | error err => exact ⟨l, hsame, herr err⟩
  | ok a' =>
    dsimp only
    split
    · exact ⟨l, hsame, herr _⟩
    · exact ⟨l', htx a a' L hI hl hC ha, hok⟩

theorem keeps_unreserve (hadmin : (requests t).admin = true) {next : Unit → Prog ApiOp α}
    (hnext : Keeping cfg R requests t Q (next ()) .none) :
    Keeping cfg R requests t Q (onRelay (ask (.unreserve name)) >>= next) (.name name) := by
  intro w a L hI hl hC
  refine ⟨.none, ?_, hnext⟩
  have hlast := fun n => NameRegistry.lasting_unreserve (r := a.srv.registry) name n
  refine hI.at_name hadmin (.inr hl) (.inl rfl) rfl (fun m hm => ⟨rfl, ?_⟩) ?_ ?_
  · exact (hlast m).trans (if_neg hm)
  · exact fun x hx => nomatch (show a.reservations.get name = none from hC).symm.trans hx
  · exact fun T p hp => nomatch ((hlast name).trans (if_pos rfl)).symm.trans hp

def Reserved (cfg : Config γ) (name : String) (port : ℤ) : Option String → Pending → Prop
  | none, l => l = .name name ∧ cfg.rules.checkReservation name port = none
  | some _, l => l = .none

theorem keeps_reserve (hadmin : (requests t).admin = true) (name tokenID : String) (port : ℤ) :
    Keeping cfg R requests t (Reserved cfg name port) (onRelay (reserve cfg name tokenID port))
      .none := by
  unfold Registrar.reserve
  cases hcheck : cfg.rules.checkReservation name port with
  | some err => rfl
  | none =>
    intro w a L hI hl _
    have hsame : Agrees cfg R requests a (Function.update L t .none) := by
      rw [← hl, Function.update_eq_self]
      exact hI
    dsimp only [RelayAPI.objects, RelayAPI.answer, Server.answer]
    cases hr : a.srv.registry.reserve name tokenID port with
    | error kind =>
      refine ⟨.none, hsame, ?_⟩
      cases kind <;> rfl
    | ok reg =>
      obtain ⟨⟨p, hp, -⟩, hother⟩ := NameRegistry.lasting_reserve hr
      refine ⟨.name name, ?_, rfl, hcheck⟩
      refine hI.at_name hadmin (.inl hl) (.inr rfl) rfl (fun m hm => ⟨rfl, hother m hm⟩) ?_ ?_
      · intro x hx
        obtain ⟨q, hq, -⟩ := hI.kept name x hx
        obtain ⟨ref, hget, -, htok, -⟩ := NameRegistry.lasting_eq_some.mp hq
        have hown := NameRegistry.reserve_token_of_get hr hget
        refine ⟨⟨p, ?_, .inr rfl⟩, hI.known name x hx, hI.checked name x hx⟩
        rw [← htok, hown]
        exact hp
      · exact fun _ _ _ => .inr rfl

theorem keeps_addReservation (hadmin : (requests t).admin = true) (name token : String) (port : ℤ) :
    Keeping cfg R requests t (fun _ l => l = .none) (addReservation cfg name token port) .none := by
  unfold addReservation
  refine keeps_tokenByName fun found => ?_
  cases found with
  | error err => rfl
  | ok rec =>
  refine (keeps_reserve hadmin name rec.id port).bind fun out l hl => ?_
  cases out with
  | some err => exact hl
  | none =>
  obtain ⟨rfl, hcheck⟩ := hl
  refine keeps_update .none (fun _ _ => rfl) (fun a a' L hI hL hC ha => ?_) (fun err => ?_) rfl
  · unfold RelayAPI.putReservation at ha
    split at ha
    · cases ha
    next rec' hrec =>
      cases ha
      obtain ⟨p, hp, hport⟩ := hC ⟨rec', hrec⟩
      have hput := Table.get_put_self a.reservations (StoredReservation.mk name rec.id port)
      refine hI.at_name hadmin (.inr hL) (.inl rfl) rfl (fun m hm => ⟨?_, rfl⟩) ?_ ?_
      · exact Table.get_put_ne _ _ hm
      · intro x hx
        cases hput.symm.trans hx
        exact ⟨⟨p, hp, .inl hport⟩, ⟨rec', hrec⟩, hcheck⟩
      · intro T q hq
        cases hp.symm.trans hq
        exact .inl ⟨_, hput, rfl⟩
  · exact keeps_unreserve hadmin rfl

theorem keeps_removeReservation (hadmin : (requests t).admin = true) (name : String) :
    Keeping cfg R requests t (fun _ l => l = .none) (removeReservation name) .none := by
  refine keeps_update (.name name) (fun _ _ => rfl) (fun a a' L hI hL hC ha => ?_)
    (fun err => rfl) (keeps_unreserve hadmin rfl)
  unfold RelayAPI.deleteReservation at ha
  split at ha
  · cases ha
  · cases ha
    refine hI.at_name hadmin (.inl hL) (.inr rfl) rfl (fun m hm => ⟨?_, rfl⟩) ?_ ?_
    · exact Table.get_del_ne _ hm
    · exact fun x hx => nomatch (Table.get_del_self a.reservations name).symm.trans hx
    · exact fun _ _ _ => .inr rfl

theorem keeps_revokeToken (hadmin : (requests t).admin = true) (name : String) :
    Keeping cfg R requests t (fun _ l => l = .none) (revokeToken name) .none := by
  unfold revokeToken
  refine keeps_tokenByName fun found => ?_
  cases found with
  | error err => rfl
  | ok rec =>
  refine keeps_update (.token rec.id) (fun _ _ => rfl)
    (fun a a' L hI hL _ ha => hI.deleteToken hadmin hL ha) (fun err => rfl) ?_
  intro w a L hI hl _
  refine ⟨.none, hI.releaseToken hadmin hl w.order _, ?_⟩
  have hrest : ∀ holders : List ℕ, (do
      let scanned ← ask (.sessionsOf rec.id)
      closeAll (holders ++ scanned).dedup
      pure (holders ++ scanned).dedup : Prog Op (List ℕ)).All fun _ op => Op.passes op :=
    fun holders => ⟨rfl, fun scanned => (closeAll_all (fun _ _ => rfl) _).bind fun _ => trivial⟩
  exact (keeps_onRelay (hrest _) .none).bind fun _ _ hl => hl

theorem keeps_request (requests : ℕ → Request) (t : ℕ) :
    Keeping cfg R requests t (fun _ l => l = .none) ((requests t).prog cfg) .none := by
  cases hreq : requests t with
  | agent ag =>
    refine (keeps_onRelay ((serveAgent_serves cfg ag).mono fun _ op hop => ?_) .none).bind
      fun _ _ hl => hl
    cases op with
    | reserve | unreserve | releaseToken | deleteToken => cases hop
    | _ => rfl
  | expire ref =>
    exact (keeps_onRelay (p := ask (.expire ref)) ⟨rfl, fun _ => trivial⟩ .none).bind fun _ _ hl => hl
  | addReservation name token port =>
    exact (keeps_addReservation (by rw [hreq]; rfl) name token port).bind fun _ _ hl => hl
  | removeReservation name =>
    exact (keeps_removeReservation (by rw [hreq]; rfl) name).bind fun _ _ hl => hl
  | revokeToken name =>
    exact (keeps_revokeToken (by rw [hreq]; rfl) name).bind fun _ _ hl => hl

end

section
variable {cfg : Config γ} {requests : ℕ → Request} {a0 a : RelayAPI γ} {as : List (ℕ × World)}
  {P : ℕ → Prog ApiOp (Option Response)}

theorem Started.agrees (h : Started cfg a) (hR : ∀ p, R p p) (requests : ℕ → Request) :
    Agrees cfg R requests a fun _ => .none := by
  obtain ⟨⟨grace, hnew⟩, hknown⟩ := h
  have hload := relayNew_loaded a.nodup_reservationList hnew
  constructor
  · intro n x hx
    have hname : x.name = n := Table.key_of_get hx
    subst hname
    exact ⟨x.port, (restart_lasting hnew).mpr hx, .inl (hR _)⟩
  · exact fun n T p hp => .inl ⟨_, (restart_lasting hnew).mp hp, rfl⟩
  · exact hknown
  · exact fun _ _ h => nomatch h
  · intro n x hx
    have hname : x.name = n := Table.key_of_get hx
    subst hname
    exact hload.checked x (a.mem_reservationList.mpr hx)
  · exact fun _ _ => rfl

theorem agrees_idle (hR : ∀ p, R p p) (hstart : Started cfg a0)
    (hrun : Run (Guarded (Obeys (Upholds R)) (PoolStep (RelayAPI.objects cfg)))
      (a0, fun t => (requests t).prog cfg) as (a, P))
    (hidle : Idle requests as P) : ∃ L, Agrees cfg R requests a L ∧ ∀ t, L t = .none := by
  obtain ⟨L, hI, hP, hstill⟩ := keeps_run_still (Q := fun _ _ l => l = .none) hrun
    (hstart.agrees hR requests) fun t => keeps_request requests t
  refine ⟨L, hI, fun t => ?_⟩
  cases hadmin : (requests t).admin with
  | false => exact hI.sessions t hadmin
  | true =>
    rcases hidle t hadmin with hnot | ⟨res, hres⟩
    · exact hstill t hnot
    · have hdone := hP t
      dsimp only at hdone
      rw [hres] at hdone
      exact hdone

/-- In every run whose calls leave permanent and stored reservations as they
belong together, while no request is in flight, the names that are reserved
permanently are those that are stored, with their tokens. -/
theorem reservations_agree (hstart : Started cfg a0)
    (hrun : Run (Guarded (Obeys (Upholds AnyPort)) (PoolStep (RelayAPI.objects cfg)))
      (a0, fun t => (requests t).prog cfg) as (a, P))
    (hidle : Idle requests as P) (n T : String) :
    (∃ p, a.srv.registry.lasting n = some (T, p)) ↔
      ∃ x, a.reservations.get n = some x ∧ x.tokenID = T := by
  obtain ⟨L, hI, hnone⟩ := agrees_idle (fun _ => trivial) hstart hrun hidle
  constructor
  · rintro ⟨p, hp⟩
    rcases hI.stored n T p hp with hx | ⟨t, ht | ht⟩
    · exact hx
    · cases (hnone t).symm.trans ht
    · cases (hnone t).symm.trans ht
  · rintro ⟨x, hx, rfl⟩
    obtain ⟨p, hp, -⟩ := hI.kept n x hx
    exact ⟨p, hp⟩

/-- A stored reservation has its token stored and passes the relay's check. -/
def StoreSound (cfg : Config γ) (a : RelayAPI γ) : Prop :=
  ∀ n x, a.reservations.get n = some x → (∃ rec, a.srv.tokens.get x.tokenID = some rec) ∧
    cfg.rules.checkReservation n x.port = none

def Checked (cfg : Config γ) (β : Type) : ApiOp β → Prop
  | .inl (.deleteToken _) => False
  | .inr (.putReservation x) => cfg.rules.checkReservation x.name x.port = none
  | _ => True

theorem request_checked (r : Request) : (r.prog cfg).All (Checked cfg) := by
  cases r with
  | agent ag =>
    refine (Prog.All.embed ((serveAgent_serves cfg ag).mono fun _ op hop => ?_)).bind fun _ => trivial
    cases op with
    | deleteToken => cases hop
    | _ => trivial
  | expire => exact ⟨trivial, fun _ => trivial⟩
  | removeReservation =>
    refine ⟨trivial, ?_⟩
    rintro (err | ok)
    · trivial
    · exact ⟨trivial, fun _ => trivial⟩
  | revokeToken =>
    refine ⟨trivial, ?_⟩
    rintro (err | rec)
    · trivial
    refine ⟨trivial, ?_⟩
    rintro (err | ok)
    · trivial
    refine ⟨trivial, fun _ => ⟨trivial, fun _ => .bind (.bind (.embed ?_) ?_) fun _ => trivial⟩⟩
    · exact (closeAll_all (fun _ _ => trivial) _).bind fun _ => trivial
    · exact fun _ => trivial
  | addReservation name token port =>
    refine ⟨trivial, ?_⟩
    rintro (err | rec)
    · trivial
    change ((onRelay (reserve cfg name rec.id port) >>= _) >>= _).All (Checked cfg)
    unfold Registrar.reserve
    cases hcheck : cfg.rules.checkReservation name port with
    | some err => trivial
    | none =>
    refine ⟨trivial, ?_⟩
    rintro (kind | ok)
    · cases kind <;> trivial
    refine ⟨hcheck, ?_⟩
    rintro (err | ok)
    · exact ⟨trivial, fun _ => trivial⟩
    · trivial

theorem StoreSound.answer (h : StoreSound cfg a) {β : Type} {op : ApiOp β} (hop : Checked cfg β op)
    (t : ℕ) (w : World) : StoreSound cfg (a.answer cfg t w op).1 := by
  have hupd {tx} (htx : ∀ a', tx = .ok a' → StoreSound cfg a') : StoreSound cfg (a.update w tx).1 := by
    cases tx <;> grind [RelayAPI.update]
  rcases op with op | op
  · have htok : (a.srv.answer cfg t w op).1.tokens = a.srv.tokens := by
      cases op with
      | deleteToken => cases hop
      | reserve =>
        dsimp only [Server.answer]
        split <;> rfl
      | unreserve | releaseToken => rfl
      | _ => exact answer_tokens cfg rfl t w a.srv
    unfold StoreSound RelayAPI.answer
    rwa [htok]
  cases op with
  | tokenByName => exact h
  | deleteToken id =>
    refine hupd fun a' ha => ?_
    unfold RelayAPI.deleteToken at ha
    split at ha <;> cases ha
    intro n x hx
    rw [Table.get_delWhere, Option.filter_eq_some_iff] at hx
    rw [Table.get_del_ne _ (by simpa using hx.2)]
    exact h n x hx.1
  | putReservation x =>
    refine hupd fun a' ha => ?_
    unfold RelayAPI.putReservation at ha
    split at ha <;> cases ha
    next rec hrec => exact Table.forall_put h ⟨⟨rec, hrec⟩, hop⟩
  | deleteReservation name =>
    refine hupd fun a' ha => ?_
    unfold RelayAPI.deleteReservation at ha
    split at ha <;> cases ha
    exact Table.forall_del h

/-- Whatever is interleaved and whichever writes fail, no stored reservation
outlives its token or fails the check a restart makes of it. -/
theorem store_stays_sound (hstart : Started cfg a0)
    (hrun : Run (PoolStep (RelayAPI.objects cfg)) (a0, fun t => (requests t).prog cfg) as (a, P)) :
    StoreSound cfg a := by
  have hI := hstart.agrees (R := AnyPort) (fun _ => trivial) requests
  have hguarded : Run (Guarded (Obeys fun _ _ _ _ => True) _) _ as (a, P) :=
    hrun.mono fun _ _ _ h => ⟨by unfold Obeys; split <;> trivial, h⟩
  obtain ⟨_, h, -⟩ := keeps_run (I := fun s (_ : ℕ → Unit) => StoreSound cfg s)
    (Q := fun _ _ _ => True) (L := fun _ => ()) hguarded
    (fun n x hx => ⟨hI.known n x hx, hI.checked n x hx⟩)
    fun t => (Keeps.of_all (request_checked (requests t))
      fun _ _ w _ _ hop h _ _ => h.answer hop t w).mono fun _ _ _ => trivial
  exact h

end

def apiStart : RelayAPI Unit :=
  { srv := .new 60 false (Table.empty.put { id := "T", name := "alice", certSerials := ["1"] }) () }

theorem apiStart_started : Started demoConfig apiStart := by
  refine ⟨⟨60, rfl⟩, fun n r h => ?_⟩
  simp [apiStart] at h

def reserveOnce : ℕ → Request
  | 0 => .addReservation "a" "alice" 7000
  | _ => .agent (demoAgent [[{ name := "a", type := .tcp }]])

def apiEnd (requests : ℕ → Request) (as : List (ℕ × World)) :
    RelayAPI Unit × (ℕ → Prog ApiOp (Option Response)) :=
  play (RelayAPI.objects demoConfig) (apiStart, fun t => (requests t).prog demoConfig) as

/-- A schedule that `plays` accepts by evaluation is a run of the API's threads. -/
theorem api_run {C : (β : Type) → ℕ → ApiOp β → RelayAPI Unit → Prop}
    {ok : (β : Type) → ℕ → ApiOp β → RelayAPI Unit → Bool}
    (hok : ∀ β t (op : ApiOp β) a, ok β t op a → C β t op a) (requests : ℕ → Request)
    (as : List (ℕ × World))
    (h : plays (RelayAPI.objects demoConfig) ok
      (apiStart, fun t => (requests t).prog demoConfig) as) :
    Run (Guarded (Obeys C) (PoolStep (RelayAPI.objects demoConfig)))
      (apiStart, fun t => (requests t).prog demoConfig) as
      ((apiEnd requests as).1, (apiEnd requests as).2) :=
  plays_run hok h

theorem api_run_any (requests : ℕ → Request) (as : List (ℕ × World))
    (h : plays (RelayAPI.objects demoConfig) (fun _ _ _ _ => true)
      (apiStart, fun t => (requests t).prog demoConfig) as) :
    Run (PoolStep (RelayAPI.objects demoConfig))
      (apiStart, fun t => (requests t).prog demoConfig) as
      ((apiEnd requests as).1, (apiEnd requests as).2) :=
  (api_run (C := fun _ _ _ _ => True) (fun _ _ _ _ _ => trivial) _ _ h).mono fun _ _ _ h => h.2

def upholdsNow (β : Type) (_ : ℕ) (op : ApiOp β) (a : RelayAPI γ) : Bool :=
  match op with
  | .inl (.rollback _ _) | .inl (.setPort _ _) | .inl (.unreserve _) => false
  | .inr (.putReservation x) => a.srv.registry.lasting x.name = some (x.tokenID, x.port)
  | _ => true

theorem upholds_of_now (hR : ∀ p, R p p) (β : Type) (t : ℕ) (op : ApiOp β) (a : RelayAPI γ)
    (h : upholdsNow β t op a) : Upholds R β t op a := by
  cases op with
  | inl op =>
    cases op with
    | rollback | setPort | unreserve => cases h
    | _ => trivial
  | inr op =>
    cases op with
    | putReservation x => exact fun _ => ⟨x.port, of_decide_eq_true h, hR _⟩
    | _ => trivial

theorem reservations_agree_once :
    ∃ x, (apiEnd reserveOnce (demoSchedule [0, 0, 0, 1, 1, 1, 1])).1.reservations.get "a" = some x ∧
      x.tokenID = "T" := by
  have hrun := api_run (upholds_of_now (R := AnyPort) fun _ => trivial) reserveOnce
    (demoSchedule [0, 0, 0, 1, 1, 1, 1]) (by decide +kernel)
  have hidle : Idle reserveOnce (demoSchedule [0, 0, 0, 1, 1, 1, 1])
      (apiEnd reserveOnce (demoSchedule [0, 0, 0, 1, 1, 1, 1])).2 := by
    intro t ht
    cases t with
    | zero => exact .inr ⟨_, rfl⟩
    | succ t => cases ht
  exact (reservations_agree apiStart_started hrun hidle "a" "T").mp ⟨7000, by decide +kernel⟩

def reserveTwice : ℕ → Request
  | 0 | 1 => .addReservation "a" "alice" 7000
  | _ => .agent {}

def diskFull : World := { storeError := some "no space left on device" }

def failedAgain : List (ℕ × World) :=
  demoSchedule [0, 0, 0, 1, 1] ++ [(1, diskFull), (1, {})]

theorem store_stays_sound_twice : StoreSound demoConfig (apiEnd reserveTwice failedAgain).1 :=
  store_stays_sound apiStart_started (api_run_any reserveTwice failedAgain (by decide +kernel))

theorem reservation_given_up : ∃ as a P,
    Run (PoolStep (RelayAPI.objects demoConfig))
      (apiStart, fun t => (reserveTwice t).prog demoConfig) as (a, P) ∧
    Idle reserveTwice as P ∧ (∀ u, (a.srv.sessions u).registering = none) ∧
    (∃ x, a.reservations.get "a" = some x ∧ x.tokenID = "T") ∧
    ¬ ∃ p, a.srv.registry.lasting "a" = some ("T", p) := by
  have hrun := api_run_any reserveTwice failedAgain (by decide +kernel)
  refine ⟨_, _, _, hrun, ?_, fun u => ?_, ?_, ?_⟩
  · intro t ht
    cases t with
    | zero => exact .inr ⟨_, rfl⟩
    | succ t =>
      cases t with
      | zero => exact .inr ⟨_, rfl⟩
      | succ t => cases ht
  · rfl
  · exact ⟨⟨"a", "T", 7000⟩, rfl, rfl⟩
  · rintro ⟨p, hp⟩
    cases hp

end L8Tunnel.Admin
