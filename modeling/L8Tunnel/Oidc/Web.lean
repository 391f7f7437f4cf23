import Mathlib.Data.Countable.Basic
import Mathlib.Logic.Equiv.List
import L8Tunnel.Oidc.Signed

/-! # The login service as the web sees it (oidc/service.go) -/

namespace L8Tunnel.Oidc
open Base Auth HttpProxy

/-- A step of the service in which browsers present any texts, but none with a MAC
that the service has not made. -/
def WebStep (g : Signer) (cfg : Config) : Service → Event String → Service → Prop :=
  Guarded (fun s e => ∀ t ∈ e.presented, g.Unforged s.issued t)
    (fun s e s' => s.next g.texts cfg e = s')

def Before (g : Signer) (cfg : Config) (start : Service) (events pre : List (Event String))
    (e : Event String) (u : Service) : Prop :=
  (∃ post, events = pre ++ e :: post) ∧ Run (WebStep g cfg) start pre u

section
variable {g : Signer} {cfg : Config} {start s : Service} {events : List (Event String)}
variable {v : Option Vouch}

theorem issued_signed (hrun : Run (WebStep g cfg) start events s) (hstart : start.issued = [])
    {x : Issued} (hx : x ∈ s.issued) :
    ∃ pre e u, Before g cfg start events pre e u ∧ (∀ t ∈ e.presented, g.texts.Sound u t) ∧
      Signs g.texts cfg u e x := by
  rcases hrun.origin (P := fun s => x ∈ s.issued) hx with
    hold | ⟨pre, e, post, u, u', hsplit, hpre, ⟨hguard, rfl⟩, hu, hu'⟩
  · rw [hstart] at hold
    cases hold
  · refine ⟨pre, e, u, ⟨⟨post, hsplit⟩, hpre⟩, fun t ht => Signer.texts_sound (hguard t ht), ?_⟩
    rcases next_cases g.texts cfg u e with
      ⟨d, rfl⟩ | ⟨host, rule, rfl⟩ | ⟨-, -, hsame | ⟨x', hadd, hsigns⟩⟩
    · exact absurd hu' hu
    · exact absurd hu' hu
    · rw [hsame] at hu'
      exact absurd hu' hu
    · rw [hadd, List.mem_append, List.mem_singleton] at hu'
      rcases hu' with hold | rfl
      · exact absurd hold hu
      · exact hsigns

variable (hrun : Run (WebStep g cfg) start events s) (hstart : start.issued = [])
include hrun hstart

theorem login_started {st : LoginState} (h : ⟨.login st, v⟩ ∈ s.issued) :
    ∃ r pre u, Before g cfg start events pre (.request r) u ∧ Starts u r st := by
  obtain ⟨pre, e, u, hbefore, -, hsigns⟩ := issued_signed hrun hstart h
  cases hsigns with
  | login hstarts => exact ⟨_, pre, u, hbefore, hstarts⟩

theorem flow_taken {f : FlowCookie} (h : ⟨.flow f, v⟩ ∈ s.issued) :
    ∃ state nonce verifier pre u,
      Before g cfg start events pre (.login state true nonce verifier) u ∧
        Flows g.texts cfg u state nonce verifier f ∧ ∃ v, ⟨.login f.login, v⟩ ∈ u.issued := by
  obtain ⟨pre, e, u, hbefore, hsound, hsigns⟩ := issued_signed hrun hstart h
  cases hsigns with
  | flow hflows =>
    have hmem := (loginOf_some (fun t ht => hsound t (Option.mem_toList.mpr ht)) hflows.login).1
    exact ⟨_, _, _, pre, u, hbefore, hflows, hmem⟩

theorem code_called {c : LoginCode} (h : ⟨.code c, v⟩ ∈ s.issued) :
    ∃ r f email pre u, Before g cfg start events pre (.callback r) u ∧
      Calls g.texts u r f email c ∧ ∃ v, ⟨.flow f, v⟩ ∈ u.issued := by
  obtain ⟨pre, e, u, hbefore, hsound, hsigns⟩ := issued_signed hrun hstart h
  cases hsigns with
  | code hcalls =>
    have hmem := (flowOf_some (fun t ht => hsound t (Option.mem_toList.mpr ht)) hcalls.flow).1
    exact ⟨_, _, _, pre, u, hbefore, hcalls, hmem⟩

theorem session_finished {sess : Session} (h : ⟨.session sess, v⟩ ∈ s.issued) :
    ∃ r c w pre u, Before g cfg start events pre (.request r) u ∧
      Finishes g.texts cfg u r c w sess ∧ ⟨.code c, w⟩ ∈ u.issued := by
  obtain ⟨pre, e, u, hbefore, hsound, hsigns⟩ := issued_signed hrun hstart h
  cases hsigns with
  | session hfin =>
    have hmem := (codeOf_some
      (fun t ht => hsound t (List.mem_append_left _ (Option.mem_toList.mpr ht))) hfin.code).1
    exact ⟨_, _, _, pre, u, hbefore, hfin, hmem⟩

end

variable {g : Signer} {cfg : Config} {s : Service} {events : List (Event String)}

/-- A request for the host started the login, the auth host took it to a provider, a
callback verified the email and issued a code, and `finishLogin` made a session of it. -/
def Completed (g : Signer) (cfg : Config) (start : Service) (events : List (Event String))
    (host m : String) (sess : Session) : Prop :=
  ∃ fin c v pre₃ u₃, Before g cfg start events pre₃ (.request fin) u₃ ∧
    Finishes g.texts cfg u₃ fin c v sess ∧ normalizeHost cfg.http fin.host = host ∧
  ∃ cb f email pre₂ u₂, Before g cfg start pre₃ pre₂ (.callback cb) u₂ ∧
    Calls g.texts u₂ cb f email c ∧ GoString.toLower email = m ∧
  ∃ state nonce verifier pre₁ u₁,
    Before g cfg start pre₂ pre₁ (.login state true nonce verifier) u₁ ∧
    Flows g.texts cfg u₁ state nonce verifier f ∧
  ∃ first pre₀ u₀, Before g cfg start pre₁ pre₀ (.request first) u₀ ∧
    Starts u₀ first f.login ∧ normalizeHost cfg.http first.host = host

theorem completed_of_session {start : Service} (hrun : Run (WebStep g cfg) start events s)
    (hstart : start.issued = []) {sess : Session} {v : Option Vouch}
    (h : ⟨.session sess, v⟩ ∈ s.issued) :
    Completed g cfg start events sess.host sess.email sess := by
  obtain ⟨fin, c, v₃, pre₃, u₃, hbefore₃, hfin, hcode⟩ := session_finished hrun hstart h
  obtain ⟨cb, f, email, pre₂, u₂, hbefore₂, hcalls, v₂, hflow⟩ :=
    code_called hbefore₃.2 hstart hcode
  obtain ⟨state, nonce, verifier, pre₁, u₁, hbefore₁, hflows, v₁, hlogin⟩ :=
    flow_taken hbefore₂.2 hstart hflow
  obtain ⟨first, pre₀, u₀, hbefore₀, hstarts⟩ := login_started hbefore₁.2 hstart hlogin
  have hsess := hfin.session
  have hhost : normalizeHost cfg.http c.host = sess.host := by
    rw [hfin.host, hsess]
  have hcode := hcalls.code
  have hemail : sess.email = GoString.toLower email := by
    rw [hsess, hcode]
  have hfirst : first.host = c.host := by
    rw [hcode, hstarts.state]
  refine ⟨fin, c, v₃, pre₃, u₃, hbefore₃, hfin, by rw [hsess], cb, f, email, pre₂, u₂, hbefore₂,
    hcalls, hemail.symm, state, nonce, verifier, pre₁, u₁, hbefore₁, hflows, first, pre₀, u₀,
    hbefore₀, hstarts, ?_⟩
  rw [hfirst, hhost]

/-- Against everybody who cannot make the service's MACs, a request for a host
proceeds as a user only by a session that has not expired of a completed login
for that host and user, and no text made for one purpose opens for another. -/
theorem session_from_completed_login (g : Signer) (cfg : Config) (now : ℤ)
    (rules : String → Option OIDCRule) {events : List (Event String)} {s : Service}
    (hrun : Run (WebStep g cfg) { now := now, rules := rules } events s)
    (hideal : Mac.Ideal (fun _ : Unit => g.hmac) (made g s.issued)) :
    (∀ r rule m, (∀ t ∈ r.cookie, g.Unforged s.issued t) →
      (s.authorize g.texts cfg rule r).2 = .proceed m →
      ∃ sess, s.expired sess.exp = false ∧
        Completed g cfg { now := now, rules := rules } events (normalizeHost cfg.http r.host) m
          sess) ∧
    (∀ e ∈ s.issued, ∀ purpose ∈ [purposeLogin, purposeFlow, purposeCode, purposeSession],
      purpose ≠ e.payload.purpose → g.opened purpose (e.payload.token g) = none) ∧
    ∀ t, g.Unforged s.issued t →
      ∀ purpose ∈ [purposeLogin, purposeFlow, purposeCode, purposeSession], ∀ data,
        g.opened purpose t = some data →
          ∃ e ∈ s.issued, e.payload.purpose = purpose ∧ e.payload.data g = data := by
  have hnul : ∀ purpose ∈ [purposeLogin, purposeFlow, purposeCode, purposeSession],
      '\x00' ∉ purpose.toList := by decide
  refine ⟨fun r rule m hcookie hproceed => ?_, fun e he purpose hp hne => ?_,
    fun t ht purpose hp data hopen => ?_⟩
  · obtain ⟨sess, v, hsess, hhost, rfl⟩ := authorize_proceeds hproceed
    obtain ⟨hmem, hexp⟩ := sessionOf_some (fun t ht => Signer.texts_sound (hcookie t ht)) hsess
    refine ⟨sess, hexp, ?_⟩
    rw [← hhost]
    exact completed_of_session hrun rfl hmem
  · exact Signer.opened_other hideal he (hnul purpose hp) hne
  · exact Signer.opened_made ht (hnul purpose hp) hopen

/-- Over texts too a request proceeds only as somebody the rule's provider vouched
for, where hosts keep their provider. -/
theorem web_proceeds_vouched (now : ℤ) (rules : String → Option OIDCRule)
    (hrun : Run (Guarded (fun s e => e.Settles cfg s) (WebStep g cfg)) { now := now, rules := rules }
      events s)
    {r : Request String} {rule : OIDCRule} {m : String}
    (hcookie : ∀ t ∈ r.cookie, g.Unforged s.issued t) (hrule : s.ruleFor cfg r.host = some rule)
    (hproceeds : (s.authorize g.texts cfg rule r).2 = .proceed m) :
    ∃ sess v, ⟨.session sess, some v⟩ ∈ s.issued ∧ v.provider = rule.provider ∧
      m = GoString.toLower v.email := by
  have hvouched : s.Vouched cfg := by
    refine hrun.invariant (I := Service.Vouched cfg) ?_ (vouched_start cfg now rules)
    rintro s e s' h ⟨hsettles, hguard, rfl⟩
    exact h.next (fun t ht => Signer.texts_sound (hguard t ht)) hsettles
  have hsound : ∀ t ∈ r.cookie, g.texts.Sound s t := fun t ht => Signer.texts_sound (hcookie t ht)
  obtain ⟨sess, v, hsess, hhost, rfl⟩ := authorize_proceeds hproceeds
  obtain ⟨w, rfl, hprovider, hemail⟩ := hvouched.session hsound hrule hsess hhost
  exact ⟨sess, w, (sessionOf_some hsound hsess).1, hprovider, hemail⟩

section
variable {token : Option String} (h : ∀ t ∈ token, g.Unforged s.issued t)
include h

theorem login_numbered : ∃ i, s.loginOf numbered i = s.loginOf g.texts token := by
  cases hread : token.bind (g.texts.login s) with
  | none => exact ⟨none, by simp [Service.loginOf, hread]⟩
  | some st =>
    obtain ⟨t, ht, hverify⟩ := Option.bind_eq_some_iff.mp hread
    obtain ⟨v, hmem⟩ := (Signer.texts_sound (h t ht)).login st hverify
    obtain ⟨i, hi⟩ := List.getElem?_of_mem hmem
    exact ⟨some i, by simp [Service.loginOf, hread, numbered, hi]⟩

theorem flow_numbered : ∃ i, s.flowOf numbered i = s.flowOf g.texts token := by
  cases hread : token.bind (g.texts.flow s) with
  | none => exact ⟨none, by simp [Service.flowOf, hread]⟩
  | some f =>
    obtain ⟨t, ht, hverify⟩ := Option.bind_eq_some_iff.mp hread
    obtain ⟨v, hmem⟩ := (Signer.texts_sound (h t ht)).flow f hverify
    obtain ⟨i, hi⟩ := List.getElem?_of_mem hmem
    exact ⟨some i, by simp [Service.flowOf, hread, numbered, hi]⟩

theorem code_numbered : ∃ i, s.codeOf numbered i = s.codeOf g.texts token := by
  cases hread : token.bind (g.texts.code s) with
  | none => exact ⟨none, by simp [Service.codeOf, hread]⟩
  | some c =>
    obtain ⟨t, ht, hverify⟩ := Option.bind_eq_some_iff.mp hread
    obtain ⟨i, hi⟩ := List.getElem?_of_mem ((Signer.texts_sound (h t ht)).code c.1 c.2 hverify)
    exact ⟨some i, by simp [Service.codeOf, hread, numbered, hi]⟩

theorem session_numbered : ∃ i, s.sessionOf numbered i = s.sessionOf g.texts token := by
  cases hread : token.bind (g.texts.session s) with
  | none => exact ⟨none, by simp [Service.sessionOf, hread]⟩
  | some x =>
    obtain ⟨t, ht, hverify⟩ := Option.bind_eq_some_iff.mp hread
    obtain ⟨i, hi⟩ := List.getElem?_of_mem ((Signer.texts_sound (h t ht)).session x.1 x.2 hverify)
    exact ⟨some i, by simp [Service.sessionOf, hread, numbered, hi]⟩

end

section
variable {τ τ' : Type} {m : Medium τ} {m' : Medium τ'} {r : Request τ} {r' : Request τ'}

theorem finishLogin_alike (rule : OIDCRule) (host : String)
    (hcode : s.codeOf m r.code = s.codeOf m' r'.code) :
    (s.finishLogin m cfg rule r host).1 = (s.finishLogin m' cfg rule r' host).1 := by
  unfold Service.finishLogin
  rw [hcode]
  cases s.codeOf m' r'.code with
  | none => rfl
  | some c =>
    dsimp only
    rcases s.useCode c.1.id c.1.exp with ⟨s1, used | free⟩
    · split_ifs <;> rfl
    · split_ifs <;> rfl

theorem startLogin_alike (hhost : r.host = r'.host) (huri : r.uri = r'.uri)
    (hreads : r.reads = r'.reads) : (s.startLogin m r).1 = (s.startLogin m' r').1 := by
  unfold Service.startLogin
  rw [hhost, huri, hreads]
  split_ifs <;> rfl

theorem authorize_alike (rule : OIDCRule) (hhost : r.host = r'.host) (hpath : r.path = r'.path)
    (huri : r.uri = r'.uri) (hreads : r.reads = r'.reads)
    (hcookie : s.sessionOf m r.cookie = s.sessionOf m' r'.cookie)
    (hcode : s.codeOf m r.code = s.codeOf m' r'.code) :
    (s.authorize m cfg rule r).1 = (s.authorize m' cfg rule r').1 := by
  have hstart : (s.startLogin m r).1 = (s.startLogin m' r').1 := startLogin_alike hhost huri hreads
  unfold Service.authorize
  rw [hpath, hhost, hcookie]
  dsimp only
  split_ifs
  · exact finishLogin_alike rule _ hcode
  · cases s.sessionOf m' r'.cookie with
    | none => exact hstart
    | some sess =>
      dsimp only
      split_ifs
      · exact hstart
      · rfl
      · rfl

theorem login_alike {state : Option τ} {state' : Option τ'} (reachable : Bool)
    (nonce verifier : String) (hstate : s.loginOf m state = s.loginOf m' state') :
    (s.login m cfg state reachable nonce verifier).1 =
      (s.login m' cfg state' reachable nonce verifier).1 := by
  unfold Service.login
  rw [hstate]
  cases s.loginOf m' state' with
  | none => rfl
  | some st =>
    dsimp only
    cases s.ruleFor cfg st.host with
    | none => rfl
    | some rule =>
      dsimp only
      split_ifs <;> rfl

theorem callback_alike {cookie : Option τ} {cookie' : Option τ'} (state error id : String)
    (answer : Answer) (hcookie : s.flowOf m cookie = s.flowOf m' cookie') :
    (s.callback m cfg ⟨cookie, state, error, answer, id⟩).1 =
      (s.callback m' cfg ⟨cookie', state, error, answer, id⟩).1 := by
  unfold Service.callback
  dsimp only
  rw [hcookie]
  cases s.flowOf m' cookie' with
  | none => rfl
  | some f =>
    dsimp only
    split_ifs
    · rfl
    · rfl
    · cases answer with
      | unreachable => rfl
      | rejected => rfl
      | invalid => rfl
      | token nonce email verified =>
        dsimp only
        split_ifs
        · rfl
        · rfl
        · cases s.ruleFor cfg f.login.host <;> rfl

end

theorem next_numbered (cfg : Config) (e : Event String)
    (hguard : ∀ t ∈ e.presented, g.Unforged s.issued t) :
    ∃ e' : Event ℕ, s.next numbered cfg e' = s.next g.texts cfg e ∧
      (e.Settles cfg s → e'.Settles cfg s) := by
  cases e with
  | tick d => exact ⟨.tick d, rfl, id⟩
  | register host rule => exact ⟨.register host rule, rfl, by cases rule <;> exact id⟩
  | request r =>
    obtain ⟨code, hcode⟩ := code_numbered fun t ht =>
      hguard t (List.mem_append_left _ (Option.mem_toList.mpr ht))
    obtain ⟨cookie, hcookie⟩ := session_numbered fun t ht =>
      hguard t (List.mem_append_right _ (Option.mem_toList.mpr ht))
    refine ⟨.request ⟨r.host, r.path, r.uri, r.reads, cookie, code⟩, ?_, id⟩
    dsimp only [Service.next]
    cases s.ruleFor cfg r.host with
    | none => rfl
    | some rule => exact authorize_alike rule rfl rfl rfl rfl hcookie hcode
  | login state reachable nonce verifier =>
    obtain ⟨i, hi⟩ := login_numbered fun t ht => hguard t (Option.mem_toList.mpr ht)
    exact ⟨.login i reachable nonce verifier, login_alike reachable nonce verifier hi, id⟩
  | callback r =>
    obtain ⟨i, hi⟩ := flow_numbered fun t ht => hguard t (Option.mem_toList.mpr ht)
    exact ⟨.callback ⟨i, r.state, r.error, r.answer, r.id⟩,
      callback_alike r.state r.error r.id r.answer hi, id⟩

/-- Whatever texts are presented, as long as nobody else has made a MAC, the service
comes to the very states that signed values known by the number of their signing bring
it to, and where the rules settle over the texts they settle over the numbers. -/
theorem web_refines {w w' : Service} (hrun : Run (WebStep g cfg) w events w') :
    ∃ numbers, Run (Step cfg) w numbers w' ∧
      (Run (Guarded (fun s e => e.Settles cfg s) (WebStep g cfg)) w events w' →
        Run (Guarded (fun s e => e.Settles cfg s) (Step cfg)) w numbers w') := by
  induction hrun with
  | nil w => exact ⟨[], .nil w, fun _ => .nil w⟩
  | cons hstep _ ih =>
    obtain ⟨hguard, rfl⟩ := hstep
    obtain ⟨e', he', hsettles⟩ := next_numbered cfg _ hguard
    obtain ⟨numbers, hrun', hguarded⟩ := ih
    refine ⟨e' :: numbers, .cons he' hrun', fun hg => ?_⟩
    cases hg with
    | cons hfirst hrest =>
      obtain ⟨hsettle, -, rfl⟩ := hfirst
      exact .cons ⟨hsettles hsettle, he'⟩ (hguarded hrest)

section

theorem Signer.verify_own {g : Signer} {α : Type} {j : Json α} (kind : α → Payload) (v : α)
    (hdata : (kind v).data g = j.marshal v) :
    g.verify j (kind v).purpose ((kind v).token g) = some v := by
  unfold Signer.verify
  rw [Signer.opened_own, hdata]
  exact j.lossless v

theorem Signer.unforged_token {g : Signer} {issued : List Issued} {e : Issued}
    (hideal : Mac.Ideal (fun _ : Unit => g.hmac) (made g issued)) (he : e ∈ issued) :
    g.Unforged issued (e.payload.token g) := by
  intro body sig tag hcut htag m hm
  rw [Signer.cut_token] at hcut
  cases hcut
  rw [g.decode_encode] at htag
  cases htag
  have hmade : ((), e.payload.signed g) ∈ made g issued := ⟨e, he, rfl⟩
  obtain ⟨-, rfl⟩ := hideal.eq_of_mac_eq (k := ()) hmade hm
  exact hmade

noncomputable def unary {α : Type} [Countable α] (v : α) : ℕ := (exists_injective_nat α).choose v

open Classical in
noncomputable def ofUnary {α : Type} [Countable α] (n : ℕ) : Option α :=
  if h : ∃ v : α, unary v = n then some h.choose else none

theorem ofUnary_unary {α : Type} [Countable α] (v : α) : ofUnary (unary v) = some v := by
  have h : ∃ w : α, unary w = unary v := ⟨v, rfl⟩
  unfold ofUnary
  rw [dif_pos h]
  exact congrArg some ((exists_injective_nat α).choose_spec h.choose_spec)

noncomputable def unaryJson (α : Type) [Countable α] : Json α where
  marshal v := List.replicate (unary v) 0
  unmarshal b := ofUnary b.length
  lossless v := by rw [List.length_replicate, ofUnary_unary]

instance countableString : Countable String := by
  have hchar : Countable Char :=
    Function.Injective.countable (f := Char.toNat) fun _ _ h => Char.toNat_inj.mp h
  exact Function.Injective.countable (f := String.toList) fun _ _ h => String.toList_injective h

instance countableUInt8 : Countable UInt8 :=
  Function.Injective.countable (f := UInt8.toNat) fun _ _ h => UInt8.toNat_inj.mp h

instance : Countable LoginState :=
  Function.Injective.countable (f := fun v : LoginState => (v.host, v.path, v.exp))
    fun a b h => by cases a; cases b; simpa using h

instance : Countable FlowCookie :=
  Function.Injective.countable
    (f := fun v : FlowCookie => (v.nonce, v.verifier, v.provider, v.login, v.exp))
    fun a b h => by cases a; cases b; simpa using h

instance : Countable LoginCode :=
  Function.Injective.countable
    (f := fun v : LoginCode => (v.email, v.host, v.path, v.id, v.exp))
    fun a b h => by cases a; cases b; simpa using h

instance : Countable Session :=
  Function.Injective.countable (f := fun v : Session => (v.email, v.host, v.exp))
    fun a b h => by cases a; cases b; simpa using h

noncomputable def unarySigner : Signer where
  hmac := fun m => m
  encode := fun b => String.ofList (List.replicate (unary b) 'a')
  decode := fun s => ofUnary s.toList.length
  decode_encode := fun b => by
    rw [String.toList_ofList, List.length_replicate, ofUnary_unary]
  encode_dot := fun b => by
    rw [String.toList_ofList]
    intro h
    cases List.eq_of_mem_replicate h
  login := unaryJson LoginState
  flow := unaryJson FlowCookie
  code := unaryJson LoginCode
  session := unaryJson Session

theorem unarySigner_ideal (issued : List Issued) :
    Mac.Ideal (fun _ : Unit => unarySigner.hmac) (made unarySigner issued) where
  binding _ _ _ h := Prod.ext rfl h

def stateA : LoginState := ⟨"a.io", "", 600⟩
def flowA : FlowCookie := ⟨"n", "v", "google", stateA, 600⟩
def codeA : LoginCode := ⟨"m@x.io", "a.io", "", "c", 60⟩
def sessionA : Session := ⟨"m@x.io", "a.io", 43200⟩

def openA : Service :=
  { rules := Function.update (fun _ => none) "a.io" (some (ruleOf "google")) }

def stateMade : Service := openA.sign ⟨.login stateA, none⟩
def flowMade : Service := stateMade.sign ⟨.flow flowA, none⟩
def vouchA : Vouch := ⟨"google", "M@x.io"⟩
def codeMade : Service := flowMade.sign ⟨.code codeA, some vouchA⟩

def sessionMade : Service :=
  { codeMade with usedCodes := (∅ : GoMap String ℤ).set "c" 60 }.sign
    ⟨.session sessionA, some vouchA⟩

noncomputable def callbackA : CallbackRequest String where
  cookie := some ((Payload.flow flowA).token unarySigner)
  state := "n"
  answer := .token "n" "M@x.io" (some true)
  id := "c"

noncomputable def finishA : Request String where
  host := "a.io"
  path := authPath
  code := some ((Payload.code codeA).token unarySigner)

noncomputable def webLoginA : List (Event String) :=
  [.register "a.io" (some (ruleOf "google")), .request { host := "a.io", path := "/" },
    .login (some ((Payload.login stateA).token unarySigner)) true "n" "v", .callback callbackA,
    .request finishA]

theorem login_stateA : stateMade.next unarySigner.texts plainConfig
    (.login (some ((Payload.login stateA).token unarySigner)) true "n" "v") = flowMade := by
  have hv : unarySigner.texts.login stateMade ((Payload.login stateA).token unarySigner) =
      some stateA := Signer.verify_own Payload.login stateA rfl
  simp only [Service.next, Service.login, Service.loginOf, Option.bind_some, hv]
  rfl

theorem callback_flowA :
    flowMade.next unarySigner.texts plainConfig (.callback callbackA) = codeMade := by
  have hv : unarySigner.texts.flow flowMade ((Payload.flow flowA).token unarySigner) =
      some flowA := Signer.verify_own Payload.flow flowA rfl
  simp only [Service.next, Service.callback, callbackA, Service.flowOf, Option.bind_some, hv]
  rfl

theorem request_codeA :
    codeMade.next unarySigner.texts plainConfig (.request finishA) = sessionMade := by
  have hverify : unarySigner.verify unarySigner.code purposeCode
      ((Payload.code codeA).token unarySigner) = some codeA :=
    Signer.verify_own Payload.code codeA rfl
  have hv : unarySigner.texts.code codeMade ((Payload.code codeA).token unarySigner) =
      some (codeA, some vouchA) := by
    dsimp only [Signer.texts]
    rw [hverify]
    rfl
  have hrule : codeMade.ruleFor plainConfig "a.io" = some (ruleOf "google") := rfl
  simp only [Service.next, finishA, hrule, Service.authorize, if_true, Service.finishLogin,
    Service.codeOf, Option.bind_some, hv]
  rfl

theorem unforged_unary {s : Service} {e : Issued} (he : e ∈ s.issued) {t : String}
    (ht : t ∈ (some (e.payload.token unarySigner)).toList) : unarySigner.Unforged s.issued t := by
  rw [List.mem_singleton.mp ht]
  exact Signer.unforged_token (unarySigner_ideal _) he

theorem run_webLoginA :
    Run (Guarded (fun s e => e.Settles plainConfig s) (WebStep unarySigner plainConfig))
      { now := 0, rules := fun _ => none } webLoginA sessionMade := by
  refine .cons (t := openA) ⟨fun e he => ?_, fun t ht => ?_, rfl⟩ <|
    .cons (t := stateMade) ⟨trivial, fun t ht => ?_, rfl⟩ <|
    .cons ⟨trivial, fun t ht => ?_, login_stateA⟩ <|
    .cons ⟨trivial, fun t ht => ?_, callback_flowA⟩ <|
    .cons ⟨trivial, fun t ht => ?_, request_codeA⟩ <| .nil _
  · cases he
  · cases ht
  · cases ht
  · exact unforged_unary (e := ⟨.login stateA, none⟩) (by simp [stateMade, Service.sign]) ht
  · exact unforged_unary (e := ⟨.flow flowA, none⟩) (by simp [flowMade, Service.sign]) ht
  · exact unforged_unary (e := ⟨.code codeA, some vouchA⟩) (by simp [codeMade, Service.sign]) ht

theorem web_refines_loginA : ∃ numbers,
    Run (Guarded (fun s e => e.Settles plainConfig s) (Step plainConfig))
      { now := 0, rules := fun _ => none } numbers sessionMade := by
  obtain ⟨numbers, -, hsettles⟩ := web_refines (run_webLoginA.mono fun _ _ _ h => h.2)
  exact ⟨numbers, hsettles run_webLoginA⟩

noncomputable def requestA : Request String :=
  { host := "a.io", path := "/", cookie := some ((Payload.session sessionA).token unarySigner) }

theorem requestA_proceeds : (sessionMade.authorize unarySigner.texts plainConfig (ruleOf "google")
    requestA).2 = .proceed "m@x.io" := by
  have hverify : unarySigner.verify unarySigner.session purposeSession
      ((Payload.session sessionA).token unarySigner) = some sessionA :=
    Signer.verify_own Payload.session sessionA rfl
  have hv : unarySigner.texts.session sessionMade ((Payload.session sessionA).token unarySigner) =
      some (sessionA, some vouchA) := by
    dsimp only [Signer.texts]
    rw [hverify]
    rfl
  have hpath : ("/" : String) ≠ authPath := by decide
  simp only [Service.authorize, requestA, if_neg hpath, Service.sessionOf, Option.bind_some, hv]
  rfl

theorem session_from_completed_login_a :
    (sessionMade.authorize unarySigner.texts plainConfig (ruleOf "google") requestA).2 =
        .proceed "m@x.io" ∧
      ∃ sess, sessionMade.expired sess.exp = false ∧
        Completed unarySigner plainConfig { now := 0, rules := fun _ => none } webLoginA "a.io"
          "m@x.io" sess := by
  have h := session_from_completed_login unarySigner plainConfig 0 (fun _ => none)
    (run_webLoginA.mono fun _ _ _ h => h.2) (unarySigner_ideal _)
  refine ⟨requestA_proceeds, h.1 requestA (ruleOf "google") "m@x.io" (fun t ht => ?_)
    requestA_proceeds⟩
  exact unforged_unary (e := ⟨.session sessionA, some vouchA⟩)
    (by simp [sessionMade, Service.sign]) (Option.mem_toList.mpr ht)

end

end L8Tunnel.Oidc
