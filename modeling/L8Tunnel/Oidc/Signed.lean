import L8Tunnel.Base.Mac
import L8Tunnel.Oidc.Service

/-! # Signed payloads (oidc/signed.go) -/

namespace L8Tunnel.Oidc
open Base

/-- A JSON codec that loses nothing. -/
structure Json (α : Type) where
  marshal : α → List UInt8
  unmarshal : List UInt8 → Option α
  lossless : ∀ v, unmarshal (marshal v) = some v

/-- HMAC, base64 and JSON; an encoded text has no dot. -/
structure Signer where
  hmac : List UInt8 → List UInt8
  encode : List UInt8 → String
  decode : String → Option (List UInt8)
  decode_encode : ∀ b, decode (encode b) = some b
  encode_dot : ∀ b, '.' ∉ (encode b).toList
  login : Json LoginState
  flow : Json FlowCookie
  code : Json LoginCode
  session : Json Session

def purposeLogin : String := "login-state"
def purposeFlow : String := "flow-cookie"
def purposeCode : String := "login-code"
def purposeSession : String := "session-cookie"
def message (purpose body : String) : List UInt8 := Bytes.ofString (purpose ++ "\x00" ++ body)

namespace Signer
variable (g : Signer)

def mac (purpose body : String) : List UInt8 := g.hmac (message purpose body)

def sign {α : Type} (j : Json α) (purpose : String) (v : α) : String :=
  let body := g.encode (j.marshal v)
  body ++ "." ++ g.encode (g.mac purpose body)

def opened (purpose token : String) : Option (List UInt8) :=
  match GoString.cut token '.' with
  | (_, none) => none
  | (body, some sig) =>
    match g.decode sig with
    | none => none
    | some got => if got ≠ g.mac purpose body then none else g.decode body

def verify {α : Type} (j : Json α) (purpose token : String) : Option α :=
  (g.opened purpose token).bind j.unmarshal

end Signer

namespace Payload
variable (g : Signer)

def purpose : Payload → String
  | .login _ => purposeLogin
  | .flow _ => purposeFlow
  | .code _ => purposeCode
  | .session _ => purposeSession

def data : Payload → List UInt8
  | .login st => g.login.marshal st
  | .flow f => g.flow.marshal f
  | .code c => g.code.marshal c
  | .session s => g.session.marshal s

def token : Payload → String
  | .login st => g.sign g.login purposeLogin st
  | .flow f => g.sign g.flow purposeFlow f
  | .code c => g.sign g.code purposeCode c
  | .session s => g.sign g.session purposeSession s

def signed (p : Payload) : List UInt8 := message p.purpose (g.encode (p.data g))

theorem token_eq (p : Payload) :
    p.token g = g.encode (p.data g) ++ "." ++ g.encode (g.hmac (p.signed g)) := by
  cases p <;> rfl

theorem purpose_nul (p : Payload) : '\x00' ∉ p.purpose.toList := by
  have hnul : ∀ s ∈ [purposeLogin, purposeFlow, purposeCode, purposeSession],
      '\x00' ∉ s.toList := by decide
  cases p <;> exact hnul _ (by simp [purpose])

end Payload

def made (g : Signer) (issued : List Issued) : Set (Unit × List UInt8) :=
  {x | ∃ e ∈ issued, x = ((), e.payload.signed g)}

/-- Whoever presents the text has not made a MAC of the signer: the one it
carries, if it is good for any message, is one the signer has made. -/
def Signer.Unforged (g : Signer) (issued : List Issued) (token : String) : Prop :=
  ∀ body sig tag, GoString.cut token '.' = (body, some sig) → g.decode sig = some tag →
    Mac.Unforged (fun _ : Unit => g.hmac) (made g issued) () tag

theorem ofString_injective {s t : String} (h : Bytes.ofString s = Bytes.ofString t) : s = t := by
  have hback := congrArg Bytes.toString? h
  rw [Bytes.toString?_ofString, Bytes.toString?_ofString] at hback
  exact Option.some.inj hback

theorem message_inj {purpose purpose' body body' : String} (hp : '\x00' ∉ purpose.toList)
    (hp' : '\x00' ∉ purpose'.toList) (h : message purpose body = message purpose' body') :
    purpose = purpose' ∧ body = body' := by
  have hlist := congrArg String.toList (ofString_injective h)
  simp only [String.toList_append] at hlist
  have hframe : purpose.toList ++ '\x00' :: body.toList =
      purpose'.toList ++ '\x00' :: body'.toList := by
    simpa using hlist
  obtain ⟨hpurpose, hbody⟩ := Mac.frame_first hp hp' hframe
  exact ⟨String.toList_injective hpurpose, String.toList_injective hbody⟩

namespace Signer
variable {g : Signer} {issued : List Issued} {purpose token : String}

theorem cut_token (p : Payload) :
    GoString.cut (p.token g) '.' = (g.encode (p.data g), some (g.encode (g.hmac (p.signed g)))) := by
  have hdot : "." = String.singleton '.' := rfl
  rw [Payload.token_eq, hdot, GoString.cut_append (g.encode_dot _)]

theorem opened_token (p : Payload) (purpose : String) :
    g.opened purpose (p.token g) =
      if g.hmac (p.signed g) ≠ g.mac purpose (g.encode (p.data g)) then none
      else some (p.data g) := by
  unfold opened
  rw [cut_token]
  dsimp only
  rw [g.decode_encode]
  dsimp only
  rw [g.decode_encode]

theorem opened_own (p : Payload) : g.opened p.purpose (p.token g) = some (p.data g) := by
  rw [opened_token]
  exact if_neg (not_not.mpr rfl)

theorem opened_made (hunforged : g.Unforged issued token) (hnul : '\x00' ∉ purpose.toList)
    {data : List UInt8} (h : g.opened purpose token = some data) :
    ∃ e ∈ issued, e.payload.purpose = purpose ∧ e.payload.data g = data := by
  unfold opened at h
  split at h
  · cases h
  next body sig hcut =>
  split at h
  · cases h
  next tag htag =>
  split at h
  · cases h
  next hmac =>
  obtain ⟨e, he, hmsg⟩ := hunforged body sig tag hcut htag (message purpose body)
    (not_not.mp hmac)
  obtain ⟨hpurpose, hbody⟩ := message_inj hnul e.payload.purpose_nul (Prod.mk.inj hmsg).2
  rw [hbody, g.decode_encode] at h
  exact ⟨e, he, hpurpose.symm, Option.some.inj h⟩

theorem opened_other {e : Issued} (hideal : Mac.Ideal (fun _ : Unit => g.hmac) (made g issued))
    (he : e ∈ issued) (hnul : '\x00' ∉ purpose.toList) (hne : purpose ≠ e.payload.purpose) :
    g.opened purpose (e.payload.token g) = none := by
  rw [opened_token]
  refine if_pos fun heq => hne ?_
  have hmade : ((), e.payload.signed g) ∈ made g issued := ⟨e, he, rfl⟩
  obtain ⟨-, hmsg⟩ := hideal.eq_of_mac_eq (k := ()) hmade heq
  exact (message_inj e.payload.purpose_nul hnul hmsg).1.symm

theorem verify_made {α : Type} {j : Json α} {kind : α → Payload} {v : α}
    (hkind : ∀ p : Payload, p.purpose = purpose → ∃ v, p = kind v)
    (hdata : ∀ v, (kind v).data g = j.marshal v) (hnul : '\x00' ∉ purpose.toList)
    (hunforged : g.Unforged issued token) (h : g.verify j purpose token = some v) :
    ∃ vouch, ⟨kind v, vouch⟩ ∈ issued := by
  obtain ⟨data, hopen, hjson⟩ := Option.bind_eq_some_iff.mp h
  obtain ⟨⟨p, vouch⟩, he, hpurpose, hsame⟩ := opened_made hunforged hnul hopen
  obtain ⟨v', rfl⟩ := hkind p hpurpose
  have hv : j.unmarshal data = some v' := by
    rw [← hsame, hdata, j.lossless]
  cases hv.symm.trans hjson
  exact ⟨vouch, he⟩

theorem verify_login {st : LoginState} (h : g.Unforged issued token)
    (hv : g.verify g.login purposeLogin token = some st) : ∃ v, ⟨.login st, v⟩ ∈ issued :=
  verify_made (fun p hp => by cases p <;> simp_all [Payload.purpose, purposeLogin, purposeFlow,
    purposeCode, purposeSession]) (fun _ => rfl) (by decide) h hv

theorem verify_flow {f : FlowCookie} (h : g.Unforged issued token)
    (hv : g.verify g.flow purposeFlow token = some f) : ∃ v, ⟨.flow f, v⟩ ∈ issued :=
  verify_made (fun p hp => by cases p <;> simp_all [Payload.purpose, purposeLogin, purposeFlow,
    purposeCode, purposeSession]) (fun _ => rfl) (by decide) h hv

theorem verify_code {c : LoginCode} (h : g.Unforged issued token)
    (hv : g.verify g.code purposeCode token = some c) : ∃ v, ⟨.code c, v⟩ ∈ issued :=
  verify_made (fun p hp => by cases p <;> simp_all [Payload.purpose, purposeLogin, purposeFlow,
    purposeCode, purposeSession]) (fun _ => rfl) (by decide) h hv

theorem verify_session {sess : Session} (h : g.Unforged issued token)
    (hv : g.verify g.session purposeSession token = some sess) : ∃ v, ⟨.session sess, v⟩ ∈ issued :=
  verify_made (fun p hp => by cases p <;> simp_all [Payload.purpose, purposeLogin, purposeFlow,
    purposeCode, purposeSession]) (fun _ => rfl) (by decide) h hv

end Signer

/-- Who vouched for a signed value, by the first one of its content. -/
def Service.vouchOf (s : Service) (p : Payload) : Option Vouch :=
  (s.issued.find? fun e => e.payload = p).bind Issued.vouch

/-- Signed values as texts. That somebody vouched is in no text: it is told for the
texts that open. -/
def Signer.texts (g : Signer) : Medium String where
  login _ t := g.verify g.login purposeLogin t
  flow _ t := g.verify g.flow purposeFlow t
  code s t := (g.verify g.code purposeCode t).map fun c => (c, s.vouchOf (.code c))
  session s t :=
    (g.verify g.session purposeSession t).map fun sess => (sess, s.vouchOf (.session sess))
  sign _ p := p.token g

theorem Service.vouchOf_mem {s : Service} {p : Payload} {v : Option Vouch}
    (h : ⟨p, v⟩ ∈ s.issued) : ⟨p, s.vouchOf p⟩ ∈ s.issued := by
  cases hfind : s.issued.find? fun e => e.payload = p with
  | none => exact absurd (decide_eq_true rfl) (List.find?_eq_none.mp hfind _ h)
  | some e =>
    obtain rfl : e.payload = p := by simpa using List.find?_some hfind
    have hvouch : s.vouchOf e.payload = e.vouch := by
      unfold vouchOf
      rw [hfind]
      rfl
    rw [hvouch]
    exact List.mem_of_find?_eq_some hfind

theorem Signer.texts_sound {g : Signer} {s : Service} {t : String} (h : g.Unforged s.issued t) :
    g.texts.Sound s t := by
  refine ⟨fun st hv => verify_login h hv, fun f hv => verify_flow h hv, fun c v hv => ?_,
    fun sess v hv => ?_⟩
  · obtain ⟨c, hverify, heq⟩ := Option.map_eq_some_iff.mp hv
    cases heq
    obtain ⟨v, hmem⟩ := verify_code h hverify
    exact s.vouchOf_mem hmem
  · obtain ⟨sess, hverify, heq⟩ := Option.map_eq_some_iff.mp hv
    cases heq
    obtain ⟨v, hmem⟩ := verify_session h hverify
    exact s.vouchOf_mem hmem

end L8Tunnel.Oidc
