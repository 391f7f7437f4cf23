import L8Tunnel.Registrar.Sessions

/-! # The relay's admin API and its store (admin/api.go, store/store.go) -/

namespace L8Tunnel.Admin
open Base Auth Registrar

variable {γ : Type}

/-- A reservation in the relay's store: it outlives the process. -/
structure StoredReservation where
  name : String
  tokenID : String
  port : ℤ := 0

inductive StoreError where
  | notFound (what : String)
  | other (err : String)

def StoreError.text : StoreError → String
  | .notFound what => what ++ ": not found"
  | .other err => err

/-- The relay with its store of reservations; the tokens are in the server. -/
structure RelayAPI (γ : Type) where
  srv : Server γ
  reservations : Table StoredReservation.name := Table.empty

/-- The store's transactions; each one may fail and then changes nothing. -/
inductive StoreOp : Type → Type where
  | tokenByName (name : String) : StoreOp (Except StoreError TokenRecord)
  | deleteToken (id : String) : StoreOp (Except StoreError Unit)
  | putReservation (r : StoredReservation) : StoreOp (Except StoreError Unit)
  | deleteReservation (name : String) : StoreOp (Except StoreError Unit)

abbrev ApiOp (β : Type) : Type := Op β ⊕ StoreOp β

namespace RelayAPI

def tokenByName (a : RelayAPI γ) (name : String) : Except StoreError TokenRecord :=
  match a.srv.tokens.values.find? fun t => t.name = name with
  | some t => .ok t
  | none => .error (.notFound ("token " ++ GoString.quote name))

def deleteToken (a : RelayAPI γ) (id : String) : Except StoreError (RelayAPI γ) :=
  match a.srv.tokens.get id with
  | none => .error (.notFound ("token ID " ++ id))
  | some _ =>
    .ok { srv := { a.srv with tokens := a.srv.tokens.del id }
          reservations := a.reservations.delWhere fun r => r.tokenID = id }

def putReservation (a : RelayAPI γ) (r : StoredReservation) : Except StoreError (RelayAPI γ) :=
  match a.srv.tokens.get r.tokenID with
  | none => .error (.notFound ("token ID " ++ r.tokenID))
  | some _ => .ok { a with reservations := a.reservations.put r }

def deleteReservation (a : RelayAPI γ) (name : String) : Except StoreError (RelayAPI γ) :=
  match a.reservations.get name with
  | none => .error (.notFound ("reservation " ++ GoString.quote name))
  | some _ => .ok { a with reservations := a.reservations.del name }

def reservationList (a : RelayAPI γ) : List StoredReservation :=
  a.reservations.values.insertionSort fun x y => x.name ≤ y.name

def update (a : RelayAPI γ) (w : World) (tx : Except StoreError (RelayAPI γ)) :
    RelayAPI γ × Except StoreError Unit :=
  match tx with
  | .error err => (a, .error err)
  | .ok a' =>
    match w.storeError with
    | some err => (a, .error (.other err))
    | none => (a', .ok ())

def answer (cfg : Config γ) {β : Type} (t : ℕ) (w : World) (op : ApiOp β) (a : RelayAPI γ) :
    RelayAPI γ × β :=
  match op with
  | .inl op => ({ a with srv := (a.srv.answer cfg t w op).1 }, (a.srv.answer cfg t w op).2)
  | .inr (.tokenByName name) =>
    (a, match w.storeError with
      | some err => .error (.other err)
      | none => a.tokenByName name)
  | .inr (.deleteToken id) => a.update w (a.deleteToken id)
  | .inr (.putReservation r) => a.update w (a.putReservation r)
  | .inr (.deleteReservation name) => a.update w (a.deleteReservation name)

def objects (cfg : Config γ) : Objects ApiOp ℕ World (RelayAPI γ) where
  answer := answer cfg

end RelayAPI

structure Response where
  status : ℕ
  error : String := ""
  disconnected : ℕ := 0

def statusFor : StoreError → ℕ
  | .notFound _ => 404
  | .other _ => 500

def writeErr (err : StoreError) : Response := { status := statusFor err, error := err.text }
def onRelay {α : Type} (p : Prog Op α) : Prog ApiOp α := p.embed Sum.inl
def onStore {β : Type} (op : StoreOp β) : Prog ApiOp β := Prog.lift (F := ApiOp) (.inr op)

def revokeToken (name : String) : Prog ApiOp Response := do
  match ← onStore (.tokenByName name) with
  | .error err => pure (writeErr err)
  | .ok rec =>
    match ← onStore (.deleteToken rec.id) with
    | .error err => pure (writeErr err)
    | .ok _ => do
      let sessions ← onRelay (disconnectToken rec.id)
      pure { status := 200, disconnected := sessions.length }

def addReservation (cfg : Config γ) (name token : String) (port : ℤ) : Prog ApiOp Response := do
  match ← onStore (.tokenByName token) with
  | .error err => pure (writeErr err)
  | .ok rec =>
    match ← onRelay (reserve cfg name rec.id port) with
    | some err => pure { status := 409, error := err }
    | none =>
      match ← onStore (.putReservation ⟨name, rec.id, port⟩) with
      | .error err => do
        onRelay (ask (.unreserve name))
        pure (writeErr err)
      | .ok _ => pure { status := 201 }

def removeReservation (name : String) : Prog ApiOp Response := do
  match ← onStore (.deleteReservation name) with
  | .error err => pure (writeErr err)
  | .ok _ => do
    onRelay (ask (.unreserve name))
    pure { status := 204 }

/-- What runs beside each other: agent sessions, grace timers and admin requests. -/
inductive Request where
  | agent (a : Agent)
  | expire (ref : ℕ)
  | addReservation (name token : String) (port : ℤ)
  | removeReservation (name : String)
  | revokeToken (name : String)

namespace Request

def admin : Request → Bool
  | .agent _ | .expire _ => false
  | _ => true

def prog (cfg : Config γ) : Request → Prog ApiOp (Option Response)
  | .agent a => do
    onRelay (serveAgent cfg a)
    pure none
  | .expire ref => do
    onRelay (ask (.expire ref))
    pure none
  | .addReservation name token port => do
    let res ← Admin.addReservation cfg name token port
    pure (some res)
  | .removeReservation name => do
    let res ← Admin.removeReservation name
    pure (some res)
  | .revokeToken name => do
    let res ← Admin.revokeToken name
    pure (some res)

end Request

def Idle (requests : ℕ → Request) (as : List (ℕ × World)) (P : ℕ → Prog ApiOp (Option Response)) :
    Prop :=
  ∀ t, (requests t).admin = true → t ∉ as.map Prod.fst ∨ ∃ res, P t = .done res

def loadReservations (cfg : Config γ) : List StoredReservation → Prog Op (Option String)
  | [] => pure none
  | r :: rest => do
    match ← reserve cfg r.name r.tokenID r.port with
    | some err => pure (some ("relay: reservation " ++ GoString.quote r.name ++ ": " ++ err))
    | none => loadReservations cfg rest

def relayNew (cfg : Config γ) (grace : ℤ) (tokens : Table TokenRecord.id) (cluster : γ)
    (reservations : List StoredReservation) : Except String (Server γ) :=
  let out := Runs.eval (Registrar.objects cfg) 0 {} (loadReservations cfg reservations)
    (.new grace cfg.cluster.isSome tokens cluster)
  match out.1 with
  | some err => .error err
  | none => .ok out.2

def RelayAPI.restart (cfg : Config γ) (grace : ℤ) (a : RelayAPI γ) : Except String (Server γ) :=
  relayNew cfg grace a.srv.tokens a.srv.cluster a.reservationList

def Started (cfg : Config γ) (a : RelayAPI γ) : Prop :=
  (∃ grace, a.restart cfg grace = .ok a.srv) ∧
  ∀ n r, a.reservations.get n = some r → ∃ rec, a.srv.tokens.get r.tokenID = some rec

end L8Tunnel.Admin
