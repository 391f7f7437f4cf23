import L8Tunnel.Auth.Access
import L8Tunnel.Auth.Policy
import L8Tunnel.Base.Prog

/-! # The relay's copy of the agent credentials (tun/relaynode/accounts.go) -/

namespace L8Tunnel.Relay
open Base Auth

structure TunTokenPolicy where
  names : List String := []
  types : List TunTunnelType := []
  maxTunnels : Int32 := 0
  ports : String := ""
  requireCert : Bool := false
  domains : List String := []

structure TunToken where
  tokenId : String
  name : String := ""
  secretHash : String := ""
  policy : Option TunTokenPolicy := none

structure TunAgentCert where
  certId : String
  tokenId : String
  revoked : Bool := false

structure TunGatewayKey where
  name : String := ""
  fingerprint : String
  tunnels : List String := []

def tunTunnelTypeName : TunTunnelType → Except String String
  | .tcp => .ok "tcp"
  | .ssh => .ok "ssh"
  | .http => .ok "http"
  | .tls => .ok "tls"
  | .unspecified => .error "TUN_TUNNEL_TYPE_UNSPECIFIED"
  | .unknown code => .error (toString code.toInt)

def policyToAuth : Option TunTokenPolicy → Except String Policy
  | none => .ok {}
  | some p =>
    match p.types.mapM tunTunnelTypeName with
    | .error t => .error ("policy: invalid tunnel type " ++ t)
    | .ok types =>
      .ok { names := p.names, types := types, maxTunnels := p.maxTunnels.toInt, ports := p.ports
            requireCert := p.requireCert, domains := p.domains }

def tokenRecord (t : TunToken) (certSerials : List String) : Except String TokenRecord :=
  (policyToAuth t.policy).map fun policy =>
    { id := t.tokenId, name := t.name, hash := Bytes.ofString t.secretHash, policy := policy
      certSerials := certSerials }

def validSerials (tokenID : String) (all : List TunAgentCert) : List String :=
  (all.filter fun c => c.tokenId = tokenID ∧ c.revoked = false).map TunAgentCert.certId

def gatewayKey (k : TunGatewayKey) : GatewayKey :=
  { name := k.name, fingerprint := k.fingerprint, tunnels := k.tunnels }

def addToken (certs : List TunAgentCert) (m : GoMap String TokenRecord) (t : TunToken) :
    GoMap String TokenRecord :=
  match tokenRecord t (validSerials t.tokenId certs) with
  | .error _ => m
  | .ok rec => m.set rec.id rec

def tokensByID (toks : List TunToken) (certs : List TunAgentCert) : GoMap String TokenRecord :=
  toks.foldl (addToken certs) ∅

def keysByFingerprint (keys : List TunGatewayKey) : GoMap String GatewayKey :=
  keys.foldl (fun m k => m.set k.fingerprint (gatewayKey k)) ∅

/-- The backend's tables of tokens, certificates and gateway keys. -/
structure Backend where
  tokens : List TunToken := []
  certs : List TunAgentCert := []
  keys : List TunGatewayKey := []

structure AccountsSnapshot where
  tokens : List TokenRecord := []
  keys : List GatewayKey := []

/-- The relay's cache of accounts, its snapshot file and the backend; `held` and `dropped` track
what is read and revoked. -/
structure Accounts (τ : Type) where
  downAt : Option ℤ := none
  keysAt : Option ℤ := none
  tokens : GoMap String TokenRecord := ∅
  keys : GoMap String GatewayKey := ∅
  snapshot : Option AccountsSnapshot := none
  backend : Backend := {}
  held : τ → List String := fun _ => []
  dropped : List String := []

/-- Sections under the lock, reads of the backend and of the file. -/
inductive AccountOp : Type → Type where
  -- sections under the lock
  | isDown : AccountOp Bool
  | setDown : AccountOp Unit
  | setToken (id : String) (rec : Option TokenRecord) : AccountOp Unit
  | cached (id : String) : AccountOp (Option TokenRecord)
  | cachedKey (fp : String) : AccountOp (Option GatewayKey × Bool)
  | setKeys (keys : GoMap String GatewayKey) (fp : String) : AccountOp (Option GatewayKey)
  | dropToken (id : String) : AccountOp Unit
  | replace (tokens : GoMap String TokenRecord) (keys : GoMap String GatewayKey) : AccountOp Unit
  | values : AccountOp AccountsSnapshot
  -- the snapshot's file
  | write (snap : AccountsSnapshot) : AccountOp (Except String Unit)
  -- reads of the backend
  | readTokens : AccountOp (Except String (List TunToken))
  | readToken (id : String) : AccountOp (Except String (Option TunToken))
  | readCerts : AccountOp (Except String (List TunAgentCert))
  | readKeys : AccountOp (Except String (List TunGatewayKey))
  -- changes of the backend
  | storeToken (t : TunToken) : AccountOp Unit
  | deleteToken (id : String) : AccountOp Unit
  | storeCerts (certs : List TunAgentCert) : AccountOp Unit
  | storeKeys (keys : List TunGatewayKey) : AccountOp Unit

/-- The clock, whether the backend answers, and the order of map loops. -/
structure Outside where
  now : ℤ := 0
  failure : Option String := none
  order : RangeOrder := .stored

def Outside.result {α : Type} (o : Outside) (a : α) : Except String α :=
  match o.failure with
  | some e => .error e
  | none => .ok a

def liveLookupBackoff : ℤ := 30000000000

namespace Accounts
variable {τ : Type} [DecidableEq τ]

def since (t : Option ℤ) (now age : ℤ) : Bool := t.any fun t => now - t < age

def hold (a : Accounts τ) (t : τ) (ids : List String) : Accounts τ :=
  { a with held := Function.update a.held t ids }

def holdOn (a : Accounts τ) (t : τ) (o : Outside) : Accounts τ :=
  if o.failure = none then a else a.hold t []

def listed (a : Accounts τ) : List TunToken := a.backend.tokens.filter fun t => t.tokenId ≠ ""
def find (a : Accounts τ) (id : String) : Option TunToken := a.listed.find? fun t => t.tokenId = id

def reads (a : Accounts τ) (t : τ) (o : Outside) (ids : List String) : Accounts τ :=
  a.hold t (if o.failure = none then ids else [])

def dropToken (a : Accounts τ) (id : String) : Accounts τ :=
  { a with
    tokens := a.tokens.del id
    dropped := if a.find id = none then id :: a.dropped else a.dropped }

def storeToken (a : Accounts τ) (t : TunToken) : Accounts τ :=
  { a with
    backend := { a.backend with
      tokens := t :: a.backend.tokens.filter fun o => o.tokenId ≠ t.tokenId }
    dropped := a.dropped.filter fun id => id ≠ t.tokenId }

def deleteToken (a : Accounts τ) (id : String) : Accounts τ :=
  { a with backend := { a.backend with
      tokens := a.backend.tokens.filter fun o => o.tokenId ≠ id } }

def values (a : Accounts τ) (o : RangeOrder) : AccountsSnapshot where
  tokens := (a.tokens.range o).filterMap a.tokens.get
  keys := (a.keys.range o).filterMap a.keys.get

def answer {β : Type} (t : τ) (o : Outside) (op : AccountOp β) (a : Accounts τ) : Accounts τ × β :=
  match op with
  | .isDown => (a, since a.downAt o.now liveLookupBackoff)
  | .setDown => ({ a with downAt := some o.now }.hold t [], ())
  | .setToken id rec =>
    ({ a with tokens := match rec with
        | none => a.tokens.del id
        | some rec => a.tokens.set id rec }.hold t [], ())
  | .cached id => (a, a.tokens.get id)
  | .cachedKey fp =>
    (a, a.keys.get fp,
      since a.keysAt o.now 1000000000 || since a.downAt o.now liveLookupBackoff)
  | .setKeys keys fp => ({ a with keys := keys, keysAt := some o.now }, keys.get fp)
  | .dropToken id => (a.dropToken id, ())
  | .replace tokens keys => ({ a with tokens := tokens, keys := keys }.hold t [], ())
  | .values => (a, a.values o.order)
  | .write snap =>
    (if o.failure = none then { a with snapshot := some snap } else a, o.result ())
  | .readTokens => (a.reads t o (a.listed.map TunToken.tokenId), o.result a.listed)
  | .readToken id => (a.reads t o ((a.find id).toList.map TunToken.tokenId), o.result (a.find id))
  | .readCerts => (a.holdOn t o, o.result a.backend.certs)
  | .readKeys => (a.holdOn t o, o.result a.backend.keys)
  | .storeToken t => (a.storeToken t, ())
  | .deleteToken id => (a.deleteToken id, ())
  | .storeCerts certs => ({ a with backend := { a.backend with certs := certs } }, ())
  | .storeKeys keys => ({ a with backend := { a.backend with keys := keys } }, ())

end Accounts

def accounts (τ : Type) [DecidableEq τ] : Objects AccountOp τ Outside (Accounts τ) :=
  ⟨fun t o op a => a.answer t o op⟩

open Prog (lift)

def fetchToken (id : String) : Prog AccountOp (Except String (Option TokenRecord)) := do
  match ← lift (.readToken id) with
  | .error e => return .error e
  | .ok none => return .ok none
  | .ok (some t) =>
    match ← lift .readCerts with
    | .error e => return .error e
    | .ok certs => return (tokenRecord t (validSerials id certs)).map some

def tokenByID (id : String) : Prog AccountOp (Option TokenRecord) := do
  if ← lift .isDown then lift (.cached id)
  else
    match ← fetchToken id with
    | .ok rec =>
      lift (.setToken id rec)
      return rec
    | .error _ =>
      lift .setDown
      lift (.cached id)

def gatewayKeyByFingerprint (fp : String) : Prog AccountOp (Option GatewayKey) := do
  let (k, recent) ← lift (.cachedKey fp)
  if k.isSome ∨ recent then return k
  else
    match ← lift .readKeys with
    | .error _ =>
      lift .setDown
      return none
    | .ok keys => lift (.setKeys (keysByFingerprint keys) fp)

def save : Prog AccountOp (Except String Unit) := do
  let snap ← lift .values
  lift (.write snap)

def refresh : Prog AccountOp (Except String Unit) := do
  match ← lift .readTokens with
  | .error e => return .error e
  | .ok toks =>
    match ← lift .readCerts with
    | .error e => return .error e
    | .ok certs =>
      match ← lift .readKeys with
      | .error e => return .error e
      | .ok keys =>
        lift (.replace (tokensByID toks certs) (keysByFingerprint keys))
        save

inductive AccountCaller where
  | refresh
  | tokenByID (id : String)
  | gatewayKeyByFingerprint (fp : String)
  | revoke (id : String)
  | storeToken (t : TunToken)
  | storeCerts (certs : List TunAgentCert)
  | storeKeys (keys : List TunGatewayKey)

def AccountCaller.prog : AccountCaller → Prog AccountOp Unit
  | .refresh => do
    let _ ← Relay.refresh
    return ()
  | .tokenByID id => do
    let _ ← Relay.tokenByID id
    return ()
  | .gatewayKeyByFingerprint fp => do
    let _ ← Relay.gatewayKeyByFingerprint fp
    return ()
  | .revoke id => do
    lift (.deleteToken id)
    lift (.dropToken id)
  | .storeToken t => lift (.storeToken t)
  | .storeCerts certs => lift (.storeCerts certs)
  | .storeKeys keys => lift (.storeKeys keys)

variable {τ : Type}

/-- The condition: a token is dropped only when no thread has read it from the
backend and has still to write what it read. -/
def Settled (β : Type) (_ : τ) (op : AccountOp β) (a : Accounts τ) : Prop :=
  match op with
  | .dropToken id => ∀ u, id ∉ a.held u
  | _ => True

/-- A dropped token is in no cache, and nobody is about to put it there. -/
structure Forgotten (a : Accounts τ) (L : τ → List String) : Prop where
  held : a.held = L
  cache : ∀ id ∈ a.dropped, a.tokens.get id = none
  backend : ∀ id ∈ a.dropped, ∀ r ∈ a.listed, r.tokenId ≠ id
  reading : ∀ t, ∀ id ∈ a.held t, id ∉ a.dropped

namespace Forgotten
variable {a : Accounts τ} {L : τ → List String} {t : τ}

theorem dropToken (h : Forgotten a L) {id : String} (hid : ∀ u, id ∉ a.held u) :
    Forgotten (a.dropToken id) L where
  held := h.held
  cache k hk := by
    unfold Accounts.dropToken at hk ⊢
    dsimp only at hk ⊢
    rw [GoMap.get_del_eq_ite]
    split
    · rfl
    next hne =>
      split at hk
      · exact h.cache k ((List.mem_cons.mp hk).resolve_left hne)
      · exact h.cache k hk
  backend k hk r hr := by
    unfold Accounts.dropToken at hk
    dsimp only at hk
    split at hk
    next hfind =>
      rcases List.mem_cons.mp hk with rfl | hk
      · simpa using List.find?_eq_none.mp hfind r hr
      · exact h.backend k hk r hr
    · exact h.backend k hk r hr
  reading u k hk := by
    unfold Accounts.dropToken at hk ⊢
    dsimp only at hk ⊢
    split
    · intro hmem
      rcases List.mem_cons.mp hmem with rfl | hmem
      · exact hid u hk
      · exact h.reading u k hk hmem
    · exact h.reading u k hk

theorem storeToken (h : Forgotten a L) (r : TunToken) : Forgotten (a.storeToken r) L where
  held := h.held
  cache id hid := h.cache id (List.mem_of_mem_filter hid)
  backend id hid r' hr' := by
    obtain ⟨hmem, hne⟩ := List.mem_filter.mp hr'
    obtain ⟨hid, hidr⟩ := List.mem_filter.mp hid
    rcases List.mem_cons.mp hmem with rfl | hmem
    · exact fun heq => (of_decide_eq_true hidr) heq.symm
    · exact h.backend id hid r' (List.mem_filter.mpr ⟨List.mem_of_mem_filter hmem, hne⟩)
  reading u id hid hmem := h.reading u id hid (List.mem_of_mem_filter hmem)

theorem deleteToken (h : Forgotten a L) (id : String) : Forgotten (a.deleteToken id) L where
  held := h.held
  cache := h.cache
  backend k hk r hr := by
    obtain ⟨hmem, hne⟩ := List.mem_filter.mp hr
    exact h.backend k hk r (List.mem_filter.mpr ⟨List.mem_of_mem_filter hmem, hne⟩)
  reading := h.reading

variable [DecidableEq τ]

theorem hold (h : Forgotten a L) {ids : List String} (hids : ∀ id ∈ ids, id ∉ a.dropped) :
    Forgotten (a.hold t ids) (Function.update L t ids) where
  held := by rw [← h.held]; rfl
  cache := h.cache
  backend := h.backend
  reading u id hid := by
    unfold Accounts.hold at hid
    dsimp only at hid
    by_cases hu : u = t
    · subst hu
      rw [Function.update_self] at hid
      exact hids id hid
    · rw [Function.update_of_ne hu] at hid
      exact h.reading u id hid

theorem write (h : Forgotten a L) {m : GoMap String TokenRecord}
    (hm : ∀ id ∈ a.dropped, id ∉ L t → m.get id = none) :
    Forgotten ({ a with tokens := m }.hold t []) (Function.update L t []) := by
  have hcache : ∀ id ∈ a.dropped, m.get id = none := by
    intro id hid
    refine hm id hid fun hheld => ?_
    rw [← h.held] at hheld
    exact h.reading t id hheld hid
  have hset : Forgotten { a with tokens := m } L := ⟨h.held, hcache, h.backend, h.reading⟩
  exact hset.hold nofun

theorem reads (h : Forgotten a L) (o : Outside) {rs : List TunToken} (hrs : ∀ r ∈ rs, r ∈ a.listed) :
    Forgotten (a.reads t o (rs.map TunToken.tokenId))
      (Function.update L t (if o.failure = none then rs.map TunToken.tokenId else [])) := by
  refine h.hold fun id hid => ?_
  split at hid
  · obtain ⟨r, hr, rfl⟩ := List.mem_map.mp hid
    exact fun hd => h.backend _ hd r (hrs r hr) rfl
  · cases hid

theorem holdOn (h : Forgotten a L) (o : Outside) :
    Forgotten (a.holdOn t o) (Function.update L t (if o.failure = none then L t else [])) := by
  unfold Accounts.holdOn
  split
  · rw [Function.update_eq_self]
    exact h
  · exact h.hold nofun

end Forgotten

abbrev Keeping [DecidableEq τ] {α : Type} (t : τ) (Q : α → List String → Prop)
    (p : Prog AccountOp α) (l : List String) : Prop :=
  Keeps (accounts τ) Settled Forgotten t Q p l

def Quiet {β : Type} : AccountOp β → Prop
  | .isDown | .cached _ | .cachedKey _ | .setKeys _ _ | .values | .write _ => True
  | .storeToken _ | .deleteToken _ | .storeCerts _ | .storeKeys _ => True
  | _ => False

namespace Keeping
variable [DecidableEq τ] {α : Type} {t : τ} {Q : α → List String → Prop} {l : List String}

theorem quiet {β : Type} {op : AccountOp β} {f : β → Prog AccountOp α} (hop : Quiet op)
    (h : ∀ b, Keeping t Q (f b) l) : Keeping t Q (.call op f) l := by
  intro o a L hI hl _
  refine ⟨l, ?_, h _⟩
  rw [← hl, Function.update_eq_self]
  cases op with
  | isDown | cached | cachedKey | values => exact hI
  | setKeys | storeCerts | storeKeys => exact ⟨hI.held, hI.cache, hI.backend, hI.reading⟩
  | write =>
    dsimp only [accounts, Accounts.answer]
    split
    · exact ⟨hI.held, hI.cache, hI.backend, hI.reading⟩
    · exact hI
  | storeToken r => exact hI.storeToken r
  | deleteToken id => exact hI.deleteToken id
  | _ => exact hop.elim

variable {id : String} {f : Unit → Prog AccountOp α}

theorem dropToken (h : Keeping t Q (f ()) l) : Keeping t Q (.call (.dropToken id) f) l := by
  intro o a L hI hl hC
  refine ⟨l, ?_, h⟩
  rw [← hl, Function.update_eq_self]
  exact hI.dropToken hC

theorem setDown (h : Keeping t Q (f ()) []) : Keeping t Q (.call .setDown f) l := by
  intro o a L hI _ _
  have hset : Forgotten { a with downAt := some o.now } L :=
    ⟨hI.held, hI.cache, hI.backend, hI.reading⟩
  exact ⟨[], hset.hold nofun, h⟩

theorem setToken {rec : Option TokenRecord} (hid : rec = none ∨ id ∈ l)
    (h : Keeping t Q (f ()) []) : Keeping t Q (.call (.setToken id rec) f) l := by
  intro o a L hI hl _
  refine ⟨[], hI.write fun k hk hheld => ?_, h⟩
  cases rec with
  | none =>
    dsimp only
    rw [GoMap.get_del_eq_ite]
    split
    · rfl
    · exact hI.cache k hk
  | some rec =>
    have hne : k ≠ id := by
      rintro rfl
      exact hheld (hl ▸ hid.resolve_left nofun)
    exact (GoMap.get_set_ne a.tokens rec hne).trans (hI.cache k hk)

theorem replace {m : GoMap String TokenRecord} {keys : GoMap String GatewayKey}
    (hm : ∀ id ∉ l, m.get id = none) (h : Keeping t Q (f ()) []) :
    Keeping t Q (.call (.replace m keys) f) l := by
  intro o a L hI hl _
  have hset : Forgotten { a with keys := keys } L := ⟨hI.held, hI.cache, hI.backend, hI.reading⟩
  exact ⟨[], hset.write fun k _ hheld => hm k (hl ▸ hheld), h⟩

theorem onResult {β : Type} {o : Outside} {v : β} {f : Except String β → Prog AccountOp α}
    {l' : List String} (herr : ∀ e, Keeping t Q (f (.error e)) [])
    (hok : Keeping t Q (f (.ok v)) l') :
    Keeping t Q (f (o.result v)) (if o.failure = none then l' else []) := by
  unfold Outside.result
  cases o.failure with
  | some e => exact herr e
  | none => exact hok

theorem readTokens {f : Except String (List TunToken) → Prog AccountOp α}
    (herr : ∀ e, Keeping t Q (f (.error e)) [])
    (hok : ∀ rs, Keeping t Q (f (.ok rs)) (rs.map TunToken.tokenId)) :
    Keeping t Q (.call .readTokens f) l := by
  intro o a L hI _ _
  exact ⟨_, hI.reads o fun r hr => hr, onResult herr (hok _)⟩

theorem readToken {f : Except String (Option TunToken) → Prog AccountOp α}
    (herr : ∀ e, Keeping t Q (f (.error e)) []) (hnone : Keeping t Q (f (.ok none)) [])
    (hok : ∀ r, Keeping t Q (f (.ok (some r))) [id]) : Keeping t Q (.call (.readToken id) f) l := by
  intro o a L hI _ _
  have hfound : ∀ r ∈ (a.find id).toList, r ∈ a.listed := fun r hr =>
    List.mem_of_find?_eq_some (Option.mem_toList.mp hr)
  refine ⟨_, hI.reads o hfound, onResult herr ?_⟩
  cases hfind : a.find id with
  | none => exact hnone
  | some r =>
    have hid : r.tokenId = id := by simpa using List.find?_some hfind
    have hr := hok r
    rw [← hid] at hr
    exact hr

theorem readCerts {f : Except String (List TunAgentCert) → Prog AccountOp α}
    (herr : ∀ e, Keeping t Q (f (.error e)) []) (hok : ∀ cs, Keeping t Q (f (.ok cs)) l) :
    Keeping t Q (.call .readCerts f) l := by
  intro o a L hI hl _
  exact ⟨_, hI.holdOn o, onResult herr (hl ▸ hok _)⟩

theorem readKeys {f : Except String (List TunGatewayKey) → Prog AccountOp α}
    (herr : ∀ e, Keeping t Q (f (.error e)) []) (hok : ∀ ks, Keeping t Q (f (.ok ks)) l) :
    Keeping t Q (.call .readKeys f) l := by
  intro o a L hI hl _
  exact ⟨_, hI.holdOn o, onResult herr (hl ▸ hok _)⟩

end Keeping

variable {certs : List TunAgentCert} {id : String}

theorem addToken_get {m : GoMap String TokenRecord} {r : TunToken} (hid : id ≠ r.tokenId) :
    (addToken certs m r).get id = m.get id := by
  unfold addToken tokenRecord
  cases policyToAuth r.policy with
  | error e => rfl
  | ok policy => exact GoMap.get_set_ne m _ hid

theorem tokensByID_get {rs : List TunToken} (hid : id ∉ rs.map TunToken.tokenId) :
    (tokensByID rs certs).get id = none := by
  suffices h : ∀ m : GoMap String TokenRecord, (rs.foldl (addToken certs) m).get id = m.get id from
    (h ∅).trans (GoMap.get_empty id)
  induction rs with
  | nil => exact fun m => rfl
  | cons r rs ih =>
    rw [List.map_cons, List.mem_cons, not_or] at hid
    intro m
    rw [List.foldl_cons, ih hid.2, addToken_get hid.1]

section
variable [DecidableEq τ] {t : τ}

def EndsEmpty {α : Type} : α → List String → Prop := fun _ l => l = []

theorem refresh_keeping : Keeping t EndsEmpty refresh [] := by
  refine .readTokens (fun e => rfl) fun rs => ?_
  refine .readCerts (fun e => rfl) fun certs => ?_
  refine .readKeys (fun e => rfl) fun keys => ?_
  refine .replace (fun id hid => tokensByID_get hid) ?_
  exact .quiet trivial fun snap => .quiet trivial fun _ => rfl

theorem fetchToken_keeping (id : String) :
    Keeping t (fun res l => ∀ rec, res = .ok (some rec) → l = [id]) (fetchToken id) [] := by
  refine .readToken (fun e => nofun) nofun fun r => ?_
  exact .readCerts (fun e => nofun) fun certs rec _ => rfl

theorem tokenByID_keeping (id : String) : Keeping t EndsEmpty (tokenByID id) [] := by
  refine .quiet trivial fun down => ?_
  cases down with
  | true => exact .quiet trivial fun _ => rfl
  | false =>
    refine (fetchToken_keeping id).bind fun res l hl => ?_
    rcases res with e | _ | rec
    · exact Keeping.setDown (.quiet trivial fun _ => rfl)
    · exact Keeping.setToken (.inl rfl) rfl
    · rw [hl rec rfl]
      exact Keeping.setToken (.inr List.mem_cons_self) rfl

theorem gatewayKeyByFingerprint_keeping (fp : String) :
    Keeping t EndsEmpty (gatewayKeyByFingerprint fp) [] := by
  refine .quiet trivial fun ⟨k, recent⟩ => ?_
  show Keeping t EndsEmpty (if k.isSome ∨ recent then _ else _) []
  split
  · rfl
  · exact .readKeys (fun e => .setDown rfl) fun keys => .quiet trivial fun _ => rfl

theorem AccountCaller.keeping (c : AccountCaller) : Keeping t EndsEmpty c.prog [] := by
  cases c with
  | refresh => exact refresh_keeping.bind fun _ _ hl => hl
  | tokenByID id => exact (tokenByID_keeping id).bind fun _ _ hl => hl
  | gatewayKeyByFingerprint fp => exact (gatewayKeyByFingerprint_keeping fp).bind fun _ _ hl => hl
  | revoke id => exact .quiet trivial fun _ => .dropToken rfl
  | storeToken r => exact .quiet trivial fun _ => rfl
  | storeCerts certs => exact .quiet trivial fun _ => rfl
  | storeKeys keys => exact .quiet trivial fun _ => rfl

/-- If no refresh and no lookup is between its read of a token and its write when
the token is dropped, then a dropped token does not come back into the copy before
the backend stores it again, and a lookup that the copy answers does not find it. -/
theorem dropped_token_stays_out {callers : τ → AccountCaller} {a a' : Accounts τ}
    {P' : τ → Prog AccountOp Unit} {as : List (τ × Outside)}
    (hheld : a.held = fun _ => []) (hdropped : a.dropped = [])
    (hrun : Run (Guarded (Obeys Settled) (PoolStep (accounts τ)))
      (a, fun t => (callers t).prog) as (a', P')) :
    ∀ id ∈ a'.dropped, a'.tokens.get id = none ∧
      ∀ t o, ((accounts τ).answer t o (.cached id) a').2 = none := by
  have hstart : Forgotten a fun _ => [] := by
    refine ⟨hheld, ?_, ?_, ?_⟩
    · rw [hdropped]
      exact fun id hid => absurd hid List.not_mem_nil
    · rw [hdropped]
      exact fun id hid => absurd hid List.not_mem_nil
    · rw [hdropped]
      exact fun t id _ => List.not_mem_nil
  obtain ⟨L, hend, -⟩ := keeps_run hrun hstart fun t => (callers t).keeping
  intro id hid
  have hnone := hend.cache id hid
  exact ⟨hnone, fun t o => hnone⟩

end

def oneToken : Accounts Bool :=
  { tokens := GoMap.set ∅ "8a" { id := "8a" }, backend := { tokens := [{ tokenId := "8a" }] } }

def refreshAndRevoke : Bool → AccountCaller
  | false => .refresh
  | true => .revoke "8a"

def isSettled (β : Type) (_ : Bool) (op : AccountOp β) (a : Accounts Bool) : Bool :=
  match op with
  | .dropToken id => decide (id ∉ a.held false ∧ id ∉ a.held true)
  | _ => true

theorem isSettled_settled (β : Type) (t : Bool) (op : AccountOp β) (a : Accounts Bool)
    (h : isSettled β t op a = true) : Settled β t op a := by
  cases op with
  | dropToken id =>
    obtain ⟨h0, h1⟩ := of_decide_eq_true h
    intro u
    cases u with
    | false => exact h0
    | true => exact h1
  | _ => trivial

def turns (order : List (Bool)) : List (Bool × Outside) := order.map fun t => (t, {})
def refreshFirst : List (Bool × Outside) := turns [false, false, false, false, false, false, true, true]

theorem dropped_token_stays_out_after_refresh :
    (play (accounts Bool) (oneToken, fun t => (refreshAndRevoke t).prog) refreshFirst).1.dropped =
      ["8a"] ∧
    (play (accounts Bool) (oneToken, fun t => (refreshAndRevoke t).prog)
      refreshFirst).1.tokens.get "8a" = none := by
  have hplays : plays (accounts Bool) isSettled
      (oneToken, fun t => (refreshAndRevoke t).prog) refreshFirst = true := rfl
  have hdropped : (play (accounts Bool) (oneToken, fun t => (refreshAndRevoke t).prog)
      refreshFirst).1.dropped = ["8a"] := rfl
  refine ⟨hdropped, (dropped_token_stays_out rfl rfl (plays_run isSettled_settled hplays) "8a" ?_).1⟩
  rw [hdropped]
  exact List.mem_cons_self

def revokeBetween : List (Bool × Outside) := turns [false, true, true, false, false, false]

theorem dropped_token_comes_back : ∃ a' P',
    Run (PoolStep (accounts Bool)) (oneToken, fun t => (refreshAndRevoke t).prog) revokeBetween
      (a', P') ∧
    a'.find "8a" = none ∧ "8a" ∈ a'.dropped ∧ (a'.tokens.get "8a").isSome = true := by
  have hplays : plays (accounts Bool) (fun _ _ _ _ => true)
      (oneToken, fun t => (refreshAndRevoke t).prog) revokeBetween = true := rfl
  have hrun := plays_run (C := fun _ _ _ _ => True) (fun _ _ _ _ _ => trivial) hplays
  refine ⟨_, _, hrun.mono fun _ _ _ h => h.2, rfl, ?_, rfl⟩
  exact List.mem_cons_self

end L8Tunnel.Relay
