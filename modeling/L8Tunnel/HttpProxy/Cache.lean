import L8Tunnel.Base.Run
import L8Tunnel.HttpProxy.Proxy

/-! # The proxies of tunnels (httpproxy/proxy.go, relay/tunnel.go) -/

namespace L8Tunnel.HttpProxy
open Base Auth

/-- Where a request in `ServeHTTP` is; no lock is held from one phase to the next. -/
inductive Phase (τ : Type) where
  | found (tun : τ) (r : Request)
  | allowed (tun : τ)
  | serving (tun : τ)

def Phase.tun {τ : Type} : Phase τ → τ
  | .found tun _ => tun
  | .allowed tun => tun
  | .serving tun => tun

/-- The cache of proxies by tunnel ID, the requests under way and the closed tunnels. -/
structure Serving (τ : Type) where
  proxies : GoMap String τ := ∅
  requests : ℕ → Option (Phase τ) := fun _ => none
  closed : List String := []

/-- A step of one request, or a tunnel that closes and calls `Forget`. -/
inductive Event (τ : Type) where
  | lookup (i : ℕ) (tuns : Tunnels τ) (r : Request)
  | authorize (i : ℕ) (tuns : Tunnels τ) (now : ℤ)
  | proxyFor (i : ℕ)
  | finish (i : ℕ)
  | close (id : String)

namespace Serving
variable {τ : Type} (h : Http) (c : Crypto) (login : Option Login) (id : τ → String)

def setRequest (s : Serving τ) (i : ℕ) (p : Option (Phase τ)) : Serving τ :=
  { s with requests := Function.update s.requests i p }

def lookup (s : Serving τ) (i : ℕ) (tuns : Tunnels τ) (r : Request) : Serving τ :=
  match s.requests i with
  | some _ => s
  | none =>
    match find h login tuns r with
    | .error _ => s
    | .ok tun => s.setRequest i (some (.found tun r))

def authorize (s : Serving τ) (i : ℕ) (tuns : Tunnels τ) (now : ℤ) : Serving τ :=
  match s.requests i with
  | some (.found tun r) =>
    match serveActive h c login now tuns r tun with
    | .proxied _ _ _ => s.setRequest i (some (.allowed tun))
    | _ => s.setRequest i none
  | _ => s

def proxyOf (s : Serving τ) (tun : τ) : Serving τ :=
  match s.proxies.get (id tun) with
  | some _ => s
  | none => { s with proxies := s.proxies.set (id tun) tun }

def proxyFor (s : Serving τ) (i : ℕ) : Serving τ :=
  match s.requests i with
  | some (.allowed tun) => (s.proxyOf id tun).setRequest i (some (.serving tun))
  | _ => s

def finish (s : Serving τ) (i : ℕ) : Serving τ :=
  match s.requests i with
  | some (.serving _) => s.setRequest i none
  | _ => s

def close (s : Serving τ) (tunnelID : String) : Serving τ :=
  if tunnelID ∈ s.closed then s
  else { s with proxies := s.proxies.del tunnelID, closed := tunnelID :: s.closed }

def after (s : Serving τ) : Event τ → Serving τ
  | .lookup i tuns r => s.lookup h login i tuns r
  | .authorize i tuns now => s.authorize h c login i tuns now
  | .proxyFor i => s.proxyFor id i
  | .finish i => s.finish i
  | .close tunnelID => s.close tunnelID

def Step (s : Serving τ) (ev : Event τ) (t : Serving τ) : Prop := t = s.after h c login id ev

def Pending (s : Serving τ) (tunnelID : String) : Prop :=
  ∃ i tun, id tun = tunnelID ∧
    ((∃ r, s.requests i = some (.found tun r)) ∨ s.requests i = some (.allowed tun))

def Current (s : Serving τ) (tuns : Tunnels τ) : Prop :=
  ∀ host tun, (tuns.lookup host).1 = some tun → id tun ∉ s.closed

/-- No tunnel closes while a request has yet to take its proxy, and none is found
that has closed. -/
def Orderly (s : Serving τ) : Event τ → Prop
  | .lookup _ tuns _ => s.Current id tuns
  | .close tunnelID => ¬ s.Pending id tunnelID
  | _ => True

def Tidy (s : Serving τ) : Prop :=
  ∀ tunnelID ∈ s.closed,
    (∀ i p, s.requests i = some p → id p.tun ≠ tunnelID) → s.proxies.get tunnelID = none

/-- No closed tunnel has a proxy, and none is about to get one. -/
structure Clean (s : Serving τ) : Prop where
  proxies : ∀ tunnelID ∈ s.closed, s.proxies.get tunnelID = none
  pending : ∀ tunnelID ∈ s.closed, ¬ s.Pending id tunnelID

section
variable {h c login id} {s t : Serving τ}

theorem Clean.tidy (hs : s.Clean id) : s.Tidy id := fun tunnelID hclosed _ =>
  hs.proxies tunnelID hclosed

theorem clean_new : ({} : Serving τ).Clean id :=
  ⟨fun _ hmem => (List.not_mem_nil hmem).elim, fun _ hmem => (List.not_mem_nil hmem).elim⟩

variable {i : ℕ} {p : Option (Phase τ)} {tunnelID : String} {tuns : Tunnels τ} {r : Request}

theorem pending_setRequest (hpend : (s.setRequest i p).Pending id tunnelID) :
    s.Pending id tunnelID ∨ ∃ tun, id tun = tunnelID ∧
      ((∃ r, p = some (.found tun r)) ∨ p = some (.allowed tun)) := by
  obtain ⟨j, tun, hid, hphase⟩ := hpend
  by_cases hj : j = i
  · subst hj
    simp only [setRequest, Function.update_self] at hphase
    exact .inr ⟨tun, hid, hphase⟩
  · simp only [setRequest, Function.update_of_ne hj] at hphase
    exact .inl ⟨j, tun, hid, hphase⟩

theorem Clean.lookup (hs : s.Clean id) (hcurrent : s.Current id tuns) :
    (s.lookup h login i tuns r).Clean id := by
  unfold Serving.lookup
  split
  · exact hs
  split
  · exact hs
  next tun hfind =>
  refine ⟨hs.proxies, fun tunnelID hclosed hpend => ?_⟩
  rcases pending_setRequest hpend with hold | ⟨tun', hid, ⟨r', hnew⟩ | hnew⟩
  · exact hs.pending tunnelID hclosed hold
  · cases hnew
    refine hcurrent _ tun (find_iff.mp hfind).found ?_
    rw [hid]
    exact hclosed
  · cases hnew

theorem Clean.authorize (hs : s.Clean id) {now : ℤ} :
    (s.authorize h c login i tuns now).Clean id := by
  unfold Serving.authorize
  split
  next tun r hreq =>
    -- the tunnel in hand was pending before
    have hstill : ∀ p, (p = none ∨ p = some (Phase.allowed tun)) →
        (s.setRequest i p).Clean id := by
      intro p hp
      refine ⟨hs.proxies, fun tunnelID hclosed hpend => ?_⟩
      rcases pending_setRequest hpend with hold | ⟨tun', hid, hnew⟩
      · exact hs.pending tunnelID hclosed hold
      · rcases hp with rfl | rfl
        · rcases hnew with ⟨_, hnew⟩ | hnew
          · cases hnew
          · cases hnew
        · rcases hnew with ⟨_, hnew⟩ | hnew
          · cases hnew
          · cases hnew
            exact hs.pending tunnelID hclosed ⟨i, tun, hid, .inl ⟨r, hreq⟩⟩
    split
    · exact hstill _ (.inr rfl)
    · exact hstill _ (.inl rfl)
  · exact hs

theorem Clean.served (hs : s.Clean id) (i : ℕ) (hp : p = none ∨ ∃ tun, p = some (.serving tun)) :
    (s.setRequest i p).Clean id := by
  refine ⟨hs.proxies, fun tunnelID hclosed hpend => ?_⟩
  rcases pending_setRequest hpend with hold | ⟨tun, -, hnew⟩
  · exact hs.pending tunnelID hclosed hold
  · rcases hp with rfl | ⟨tun', rfl⟩
    · rcases hnew with ⟨_, hnew⟩ | hnew
      · cases hnew
      · cases hnew
    · rcases hnew with ⟨_, hnew⟩ | hnew
      · cases hnew
      · cases hnew

theorem Clean.proxyFor (hs : s.Clean id) : (s.proxyFor id i).Clean id := by
  unfold Serving.proxyFor
  split
  next tun hreq =>
    -- a request that is about to make a proxy holds a tunnel that is open
    have hopen : id tun ∉ s.closed := fun hclosed =>
      hs.pending _ hclosed ⟨i, tun, rfl, .inr hreq⟩
    refine Clean.served ?_ i (.inr ⟨tun, rfl⟩)
    unfold proxyOf
    split
    · exact hs
    · refine ⟨fun tunnelID hclosed => ?_, hs.pending⟩
      dsimp only
      have hne : tunnelID ≠ id tun := by
        rintro rfl
        exact hopen hclosed
      rw [GoMap.get_set_ne _ _ hne]
      exact hs.proxies tunnelID hclosed
  · exact hs

theorem Clean.finish (hs : s.Clean id) : (s.finish i).Clean id := by
  unfold Serving.finish
  split
  · exact hs.served i (.inl rfl)
  · exact hs

theorem Clean.close (hs : s.Clean id) (hidle : ¬ s.Pending id tunnelID) :
    (s.close tunnelID).Clean id := by
  unfold Serving.close
  split
  · exact hs
  refine ⟨fun k hk => ?_, fun k hk => ?_⟩
  · dsimp only
    rw [GoMap.get_del_eq_ite]
    split
    · rfl
    next hne => exact hs.proxies k ((List.mem_cons.mp hk).resolve_left hne)
  · rcases List.mem_cons.mp hk with rfl | hold
    · exact hidle
    · exact hs.pending k hold

theorem Clean.after (hs : s.Clean id) {ev : Event τ} (hev : s.Orderly id ev) :
    (s.after h c login id ev).Clean id := by
  cases ev with
  | lookup i tuns r => exact hs.lookup hev
  | authorize i tuns now => exact hs.authorize
  | proxyFor i => exact hs.proxyFor
  | finish i => exact hs.finish
  | close tunnelID => exact hs.close hev

/-- After an orderly run no closed tunnel has a proxy left. -/
theorem closed_leaves_no_proxy {evs : List (Event τ)}
    (hrun : Run (Guarded (fun s ev => s.Orderly id ev) (Step h c login id)) {} evs s) :
    s.Tidy id := by
  refine Clean.tidy (hrun.invariant (I := fun s => s.Clean id) (fun s ev t hs hstep => ?_) clean_new)
  obtain ⟨hev, rfl⟩ := hstep
  exact hs.after hev

end

def oneTunnel : Tunnels String where
  lookup _ := (some "8f2c", .active, "app")
  access _ := {}

def noTunnel : Tunnels String where
  lookup _ := (none, .unknown, "")
  access _ := {}

def aRequest : Request := { host := "app.example.com", remoteAddr := { addr := .v4 1, port := 4711 } }

def play (evs : List (Event String)) : Serving String :=
  evs.foldl (fun s ev => s.after .plain .plain none (fun tun => tun) ev) {}

def lookedUp : List (Event String) :=
  [.lookup 0 oneTunnel aRequest, .authorize 0 oneTunnel 0, .proxyFor 0]

/-- The tunnel closes when its request is with the proxy, and the request finishes. -/
theorem closed_leaves_no_proxy_served :
    (play lookedUp).proxies.get "8f2c" = some "8f2c" ∧
      (play (lookedUp ++ [.close "8f2c", .finish 0])).closed = ["8f2c"] ∧
      (∀ i, (play (lookedUp ++ [.close "8f2c", .finish 0])).requests i = none) ∧
      (play (lookedUp ++ [.close "8f2c", .finish 0])).proxies.get "8f2c" = none := by
  have hlookup : ({} : Serving String).Orderly (fun tun => tun) (.lookup 0 oneTunnel aRequest) :=
    fun _ _ _ hclosed => List.not_mem_nil hclosed
  have hclose : (play lookedUp).Orderly (fun tun => tun) (.close "8f2c") := by
    have hserving : (play lookedUp).requests 0 = some (.serving "8f2c") := rfl
    rintro ⟨i, tun, -, hphase⟩
    cases i with
    | zero =>
      rw [hserving] at hphase
      rcases hphase with ⟨r, hfound⟩ | hallowed
      · cases hfound
      · cases hallowed
    | succ n =>
      rcases hphase with ⟨r, hfound⟩ | hallowed
      · cases hfound
      · cases hallowed
  have hrun : Run (Guarded (fun s ev => s.Orderly (fun tun => tun) ev)
      (Step .plain .plain none fun tun => tun)) {} (lookedUp ++ [.close "8f2c", .finish 0])
      (play (lookedUp ++ [.close "8f2c", .finish 0])) :=
    .cons ⟨hlookup, rfl⟩ <| .cons ⟨trivial, rfl⟩ <| .cons ⟨trivial, rfl⟩ <|
      .cons ⟨hclose, rfl⟩ <| .cons ⟨trivial, rfl⟩ <| .nil _
  have hidle : ∀ i, (play (lookedUp ++ [.close "8f2c", .finish 0])).requests i = none := by
    intro i
    cases i <;> rfl
  refine ⟨rfl, rfl, hidle, closed_leaves_no_proxy hrun "8f2c" List.mem_cons_self fun i p hp => ?_⟩
  rw [hidle i] at hp
  cases hp

/-- The tunnel closes when its request has been looked up, and `Lookup` does not find
it after that. The request finishes, but the entry stays. -/
theorem closed_leaves_proxy :
    let s := play [.lookup 0 oneTunnel aRequest, .close "8f2c", .lookup 1 noTunnel aRequest,
      .authorize 0 oneTunnel 0, .proxyFor 0, .finish 0]
    s.closed = ["8f2c"] ∧ s.requests 0 = none ∧ s.requests 1 = none ∧
      s.proxies.get "8f2c" = some "8f2c" := by
  exact ⟨rfl, rfl, rfl, rfl⟩

end Serving
end L8Tunnel.HttpProxy
