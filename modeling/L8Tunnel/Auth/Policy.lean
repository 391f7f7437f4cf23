import L8Tunnel.Base.Except
import L8Tunnel.Base.PathMatch
import L8Tunnel.Protocol.Names

/-! # Agent tokens and what they allow
(auth/policy.go, token.go, registry/rules.go) -/

namespace L8Tunnel.Auth
open Base Protocol

/-- What a token may register. `ports` is a text, as it is configured. -/
structure Policy where
  names : List String := []
  types : List String := []
  maxTunnels : ℤ := 0
  ports : String := ""
  requireCert : Bool := false
  domains : List String := []

namespace Policy

def allowsName (pathMatch : String → String → Bool) (p : Policy) (name : String) : Bool :=
  p.names = [] ∨ p.names.any fun pattern => pathMatch pattern name

def allowsDomain (pathMatch : String → String → Bool) (p : Policy) (domain : String) : Bool :=
  p.domains.any fun pattern => pathMatch pattern domain

def allowsType (p : Policy) (typ : String) : Bool :=
  p.types = [] ∨ p.types.any fun t => t = typ

def portRange (p : Policy) (min max : ℤ) : ℤ × ℤ × Bool :=
  if p.ports = "" then (min, max, true)
  else
    let own := match parsePortRange p.ports with
      | .ok range => range
      | .error _ => (0, 0)
    let lo := if min > own.1 then min else own.1
    let hi := if max < own.2 then max else own.2
    (lo, hi, lo ≤ hi)

variable {p : Policy} {min max lo hi : ℤ}

theorem portRange_bounds {ok : Bool} (h : p.portRange min max = (lo, hi, ok)) :
    min ≤ lo ∧ hi ≤ max := by
  unfold portRange at h
  split at h
  · cases h
    omega
  · simp only [Prod.mk.injEq] at h
    obtain ⟨rfl, rfl, -⟩ := h
    split <;> split <;> omega

theorem portRange_le (hle : min ≤ max) (h : p.portRange min max = (lo, hi, true)) : lo ≤ hi := by
  unfold portRange at h
  split at h
  · cases h
    exact hle
  · simp only [Prod.mk.injEq, decide_eq_true_eq] at h
    obtain ⟨rfl, rfl, hok⟩ := h
    exact hok

def validate (p : Policy) : Except String Unit := do
  p.names.forM fun pattern =>
    match PathMatch.pathMatch pattern "" with
    | .error err => .error ("invalid name pattern " ++ GoString.quote pattern ++ ": " ++ err)
    | .ok _ => .ok ()
  p.types.forM fun typ => (parseTunnelType typ).map fun _ => ()
  p.domains.forM fun pattern =>
    if (PathMatch.terms pattern).isNone ∨ pattern ≠ GoString.toLower pattern then
      .error ("invalid domain pattern " ++ GoString.quote pattern ++
        " (lowercase path.Match pattern)")
    else .ok ()
  if p.maxTunnels < 0 then .error "max tunnels must not be negative"
  else if p.ports ≠ "" then (parsePortRange p.ports).map fun _ => ()
  else .ok ()

/-- What `Validate` has checked of a policy. -/
structure Valid (p : Policy) : Prop where
  names : ∀ pattern ∈ p.names, (PathMatch.terms pattern).isSome
  types : ∀ typ ∈ p.types, ∃ t, parseTunnelType typ = .ok t
  domains : ∀ pattern ∈ p.domains, (PathMatch.terms pattern).isSome ∧
    GoString.toLower pattern = pattern
  maxTunnels : 0 ≤ p.maxTunnels
  ports : p.ports ≠ "" → ∃ range, parsePortRange p.ports = .ok range

theorem map_unit_eq_ok {ε α : Type} {x : Except ε α} :
    (x.map fun _ => ()) = .ok () ↔ ∃ a, x = .ok a := by
  cases x with
  | error e => exact ⟨nofun, nofun⟩
  | ok a => exact ⟨fun _ => ⟨a, rfl⟩, fun _ => rfl⟩

theorem validate_ok (h : p.validate = .ok ()) : p.Valid := by
  unfold validate at h
  obtain ⟨_, hnames, h⟩ := bind_eq_ok.mp h
  obtain ⟨_, htypes, h⟩ := bind_eq_ok.mp h
  obtain ⟨_, hdomains, h⟩ := bind_eq_ok.mp h
  have hrest : 0 ≤ p.maxTunnels ∧ (p.ports ≠ "" → ∃ range, parsePortRange p.ports = .ok range) := by
    split at h
    · cases h
    next hmax =>
    refine ⟨Int.not_lt.mp hmax, fun hports => ?_⟩
    rw [if_pos hports] at h
    exact map_unit_eq_ok.mp h
  refine ⟨fun pattern hp => ?_, fun typ ht => ?_, fun pattern hp => ?_, hrest.1, hrest.2⟩
  · have hcheck := forM_eq_ok.mp hnames pattern hp
    unfold PathMatch.pathMatch at hcheck
    cases hterms : PathMatch.terms pattern with
    | none =>
      rw [hterms] at hcheck
      cases hcheck
    | some ts => rfl
  · exact map_unit_eq_ok.mp (forM_eq_ok.mp htypes typ ht)
  · have hcheck := forM_eq_ok.mp hdomains pattern hp
    split at hcheck
    · cases hcheck
    next hok =>
      rw [not_or] at hok
      exact ⟨by simpa [Option.isSome_iff_ne_none] using hok.1, (not_not.mp hok.2).symm⟩

end Policy

structure TokenRecord where
  id : String
  name : String := ""
  hash : List UInt8 := []
  policy : Policy := {}
  certSerials : List String := []

def isHex (c : Char) : Bool := ('0' ≤ c && c ≤ '9') || ('a' ≤ c && c ≤ 'f')

def isBase64 (c : Char) : Bool :=
  ('A' ≤ c && c ≤ 'Z') || ('a' ≤ c && c ≤ 'z') || ('0' ≤ c && c ≤ '9') || c == '_' || c == '-'

def parseToken (token : String) : Option (String × String) :=
  match GoString.cutPrefix token "l8t_" with
  | none => none
  | some rest =>
    let id := rest.toList.take 8
    let secret := rest.toList.drop 9
    if id.length = 8 ∧ id.all isHex ∧ rest.toList[8]? = some '_' ∧ secret.length = 43 ∧
        secret.all isBase64 then
      some (String.ofList id, String.ofList secret)
    else none

end L8Tunnel.Auth

namespace L8Tunnel.Registry.Rules
open Auth

def checkRequestedPort (r : Rules) (port : ℤ) (policy : Policy) : Option RuleError :=
  if port < r.portMin ∨ port > r.portMax then
    some ⟨.portOutsideRange, "port " ++ toString port ++ " is outside the relay's range " ++
      toString r.portMin ++ "-" ++ toString r.portMax⟩
  else
    match policy.portRange r.portMin r.portMax with
    | (lo, hi, ok) =>
      if ok = false ∨ port < lo ∨ port > hi then
        some ⟨.portNotAllowed, "the token's policy doesn't allow port " ++ toString port ++
          " (allowed: " ++ policy.ports ++ ")"⟩
      else none

def allocationRange (r : Rules) (policy : Policy) : Except RuleError (ℤ × ℤ) :=
  match policy.portRange r.portMin r.portMax with
  | (lo, hi, ok) =>
    if ok = false then
      .error ⟨.portNotAllowed, "the token's port range " ++ policy.ports ++
        " doesn't overlap the relay's " ++ toString r.portMin ++ "-" ++ toString r.portMax⟩
    else .ok (lo, hi)

variable {r : Rules} {policy : Policy} {lo hi : ℤ}

theorem allocationRange_ok (h : r.allocationRange policy = .ok (lo, hi)) :
    r.portMin ≤ lo ∧ hi ≤ r.portMax := by
  unfold allocationRange at h
  split at h
  next lo' hi' ok hrange =>
  split at h
  · cases h
  · cases h
    exact Policy.portRange_bounds hrange

theorem allocationRange_le (hr : r.portMin ≤ r.portMax)
    (h : r.allocationRange policy = .ok (lo, hi)) : lo ≤ hi := by
  unfold allocationRange at h
  split at h
  next lo' hi' ok hrange =>
  split at h
  · cases h
  next hok =>
    cases h
    rw [Bool.not_eq_false] at hok
    subst hok
    exact Policy.portRange_le hr hrange

end L8Tunnel.Registry.Rules
