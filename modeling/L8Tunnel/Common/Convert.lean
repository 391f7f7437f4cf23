import L8Tunnel.Auth.Policy
import L8Tunnel.Claims.Single
import L8Tunnel.Relay.Exchange

/-! # Token policies between the relay and the database (tun/common/convert.go) -/

namespace L8Tunnel.Common
open Base Auth Protocol

structure TunTokenPolicy where
  names : List String := []
  types : List TunTunnelType := []
  maxTunnels : Int32 := 0
  ports : String := ""
  requireCert : Bool := false
  domains : List String := []

def tunnelTypeNames : List (TunTunnelType × String) :=
  [(.tcp, "tcp"), (.ssh, "ssh"), (.http, "http"), (.tls, "tls")]

def tunnelTypeName (t : TunTunnelType) : String := (tunnelTypeNames.lookup t).getD ""

def tunnelTypeOf (name : String) : Except String TunTunnelType :=
  match tunnelTypeNames.find? fun entry => entry.2 = name with
  | some entry => .ok entry.1
  | none => .error ("unknown tunnel type " ++ GoString.quote name)

def enumText : TunTunnelType → String
  | .unspecified => "TUN_TUNNEL_TYPE_UNSPECIFIED"
  | .tcp => "TUN_TUNNEL_TYPE_TCP"
  | .ssh => "TUN_TUNNEL_TYPE_SSH"
  | .http => "TUN_TUNNEL_TYPE_HTTP"
  | .tls => "TUN_TUNNEL_TYPE_TLS"
  | .unknown code => toString code.toInt

def validTypeName (t : TunTunnelType) : Except String String :=
  if tunnelTypeName t = "" then .error ("policy: invalid tunnel type " ++ enumText t)
  else .ok (tunnelTypeName t)

def policyToAuth : Option TunTokenPolicy → Except String Policy
  | none => .ok {}
  | some p => do
    let types ← p.types.mapM validTypeName
    .ok { names := p.names, types := types, maxTunnels := p.maxTunnels.toInt, ports := p.ports
          requireCert := p.requireCert, domains := p.domains }

def policyFromAuth (p : Policy) : Except String TunTokenPolicy := do
  let types ← p.types.mapM tunnelTypeOf
  .ok { names := p.names, types := types, maxTunnels := Int32.ofInt p.maxTunnels, ports := p.ports
        requireCert := p.requireCert, domains := p.domains }

variable {name : String} {p : Policy}

theorem tunnelTypeOf_valid (hvalid : ∃ t, parseTunnelType name = .ok t)
    (hlower : GoString.toLower name = name) :
    ∃ t, tunnelTypeOf name = .ok t ∧ validTypeName t = .ok name := by
  obtain ⟨t, ht⟩ := hvalid
  have hmem := parseTunnelType_ok ht
  rw [hlower] at hmem
  simp only [Protocol.tunnelTypeNames, List.mem_cons, Prod.mk.injEq, List.not_mem_nil, or_false]
    at hmem
  rcases hmem with ⟨rfl, -⟩ | ⟨rfl, -⟩ | ⟨rfl, -⟩ | ⟨rfl, -⟩
  · exact ⟨.tcp, rfl, rfl⟩
  · exact ⟨.ssh, rfl, rfl⟩
  · exact ⟨.http, rfl, rfl⟩
  · exact ⟨.tls, rfl, rfl⟩

theorem types_round_trip {types : List String}
    (h : ∀ name ∈ types, ∃ t, tunnelTypeOf name = .ok t ∧ validTypeName t = .ok name) :
    ∃ ts, types.mapM tunnelTypeOf = .ok ts ∧ ts.mapM validTypeName = .ok types := by
  induction types with
  | nil => exact ⟨[], rfl, rfl⟩
  | cons name types ih =>
    obtain ⟨t, hto, hback⟩ := h name List.mem_cons_self
    obtain ⟨ts, htos, hbacks⟩ := ih fun n hn => h n (List.mem_cons_of_mem _ hn)
    refine ⟨t :: ts, ?_, ?_⟩
    · rw [mapM_eq_ok, List.forall₂_cons]
      exact ⟨hto, mapM_eq_ok.mp htos⟩
    · rw [mapM_eq_ok, List.forall₂_cons]
      exact ⟨hback, mapM_eq_ok.mp hbacks⟩

theorem policy_round_trip (hvalid : p.Valid) (hlower : ∀ typ ∈ p.types, GoString.toLower typ = typ)
    (hmax : p.maxTunnels < 2147483648) :
    ∃ q, policyFromAuth p = .ok q ∧ policyToAuth (some q) = .ok p := by
  obtain ⟨ts, hto, hback⟩ := types_round_trip fun name hname =>
    tunnelTypeOf_valid (hvalid.types name hname) (hlower name hname)
  have hcap : (Int32.ofInt p.maxTunnels).toInt = p.maxTunnels := by
    have := hvalid.maxTunnels
    exact Claims.toInt_ofInt (by omega) hmax
  refine ⟨_, bind_eq_ok.mpr ⟨ts, hto, rfl⟩, bind_eq_ok.mpr ⟨p.types, hback, ?_⟩⟩
  rw [hcap]

def MeantType (p : Policy) (t : TunnelType) : Prop :=
  p.types = [] ∨ ∃ name ∈ p.types, parseTunnelType name = .ok t

theorem tunnelTypeName_of_mem {t : TunnelType} (h : (name, t) ∈ Protocol.tunnelTypeNames) :
    Relay.tunnelTypeName t = name := by
  simp only [Protocol.tunnelTypeNames, List.mem_cons, Prod.mk.injEq, List.not_mem_nil, or_false] at h
  rcases h with ⟨rfl, rfl⟩ | ⟨rfl, rfl⟩ | ⟨rfl, rfl⟩ | ⟨rfl, rfl⟩ <;> rfl

theorem eq_of_tunnelTypeName {t u : TunnelType} (hu : Relay.tunnelTypeName u ≠ "")
    (h : Relay.tunnelTypeName t = Relay.tunnelTypeName u) : t = u := by
  cases t <;> cases u <;> simp_all [Relay.tunnelTypeName]

theorem allowsType_iff (hvalid : p.Valid) (hlower : ∀ typ ∈ p.types, GoString.toLower typ = typ)
    (t : TunnelType) : p.allowsType (Relay.tunnelTypeName t) = true ↔ MeantType p t := by
  have hnamed : ∀ name ∈ p.types, ∀ u, parseTunnelType name = .ok u →
      Relay.tunnelTypeName u = name := by
    intro name hname u hu
    have hmem := parseTunnelType_ok hu
    rw [hlower name hname] at hmem
    exact tunnelTypeName_of_mem hmem
  simp only [Policy.allowsType, MeantType, decide_eq_true_eq, List.any_eq_true]
  refine or_congr_right ⟨?_, ?_⟩
  · rintro ⟨name, hname, rfl⟩
    obtain ⟨u, hu⟩ := hvalid.types _ hname
    have hsame := hnamed _ hname u hu
    have hne : Relay.tunnelTypeName t ≠ "" := by
      intro hempty
      rw [hempty] at hu
      cases hu
    obtain rfl := eq_of_tunnelTypeName hne hsame
    exact ⟨_, hname, hu⟩
  · rintro ⟨name, hname, hu⟩
    exact ⟨name, hname, (hnamed name hname t hu).symm⟩

/-- `p'` admits what `p` is meant to admit. -/
structure AdmitsSame (p p' : Policy) : Prop where
  names : ∀ name, p'.allowsName PathMatch.isMatch name = p.allowsName PathMatch.isMatch name
  types : ∀ t, (p.allowsType (Relay.tunnelTypeName t) = true ↔ MeantType p t) ∧
    (p'.allowsType (Relay.tunnelTypeName t) = true ↔ MeantType p t)
  domains : ∀ d, p'.allowsDomain PathMatch.isMatch d = p.allowsDomain PathMatch.isMatch d
  ports : ∀ min max, p'.portRange min max = p.portRange min max
  requireCert : p'.requireCert = p.requireCert
  maxTunnels : p'.maxTunnels = p.maxTunnels

theorem tunnelTypeOf_lower {t : TunTunnelType} (h : tunnelTypeOf name = .ok t) :
    GoString.toLower name = name := by
  unfold tunnelTypeOf at h
  split at h
  next entry hfind =>
    have hname : entry.2 = name := by simpa using List.find?_some hfind
    have hmem := List.mem_of_find?_eq_some hfind
    simp only [tunnelTypeNames, List.mem_cons, List.not_mem_nil, or_false] at hmem
    rcases hmem with rfl | rfl | rfl | rfl <;> (subst hname; rfl)
  · cases h

/-- A valid policy is imported, and what the relays then use admits what the policy
means, exactly if its types are in lower case and its cap has 31 bits. -/
theorem migration_preserves_policy_iff {p : Policy} (hvalid : p.validate = .ok ()) :
    (∃ q p', policyFromAuth p = .ok q ∧ policyToAuth (some q) = .ok p' ∧ AdmitsSame p p') ↔
      (∀ typ ∈ p.types, GoString.toLower typ = typ) ∧ p.maxTunnels < 2147483648 := by
  constructor
  · rintro ⟨q, p', hfrom, hto, hsame⟩
    obtain ⟨ts, hts, hq⟩ := bind_eq_ok.mp hfrom
    cases hq
    obtain ⟨types, -, hp'⟩ := bind_eq_ok.mp hto
    cases hp'
    refine ⟨fun typ htyp => ?_, ?_⟩
    · obtain ⟨i, hi, rfl⟩ := List.getElem_of_mem htyp
      have hall := mapM_eq_ok.mp hts
      exact tunnelTypeOf_lower (hall.get hi (hall.length_eq ▸ hi))
    · rw [← hsame.maxTunnels]
      exact Int32.toInt_lt _
  · rintro ⟨hlower, hmax⟩
    have hv := Policy.validate_ok hvalid
    obtain ⟨q, hfrom, hto⟩ := policy_round_trip hv hlower hmax
    have htypes := allowsType_iff hv hlower
    exact ⟨q, p, hfrom, hto,
      { names := fun _ => rfl
        types := fun t => ⟨htypes t, htypes t⟩
        domains := fun _ => rfl
        ports := fun _ _ => rfl
        requireCert := rfl
        maxTunnels := rfl }⟩

def devPolicy : Policy :=
  { names := ["dev-*"], types := ["tcp", "http"], maxTunnels := 5, ports := "30000-30999"
    domains := ["*.example.com"] }

theorem migration_preserves_policy_dev : devPolicy.validate = .ok () ∧
    ∃ q p', policyFromAuth devPolicy = .ok q ∧ policyToAuth (some q) = .ok p' ∧
      AdmitsSame devPolicy p' :=
  ⟨by rfl, (migration_preserves_policy_iff (by rfl)).mpr ⟨by decide, by decide⟩⟩

/-- A type in upper case is valid, but neither allowed nor imported, and a cap of
2^32 becomes none. -/
theorem migration_loses_policy :
    (({ types := ["TCP"] } : Policy).validate = .ok () ∧
      MeantType { types := ["TCP"] } .tcp ∧
      ({ types := ["TCP"] } : Policy).allowsType (Relay.tunnelTypeName .tcp) = false ∧
      policyFromAuth { types := ["TCP"] } = .error "unknown tunnel type \"TCP\"") ∧
    ({ maxTunnels := 4294967296 } : Policy).validate = .ok () ∧
      ∃ q p', policyFromAuth { maxTunnels := 4294967296 } = .ok q ∧
        policyToAuth (some q) = .ok p' ∧ p'.maxTunnels = 0 :=
  ⟨⟨rfl, .inr ⟨"TCP", by decide, rfl⟩, rfl, rfl⟩, rfl, _, _, rfl, rfl, rfl⟩

end L8Tunnel.Common
