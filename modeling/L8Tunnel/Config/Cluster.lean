import L8Tunnel.Auth.Access
import L8Tunnel.Protocol.Names

/-! # The cluster's configuration (config/cluster.go) -/

namespace L8Tunnel.Config
open Base Registry Protocol Auth

structure PublicPorts where
  https : ℤ := 0
  http : ℤ := 0
  gateway : ℤ := 0
  deriving DecidableEq

structure RelayPorts where
  tls : ℤ := 0
  http : ℤ := 0
  stream : ℤ := 0
  gateway : ℤ := 0
  ops : ℤ := 0
  deriving DecidableEq

structure ClusterFile where
  baseDomain : String
  controlSNI : String := ""
  authHost : String := ""
  reservedNames : List String := []
  tcpPortRange : String := ""
  pub : PublicPorts := {}
  relay : RelayPorts := {}
  trustedProxies : List String := []
  secretDir : String := ""
  edgeOps : ℤ := 0

def setDefault (p v : ℤ) : ℤ := if p = 0 then v else p

namespace ClusterFile

def withDefaults (f : ClusterFile) : ClusterFile :=
  let base := GoString.toLower (GoString.trimSuffix f.baseDomain ".")
  { f with
    baseDomain := base
    controlSNI := GoString.toLower (if f.controlSNI = "" then "connect." ++ base else f.controlSNI)
    authHost := GoString.toLower f.authHost
    tcpPortRange := if f.tcpPortRange = "" then "22000-22999" else f.tcpPortRange
    secretDir := if f.secretDir = "" then "/etc/l8tunnel/cluster-secret" else f.secretDir
    pub := { f.pub with https := setDefault f.pub.https 443, http := setDefault f.pub.http 80 }
    relay :=
      { tls := setDefault f.relay.tls 8443, http := setDefault f.relay.http 8080
        stream := setDefault f.relay.stream 8444, gateway := setDefault f.relay.gateway 2222
        ops := setDefault f.relay.ops 9100 }
    edgeOps := setDefault f.edgeOps 9180 }

def invalidPort (p : ℤ) : Bool := p < 1 ∨ p > 65535

def checkedPorts (f : ClusterFile) : List (String × ℤ) :=
  [("public.https", f.pub.https), ("relay.tls", f.relay.tls), ("relay.http", f.relay.http),
    ("relay.stream", f.relay.stream), ("relay.gateway", f.relay.gateway), ("relay.ops", f.relay.ops)]

def normalize (n : Netip) (order : RangeOrder) (f : ClusterFile) : Except String ClusterFile :=
  let f := f.withDefaults
  match normalizeDomain f.baseDomain with
  | .error err => .error ("base_domain: " ++ err)
  | .ok _ =>
    match f.reservedNames.find? fun name => validName name = false with
    | some name => .error ("reserved_names: " ++ GoString.quote name ++
        " must be a lowercase DNS label")
    | none =>
      match parsePortRange f.tcpPortRange with
      | .error err => .error ("tcp_port_range: " ++ err)
      | .ok _ =>
        match parsePrefixes n f.trustedProxies with
        | .error err => .error ("trusted_proxies: " ++ err)
        | .ok _ =>
          match (order.visit f.checkedPorts).find? fun np => invalidPort np.2 with
          | some (name, p) => .error (name ++ ": invalid port " ++ toString p)
          | none =>
            if f.pub.http ≠ -1 ∧ invalidPort f.pub.http then
              .error ("public.http: invalid port " ++ toString f.pub.http ++ " (-1 disables it)")
            else if f.pub.gateway < 0 ∨ f.pub.gateway > 65535 then
              .error ("public.gateway: invalid port " ++ toString f.pub.gateway)
            else .ok f

def portRange (f : ClusterFile) : ℤ × ℤ :=
  match parsePortRange f.tcpPortRange with
  | .ok bounds => bounds
  | .error _ => (0, 0)

def rules (f : ClusterFile) : Rules :=
  { baseDomain := f.baseDomain, controlSNI := f.controlSNI, authHost := f.authHost
    reservedNames := f.reservedNames, portMin := f.portRange.1, portMax := f.portRange.2 }

theorem rules_ports (f : ClusterFile) (p : ℤ) :
    f.rules.portMin ≤ p ∧ p ≤ f.rules.portMax ↔ f.portRange.1 ≤ p ∧ p ≤ f.portRange.2 := by
  rw [rules]

/-- What the cluster file's checks say of its ports. -/
structure ValidPorts (f : ClusterFile) : Prop where
  range : 1 ≤ f.portRange.1 ∧ f.portRange.1 ≤ f.portRange.2 ∧ f.portRange.2 ≤ 65535
  https : 1 ≤ f.pub.https ∧ f.pub.https ≤ 65535
  http : f.pub.http = -1 ∨ 1 ≤ f.pub.http ∧ f.pub.http ≤ 65535
  gateway : 0 ≤ f.pub.gateway ∧ f.pub.gateway ≤ 65535
  relay : ∀ p ∈ [f.relay.tls, f.relay.http, f.relay.stream, f.relay.gateway],
    1 ≤ p ∧ p ≤ 65535

theorem normalize_valid {n : Netip} {order : RangeOrder} {f g : ClusterFile}
    (h : f.normalize n order = .ok g) : g.ValidPorts := by
  unfold normalize at h
  dsimp only at h
  split at h
  · cases h
  split at h
  · cases h
  split at h
  · cases h
  next bounds hrange =>
  split at h
  · cases h
  split at h
  · cases h
  next hports =>
  split at h
  · cases h
  next hhttp =>
  split at h
  · cases h
  next hgateway =>
  obtain rfl := Except.ok.inj h
  have hall : ∀ np ∈ f.withDefaults.checkedPorts, 1 ≤ np.2 ∧ np.2 ≤ 65535 := by
    intro np hnp
    have hvalid := List.find?_eq_none.mp hports np ((order.perm _).mem_iff.mpr hnp)
    simp only [invalidPort, decide_eq_true_eq] at hvalid
    omega
  constructor
  · obtain ⟨lo, hi⟩ := bounds
    have hbounds : f.withDefaults.portRange = (lo, hi) := by
      unfold portRange
      rw [hrange]
    rw [hbounds]
    exact parsePortRange_ok hrange
  · exact hall ("public.https", _) (List.mem_cons_self ..)
  · by_cases hoff : f.withDefaults.pub.http = -1
    · exact .inl hoff
    · simp only [invalidPort, decide_eq_true_eq, not_and] at hhttp
      have := hhttp hoff
      omega
  · omega
  · simp only [checkedPorts, List.forall_mem_cons] at hall
    obtain ⟨-, htls, hplain, hstream, hssh, -, -⟩ := hall
    simp only [List.forall_mem_cons]
    exact ⟨htls, hplain, hstream, hssh, by simp⟩

end ClusterFile
end L8Tunnel.Config
