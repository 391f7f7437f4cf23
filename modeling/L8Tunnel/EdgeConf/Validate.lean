import L8Tunnel.Edge.Listener
import L8Tunnel.Edge.Pool
import L8Tunnel.Protocol.Names

/-! # The rules for edge domains (edgeconf/validate.go, targets.go) -/

namespace L8Tunnel.EdgeConf
open Base Auth Protocol GoString
open Edge (portsOf lastPort mem_portsOf)

/-- What is used of `net` and `netip`. -/
structure Library where
  netip : Netip
  parseIP : String → Bool

def maxWeight : Int32 := 100

def EdgeTarget.checkTarget (lib : Library) (t : EdgeTarget) : Option String :=
  if t.host = "" ∨ t.host.toList.any (fun c => c = ' ' ∨ c = '/' ∨ c = ':') ∧
      lib.parseIP t.host = false then
    some ("target " ++ GoString.quote t.host ++ ": invalid host")
  else if t.port < 1 ∨ 65535 < t.port then
    some ("target " ++ t.host ++ ": the port must be 1-65535")
  else if t.weight < 0 ∨ maxWeight < t.weight then
    some ("target " ++ Edge.EdgeTarget.address t ++ ": the weight must be 1-" ++
      toString maxWeight.toInt)
  else none

def normalizeName (s : String) : Except String String :=
  match GoString.cutPrefix (GoString.trimSpace s) "*." with
  | some rest => (normalizeDomain rest).map ("*." ++ ·)
  | none => normalizeDomain (GoString.trimSpace s)

def names (d : EdgeDomain) : List String := d.domain :: d.aliases

/-- The message shows the domain as it was typed, without trimming. -/
def normalizeNames (d : EdgeDomain) : Except String EdgeDomain :=
  if (GoString.cutPrefix (GoString.trimSpace d.domain) "*.").isSome then
    .error ("the domain itself can't be a wildcard; add *." ++
      (GoString.cutPrefix d.domain "*.").getD d.domain ++ " as an alias")
  else do
    let domain ← normalizeName d.domain
    let aliases ← d.aliases.mapM normalizeName
    return { d with domain := domain, aliases := aliases }

def checkKind (baseDomain : String) (d : EdgeDomain) : Option String :=
  match d.kind with
  | .site => none
  | .tunnelBase =>
    if d.domain ≠ baseDomain then some ("the tunnel base domain must be " ++ baseDomain) else none
  | _ => some ("domain " ++ d.domain ++ ": kind is required")

def checkIPLists (lib : Library) (d : EdgeDomain) : Option String :=
  (d.allowIps ++ d.denyIps).findSome? fun v =>
    match parsePrefix lib.netip v with
    | .error err => some ("IP list entry " ++ GoString.quote v ++ ": " ++ err)
    | .ok _ => none

def listedTwice (seen : List String) : List String → Option String
  | [] => none
  | n :: ns => if n ∈ seen then some (n ++ " is listed twice") else listedTwice (n :: seen) ns

/-- Another row may keep the same identifier: it is the row being replaced. -/
def checkOther (d o : EdgeDomain) : Option String :=
  if o.domainId = d.domainId then none
  else if d.kind = .tunnelBase ∧ o.kind = d.kind then
    some ("there is already a tunnel base domain (" ++ o.domain ++ ")")
  else (names o).findSome? fun n =>
    if GoString.toLower n ∈ names d then
      some (n ++ " already belongs to domain " ++ o.domain)
    else none

def portLabel (pf : EdgePortForward) : String :=
  if 0 < pf.listenPortEnd then
    "ports " ++ toString pf.listenPort.toInt ++ "-" ++ toString pf.listenPortEnd.toInt
  else "port " ++ toString pf.listenPort.toInt

/-- `seen` holds the addresses so far and `enabled` counts the targets not disabled. -/
def checkTargets (lib : Library) (seen : List String) (enabled : ℕ) :
    List EdgeTarget → Option String
  | [] => if enabled = 0 then some "at least one enabled target is required" else none
  | t :: ts =>
    (EdgeTarget.checkTarget lib t).or
      (if Edge.EdgeTarget.address t ∈ seen then
        some ("target " ++ Edge.EdgeTarget.address t ++ " is listed twice")
      else
        checkTargets lib (Edge.EdgeTarget.address t :: seen)
          (if t.disabled then enabled else enabled + 1) ts)

def checkTargetPort (pf : EdgePortForward) : Option String :=
  if pf.targetPort < 1 ∨ 65535 < pf.targetPort then some "the target port must be 1-65535"
  else none

def checkTarget (lib : Library) (pf : EdgePortForward) (base : Bool) : Option String :=
  match pf.targetKind with
  | .targets => checkTargets lib [] 0 pf.targets
  | .dns =>
    match normalizeDomain pf.targetDns with
    | .error err =>
      if GoString.contains pf.targetDns ".svc" = false then some ("the DNS target: " ++ err)
      else checkTargetPort pf
    | .ok _ => checkTargetPort pf
  | .nodeLocal => checkTargetPort pf
  | .relays => if base = false then some "only the tunnel base domain targets the relays" else none
  | _ => some "the target kind is required"

def checkMode (d : EdgeDomain) (pf : EdgePortForward) : Option String :=
  match pf.mode with
  | .terminate =>
    if pf.protocol ≠ .tls then some "terminate works only on TLS ports"
    else if d.certStatus ≠ .valid ∧ d.certStatus ≠ .expiring then
      some ("terminate needs a valid certificate for " ++ d.domain ++ "; upload one first")
    else none
  | .passthrough => none
  | .relay =>
    if d.kind ≠ .tunnelBase then some "only the tunnel base domain forwards to the relays" else none
  | _ => some "the mode is required"

def checkHealth (pf : EdgePortForward) : Option String :=
  if (pf.healthType = .http ∨ pf.healthType = .https) ∧
      (GoString.cutPrefix pf.healthPath "/").isNone then
    some "an HTTP health check needs a path starting with /"
  else if pf.healthInterval < 0 ∨ 3600 < pf.healthInterval then
    some "the health interval must be 0-3600 seconds"
  else none

/-- The checks of one forward, in the source's order: the first that fails is reported. -/
def checkForward (lib : Library) (d : EdgeDomain) (pf : EdgePortForward) : Option String :=
  if pf.listenPort < 1 ∨ 65535 < pf.listenPort then some "the listen port must be 1-65535"
  else if pf.listenPortEnd ≠ 0 ∧ (pf.listenPortEnd ≤ pf.listenPort ∨ 65535 < pf.listenPortEnd) then
    some "the range end must be above the listen port and at most 65535"
  else if pf.protocol ≠ .tls ∧ pf.protocol ≠ .http ∧ pf.protocol ≠ .tcp then
    some "the protocol is required"
  else (checkMode d pf).or <|
    if pf.listenPortEnd ≠ 0 ∧ pf.protocol ≠ .tcp then some "a port range must be TCP"
    else (checkTarget lib pf (d.kind = .tunnelBase)).or (checkHealth pf)

def endPort (f : EdgePortForward) : Int32 :=
  if f.listenPortEnd = 0 then f.listenPort else f.listenPortEnd

def overlap (a b : EdgePortForward) : Bool :=
  a.listenPort ≤ endPort b ∧ b.listenPort ≤ endPort a

def protocolName : EdgeProtocol → String
  | .unspecified => "UNSPECIFIED"
  | .tls => "TLS"
  | .http => "HTTP"
  | .tcp => "TCP"
  | .unknown code => toString code.toInt

/-- Every pair of forwards of one domain, each pair once. -/
def overlapsIn (d : EdgeDomain) : List EdgePortForward → Option String
  | [] => none
  | a :: rest =>
    (rest.findSome? fun b =>
      if overlap a b then
        some (portLabel a ++ " and " ++ portLabel b ++ " overlap in " ++ d.domain)
      else none).or (overlapsIn d rest)

/-- TLS and HTTP ports are shared between domains by name; TCP has no name to share by. -/
def portConflict (o : EdgeDomain) (a b : EdgePortForward) : Option String :=
  if overlap a b = false then none
  else if a.protocol ≠ b.protocol then
    some (portLabel b ++ " is " ++ protocolName b.protocol ++ " on domain " ++ o.domain)
  else if a.protocol = .tcp then
    some (portLabel b ++ " is TCP on domain " ++ o.domain ++ "; a TCP port can't be shared")
  else none

def checkPortConflicts (d : EdgeDomain) (others : List EdgeDomain) : Option String :=
  (overlapsIn d d.portForwards).or <| others.findSome? fun o =>
    if o.domainId = d.domainId then none
    else d.portForwards.findSome? fun a => o.portForwards.findSome? fun b => portConflict o a b

def checkForwards (lib : Library) (d : EdgeDomain) : Option String :=
  d.portForwards.zipIdx.findSome? fun pf =>
    (checkForward lib d pf.1).map fun err =>
      "port forward " ++ toString (pf.2 + 1) ++ " (" ++ portLabel pf.1 ++ "): " ++ err

def checkDomain (lib : Library) (baseDomain : String) (others : List EdgeDomain) (d : EdgeDomain) :
    Option String :=
  (checkKind baseDomain d).or <| (checkIPLists lib d).or <| (listedTwice [] (names d)).or <|
    (others.findSome? (checkOther d)).or <| (checkForwards lib d).or (checkPortConflicts d others)

/-- The names are normalised first, and every later check reads the normalised names. -/
def validateDomain (lib : Library) (d : EdgeDomain) (others : List EdgeDomain)
    (baseDomain : String) : Except String EdgeDomain :=
  match normalizeNames d with
  | .error err => .error err
  | .ok d =>
    match checkDomain lib baseDomain others d with
    | some err => .error err
    | none => .ok d

theorem normalizeName_again {s n : String} (h : normalizeName s = .ok n) :
    normalizeName n = .ok n ∧ toLower n = n := by
  have hhost : ∀ {s d : String}, normalizeDomain s = .ok d →
      normalizeName d = .ok d ∧ toLower d = d := by
    intro s d hd
    obtain ⟨hagain, hchars⟩ := normalizeDomain_again hd
    have hspace := trimSpace_eq_self fun c hc => (hostChar_not_space (hchars c hc)).1
    have hstar : cutPrefix d "*." = none :=
      cutPrefix_eq_none (show "*.".toList = ['*', '.'] from rfl)
        fun hc => (hostChar_not_space (hchars '*' hc)).2 rfl
    refine ⟨?_, toLower_eq_self fun c hc => lowerRune_hostChar (hchars c hc)⟩
    unfold normalizeName
    rw [hspace, hstar]
    exact hagain
  unfold normalizeName at h
  split at h
  next rest hrest =>
    cases hd : normalizeDomain rest with
    | error err =>
      rw [hd] at h
      cases h
    | ok d =>
      rw [hd] at h
      cases h
      obtain ⟨hagain, hchars⟩ := normalizeDomain_again hd
      have hspace : trimSpace ("*." ++ d) = "*." ++ d := by
        refine trimSpace_eq_self fun c hc => ?_
        rw [String.toList_append] at hc
        rcases List.mem_append.mp hc with hc | hc
        · have hstar : c = '*' ∨ c = '.' := by simpa using hc
          rcases hstar with rfl | rfl <;> decide
        · exact (hostChar_not_space (hchars c hc)).1
      have hcut : cutPrefix ("*." ++ d) "*." = some d := by
        unfold cutPrefix
        rw [String.toList_append, if_pos (List.isPrefixOf_iff_prefix.mpr (List.prefix_append _ _)),
          List.drop_left, String.ofList_toList]
      refine ⟨?_, ?_⟩
      · unfold normalizeName
        rw [hspace, hcut]
        dsimp only
        rw [hagain]
        rfl
      · rw [toLower_append, (hhost hd).2]
        rfl
  next => exact hhost h

end L8Tunnel.EdgeConf
