import L8Tunnel.Base.GoString
import L8Tunnel.Types

/-! # The rules for claiming names and ports (registry/rules.go) -/

namespace L8Tunnel.Registry
open Base

inductive RuleKind where
  | nameTaken | maxTunnels | portTaken | invalidName | reservedName
  | portOutsideRange | portNotAllowed
  deriving DecidableEq

structure RuleError where
  kind : RuleKind
  msg : String
  deriving DecidableEq

/-- The rules that a relay and the registry share. -/
structure Rules where
  baseDomain : String
  controlSNI : String := ""
  authHost : String := ""
  reservedNames : List String := []
  portMin : ℤ
  portMax : ℤ

def isDNSLabel (s : String) : Bool :=
  let cs := s.toList
  decide (1 ≤ cs.length ∧ cs.length ≤ 63) &&
    cs.all (fun c => GoString.isLowerAlnum c || c == '-') &&
    cs.head? != some '-' && cs.getLast? != some '-'

def validName (name : String) : Bool := isDNSLabel name

namespace Rules

def isReserved (r : Rules) (name : String) : Bool :=
  let host := name ++ "." ++ r.baseDomain
  decide (host = r.controlSNI) || (decide (r.authHost ≠ "") && decide (host = r.authHost)) ||
    r.reservedNames.any (fun n => decide (n = name))

def checkName (r : Rules) (name : String) : Option RuleError :=
  if validName name = false then
    some ⟨.invalidName, "tunnel name " ++ GoString.quote name ++ " must be a lowercase DNS label"⟩
  else if r.isReserved name then
    some ⟨.reservedName, "tunnel name " ++ GoString.quote name ++ " is reserved for the relay"⟩
  else none

def tunnelName (r : Rules) (host : String) : String :=
  match GoString.cutSuffix host ("." ++ r.baseDomain) with
  | some name => if validName name then name else ""
  | none => ""

def checkReservation (r : Rules) (name : String) (port : ℤ) : Option RuleError :=
  match r.checkName name with
  | some err => some err
  | none =>
    if port ≠ 0 ∧ (port < r.portMin ∨ port > r.portMax) then
      some ⟨.portOutsideRange, "port " ++ toString port ++ " is outside the relay's range " ++
        toString r.portMin ++ "-" ++ toString r.portMax⟩
    else none

end Rules

/-- Who has a name, as the decision sees it. -/
structure Holder where
  tokenID : String
  agentID : String
  connected : Bool
  sameSession : Bool

/-- A claim that is let through: a new name, one that waits for its agent, or one that is
connected. -/
inductive Decision where
  | new | reclaim | takeover
  deriving DecidableEq

def registryDecide (holder : Option Holder) (tokenID agentID : String)
    (active maxTunnels : ℤ) : Except RuleKind Decision :=
  match holder with
  | some h =>
    if h.tokenID ≠ tokenID then .error .nameTaken
    else if h.connected ∧ (h.agentID ≠ agentID ∨ h.sameSession) then .error .nameTaken
    else if 0 < maxTunnels ∧ maxTunnels ≤ active then .error .maxTunnels
    else if h.connected then .ok .takeover
    else .ok .reclaim
  | none =>
    if 0 < maxTunnels ∧ maxTunnels ≤ active then .error .maxTunnels
    else .ok .new

variable {name : String} {r : Rules}

theorem validName_ne_empty (h : validName name = true) : name ≠ "" := by
  intro he
  subst he
  exact absurd h (by decide)

theorem Rules.checkName_none (h : r.checkName name = none) :
    validName name = true ∧ r.isReserved name = false := by
  unfold Rules.checkName at h
  cases hv : validName name with
  | false => simp [hv] at h
  | true =>
    cases hr : r.isReserved name with
    | false => exact ⟨rfl, rfl⟩
    | true => simp [hv, hr] at h

theorem toLower_of_validName (h : validName name = true) : GoString.toLower name = name := by
  have hchars : ∀ c ∈ name.toList, (GoString.isLowerAlnum c || c == '-') = true := by
    simp only [validName, isDNSLabel, Bool.and_eq_true, List.all_eq_true] at h
    exact h.1.1.2
  unfold GoString.toLower
  rw [List.map_congr_left fun c hc => GoString.lowerRune_of_label (hchars c hc), List.map_id',
    String.ofList_toList]

theorem Rules.tunnelName_valid {host : String} (h : r.tunnelName host ≠ "") :
    validName (r.tunnelName host) = true := by
  unfold Rules.tunnelName at h ⊢
  split at h
  · split at h
    next hv => simp [hv]
    next => exact absurd rfl h
  · exact absurd rfl h

theorem Rules.tunnelName_host (h : validName name = true) :
    r.tunnelName (name ++ "." ++ r.baseDomain) = name := by
  unfold Rules.tunnelName
  rw [String.append_assoc, GoString.cutSuffix_append]
  exact if_pos h

theorem registryDecide_ok {h : Holder} {tokenID agentID : String} {active maxTunnels : ℤ}
    {d : Decision} (hd : registryDecide (some h) tokenID agentID active maxTunnels = .ok d) :
    h.tokenID = tokenID ∧
      (h.connected = true → h.agentID = agentID ∧ h.sameSession = false) := by
  simp only [registryDecide] at hd
  split_ifs at hd with ht hc hm hcon
  all_goals
    refine ⟨not_not.mp ht, fun hconn => ?_⟩
    simp only [not_and_or, not_or, not_not] at hc
    rcases hc with hc | hc
    · exact absurd hconn hc
    · exact ⟨hc.1, by simpa using hc.2⟩

end L8Tunnel.Registry
