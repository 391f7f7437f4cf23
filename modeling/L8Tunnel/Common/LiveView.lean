import L8Tunnel.Base.GoMap
import L8Tunnel.Protocol.Names

/-! # The cached copy of the live tables (tun/common/liveview.go) -/

namespace L8Tunnel.Common
open Base Protocol Registry

/-- A copy of the live tables, with only the rows that route. -/
structure LiveCopy where
  byName : GoMap String TunLiveTunnel := ∅
  byPort : GoMap Int32 TunLiveTunnel := ∅
  relays : GoMap String TunRelay := ∅

namespace LiveCopy

def addTunnel (c : LiveCopy) (t : TunLiveTunnel) : LiveCopy :=
  if t.name = "" ∨ t.simulated ∨ t.state ≠ .active then c
  else
    { c with
      byName := t.domains.foldl (fun m d => m.set d t) (c.byName.set t.name t)
      byPort := if t.publicPort ≠ 0 then c.byPort.set t.publicPort t else c.byPort }

def addRelay (c : LiveCopy) (r : TunRelay) : LiveCopy :=
  if r.relayId = "" ∨ r.simulated then c else { c with relays := c.relays.set r.relayId r }

def fetch (tunnels : List TunLiveTunnel) (relays : List TunRelay) : LiveCopy :=
  relays.foldl addRelay (tunnels.foldl addTunnel {})

def owner (c : LiveCopy) (t : Option TunLiveTunnel) : Option (TunLiveTunnel × TunRelay) :=
  t.bind fun t => (c.relays.get t.relayId).bind fun r =>
    if r.state = .down ∨ r.podIp = "" then none else some (t, r)

def lookup (c : LiveCopy) (key : String) : Option (TunLiveTunnel × TunRelay) :=
  c.owner ((c.byName.get key).or ((wildcardsOf key).findSome? c.byName.get))

end LiveCopy

/-- The copy at hand, and the one a fetch would bring now. -/
structure LiveView where
  copy : LiveCopy
  refetched : LiveCopy

namespace LiveView

def tunnelKey (rules : Rules) (host : String) : String :=
  let host := GoString.toLower host
  if rules.tunnelName host ≠ "" then rules.tunnelName host else host

def tunnel (v : LiveView) (rules : Rules) (host stale : String) :
    Option (TunLiveTunnel × TunRelay) :=
  let key := tunnelKey rules host
  match v.copy.lookup key with
  | none => v.refetched.lookup key
  | some (t, r) => if stale ≠ "" ∧ t.relayId = stale then v.refetched.lookup key else some (t, r)

end LiveView
end L8Tunnel.Common
