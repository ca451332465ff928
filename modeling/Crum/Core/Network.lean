/-
Module: Crum.Core.Network
Layer: Core
Purpose: `Network.java`. The three parallel sequences `netInterfaces`, `baselineBytesIn` and
  `baselineBytesOut`, which `initNetwork` allocates with one size, are one list of entries. A call of
  `getNetworkData` reads the attributes that each interface's `updateAttributes` delivers in that call.
Imports: Crum.Lib.JavaLong, Crum.Core.Oshi, Crum.Core.Schema
Trusted boundary: human-reviewed spec of Network.java
Main exports: NetworkEntry, Network, initNetwork, pollInterface, pollInterfaces, getNetworkData
Open obligations: none
-/
import Crum.Lib.JavaLong
import Crum.Core.Oshi
import Crum.Core.Schema

namespace Crum

variable {α : Type} [JavaLong α]

/-- Entry `i` of `netInterfaces`, `baselineBytesIn` and `baselineBytesOut`. -/
structure NetworkEntry (α : Type) where
  netIF : NetworkIF α
  baselineBytesIn : α
  baselineBytesOut : α
deriving Repr, DecidableEq

/-- The static fields of `Network`. -/
structure Network (α : Type) where
  entries : List (NetworkEntry α)

def Network.baselineBytesIn (net : Network α) : List α := net.entries.map (·.baselineBytesIn)

def Network.baselineBytesOut (net : Network α) : List α := net.entries.map (·.baselineBytesOut)

/-- `initNetwork`: the new arrays hold zeros, each entry is increased by the cached counter, and only
then is the interface refreshed. `fresh i` is what that refresh of interface `i` delivers. -/
def initNetwork (netInterfaces : List (NetworkIF α)) (fresh : Nat → NetworkIF α) : Network α where
  entries := netInterfaces.mapIdx fun i netIF =>
    { netIF := netIF.updateAttributes (fresh i)
      baselineBytesIn := 0 + netIF.bytesRecv
      baselineBytesOut := 0 + netIF.bytesSent }

/-- The locals of `getNetworkData` that its loop carries from one interface to the next. -/
structure NetworkTotals (α : Type) where
  totalInbound : α
  totalOutbound : α
  currentIn : α
  currentOut : α
  ips : String
  macs : String
deriving Repr, DecidableEq

def NetworkTotals.start : NetworkTotals α :=
  { totalInbound := 0, totalOutbound := 0, currentIn := 0, currentOut := 0, ips := "", macs := "" }

/-- `if(total < 0){ total = 0; }` -/
def clampTotal (total : α) : α := if JavaLong.isNeg total then 0 else total

/-- The inner loop over `currIP`: the addresses with a dot after each but the last. -/
def appendIPs (ips : String) : List String → String
  | [] => ips
  | [ip] => ips ++ ip
  | ip :: rest => appendIPs (ips ++ ip ++ ".") rest

/-- One iteration of the loop of `getNetworkData`. -/
def pollInterface (fresh : NetworkIF α) (totals : NetworkTotals α) (entry : NetworkEntry α) :
    NetworkTotals α × NetworkEntry α :=
  let netIF := entry.netIF.updateAttributes fresh
  let currentIn := totals.currentIn + (netIF.bytesRecv - entry.baselineBytesIn)
  let currentOut := totals.currentOut + (netIF.bytesSent - entry.baselineBytesOut)
  ({ totalInbound := clampTotal (totals.totalInbound + currentIn)
     totalOutbound := clampTotal (totals.totalOutbound + currentOut)
     currentIn := currentIn
     currentOut := currentOut
     ips := appendIPs totals.ips netIF.ipv4addr ++ " "
     macs := totals.macs ++ (netIF.macaddr ++ " ") },
   { netIF := netIF
     baselineBytesIn := entry.baselineBytesIn + currentIn
     baselineBytesOut := entry.baselineBytesOut + currentOut })

/-- The loop of `getNetworkData` over the interfaces that are left; `fresh i` is what the refresh of the
`i`-th of them delivers. -/
def pollInterfaces : (Nat → NetworkIF α) → NetworkTotals α → List (NetworkEntry α) →
    NetworkTotals α × List (NetworkEntry α)
  | _, totals, [] => (totals, [])
  | fresh, totals, entry :: entries =>
      let polled := pollInterface (fresh 0) totals entry
      let rest := pollInterfaces (fun i => fresh (i + 1)) polled.1 entries
      (rest.1, polled.2 :: rest.2)

/-- The loop of `getNetworkData` over all interfaces: the final totals and the new static fields. -/
def pollNetwork (net : Network α) (fresh : Nat → NetworkIF α) : NetworkTotals α × Network α :=
  let polled := pollInterfaces fresh .start net.entries
  (polled.1, { entries := polled.2 })

/-- The row bound to `INSERT INTO Network`. -/
def networkRow (calendar : Int) (serialNum : String) (totals : NetworkTotals α) : NetworkRow α where
  networkId := totals.ips
  machineId := serialNum
  timestamp := calendar
  inboundTraffic := JavaLong.quot (totals.totalInbound * JavaLong.lit 8) (JavaLong.lit 1000000)
  outboundTraffic := JavaLong.quot (totals.totalOutbound * JavaLong.lit 8) (JavaLong.lit 1000000)
  macAddress := totals.macs

/-- `getNetworkData`. -/
def getNetworkData (calendar : Int) (serialNum : String) (net : Network α)
    (fresh : Nat → NetworkIF α) (table : NetworkTable α) :
    Except JavaException (Network α × NetworkTable α) := do
  let polled := pollNetwork net fresh
  let table ← execute "NETWORK" table (networkRow calendar serialNum polled.1)
  return (polled.2, table)

/-! ### The network over a run of calls -/

/-- The static fields after `k` calls, call number `t` reading `reads t`. -/
def Network.after (net : Network α) (reads : Nat → Nat → NetworkIF α) : Nat → Network α
  | 0 => net
  | k + 1 => (pollNetwork (net.after reads k) (reads k)).2

/-- The final locals of call number `t`. -/
def Network.totalsOf (net : Network α) (reads : Nat → Nat → NetworkIF α) (t : Nat) : NetworkTotals α :=
  (pollNetwork (net.after reads t) (reads t)).1

end Crum
