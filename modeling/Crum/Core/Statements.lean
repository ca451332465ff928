/-
Module: Crum.Core.Statements
Layer: Core
Purpose: One iteration of the main loop as the SQL statements it executes, in order. The connection commits
  every statement by itself, so between any two of them the file holds what has been executed so far. The
  window ends the process when it is closed, which can happen there too.
Imports: Crum.Core.Main
Trusted boundary: human-reviewed spec of the statements of CRUM.java, Disk.java, CPU.java, Memory.java and
  Network.java
Main exports: Statement, judge, exec, inserts, deletes, script
Open obligations: none
-/
import Crum.Core.Main

namespace Crum

variable {α : Type} [JavaLong α]

/-- The statements of one iteration; the queries of `ui.refresh()` count as one. -/
inductive Statement where
  | insertDisc (i : Nat)
  | insertCpu
  | insertRam
  | insertNetwork
  | deleteMachine
  | deleteDisc
  | deleteCpu
  | deleteRam
  | deleteNetwork
  | refresh
deriving Repr, DecidableEq

/-- How the DELETE statements of the iteration judge the rows with a stamp. -/
abbrev judge (platform : Platform) (round : Round α) (stamp : Int) : Option Bool :=
  platform.condition stamp (timeSearch platform.zone round.cullNow)

/-- Executing a statement, with everything that leads up to it. -/
def exec (platform : Platform) (round : Round α) (state : CrumState α) :
    Statement → Except JavaException (CrumState α)
  | .insertDisc i => do
      let polled ← pollStore round.calendar state.serialNum round.disk i
        { disk := state.diskData, table := state.database.disc, polled := [] }
      return { state with
        diskData := polled.disk
        database := { state.database with disc := polled.table } }
  | .insertCpu => do
      let (cpuData, cpu) ← getCPUData platform.loadBetweenTicks round.calendar state.serialNum
        state.cpuData round.cpu state.database.cpu
      return { state with cpuData := cpuData, database := { state.database with cpu := cpu } }
  | .insertRam => do
      let ram ← getMemoryData round.calendar state.serialNum state.memoryData round.memory
        state.database.ram
      return { state with database := { state.database with ram := ram } }
  | .insertNetwork => do
      let (networkData, network) ← getNetworkData round.calendar state.serialNum state.networkData
        round.network state.database.network
      return { state with
        networkData := networkData
        database := { state.database with network := network } }
  | .deleteMachine => return { state with database := { state.database with
      machine := state.database.machine.deleteWhere fun row => judge platform round row.timestamp } }
  | .deleteDisc => return { state with database := { state.database with
      disc := state.database.disc.deleteWhere fun row => judge platform round row.timestamp } }
  | .deleteCpu => return { state with database := { state.database with
      cpu := state.database.cpu.deleteWhere fun row => judge platform round row.timestamp } }
  | .deleteRam => return { state with database := { state.database with
      ram := state.database.ram.deleteWhere fun row => judge platform round row.timestamp } }
  | .deleteNetwork => return { state with database := { state.database with
      network := state.database.network.deleteWhere fun row => judge platform round row.timestamp } }
  | .refresh => return { state with ui := state.ui.refresh state.database }

/-- The gathering methods insert one row of DISC for each of `n` file stores, then one row of each of the
other sample tables. -/
def inserts (n : Nat) : List Statement :=
  (List.range n).map .insertDisc ++ [.insertCpu, .insertRam, .insertNetwork]

/-- `cullDatabase` and the refresh after it. -/
def deletes : List Statement :=
  [.deleteMachine, .deleteDisc, .deleteCpu, .deleteRam, .deleteNetwork, .refresh]

/-- The statements of an iteration that completes, with `n` file stores. -/
def script (n : Nat) : List Statement := inserts n ++ deletes

end Crum
