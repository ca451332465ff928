/-
Module: Crum.Core.Main
Layer: Core
Purpose: `CRUM.main`: the initialisation, the four gathering methods under one calendar value, the
  culling and the refresh. What the hardware and the clock deliver in one iteration of the loop is the
  input of that iteration. An exception that a gathering method throws or exits on ends the run.
Imports: Crum.Lib.Run, Crum.Core.Network, Crum.Core.Disk, Crum.Core.Processor, Crum.Core.Culling,
  Crum.Core.Interface
Trusted boundary: human-reviewed spec of CRUM.java
Main exports: Platform, Hardware, Round, CrumState, initMain, gather, iteration, runMain
Open obligations: none
-/
import Crum.Lib.Run
import Crum.Core.Network
import Crum.Core.Disk
import Crum.Core.Processor
import Crum.Core.Culling
import Crum.Core.Interface

namespace Crum

variable {α : Type} [JavaLong α]

/-- What the program runs on: the default time zone, how SQLite judges the condition of a DELETE, and
how OSHI computes loads from tick samples. -/
structure Platform where
  zone : Zone
  condition : Condition
  loadBetweenTicks : LoadBetweenTicks

/-- What the initialisation reads. -/
structure Hardware (α : Type) where
  computerSystem : ComputerSystem
  processorCpuLoadTicks : List Ticks
  moduleCount : Nat
  networkIFs : List (NetworkIF α)
  networkFresh : Nat → NetworkIF α
  fileStores : List (OSFileStore α)
  disks : List (HWDiskStore α)

/-- What one iteration of the main loop reads: the calendar value that the four gathering methods share,
their samples, and the clock of `cullDatabase`. -/
structure Round (α : Type) where
  calendar : Int
  disk : Nat → StoreSamples α
  cpu : CentralProcessor α
  memory : GlobalMemory α
  network : Nat → NetworkIF α
  cullNow : Int

/-- The static fields of the program, its database and its window, at the head of the main loop. -/
structure CrumState (α : Type) where
  serialNum : String
  diskData : Disk α
  cpuData : Cpu
  memoryData : Memory
  networkData : Network α
  database : Database α
  ui : CrumUI α

/-- The row `initMachine` inserts. -/
def machineRow (system : ComputerSystem) (now : Int) : MachineRow where
  machineId := system.serialNumber
  timestamp := now
  machineModel := system.model
  machineVendor := system.manufacturer

/-- `initOSHI`, `initDB`, `initMachine` at `now`, and the window. -/
def initMain (hw : Hardware α) (now : Int) : Except JavaException (CrumState α) := do
  let (diskData, numDisks) ← initDisk hw.fileStores hw.disks
  let machine ← execute "MACHINE" (initDB : Database α).machine (machineRow hw.computerSystem now)
  return {
    serialNum := hw.computerSystem.serialNumber
    diskData := diskData
    cpuData := initCPU hw.processorCpuLoadTicks
    memoryData := initMemory hw.moduleCount
    networkData := initNetwork hw.networkIFs hw.networkFresh
    database := { initDB with machine := machine }
    ui := newCrumUI numDisks }

/-- The four gathering methods of one iteration. -/
def gather (platform : Platform) (state : CrumState α) (round : Round α) :
    Except JavaException (CrumState α) := do
  let db := state.database
  let polled ← getDiskData round.calendar state.serialNum state.diskData round.disk db.disc
  let (cpuData, cpu) ←
    getCPUData platform.loadBetweenTicks round.calendar state.serialNum state.cpuData round.cpu db.cpu
  let ram ← getMemoryData round.calendar state.serialNum state.memoryData round.memory db.ram
  let (networkData, network) ←
    getNetworkData round.calendar state.serialNum state.networkData round.network db.network
  return { state with
    diskData := polled.disk
    cpuData := cpuData
    networkData := networkData
    database := { db with disc := polled.table, cpu := cpu, ram := ram, network := network } }

/-- `cullDatabase` on the program's state. -/
def cull (platform : Platform) (now : Int) (state : CrumState α) : CrumState α :=
  { state with database := cullDatabase platform.condition platform.zone now state.database }

/-- `ui.refresh()` -/
def refreshUI (state : CrumState α) : CrumState α :=
  { state with ui := state.ui.refresh state.database }

/-- One iteration of the main loop. -/
def iteration (platform : Platform) (state : CrumState α) (round : Round α) :
    Except JavaException (CrumState α) := do
  let gathered ← gather platform state round
  return refreshUI (cull platform round.cullNow gathered)

/-- The state at the loop head after one completed iteration for each round. -/
def runMain (platform : Platform) (hw : Hardware α) (now : Int) (rounds : List (Round α)) :
    Except JavaException (CrumState α) := do
  let state ← initMain hw now
  Run.run (iteration platform) state rounds

end Crum
