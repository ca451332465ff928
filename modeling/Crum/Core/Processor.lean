/-
Module: Crum.Core.Processor
Layer: Core
Purpose: `CPU.java` and `Memory.java`. Doubles are exact rationals, and NaN is no value. The loads that
  OSHI computes from two tick samples are a parameter, since that code is not in the repository.
Imports: Crum.Lib.JavaLong, Crum.Core.Oshi, Crum.Core.Schema
Trusted boundary: human-reviewed spec of CPU.java and Memory.java
Main exports: LoadBetweenTicks, Cpu, initCPU, getCPUData, Memory, initMemory, getMemoryData
Open obligations: none
-/
import Crum.Lib.JavaLong
import Crum.Core.Oshi
import Crum.Core.Schema

namespace Crum

open JavaRuntime

variable {α : Type} [JavaLong α]

/-! ### `CPU.java` -/

/-- OSHI's `getProcessorCpuLoadBetweenTicks`: what the number of logical processors, the argument
`oldTicks` and the sample the call takes itself make it return or throw. -/
abbrev LoadBetweenTicks := Nat → List Ticks → List Ticks → Except JavaException (List Rat)

/-- The static fields of `CPU`. -/
structure Cpu where
  prevLoadTicks : List Ticks
  currLoadTicks : List Rat
deriving Repr, DecidableEq

/-- `initCPU` takes the first tick sample. -/
def initCPU (processorCpuLoadTicks : List Ticks) : Cpu where
  prevLoadTicks := processorCpuLoadTicks
  currLoadTicks := []

/-- The loop that adds up `currLoadTicks`, one entry for each logical processor. -/
def sumLoads (currLoadTicks : List Rat) (logicalProcessorCount : Nat) : Except JavaException Rat :=
  forRange logicalProcessorCount (fun i currentLoad => do
    match currLoadTicks[i]? with
    | some load => return currentLoad + load
    | none => throw (.arrayIndexOutOfBounds i currLoadTicks.length)) 0

/-- `(currentLoad / cpu.getLogicalProcessorCount()) * 100`. Without processors it is NaN, which the driver
binds as NULL. -/
def meanLoad (currentLoad : Rat) (logicalProcessorCount : Nat) : Option Rat :=
  if logicalProcessorCount = 0 then none else some (currentLoad / logicalProcessorCount * 100)

/-- The row bound to `INSERT INTO CPU`; the number of processes is the constant 10. -/
def cpuRow (calendar : Int) (serialNum : String) (cpu : CentralProcessor α) (currentLoad : Rat) :
    CpuRow α where
  cpuId := cpu.processorID
  machineId := serialNum
  timestamp := calendar
  cpuModel := cpu.name
  clockSpeed := cpu.maxFreq
  corePhysical := cpu.physicalProcessorCount
  coreLogical := cpu.logicalProcessorCount
  coreUsage := currentLoad
  numProcess := JavaLong.lit 10

/-- `getCPUData`: the window that is measured ends at `windowEnd`, the baseline of the next call is the
later sample `nextTicks`. -/
def getCPUData (loadBetweenTicks : LoadBetweenTicks) (calendar : Int) (serialNum : String)
    (state : Cpu) (cpu : CentralProcessor α) (table : CpuTable α) :
    Except JavaException (Cpu × CpuTable α) := do
  let currLoadTicks ← loadBetweenTicks cpu.logicalProcessorCount state.prevLoadTicks cpu.windowEnd
  let sum ← sumLoads currLoadTicks cpu.logicalProcessorCount
  let currentLoad ← notNull "CPU" (meanLoad sum cpu.logicalProcessorCount)
  let table ← execute "CPU" table (cpuRow calendar serialNum cpu currentLoad)
  return ({ prevLoadTicks := cpu.nextTicks, currLoadTicks := currLoadTicks }, table)

/-! ### `Memory.java` -/

/-- The static field of `Memory` that later calls read. -/
structure Memory where
  numMemModules : Nat
deriving Repr, DecidableEq

def initMemory (moduleCount : Nat) : Memory where
  numMemModules := moduleCount

/-- The row bound to `INSERT INTO RAM`. -/
def ramRow (calendar : Int) (serialNum : String) (state : Memory) (memory : GlobalMemory α) :
    RamRow α where
  ramId := state.numMemModules
  machineId := serialNum
  timestamp := calendar
  totalSpace := JavaLong.quot memory.total (JavaLong.lit 1000000)
  totalPhysical := JavaLong.quot (memory.moduleCapacities.foldl (· + ·) 0) (JavaLong.lit 1000000)
  totalVirtual := JavaLong.quot memory.virtualMax (JavaLong.lit 1000000)
  usedSpace := JavaLong.quot (memory.total - memory.available) (JavaLong.lit 1000000)

/-- `getMemoryData`. The key is the number of modules found at the start. -/
def getMemoryData (calendar : Int) (serialNum : String) (state : Memory) (memory : GlobalMemory α)
    (table : RamTable α) : Except JavaException (RamTable α) :=
  execute "RAM" table (ramRow calendar serialNum state memory)

end Crum
