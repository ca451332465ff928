/-
Module: Crum.Core.Oshi
Layer: Core
Purpose: The OSHI objects the gathering methods read, as the values their getters return. A getter
  returns what the object's last `updateAttributes` cached; what the next `updateAttributes` delivers is
  an input of the step that calls it.
Imports: Mathlib
Trusted boundary: human-reviewed spec of the OSHI getters
Main exports: NetworkIF, HWPartition, DiskCounters, HWDiskStore, StoreSpace, OSFileStore,
  CentralProcessor, GlobalMemory, ComputerSystem
Open obligations: none
-/
import Mathlib

namespace Crum

/-- `oshi.hardware.NetworkIF`. -/
structure NetworkIF (α : Type) where
  bytesRecv : α
  bytesSent : α
  ipv4addr : List String
  macaddr : String
deriving Repr, DecidableEq

/-- `updateAttributes` replaces everything that is cached. -/
def NetworkIF.updateAttributes {α : Type} (_netIF fresh : NetworkIF α) : NetworkIF α := fresh

/-- `oshi.hardware.HWPartition`. -/
structure HWPartition where
  uuid : String
deriving Repr, DecidableEq

/-- The counters of a disk that `updateAttributes` refreshes. -/
structure DiskCounters (α : Type) where
  transferTime : α
  readBytes : α
  writeBytes : α
deriving Repr, DecidableEq

/-- `oshi.hardware.HWDiskStore`. -/
structure HWDiskStore (α : Type) where
  model : String
  partitions : List HWPartition
  counters : DiskCounters α
deriving Repr, DecidableEq

/-- `updateAttributes` samples the counters; model and partitions stay. -/
def HWDiskStore.updateAttributes {α : Type} (disk : HWDiskStore α) (fresh : DiskCounters α) :
    HWDiskStore α :=
  { disk with counters := fresh }

/-- The space figures of a file store that `updateAttributes` refreshes. -/
structure StoreSpace (α : Type) where
  totalSpace : α
  freeSpace : α
deriving Repr, DecidableEq

/-- `oshi.software.os.OSFileStore`. -/
structure OSFileStore (α : Type) where
  uuid : String
  mount : String
  space : StoreSpace α
deriving Repr, DecidableEq

/-- `updateAttributes` samples the space figures; UUID and mount point stay. -/
def OSFileStore.updateAttributes {α : Type} (store : OSFileStore α) (fresh : StoreSpace α) :
    OSFileStore α :=
  { store with space := fresh }

/-- The tick counts of one logical processor, by tick type. -/
abbrev Ticks := List Int

/-- What one `getCPUData` call reads from `oshi.hardware.CentralProcessor`. `windowEnd` is the sample
that `getProcessorCpuLoadBetweenTicks` takes itself, `nextTicks` the one `getProcessorCpuLoadTicks`
returns after it. -/
structure CentralProcessor (α : Type) where
  processorID : String
  name : String
  maxFreq : α
  physicalProcessorCount : Nat
  logicalProcessorCount : Nat
  windowEnd : List Ticks
  nextTicks : List Ticks
deriving Repr, DecidableEq

/-- What one `getMemoryData` call reads from `oshi.hardware.GlobalMemory`. -/
structure GlobalMemory (α : Type) where
  total : α
  available : α
  moduleCapacities : List α
  virtualMax : α
deriving Repr, DecidableEq

/-- `oshi.hardware.ComputerSystem`. -/
structure ComputerSystem where
  serialNumber : String
  model : String
  manufacturer : String
deriving Repr, DecidableEq

end Crum
