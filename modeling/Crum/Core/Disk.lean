/-
Module: Crum.Core.Disk
Layer: Core
Purpose: `Disk.java`. The sequences `fileStores`, `prevFreeSpace`, `prevTransferTime`, `prevBytesRead`
  and `prevBytesWritten`, which `initDisk` allocates with one size, are one list of entries; `disks` is a
  list of mutable objects, shared by every file store mapped to the same index. The inputs of a poll are
  what the `updateAttributes` calls made for each file store deliver.
Imports: Crum.Lib.JavaLong, Crum.Core.Oshi, Crum.Core.Schema
Trusted boundary: human-reviewed spec of Disk.java
Main exports: StoreEntry, Disk, initDisk, StoreSamples, StorePoll, PollState, pollStore, getDiskData
Open obligations: none
-/
import Crum.Lib.JavaLong
import Crum.Core.Oshi
import Crum.Core.Schema

namespace Crum

open JavaRuntime

variable {α : Type} [JavaLong α]

/-- Entry `i` of `fileStores` and of the four `prev` arrays. -/
structure StoreEntry (α : Type) where
  store : OSFileStore α
  prevFreeSpace : α
  prevTransferTime : α
  prevBytesRead : α
  prevBytesWritten : α
deriving Repr, DecidableEq

/-- `Map<Integer, Integer>`: the value under each key, if there is one. -/
abbrev StoreMap := Nat → Option Nat

def StoreMap.put (map : StoreMap) (key value : Nat) : StoreMap :=
  fun k => if k = key then some value else map k

/-- The static fields of `Disk`. -/
structure Disk (α : Type) where
  entries : List (StoreEntry α)
  disks : List (HWDiskStore α)
  fileStoresToDisks : StoreMap

/-! ### `initDisk` -/

/-- The arrays as `new long[fileStores.size()]` leaves them. -/
def newEntry (store : OSFileStore α) : StoreEntry α where
  store := store
  prevFreeSpace := 0
  prevTransferTime := 0
  prevBytesRead := 0
  prevBytesWritten := 0

/-- The static fields before the loops of `initDisk`. -/
def newDisk (fileStores : List (OSFileStore α)) (disks : List (HWDiskStore α)) : Disk α where
  entries := fileStores.map newEntry
  disks := disks
  fileStoresToDisks := fun _ => none

/-- The innermost loop: file store `l` is mapped to disk `j` when its UUID is the partition's. -/
def matchStores (entries : List (StoreEntry α)) (partition : HWPartition) (j : Nat) (map : StoreMap) :
    Except JavaException StoreMap :=
  forRange entries.length (fun l map => do
    let currStore ← listGet entries l
    return if currStore.store.uuid = partition.uuid then map.put l j else map) map

/-- The loop over the partitions of disk `j`. -/
def matchPartitions (entries : List (StoreEntry α)) (partitions : List HWPartition) (j : Nat)
    (map : StoreMap) : Except JavaException StoreMap :=
  forRange partitions.length (fun k map => do
    let partition ← listGet partitions k
    matchStores entries partition j map) map

/-- One iteration of the loop over the disks. The three counters of disk `j` go to entry `j` of arrays
that have one entry for each file store. -/
def initDiskStore (j : Nat) (disk : Disk α) : Except JavaException (Disk α) := do
  let hw ← listGet disk.disks j
  let entries ← arrayModify disk.entries j fun entry =>
    { entry with
      prevTransferTime := hw.counters.transferTime
      prevBytesRead := hw.counters.readBytes
      prevBytesWritten := hw.counters.writeBytes }
  let map ← matchPartitions entries hw.partitions j disk.fileStoresToDisks
  return { disk with entries := entries, fileStoresToDisks := map }

/-- One iteration of the loop over the file stores. -/
def initFreeSpace (j : Nat) (disk : Disk α) : Except JavaException (Disk α) := do
  let currStore ← listGet disk.entries j
  let entries ← arrayModify disk.entries j fun entry =>
    { entry with prevFreeSpace := currStore.store.space.freeSpace }
  return { disk with entries := entries }

/-- `initDisk`: the static fields and the returned number of file stores. -/
def initDisk (fileStores : List (OSFileStore α)) (disks : List (HWDiskStore α)) :
    Except JavaException (Disk α × Nat) := do
  let spaced ← forRange fileStores.length initFreeSpace (newDisk fileStores disks)
  let done ← forRange disks.length initDiskStore spaced
  return (done, fileStores.length)

/-! ### `getDiskData` -/

/-- What the three `updateAttributes` calls of one iteration deliver, in their order. -/
structure StoreSamples (α : Type) where
  space : StoreSpace α
  first : DiskCounters α
  second : DiskCounters α
deriving Repr, DecidableEq

/-- The locals of one iteration: the index of `currDisk`, its counters as the getters returned them, the
four differences, and the row that was inserted. -/
structure StorePoll (α : Type) where
  diskIndex : Nat
  counters : DiskCounters α
  transferTime : α
  writesPerSec : α
  readsPerSec : α
  totalBytesPerSec : α
  row : DiscRow α
deriving Repr, DecidableEq

/-- The state of a `getDiskData` call between iterations. -/
structure PollState (α : Type) where
  disk : Disk α
  table : DiscTable α
  polled : List (StorePoll α)

/-- `1024 * 1024 * 1024` -/
def bytesPerGB : α := JavaLong.lit (1024 * 1024 * 1024)

/-- The row bound to `INSERT INTO DISC`. -/
def discRow (calendar : Int) (serialNum : String) (i : Nat) (currStore : OSFileStore α)
    (currDisk : HWDiskStore α) (totalBytesPerSec : α) : DiscRow α where
  discId := i
  machineId := serialNum
  timestamp := calendar
  discName := currStore.mount
  discModel := currDisk.model
  discSize := JavaLong.quot currStore.space.totalSpace bytesPerGB
  discUsed := JavaLong.quot (currStore.space.totalSpace - currStore.space.freeSpace) bytesPerGB
  discSpeed := JavaLong.quot totalBytesPerSec (JavaLong.lit 1024)

/-- The differences of one iteration, from the getters before any `updateAttributes`, and its row, from
the getters after them. -/
def measureStore (calendar : Int) (serialNum : String) (samples : StoreSamples α) (i j : Nat)
    (entry : StoreEntry α) (currDisk : HWDiskStore α) : StorePoll α :=
  let writesPerSec := currDisk.counters.writeBytes - entry.prevBytesWritten
  let readsPerSec := currDisk.counters.readBytes - entry.prevBytesRead
  let totalBytesPerSec := writesPerSec + readsPerSec
  { diskIndex := j
    counters := currDisk.counters
    transferTime := currDisk.counters.transferTime - entry.prevTransferTime
    writesPerSec := writesPerSec
    readsPerSec := readsPerSec
    totalBytesPerSec := totalBytesPerSec
    row := discRow calendar serialNum i (entry.store.updateAttributes samples.space)
      (currDisk.updateAttributes samples.first) totalBytesPerSec }

/-- Entry `i` after its iteration: the baselines are the counters read before the refresh. -/
def StoreEntry.afterPoll (entry : StoreEntry α) (samples : StoreSamples α)
    (counters : DiskCounters α) : StoreEntry α where
  store := entry.store.updateAttributes samples.space
  prevFreeSpace := entry.store.space.freeSpace
  prevTransferTime := counters.transferTime
  prevBytesRead := counters.readBytes
  prevBytesWritten := counters.writeBytes

/-- One iteration of the loop of `getDiskData`. The disk is refreshed before the row is inserted and
once more after it. -/
def pollStore (calendar : Int) (serialNum : String) (samples : Nat → StoreSamples α) (i : Nat)
    (state : PollState α) : Except JavaException (PollState α) := do
  let entry ← listGet state.disk.entries i
  let j ← unbox (state.disk.fileStoresToDisks i)
  let currDisk ← listGet state.disk.disks j
  let entries ← arrayModify state.disk.entries i fun entry =>
    entry.afterPoll (samples i) currDisk.counters
  let poll := measureStore calendar serialNum (samples i) i j entry currDisk
  let table ← execute "DISC" state.table poll.row
  let refreshed := (currDisk.updateAttributes (samples i).first).updateAttributes (samples i).second
  return {
    disk := { state.disk with entries := entries, disks := state.disk.disks.set j refreshed }
    table := table
    polled := state.polled ++ [poll] }

/-- `getDiskData`. An exception is caught only to print it and call `System.exit(0)`. -/
def getDiskData (calendar : Int) (serialNum : String) (disk : Disk α) (samples : Nat → StoreSamples α)
    (table : DiscTable α) : Except JavaException (PollState α) :=
  forRange disk.entries.length (pollStore calendar serialNum samples)
    { disk := disk, table := table, polled := [] }

end Crum
