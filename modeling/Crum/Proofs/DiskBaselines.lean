/-
Module: Crum.Proofs.DiskBaselines
Layer: Proofs
Purpose: Whose counters the disk baselines start from. `initDisk` writes the counters of disk `j` to
  entry `j`, while `getDiskData` reads entry `i` for file store `i`. The baseline of a file store is
  therefore right exactly when the disk that happens to have the number of the file store shows the same
  counters as the disk the file store is on, an absent disk counting as one that shows zeros.
Imports: Crum.Proofs.DiskPoll
Trusted boundary: none
Main exports: BaselinesRight, SameCounters, baselinesRight_iff, swapped_disks_mix_baselines
Open obligations: none
-/
import Crum.Proofs.DiskPoll

namespace Crum

section Statement

variable {α : Type} [JavaLong α]

/-- Right after `initDisk`, the `prev` counters of every mapped file store are those its disk had then,
and the first `getDiskData` call measures what its disk shows against them. -/
structure BaselinesRight (disks : List (HWDiskStore α)) (disk : Disk α) : Prop where
  start : ∀ (i : Nat) entry d hw, disk.entries[i]? = some entry →
    disk.fileStoresToDisks i = some d → disks[d]? = some hw → entry.prevCounters = hw.counters
  firstPoll : ∀ calendar serialNum samples table after,
    getDiskData calendar serialNum disk samples table = .ok after →
    ∀ (i : Nat) poll d hw, after.polled[i]? = some poll →
      disk.fileStoresToDisks i = some d → disks[d]? = some hw →
      poll.diskIndex = d ∧ shown disk samples i d = some poll.counters ∧
      poll.totalBytesPerSec = (poll.counters.readBytes + poll.counters.writeBytes) -
        (hw.counters.readBytes + hw.counters.writeBytes)

/-- Every file store that is on some disk `d`, its number being `i`: disk `i` shows the counters that
disk `d` shows, or disk `d` shows zeros and there is no disk `i`. -/
def SameCounters (fileStores : List (OSFileStore α)) (disks : List (HWDiskStore α)) : Prop :=
  ∀ (i : Nat) store d, fileStores[i]? = some store → lastDisk disks store.uuid = some d →
    countersAt disks i = countersAt disks d

theorem countersAt_eq {disks : List (HWDiskStore α)} {d : Nat} {hw : HWDiskStore α}
    (h : disks[d]? = some hw) : countersAt disks d = hw.counters := by
  simp [countersAt, h]

end Statement

variable {α : Type} [LawfulJavaLong α]

/-- The entries of file stores that are on some disk are right exactly under that condition. -/
theorem start_right_iff {fileStores : List (OSFileStore α)} {disks : List (HWDiskStore α)}
    {disk : Disk α} {n : Nat} (h : initDisk fileStores disks = .ok (disk, n)) :
    (∀ (i : Nat) entry d hw, disk.entries[i]? = some entry → disk.fileStoresToDisks i = some d →
      disks[d]? = some hw → entry.prevCounters = hw.counters) ↔ SameCounters fileStores disks := by
  obtain ⟨-, hspec⟩ := initDisk_spec h
  constructor
  · intro hright i store d hstore hlast
    have hi : i < disk.entries.length := by
      rw [hspec.length_entries]
      exact (List.getElem?_eq_some_iff.mp hstore).1
    have hentry : disk.entries[i]? = some disk.entries[i] := List.getElem?_eq_getElem hi
    have hmap : disk.fileStoresToDisks i = some d := by
      rw [initDisk_map h, hstore]
      exact hlast
    have hlt : d < disks.length := (lastDisk_eq_some_iff.mp hlast).1.lt_length
    have hd : disks[d]? = some disks[d] := List.getElem?_eq_getElem hlt
    rw [← initDisk_prev h hentry, hright i _ d _ hentry hmap hd, countersAt_eq hd]
  · intro hsame i entry d hw hentry hmap hd
    rw [initDisk_map h, Option.bind_eq_some_iff] at hmap
    obtain ⟨store, hstore, hlast⟩ := hmap
    rw [initDisk_prev h hentry, hsame i store d hstore hlast, countersAt_eq hd]

/-- After an `initDisk` that returned, the baselines are right if and only if every file store on a disk
has the number of a disk with the same counters. -/
theorem baselinesRight_iff {fileStores : List (OSFileStore α)} {disks : List (HWDiskStore α)}
    {disk : Disk α} {n : Nat} (h : initDisk fileStores disks = .ok (disk, n)) :
    BaselinesRight disks disk ↔ SameCounters fileStores disks := by
  rw [← start_right_iff h]
  constructor
  · exact fun hright => hright.start
  · intro hstart
    refine ⟨hstart, ?_⟩
    intro calendar serialNum samples table after hcall i poll d hw hpoll hmap hd
    have hspec := getDiskData_spec hcall
    obtain ⟨-, -, -, hindex, -, entry, -, hentry, -⟩ := hspec.done i poll hpoll
    have hprev : entry.prevCounters = hw.counters := hstart i entry d hw hentry hmap hd
    obtain rfl : poll.diskIndex = d := Option.some.inj (hindex.symm.trans hmap)
    refine ⟨rfl, (getDiskData_shown hcall).read i poll hpoll, ?_⟩
    have hread : entry.prevBytesRead = hw.counters.readBytes := congrArg (·.readBytes) hprev
    have hwrite : entry.prevBytesWritten = hw.counters.writeBytes := congrArg (·.writeBytes) hprev
    rw [hspec.total_eq hpoll hentry, hread, hwrite]

/-- A file store named by its UUID. -/
def plainStore (uuid : String) : OSFileStore Int64 := { uuid := uuid, mount := uuid, space := ⟨0, 0⟩ }

/-- A disk with one partition that has read `bytes` so far. -/
def plainDisk (uuid : String) (bytes : Int64) : HWDiskStore Int64 :=
  { model := uuid, partitions := [⟨uuid⟩], counters := ⟨0, bytes, 0⟩ }

/-- File stores in the order of their disks start from the right baselines. -/
theorem baselinesRight_in_order :
    ∃ disk, initDisk [plainStore "a", plainStore "b"] [plainDisk "a" 10, plainDisk "b" 70] =
        .ok (disk, 2) ∧
      BaselinesRight [plainDisk "a" 10, plainDisk "b" 70] disk := by
  obtain ⟨disk, hdisk⟩ := initDisk_returns [plainStore "a", plainStore "b"]
    [plainDisk "a" 10, plainDisk "b" 70] (by decide)
  refine ⟨disk, hdisk, (baselinesRight_iff hdisk).mpr ?_⟩
  intro i store d hstore hlast
  have hi : i < 2 := (List.getElem?_eq_some_iff.mp hstore).1
  interval_cases i
  · obtain rfl : plainStore "a" = store := by simpa using hstore
    obtain rfl : 0 = d := Option.some.inj (by rw [← hlast]; decide)
    rfl
  · obtain rfl : plainStore "b" = store := by simpa using hstore
    obtain rfl : 1 = d := Option.some.inj (by rw [← hlast]; decide)
    rfl

/-- Listed in the other order, file store 0 is on disk 1 but starts from the 10 bytes of disk 0, and its
first difference is the 60 bytes between the two disks although nothing was transferred. -/
theorem swapped_disks_mix_baselines :
    ∃ disk after, initDisk [plainStore "b", plainStore "a"] [plainDisk "a" 10, plainDisk "b" 70] =
        .ok (disk, 2) ∧
      getDiskData 0 "S" disk (fun _ => ⟨⟨0, 0⟩, ⟨0, 70, 0⟩, ⟨0, 70, 0⟩⟩) .empty = .ok after ∧
      after.polled.map (·.totalBytesPerSec) = [60, -60] ∧
      ¬ BaselinesRight [plainDisk "a" 10, plainDisk "b" 70] disk := by
  refine ⟨_, _, rfl, rfl, by decide, ?_⟩
  intro hright
  have hstart := hright.start 0 _ 1 _ rfl rfl rfl
  revert hstart
  decide

end Crum
