/-
Module: Crum.Proofs.DiskStartup
Layer: Proofs
Purpose: The start of disk monitoring. `initDisk` writes the counters of disk `j` into arrays that have
  one entry for each file store, so it returns exactly when there are no more disks than file stores.
  When it returns, its map is the specified one: a file store goes to the last disk that lists its UUID.
  The map depends on which UUIDs each disk lists and on nothing else, so the order of the partitions
  does not matter, and the order of the disks matters only where a UUID occurs on two of them.
Imports: Crum.Lib.Reorder, Crum.Proofs.DiskCoverage
Trusted boundary: none
Main exports: initDisk_returns_iff, initDisk_overrun, StoreMapSpec, initDisk_map_spec
Open obligations: none
-/
import Crum.Lib.Reorder
import Crum.Proofs.DiskCoverage

namespace Crum

open JavaRuntime Reorder

variable {α : Type} [JavaLong α]

/-! ### When `initDisk` returns -/

/-- With more disks than file stores the counters of disk number `fileStores.length` have no entry. -/
theorem initDisk_overrun {fileStores : List (OSFileStore α)} {disks : List (HWDiskStore α)}
    (hsize : fileStores.length < disks.length) :
    initDisk fileStores disks =
      .error (.arrayIndexOutOfBounds fileStores.length fileStores.length) := by
  rcases initFreeSpace_loop fileStores disks with ⟨spaced, hspaced, hstart⟩
  -- all earlier disks have an entry, so the loop gets as far as that disk
  have hbody : ∀ k < fileStores.length, ∀ disk, InitSpec fileStores disks k disk →
      ∃ after, initDiskStore k disk = .ok after ∧ InitSpec fileStores disks (k + 1) after := by
    intro k hk disk hdisk
    rcases initDiskStore_returns hdisk (hk.trans hsize) hk with ⟨after, hafter⟩
    exact ⟨after, hafter, (initDiskStore_step hdisk hafter).2⟩
  rcases forRange_returns fileStores.length initDiskStore spaced (InitSpec fileStores disks) hstart hbody
    with ⟨filled, hfilled, hspec⟩
  have hget : listGet filled.disks fileStores.length = .ok disks[fileStores.length] := by
    rw [listGet_eq_ok_iff, hspec.disks_eq]
    exact List.getElem?_eq_getElem hsize
  have hthrows : initDiskStore fileStores.length filled =
      .error (.arrayIndexOutOfBounds fileStores.length fileStores.length) := by
    rw [initDiskStore, hget]
    simp [arrayModify, hspec.length_entries, bind, Except.bind]
  have hloop := forRange_error hsize hfilled hthrows
  rw [initDisk, hspaced]
  simp only [bind, Except.bind, hloop]

/-- `initDisk` returns, with the number of file stores, exactly when there is an array entry for every
disk. -/
theorem initDisk_returns_iff (fileStores : List (OSFileStore α)) (disks : List (HWDiskStore α)) :
    (∃ disk, initDisk fileStores disks = .ok (disk, fileStores.length)) ↔
      disks.length ≤ fileStores.length := by
  constructor
  · rintro ⟨disk, h⟩
    exact (initDisk_spec h).2.bound
  · exact initDisk_returns fileStores disks

/-- A computer whose only disk carries no file store, one that is not formatted say. -/
theorem unformatted_disk_overruns :
    initDisk [] [diskC] = .error (.arrayIndexOutOfBounds 0 0) ∧
      ¬ ∃ disk, initDisk [] [diskC] = .ok (disk, 0) := by
  constructor
  · rfl
  · rintro ⟨disk, h⟩
    cases h

/-! ### What the map depends on -/

/-- The specification of `FileStoresToDisks`. -/
structure StoreMapSpec (fileStores : List (OSFileStore α)) (disks : List (HWDiskStore α))
    (map : StoreMap) : Prop where
  contains_iff : ∀ l, (∃ j, map l = some j) ↔
    ∃ hl : l < fileStores.length, ∃ j, HasPartition disks (fileStores.get ⟨l, hl⟩).uuid j
  greatest : ∀ l j, map l = some j →
    ∃ hl : l < fileStores.length,
      IsGreatest {i | HasPartition disks (fileStores.get ⟨l, hl⟩).uuid i} j
  lt_length : ∀ l j, map l = some j → j < disks.length

/-- The disks with the same partitions in another order. -/
def SamePartitions (disks disks' : List (HWDiskStore α)) : Prop :=
  List.Forall₂ (fun disk disk' => disk'.partitions.Perm disk.partitions) disks disks'

/-- No UUID occurs on two disks. -/
def NoSharedUuid (disks : List (HWDiskStore α)) : Prop :=
  ∀ uuid i j, HasPartition disks uuid i → HasPartition disks uuid j → i = j

omit [JavaLong α] in
/-- Two lists of disks that list the same UUIDs have the same last disk for each. -/
theorem lastDisk_congr {disks disks' : List (HWDiskStore α)} {uuid : String}
    (h : ∀ j, HasPartition disks' uuid j ↔ HasPartition disks uuid j) :
    lastDisk disks' uuid = lastDisk disks uuid := by
  have hset : {i | HasPartition disks' uuid i} = {i | HasPartition disks uuid i} := Set.ext h
  apply Option.ext
  intro j
  rw [lastDisk_eq_some_iff, lastDisk_eq_some_iff, hset]

omit [JavaLong α] in
/-- The order of the partitions does not matter for the UUIDs a disk lists. -/
theorem SamePartitions.hasPartition_iff {disks disks' : List (HWDiskStore α)}
    (h : SamePartitions disks disks') (uuid : String) (j : Nat) :
    HasPartition disks' uuid j ↔ HasPartition disks uuid j := by
  induction h generalizing j with
  | nil => exact Iff.rfl
  | cons hperm _ ih =>
      cases j with
      | zero => simp [HasPartition, hperm.mem_iff]
      | succ j => simpa [HasPartition] using ih j

omit [JavaLong α] in
/-- Disk `i` of the reordered list lists what disk `σ i` lists. -/
theorem hasPartition_reorder {disks : List (HWDiskStore α)} {σ : Equiv.Perm (Fin disks.length)}
    {uuid : String} (i : Fin disks.length) :
    HasPartition (reorder disks σ) uuid i ↔ HasPartition disks uuid (σ i) := by
  rw [HasPartition, HasPartition, getElem?_reorder]

omit [JavaLong α] in
/-- Without shared UUIDs the last disk of a UUID is its only disk. -/
theorem NoSharedUuid.lastDisk_eq_some_iff {disks : List (HWDiskStore α)} (h : NoSharedUuid disks)
    {uuid : String} {j : Nat} : lastDisk disks uuid = some j ↔ HasPartition disks uuid j := by
  rw [Crum.lastDisk_eq_some_iff]
  constructor
  · exact fun hgreatest => hgreatest.1
  · exact fun hj => ⟨hj, fun i hi => (h uuid i j hi hj).le⟩

omit [JavaLong α] in
theorem NoSharedUuid.reorder {disks : List (HWDiskStore α)} (h : NoSharedUuid disks)
    (σ : Equiv.Perm (Fin disks.length)) : NoSharedUuid (reorder disks σ) := by
  intro uuid i j hi hj
  have hilt : i < disks.length := by simpa using hi.lt_length
  have hjlt : j < disks.length := by simpa using hj.lt_length
  have hsame : σ ⟨i, hilt⟩ = σ ⟨j, hjlt⟩ := by
    apply Fin.ext
    apply h uuid
    · exact (hasPartition_reorder ⟨i, hilt⟩).mp hi
    · exact (hasPartition_reorder ⟨j, hjlt⟩).mp hj
  exact congrArg Fin.val (σ.injective hsame)

omit [JavaLong α] in
/-- Another order of the disks loses no UUID. -/
theorem lastDisk_reorder_eq_none_iff {disks : List (HWDiskStore α)}
    {σ : Equiv.Perm (Fin disks.length)} {uuid : String} :
    lastDisk (reorder disks σ) uuid = none ↔ lastDisk disks uuid = none := by
  rw [lastDisk_eq_none_iff, lastDisk_eq_none_iff]
  constructor
  · intro h i hi
    apply h (σ.symm ⟨i, hi.lt_length⟩)
    rw [hasPartition_reorder, Equiv.apply_symm_apply]
    exact hi
  · intro h i hi
    have hlt : i < disks.length := by simpa using hi.lt_length
    exact h _ ((hasPartition_reorder ⟨i, hlt⟩).mp hi)

/-- Whether `initDisk` returns depends on the two lengths alone. -/
theorem initDisk_same_length {fileStores : List (OSFileStore α)} {disks disks' : List (HWDiskStore α)}
    {disk : Disk α} {n : Nat} (h : initDisk fileStores disks = .ok (disk, n))
    (hlength : disks'.length = disks.length) :
    ∃ disk', initDisk fileStores disks' = .ok (disk', n) := by
  rcases initDisk_spec h with ⟨rfl, hspec⟩
  apply initDisk_returns
  rw [hlength]
  exact hspec.bound

/-! ### The map against its specification -/

section Returned

variable {fileStores : List (OSFileStore α)} {disks : List (HWDiskStore α)} {disk : Disk α} {n : Nat}

/-- An entry of the map names the last disk with a partition of the file store's UUID. -/
theorem initDisk_map_greatest (h : initDisk fileStores disks = .ok (disk, n)) {l j : Nat}
    (hj : disk.fileStoresToDisks l = some j) :
    ∃ hl : l < fileStores.length,
      IsGreatest {i | HasPartition disks (fileStores.get ⟨l, hl⟩).uuid i} j := by
  rw [initDisk_map h, Option.bind_eq_some_iff] at hj
  rcases hj with ⟨store, hstore, hlast⟩
  rcases List.getElem?_eq_some_iff.mp hstore with ⟨hl, rfl⟩
  exact ⟨hl, lastDisk_eq_some_iff.mp hlast⟩

theorem initDisk_storeMapSpec (h : initDisk fileStores disks = .ok (disk, n)) :
    StoreMapSpec fileStores disks disk.fileStoresToDisks where
  contains_iff l := by
    constructor
    · rintro ⟨j, hj⟩
      rcases initDisk_map_greatest h hj with ⟨hl, hlast⟩
      exact ⟨hl, j, hlast.1⟩
    · rintro ⟨hl, j, hj⟩
      rw [initDisk_map h, List.getElem?_eq_getElem hl, Option.bind_some]
      apply Option.ne_none_iff_exists'.mp
      intro hnone
      exact lastDisk_eq_none_iff.mp hnone j hj
  greatest l j hj := initDisk_map_greatest h hj
  lt_length l j hj := by
    rcases initDisk_map_greatest h hj with ⟨hl, hlast⟩
    exact HasPartition.lt_length hlast.1

/-- Other orders of the partitions give the same map. -/
theorem initDisk_samePartitions (h : initDisk fileStores disks = .ok (disk, n))
    {disks' : List (HWDiskStore α)} (hsame : SamePartitions disks disks') :
    ∃ disk', initDisk fileStores disks' = .ok (disk', n) ∧
      disk'.fileStoresToDisks = disk.fileStoresToDisks := by
  rcases initDisk_same_length h hsame.length_eq.symm with ⟨disk', hdisk'⟩
  refine ⟨disk', hdisk', ?_⟩
  funext l
  rw [initDisk_map hdisk', initDisk_map h]
  congr 1
  funext store
  exact lastDisk_congr (hsame.hasPartition_iff store.uuid)

/-- Where no UUID is shared, another order of the disks renumbers the map. -/
theorem initDisk_reorder (h : initDisk fileStores disks = .ok (disk, n)) (hshared : NoSharedUuid disks)
    (σ : Equiv.Perm (Fin disks.length)) :
    ∃ disk', initDisk fileStores (reorder disks σ) = .ok (disk', n) ∧
      ∀ l, (disk'.fileStoresToDisks l = none ↔ disk.fileStoresToDisks l = none) ∧
        ∀ i : Fin disks.length,
          disk'.fileStoresToDisks l = some i.val ↔ disk.fileStoresToDisks l = some (σ i).val := by
  rcases initDisk_same_length h (length_reorder disks σ) with ⟨disk', hdisk'⟩
  refine ⟨disk', hdisk', ?_⟩
  intro l
  rw [initDisk_map hdisk', initDisk_map h]
  cases fileStores[l]? with
  | none => simp
  | some store =>
      rw [Option.bind_some, Option.bind_some]
      constructor
      · exact lastDisk_reorder_eq_none_iff
      · intro i
        rw [(hshared.reorder σ).lastDisk_eq_some_iff, hshared.lastDisk_eq_some_iff]
        exact hasPartition_reorder i

end Returned

/-- When `initDisk` returns, its map meets the specification; other orders of the partitions leave it as
it is, and another order of disks that share no UUID only renumbers it. -/
theorem initDisk_map_spec {fileStores : List (OSFileStore α)} {disks : List (HWDiskStore α)}
    {disk : Disk α} {n : Nat} (h : initDisk fileStores disks = .ok (disk, n)) :
    StoreMapSpec fileStores disks disk.fileStoresToDisks ∧
      (∀ disks', SamePartitions disks disks' →
        ∃ disk', initDisk fileStores disks' = .ok (disk', n) ∧
          disk'.fileStoresToDisks = disk.fileStoresToDisks) ∧
      (NoSharedUuid disks → ∀ σ : Equiv.Perm (Fin disks.length),
        ∃ disk', initDisk fileStores (reorder disks σ) = .ok (disk', n) ∧
          ∀ l, (disk'.fileStoresToDisks l = none ↔ disk.fileStoresToDisks l = none) ∧
            ∀ i : Fin disks.length,
              disk'.fileStoresToDisks l = some i.val ↔
                disk.fileStoresToDisks l = some (σ i).val) := by
  refine ⟨initDisk_storeMapSpec h, ?_, ?_⟩
  · intro disks' hsame
    exact initDisk_samePartitions h hsame
  · intro hshared σ
    exact initDisk_reorder h hshared σ

/-- The disk of drive `N:`, when it is a local one. -/
def diskN : HWDiskStore Int64 :=
  { model := "disk", partitions := [⟨"n"⟩, ⟨"recovery"⟩], counters := ⟨0, 0, 0⟩ }

/-- Two drives on two disks: exchanging the disks, or the partitions of one, moves drive `C:` with its
disk and nothing else. -/
theorem initDisk_map_two_drives :
    ∃ disk disk' disk'',
      initDisk [storeC, storeN] [diskC, diskN] = .ok (disk, 2) ∧
      StoreMapSpec [storeC, storeN] [diskC, diskN] disk.fileStoresToDisks ∧
      initDisk [storeC, storeN]
        [diskC, { diskN with partitions := [⟨"recovery"⟩, ⟨"n"⟩] }] = .ok (disk', 2) ∧
      disk'.fileStoresToDisks = disk.fileStoresToDisks ∧
      initDisk [storeC, storeN]
        (reorder [diskC, diskN] (Equiv.swap ⟨0, by decide⟩ ⟨1, by decide⟩)) = .ok (disk'', 2) ∧
      disk.fileStoresToDisks 0 = some 0 ∧ disk''.fileStoresToDisks 0 = some 1 := by
  rcases initDisk_returns [storeC, storeN] [diskC, diskN] (by decide) with ⟨disk, hdisk⟩
  rcases initDisk_map_spec hdisk with ⟨hspec, hpartitions, hdisks⟩
  have hsame : SamePartitions [diskC, diskN]
      [diskC, { diskN with partitions := [⟨"recovery"⟩, ⟨"n"⟩] }] :=
    .cons (.refl _) (.cons (.swap _ _ _) .nil)
  have hshared : NoSharedUuid [diskC, diskN] := by
    intro uuid i j hi hj
    have hilt := hi.lt_length
    have hjlt := hj.lt_length
    simp only [List.length_cons, List.length_nil] at hilt hjlt
    interval_cases i <;> interval_cases j <;> simp_all [HasPartition, diskC, diskN]
    · rcases hj with rfl | rfl <;> simp at hi
    · rcases hi with rfl | rfl <;> simp at hj
  rcases hpartitions _ hsame with ⟨disk', hdisk', hmap'⟩
  rcases hdisks hshared (Equiv.swap ⟨0, by decide⟩ ⟨1, by decide⟩) with ⟨disk'', hdisk'', hmap''⟩
  have hzero : disk.fileStoresToDisks 0 = some 0 := (initDisk_map hdisk 0).trans (by decide)
  refine ⟨disk, disk', disk'', hdisk, hspec, hdisk', hmap', hdisk'', hzero, ?_⟩
  apply ((hmap'' 0).2 ⟨1, by decide⟩).mpr
  rw [Equiv.swap_apply_right]
  exact hzero

end Crum
