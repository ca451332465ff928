/-
Module: Crum.Proofs.DiskInit
Layer: Proofs
Purpose: What `initDisk` computes. It returns exactly when there are no more disks than file stores;
  `FileStoresToDisks` then maps a file store to the last disk that lists its UUID, and the counters of
  disk `j` stand in entry `j` of the arrays that are read under file-store indices.
Imports: Crum.Core.Disk
Trusted boundary: none
Main exports: lastDisk, lastDisk_eq_some_iff, lastDisk_eq_none_iff, InitSpec, initDisk_spec,
  initDisk_returns
Open obligations: none
-/
import Crum.Core.Disk

namespace Crum

open JavaRuntime

/-! ### The last disk with a UUID -/

section LastDisk

variable {α : Type}

/-- Disk `j` has a partition with this UUID. -/
def HasPartition (disks : List (HWDiskStore α)) (uuid : String) (j : Nat) : Prop :=
  ∃ disk, disks[j]? = some disk ∧ ∃ partition ∈ disk.partitions, partition.uuid = uuid

/-- The test behind `HasPartition`. -/
def listsUuid (partitions : List HWPartition) (uuid : String) : Bool :=
  partitions.any fun partition => partition.uuid = uuid

instance (disks : List (HWDiskStore α)) (uuid : String) (j : Nat) :
    Decidable (HasPartition disks uuid j) :=
  decidable_of_iff ((disks[j]?).any fun disk => listsUuid disk.partitions uuid) (by
    cases h : disks[j]? <;> simp [HasPartition, listsUuid, h])

/-- The last of the first `k` disks that has a partition with this UUID. -/
def lastDiskBelow (disks : List (HWDiskStore α)) (uuid : String) : Nat → Option Nat
  | 0 => none
  | k + 1 => if HasPartition disks uuid k then some k else lastDiskBelow disks uuid k

def lastDisk (disks : List (HWDiskStore α)) (uuid : String) : Option Nat :=
  lastDiskBelow disks uuid disks.length

theorem HasPartition.lt_length {disks : List (HWDiskStore α)} {uuid : String} {j : Nat}
    (h : HasPartition disks uuid j) : j < disks.length := by
  obtain ⟨disk, hdisk, -⟩ := h
  exact (List.getElem?_eq_some_iff.mp hdisk).1

theorem lastDiskBelow_eq_some_iff {disks : List (HWDiskStore α)} {uuid : String} {k j : Nat} :
    lastDiskBelow disks uuid k = some j ↔
      j < k ∧ HasPartition disks uuid j ∧ ∀ i, j < i → i < k → ¬ HasPartition disks uuid i := by
  induction k with
  | zero => simp [lastDiskBelow]
  | succ k ih =>
      rw [lastDiskBelow]
      split
      · next hk =>
          rw [Option.some.injEq]
          constructor
          · rintro rfl
            exact ⟨by omega, hk, fun i hi hi' => by omega⟩
          · rintro ⟨hj, -, hlast⟩
            by_contra hne
            exact hlast k (by omega) (by omega) hk
      · next hk =>
          rw [ih]
          constructor
          · rintro ⟨hj, hpart, hlast⟩
            refine ⟨by omega, hpart, fun i hi hi' => ?_⟩
            by_cases hik : i = k
            · rwa [hik]
            · exact hlast i hi (by omega)
          · rintro ⟨hj, hpart, hlast⟩
            have hjk : j ≠ k := fun h => hk (h ▸ hpart)
            exact ⟨by omega, hpart, fun i hi hi' => hlast i hi (by omega)⟩

/-- The disk that is found is the greatest index with the UUID. -/
theorem lastDisk_eq_some_iff {disks : List (HWDiskStore α)} {uuid : String} {j : Nat} :
    lastDisk disks uuid = some j ↔ IsGreatest {i | HasPartition disks uuid i} j := by
  rw [lastDisk, lastDiskBelow_eq_some_iff]
  constructor
  · rintro ⟨-, hpart, hlast⟩
    refine ⟨hpart, fun i hi => ?_⟩
    by_contra hji
    exact hlast i (by omega) (HasPartition.lt_length hi) hi
  · rintro ⟨hpart, hgreatest⟩
    refine ⟨HasPartition.lt_length hpart, hpart, fun i hji _ hi => ?_⟩
    have := hgreatest hi
    omega

theorem lastDisk_eq_none_iff {disks : List (HWDiskStore α)} {uuid : String} :
    lastDisk disks uuid = none ↔ ∀ i, ¬ HasPartition disks uuid i := by
  have hbelow : ∀ k, lastDiskBelow disks uuid k = none ↔ ∀ i < k, ¬ HasPartition disks uuid i := by
    intro k
    induction k with
    | zero => simp [lastDiskBelow]
    | succ k ih =>
        rw [lastDiskBelow]
        split
        · next hk => simp only [reduceCtorEq, false_iff]; exact fun h => h k (by omega) hk
        · next hk => rw [ih, Nat.forall_lt_succ_right]; exact (and_iff_left hk).symm
  rw [lastDisk, hbelow]
  exact ⟨fun h i hi => h i hi.lt_length hi, fun h i _ => h i⟩

end LastDisk

/-! ### The loops over partitions and file stores -/

section Matching

variable {α : Type}

/-- File store `l` has this UUID. -/
def storeHasUuid (entries : List (StoreEntry α)) (uuid : String) (l : Nat) : Bool :=
  (entries[l]?).any fun entry => entry.store.uuid = uuid

/-- One iteration of the innermost loop, on a map that is right for the file stores before it. -/
theorem matchStores_step {entries : List (StoreEntry α)} (partition : HWPartition) (j : Nat)
    (map : StoreMap) {i : Nat} (hi : i < entries.length) :
    (if entries[i].store.uuid = partition.uuid then
      StoreMap.put (fun l => if l < i ∧ storeHasUuid entries partition.uuid l then some j else map l) i j
    else fun l => if l < i ∧ storeHasUuid entries partition.uuid l then some j else map l) =
      fun l => if l < i + 1 ∧ storeHasUuid entries partition.uuid l then some j else map l := by
  funext l
  have hhas : storeHasUuid entries partition.uuid i =
      decide (entries[i].store.uuid = partition.uuid) := by
    simp [storeHasUuid, List.getElem?_eq_getElem hi]
  by_cases hli : l = i
  · subst hli
    by_cases huuid : entries[l].store.uuid = partition.uuid
    · simp [StoreMap.put, hhas, huuid]
    · simp [hhas, huuid]
  · have hlt : l < i + 1 ↔ l < i := by omega
    split
    · simp [StoreMap.put, hli, hlt]
    · simp [hlt]

/-- The innermost loop sends every file store with the UUID of the partition to disk `j`. -/
theorem matchStores_eq (entries : List (StoreEntry α)) (partition : HWPartition) (j : Nat)
    (map : StoreMap) :
    matchStores entries partition j map =
      .ok fun l => if storeHasUuid entries partition.uuid l then some j else map l := by
  rcases forRange_returns entries.length
    (fun l map => do
      let currStore ← listGet entries l
      return if currStore.store.uuid = partition.uuid then map.put l j else map) map
    (fun i m => m = fun l =>
      if l < i ∧ storeHasUuid entries partition.uuid l then some j else map l)
    (by simp)
    (by
      rintro i hi m rfl
      have hget : entries[i]? = some entries[i] := List.getElem?_eq_getElem hi
      refine ⟨_, ?_, matchStores_step partition j map hi⟩
      rw [bind_eq_ok_iff]
      exact ⟨_, listGet_eq_ok_iff.mpr hget, rfl⟩) with ⟨result, hrun, hresult⟩
  rw [matchStores, hrun, hresult]
  congr 1
  funext l
  -- past the end of the list there is nothing to match
  by_cases hl : l < entries.length
  · simp [hl]
  · have hnone : storeHasUuid entries partition.uuid l = false := by
      simp [storeHasUuid, List.getElem?_eq_none (not_lt.mp hl)]
    simp [hnone]

/-- The loop over the partitions of disk `j` sends every file store whose UUID it lists there. -/
theorem matchPartitions_eq (entries : List (StoreEntry α)) (partitions : List HWPartition) (j : Nat)
    (map : StoreMap) :
    matchPartitions entries partitions j map =
      .ok fun l => if (entries[l]?).any (fun entry => listsUuid partitions entry.store.uuid)
        then some j else map l := by
  obtain ⟨result, hrun, hresult⟩ := forRange_returns partitions.length
    (fun k map => do
      let partition ← listGet partitions k
      matchStores entries partition j map) map
    (fun k m => m = fun l =>
      if (entries[l]?).any (fun entry => listsUuid (partitions.take k) entry.store.uuid)
        then some j else map l)
    (by funext l; cases entries[l]? <;> simp [listsUuid])
    (by
      rintro k hk m rfl
      have hget : partitions[k]? = some partitions[k] := List.getElem?_eq_getElem hk
      refine ⟨_, by
        rw [bind_eq_ok_iff]
        exact ⟨_, listGet_eq_ok_iff.mpr hget, matchStores_eq ..⟩, ?_⟩
      funext l
      cases hentry : entries[l]? with
      | none => simp [storeHasUuid, hentry]
      | some entry =>
          simp only [storeHasUuid, hentry, Option.any_some, listsUuid, List.take_add_one, hget,
            Option.toList_some, List.any_append, List.any_cons, List.any_nil, Bool.or_false]
          rw [decide_eq_decide.mpr (eq_comm : entry.store.uuid = partitions[k].uuid ↔ _)]
          cases decide (partitions[k].uuid = entry.store.uuid) <;> simp)
  rw [matchPartitions, hrun, hresult]
  congr 1
  funext l
  rw [List.take_length]

end Matching

/-! ### The whole of `initDisk` -/

section Init

variable {α : Type} [JavaLong α]

/-- The three counters kept in entry `i` of the `prev` arrays. -/
def StoreEntry.prevCounters (entry : StoreEntry α) : DiskCounters α where
  transferTime := entry.prevTransferTime
  readBytes := entry.prevBytesRead
  writeBytes := entry.prevBytesWritten

def zeroCounters : DiskCounters α where
  transferTime := 0
  readBytes := 0
  writeBytes := 0

/-- The counters of disk `i`, or zeros when there is no such disk. -/
def countersAt (disks : List (HWDiskStore α)) (i : Nat) : DiskCounters α :=
  ((disks[i]?).map (·.counters)).getD zeroCounters

/-- The static fields after the first `k` iterations of the loop over the disks. -/
structure InitSpec (fileStores : List (OSFileStore α)) (disks : List (HWDiskStore α)) (k : Nat)
    (disk : Disk α) : Prop where
  bound : k ≤ fileStores.length
  stores : disk.entries.map (·.store) = fileStores
  disks_eq : disk.disks = disks
  map_eq : ∀ l, disk.fileStoresToDisks l =
    (fileStores[l]?).bind fun store => lastDiskBelow disks store.uuid k
  prev : ∀ (i : Nat) entry, disk.entries[i]? = some entry →
    entry.prevCounters = if i < k then countersAt disks i else zeroCounters
  free : ∀ (i : Nat) entry, disk.entries[i]? = some entry →
    entry.prevFreeSpace = entry.store.space.freeSpace

theorem InitSpec.length_entries {fileStores : List (OSFileStore α)} {disks : List (HWDiskStore α)}
    {k : Nat} {disk : Disk α} (h : InitSpec fileStores disks k disk) :
    disk.entries.length = fileStores.length := by
  rw [← h.stores, List.length_map]

/-- What the loop over the file stores has done after `k` iterations: the free space of the first `k`
entries, and nothing else. -/
structure SpaceSpec (fileStores : List (OSFileStore α)) (disks : List (HWDiskStore α)) (k : Nat)
    (disk : Disk α) : Prop where
  stores : disk.entries.map (·.store) = fileStores
  disks_eq : disk.disks = disks
  map_eq : disk.fileStoresToDisks = fun _ => none
  prev : ∀ (i : Nat) entry, disk.entries[i]? = some entry → entry.prevCounters = zeroCounters
  free : ∀ (i : Nat) entry, i < k → disk.entries[i]? = some entry →
    entry.prevFreeSpace = entry.store.space.freeSpace

theorem SpaceSpec.length_entries {fileStores : List (OSFileStore α)} {disks : List (HWDiskStore α)}
    {k : Nat} {disk : Disk α} (h : SpaceSpec fileStores disks k disk) :
    disk.entries.length = fileStores.length := by
  rw [← h.stores, List.length_map]

theorem SpaceSpec.start (fileStores : List (OSFileStore α)) (disks : List (HWDiskStore α)) :
    SpaceSpec fileStores disks 0 (newDisk fileStores disks) where
  stores := by simp [newDisk, newEntry, Function.comp_def]
  disks_eq := rfl
  map_eq := rfl
  prev i entry hentry := by
    rw [newDisk, List.getElem?_map, Option.map_eq_some_iff] at hentry
    rcases hentry with ⟨store, -, rfl⟩
    rfl
  free i entry hi := absurd hi (Nat.not_lt_zero i)

theorem SpaceSpec.step {fileStores : List (OSFileStore α)} {disks : List (HWDiskStore α)} {j : Nat}
    {disk : Disk α} (h : SpaceSpec fileStores disks j disk) (hj : j < fileStores.length) :
    ∃ after, initFreeSpace j disk = .ok after ∧ SpaceSpec fileStores disks (j + 1) after := by
  have hlen : j < disk.entries.length := by
    rw [h.length_entries]
    exact hj
  refine ⟨{ disk with entries := disk.entries.modify j fun entry =>
    { entry with prevFreeSpace := disk.entries[j].store.space.freeSpace } }, ?_, ?_⟩
  · simp only [initFreeSpace, bind_eq_ok_iff]
    exact ⟨_, listGet_eq_ok_iff.mpr (List.getElem?_eq_getElem hlen), _,
      arrayModify_eq_ok_iff.mpr ⟨hlen, rfl⟩, rfl⟩
  · refine ⟨?_, h.disks_eq, h.map_eq, ?_, ?_⟩
    · rw [← h.stores]
      refine map_modify_of_same ?_ disk.entries j
      exact fun _ => rfl
    · intro i entry hentry
      rw [getElem?_modify, Option.map_eq_some_iff] at hentry
      rcases hentry with ⟨old, hold, rfl⟩
      split
      · exact h.prev i old hold
      · exact h.prev i old hold
    · intro i entry hi hentry
      rw [getElem?_modify, Option.map_eq_some_iff] at hentry
      rcases hentry with ⟨old, hold, rfl⟩
      split
      · next hij =>
          subst hij
          rw [List.getElem?_eq_getElem hlen, Option.some.injEq] at hold
          rw [hold]
      · next hij => exact h.free i old (by omega) hold

/-- The loop over the file stores leaves the start of the loop over the disks. -/
theorem initFreeSpace_loop (fileStores : List (OSFileStore α)) (disks : List (HWDiskStore α)) :
    ∃ disk, forRange fileStores.length initFreeSpace (newDisk fileStores disks) = .ok disk ∧
      InitSpec fileStores disks 0 disk := by
  rcases forRange_returns fileStores.length initFreeSpace (newDisk fileStores disks)
    (SpaceSpec fileStores disks) (SpaceSpec.start fileStores disks)
    (fun j hj disk hdisk => hdisk.step hj) with ⟨disk, hrun, hspec⟩
  refine ⟨disk, hrun, ⟨Nat.zero_le _, hspec.stores, hspec.disks_eq, ?_, ?_, ?_⟩⟩
  · intro l
    rw [hspec.map_eq]
    cases fileStores[l]? <;> rfl
  · intro i entry hentry
    rw [if_neg (Nat.not_lt_zero i)]
    exact hspec.prev i entry hentry
  · intro i entry hentry
    have hi := (List.getElem?_eq_some_iff.mp hentry).1
    rw [hspec.length_entries] at hi
    exact hspec.free i entry hi hentry

/-- One iteration of the loop over the disks, from the state that the earlier ones left. -/
theorem initDiskStore_step {fileStores : List (OSFileStore α)} {disks : List (HWDiskStore α)} {k : Nat}
    {disk after : Disk α} (h : InitSpec fileStores disks k disk) :
    initDiskStore k disk = .ok after →
      k < fileStores.length ∧ InitSpec fileStores disks (k + 1) after := by
  intro hstep
  simp only [initDiskStore, bind_eq_ok_iff, listGet_eq_ok_iff, arrayModify_eq_ok_iff,
    matchPartitions_eq, Except.ok.injEq] at hstep
  obtain ⟨hw, hhw, entries, ⟨hlen, hentries⟩, map, hmap, hafter⟩ := hstep
  obtain rfl : _ = after := Except.ok.inj hafter
  rw [h.disks_eq] at hhw
  have hbound : k < fileStores.length := by
    rw [← h.length_entries]
    exact hlen
  have hstores : entries.map (·.store) = fileStores := by
    rw [← h.stores, ← hentries]
    refine map_modify_of_same ?_ disk.entries k
    exact fun _ => rfl
  refine ⟨hbound, ⟨hbound, hstores, h.disks_eq, ?_, ?_, ?_⟩⟩
  · intro l
    have hstore : fileStores[l]? = (entries[l]?).map (·.store) := by
      rw [← hstores, List.getElem?_map]
    simp only [← hmap, h.map_eq l]
    cases hentry : entries[l]? with
    | none =>
        have hnone : fileStores[l]? = none := by rw [hstore, hentry]; rfl
        simp [hnone]
    | some entry =>
        have hsome : fileStores[l]? = some entry.store := by rw [hstore, hentry]; rfl
        have hpart : listsUuid hw.partitions entry.store.uuid = true ↔
            HasPartition disks entry.store.uuid k := by
          simp [HasPartition, hhw, listsUuid]
        simp only [hsome, Option.any_some, Option.bind_some, lastDiskBelow, hpart]
  · intro i entry hentry
    rw [← hentries, getElem?_modify, Option.map_eq_some_iff] at hentry
    obtain ⟨old, hold, rfl⟩ := hentry
    have hprev := h.prev i old hold
    by_cases hik : k = i
    · subst hik
      simp [StoreEntry.prevCounters, countersAt, hhw]
    · have hlt : i < k + 1 ↔ i < k := by omega
      rw [if_neg hik]
      simp only [hlt]
      exact hprev
  · intro i entry hentry
    rw [← hentries, getElem?_modify, Option.map_eq_some_iff] at hentry
    obtain ⟨old, hold, rfl⟩ := hentry
    have hfree := h.free i old hold
    split <;> exact hfree

/-- What holds when `initDisk` returns. -/
theorem initDisk_spec {fileStores : List (OSFileStore α)} {disks : List (HWDiskStore α)}
    {disk : Disk α} {n : Nat} (h : initDisk fileStores disks = .ok (disk, n)) :
    n = fileStores.length ∧ InitSpec fileStores disks disks.length disk := by
  obtain ⟨spaced, hspaced, hstart⟩ := initFreeSpace_loop fileStores disks
  simp only [initDisk, hspaced, bind_eq_ok_iff, Except.ok.injEq, exists_eq_left'] at h
  obtain ⟨done, hrun, hdone⟩ := h
  obtain ⟨rfl, rfl⟩ : done = disk ∧ fileStores.length = n := by
    simpa [pure, Except.pure] using hdone
  exact ⟨rfl, forRange_invariant (InitSpec fileStores disks) hstart
    (fun k _ u v hu hstep => (initDiskStore_step hu hstep).2) hrun⟩

/-- An iteration of the loop over the disks returns while there are entries left. -/
theorem initDiskStore_returns {fileStores : List (OSFileStore α)} {disks : List (HWDiskStore α)} {k : Nat}
    {disk : Disk α} (h : InitSpec fileStores disks k disk) (hk : k < disks.length)
    (hlen : k < fileStores.length) : ∃ after, initDiskStore k disk = .ok after := by
  have hget : disk.disks[k]? = some disks[k] := by
    rw [h.disks_eq]
    exact List.getElem?_eq_getElem hk
  rw [← h.length_entries] at hlen
  simp only [initDiskStore, bind_eq_ok_iff, listGet_eq_ok_iff, arrayModify_eq_ok_iff,
    matchPartitions_eq]
  exact ⟨_, disks[k], hget, _, ⟨hlen, rfl⟩, _, rfl, rfl⟩

/-- `initDisk` returns whenever there are no more disks than file stores. -/
theorem initDisk_returns (fileStores : List (OSFileStore α)) (disks : List (HWDiskStore α))
    (hsize : disks.length ≤ fileStores.length) :
    ∃ disk, initDisk fileStores disks = .ok (disk, fileStores.length) := by
  rcases initFreeSpace_loop fileStores disks with ⟨spaced, hspaced, hstart⟩
  have hbody : ∀ k < disks.length, ∀ disk, InitSpec fileStores disks k disk →
      ∃ after, initDiskStore k disk = .ok after ∧ InitSpec fileStores disks (k + 1) after := by
    intro k hk disk hdisk
    rcases initDiskStore_returns hdisk hk (hk.trans_le hsize) with ⟨after, hafter⟩
    exact ⟨after, hafter, (initDiskStore_step hdisk hafter).2⟩
  rcases forRange_returns disks.length initDiskStore spaced (InitSpec fileStores disks) hstart hbody
    with ⟨done, hrun, -⟩
  refine ⟨done, ?_⟩
  simp only [initDisk, hspaced, bind_eq_ok_iff]
  exact ⟨spaced, rfl, done, hrun, rfl⟩

/-- After `initDisk` a file store is mapped to the last disk that lists its UUID. -/
theorem initDisk_map {fileStores : List (OSFileStore α)} {disks : List (HWDiskStore α)}
    {disk : Disk α} {n : Nat} (h : initDisk fileStores disks = .ok (disk, n)) (l : Nat) :
    disk.fileStoresToDisks l = (fileStores[l]?).bind fun store => lastDisk disks store.uuid :=
  (initDisk_spec h).2.map_eq l

/-- After `initDisk` entry `i` of the `prev` arrays holds the counters of disk `i`, if there is one. -/
theorem initDisk_prev {fileStores : List (OSFileStore α)} {disks : List (HWDiskStore α)}
    {disk : Disk α} {n : Nat} (h : initDisk fileStores disks = .ok (disk, n)) {i : Nat}
    {entry : StoreEntry α} (hentry : disk.entries[i]? = some entry) :
    entry.prevCounters = countersAt disks i := by
  have hprev := (initDisk_spec h).2.prev i entry hentry
  rw [hprev]
  split
  · rfl
  · next hi => simp [countersAt, List.getElem?_eq_none (not_lt.mp hi)]

end Init

end Crum
