/-
Module: Crum.Proofs.DiskCoverage
Layer: Proofs
Purpose: When every disk poll completes. After an `initDisk` that returned, all polls complete and cover
  every file store exactly when the UUID of every file store is that of some partition. A file store
  without such a partition, a network drive say, ends the program at its first poll.
Imports: Crum.Proofs.DiskPoll, Crum.Lib.Run
Trusted boundary: none
Main exports: DiskPollInput, pollOnce, PollsCover, pollsCover_iff, unmatched_store_exits
Open obligations: none
-/
import Crum.Proofs.DiskPoll
import Crum.Lib.Run

namespace Crum

open JavaRuntime Run

variable {α : Type} [JavaLong α]

/-- What one `getDiskData` call is given: the calendar value and the samples of the hardware. -/
structure DiskPollInput (α : Type) where
  calendar : Int
  samples : Nat → StoreSamples α

/-- One call on the static fields and the table. -/
def pollOnce (serialNum : String) (state : Disk α × DiscTable α) (input : DiskPollInput α) :
    Except JavaException (Disk α × DiscTable α) := do
  let polled ← getDiskData input.calendar serialNum state.1 input.samples state.2
  return (polled.disk, polled.table)

/-- None of the keys that polls at these times insert for `n` file stores is taken. -/
def AcceptsPolls (table : DiscTable α) (n : Nat) (serialNum : String) (stamps : List Int) : Prop :=
  ∀ row ∈ table.rows, row.discId < n → row.machineId = serialNum → row.timestamp ∉ stamps

omit [JavaLong α] in
theorem AcceptsPolls.subset {table : DiscTable α} {n : Nat} {serialNum : String} {stamps some : List Int}
    (h : AcceptsPolls table n serialNum stamps) (hsub : some ⊆ stamps) :
    AcceptsPolls table n serialNum some :=
  fun row hrow hid hmachine hmem => h row hrow hid hmachine (hsub hmem)

/-- Whatever polls at distinct times follow on a table that accepts them, each of them returns and
inserts exactly one row for each `DISC_ID` in `0..n-1`. -/
def PollsCover (disk : Disk α) (n : Nat) : Prop :=
  ∀ (serialNum : String) (table : DiscTable α) (past : List (DiskPollInput α))
    (input : DiskPollInput α) (rest : List (DiskPollInput α)),
    ((past ++ input :: rest).map (·.calendar)).Nodup →
    AcceptsPolls table n serialNum ((past ++ input :: rest).map (·.calendar)) →
    ∃ before after rows, run (pollOnce serialNum) (disk, table) past = .ok before ∧
      pollOnce serialNum before input = .ok after ∧
      after.2.rows = before.2.rows ++ rows ∧
      rows.map (·.discId) = List.range n ∧
      ∀ row ∈ rows, row.timestamp = input.calendar ∧ row.machineId = serialNum

/-- The UUID of every file store is that of some partition. -/
def AllStoresMatched (fileStores : List (OSFileStore α)) (disks : List (HWDiskStore α)) : Prop :=
  ∀ store ∈ fileStores, ∃ hw ∈ disks, ∃ partition ∈ hw.partitions, partition.uuid = store.uuid

instance (fileStores : List (OSFileStore α)) (disks : List (HWDiskStore α)) :
    Decidable (AllStoresMatched fileStores disks) :=
  inferInstanceAs (Decidable (∀ store ∈ fileStores, ∃ hw ∈ disks, ∃ partition ∈ hw.partitions,
    partition.uuid = store.uuid))

omit [JavaLong α] in
theorem exists_hasPartition_iff {disks : List (HWDiskStore α)} {uuid : String} :
    (∃ j, HasPartition disks uuid j) ↔
      ∃ hw ∈ disks, ∃ partition ∈ hw.partitions, partition.uuid = uuid := by
  constructor
  · rintro ⟨j, hw, hj, hpart⟩
    exact ⟨hw, List.mem_of_getElem? hj, hpart⟩
  · rintro ⟨hw, hmem, hpart⟩
    obtain ⟨j, hj⟩ := List.getElem?_of_mem hmem
    exact ⟨j, hw, hj, hpart⟩

/-- After `initDisk` all file stores are mapped exactly when all their UUIDs were found. -/
theorem allMapped_iff {fileStores : List (OSFileStore α)} {disks : List (HWDiskStore α)}
    {disk : Disk α} {n : Nat} (h : initDisk fileStores disks = .ok (disk, n)) :
    (∀ i < n, ∃ j, disk.fileStoresToDisks i = some j) ↔ AllStoresMatched fileStores disks := by
  obtain ⟨rfl, -⟩ := initDisk_spec h
  have hlast : ∀ uuid, (∃ j, lastDisk disks uuid = some j) ↔
      ∃ hw ∈ disks, ∃ partition ∈ hw.partitions, partition.uuid = uuid := by
    intro uuid
    rw [← exists_hasPartition_iff, ← not_iff_not, not_exists, not_exists, ← lastDisk_eq_none_iff,
      Option.eq_none_iff_forall_ne_some]
  constructor
  · intro hmapped store hstore
    obtain ⟨i, hi⟩ := List.getElem?_of_mem hstore
    obtain ⟨j, hj⟩ := hmapped i (List.getElem?_eq_some_iff.mp hi).1
    rw [initDisk_map h, hi] at hj
    exact (hlast store.uuid).mp ⟨j, hj⟩
  · intro hmatched i hi
    have hget : fileStores[i]? = some fileStores[i] := List.getElem?_eq_getElem hi
    obtain ⟨j, hj⟩ := (hlast _).mpr (hmatched _ (List.getElem_mem hi))
    exact ⟨j, by rw [initDisk_map h, hget]; exact hj⟩

/-- The indices in the map are those of disks. -/
theorem initDisk_map_lt {fileStores : List (OSFileStore α)} {disks : List (HWDiskStore α)}
    {disk : Disk α} {n : Nat} (h : initDisk fileStores disks = .ok (disk, n)) {i j : Nat}
    (hij : disk.fileStoresToDisks i = some j) : j < disk.disks.length := by
  rw [initDisk_map h, Option.bind_eq_some_iff] at hij
  obtain ⟨store, -, hlast⟩ := hij
  rw [(initDisk_spec h).2.disks_eq]
  exact (lastDisk_eq_some_iff.mp hlast).1.lt_length

/-- What is kept by every poll: the map, the sizes, and that a row is old or carries a past stamp. -/
structure PollsKept (disk : Disk α) (table : DiscTable α) (past : List (DiskPollInput α))
    (state : Disk α × DiscTable α) : Prop where
  length_entries : state.1.entries.length = disk.entries.length
  length_disks : state.1.disks.length = disk.disks.length
  map_eq : state.1.fileStoresToDisks = disk.fileStoresToDisks
  rows : ∀ row ∈ state.2.rows, row ∈ table.rows ∨ row.timestamp ∈ past.map (·.calendar)

/-- A poll of a mapped configuration at a new time returns and covers every file store. -/
theorem pollOnce_covers {serialNum : String} {disk : Disk α} {table : DiscTable α}
    {past : List (DiskPollInput α)} {input : DiskPollInput α} {before : Disk α × DiscTable α}
    (hmapped : disk.AllMapped) (hkept : PollsKept disk table past before)
    (hnew : input.calendar ∉ past.map (·.calendar))
    (haccepts : AcceptsPolls table disk.entries.length serialNum [input.calendar]) :
    ∃ after rows, pollOnce serialNum before input = .ok after ∧
      after.2.rows = before.2.rows ++ rows ∧
      rows.map (·.discId) = List.range disk.entries.length ∧
      (∀ row ∈ rows, row.timestamp = input.calendar ∧ row.machineId = serialNum) ∧
      PollsKept disk table (past ++ [input]) after := by
  have hfree : ∀ row ∈ before.2.rows, row.discId < before.1.entries.length →
      row.machineId = serialNum → row.timestamp ≠ input.calendar := by
    intro row hrow hid hmachine hstamp
    rcases hkept.rows row hrow with hold | hpast
    · rw [hkept.length_entries] at hid
      exact haccepts row hold hid hmachine (by simp [hstamp])
    · exact hnew (hstamp ▸ hpast)
  obtain ⟨polled, hpolled⟩ := getDiskData_returns input.samples
    (hmapped.congr hkept.length_entries hkept.length_disks hkept.map_eq) hfree
  have hspec := getDiskData_spec hpolled
  refine ⟨(polled.disk, polled.table), polled.polled.map (·.row), ?_, hspec.rows, ?_, hspec.stamped,
    ⟨?_, ?_, ?_, ?_⟩⟩
  · simp only [pollOnce, hpolled]
    rfl
  · rw [hspec.discIds, hkept.length_entries]
  · exact hspec.length_entries.trans hkept.length_entries
  · exact hspec.length_disks.trans hkept.length_disks
  · exact hspec.map_eq.trans hkept.map_eq
  · intro row hrow
    simp only [hspec.rows, List.mem_append] at hrow
    rcases hrow with hold | hrow
    · rcases hkept.rows row hold with h | h
      · exact Or.inl h
      · exact Or.inr (by simp [h])
    · exact Or.inr (by simp [(hspec.stamped row hrow).1])

/-- Any number of polls of a mapped configuration at distinct times complete. -/
theorem polls_complete (serialNum : String) {disk : Disk α} {table : DiscTable α}
    (hmapped : disk.AllMapped) {polls : List (DiskPollInput α)}
    (hdistinct : (polls.map (·.calendar)).Nodup)
    (haccepts : AcceptsPolls table disk.entries.length serialNum (polls.map (·.calendar))) :
    ∃ after, run (pollOnce serialNum) (disk, table) polls = .ok after ∧
      PollsKept disk table polls after := by
  induction polls using List.reverseRecOn with
  | nil => exact ⟨(disk, table), rfl, rfl, rfl, rfl, fun row hrow => Or.inl hrow⟩
  | append_singleton past input ih =>
      rw [List.map_append, List.nodup_append] at hdistinct
      obtain ⟨hpast, -, hnew⟩ := hdistinct
      rw [List.map_append] at haccepts
      obtain ⟨before, hbefore, hkept⟩ := ih hpast (haccepts.subset (List.subset_append_left _ _))
      have hnew' : input.calendar ∉ past.map (·.calendar) :=
        fun hmem => hnew _ hmem input.calendar (by simp) rfl
      have hone := haccepts.subset (List.subset_append_right (past.map (·.calendar)) [input.calendar])
      obtain ⟨after, rows, hafter, -, -, -, hkept'⟩ := pollOnce_covers hmapped hkept hnew' hone
      exact ⟨after, (run_snoc _ _ _ _ _).mpr ⟨before, hbefore, hafter⟩, hkept'⟩

/-- After an `initDisk` that returned, every poll completes and covers every file store if and only if
the UUID of every file store is that of some partition. -/
theorem pollsCover_iff {fileStores : List (OSFileStore α)} {disks : List (HWDiskStore α)}
    {disk : Disk α} {n : Nat} (h : initDisk fileStores disks = .ok (disk, n)) :
    PollsCover disk n ↔ AllStoresMatched fileStores disks := by
  have hn : n = disk.entries.length := by
    rw [(initDisk_spec h).1, (initDisk_spec h).2.length_entries]
  rw [← allMapped_iff h]
  constructor
  · intro hcover i hi
    -- one poll of the empty table is enough to find the file store mapped
    let input : DiskPollInput α :=
      { calendar := 0, samples := fun _ => ⟨⟨0, 0⟩, zeroCounters, zeroCounters⟩ }
    obtain ⟨before, after, rows, hbefore, hafter, -⟩ :=
      hcover "" .empty [] input [] (by simp) (by simp [AcceptsPolls])
    obtain rfl : (disk, KeyedTable.empty) = before := by simpa using hbefore
    simp only [pollOnce, bind_eq_ok_iff] at hafter
    obtain ⟨polled, hpolled, -⟩ := hafter
    exact getDiskData_mapped hpolled (hn ▸ hi)
  · intro hmap serialNum table past input rest hdistinct haccepts
    have hmapped : disk.AllMapped := by
      intro i hi
      obtain ⟨j, hij⟩ := hmap i (hn ▸ hi)
      exact ⟨j, initDisk_map_lt h hij, hij⟩
    rw [hn] at haccepts ⊢
    rw [List.map_append, List.map_cons] at hdistinct haccepts
    obtain ⟨hpast, -, hdisjoint⟩ := List.nodup_append.mp hdistinct
    obtain ⟨before, hbefore, hkept⟩ := polls_complete serialNum hmapped hpast
      (haccepts.subset (List.subset_append_left _ _))
    have hone : AcceptsPolls table disk.entries.length serialNum [input.calendar] :=
      haccepts.subset (by simp)
    obtain ⟨after, rows, hafter, hrows, hids, hstamps, -⟩ := pollOnce_covers hmapped hkept
      (fun hmem => hdisjoint _ hmem input.calendar (by simp) rfl) hone
    exact ⟨before, after, rows, hbefore, hafter, hrows, hids, hstamps⟩

/-- A drive `C:`. -/
def storeC : OSFileStore Int64 := { uuid := "c", mount := "C:", space := ⟨0, 0⟩ }

/-- A drive `D:`. -/
def storeD : OSFileStore Int64 := { uuid := "d", mount := "D:", space := ⟨0, 0⟩ }

/-- A network drive, which is on no disk of this computer. -/
def storeN : OSFileStore Int64 := { uuid := "n", mount := "N:", space := ⟨0, 0⟩ }

/-- The disk with the partition of drive `C:`. -/
def diskC : HWDiskStore Int64 :=
  { model := "disk", partitions := [⟨"c"⟩], counters := ⟨0, 0, 0⟩ }

/-- The disk with the partition of drive `D:`, behind a recovery partition. -/
def diskD : HWDiskStore Int64 :=
  { model := "disk", partitions := [⟨"recovery"⟩, ⟨"d"⟩], counters := ⟨0, 0, 0⟩ }

/-- With two drives on two disks, found in the other order, every poll completes. -/
theorem two_stores_covered :
    ∃ disk, initDisk [storeC, storeD] [diskD, diskC] = .ok (disk, 2) ∧ PollsCover disk 2 := by
  obtain ⟨disk, hdisk⟩ := initDisk_returns [storeC, storeD] [diskD, diskC] (by decide)
  exact ⟨disk, hdisk, (pollsCover_iff hdisk).mpr (by decide)⟩

/-- With a network drive next to drive `C:` the very first poll ends in a `NullPointerException`. -/
theorem unmatched_store_exits :
    ∃ disk, initDisk [storeC, storeN] [diskC] = .ok (disk, 2) ∧
      getDiskData 0 "S" disk (fun _ => ⟨⟨0, 0⟩, ⟨0, 0, 0⟩, ⟨0, 0, 0⟩⟩) .empty =
        .error .nullPointer ∧
      ¬ PollsCover disk 2 := by
  refine ⟨_, rfl, rfl, ?_⟩
  intro hcover
  obtain ⟨before, after, rows, hbefore, hafter, -⟩ := hcover "S" .empty []
    { calendar := 0, samples := fun _ => ⟨⟨0, 0⟩, ⟨0, 0, 0⟩, ⟨0, 0, 0⟩⟩ } [] (by simp)
    (by simp [AcceptsPolls])
  obtain rfl := Except.ok.inj hbefore
  exact absurd hafter (by rintro ⟨⟩)

end Crum
