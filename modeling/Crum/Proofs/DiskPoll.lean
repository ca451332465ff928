/-
Module: Crum.Proofs.DiskPoll
Layer: Proofs
Purpose: What one call of `getDiskData` does. `pollStore_eq_ok_iff` says everything an iteration of its
  loop can do; `PollSpec` collects what a call that returns has done: one row for each file store, in
  order, under one stamp, and in every entry the counters its difference was taken from.
Imports: Crum.Core.Disk
Trusted boundary: none
Main exports: stateAfter, pollStore_eq_ok_iff, PollSpec, getDiskData_spec, shown, getDiskData_shown
Open obligations: none
-/
import Crum.Proofs.DiskInit

namespace Crum

open JavaRuntime

variable {α : Type} [JavaLong α]

/-! ### One iteration -/

/-- The state after iteration `i`, which found disk `j` in the state `currDisk` and inserted into
`table`. -/
def stateAfter (samples : StoreSamples α) (i j : Nat) (currDisk : HWDiskStore α)
    (poll : StorePoll α) (table : DiscTable α) (state : PollState α) : PollState α where
  disk :=
    { state.disk with
      entries := state.disk.entries.modify i fun entry => entry.afterPoll samples currDisk.counters
      disks := state.disk.disks.set j
        ((currDisk.updateAttributes samples.first).updateAttributes samples.second) }
  table := table
  polled := state.polled ++ [poll]

/-- Everything an iteration that returns can have done: the file store is mapped to a disk that exists,
the key of the row was free, and the state is updated accordingly. -/
theorem pollStore_eq_ok_iff {calendar : Int} {serialNum : String} {samples : Nat → StoreSamples α}
    {i : Nat} {state after : PollState α} :
    pollStore calendar serialNum samples i state = .ok after ↔
      ∃ entry j currDisk poll table,
        state.disk.entries[i]? = some entry ∧
        state.disk.fileStoresToDisks i = some j ∧
        state.disk.disks[j]? = some currDisk ∧
        poll = measureStore calendar serialNum (samples i) i j entry currDisk ∧
        poll.row.key ∉ state.table.rows.map DiscRow.key ∧
        table.rows = state.table.rows ++ [poll.row] ∧
        after = stateAfter (samples i) i j currDisk poll table state := by
  simp only [pollStore, bind_eq_ok_iff, listGet_eq_ok_iff, unbox_eq_ok_iff, arrayModify_eq_ok_iff,
    execute_eq_ok_iff]
  constructor
  · rintro ⟨entry, hentry, j, hj, currDisk, hdisk, entries, ⟨-, rfl⟩, table, ⟨hkey, hrows⟩, hafter⟩
    exact ⟨entry, j, currDisk, _, table, hentry, hj, hdisk, rfl, hkey, hrows,
      (Except.ok.inj hafter).symm⟩
  · rintro ⟨entry, j, currDisk, poll, table, hentry, hj, hdisk, rfl, hkey, hrows, rfl⟩
    have hi : i < state.disk.entries.length := (List.getElem?_eq_some_iff.mp hentry).1
    exact ⟨entry, hentry, j, hj, currDisk, hdisk, _, ⟨hi, rfl⟩, table, ⟨hkey, hrows⟩, rfl⟩

/-- Polling one file store leaves the entries of all others, the map and the number of disks alone. -/
theorem pollStore_frame {calendar : Int} {serialNum : String} {samples : Nat → StoreSamples α}
    {k : Nat} {state after : PollState α}
    (h : pollStore calendar serialNum samples k state = .ok after) {i : Nat} (hik : i ≠ k) :
    after.disk.entries[i]? = state.disk.entries[i]? := by
  obtain ⟨entry, j, currDisk, poll, table, -, -, -, -, -, -, rfl⟩ := pollStore_eq_ok_iff.mp h
  simp only [stateAfter]
  rw [getElem?_modify]
  simp [Ne.symm hik]

/-! ### A whole call -/

/-- What holds between the state `disk`, `table` before a call and the state after its first `k`
iterations. -/
structure PollSpec (calendar : Int) (serialNum : String) (disk : Disk α) (table : DiscTable α)
    (k : Nat) (state : PollState α) : Prop where
  length_entries : state.disk.entries.length = disk.entries.length
  length_disks : state.disk.disks.length = disk.disks.length
  map_eq : state.disk.fileStoresToDisks = disk.fileStoresToDisks
  rows : state.table.rows = table.rows ++ state.polled.map (·.row)
  length_polled : state.polled.length = k
  todo : ∀ i, k ≤ i → state.disk.entries[i]? = disk.entries[i]?
  done : ∀ (i : Nat) poll, state.polled[i]? = some poll →
    poll.row.discId = i ∧ poll.row.machineId = serialNum ∧ poll.row.timestamp = calendar ∧
    disk.fileStoresToDisks i = some poll.diskIndex ∧
    poll.row.discSpeed = JavaLong.quot poll.totalBytesPerSec (JavaLong.lit 1024) ∧
    ∃ before after, disk.entries[i]? = some before ∧ state.disk.entries[i]? = some after ∧
      poll.totalBytesPerSec =
        (poll.counters.writeBytes - before.prevBytesWritten) +
          (poll.counters.readBytes - before.prevBytesRead) ∧
      after.prevCounters = poll.counters

theorem PollSpec.start (calendar : Int) (serialNum : String) (disk : Disk α) (table : DiscTable α) :
    PollSpec calendar serialNum disk table 0 { disk := disk, table := table, polled := [] } where
  length_entries := rfl
  length_disks := rfl
  map_eq := rfl
  rows := by simp
  length_polled := rfl
  todo _ _ := rfl
  done i poll h := by simp at h

/-- One iteration extends the specification by one file store. -/
theorem PollSpec.step {calendar : Int} {serialNum : String} {samples : Nat → StoreSamples α}
    {disk : Disk α} {table : DiscTable α} {k : Nat} {state after : PollState α}
    (h : PollSpec calendar serialNum disk table k state)
    (hstep : pollStore calendar serialNum samples k state = .ok after) :
    PollSpec calendar serialNum disk table (k + 1) after := by
  have hframe := fun (i : Nat) (hik : i ≠ k) => pollStore_frame hstep hik
  obtain ⟨entry, j, currDisk, poll, inserted, hentry, hj, -, hpoll, -, hrows, rfl⟩ :=
    pollStore_eq_ok_iff.mp hstep
  have hentry' : disk.entries[k]? = some entry := by rw [← h.todo k (by omega), hentry]
  refine ⟨?_, ?_, h.map_eq, ?_, ?_, ?_, ?_⟩
  · simpa [stateAfter] using h.length_entries
  · simpa [stateAfter] using h.length_disks
  · simp [stateAfter, hrows, h.rows]
  · simp [stateAfter, h.length_polled]
  · intro i hi
    rw [hframe i (by omega), h.todo i (by omega)]
  · intro i p hp
    rcases getElem?_concat_or hp with hp | ⟨hik, hlast⟩
    · -- an earlier file store, whose entry the iteration has not touched
      have hlt : i < state.polled.length := (List.getElem?_eq_some_iff.mp hp).1
      have hik : i ≠ k := (h.length_polled ▸ hlt).ne
      obtain ⟨hid, hmachine, hstamp, hmap, hspeed, before, mid, hbefore, hmid, htotal, hprev⟩ :=
        h.done i p hp
      exact ⟨hid, hmachine, hstamp, hmap, hspeed, before, mid, hbefore,
        (hframe i hik).trans hmid, htotal, hprev⟩
    · -- the file store that was just polled
      rw [h.length_polled] at hik
      subst hik
      rw [hlast, hpoll]
      refine ⟨rfl, rfl, rfl, ?_, rfl, entry, entry.afterPoll (samples i) currDisk.counters, hentry',
        ?_, rfl, rfl⟩
      · rw [← h.map_eq, hj]
        rfl
      · simp only [stateAfter]
        rw [getElem?_modify, hentry]
        simp

/-- What a call that returns has done. -/
theorem getDiskData_spec {calendar : Int} {serialNum : String} {disk : Disk α}
    {samples : Nat → StoreSamples α} {table : DiscTable α} {after : PollState α}
    (h : getDiskData calendar serialNum disk samples table = .ok after) :
    PollSpec calendar serialNum disk table disk.entries.length after :=
  forRange_invariant (PollSpec calendar serialNum disk table)
    (PollSpec.start calendar serialNum disk table) (fun _ _ _ _ hu hstep => hu.step hstep) h

/-- The rows of a call are one for each file store, in order. -/
theorem PollSpec.discIds {calendar : Int} {serialNum : String} {disk : Disk α} {table : DiscTable α}
    {k : Nat} {state : PollState α} (h : PollSpec calendar serialNum disk table k state) :
    (state.polled.map (·.row)).map (·.discId) = List.range k := by
  apply List.ext_getElem?
  intro i
  by_cases hi : i < k
  · have hlength : i < state.polled.length := by
      rw [h.length_polled]
      exact hi
    have hget : state.polled[i]? = some state.polled[i] := List.getElem?_eq_getElem hlength
    simp [hget, (h.done i _ hget).1, List.getElem?_range hi]
  · have hnone : state.polled[i]? = none := List.getElem?_eq_none (by rw [h.length_polled]; omega)
    have hrange : (List.range k)[i]? = none := List.getElem?_eq_none (by simpa using hi)
    simp [hnone, hrange]

/-- All rows of a call carry its stamp and the serial number. -/
theorem PollSpec.stamped {calendar : Int} {serialNum : String} {disk : Disk α} {table : DiscTable α}
    {k : Nat} {state : PollState α} (h : PollSpec calendar serialNum disk table k state) :
    ∀ row ∈ state.polled.map (·.row), row.timestamp = calendar ∧ row.machineId = serialNum := by
  intro row hrow
  obtain ⟨poll, hpoll, rfl⟩ := List.mem_map.mp hrow
  obtain ⟨i, hi⟩ := List.getElem?_of_mem hpoll
  obtain ⟨-, hmachine, hstamp, -⟩ := h.done i poll hi
  exact ⟨hstamp, hmachine⟩

/-! ### What the disks show during a call -/

/-- The counters that disk `d` shows before iteration `k`: those of its last refresh by an earlier
iteration, else those from before the call. -/
def shown (disk : Disk α) (samples : Nat → StoreSamples α) : Nat → Nat → Option (DiskCounters α)
  | 0, d => (disk.disks[d]?).map (·.counters)
  | k + 1, d =>
      if disk.fileStoresToDisks k = some d then some (samples k).second else shown disk samples k d

/-- After `k` iterations the disks show these counters, and every file store so far has read the counters
its disk showed before it. -/
structure ShownSoFar (disk : Disk α) (samples : Nat → StoreSamples α) (k : Nat)
    (state : PollState α) : Prop where
  map_eq : state.disk.fileStoresToDisks = disk.fileStoresToDisks
  length_polled : state.polled.length = k
  cached : ∀ d, (state.disk.disks[d]?).map (·.counters) = shown disk samples k d
  read : ∀ (i : Nat) poll, state.polled[i]? = some poll →
    shown disk samples i poll.diskIndex = some poll.counters

theorem ShownSoFar.step {calendar : Int} {serialNum : String} {disk : Disk α}
    {samples : Nat → StoreSamples α} {k : Nat} {state after : PollState α}
    (h : ShownSoFar disk samples k state)
    (hstep : pollStore calendar serialNum samples k state = .ok after) :
    ShownSoFar disk samples (k + 1) after := by
  rcases pollStore_eq_ok_iff.mp hstep with
    ⟨entry, j, currDisk, poll, inserted, -, hj, hdisk, rfl, -, -, rfl⟩
  have hlt : j < state.disk.disks.length := (List.getElem?_eq_some_iff.mp hdisk).1
  refine ⟨h.map_eq, ?_, ?_, ?_⟩
  · simp [stateAfter, h.length_polled]
  · intro d
    rw [shown, ← h.map_eq, hj, ← h.cached d]
    simp only [stateAfter, Option.some.injEq]
    by_cases hjd : j = d
    · subst hjd
      rw [List.getElem?_set_self hlt, if_pos rfl]
      rfl
    · rw [List.getElem?_set_ne hjd, if_neg hjd]
  · intro i p hp
    rcases getElem?_concat_or hp with hp | ⟨hik, hlast⟩
    · exact h.read i p hp
    · rw [h.length_polled] at hik
      subst hik
      have hcached := h.cached j
      rw [hdisk] at hcached
      rw [hlast]
      exact hcached.symm

/-- A whole call. -/
theorem getDiskData_shown {calendar : Int} {serialNum : String} {disk : Disk α}
    {samples : Nat → StoreSamples α} {table : DiscTable α} {after : PollState α}
    (h : getDiskData calendar serialNum disk samples table = .ok after) :
    ShownSoFar disk samples disk.entries.length after :=
  forRange_invariant (ShownSoFar disk samples) ⟨rfl, rfl, fun _ => rfl, by simp⟩
    (fun _ _ _ _ hstate hstep => hstate.step hstep) h

/-! ### When a call returns -/

/-- Every file store is mapped to a disk that exists. -/
def Disk.AllMapped (disk : Disk α) : Prop :=
  ∀ i < disk.entries.length, ∃ j < disk.disks.length, disk.fileStoresToDisks i = some j

omit [JavaLong α] in
theorem Disk.AllMapped.congr {disk disk' : Disk α} (h : disk.AllMapped)
    (hentries : disk'.entries.length = disk.entries.length)
    (hdisks : disk'.disks.length = disk.disks.length)
    (hmap : disk'.fileStoresToDisks = disk.fileStoresToDisks) : disk'.AllMapped := by
  intro i hi
  rw [hentries] at hi
  obtain ⟨j, hj, hij⟩ := h i hi
  exact ⟨j, by rw [hdisks]; exact hj, by rw [hmap]; exact hij⟩

/-- The key of the next row is free: old rows differ in stamp or machine, those of the call in `DISC_ID`. -/
theorem PollSpec.key_free {calendar : Int} {serialNum : String} {disk : Disk α} {table : DiscTable α}
    {k : Nat} {state : PollState α} (h : PollSpec calendar serialNum disk table k state)
    (hfree : ∀ row ∈ table.rows, row.discId = k → row.machineId = serialNum → row.timestamp ≠ calendar) :
    (k, serialNum, calendar) ∉ state.table.rows.map DiscRow.key := by
  intro hmem
  rcases List.mem_map.mp hmem with ⟨row, hrow, hkey⟩
  have hid : row.discId = k := congrArg Prod.fst hkey
  have hmachine : row.machineId = serialNum := congrArg (·.2.1) hkey
  have hstamp : row.timestamp = calendar := congrArg (·.2.2) hkey
  rw [h.rows, List.mem_append] at hrow
  rcases hrow with hold | hnew
  · exact hfree row hold hid hmachine hstamp
  · have hrange : row.discId ∈ (state.polled.map (·.row)).map (·.discId) := List.mem_map_of_mem hnew
    rw [h.discIds, List.mem_range, hid] at hrange
    exact lt_irrefl _ hrange

/-- An iteration returns if its file store is mapped to a disk and its key is free. -/
theorem pollStore_returns {calendar : Int} {serialNum : String} (samples : Nat → StoreSamples α)
    {i j : Nat} {state : PollState α} (hi : i < state.disk.entries.length)
    (hmap : state.disk.fileStoresToDisks i = some j) (hj : j < state.disk.disks.length)
    (hkey : (i, serialNum, calendar) ∉ state.table.rows.map DiscRow.key) :
    ∃ after, pollStore calendar serialNum samples i state = .ok after := by
  let poll := measureStore calendar serialNum (samples i) i j state.disk.entries[i] state.disk.disks[j]
  have hnew : poll.row.key ∉ state.table.rows.map DiscRow.key := hkey
  rcases KeyedTable.insert_of_notMem hnew with ⟨inserted, hinsert⟩
  rcases KeyedTable.insert_eq_some_iff.mp hinsert with ⟨-, hrows⟩
  exact ⟨_, pollStore_eq_ok_iff.mpr ⟨_, j, _, poll, inserted, List.getElem?_eq_getElem hi, hmap,
    List.getElem?_eq_getElem hj, rfl, hnew, hrows, rfl⟩⟩

/-- A call returns if every file store is mapped and none of the keys it inserts is taken. -/
theorem getDiskData_returns {calendar : Int} {serialNum : String} {disk : Disk α}
    (samples : Nat → StoreSamples α) {table : DiscTable α} (hmapped : disk.AllMapped)
    (hfree : ∀ row ∈ table.rows, row.discId < disk.entries.length → row.machineId = serialNum →
      row.timestamp ≠ calendar) :
    ∃ after, getDiskData calendar serialNum disk samples table = .ok after := by
  have hbody : ∀ i < disk.entries.length, ∀ state, PollSpec calendar serialNum disk table i state →
      ∃ after, pollStore calendar serialNum samples i state = .ok after ∧
        PollSpec calendar serialNum disk table (i + 1) after := by
    intro i hi state hstate
    have hi' : i < state.disk.entries.length := by
      rw [hstate.length_entries]
      exact hi
    rcases hmapped.congr hstate.length_entries hstate.length_disks hstate.map_eq i hi' with ⟨j, hj, hij⟩
    have hkey := hstate.key_free fun row hrow hid => hfree row hrow (hid ▸ hi)
    rcases pollStore_returns samples hi' hij hj hkey with ⟨after, hstep⟩
    exact ⟨after, hstep, hstate.step hstep⟩
  rcases forRange_returns disk.entries.length (pollStore calendar serialNum samples)
    { disk := disk, table := table, polled := [] } (PollSpec calendar serialNum disk table)
    (PollSpec.start calendar serialNum disk table) hbody with ⟨after, hafter, -⟩
  exact ⟨after, hafter⟩

/-- A call that returns has found every file store mapped. -/
theorem getDiskData_mapped {calendar : Int} {serialNum : String} {disk : Disk α}
    {samples : Nat → StoreSamples α} {table : DiscTable α} {after : PollState α}
    (h : getDiskData calendar serialNum disk samples table = .ok after) {i : Nat}
    (hi : i < disk.entries.length) : ∃ j, disk.fileStoresToDisks i = some j := by
  have hspec := getDiskData_spec h
  have hlength : i < after.polled.length := by
    rw [hspec.length_polled]
    exact hi
  have hget : after.polled[i]? = some after.polled[i] := List.getElem?_eq_getElem hlength
  exact ⟨_, (hspec.done i _ hget).2.2.2.1⟩

/-! ### The difference in one sum -/

section Lawful

variable {α : Type} [LawfulJavaLong α]

/-- With regrouping of sums allowed, the difference is taken from the entry before the call. -/
theorem PollSpec.total_eq {calendar : Int} {serialNum : String} {disk : Disk α}
    {table : DiscTable α} {k : Nat} {state : PollState α}
    (hspec : PollSpec calendar serialNum disk table k state) {i : Nat} {poll : StorePoll α}
    (hpoll : state.polled[i]? = some poll) {entry : StoreEntry α}
    (hentry : disk.entries[i]? = some entry) :
    poll.totalBytesPerSec = (poll.counters.readBytes + poll.counters.writeBytes) -
      (entry.prevBytesRead + entry.prevBytesWritten) := by
  obtain ⟨-, -, -, -, -, before, -, hbefore, -, htotal, -⟩ := hspec.done i poll hpoll
  obtain rfl : entry = before := Option.some.inj (hentry.symm.trans hbefore)
  rw [htotal]
  abel

end Lawful

end Crum
