/-
Module: Crum.Proofs.DiskRun
Layer: Proofs
Purpose: Runs of completed `getDiskData` calls. Along a run the map and the sizes stay, every call has a
  report for each file store, and the baseline of a file store is what the last call read for it.
Imports: Crum.Proofs.DiskPoll
Trusted boundary: none
Main exports: DiskRun, DiskRun.spec, DiskRun.report, DiskRun.bytesAsRead, DiskRun.total_eq, pollStates
Open obligations: none
-/
import Crum.Proofs.DiskPoll

namespace Crum

/-- A run of `calls` completed calls. Call number `t` leads from `state t` to `state (t + 1)`, whose
`polled` holds its locals. -/
structure DiskRun (α : Type) [JavaLong α] where
  serialNum : String
  calls : Nat
  calendar : Nat → Int
  samples : Nat → Nat → StoreSamples α
  state : Nat → PollState α
  completed : ∀ t < calls,
    getDiskData (calendar t) serialNum (state t).disk (samples t) (state t).table = .ok (state (t + 1))

namespace DiskRun

section Frame

variable {α : Type} [JavaLong α] (run : DiskRun α)

/-- The number of file stores. -/
def size : Nat := (run.state 0).disk.entries.length

/-- `FileStoresToDisks` -/
def map : StoreMap := (run.state 0).disk.fileStoresToDisks

/-- What call number `t` reports for file store `i`. -/
def report (t i : Nat) : Option (StorePoll α) := (run.state (t + 1)).polled[i]?

/-- The rows call number `t` inserted. -/
def inserted (t : Nat) : List (DiscRow α) :=
  (run.state (t + 1)).table.rows.drop (run.state t).table.rows.length

/-- Sizes and map are those of the start. -/
theorem kept {t : Nat} (ht : t ≤ run.calls) :
    (run.state t).disk.entries.length = run.size ∧
      (run.state t).disk.disks.length = (run.state 0).disk.disks.length ∧
      (run.state t).disk.fileStoresToDisks = run.map := by
  induction t with
  | zero => exact ⟨rfl, rfl, rfl⟩
  | succ t ih =>
      rcases ih (Nat.le_of_succ_le ht) with ⟨hentries, hdisks, hmap⟩
      have hspec := getDiskData_spec (run.completed t ht)
      exact ⟨hspec.length_entries.trans hentries, hspec.length_disks.trans hdisks,
        hspec.map_eq.trans hmap⟩

/-- What call number `t` has done. -/
theorem spec {t : Nat} (ht : t < run.calls) :
    PollSpec (run.calendar t) run.serialNum (run.state t).disk (run.state t).table run.size
      (run.state (t + 1)) := by
  have hspec := getDiskData_spec (run.completed t ht)
  rw [(run.kept ht.le).1] at hspec
  exact hspec

/-- Every call reports on every file store. -/
theorem exists_report {t i : Nat} (ht : t < run.calls) (hi : i < run.size) :
    ∃ poll, run.report t i = some poll := by
  have hlength : i < (run.state (t + 1)).polled.length := by
    rw [(run.spec ht).length_polled]
    exact hi
  exact ⟨_, List.getElem?_eq_getElem hlength⟩

/-- The rows of a call are those of its reports. -/
theorem inserted_eq {t : Nat} (ht : t < run.calls) :
    run.inserted t = (run.state (t + 1)).polled.map (·.row) := by
  rw [inserted, (run.spec ht).rows, List.drop_left]

/-- The row of a report is the one under its `DISC_ID`. -/
theorem inserted_report {t i : Nat} (ht : t < run.calls) {poll : StorePoll α}
    (hpoll : run.report t i = some poll) :
    (run.inserted t)[i]? = some poll.row ∧ poll.row.discId = i := by
  constructor
  · rw [run.inserted_eq ht, List.getElem?_map]
    rw [report] at hpoll
    rw [hpoll]
    rfl
  · exact ((run.spec ht).done i poll hpoll).1

/-- The disk a report was taken from is the one the file store is mapped to. -/
theorem report_diskIndex {t i d : Nat} (ht : t < run.calls) {poll : StorePoll α}
    (hpoll : run.report t i = some poll) (hmap : run.map i = some d) : poll.diskIndex = d := by
  rcases (run.spec ht).done i poll hpoll with ⟨-, -, -, hindex, -⟩
  rw [(run.kept ht.le).2.2, hmap] at hindex
  exact (Option.some.inj hindex).symm

/-- The counters of a report are those its disk showed at that point of the call. -/
theorem report_shown {t i : Nat} (ht : t < run.calls) {poll : StorePoll α}
    (hpoll : run.report t i = some poll) :
    shown (run.state t).disk (run.samples t) i poll.diskIndex = some poll.counters :=
  (getDiskData_shown (run.completed t ht)).read i poll hpoll

/-- The row of a report carries the stamp of its call. -/
theorem report_timestamp {t i : Nat} (ht : t < run.calls) {poll : StorePoll α}
    (hpoll : run.report t i = some poll) : poll.row.timestamp = run.calendar t := by
  rcases (run.spec ht).done i poll hpoll with ⟨-, -, hstamp, -⟩
  exact hstamp

/-- Before the next call the entry of a file store holds the counters of its last report. -/
theorem prev_of_report {t i : Nat} (ht : t < run.calls) {poll : StorePoll α}
    (hpoll : run.report t i = some poll) :
    ∃ entry, (run.state (t + 1)).disk.entries[i]? = some entry ∧ entry.prevCounters = poll.counters := by
  rcases (run.spec ht).done i poll hpoll with ⟨-, -, -, -, -, -, entry, -, hentry, -, hprev⟩
  exact ⟨entry, hentry, hprev⟩

end Frame

section Bytes

variable {α : Type} [LawfulJavaLong α] (run : DiskRun α)

/-- Read plus written bytes of the disk of file store `i`, as read for it in poll `m`; for `m = 0` what
its entry starts with. -/
def bytesAsRead (i : Nat) : Nat → α
  | 0 => (((run.state 0).disk.entries[i]?).map fun entry =>
      entry.prevBytesRead + entry.prevBytesWritten).getD 0
  | t + 1 => ((run.report t i).map fun poll =>
      poll.counters.readBytes + poll.counters.writeBytes).getD 0

/-- `totalBytesPerSec` of file store `i` in poll `t + 1`. -/
def total (i t : Nat) : α := ((run.report t i).map (·.totalBytesPerSec)).getD 0

/-- `DISC_SPEED` of the row that poll `t + 1` inserted for file store `i`. -/
def speed (i t : Nat) : α := (((run.inserted t)[i]?).map (·.discSpeed)).getD 0

/-- The stored speed is the difference in kilobytes. -/
theorem speed_eq {i t : Nat} (hi : i < run.size) (ht : t < run.calls) :
    run.speed i t = JavaLong.quot (run.total i t) (JavaLong.lit 1024) := by
  rcases run.exists_report ht hi with ⟨poll, hpoll⟩
  rcases run.inserted_report ht hpoll with ⟨hrow, -⟩
  rcases (run.spec ht).done i poll hpoll with ⟨-, -, -, -, hspeed, -⟩
  simp only [speed, hrow, Option.map_some, Option.getD_some, hspeed, total, hpoll]

/-- The invariant of a run: the entry of a file store holds the bytes that were last read for it. -/
theorem prevBytes_eq {i t : Nat} (hi : i < run.size) (ht : t ≤ run.calls) :
    ∃ entry, (run.state t).disk.entries[i]? = some entry ∧
      entry.prevBytesRead + entry.prevBytesWritten = run.bytesAsRead i t := by
  cases t with
  | zero =>
      have hentry : (run.state 0).disk.entries[i]? = some _ := List.getElem?_eq_getElem hi
      refine ⟨_, hentry, ?_⟩
      simp [bytesAsRead, hentry]
  | succ t =>
      rcases run.exists_report ht hi with ⟨poll, hpoll⟩
      rcases run.prev_of_report ht hpoll with ⟨entry, hentry, hprev⟩
      have hread : entry.prevBytesRead = poll.counters.readBytes := congrArg (·.readBytes) hprev
      have hwrite : entry.prevBytesWritten = poll.counters.writeBytes := congrArg (·.writeBytes) hprev
      refine ⟨entry, hentry, ?_⟩
      simp [bytesAsRead, hpoll, hread, hwrite]

/-- The difference of a poll is what was read for the file store minus what was read for it before. -/
theorem total_eq {i t : Nat} (hi : i < run.size) (ht : t < run.calls) :
    run.total i t = run.bytesAsRead i (t + 1) - run.bytesAsRead i t := by
  rcases run.exists_report ht hi with ⟨poll, hpoll⟩
  rcases run.prevBytes_eq hi ht.le with ⟨entry, hentry, hprev⟩
  have htotal := (run.spec ht).total_eq hpoll hentry
  rw [hprev] at htotal
  simp [total, bytesAsRead, hpoll, htotal]

end Bytes

end DiskRun

/-- The states of polls at times 0, 1, 2, ...; a poll that failed would repeat its state. -/
def pollStates {α : Type} [JavaLong α] (serialNum : String) (start : PollState α)
    (samples : Nat → Nat → StoreSamples α) : Nat → PollState α
  | 0 => start
  | t + 1 =>
      let state := pollStates serialNum start samples t
      match getDiskData t serialNum state.disk (samples t) state.table with
      | .ok after => after
      | .error _ => state

end Crum
