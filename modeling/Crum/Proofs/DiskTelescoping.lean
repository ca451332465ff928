/-
Module: Crum.Proofs.DiskTelescoping
Layer: Proofs
Purpose: The byte accounting of a file store over a run of polls. Whoever else refreshes its disk, the
  differences of a file store add up to what was read for it at the end minus what was read for it at the
  start, because the baseline of a poll is the reading of the poll before it. The stored speeds lose less
  than one kilobyte in each poll.
Imports: Crum.Proofs.DiskRun
Trusted boundary: none
Main exports: Telescopes, telescopes, telescopes_on_shared_disk
Open obligations: none
-/
import Crum.Proofs.DiskRun

namespace Crum

/-- The accounting law of file store `i` on disk `d`. -/
structure Telescopes (run : DiskRun Int) (i d : Nat) : Prop where
  -- every poll reads what disk `d` then shows for this file store and inserts its row
  reported : ∀ t < run.calls, ∃ poll, run.report t i = some poll ∧ poll.diskIndex = d ∧
    shown (run.state t).disk (run.samples t) i d = some poll.counters ∧
    (run.inserted t)[i]? = some poll.row ∧ poll.row.discId = i
  bytes : ∀ k m, k ≤ m → m ≤ run.calls →
    ∑ t ∈ Finset.Ico k m, run.total i t = run.bytesAsRead i m - run.bytesAsRead i k
  speeds : ∀ k m, k ≤ m → m ≤ run.calls →
    |∑ t ∈ Finset.Ico k m, 1024 * run.speed i t - (run.bytesAsRead i m - run.bytesAsRead i k)| ≤
      1023 * (m - k : Nat)
  -- processing another file store, from whatever state, leaves the three counters of this entry alone
  frame : ∀ calendar serialNum samples j (state after : PollState Int), j ≠ i →
    pollStore calendar serialNum samples j state = .ok after →
    (after.disk.entries[i]?).map StoreEntry.prevCounters =
      (state.disk.entries[i]?).map StoreEntry.prevCounters

namespace DiskRun

variable (run : DiskRun Int)

theorem sum_total {i k m : Nat} (hi : i < run.size) (hkm : k ≤ m) (hm : m ≤ run.calls) :
    ∑ t ∈ Finset.Ico k m, run.total i t = run.bytesAsRead i m - run.bytesAsRead i k := by
  calc
    ∑ t ∈ Finset.Ico k m, run.total i t
        = ∑ t ∈ Finset.Ico k m, (run.bytesAsRead i (t + 1) - run.bytesAsRead i t) := by
          apply Finset.sum_congr rfl
          intro t ht
          rw [Finset.mem_Ico] at ht
          exact run.total_eq hi (ht.2.trans_le hm)
    _ = run.bytesAsRead i m - run.bytesAsRead i k := Finset.sum_Ico_sub _ hkm

/-- A stored speed is the difference of its poll in kilobytes, less than one of which is lost. -/
theorem speed_bound {i t : Nat} (hi : i < run.size) (ht : t < run.calls) :
    |1024 * run.speed i t - run.total i t| ≤ 1023 := by
  rw [run.speed_eq hi ht]
  exact JavaLong.quot_bound (run.total i t) (by norm_num)

theorem sum_speed_bound {i k m : Nat} (hi : i < run.size) (hkm : k ≤ m) (hm : m ≤ run.calls) :
    |∑ t ∈ Finset.Ico k m, 1024 * run.speed i t - (run.bytesAsRead i m - run.bytesAsRead i k)| ≤
      1023 * (m - k : Nat) := by
  rw [← run.sum_total hi hkm hm, ← Finset.sum_sub_distrib]
  calc
    |∑ t ∈ Finset.Ico k m, (1024 * run.speed i t - run.total i t)|
        ≤ ∑ t ∈ Finset.Ico k m, |1024 * run.speed i t - run.total i t| :=
          Finset.abs_sum_le_sum_abs _ _
    _ ≤ ∑ _t ∈ Finset.Ico k m, (1023 : Int) := by
          apply Finset.sum_le_sum
          intro t ht
          rw [Finset.mem_Ico] at ht
          exact run.speed_bound hi (ht.2.trans_le hm)
    _ = 1023 * (m - k : Nat) := by
          rw [Finset.sum_const, Nat.card_Ico, nsmul_eq_mul, mul_comm]

end DiskRun

/-- In every run the differences of a mapped file store telescope, however its disk is shared. -/
theorem telescopes (run : DiskRun Int) {i d : Nat} (hi : i < run.size) (hmap : run.map i = some d) :
    Telescopes run i d where
  reported t ht := by
    rcases run.exists_report ht hi with ⟨poll, hpoll⟩
    rcases run.inserted_report ht hpoll with ⟨hrow, hid⟩
    have hindex := run.report_diskIndex ht hpoll hmap
    exact ⟨poll, hpoll, hindex, hindex ▸ run.report_shown ht hpoll, hrow, hid⟩
  bytes _ _ := run.sum_total hi
  speeds _ _ := run.sum_speed_bound hi
  frame calendar serialNum samples j state after hji hstep := by
    rw [pollStore_frame hstep hji.symm]

/-- Two partitions of one disk, the counters of which move within each poll as well. -/
def sharedStart : PollState Int where
  disk :=
    { entries := [newEntry { uuid := "c", mount := "C:", space := ⟨0, 0⟩ },
        newEntry { uuid := "d", mount := "D:", space := ⟨0, 0⟩ }]
      disks := [{ model := "disk", partitions := [⟨"c"⟩, ⟨"d"⟩], counters := ⟨0, 5000, 100⟩ }]
      fileStoresToDisks := fun i => if i < 2 then some 0 else none }
  table := .empty
  polled := []

/-- What the refreshes during polls 1 and 2 deliver. -/
def sharedSamples (t i : Nat) : StoreSamples Int where
  space := ⟨0, 0⟩
  first := ⟨0, 6000 + 3000 * t + 700 * i, 100⟩
  second := ⟨0, 6100 + 3000 * t + 700 * i, 100⟩

def sharedRun : DiskRun Int where
  serialNum := "S"
  calls := 2
  calendar t := t
  samples := sharedSamples
  state := pollStates "S" sharedStart sharedSamples
  completed := by
    intro t ht
    interval_cases t
    · rfl
    · rfl

/-- The second file store of a shared disk over two polls. -/
theorem telescopes_on_shared_disk :
    Telescopes sharedRun 1 0 ∧
      (List.range 2).map (sharedRun.total 1) = [6200, 3000] ∧
      (List.range 2).map (sharedRun.speed 1) = [6, 2] :=
  ⟨telescopes sharedRun (by decide) rfl, by decide, by decide⟩

end Crum
