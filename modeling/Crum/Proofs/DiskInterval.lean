/-
Module: Crum.Proofs.DiskInterval
Layer: Proofs
Purpose: Which interval a disk row describes, when the hardware counters change only between polls. The
  first file store of a disk reads what the poll before has cached, the later ones what the first one has
  refreshed. The rows of a poll therefore describe the interval that ends with it exactly when each disk
  transferred as much in that interval as in the one before.
Imports: Crum.Proofs.DiskRun
Trusted boundary: none
Main exports: SteadyWithinPolls, seen, counters_seen, IntervalsReported, EqualIntervals,
  intervalsReported_iff, burst_is_reported_late
Open obligations: none
-/
import Crum.Proofs.DiskRun

namespace Crum

open JavaRuntime

/-- Read plus written bytes. -/
def DiskCounters.bytes {α : Type} [JavaLong α] (counters : DiskCounters α) : α :=
  counters.readBytes + counters.writeBytes

section Seen

variable {α : Type}

/-- The counters that file store `i` of disk `d` reads in a poll, the disk being at `old` before it and
at `new` since: they are new only if an earlier file store has refreshed the disk. -/
def seen (map : StoreMap) (old new : Nat → DiskCounters α) (i d : Nat) : DiskCounters α :=
  if ∃ i' < i, map i' = some d then new d else old d

theorem seen_zero (map : StoreMap) (old new : Nat → DiskCounters α) (d : Nat) :
    seen map old new 0 d = old d := by
  simp [seen]

theorem seen_of_refreshed {map : StoreMap} {i i' d : Nat} (old new : Nat → DiskCounters α)
    (hi : i' < i) (hmap : map i' = some d) : seen map old new i d = new d := by
  rw [seen, if_pos ⟨i', hi, hmap⟩]

theorem seen_of_first {map : StoreMap} {i d : Nat} (old new : Nat → DiskCounters α)
    (hfirst : ∀ i' < i, map i' ≠ some d) : seen map old new i d = old d := by
  rw [seen, if_neg]
  rintro ⟨i', hi, hmap⟩
  exact hfirst i' hi hmap

theorem seen_succ_of_ne {map : StoreMap} {i d : Nat} (old new : Nat → DiskCounters α)
    (hne : map i ≠ some d) : seen map old new (i + 1) d = seen map old new i d := by
  have hiff : (∃ i' < i + 1, map i' = some d) ↔ ∃ i' < i, map i' = some d := by
    constructor
    · rintro ⟨i', hi, hmap⟩
      rcases Nat.lt_succ_iff_lt_or_eq.mp hi with hlt | rfl
      · exact ⟨i', hlt, hmap⟩
      · exact absurd hmap hne
    · rintro ⟨i', hi, hmap⟩
      exact ⟨i', Nat.lt_succ_of_lt hi, hmap⟩
  simp only [seen, hiff]

end Seen

variable {α : Type} [LawfulJavaLong α]

/-! ### One poll -/

/-- Every refresh in a poll delivers the `new` counters of its disk. -/
def Delivers (samples : Nat → StoreSamples α) (map : StoreMap) (new : Nat → DiskCounters α) : Prop :=
  ∀ i d, map i = some d → (samples i).first = new d ∧ (samples i).second = new d

/-- The disks that file stores are on show what `seen` says about iteration `k`. -/
def Caches (disk : Disk α) (old new : Nat → DiskCounters α) (k : Nat) : Prop :=
  ∀ (d : Nat) hw, disk.disks[d]? = some hw →
    (∃ i < disk.entries.length, disk.fileStoresToDisks i = some d) →
    hw.counters = seen disk.fileStoresToDisks old new k d

/-- What the first `k` iterations have cached and read. -/
structure SeenSoFar (disk : Disk α) (old new : Nat → DiskCounters α) (k : Nat)
    (state : PollState α) : Prop where
  map_eq : state.disk.fileStoresToDisks = disk.fileStoresToDisks
  length_entries : state.disk.entries.length = disk.entries.length
  length_polled : state.polled.length = k
  cached : Caches state.disk old new k
  read : ∀ (i : Nat) poll, state.polled[i]? = some poll →
    poll.counters = seen disk.fileStoresToDisks old new i poll.diskIndex

omit [LawfulJavaLong α] in
/-- Where every refresh delivers the new counters, disks show the old ones or the new ones. -/
theorem shown_eq_seen {disk : Disk α} {samples : Nat → StoreSamples α} {old new : Nat → DiskCounters α}
    (hdeliver : Delivers samples disk.fileStoresToDisks new) (hcached : Caches disk old new 0) {k d : Nat}
    (hmapped : ∃ i < disk.entries.length, disk.fileStoresToDisks i = some d) {counters : DiskCounters α}
    (hshown : shown disk samples k d = some counters) :
    counters = seen disk.fileStoresToDisks old new k d := by
  induction k with
  | zero =>
      rcases Option.map_eq_some_iff.mp hshown with ⟨hw, hget, rfl⟩
      exact hcached d hw hget hmapped
  | succ k ih =>
      rw [shown] at hshown
      by_cases hk : disk.fileStoresToDisks k = some d
      · rw [if_pos hk, (hdeliver k d hk).2] at hshown
        rw [seen_of_refreshed old new (Nat.lt_succ_self k) hk]
        exact (Option.some.inj hshown).symm
      · rw [if_neg hk] at hshown
        rw [seen_succ_of_ne old new hk]
        exact ih hshown

/-- A whole poll. -/
theorem getDiskData_seen {calendar : Int} {serialNum : String} {samples : Nat → StoreSamples α}
    {disk : Disk α} {table : DiscTable α} {old new : Nat → DiskCounters α} {after : PollState α}
    (hdeliver : Delivers samples disk.fileStoresToDisks new) (hcached : Caches disk old new 0)
    (h : getDiskData calendar serialNum disk samples table = .ok after) :
    SeenSoFar disk old new disk.entries.length after := by
  have hspec := getDiskData_spec h
  have hshown := getDiskData_shown h
  refine ⟨hshown.map_eq, hspec.length_entries, hshown.length_polled, ?_, ?_⟩
  · intro d hw hget hmapped
    rw [hspec.length_entries, hshown.map_eq] at hmapped
    rw [hshown.map_eq]
    apply shown_eq_seen hdeliver hcached hmapped
    rw [← hshown.cached d, hget]
    rfl
  · intro i poll hpoll
    have hi : i < disk.entries.length := by
      rw [← hshown.length_polled]
      exact (List.getElem?_eq_some_iff.mp hpoll).1
    have hmap : disk.fileStoresToDisks i = some poll.diskIndex := (hspec.done i poll hpoll).2.2.2.1
    exact shown_eq_seen hdeliver hcached ⟨i, hi, hmap⟩ (hshown.read i poll hpoll)

/-! ### A run -/

/-- The counters change only between calls: `hw 0` is what the disks show before the first poll and
`hw t` what every refresh during poll `t` delivers. -/
structure SteadyWithinPolls (run : DiskRun α) (hw : Nat → Nat → DiskCounters α) : Prop where
  start : ∀ (d : Nat) disk, (run.state 0).disk.disks[d]? = some disk → disk.counters = hw 0 d
  polls : ∀ t < run.calls, Delivers (run.samples t) run.map (hw (t + 1))

namespace DiskRun

variable {run : DiskRun α} {hw : Nat → Nat → DiskCounters α}

/-- Between polls the disks that file stores are on show the counters of the last poll. -/
theorem caches (hsteady : SteadyWithinPolls run hw) {t : Nat} (ht : t ≤ run.calls) :
    Caches (run.state t).disk (hw t) (hw (t + 1)) 0 := by
  induction t with
  | zero =>
      intro d disk hget _
      rw [seen_zero]
      exact hsteady.start d disk hget
  | succ t ih =>
      have hle : t ≤ run.calls := Nat.le_of_succ_le ht
      have hmap := (run.kept hle).2.2
      have hseen := getDiskData_seen (hmap ▸ hsteady.polls t ht) (ih hle) (run.completed t ht)
      intro d disk hget hmapped
      rcases hmapped with ⟨i, hi, hid⟩
      -- file store `i` has refreshed the disk during the call
      rw [seen_zero, hseen.cached d disk hget ⟨i, hi, hid⟩]
      exact seen_of_refreshed _ _ (hseen.length_entries ▸ hi) hid

/-- Which counters a report was taken from. -/
theorem counters_seen (hsteady : SteadyWithinPolls run hw) {t i d : Nat} (ht : t < run.calls)
    (hmap : run.map i = some d) {poll : StorePoll α} (hpoll : run.report t i = some poll) :
    poll.counters = seen run.map (hw t) (hw (t + 1)) i d := by
  have hkept := (run.kept ht.le).2.2
  have hseen := getDiskData_seen (hkept ▸ hsteady.polls t ht) (caches hsteady ht.le)
    (run.completed t ht)
  rw [hseen.read i poll hpoll, hkept, run.report_diskIndex ht hpoll hmap]

theorem bytesAsRead_seen (hsteady : SteadyWithinPolls run hw) {t i d : Nat} (ht : t < run.calls)
    (hi : i < run.size) (hmap : run.map i = some d) :
    run.bytesAsRead i (t + 1) = (seen run.map (hw t) (hw (t + 1)) i d).bytes := by
  rcases run.exists_report ht hi with ⟨poll, hpoll⟩
  rw [← counters_seen hsteady ht hmap hpoll]
  simp [bytesAsRead, hpoll, DiskCounters.bytes]

/-- From the second poll on, a file store whose disk was refreshed before it reports the interval that
ends with the poll. -/
theorem total_of_refreshed (hsteady : SteadyWithinPolls run hw) {t i i' d : Nat}
    (ht : t + 1 < run.calls) (hi : i < run.size) (hmap : run.map i = some d) (hlt : i' < i)
    (hmap' : run.map i' = some d) :
    run.total i (t + 1) = (hw (t + 2) d).bytes - (hw (t + 1) d).bytes := by
  rw [run.total_eq hi ht, bytesAsRead_seen hsteady ht hi hmap,
    bytesAsRead_seen hsteady (Nat.lt_of_succ_lt ht) hi hmap, seen_of_refreshed _ _ hlt hmap',
    seen_of_refreshed _ _ hlt hmap']

/-- The first file store of a disk reports the interval before that one. -/
theorem total_of_first (hsteady : SteadyWithinPolls run hw) {t i d : Nat} (ht : t + 1 < run.calls)
    (hi : i < run.size) (hmap : run.map i = some d) (hfirst : ∀ i' < i, run.map i' ≠ some d) :
    run.total i (t + 1) = (hw (t + 1) d).bytes - (hw t d).bytes := by
  rw [run.total_eq hi ht, bytesAsRead_seen hsteady ht hi hmap,
    bytesAsRead_seen hsteady (Nat.lt_of_succ_lt ht) hi hmap, seen_of_first _ _ hfirst, seen_of_first _ _ hfirst]

end DiskRun

/-- From poll 2 on: the difference of every file store on disk `d` is what `d` transferred since the poll
before, the row stamped with the time of the poll says so, and file stores on one disk agree. -/
structure IntervalsReported (run : DiskRun α) (hw : Nat → Nat → DiskCounters α) : Prop where
  totals : ∀ t, t + 1 < run.calls → ∀ i < run.size, ∀ d, run.map i = some d →
    run.total i (t + 1) = (hw (t + 2) d).bytes - (hw (t + 1) d).bytes
  rows : ∀ t, t + 1 < run.calls → ∀ i < run.size, ∀ d, run.map i = some d →
    ∃ row, (run.inserted (t + 1))[i]? = some row ∧ row.discId = i ∧
      row.timestamp = run.calendar (t + 1) ∧
      row.discSpeed =
        JavaLong.quot ((hw (t + 2) d).bytes - (hw (t + 1) d).bytes) (JavaLong.lit 1024)
  agree : ∀ t, t + 1 < run.calls → ∀ i < run.size, ∀ i' < run.size, ∀ d, run.map i = some d →
    run.map i' = some d → run.speed i (t + 1) = run.speed i' (t + 1)

/-- In every poll from the second on, each disk that a file store is on transfers as many bytes since the
poll before as it did in the interval before that. -/
def EqualIntervals (run : DiskRun α) (hw : Nat → Nat → DiskCounters α) : Prop :=
  ∀ t, t + 1 < run.calls → ∀ i < run.size, ∀ d, run.map i = some d →
    (hw (t + 2) d).bytes - (hw (t + 1) d).bytes = (hw (t + 1) d).bytes - (hw t d).bytes

/-- Disk rows report the current interval exactly in the runs whose intervals are all alike. -/
theorem intervalsReported_iff {run : DiskRun α} {hw : Nat → Nat → DiskCounters α}
    (hsteady : SteadyWithinPolls run hw) : IntervalsReported run hw ↔ EqualIntervals run hw := by
  constructor
  · intro hreported t ht i hi d hmap
    -- the first file store of the disk tells the two intervals apart
    have hex : ∃ i, run.map i = some d := ⟨i, hmap⟩
    have hle : Nat.find hex ≤ i := Nat.find_min' hex hmap
    have hfirst := DiskRun.total_of_first hsteady ht (by omega : Nat.find hex < run.size)
      (Nat.find_spec hex) (fun i' hi' => Nat.find_min hex hi')
    rw [← hfirst]
    exact (hreported.totals t ht (Nat.find hex) (by omega) d (Nat.find_spec hex)).symm
  · intro hequal
    have htotals : ∀ t, t + 1 < run.calls → ∀ i < run.size, ∀ d, run.map i = some d →
        run.total i (t + 1) = (hw (t + 2) d).bytes - (hw (t + 1) d).bytes := by
      intro t ht i hi d hmap
      by_cases hfirst : ∀ i' < i, run.map i' ≠ some d
      · rw [DiskRun.total_of_first hsteady ht hi hmap hfirst, hequal t ht i hi d hmap]
      · push Not at hfirst
        rcases hfirst with ⟨i', hlt, hmap'⟩
        exact DiskRun.total_of_refreshed hsteady ht hi hmap hlt hmap'
    refine ⟨htotals, ?_, ?_⟩
    · intro t ht i hi d hmap
      rcases run.exists_report ht hi with ⟨poll, hpoll⟩
      rcases run.inserted_report ht hpoll with ⟨hrow, hid⟩
      have hspeed : run.speed i (t + 1) = poll.row.discSpeed := by simp [DiskRun.speed, hrow]
      refine ⟨poll.row, hrow, hid, run.report_timestamp ht hpoll, ?_⟩
      rw [← hspeed, run.speed_eq hi ht, htotals t ht i hi d hmap]
    · intro t ht i hi i' hi' d hmap hmap'
      rw [run.speed_eq hi ht, run.speed_eq hi' ht, htotals t ht i hi d hmap,
        htotals t ht i' hi' d hmap']

/-! ### Two partitions of one disk -/

/-- A disk that has read so many bytes. -/
def bytesRead (n : Int64) : DiskCounters Int64 := ⟨0, n, 0⟩

/-- Before the first poll, with `n` bytes read so far. -/
def twoPartitions (n : Int64) : PollState Int64 where
  disk :=
    { entries := [newEntry { uuid := "c", mount := "C:", space := ⟨0, 0⟩ },
        newEntry { uuid := "d", mount := "D:", space := ⟨0, 0⟩ }]
      disks := [{ model := "disk", partitions := [⟨"c"⟩, ⟨"d"⟩], counters := bytesRead n }]
      fileStoresToDisks := fun i => if i < 2 then some 0 else none }
  table := .empty
  polled := []

/-- Two polls, the disk having read `bytes t` bytes during poll `t`. -/
def twoPolls (bytes : Nat → Int64) : DiskRun Int64 where
  serialNum := "S"
  calls := 2
  calendar t := t
  samples t _ := ⟨⟨0, 0⟩, bytesRead (bytes (t + 1)), bytesRead (bytes (t + 1))⟩
  state := pollStates "S" (twoPartitions (bytes 0))
    fun t _ => ⟨⟨0, 0⟩, bytesRead (bytes (t + 1)), bytesRead (bytes (t + 1))⟩
  completed := by
    intro t ht
    interval_cases t
    · rfl
    · rfl

theorem twoPolls_steady (bytes : Nat → Int64) :
    SteadyWithinPolls (twoPolls bytes) fun t _ => bytesRead (bytes t) where
  start d disk hget := by
    have hmem : disk ∈ (twoPartitions (bytes 0)).disk.disks := List.mem_of_getElem? hget
    rw [twoPartitions, List.mem_singleton] at hmem
    rw [hmem]
  polls t ht i d hmap := ⟨rfl, rfl⟩

/-- Under a constant load the rows are right. -/
theorem constant_load_reported :
    IntervalsReported (twoPolls fun t => .ofNat (2048 * t))
      fun t _ => bytesRead (.ofNat (2048 * t)) := by
  refine (intervalsReported_iff (twoPolls_steady _)).mpr ?_
  intro t ht i hi d hmap
  obtain rfl : t = 0 := Nat.lt_one_iff.mp (Nat.lt_of_succ_lt_succ ht)
  beta_reduce
  decide

/-- A burst of 4096 bytes between the two polls: the row of `C:` does not show it, the row of `D:` of the
same round does. -/
theorem burst_is_reported_late :
    SteadyWithinPolls (twoPolls fun t => if t = 2 then 4096 else 0)
        (fun t _ => bytesRead (if t = 2 then 4096 else 0)) ∧
      (List.range 2).map (fun i => (twoPolls fun t => if t = 2 then 4096 else 0).speed i 1) = [0, 4] ∧
      ¬ IntervalsReported (twoPolls fun t => if t = 2 then 4096 else 0)
        (fun t _ => bytesRead (if t = 2 then 4096 else 0)) := by
  refine ⟨twoPolls_steady _, by decide, ?_⟩
  intro hreported
  have hagree := hreported.agree 0 (by decide) 0 (by decide) 1 (by decide) 0 rfl rfl
  revert hagree
  decide

end Crum
