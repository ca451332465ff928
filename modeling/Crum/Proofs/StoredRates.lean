/-
Module: Crum.Proofs.StoredRates
Layer: Proofs
Purpose: The rates of a round. The columns for traffic and disk speed hold what was transferred since the
  last round, in units per second as if a second had passed; nothing reads the clock for them. They are
  right exactly when the time between two rounds is close enough to a second for the truncation to hide
  the difference.
Imports: Crum.Lib.Rate, Crum.Proofs.MainLoop
Trusted boundary: none
Main exports: ConsecutiveRounds, RatesStored, networkBytes, storeBytes, TotalsFit, UnitsKept,
  ratesStored_iff, stored_rates, slow_round_doubles_rates
Open obligations: none
-/
import Crum.Lib.Rate
import Crum.Proofs.MainLoop

namespace Crum

open CarryChain JavaLong JavaRuntime Rate

/-- Bytes collected over so many milliseconds, in megabits per second. -/
def megabitsPerSecond (bytes elapsed : Int) : Int := perSecond 1000000 (8 * bytes) elapsed

/-- Bytes collected over so many milliseconds, in kilobytes of 1024 bytes per second. -/
def kilobytesPerSecond (bytes elapsed : Int) : Int := perSecond 1024 bytes elapsed

/-- The bytes read and written between the baselines of a file store and the counters of its disk. -/
def storeBytes (entry : StoreEntry Int64) (counters : DiskCounters Int64) : Int64 :=
  (counters.writeBytes - entry.prevBytesWritten) + (counters.readBytes - entry.prevBytesRead)

/-! ### Consecutive rounds -/

/-- Two consecutive rounds of a run, the later one under a later calendar value: the state at the loop head
between them, and what the gathering methods of the later one make of it. -/
structure ConsecutiveRounds (platform : Platform) (hw : Hardware Int64) (now : Int) where
  past : List (Round Int64)
  first : Round Int64
  second : Round Int64
  before : CrumState Int64
  gathered : CrumState Int64
  reached : runMain platform hw now (past ++ [first]) = .ok before
  gathers : gather platform before second = .ok gathered
  forward : first.calendar < second.calendar

namespace ConsecutiveRounds

variable {platform : Platform} {hw : Hardware Int64} {now : Int}

section Fields

variable (pair : ConsecutiveRounds platform hw now)

/-- The two rounds are rounds of this run. -/
def InRun (rounds : List (Round Int64)) : Prop :=
  ∃ rest, rounds = pair.past ++ pair.first :: pair.second :: rest

/-- The milliseconds between the two calendar values. -/
def elapsed : Int := pair.second.calendar - pair.first.calendar

/-- The locals of `getNetworkData` in the later round. -/
def totals : NetworkTotals Int64 :=
  (pollNetwork pair.before.networkData pair.second.network).1

/-- The locals of `getDiskData` in the later round, file store by file store. -/
def polls : List (StorePoll Int64) :=
  match getDiskData pair.second.calendar pair.before.serialNum pair.before.diskData pair.second.disk
    pair.before.database.disc with
  | .ok polled => polled.polled
  | .error _ => []

/-- The later round stores rates over the elapsed time. -/
structure RatesStored : Prop where
  network : ∃ row, pair.gathered.database.network.rows = pair.before.database.network.rows ++ [row] ∧
    ∀ dir, (row.traffic dir).toInt = megabitsPerSecond (pair.totals.total dir).toInt pair.elapsed
  disk : pair.gathered.database.disc.rows =
      pair.before.database.disc.rows ++ pair.polls.map (·.row) ∧
    ∀ poll ∈ pair.polls,
      poll.row.discSpeed.toInt = kilobytesPerSecond poll.totalBytesPerSec.toInt pair.elapsed

/-- The bytes that the later round totals in a direction, from the baselines at the loop head and the
counters it reads: the differences of the interfaces are summed up and those sums added up, starting again
from 0 where the total is negative. -/
def networkBytes (dir : Direction) : Int64 :=
  clampedSum JavaLong.isNeg 0
    (runningSums 0 (pending dir pair.second.network pair.before.networkData.entries))

/-- Eight times the totals of the later round fit into a `long`. -/
def TotalsFit : Prop := ∀ dir, FitsLong ((pair.networkBytes dir).toInt * 8)

/-- Every amount makes as many whole units over the elapsed time as over a second: the bits of each
direction, and the bytes between the baselines of each file store and the counters its disk shows. -/
structure UnitsKept : Prop where
  network : ∀ dir, SameUnits 1000000 (8 * (pair.networkBytes dir).toInt) pair.elapsed
  disk : ∀ (i : Nat) entry d counters, pair.before.diskData.entries[i]? = some entry →
    pair.before.diskData.fileStoresToDisks i = some d →
    shown pair.before.diskData pair.second.disk i d = some counters →
    SameUnits 1024 (storeBytes entry counters).toInt pair.elapsed

theorem elapsed_pos : 0 < pair.elapsed := sub_pos.mpr pair.forward

/-- After exactly a second all units are kept. -/
theorem unitsKept_of_second (hsecond : pair.elapsed = 1000) : pair.UnitsKept where
  network dir := by
    rw [hsecond]
    exact sameUnits_second _ (by decide)
  disk i entry d counters _ _ _ := by
    rw [hsecond]
    exact sameUnits_second _ (by decide)

theorem total_eq (dir : Direction) : pair.totals.total dir = pair.networkBytes dir :=
  total_pollNetwork dir _ _

/-- The rows of the later round. -/
theorem gathered_rows :
    pair.gathered.database.network.rows = pair.before.database.network.rows ++
        [networkRow pair.second.calendar pair.before.serialNum pair.totals] ∧
      pair.gathered.database.disc.rows =
        pair.before.database.disc.rows ++ pair.polls.map (·.row) ∧
      ∀ poll ∈ pair.polls, poll.row.discSpeed = quot poll.totalBytesPerSec (lit 1024) := by
  rcases gather_eq_ok pair.gathers with ⟨polled, cpu, ram, network, hdisk, -, -, hnetwork, hgathered⟩
  have hspec := getDiskData_spec hdisk
  have hpolls : pair.polls = polled.polled := by rw [polls, hdisk]
  rw [hgathered, hpolls]
  refine ⟨(getNetworkData_eq_ok_iff.mp hnetwork).2.2, hspec.rows, ?_⟩
  intro poll hpoll
  rcases List.getElem?_of_mem hpoll with ⟨i, hi⟩
  rcases hspec.done i poll hi with ⟨-, -, -, -, hspeed, -⟩
  exact hspeed

/-- Every poll measures the bytes of its file store. -/
theorem polls_bytes :
    pair.polls.length = pair.before.diskData.entries.length ∧
      ∀ (i : Nat) poll, pair.polls[i]? = some poll →
        ∃ entry d counters, pair.before.diskData.entries[i]? = some entry ∧
          pair.before.diskData.fileStoresToDisks i = some d ∧
          shown pair.before.diskData pair.second.disk i d = some counters ∧
          poll.totalBytesPerSec = storeBytes entry counters := by
  rcases gather_eq_ok pair.gathers with ⟨polled, cpu, ram, network, hdisk, -, -, -, -⟩
  have hspec := getDiskData_spec hdisk
  have hpolls : pair.polls = polled.polled := by rw [polls, hdisk]
  rw [hpolls]
  refine ⟨hspec.length_polled, ?_⟩
  intro i poll hpoll
  rcases hspec.done i poll hpoll with ⟨-, -, -, hmap, -, entry, after, hentry, -, htotal, -⟩
  exact ⟨entry, poll.diskIndex, poll.counters, hentry, hmap,
    (getDiskData_shown hdisk).read i poll hpoll, htotal⟩

/-- What holds of the bytes of all file stores holds of all polls, and conversely. -/
theorem forall_polls_iff (P : Int64 → Prop) :
    (∀ poll ∈ pair.polls, P poll.totalBytesPerSec) ↔
      ∀ (i : Nat) entry d counters, pair.before.diskData.entries[i]? = some entry →
        pair.before.diskData.fileStoresToDisks i = some d →
        shown pair.before.diskData pair.second.disk i d = some counters →
        P (storeBytes entry counters) := by
  rcases pair.polls_bytes with ⟨hlength, hbytes⟩
  constructor
  · intro hpolls i entry d counters hentry hmap hshown
    have hi : i < pair.polls.length := by
      rw [hlength]
      exact (List.getElem?_eq_some_iff.mp hentry).1
    rcases hbytes i pair.polls[i] (List.getElem?_eq_getElem hi) with
      ⟨entry', d', counters', hentry', hmap', hshown', htotal⟩
    obtain rfl : entry = entry' := Option.some.inj (hentry.symm.trans hentry')
    obtain rfl : d = d' := Option.some.inj (hmap.symm.trans hmap')
    obtain rfl : counters = counters' := Option.some.inj (hshown.symm.trans hshown')
    rw [← htotal]
    exact hpolls _ (List.getElem_mem hi)
  · intro hstores poll hpoll
    rcases List.getElem?_of_mem hpoll with ⟨i, hi⟩
    rcases hbytes i poll hi with ⟨entry, d, counters, hentry, hmap, hshown, htotal⟩
    rw [htotal]
    exact hstores i entry d counters hentry hmap hshown

end Fields

variable {pair : ConsecutiveRounds platform hw now}

/-- The stored traffic is right exactly when the elapsed time keeps its units. -/
theorem TotalsFit.traffic_iff (hfit : pair.TotalsFit) (dir : Direction) (calendar : Int)
    (serialNum : String) :
    ((networkRow calendar serialNum pair.totals).traffic dir).toInt =
        megabitsPerSecond (pair.totals.total dir).toInt pair.elapsed ↔
      SameUnits 1000000 (8 * (pair.networkBytes dir).toInt) pair.elapsed := by
  have hbits : FitsLong ((pair.totals.total dir).toInt * 8) := by
    rw [pair.total_eq dir]
    exact hfit dir
  rw [traffic_toInt hbits, pair.total_eq dir]
  exact tdiv_eq_perSecond_iff _ (by decide) pair.elapsed_pos

/-- The rates of a round are right if and only if the elapsed time keeps the units of every amount. -/
theorem ratesStored_iff (hfit : pair.TotalsFit) : pair.RatesStored ↔ pair.UnitsKept := by
  rcases pair.gathered_rows with ⟨hnetwork, hdisc, hspeeds⟩
  have hspeed : ∀ poll ∈ pair.polls, poll.row.discSpeed.toInt =
      kilobytesPerSecond poll.totalBytesPerSec.toInt pair.elapsed ↔
        SameUnits 1024 poll.totalBytesPerSec.toInt pair.elapsed := by
    intro poll hpoll
    rw [hspeeds poll hpoll, toInt_quot _ (by decide)]
    exact tdiv_eq_perSecond_iff _ (by decide) pair.elapsed_pos
  have hstores := pair.forall_polls_iff fun bytes => SameUnits 1024 bytes.toInt pair.elapsed
  constructor
  · intro hstored
    rcases hstored.network with ⟨row, hrow, hrates⟩
    rw [hnetwork, List.append_right_inj, List.singleton_inj] at hrow
    constructor
    · intro dir
      apply (hfit.traffic_iff dir pair.second.calendar pair.before.serialNum).mp
      rw [hrow]
      exact hrates dir
    · apply hstores.mp
      intro poll hpoll
      exact (hspeed poll hpoll).mp (hstored.disk.2 poll hpoll)
  · intro hkept
    constructor
    · refine ⟨_, hnetwork, ?_⟩
      intro dir
      exact (hfit.traffic_iff dir _ _).mpr (hkept.network dir)
    · refine ⟨hdisc, ?_⟩
      intro poll hpoll
      exact (hspeed poll hpoll).mpr (hstores.mpr hkept.disk poll hpoll)

end ConsecutiveRounds

/-! ### Whole runs -/

/-- In every run: if between all consecutive rounds the totals fit and the elapsed time keeps the units,
all rates are right; and where the totals fit, rates are right only if it does. -/
theorem stored_rates (platform : Platform) (hw : Hardware Int64) (now : Int)
    (rounds : List (Round Int64)) :
    ((∀ pair : ConsecutiveRounds platform hw now, pair.InRun rounds → pair.TotalsFit ∧ pair.UnitsKept) →
        ∀ pair : ConsecutiveRounds platform hw now, pair.InRun rounds → pair.RatesStored) ∧
      ∀ pair : ConsecutiveRounds platform hw now, pair.InRun rounds → pair.TotalsFit →
        pair.RatesStored → pair.UnitsKept := by
  constructor
  · intro hrun pair hin
    rcases hrun pair hin with ⟨hfit, hkept⟩
    exact (ConsecutiveRounds.ratesStored_iff hfit).mpr hkept
  · intro pair _ hfit hstored
    exact (ConsecutiveRounds.ratesStored_iff hfit).mp hstored

/-! ### A computer under load -/

/-- The small computer with one network interface. -/
def busyComputer : Hardware Int64 :=
  { smallComputer with
    networkIFs := [⟨0, 0, [], "aa:bb"⟩]
    networkFresh := fun _ => ⟨0, 0, [], "aa:bb"⟩ }

/-- A round in which the disk has read `bytes` and the interface has received `received` bytes so far. -/
def busyRound (calendar : Int) (bytes received : Int64) : Round Int64 :=
  { smallRound calendar calendar bytes with network := fun _ => ⟨received, 0, [], "aa:bb"⟩ }

/-- A round with 4096 bytes read from the disk. -/
def firstRound : Round Int64 := busyRound 1618920001000 4096 0

/-- A round so many milliseconds later, 1000000 bytes having been received. -/
def laterRound (gap : Int) : Round Int64 := busyRound (1618920001000 + gap) 4096 1000000

abbrev BusyPair := ConsecutiveRounds utcPlatform busyComputer 1618920000000

/-- Both rounds complete, whether one or two seconds apart. -/
theorem exists_busyPair {gap : Int} (hforward : firstRound.calendar < (laterRound gap).calendar)
    (hok : (runMain utcPlatform busyComputer 1618920000000 [firstRound] >>= fun before =>
      gather utcPlatform before (laterRound gap)).isOk = true) :
    ∃ pair : BusyPair, pair.InRun [firstRound, laterRound gap] := by
  rcases exists_of_isOk hok with ⟨gathered, hrun⟩
  rcases bind_eq_ok_iff.mp hrun with ⟨before, hbefore, hgathered⟩
  exact ⟨⟨[], firstRound, laterRound gap, before, gathered, hbefore, hgathered, hforward⟩, [], rfl⟩

/-- A run of two rounds has one pair of consecutive rounds. -/
theorem BusyPair.rounds {gap : Int} {pair : BusyPair} (h : pair.InRun [firstRound, laterRound gap]) :
    pair.past = [] ∧ pair.first = firstRound ∧ pair.second = laterRound gap := by
  rcases h with ⟨rest, hrounds⟩
  cases hpast : pair.past with
  | nil =>
      rw [hpast] at hrounds
      simp only [List.nil_append, List.cons.injEq] at hrounds
      exact ⟨rfl, hrounds.1.symm, hrounds.2.1.symm⟩
  | cons round past =>
      have hlength := congrArg List.length hrounds
      simp [hpast] at hlength
      omega

theorem BusyPair.elapsed_eq {gap : Int} {pair : BusyPair}
    (h : pair.InRun [firstRound, laterRound gap]) : pair.elapsed = gap := by
  rcases BusyPair.rounds h with ⟨-, hfirst, hsecond⟩
  rw [ConsecutiveRounds.elapsed, hfirst, hsecond]
  simp [firstRound, laterRound, busyRound, smallRound]

/-- The later round finds 1000000 bytes received and none sent. -/
theorem BusyPair.totals_eq {gap : Int} {pair : BusyPair}
    (h : pair.InRun [firstRound, laterRound gap]) :
    pair.totals.totalInbound = 1000000 ∧ pair.totals.totalOutbound = 0 := by
  rcases BusyPair.rounds h with ⟨hpast, hfirst, hsecond⟩
  have hbefore : runMain utcPlatform busyComputer 1618920000000 [firstRound] = .ok pair.before := by
    have hreached := pair.reached
    rwa [hpast, hfirst] at hreached
  have hevaluated : (runMain utcPlatform busyComputer 1618920000000 [firstRound]).toOption.map
      (fun before =>
        let totals := (pollNetwork before.networkData fun _ => ⟨1000000, 0, [], "aa:bb"⟩).1
        (totals.totalInbound, totals.totalOutbound)) = some (1000000, 0) := by decide
  rw [hbefore] at hevaluated
  have hnetwork : pair.second.network = fun _ => ⟨1000000, 0, [], "aa:bb"⟩ := by
    rw [hsecond]
    rfl
  rw [ConsecutiveRounds.totals, hnetwork]
  exact Prod.mk.inj (Option.some.inj hevaluated)

theorem BusyPair.totalsFit {gap : Int} {pair : BusyPair}
    (h : pair.InRun [firstRound, laterRound gap]) : pair.TotalsFit := by
  rcases BusyPair.totals_eq h with ⟨hin, hout⟩
  intro dir
  rw [← pair.total_eq dir]
  cases dir
  · rw [NetworkTotals.total, hin]
    decide
  · rw [NetworkTotals.total, hout]
    decide

/-- A second apart the rates of the later round are right. -/
theorem second_apart_rates :
    ∃ pair : BusyPair, pair.InRun [firstRound, laterRound 1000] ∧ pair.RatesStored := by
  rcases exists_busyPair (by decide : firstRound.calendar < (laterRound 1000).calendar) (by decide)
    with ⟨pair, hin⟩
  refine ⟨pair, hin, (stored_rates utcPlatform busyComputer 1618920000000 _).1 ?_ pair hin⟩
  intro pair hin
  exact ⟨BusyPair.totalsFit hin, pair.unitsKept_of_second (BusyPair.elapsed_eq hin)⟩

/-- Two seconds apart, after the same transfer, the later round stores 8 megabits per second, twice the
rate. -/
theorem slow_round_doubles_rates :
    ∃ pair : BusyPair, pair.InRun [firstRound, laterRound 2000] ∧ pair.elapsed = 2000 ∧
      (networkRow pair.second.calendar pair.before.serialNum pair.totals).inboundTraffic = 8 ∧
      megabitsPerSecond pair.totals.totalInbound.toInt pair.elapsed = 4 ∧
      ¬ pair.RatesStored := by
  rcases exists_busyPair (by decide : firstRound.calendar < (laterRound 2000).calendar) (by decide)
    with ⟨pair, hin⟩
  have helapsed := BusyPair.elapsed_eq hin
  have htotal := (BusyPair.totals_eq hin).1
  refine ⟨pair, hin, helapsed, ?_, ?_, ?_⟩
  · rw [networkRow, htotal]
    rfl
  · rw [helapsed, htotal]
    decide
  · intro hstored
    have hkept := (ConsecutiveRounds.ratesStored_iff (BusyPair.totalsFit hin)).mp hstored
    have hunits := hkept.network .inbound
    rw [← pair.total_eq, NetworkTotals.total, helapsed, htotal] at hunits
    rcases hunits with ⟨hslow, -⟩
    revert hslow
    decide

end Crum
