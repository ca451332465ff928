/-
Module: Crum.Proofs.CpuWindows
Layer: Proofs
Purpose: The windows over which CPU usage is measured. A call measures from the baseline the last call left
  to a sample of its own, and then takes a further sample as the next baseline. The usage of every window is
  the mean of the loads of its processors; the windows tile the run exactly when the two samples of every
  call but the last one agree. What the hardware ticks between the two is in no window.
Imports: Crum.Proofs.CpuPoll
Trusted boundary: none
Main exports: CpuRun, SamplesAdvance, LoadIsShare, WindowsTile, windowsTile_iff, ticks_between_samples_are_lost
Open obligations: none
-/
import Crum.Proofs.CpuPoll

namespace Crum

/-! ### Samples and loads -/

/-- No tick count of the later sample is below that of the earlier one, and both are of the same
processors. -/
def TicksAdvance (old new : List Ticks) : Prop := List.Forall₂ (List.Forall₂ (· ≤ ·)) old new

/-- The count of one tick type of one processor in a sample. -/
def tick (sample : List Ticks) (processor type : Nat) : Int :=
  (((sample[processor]?).getD [])[type]?).getD 0

/-- What OSHI promises of a load: over ticks that advance it is a share of the window. -/
def LoadIsShare (load : Ticks → Ticks → Rat) : Prop :=
  ∀ old new, List.Forall₂ (· ≤ ·) old new → 0 ≤ load old new ∧ load old new ≤ 1

/-- The mean of shares is a share. -/
theorem mean_of_shares {loads : List Rat} (h : ∀ x ∈ loads, 0 ≤ x ∧ x ≤ 1) :
    0 ≤ loads.sum / loads.length ∧ loads.sum / loads.length ≤ 1 := by
  have hnonneg : 0 ≤ loads.sum := List.sum_nonneg fun x hx => (h x hx).1
  have hle : loads.sum ≤ loads.length := by
    have := List.sum_le_card_nsmul loads 1 fun x hx => (h x hx).2
    simpa using this
  constructor
  · positivity
  · apply div_le_one_of_le₀ hle
    positivity

/-- Over samples that advance every processor's load is a share. -/
theorem LoadIsShare.zipWith {load : Ticks → Ticks → Rat} (hload : LoadIsShare load)
    {old new : List Ticks} (h : TicksAdvance old new) :
    ∀ x ∈ List.zipWith load old new, 0 ≤ x ∧ x ≤ 1 := by
  induction h with
  | nil => simp
  | cons hticks _ ih =>
      intro x hx
      rw [List.zipWith_cons_cons, List.mem_cons] at hx
      rcases hx with rfl | hx
      · exact hload _ _ hticks
      · exact ih x hx

/-! ### Runs of `getCPUData` -/

/-- `initCPU` followed by `calls` completed calls. Call number `t` leads from `state t` to
`state (t + 1)`. `load` is the load of one processor between two of its tick counts. -/
structure CpuRun (α : Type) [JavaLong α] where
  loadBetweenTicks : LoadBetweenTicks
  load : Ticks → Ticks → Rat
  serialNum : String
  firstSample : List Ticks
  calls : Nat
  calendar : Nat → Int
  cpu : Nat → CentralProcessor α
  state : Nat → Cpu × CpuTable α
  start : (state 0).1 = initCPU firstSample
  completed : ∀ t < calls,
    getCPUData loadBetweenTicks (calendar t) serialNum (state t).1 (cpu t) (state t).2 = .ok (state (t + 1))

namespace CpuRun

variable {α : Type} [JavaLong α] (run : CpuRun α)

/-- The sample from which call number `t` measures. -/
def windowStart (t : Nat) : List Ticks := (run.state t).1.prevLoadTicks

/-- The sample up to which call number `t` measures. -/
def windowEnd (t : Nat) : List Ticks := (run.cpu t).windowEnd

/-- The busy fraction of every processor in the window of call number `t`. -/
def busyFractions (t : Nat) : List Rat :=
  List.zipWith run.load (run.windowStart t) (run.windowEnd t)

/-- Every sample is of the same `n` processors, and none is earlier than the one read before it. -/
structure SamplesAdvance (n : Nat) : Prop where
  processors : 1 ≤ n
  first : run.firstSample.length = n
  count : ∀ t < run.calls, (run.cpu t).logicalProcessorCount = n
  from_start : 0 < run.calls → TicksAdvance run.firstSample (run.windowEnd 0)
  within : ∀ t < run.calls, TicksAdvance (run.windowEnd t) (run.cpu t).nextTicks
  between : ∀ t, t + 1 < run.calls → TicksAdvance (run.cpu t).nextTicks (run.windowEnd (t + 1))

/-- The windows of the `n` processors tile the run: each starts at the sample that ended the one before
it, so their ticks add up to those of the run, and the stored usage is 100 times the mean of their busy
fractions. -/
structure WindowsTile (n : Nat) : Prop where
  first : 0 < run.calls → run.windowStart 0 = run.firstSample
  meet : ∀ t, t + 1 < run.calls → run.windowStart (t + 1) = run.windowEnd t
  counted : ∀ t < run.calls, ∀ processor type,
    ∑ u ∈ Finset.range (t + 1),
        (tick (run.windowEnd u) processor type - tick (run.windowStart u) processor type) =
      tick (run.windowEnd t) processor type - tick run.firstSample processor type
  usage : ∀ t < run.calls, ∃ row, (run.state (t + 1)).2.rows = (run.state t).2.rows ++ [row] ∧
    row.coreUsage = 100 * ((run.busyFractions t).sum / n) ∧ 0 ≤ row.coreUsage ∧ row.coreUsage ≤ 100

@[simp] theorem windowStart_zero : run.windowStart 0 = run.firstSample := by
  rw [windowStart, run.start, initCPU]

/-- A call measures from the second sample of the call before it. -/
theorem windowStart_succ {t : Nat} (ht : t < run.calls) :
    run.windowStart (t + 1) = (run.cpu t).nextTicks :=
  (getCPUData_spec (run.completed t ht)).1

variable {run} {n : Nat}

/-- Every window is of the `n` processors, and the ticks advance over it. -/
theorem SamplesAdvance.window (h : run.SamplesAdvance n) {t : Nat} (ht : t < run.calls) :
    (run.windowStart t).length = n ∧ TicksAdvance (run.windowStart t) (run.windowEnd t) := by
  induction t with
  | zero =>
      rw [windowStart_zero]
      exact ⟨h.first, h.from_start ht⟩
  | succ t ih =>
      have htlt : t < run.calls := Nat.lt_of_succ_lt ht
      rcases ih htlt with ⟨hlength, hadvance⟩
      rw [run.windowStart_succ htlt]
      refine ⟨?_, h.between t ht⟩
      rw [← (h.within t htlt).length_eq, ← hadvance.length_eq]
      exact hlength

/-- The stored usage of every call is 100 times the mean of the busy fractions of its window. -/
theorem SamplesAdvance.usage (h : run.SamplesAdvance n) (heach : LoadsEach run.loadBetweenTicks run.load)
    (hload : LoadIsShare run.load) {t : Nat} (ht : t < run.calls) :
    ∃ row, (run.state (t + 1)).2.rows = (run.state t).2.rows ++ [row] ∧
      row.coreUsage = 100 * ((run.busyFractions t).sum / n) ∧
      0 ≤ row.coreUsage ∧ row.coreUsage ≤ 100 := by
  rcases h.window ht with ⟨hlength, hadvance⟩
  have hend : (run.windowEnd t).length = n := by rw [← hadvance.length_eq, hlength]
  have hcount : (run.busyFractions t).length = n := by
    rw [busyFractions, List.length_zipWith, hlength, hend, min_self]
  have hmean := mean_of_shares (hload.zipWith hadvance)
  rw [← busyFractions, hcount] at hmean
  rcases getCPUData_spec (run.completed t ht) with ⟨-, loads, hloads, -, -, hrows⟩
  rw [h.count t ht] at hloads hrows
  obtain rfl : loads = run.busyFractions t := heach n _ _ _ hlength hend hloads
  have husage : ((run.busyFractions t).take n).sum / n * 100 = 100 * ((run.busyFractions t).sum / n) := by
    rw [List.take_of_length_le hcount.le, mul_comm]
  refine ⟨_, hrows, husage, ?_, ?_⟩
  · refine le_of_le_of_eq ?_ husage.symm
    linarith [hmean.1]
  · refine le_of_eq_of_le husage ?_
    linarith [hmean.2]

/-- Windows that meet add up. -/
theorem counted_of_meet (hmeet : ∀ t, t + 1 < run.calls → run.windowStart (t + 1) = run.windowEnd t)
    {t : Nat} (ht : t < run.calls) (processor type : Nat) :
    ∑ u ∈ Finset.range (t + 1),
        (tick (run.windowEnd u) processor type - tick (run.windowStart u) processor type) =
      tick (run.windowEnd t) processor type - tick run.firstSample processor type := by
  induction t with
  | zero => simp
  | succ t ih =>
      rw [Finset.sum_range_succ, ih (Nat.lt_of_succ_lt ht), hmeet t ht]
      ring

/-! ### When the windows meet -/

/-- The windows tile a run if and only if the two samples of every call that is followed by another are
the same. -/
theorem windowsTile_iff (h : run.SamplesAdvance n) (heach : LoadsEach run.loadBetweenTicks run.load)
    (hload : LoadIsShare run.load) :
    run.WindowsTile n ↔
      ∀ t, t + 1 < run.calls → (run.cpu t).nextTicks = (run.cpu t).windowEnd := by
  constructor
  · intro htile t ht
    rw [← run.windowStart_succ (Nat.lt_of_succ_lt ht)]
    exact htile.meet t ht
  · intro hsame
    have hmeet : ∀ t, t + 1 < run.calls → run.windowStart (t + 1) = run.windowEnd t := by
      intro t ht
      rw [run.windowStart_succ (Nat.lt_of_succ_lt ht)]
      exact hsame t ht
    exact {
      first := fun _ => run.windowStart_zero
      meet := hmeet
      counted := fun t ht => counted_of_meet hmeet ht
      usage := fun t ht => h.usage heach hload ht }

end CpuRun

/-! ### Two calls on one processor -/

/-- The busy share of a window as OSHI computes it: idle and I/O wait are the tick types 3 and 4, and a
window without ticks counts as idle. -/
def busyShare (old new : Ticks) : Rat :=
  let advance := List.zipWith (· - ·) new old
  let idle := ((advance.drop 3).take 2).sum
  if 0 < advance.sum then ((advance.sum - idle : Int) : Rat) / advance.sum else 0

/-- Ticks that advance do so by amounts that are not negative. -/
theorem advance_nonneg {old new : Ticks} (h : List.Forall₂ (· ≤ ·) old new) :
    ∀ d ∈ List.zipWith (· - ·) new old, (0 : Int) ≤ d := by
  induction h with
  | nil => simp
  | cons hle _ ih =>
      intro d hd
      rw [List.zipWith_cons_cons, List.mem_cons] at hd
      rcases hd with rfl | hd
      · exact sub_nonneg.mpr hle
      · exact ih d hd

theorem busyShare_isShare : LoadIsShare busyShare := by
  intro old new h
  have hnonneg := advance_nonneg h
  unfold busyShare
  generalize List.zipWith (· - ·) new old = advance at hnonneg ⊢
  have hidle : 0 ≤ ((advance.drop 3).take 2).sum :=
    List.sum_nonneg fun d hd => hnonneg d (List.mem_of_mem_drop (List.mem_of_mem_take hd))
  have hrest : ((advance.drop 3).take 2).sum ≤ advance.sum := by
    have hfirst : 0 ≤ (advance.take 3).sum :=
      List.sum_nonneg fun d hd => hnonneg d (List.mem_of_mem_take hd)
    have hlast : 0 ≤ ((advance.drop 3).drop 2).sum :=
      List.sum_nonneg fun d hd => hnonneg d (List.mem_of_mem_drop (List.mem_of_mem_drop hd))
    have hsplit := List.sum_take_add_sum_drop advance 3
    have hsplit' := List.sum_take_add_sum_drop (advance.drop 3) 2
    linarith
  dsimp only
  split
  · next hpos =>
      have hpos' : (0 : Rat) < advance.sum := by exact_mod_cast hpos
      constructor
      · apply div_nonneg _ hpos'.le
        exact_mod_cast sub_nonneg.mpr hrest
      · apply div_le_one_of_le₀ _ hpos'.le
        exact_mod_cast sub_le_self _ hidle
  · norm_num

/-- A sample of one processor that has been idle and busy in user mode for so many ticks. -/
def oneProcessor (idle user : Int) : List Ticks := [[user, 0, 0, idle, 0, 0, 0, 0]]

/-- The states of calls at times 0, 1, 2, ...; a call that failed would repeat its state. -/
def cpuStates (firstSample : List Ticks) (cpu : Nat → CentralProcessor Int64) :
    Nat → Cpu × CpuTable Int64
  | 0 => (initCPU firstSample, .empty)
  | t + 1 =>
      let state := cpuStates firstSample cpu t
      match getCPUData (pairedLoads busyShare) t "S" state.1 (cpu t) state.2 with
      | .ok after => after
      | .error _ => state

/-- Two calls. Each window ends with ten idle ticks since the baseline; the processor is then busy for
`busy` ticks before the next baseline is read. -/
def twoWindows (busy : Int) : CpuRun Int64 where
  loadBetweenTicks := pairedLoads busyShare
  load := busyShare
  serialNum := "S"
  firstSample := oneProcessor 0 0
  calls := 2
  calendar t := t
  cpu t := ⟨"P", "cpu", 0, 1, 1, oneProcessor (10 * (t + 1)) (busy * t),
    oneProcessor (10 * (t + 1)) (busy * (t + 1))⟩
  state := cpuStates (oneProcessor 0 0) fun t => ⟨"P", "cpu", 0, 1, 1,
    oneProcessor (10 * (t + 1)) (busy * t), oneProcessor (10 * (t + 1)) (busy * (t + 1))⟩
  start := rfl
  completed := by
    intro t ht
    interval_cases t
    · rfl
    · rfl

theorem twoWindows_advance {busy : Int} (hbusy : 0 ≤ busy) : (twoWindows busy).SamplesAdvance 1 where
  processors := le_rfl
  first := rfl
  count t _ := rfl
  from_start _ := by simp [TicksAdvance, twoWindows, CpuRun.windowEnd, oneProcessor]
  within t _ := by
    simp [TicksAdvance, twoWindows, CpuRun.windowEnd, oneProcessor]
    nlinarith
  between t _ := by
    simp [TicksAdvance, twoWindows, CpuRun.windowEnd, oneProcessor]

/-- When nothing ticks between the two samples of a call, the windows tile. -/
theorem twoWindows_tile : (twoWindows 0).WindowsTile 1 := by
  apply (CpuRun.windowsTile_iff (twoWindows_advance le_rfl) (pairedLoads_each busyShare)
    busyShare_isShare).mpr
  intro t ht
  rfl

/-- Seven busy ticks between the samples of the first call are in neither window: both rows show an idle
processor. -/
theorem ticks_between_samples_are_lost :
    (twoWindows 7).SamplesAdvance 1 ∧
      LoadsEach (twoWindows 7).loadBetweenTicks (twoWindows 7).load ∧ LoadIsShare (twoWindows 7).load ∧
      ((twoWindows 7).state 2).2.rows.map (·.coreUsage) = [0, 0] ∧
      ¬ (twoWindows 7).WindowsTile 1 := by
  refine ⟨twoWindows_advance (by decide), pairedLoads_each busyShare, busyShare_isShare,
    by decide +kernel, ?_⟩
  intro htile
  have hmeet := htile.meet 0 (by decide)
  revert hmeet
  decide

end Crum
