/-
Module: Crum.Proofs.CpuPoll
Layer: Proofs
Purpose: What one `getCPUData` call does: it sums the loads OSHI returns for the window that its baseline
  begins, appends one row with their mean as a percentage, and keeps the later of its two samples as the
  baseline of the next call. What the documentation of OSHI promises of the loads is stated as hypotheses
  on the parameter that stands for it.
Imports: Crum.Core.Processor
Trusted boundary: none
Main exports: LoadsEach, LoadsPerProcessor, pairedLoads, LoadsSuffice, getCPUData_spec, getCPUData_loads,
  getCPUData_insert
Open obligations: none
-/
import Crum.Core.Processor

namespace Crum

open JavaRuntime

variable {α : Type} [JavaLong α]

/-! ### What OSHI promises -/

/-- The sample has one array for each of the `n` processors, with one count for each of the 8 tick types. -/
def SampleOf (n : Nat) (sample : List Ticks) : Prop :=
  sample.length = n ∧ ∀ ticks ∈ sample, ticks.length = 8

instance (n : Nat) (sample : List Ticks) : Decidable (SampleOf n sample) :=
  inferInstanceAs (Decidable (_ ∧ _))

/-- The loads that are returned for two samples of the same processors are those of each processor. -/
def LoadsEach (loadBetweenTicks : LoadBetweenTicks) (load : Ticks → Ticks → Rat) : Prop :=
  ∀ n old new loads, old.length = n → new.length = n → loadBetweenTicks n old new = .ok loads →
    loads = List.zipWith load old new

/-- For two samples of the processors there are, OSHI returns one load for each of them. -/
def LoadsPerProcessor (loadBetweenTicks : LoadBetweenTicks) : Prop :=
  ∀ n old new, 1 ≤ n → SampleOf n old → SampleOf n new →
    ∃ loads, loadBetweenTicks n old new = .ok loads ∧ loads.length = n

/-- The loads of `load`, for two samples of the processors there are, and an exception for any others. -/
def pairedLoads (load : Ticks → Ticks → Rat) : LoadBetweenTicks := fun n old new =>
  if 1 ≤ n ∧ SampleOf n old ∧ SampleOf n new then .ok (List.zipWith load old new)
  else .error .illegalArgument

theorem pairedLoads_each (load : Ticks → Ticks → Rat) : LoadsEach (pairedLoads load) load := by
  intro n old new loads _ _ h
  unfold pairedLoads at h
  split at h
  · exact (Except.ok.inj h).symm
  · cases h

theorem pairedLoads_perProcessor (load : Ticks → Ticks → Rat) :
    LoadsPerProcessor (pairedLoads load) := by
  intro n old new hn hold hnew
  refine ⟨List.zipWith load old new, if_pos ⟨hn, hold, hnew⟩, ?_⟩
  rw [List.length_zipWith, hold.1, hnew.1, min_self]

/-! ### The sum of the loads -/

/-- The loop sums the first loads, one for each logical processor, and there are that many. -/
theorem sumLoads_eq {loads : List Rat} {n : Nat} {sum : Rat} (h : sumLoads loads n = .ok sum) :
    n ≤ loads.length ∧ sum = (loads.take n).sum := by
  apply forRange_invariant (fun i s => i ≤ loads.length ∧ s = (loads.take i).sum) ?_ ?_ h
  · simp
  · intro i _ u v hu hstep
    rcases hu with ⟨-, rfl⟩
    cases hload : loads[i]? with
    | none =>
        rw [hload] at hstep
        cases hstep
    | some load =>
        rw [hload] at hstep
        obtain rfl := Except.ok.inj hstep
        refine ⟨(List.getElem?_eq_some_iff.mp hload).1, ?_⟩
        rw [List.take_add_one, List.sum_append, hload]
        simp

/-- With a load for each logical processor the loop ends. -/
theorem sumLoads_returns {loads : List Rat} {n : Nat} (h : n ≤ loads.length) :
    sumLoads loads n = .ok (loads.take n).sum := by
  have hloop : ∃ sum, sumLoads loads n = .ok sum ∧ True := by
    apply forRange_returns n _ 0 (fun _ _ => True) trivial
    intro i hi u _
    rw [List.getElem?_eq_getElem (hi.trans_le h)]
    exact ⟨_, rfl, trivial⟩
  rcases hloop with ⟨sum, hsum, -⟩
  rw [hsum, (sumLoads_eq hsum).2]

theorem meanLoad_eq_some_iff {sum usage : Rat} {n : Nat} :
    meanLoad sum n = some usage ↔ 0 < n ∧ sum / n * 100 = usage := by
  unfold meanLoad
  split
  · next hzero => simp [hzero]
  · next hpos => simp [Nat.pos_of_ne_zero hpos]

/-! ### One call -/

/-- Everything a `getCPUData` call that returns has done. -/
theorem getCPUData_spec {loadBetweenTicks : LoadBetweenTicks} {calendar : Int} {serialNum : String}
    {state : Cpu} {cpu : CentralProcessor α} {table : CpuTable α} {after : Cpu × CpuTable α}
    (h : getCPUData loadBetweenTicks calendar serialNum state cpu table = .ok after) :
    after.1.prevLoadTicks = cpu.nextTicks ∧
      ∃ loads, loadBetweenTicks cpu.logicalProcessorCount state.prevLoadTicks cpu.windowEnd = .ok loads ∧
        cpu.logicalProcessorCount ≤ loads.length ∧ 0 < cpu.logicalProcessorCount ∧
        after.2.rows = table.rows ++ [cpuRow calendar serialNum cpu
          ((loads.take cpu.logicalProcessorCount).sum / cpu.logicalProcessorCount * 100)] := by
  simp only [getCPUData, bind_eq_ok_iff, execute_eq_ok_iff, notNull_eq_ok_iff, meanLoad_eq_some_iff] at h
  rcases h with ⟨loads, hloads, sum, hsum, _, ⟨hpos, rfl⟩, inserted, ⟨-, hrows⟩, hafter⟩
  obtain rfl := Except.ok.inj hafter
  rcases sumLoads_eq hsum with ⟨hlength, rfl⟩
  exact ⟨rfl, loads, hloads, hlength, hpos, hrows⟩

/-- The row of a call differs from call to call only in the calendar value, the sampled strings and counts
and the usage. -/
theorem getCPUData_rows {loadBetweenTicks : LoadBetweenTicks} {calendar : Int} {serialNum : String}
    {state : Cpu} {cpu : CentralProcessor α} {table : CpuTable α} {after : Cpu × CpuTable α}
    (h : getCPUData loadBetweenTicks calendar serialNum state cpu table = .ok after) :
    ∃ usage, after.2.rows = table.rows ++ [cpuRow calendar serialNum cpu usage] := by
  rcases getCPUData_spec h with ⟨-, loads, -, -, -, hrows⟩
  exact ⟨_, hrows⟩

/-- OSHI returns a load for each of the logical processors, and there are some. -/
def LoadsSuffice (loadBetweenTicks : LoadBetweenTicks) (baseline : List Ticks) (cpu : CentralProcessor α) :
    Prop :=
  0 < cpu.logicalProcessorCount ∧ ∃ loads,
    loadBetweenTicks cpu.logicalProcessorCount baseline cpu.windowEnd = .ok loads ∧
      cpu.logicalProcessorCount ≤ loads.length

omit [JavaLong α] in
/-- Between two samples of the processors there are, the loads suffice. -/
theorem LoadsPerProcessor.suffice {loadBetweenTicks : LoadBetweenTicks} (h : LoadsPerProcessor loadBetweenTicks)
    {baseline : List Ticks} {cpu : CentralProcessor α} (hpos : 1 ≤ cpu.logicalProcessorCount)
    (hold : SampleOf cpu.logicalProcessorCount baseline)
    (hnew : SampleOf cpu.logicalProcessorCount cpu.windowEnd) :
    LoadsSuffice loadBetweenTicks baseline cpu := by
  rcases h _ _ _ hpos hold hnew with ⟨loads, hloads, hlength⟩
  exact ⟨hpos, loads, hloads, hlength.ge⟩

/-- A call that returns had its loads. -/
theorem getCPUData_loads {loadBetweenTicks : LoadBetweenTicks} {calendar : Int} {serialNum : String}
    {state : Cpu} {cpu : CentralProcessor α} {table : CpuTable α} {after : Cpu × CpuTable α}
    (h : getCPUData loadBetweenTicks calendar serialNum state cpu table = .ok after) :
    LoadsSuffice loadBetweenTicks state.prevLoadTicks cpu := by
  rcases getCPUData_spec h with ⟨-, loads, hloads, hlength, hpos, -⟩
  exact ⟨hpos, loads, hloads, hlength⟩

/-- A call with its loads is an INSERT. -/
theorem getCPUData_insert {loadBetweenTicks : LoadBetweenTicks} {state : Cpu} {cpu : CentralProcessor α}
    (h : LoadsSuffice loadBetweenTicks state.prevLoadTicks cpu) :
    ∃ state' usage, ∀ calendar serialNum (table : CpuTable α),
      getCPUData loadBetweenTicks calendar serialNum state cpu table = (do
        let table ← execute "CPU" table (cpuRow calendar serialNum cpu usage)
        return (state', table)) := by
  rcases h with ⟨hpos, loads, hloads, hlength⟩
  obtain ⟨usage, husage⟩ : ∃ usage,
      meanLoad (loads.take cpu.logicalProcessorCount).sum cpu.logicalProcessorCount = some usage :=
    ⟨_, meanLoad_eq_some_iff.mpr ⟨hpos, rfl⟩⟩
  refine ⟨⟨cpu.nextTicks, loads⟩, usage, fun calendar serialNum table => ?_⟩
  simp only [getCPUData, hloads, bind, Except.bind, sumLoads_returns hlength, notNull_eq_ok_iff.mpr husage]

end Crum
