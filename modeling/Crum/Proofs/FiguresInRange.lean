/-
Module: Crum.Proofs.FiguresInRange
Layer: Proofs
Purpose: The figures that are stored and shown make sense whenever those of the hardware do: no more of a
  disk or of the memory is in use than there is, and the processor is busy for a percentage of the time. The
  window shows the memory in use beside the capacity of the modules, not beside the total it was computed
  from, so that pair needs the modules to hold the total. Every statement keeps this, so it holds at every
  instant of a run.
Imports: Crum.Proofs.CpuWindows, Crum.Proofs.Progress, Crum.Proofs.StatementRuns
Trusted boundary: none
Main exports: SamplesInRange, DatabaseInRange, WindowInRange, exec_inRange, figures_in_range
Open obligations: none
-/
import Crum.Proofs.CpuWindows
import Crum.Proofs.Progress
import Crum.Proofs.StatementRuns

namespace Crum

open JavaLong JavaRuntime LastRow Run

/-! ### What is in range -/

/-- An amount in use and the whole it is a part of. -/
def UsedOf (used whole : Int64) : Prop := 0 ≤ used.toInt ∧ used.toInt ≤ whole.toInt

instance (used whole : Int64) : Decidable (UsedOf used whole) := inferInstanceAs (Decidable (_ ∧ _))

structure DatabaseInRange (db : Database Int64) : Prop where
  disc : ∀ row ∈ db.disc.rows, UsedOf row.discUsed row.discSize
  cpu : ∀ row ∈ db.cpu.rows, 0 ≤ row.coreUsage ∧ row.coreUsage ≤ 100
  ram : ∀ row ∈ db.ram.rows, UsedOf row.usedSpace row.totalSpace ∧ UsedOf row.usedSpace row.totalPhysical

/-- The same of the labels, as far as they show values yet. -/
structure WindowInRange (ui : CrumUI Int64) : Prop where
  disks : ∀ panel ∈ ui.diskList, ∀ size used, panel.diskSize.value = .long size →
    panel.amountUsed.value = .long used → UsedOf used size
  cpu : ∀ usage, ui.cpu.usageLabel.value = .int usage → 0 ≤ usage ∧ usage ≤ 100
  ram : ∀ size used, ui.ram.ramSizeLabel.value = .long size → ui.ram.ramUsedLabel.value = .long used →
    UsedOf used size

/-- The figures of a state, stored and shown. -/
structure FiguresInRange (state : CrumState Int64) : Prop where
  database : DatabaseInRange state.database
  window : WindowInRange state.ui

/-- The samples of a round are those of a computer with `fileStores` file stores: the free space is a part
of the whole, the ticks advance from `ticks` on for each logical processor, the available memory is a part of
the total, and the modules hold that total. -/
structure SamplesInRange (fileStores : Nat) (ticks : List Ticks) (round : Round Int64) : Prop where
  space : ∀ i < fileStores, UsedOf (round.disk i).space.freeSpace (round.disk i).space.totalSpace
  processors : round.cpu.windowEnd.length = round.cpu.logicalProcessorCount
  advance : TicksAdvance ticks round.cpu.windowEnd
  memory : UsedOf round.memory.available round.memory.total
  modules : ∀ capacity ∈ round.memory.moduleCapacities, 0 ≤ capacity.toInt
  capacity : round.memory.total.toInt ≤ (round.memory.moduleCapacities.map (·.toInt)).sum ∧
    (round.memory.moduleCapacities.map (·.toInt)).sum < 2 ^ 63

/-! ### The rows of one round -/

theorem pollStore_inRange {calendar : Int} {serialNum : String} {samples : Nat → StoreSamples Int64}
    {i : Nat} {before after : PollState Int64}
    (hspace : UsedOf (samples i).space.freeSpace (samples i).space.totalSpace)
    (hbefore : ∀ row ∈ before.table.rows, UsedOf row.discUsed row.discSize)
    (h : pollStore calendar serialNum samples i before = .ok after) :
    ∀ row ∈ after.table.rows, UsedOf row.discUsed row.discSize := by
  rcases pollStore_eq_ok_iff.mp h with ⟨entry, j, currDisk, poll, table, -, -, -, rfl, -, hrows, rfl⟩
  intro row hrow
  have hrow' : row ∈ table.rows := hrow
  rw [hrows, List.mem_append, List.mem_singleton] at hrow'
  rcases hrow' with hold | rfl
  · exact hbefore row hold
  · rcases hspace with ⟨hfree, hle⟩
    exact quot_sub_le hfree hle le_rfl (by decide)

theorem getCPUData_inRange {loadBetweenTicks : LoadBetweenTicks} {load : Ticks → Ticks → Rat}
    (heach : LoadsEach loadBetweenTicks load) (hload : LoadIsShare load) {calendar : Int}
    {serialNum : String} {state : Cpu} {cpu : CentralProcessor Int64} {table : CpuTable Int64}
    {after : Cpu × CpuTable Int64} (hcount : cpu.windowEnd.length = cpu.logicalProcessorCount)
    (hadvance : TicksAdvance state.prevLoadTicks cpu.windowEnd)
    (htable : ∀ row ∈ table.rows, 0 ≤ row.coreUsage ∧ row.coreUsage ≤ 100)
    (h : getCPUData loadBetweenTicks calendar serialNum state cpu table = .ok after) :
    ∀ row ∈ after.2.rows, 0 ≤ row.coreUsage ∧ row.coreUsage ≤ 100 := by
  rcases getCPUData_spec h with ⟨-, loads, hloads, -, -, hrows⟩
  have hbaseline : state.prevLoadTicks.length = cpu.logicalProcessorCount := by
    rw [hadvance.length_eq, hcount]
  obtain rfl : loads = List.zipWith load state.prevLoadTicks cpu.windowEnd :=
    heach _ _ _ _ hbaseline hcount hloads
  have hlength : (List.zipWith load state.prevLoadTicks cpu.windowEnd).length =
      cpu.logicalProcessorCount := by
    rw [List.length_zipWith, hbaseline, hcount, min_self]
  have hmean := mean_of_shares (hload.zipWith hadvance)
  rw [hlength] at hmean
  intro row hrow
  rw [hrows, List.mem_append, List.mem_singleton] at hrow
  rcases hrow with hold | rfl
  · exact htable row hold
  · rw [List.take_of_length_le hlength.le]
    constructor
    · exact mul_nonneg hmean.1 (by decide)
    · show _ / _ * 100 ≤ _
      linarith [hmean.2]

theorem getMemoryData_inRange {calendar : Int} {serialNum : String} {state : Memory}
    {memory : GlobalMemory Int64} {table after : RamTable Int64}
    (hmemory : UsedOf memory.available memory.total)
    (hmodules : ∀ capacity ∈ memory.moduleCapacities, 0 ≤ capacity.toInt)
    (hcapacity : memory.total.toInt ≤ (memory.moduleCapacities.map (·.toInt)).sum ∧
      (memory.moduleCapacities.map (·.toInt)).sum < 2 ^ 63)
    (htable : ∀ row ∈ table.rows,
      UsedOf row.usedSpace row.totalSpace ∧ UsedOf row.usedSpace row.totalPhysical)
    (h : getMemoryData calendar serialNum state memory table = .ok after) :
    ∀ row ∈ after.rows, UsedOf row.usedSpace row.totalSpace ∧ UsedOf row.usedSpace row.totalPhysical := by
  have hsum : (memory.moduleCapacities.foldl (· + ·) 0).toInt =
      (memory.moduleCapacities.map (·.toInt)).sum := by
    rw [toInt_foldl_add (by decide) hmodules]
    · exact zero_add _
    · exact lt_of_eq_of_lt (zero_add _) hcapacity.2
  intro row hrow
  rw [(getMemoryData_rows h).2, List.mem_append, List.mem_singleton] at hrow
  rcases hrow with hold | rfl
  · exact htable row hold
  · rcases hmemory with ⟨havailable, hle⟩
    exact ⟨quot_sub_le havailable hle le_rfl (by decide),
      quot_sub_le havailable hle (hcapacity.1.trans hsum.ge) (by decide)⟩

/-! ### The window -/

/-- A percentage is shown as one. -/
theorem truncateRat_bounds {q : Rat} (h : 0 ≤ q ∧ q ≤ 100) : 0 ≤ truncateRat q ∧ truncateRat q ≤ 100 := by
  have hfloor : truncateRat q = ⌊q⌋ := by
    rw [truncateRat, Int.tdiv_eq_ediv_of_nonneg (Rat.num_nonneg.mpr h.1), Rat.floor_def']
  rw [hfloor]
  constructor
  · exact Int.floor_nonneg.mpr h.1
  · exact Int.cast_le.mp ((Int.floor_le q).trans h.2)

/-- A refresh shows what is in range. -/
theorem WindowInRange.refresh {ui : CrumUI Int64} {db : Database Int64} (h : WindowInRange ui)
    (hdb : DatabaseInRange db) : WindowInRange (ui.refresh db) := by
  constructor
  · intro panel hpanel size used hsize hused
    simp only [CrumUI.refresh, List.mem_mapIdx] at hpanel
    rcases hpanel with ⟨i, hi, rfl⟩
    rcases overwrite_cases showDisc ui.diskList[i] (discScan db.disc i) with hsame | ⟨row, hrow, hshown⟩
    · rw [readAll, hsame] at hsize hused
      exact h.disks _ (List.getElem_mem hi) size used hsize hused
    · rw [readAll, hshown] at hsize hused
      obtain rfl := Shown.long.inj hsize
      obtain rfl := Shown.long.inj hused
      have hmem : row ∈ db.disc.rows := by
        rw [discScan, List.mem_insertionSort] at hrow
        exact List.mem_of_mem_filter hrow
      exact hdb.disc row hmem
  · have hcases : (ui.refresh db).cpu = ui.cpu ∨ ∃ row ∈ db.cpu.rows, (ui.refresh db).cpu = showCpu row :=
      overwrite_cases showCpu ui.cpu db.cpu.rows
    intro usage husage
    rcases hcases with hsame | ⟨row, hrow, hshown⟩
    · rw [hsame] at husage
      exact h.cpu usage husage
    · rw [hshown] at husage
      obtain rfl := Shown.int.inj husage
      exact truncateRat_bounds (hdb.cpu row hrow)
  · have hcases : (ui.refresh db).ram = ui.ram ∨ ∃ row ∈ db.ram.rows, (ui.refresh db).ram = showRam row :=
      overwrite_cases showRam ui.ram db.ram.rows
    intro size used hsize hused
    rcases hcases with hsame | ⟨row, hrow, hshown⟩
    · rw [hsame] at hsize hused
      exact h.ram size used hsize hused
    · rw [hshown] at hsize hused
      obtain rfl := Shown.long.inj hsize
      obtain rfl := Shown.long.inj hused
      exact (hdb.ram row hrow).2

/-! ### One statement -/

/-- Every statement of an iteration with samples in range keeps the figures in range; the insert into CPU
does when the ticks it starts from are those the samples advance from. -/
theorem exec_inRange {platform : Platform} {load : Ticks → Ticks → Rat}
    (heach : LoadsEach platform.loadBetweenTicks load) (hload : LoadIsShare load) {n : Nat}
    {ticks : List Ticks} {round : Round Int64} {state after : CrumState Int64} {statement : Statement}
    (hround : SamplesInRange n ticks round) (hscript : statement ∈ script n)
    (hticks : statement = .insertCpu → state.cpuData.prevLoadTicks = ticks) (h : FiguresInRange state)
    (hstep : exec platform round state statement = .ok after) : FiguresInRange after := by
  rcases h with ⟨hdb, hui⟩
  cases statement with
  | insertDisc i =>
      have hi : i < n := by simpa [script, inserts, deletes] using hscript
      simp only [exec, bind_eq_ok_iff] at hstep
      rcases hstep with ⟨polled, hpoll, hafter⟩
      obtain rfl := Except.ok.inj hafter
      exact ⟨{ hdb with disc := pollStore_inRange (hround.space i hi) hdb.disc hpoll }, hui⟩
  | insertCpu =>
      simp only [exec, bind_eq_ok_iff] at hstep
      rcases hstep with ⟨cpu, hcpu, hafter⟩
      obtain rfl := Except.ok.inj hafter
      have hadvance : TicksAdvance state.cpuData.prevLoadTicks round.cpu.windowEnd := by
        rw [hticks rfl]
        exact hround.advance
      have husage := getCPUData_inRange heach hload hround.processors hadvance hdb.cpu hcpu
      exact ⟨{ hdb with cpu := husage }, hui⟩
  | insertRam =>
      simp only [exec, bind_eq_ok_iff] at hstep
      rcases hstep with ⟨ram, hram, hafter⟩
      obtain rfl := Except.ok.inj hafter
      have hmemory := getMemoryData_inRange hround.memory hround.modules hround.capacity hdb.ram hram
      exact ⟨{ hdb with ram := hmemory }, hui⟩
  | insertNetwork =>
      simp only [exec, bind_eq_ok_iff] at hstep
      rcases hstep with ⟨network, -, hafter⟩
      obtain rfl := Except.ok.inj hafter
      exact ⟨{ hdb with }, hui⟩
  | deleteMachine =>
      obtain rfl := Except.ok.inj hstep
      exact ⟨{ hdb with }, hui⟩
  | deleteDisc =>
      obtain rfl := Except.ok.inj hstep
      exact ⟨{ hdb with disc := fun row hrow => hdb.disc row (KeyedTable.mem_deleteWhere.mp hrow).1 }, hui⟩
  | deleteCpu =>
      obtain rfl := Except.ok.inj hstep
      exact ⟨{ hdb with cpu := fun row hrow => hdb.cpu row (KeyedTable.mem_deleteWhere.mp hrow).1 }, hui⟩
  | deleteRam =>
      obtain rfl := Except.ok.inj hstep
      exact ⟨{ hdb with ram := fun row hrow => hdb.ram row (KeyedTable.mem_deleteWhere.mp hrow).1 }, hui⟩
  | deleteNetwork =>
      obtain rfl := Except.ok.inj hstep
      exact ⟨{ hdb with }, hui⟩
  | refresh =>
      obtain rfl := Except.ok.inj hstep
      exact ⟨hdb, hui.refresh hdb⟩

/-- Only the insert into CPU moves on to another baseline. -/
theorem exec_cpuData {platform : Platform} {round : Round Int64} {state after : CrumState Int64}
    {statement : Statement} (hother : statement ≠ .insertCpu)
    (h : exec platform round state statement = .ok after) : after.cpuData = state.cpuData := by
  cases statement
  case insertCpu => exact absurd rfl hother
  case insertDisc | insertRam | insertNetwork =>
    simp only [exec, bind_eq_ok_iff] at h
    rcases h with ⟨inserted, -, hafter⟩
    obtain rfl := Except.ok.inj hafter
    rfl
  all_goals
    obtain rfl := Except.ok.inj h
    rfl

theorem nodup_script (n : Nat) : (script n).Nodup := by
  have hdisc : ((List.range n).map Statement.insertDisc).Nodup :=
    List.nodup_range.map fun i j h => Statement.insertDisc.inj h
  rw [script, inserts, List.append_assoc, List.nodup_append]
  refine ⟨hdisc, by decide, ?_⟩
  intro statement hmem other hother
  rcases List.mem_map.mp hmem with ⟨i, -, rfl⟩
  rintro rfl
  simp [deletes] at hother

/-- All along the script the figures stay in range. -/
theorem run_inRange {platform : Platform} {load : Ticks → Ticks → Rat}
    (heach : LoadsEach platform.loadBetweenTicks load) (hload : LoadIsShare load) {n k : Nat}
    {round : Round Int64} {before now : CrumState Int64}
    (hround : SamplesInRange n before.cpuData.prevLoadTicks round) (hbefore : FiguresInRange before)
    (h : run (exec platform round) before ((script n).take k) = .ok now) : FiguresInRange now := by
  have hall := run_invariant (fun past now => past <+: script n →
    (.insertCpu ∉ past → now.cpuData = before.cpuData) ∧ FiguresInRange now)
    (fun _ => ⟨fun _ => rfl, hbefore⟩) ?_ h
  · exact (hall (List.take_prefix k (script n))).2
  · intro past during statement next hduring hstep hprefix
    rcases hduring ((List.prefix_append past [statement]).trans hprefix) with ⟨hcpuData, hrange⟩
    have hscript : statement ∈ script n := hprefix.subset (by simp)
    constructor
    · intro hnone
      have hother : statement ≠ .insertCpu := fun heq => hnone (by simp [heq])
      rw [exec_cpuData hother hstep]
      exact hcpuData fun hmem => hnone (List.mem_append_left _ hmem)
    · refine exec_inRange heach hload hround hscript ?_ hrange hstep
      rintro rfl
      -- the script comes to the insert into CPU only once
      have hnodup := (nodup_script n).sublist hprefix.sublist
      rw [List.nodup_append] at hnodup
      rw [hcpuData fun hmem => hnodup.2.2 _ hmem _ (List.mem_singleton_self _) rfl]

/-! ### Runs -/

/-- The samples of every round of a run are in range. -/
def RunInRange (hw : Hardware Int64) (rounds : List (Round Int64)) : Prop :=
  ∀ past round rest, rounds = past ++ round :: rest →
    SamplesInRange hw.fileStores.length (lastTicks hw past) round

theorem RunInRange.init {hw : Hardware Int64} {past : List (Round Int64)} {round : Round Int64}
    (h : RunInRange hw (past ++ [round])) : RunInRange hw past := by
  rintro earlier between rest rfl
  exact h earlier between (rest ++ [round]) (by simp)

theorem FiguresInRange.start {hw : Hardware Int64} {now : Int} {state : CrumState Int64}
    (h : initMain hw now = .ok state) : FiguresInRange state := by
  simp only [initMain, bind_eq_ok_iff] at h
  rcases h with ⟨⟨diskData, n⟩, hdisk, machine, -, hstate⟩
  obtain rfl := Except.ok.inj hstate
  constructor
  · constructor <;> intro row hrow <;> cases hrow
  · constructor
    · intro panel hpanel size used hsize
      obtain rfl := (List.mem_replicate.mp hpanel).2
      cases hsize
    · intro usage husage
      cases husage
    · intro size used hsize
      cases hsize

/-- At every loop head of a run whose samples are in range. -/
theorem runMain_inRange {platform : Platform} {load : Ticks → Ticks → Rat}
    (heach : LoadsEach platform.loadBetweenTicks load) (hload : LoadIsShare load) {hw : Hardware Int64}
    {now : Int} {rounds : List (Round Int64)} {state : CrumState Int64} (hrounds : RunInRange hw rounds)
    (h : runMain platform hw now rounds = .ok state) : FiguresInRange state := by
  refine (runMain_invariant (fun past state => (∃ log, Reckoned platform hw past log state) ∧
    (RunInRange hw past → FiguresInRange state)) ?_ ?_ h).2 hrounds
  · intro start hinit
    exact ⟨⟨_, initMain_reckoned hinit⟩, fun _ => FiguresInRange.start hinit⟩
  · rintro past before round after ⟨⟨log, hreckoned⟩, hbefore⟩ hstep
    refine ⟨(hreckoned.step hstep).2, fun hpast => ?_⟩
    have hround := hpast past round [] rfl
    have hlength : before.diskData.entries.length = hw.fileStores.length := hreckoned.inv.length_entries
    rw [← hreckoned.baseline, ← hlength] at hround
    rw [iteration_eq_run, ← List.take_length (l := script before.diskData.entries.length)] at hstep
    exact run_inRange heach hload hround (hbefore hpast.init) hstep

/-- In every run whose samples are in range, whatever the clocks and SQLite's reading of the stamps, all
figures that are stored or shown are: at the loop head, and after any number of statements of the iteration
that follows. -/
theorem figures_in_range {platform : Platform} {load : Ticks → Ticks → Rat} {hw : Hardware Int64} {now : Int}
    {rounds : List (Round Int64)} {state : CrumState Int64}
    (heach : LoadsEach platform.loadBetweenTicks load) (hload : LoadIsShare load)
    (hrounds : RunInRange hw rounds) (h : runMain platform hw now rounds = .ok state) :
    (DatabaseInRange state.database ∧ WindowInRange state.ui) ∧
      ∀ round, SamplesInRange hw.fileStores.length (lastTicks hw rounds) round → ∀ k during,
        run (exec platform round) state ((script hw.fileStores.length).take k) = .ok during →
          DatabaseInRange during.database ∧ WindowInRange during.ui := by
  have hstate := runMain_inRange heach hload hrounds h
  refine ⟨⟨hstate.database, hstate.window⟩, ?_⟩
  intro round hround k during hduring
  rcases runMain_reckoned h with ⟨log, hreckoned⟩
  rw [← hreckoned.baseline] at hround
  have hrange := run_inRange heach hload hround hstate hduring
  exact ⟨hrange.database, hrange.window⟩

/-- A round on a disk with 200 of 500 GB free, with 6 of 16 GB of memory available, after 70 busy and 30 idle
ticks. -/
def mixedRound : Round Int64 :=
  { smallRound 1618920001000 1618920001000 0 with
    disk := fun _ => ⟨⟨536870912000, 214748364800⟩, ⟨0, 0, 0⟩, ⟨0, 0, 0⟩⟩
    cpu := ⟨"P", "cpu", 0, 1, 1, [[70, 0, 0, 30, 0, 0, 0, 0]], [[70, 0, 0, 30, 0, 0, 0, 0]]⟩
    memory := ⟨16000000000, 6000000000, [8589934592, 8589934592], 0⟩ }

theorem mixedRound_inRange : RunInRange smallComputer [mixedRound] := by
  intro past round rest hsplit
  obtain ⟨rfl, rfl, rfl⟩ : past = [] ∧ round = mixedRound ∧ rest = [] := by
    cases past with
    | nil => simpa [eq_comm] using hsplit
    | cons first past => simp at hsplit
  constructor
  · intro i _
    exact (by decide : UsedOf 214748364800 536870912000)
  · rfl
  · exact .cons (by decide) .nil
  · decide
  · intro capacity hmem
    obtain rfl : capacity = 8589934592 := by simpa [mixedRound] using hmem
    decide
  · exact ⟨by decide, by decide⟩

/-- On a computer whose loads are the busy shares. -/
def sharingPlatform : Platform := { utcPlatform with loadBetweenTicks := pairedLoads busyShare }

/-- It is stored as 300 of 500 GB, 70 percent, and 10000 of 16000 and 17179 MB. -/
theorem mixedRound_figures :
    ∃ state, runMain sharingPlatform smallComputer 1618920000000 [mixedRound] = .ok state ∧
      state.database.disc.rows.map (fun row => (row.discUsed, row.discSize)) = [(300, 500)] ∧
      state.database.cpu.rows.map (·.coreUsage) = [70] ∧
      state.database.ram.rows.map (fun row => (row.usedSpace, row.totalSpace, row.totalPhysical)) =
        [(10000, 16000, 17179)] ∧
      DatabaseInRange state.database ∧ WindowInRange state.ui := by
  obtain ⟨state, hrun, hfigures⟩ := exists_of_toOption
    (by decide +kernel : (runMain sharingPlatform smallComputer 1618920000000 [mixedRound]).toOption.map
      (fun state => (state.database.disc.rows.map (fun row => (row.discUsed, row.discSize)),
        state.database.cpu.rows.map (·.coreUsage),
        state.database.ram.rows.map fun row => (row.usedSpace, row.totalSpace, row.totalPhysical))) =
      some ([(300, 500)], [70], [(10000, 16000, 17179)]))
  rcases Prod.mk.inj hfigures with ⟨hdisc, hrest⟩
  rcases Prod.mk.inj hrest with ⟨hcpu, hram⟩
  exact ⟨state, hrun, hdisc, hcpu, hram,
    (figures_in_range (pairedLoads_each busyShare) busyShare_isShare mixedRound_inRange hrun).1⟩

end Crum
