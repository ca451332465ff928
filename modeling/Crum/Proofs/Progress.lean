/-
Module: Crum.Proofs.Progress
Layer: Proofs
Purpose: How long the program lives. An iteration completes exactly when every file store is mapped to a
  disk, no kept round carries its calendar value, and OSHI returns a load for every logical processor. Which
  stamps are kept depends on the clocks alone, so whether a run completes can be told from its inputs.
Imports: Crum.Core.Statements, Crum.Proofs.RoundAlignment, Crum.Proofs.DiskCoverage
Trusted boundary: none
Main exports: keptStamps, lastTicks, SteadyProcessors, Reckoned, runMain_reckoned, runMain_completes_iff,
  stored_stamps, run_outcome
Open obligations: none
-/
import Crum.Core.Statements
import Crum.Proofs.RoundAlignment
import Crum.Proofs.DiskCoverage

namespace Crum

open JavaRuntime Run

variable {α : Type} [JavaLong α]

/-! ### When a gathering method returns -/

theorem getCPUData_returns {loadBetweenTicks : LoadBetweenTicks} {calendar : Int} {serialNum : String}
    {state : Cpu} {cpu : CentralProcessor α} {table : CpuTable α}
    (hloads : LoadsSuffice loadBetweenTicks state.prevLoadTicks cpu)
    (hfree : ∀ row ∈ table.rows, row.timestamp ≠ calendar) :
    ∃ after, getCPUData loadBetweenTicks calendar serialNum state cpu table = .ok after := by
  rcases getCPUData_insert hloads with ⟨state', usage, heq⟩
  let row := cpuRow calendar serialNum cpu usage
  have hnew : row.key ∉ table.rows.map CpuRow.key :=
    KeyedTable.notMem_keys CpuRow.timestamp (fun r hkey => congrArg (·.2.2) hkey) hfree
  rcases KeyedTable.insert_of_notMem hnew with ⟨inserted, hinsert⟩
  have hexec : execute "CPU" table row = .ok inserted :=
    execute_eq_ok_iff.mpr (KeyedTable.insert_eq_some_iff.mp hinsert)
  rw [heq, hexec]
  exact ⟨_, rfl⟩

theorem getMemoryData_returns {calendar : Int} {table : RamTable α} (serialNum : String) (state : Memory)
    (memory : GlobalMemory α) (hfree : ∀ row ∈ table.rows, row.timestamp ≠ calendar) :
    ∃ after, getMemoryData calendar serialNum state memory table = .ok after := by
  have hnew : (ramRow calendar serialNum state memory).key ∉ table.rows.map RamRow.key :=
    KeyedTable.notMem_keys RamRow.timestamp (fun r hkey => congrArg (·.2.2) hkey) hfree
  rcases KeyedTable.insert_of_notMem hnew with ⟨inserted, hinsert⟩
  exact ⟨inserted, execute_eq_ok_iff.mpr (KeyedTable.insert_eq_some_iff.mp hinsert)⟩

/-! ### What the clocks and the processor decide -/

/-- The stamps of the rounds that the cullings so far have left. -/
def keptStamps (platform : Platform) (rounds : List (Round α)) : List Int :=
  rounds.foldl (fun kept round =>
    (kept ++ [round.calendar]).filter fun stamp => judge platform round stamp != some true) []

omit [JavaLong α] in
theorem keptStamps_snoc (platform : Platform) (past : List (Round α)) (round : Round α) :
    keptStamps platform (past ++ [round]) =
      (keptStamps platform past ++ [round.calendar]).filter fun stamp =>
        judge platform round stamp != some true := by
  rw [keptStamps, List.foldl_append]
  rfl

/-- The tick sample that the window of the next `getCPUData` call begins with. -/
def lastTicks (hw : Hardware α) (past : List (Round α)) : List Ticks :=
  match past.getLast? with
  | some round => round.cpu.nextTicks
  | none => hw.processorCpuLoadTicks

omit [JavaLong α] in
@[simp] theorem lastTicks_snoc (hw : Hardware α) (past : List (Round α)) (round : Round α) :
    lastTicks hw (past ++ [round]) = round.cpu.nextTicks := by
  simp [lastTicks]

/-- There are `n` processors throughout, and every sample of the ticks is of them. -/
structure SteadyProcessors (n : Nat) (hw : Hardware α) (rounds : List (Round α)) : Prop where
  one_le : 1 ≤ n
  first : SampleOf n hw.processorCpuLoadTicks
  count : ∀ round ∈ rounds, round.cpu.logicalProcessorCount = n
  window_end : ∀ round ∈ rounds, SampleOf n round.cpu.windowEnd
  next : ∀ round ∈ rounds, SampleOf n round.cpu.nextTicks

omit [JavaLong α] in
/-- The window of every round is then between two samples of these processors, and OSHI returns its
loads. -/
theorem SteadyProcessors.suffice {n : Nat} {hw : Hardware α} {rounds : List (Round α)}
    (h : SteadyProcessors n hw rounds) {loadBetweenTicks : LoadBetweenTicks}
    (hloads : LoadsPerProcessor loadBetweenTicks) {past rest : List (Round α)} {round : Round α}
    (hsplit : rounds = past ++ round :: rest) :
    LoadsSuffice loadBetweenTicks (lastTicks hw past) round.cpu := by
  have hround : round ∈ rounds := by simp [hsplit]
  have hbaseline : SampleOf n (lastTicks hw past) := by
    rcases List.eq_nil_or_concat past with rfl | ⟨front, last, rfl⟩
    · exact h.first
    · rw [List.concat_eq_append, lastTicks_snoc]
      exact h.next last (by simp [hsplit])
  apply hloads.suffice
  · rw [h.count round hround]
    exact h.one_le
  · rw [h.count round hround]
    exact hbaseline
  · rw [h.count round hround]
    exact h.window_end round hround

/-- The state at a loop head as far as it decides how the run goes on. -/
structure Reckoned (platform : Platform) (hw : Hardware α) (past : List (Round α))
    (log : RoundLog α hw.site) (state : CrumState α) : Prop where
  inv : LoopInv hw.site log state
  stamps : log.rows.map RoundRecord.stamp = keptStamps platform past
  baseline : state.cpuData.prevLoadTicks = lastTicks hw past
  in_range : ∀ i j, state.diskData.fileStoresToDisks i = some j → j < state.diskData.disks.length
  covered : (∀ i < hw.fileStores.length, ∃ j, state.diskData.fileStoresToDisks i = some j) ↔
    AllStoresMatched hw.fileStores hw.disks

/-- What an iteration needs to complete after the rounds `past`. -/
structure Survives (platform : Platform) (hw : Hardware α) (past : List (Round α)) (round : Round α) :
    Prop where
  stores : AllStoresMatched hw.fileStores hw.disks
  stamp : round.calendar ∉ keptStamps platform past
  loads : LoadsSuffice platform.loadBetweenTicks (lastTicks hw past) round.cpu

theorem initMain_reckoned {platform : Platform} {hw : Hardware α} {now : Int} {state : CrumState α}
    (h : initMain hw now = .ok state) : Reckoned platform hw [] .empty state := by
  have hinv := (initMain_eq_ok h).2
  simp only [initMain, bind_eq_ok_iff] at h
  rcases h with ⟨⟨diskData, n⟩, hdisk, machine, -, hstate⟩
  obtain rfl := Except.ok.inj hstate
  obtain rfl : n = hw.fileStores.length := (initDisk_spec hdisk).1
  exact ⟨hinv, rfl, rfl, fun i j hij => initDisk_map_lt hdisk hij, allMapped_iff hdisk⟩

/-- An iteration that completes has had what it needs, and its round is reckoned in. -/
theorem Reckoned.step {platform : Platform} {hw : Hardware α} {past : List (Round α)}
    {log : RoundLog α hw.site} {before after : CrumState α} {round : Round α}
    (h : Reckoned platform hw past log before) (hstep : iteration platform before round = .ok after) :
    Survives platform hw past round ∧ ∃ log', Reckoned platform hw (past ++ [round]) log' after := by
  rcases iteration_refines h.inv hstep with ⟨record, log', hstamp, hadvance, hinv⟩
  rcases iteration_calls hstep with
    ⟨polled, cpu, ram, network, hdisk, hcpu, -, -, -, hdiskData, hcpuData, -, -⟩
  have hspec := getDiskData_spec hdisk
  have hlength : before.diskData.entries.length = hw.fileStores.length := h.inv.length_entries
  rcases Option.map_eq_some_iff.mp hadvance with ⟨grown, hinsert, rfl⟩
  rcases KeyedTable.insert_eq_some_iff.mp hinsert with ⟨hnew, hgrown⟩
  constructor
  · refine ⟨?_, ?_, ?_⟩
    · rw [← h.covered]
      intro i hi
      exact getDiskData_mapped hdisk (hlength ▸ hi)
    · rw [← h.stamps, ← hstamp]
      exact hnew
    · rw [← h.baseline]
      exact getCPUData_loads hcpu
  · refine ⟨_, hinv, ?_, ?_, ?_, ?_⟩
    · rw [keptStamps_snoc, ← h.stamps, ← hstamp, KeyedTable.deleteWhere_rows, hgrown,
        ← List.map_singleton, ← List.map_append, List.filter_map]
      rfl
    · rw [lastTicks_snoc, hcpuData, (getCPUData_spec hcpu).1]
    · rw [hdiskData, hspec.map_eq, hspec.length_disks]
      exact h.in_range
    · rw [hdiskData, hspec.map_eq]
      exact h.covered

omit [JavaLong α] in
/-- A stamp that no kept round has is carried by no sample. -/
theorem Reckoned.noSamples {platform : Platform} {hw : Hardware α} {past : List (Round α)}
    {log : RoundLog α hw.site} {state : CrumState α} (h : Reckoned platform hw past log state)
    {tau : Int} (hnew : tau ∉ keptStamps platform past) : NoSamples state.database tau := by
  rw [← h.stamps] at hnew
  have hfree : ∀ r ∈ log.rows, r.stamp ≠ tau := by
    intro r hr hstamp
    exact hnew (hstamp ▸ List.mem_map_of_mem hr)
  refine ⟨?_, ?_, ?_, ?_⟩
  · intro row hrow hstamp
    rcases h.inv.records.disc_round hrow with ⟨r, hr, hround, -⟩
    exact hfree r hr (hround ▸ hstamp)
  · intro row hrow hstamp
    rcases h.inv.records.cpu_round hrow with ⟨r, hr, hround, -⟩
    exact hfree r hr (hround ▸ hstamp)
  · intro row hrow hstamp
    rcases h.inv.records.ram_round hrow with ⟨r, hr, hround, -⟩
    exact hfree r hr (hround ▸ hstamp)
  · intro row hrow hstamp
    rcases h.inv.records.network_round hrow with ⟨r, hr, hround, -⟩
    exact hfree r hr (hround ▸ hstamp)

/-- An iteration that has what it needs completes. -/
theorem Reckoned.returns {platform : Platform} {hw : Hardware α} {past : List (Round α)}
    {log : RoundLog α hw.site} {before : CrumState α} {round : Round α}
    (h : Reckoned platform hw past log before) (hsurvives : Survives platform hw past round) :
    ∃ after, iteration platform before round = .ok after := by
  have hlength : before.diskData.entries.length = hw.fileStores.length := h.inv.length_entries
  have hmapped : before.diskData.AllMapped := by
    intro i hi
    rcases h.covered.mpr hsurvives.stores i (hlength ▸ hi) with ⟨j, hij⟩
    exact ⟨j, h.in_range i j hij, hij⟩
  -- no kept round, and so no row, carries the calendar value
  have hnone := h.noSamples hsurvives.stamp
  have hloads : LoadsSuffice platform.loadBetweenTicks before.cpuData.prevLoadTicks round.cpu := by
    rw [h.baseline]
    exact hsurvives.loads
  rcases getDiskData_returns round.disk hmapped fun row hrow _ _ => hnone.disc row hrow with
    ⟨polled, hpolled⟩
  obtain ⟨cpu, hcpu⟩ : ∃ cpu, getCPUData platform.loadBetweenTicks round.calendar before.serialNum
      before.cpuData round.cpu before.database.cpu = .ok cpu := getCPUData_returns hloads hnone.cpu
  rcases getMemoryData_returns before.serialNum before.memoryData round.memory hnone.ram with ⟨ram, hram⟩
  rcases getNetworkData_returns before.serialNum before.networkData round.network hnone.network with
    ⟨network, hnetwork⟩
  simp only [iteration, gather, bind_eq_ok_iff]
  exact ⟨_, _, ⟨polled, hpolled, cpu, hcpu, ram, hram, network, hnetwork, rfl⟩, rfl⟩

/-! ### Whole runs -/

theorem runMain_reckoned {platform : Platform} {hw : Hardware α} {now : Int} {rounds : List (Round α)}
    {state : CrumState α} (h : runMain platform hw now rounds = .ok state) :
    ∃ log, Reckoned platform hw rounds log state := by
  refine runMain_invariant (fun rounds state => ∃ log, Reckoned platform hw rounds log state) ?_ ?_ h
  · intro start hinit
    exact ⟨_, initMain_reckoned hinit⟩
  · intro past before round after hbefore hstep
    rcases hbefore with ⟨log, hbefore⟩
    exact (hbefore.step hstep).2

/-- The initialisation completes when there is an array entry for every disk. -/
theorem initMain_completes_iff {hw : Hardware α} {now : Int} :
    (∃ state, initMain hw now = .ok state) ↔ hw.disks.length ≤ hw.fileStores.length := by
  constructor
  · rintro ⟨state, h⟩
    simp only [initMain, bind_eq_ok_iff] at h
    rcases h with ⟨⟨diskData, n⟩, hdisk, -⟩
    exact (initDisk_spec hdisk).2.bound
  · intro hbound
    rcases initDisk_returns hw.fileStores hw.disks hbound with ⟨diskData, hdisk⟩
    simp only [initMain, bind_eq_ok_iff]
    exact ⟨_, _, hdisk, _, rfl, rfl⟩

/-- A run of the program completes all its rounds exactly when the initialisation does and every round
finds what it needs after those before it. -/
theorem runMain_completes_iff {platform : Platform} {hw : Hardware α} {now : Int}
    {rounds : List (Round α)} :
    (∃ state, runMain platform hw now rounds = .ok state) ↔
      hw.disks.length ≤ hw.fileStores.length ∧
        ∀ past round rest, rounds = past ++ round :: rest → Survives platform hw past round := by
  induction rounds using List.reverseRecOn with
  | nil =>
      have hstart : runMain platform hw now ([] : List (Round α)) = initMain hw now :=
        bind_pure (initMain hw now)
      rw [hstart, initMain_completes_iff]
      simp
  | append_singleton past round ih =>
      constructor
      · rintro ⟨after, hrun⟩
        rcases (runMain_snoc past).mp hrun with ⟨before, hbefore, hstep⟩
        rcases ih.mp ⟨before, hbefore⟩ with ⟨hbound, hpast⟩
        rcases runMain_reckoned hbefore with ⟨log, hreckoned⟩
        refine ⟨hbound, ?_⟩
        intro earlier middle rest hsplit
        -- the round in question is the last one or one of the past
        rcases List.eq_nil_or_concat rest with rfl | ⟨front, last, rfl⟩
        · rcases List.append_singleton_inj.mp hsplit with ⟨rfl, rfl⟩
          exact (hreckoned.step hstep).1
        · rw [List.concat_eq_append, ← List.cons_append, ← List.append_assoc] at hsplit
          exact hpast earlier middle front (List.append_singleton_inj.mp hsplit).1
      · rintro ⟨hbound, hall⟩
        have hpast : ∀ earlier middle rest, past = earlier ++ middle :: rest →
            Survives platform hw earlier middle := by
          intro earlier middle rest hsplit
          exact hall earlier middle (rest ++ [round]) (by rw [hsplit]; simp)
        rcases ih.mpr ⟨hbound, hpast⟩ with ⟨before, hbefore⟩
        rcases runMain_reckoned hbefore with ⟨log, hreckoned⟩
        rcases hreckoned.returns (hall past round [] rfl) with ⟨after, hafter⟩
        exact ⟨after, (runMain_snoc past).mpr ⟨before, hbefore, hafter⟩⟩

/-! ### What is stored -/

/-- The stamps in the tables are the kept ones, once in each of CPU, RAM and NETWORK and once for each
file store in DISC, in the order of the rounds. -/
theorem stored_stamps {platform : Platform} {hw : Hardware α} {now : Int} {rounds : List (Round α)}
    {state : CrumState α} (h : runMain platform hw now rounds = .ok state) :
    state.database.cpu.rows.map (·.timestamp) = keptStamps platform rounds ∧
      state.database.ram.rows.map (·.timestamp) = keptStamps platform rounds ∧
      state.database.network.rows.map (·.timestamp) = keptStamps platform rounds ∧
      state.database.disc.rows.map (fun row => (row.timestamp, row.discId)) =
        (keptStamps platform rounds).flatMap fun stamp =>
          (List.range hw.fileStores.length).map fun i => (stamp, i) := by
  rcases runMain_reckoned h with ⟨log, hreckoned⟩
  have hrecords := hreckoned.inv.records
  rw [← hreckoned.stamps, List.flatMap_map, List.map_eq_flatMap (f := RoundRecord.stamp)]
  refine ⟨hrecords.cpu.map_eq ?_, hrecords.ram.map_eq ?_, hrecords.network.map_eq ?_,
    hrecords.disc.map_eq ?_⟩
  · intro r
    rw [List.map_singleton, r.cpu_of.1]
  · intro r
    rw [List.map_singleton, r.ram_of.1]
  · intro r
    rw [List.map_singleton, r.network_of.1]
  · intro r
    have hstamp : r.disc.map (fun row => (row.timestamp, row.discId)) =
        r.disc.map fun row => (r.stamp, row.discId) := by
      apply List.map_congr_left
      intro row hrow
      rw [r.disc_stamp row hrow]
    have hids : (List.range hw.fileStores.length) = r.disc.map (·.discId) := r.disc_ids.symm
    rw [hstamp, hids, List.map_map]
    rfl

/-- The outcome of a run in terms of its inputs: whether it completes, and which rounds are then stored. -/
theorem run_outcome (platform : Platform) (hw : Hardware α) (now : Int) (rounds : List (Round α)) :
    ((∃ state, runMain platform hw now rounds = .ok state) ↔
      hw.disks.length ≤ hw.fileStores.length ∧
        ∀ past round rest, rounds = past ++ round :: rest → Survives platform hw past round) ∧
    ∀ state, runMain platform hw now rounds = .ok state →
      state.database.cpu.rows.map (·.timestamp) = keptStamps platform rounds ∧
        state.database.ram.rows.map (·.timestamp) = keptStamps platform rounds ∧
        state.database.network.rows.map (·.timestamp) = keptStamps platform rounds ∧
        state.database.disc.rows.map (fun row => (row.timestamp, row.discId)) =
          (keptStamps platform rounds).flatMap fun stamp =>
            (List.range hw.fileStores.length).map fun i => (stamp, i) :=
  ⟨runMain_completes_iff, fun _ h => stored_stamps h⟩

end Crum
