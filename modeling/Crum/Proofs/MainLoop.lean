/-
Module: Crum.Proofs.MainLoop
Layer: Proofs
Purpose: The main loop refines the log of complete rounds. A completed iteration has inserted one complete
  round under the calendar value of the iteration and has then culled by stamp; what makes the stamp of the
  round new is the key of RAM, the only one whose other columns cannot change during a run.
Imports: Crum.Spec.RoundLog, Crum.Proofs.NetworkPoll, Crum.Proofs.DiskPoll, Crum.Proofs.CpuPoll
Trusted boundary: none
Main exports: gather_records, iteration_calls, iteration_refines, LoopInv, runMain_snoc, runMain_inv
Open obligations: none
-/
import Crum.Spec.RoundLog
import Crum.Proofs.NetworkPoll
import Crum.Proofs.DiskPoll
import Crum.Proofs.CpuPoll

namespace Crum

open JavaRuntime Run

variable {α : Type} [JavaLong α]

/-! ### The gathering methods -/

/-- Everything `getMemoryData` can have done: the key was free. -/
theorem getMemoryData_rows {calendar : Int} {serialNum : String} {state : Memory}
    {memory : GlobalMemory α} {table after : RamTable α}
    (h : getMemoryData calendar serialNum state memory table = .ok after) :
    (state.numMemModules, serialNum, calendar) ∉ table.rows.map RamRow.key ∧
      after.rows = table.rows ++ [ramRow calendar serialNum state memory] :=
  execute_eq_ok_iff.mp h

/-- The four calls of one `gather` that returned, and the state they leave. -/
theorem gather_eq_ok {platform : Platform} {state after : CrumState α} {round : Round α}
    (h : gather platform state round = .ok after) :
    ∃ polled cpu ram network,
      getDiskData round.calendar state.serialNum state.diskData round.disk state.database.disc =
        .ok polled ∧
      getCPUData platform.loadBetweenTicks round.calendar state.serialNum state.cpuData round.cpu
        state.database.cpu = .ok cpu ∧
      getMemoryData round.calendar state.serialNum state.memoryData round.memory state.database.ram =
        .ok ram ∧
      getNetworkData round.calendar state.serialNum state.networkData round.network
        state.database.network = .ok network ∧
      after = { state with
        diskData := polled.disk
        cpuData := cpu.1
        networkData := network.1
        database :=
          { state.database with disc := polled.table, cpu := cpu.2, ram := ram, network := network.2 } } := by
  simp only [gather, bind_eq_ok_iff] at h
  rcases h with ⟨polled, hdisk, cpu, hcpu, ram, hram, network, hnetwork, hafter⟩
  exact ⟨polled, cpu, ram, network, hdisk, hcpu, hram, hnetwork, (Except.ok.inj hafter).symm⟩

/-! ### One iteration refines one step of the log -/

/-- What the program found at its start and never changes. -/
def CrumState.site (state : CrumState α) : Site where
  fileStores := state.diskData.entries.length
  serialNum := state.serialNum
  memModules := state.memoryData.numMemModules

/-- The tables hold the rounds of `log`, and the window has a panel for each file store. -/
structure LoopInv (site : Site) (log : RoundLog α site) (state : CrumState α) : Prop where
  site_eq : state.site = site
  records : Records state.database log
  panels : state.ui.diskList.length = site.fileStores

section Inv

variable {α : Type} {site : Site} {log : RoundLog α site} {state : CrumState α}

theorem LoopInv.length_entries (h : LoopInv site log state) :
    state.diskData.entries.length = site.fileStores := congrArg Site.fileStores h.site_eq

theorem LoopInv.serialNum_eq (h : LoopInv site log state) : state.serialNum = site.serialNum :=
  congrArg Site.serialNum h.site_eq

theorem LoopInv.numMemModules_eq (h : LoopInv site log state) :
    state.memoryData.numMemModules = site.memModules := congrArg Site.memModules h.site_eq

end Inv

/-- The four gathering methods insert one complete round, whose stamp no kept round has. -/
theorem gather_records {platform : Platform} {site : Site} {log : RoundLog α site}
    {state after : CrumState α} {round : Round α} (hinv : LoopInv site log state)
    (h : gather platform state round = .ok after) :
    ∃ record log', record.stamp = round.calendar ∧ Inserted state.database record after.database ∧
      log.insert record = some log' ∧ LoopInv site log' after ∧ after.ui = state.ui := by
  rcases gather_eq_ok h with ⟨polled, cpu, ram, network, hdisk, hcpu, hram, hnetwork, rfl⟩
  have hspec := getDiskData_spec hdisk
  obtain ⟨currentLoad, hcpuRows⟩ : ∃ currentLoad, cpu.2.rows = state.database.cpu.rows ++
      [cpuRow round.calendar state.serialNum round.cpu currentLoad] := getCPUData_rows hcpu
  rcases getMemoryData_rows hram with ⟨hfree, hramRows⟩
  rcases getNetworkData_eq_ok_iff.mp hnetwork with ⟨-, -, hnetworkRows⟩
  let record : RoundRecord α site :=
    { stamp := round.calendar
      disc := polled.polled.map (·.row)
      cpu := cpuRow round.calendar state.serialNum round.cpu currentLoad
      ram := ramRow round.calendar state.serialNum state.memoryData round.memory
      network := networkRow round.calendar state.serialNum
        (pollNetwork state.networkData round.network).1
      disc_ids := by rw [hspec.discIds, hinv.length_entries]
      disc_of := by rw [← hinv.serialNum_eq]; exact hspec.stamped
      cpu_of := ⟨rfl, hinv.serialNum_eq⟩
      ram_of := ⟨rfl, hinv.serialNum_eq, hinv.numMemModules_eq⟩
      network_of := ⟨rfl, hinv.serialNum_eq⟩ }
  have hnew : record.stamp ∉ log.rows.map RoundRecord.stamp := by
    rw [hinv.numMemModules_eq, hinv.serialNum_eq] at hfree
    exact hinv.records.stamp_new hfree
  rcases KeyedTable.insert_of_notMem hnew with ⟨log', hlog⟩
  have hinserted : Inserted state.database record
      { state.database with disc := polled.table, cpu := cpu.2, ram := ram, network := network.2 } :=
    ⟨rfl, hspec.rows, hcpuRows, hramRows, hnetworkRows⟩
  refine ⟨record, log', rfl, hinserted, hlog, ⟨?_, hinv.records.insert hinserted hlog, hinv.panels⟩, rfl⟩
  rw [← hinv.site_eq]
  simp [CrumState.site, hspec.length_entries]

/-- An iteration that completes has gathered, then culled, then refreshed the window. -/
theorem iteration_eq_ok {platform : Platform} {state after : CrumState α} {round : Round α}
    (h : iteration platform state round = .ok after) :
    ∃ gathered, gather platform state round = .ok gathered ∧
      after = refreshUI (cull platform round.cullNow gathered) := by
  simp only [iteration, bind_eq_ok_iff] at h
  rcases h with ⟨gathered, hgathered, hafter⟩
  exact ⟨gathered, hgathered, (Except.ok.inj hafter).symm⟩

/-- The calls of an iteration that completes, and the static fields they leave. -/
theorem iteration_calls {platform : Platform} {state after : CrumState α} {round : Round α}
    (h : iteration platform state round = .ok after) :
    ∃ polled cpu ram network,
      getDiskData round.calendar state.serialNum state.diskData round.disk state.database.disc =
        .ok polled ∧
      getCPUData platform.loadBetweenTicks round.calendar state.serialNum state.cpuData round.cpu
        state.database.cpu = .ok cpu ∧
      getMemoryData round.calendar state.serialNum state.memoryData round.memory state.database.ram =
        .ok ram ∧
      getNetworkData round.calendar state.serialNum state.networkData round.network
        state.database.network = .ok network ∧
      after.serialNum = state.serialNum ∧ after.diskData = polled.disk ∧ after.cpuData = cpu.1 ∧
      after.memoryData = state.memoryData ∧ after.networkData = network.1 := by
  rcases iteration_eq_ok h with ⟨gathered, hgather, rfl⟩
  rcases gather_eq_ok hgather with ⟨polled, cpu, ram, network, hdisk, hcpu, hram, hnetwork, rfl⟩
  exact ⟨polled, cpu, ram, network, hdisk, hcpu, hram, hnetwork, rfl, rfl, rfl, rfl, rfl⟩

omit [JavaLong α] in
theorem LoopInv.cull {site : Site} {log : RoundLog α site} {state : CrumState α}
    (h : LoopInv site log state) (platform : Platform) (now : Int) :
    LoopInv site (log.deleteWhere fun r => platform.condition r.stamp (timeSearch platform.zone now))
      (cull platform now state) where
  site_eq := h.site_eq
  records := h.records.cull platform.condition platform.zone now
  panels := h.panels

theorem LoopInv.refreshUI {site : Site} {log : RoundLog α site} {state : CrumState α}
    (h : LoopInv site log state) : LoopInv site log (refreshUI state) where
  site_eq := h.site_eq
  records := h.records
  panels := by simpa [Crum.refreshUI, CrumUI.refresh] using h.panels

/-- The refinement: every iteration is a step of the log. -/
theorem iteration_refines {platform : Platform} {site : Site} {log : RoundLog α site}
    {before after : CrumState α} {round : Round α} (hinv : LoopInv site log before)
    (h : iteration platform before round = .ok after) :
    ∃ record log', record.stamp = round.calendar ∧
      log.advance (fun stamp => platform.condition stamp (timeSearch platform.zone round.cullNow))
        record = some log' ∧
      LoopInv site log' after := by
  rcases iteration_eq_ok h with ⟨gathered, hgather, rfl⟩
  rcases gather_records hinv hgather with ⟨record, grown, hstamp, -, hinsert, hgathered, -⟩
  refine ⟨record, _, hstamp, ?_, (hgathered.cull platform round.cullNow).refreshUI⟩
  rw [RoundLog.advance, hinsert]
  rfl

/-! ### Runs of the program -/

/-- The site of a hardware configuration. -/
def Hardware.site (hw : Hardware α) : Site where
  fileStores := hw.fileStores.length
  serialNum := hw.computerSystem.serialNumber
  memModules := hw.moduleCount

/-- What `initMain` leaves: the one row of MACHINE, empty sample tables and the panels. -/
theorem initMain_eq_ok {hw : Hardware α} {now : Int} {state : CrumState α}
    (h : initMain hw now = .ok state) :
    state.database.machine.rows = [machineRow hw.computerSystem now] ∧
      LoopInv hw.site KeyedTable.empty state := by
  simp only [initMain, bind_eq_ok_iff, execute_eq_ok_iff] at h
  rcases h with ⟨⟨diskData, n⟩, hdisk, machine, ⟨-, hmachine⟩, hstate⟩
  rcases initDisk_spec hdisk with ⟨rfl, hspec⟩
  obtain rfl := Except.ok.inj hstate
  refine ⟨hmachine, ?_, ?_, ?_⟩
  · simp [CrumState.site, Hardware.site, hspec.length_entries, initMemory]
  · exact { (Records.start : Records (initDB : Database α) (KeyedTable.empty : RoundLog α hw.site)) with }
  · simp [newCrumUI, Hardware.site]

/-- A longer run is a run and one more iteration. -/
theorem runMain_snoc {platform : Platform} {hw : Hardware α} {now : Int} (past : List (Round α))
    {round : Round α} {after : CrumState α} :
    runMain platform hw now (past ++ [round]) = .ok after ↔
      ∃ before, runMain platform hw now past = .ok before ∧
        iteration platform before round = .ok after := by
  simp only [runMain, bind_eq_ok_iff]
  constructor
  · rintro ⟨start, hstart, hrun⟩
    rcases (run_snoc _ _ _ _ _).mp hrun with ⟨before, hbefore, hstep⟩
    exact ⟨before, ⟨start, hstart, hbefore⟩, hstep⟩
  · rintro ⟨before, ⟨start, hstart, hbefore⟩, hstep⟩
    exact ⟨start, hstart, (run_snoc _ _ _ _ _).mpr ⟨before, hbefore, hstep⟩⟩

/-- Invariant rule for runs of the program. -/
theorem runMain_invariant {platform : Platform} {hw : Hardware α} {now : Int}
    (Inv : List (Round α) → CrumState α → Prop)
    (hstart : ∀ state, initMain hw now = .ok state → Inv [] state)
    (hkeep : ∀ past before round after, Inv past before →
      iteration platform before round = .ok after → Inv (past ++ [round]) after)
    {rounds : List (Round α)} {state : CrumState α}
    (h : runMain platform hw now rounds = .ok state) : Inv rounds state := by
  simp only [runMain, bind_eq_ok_iff] at h
  rcases h with ⟨start, hinit, hrun⟩
  exact run_invariant Inv (hstart start hinit) hkeep hrun

/-- At every loop head the tables are those of some log of complete rounds, each of them the round of one
of the iterations so far. -/
theorem runMain_inv {platform : Platform} {hw : Hardware α} {now : Int} {rounds : List (Round α)}
    {state : CrumState α} (h : runMain platform hw now rounds = .ok state) :
    ∃ log, LoopInv hw.site log state ∧
      ∀ r ∈ log.rows, ∃ round ∈ rounds, round.calendar = r.stamp := by
  refine runMain_invariant
    (fun rounds state => ∃ log, LoopInv hw.site log state ∧
      ∀ r ∈ log.rows, ∃ round ∈ rounds, round.calendar = r.stamp) ?_ ?_ h
  · intro start hinit
    exact ⟨_, (initMain_eq_ok hinit).2, by simp⟩
  · intro past before round after hbefore hstep
    rcases hbefore with ⟨log, hinv, hpast⟩
    rcases iteration_refines hinv hstep with ⟨record, log', hstamp, hadvance, hafter⟩
    refine ⟨log', hafter, ?_⟩
    intro r hr
    rcases RoundLog.mem_advance hadvance hr with hold | rfl
    · rcases hpast r hold with ⟨earlier, hmem, heq⟩
      exact ⟨earlier, by simp [hmem], heq⟩
    · exact ⟨round, by simp, hstamp.symm⟩

/-! ### A small computer -/

/-- A processor that has not run yet. -/
def idleTicks : Ticks := [0, 0, 0, 0, 0, 0, 0, 0]

/-- One file store on one disk, one processor, no network interfaces. -/
def smallComputer : Hardware Int64 where
  computerSystem := ⟨"S", "model", "vendor"⟩
  processorCpuLoadTicks := [idleTicks]
  moduleCount := 1
  networkIFs := []
  networkFresh _ := ⟨0, 0, [], ""⟩
  fileStores := [{ uuid := "c", mount := "C:", space := ⟨0, 0⟩ }]
  disks := [{ model := "disk", partitions := [⟨"c"⟩], counters := ⟨0, 0, 0⟩ }]

/-- A round in which its disk has read `bytes` so far. -/
def smallRound (calendar cullNow : Int) (bytes : Int64) : Round Int64 where
  calendar := calendar
  disk _ := ⟨⟨0, 0⟩, ⟨0, bytes, 0⟩, ⟨0, bytes, 0⟩⟩
  cpu := ⟨"P", "cpu", 0, 1, 1, [idleTicks], [idleTicks]⟩
  memory := ⟨0, 0, [], 0⟩
  network _ := ⟨0, 0, [], ""⟩
  cullNow := cullNow

/-- Windows on UTC, with the `DATETIME` of SQLite. -/
def utcPlatform : Platform where
  zone := .utc
  condition := datetimeCondition sqliteDatetime
  loadBetweenTicks := pairedLoads fun _ _ => 0

end Crum
