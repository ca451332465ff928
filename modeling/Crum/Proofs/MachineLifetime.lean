/-
Module: Crum.Proofs.MachineLifetime
Layer: Proofs
Purpose: How long the row of MACHINE lives. It is written once, before the loop, and `cullDatabase` applies
  to it the age rule of the samples. With the rendering of `DATETIME` that the query intends, the row and
  with it every reference to it is gone after the first culling whose cutoff has reached the start.
Imports: Crum.Proofs.MainLoop
Trusted boundary: none
Main exports: MachineReferenced, IntendedRendering, machine_rows, machineReferenced_iff,
  machine_row_culled_after_two_days
Open obligations: none
-/
import Crum.Proofs.MainLoop

namespace Crum

variable {α : Type} [JavaLong α]

/-- MACHINE has one row for the serial number, and every sample refers to a row of MACHINE. -/
structure MachineReferenced (db : Database α) (serialNum : String) : Prop where
  one : (db.machine.rows.filter fun row => row.machineId = serialNum).length = 1
  disc : ∀ row ∈ db.disc.rows, row.machineId ∈ db.machine.rows.map (·.machineId)
  cpu : ∀ row ∈ db.cpu.rows, row.machineId ∈ db.machine.rows.map (·.machineId)
  ram : ∀ row ∈ db.ram.rows, row.machineId ∈ db.machine.rows.map (·.machineId)
  network : ∀ row ∈ db.network.rows, row.machineId ∈ db.machine.rows.map (·.machineId)

/-- The instants a run stores or compares with. -/
def instants (zone : Zone) (now : Int) (rounds : List (Round α)) : List Int :=
  now :: rounds.flatMap fun round => [round.calendar, cutoff zone round.cullNow]

/-- `DATETIME(TIMESTAMP)` as the query intends it: a total rendering of the stored instant, the same one
that gives `timeSearch`, under which the texts of the run's instants are ordered as their seconds are. -/
structure IntendedRendering (platform : Platform) (render : Int → String) (now : Int)
    (rounds : List (Round α)) : Prop where
  condition_eq : platform.condition = datetimeCondition fun stamp => some (render stamp)
  search_eq : ∀ round ∈ rounds,
    timeSearch platform.zone round.cullNow = render (cutoff platform.zone round.cullNow)
  order : ∀ a ∈ instants platform.zone now rounds, ∀ b ∈ instants platform.zone now rounds,
    render a ≤ render b ↔ a / 1000 ≤ b / 1000

omit [JavaLong α] in
/-- A culling deletes the row of MACHINE when its cutoff has reached the start, in whole seconds. -/
theorem IntendedRendering.culls_iff {platform : Platform} {render : Int → String} {now : Int}
    {rounds : List (Round α)} (h : IntendedRendering platform render now rounds) {round : Round α}
    (hround : round ∈ rounds) :
    platform.condition now (timeSearch platform.zone round.cullNow) = some true ↔
      now / 1000 ≤ cutoff platform.zone round.cullNow / 1000 := by
  have hnow : now ∈ instants platform.zone now rounds := by simp [instants]
  have hcutoff : cutoff platform.zone round.cullNow ∈ instants platform.zone now rounds := by
    refine List.mem_cons_of_mem _ (List.mem_flatMap.mpr ⟨round, hround, by simp⟩)
  rw [h.condition_eq, h.search_eq round hround, ← h.order now hnow _ hcutoff]
  simp [datetimeCondition]

/-- MACHINE holds its one row until a culling deletes it. -/
theorem machine_rows {platform : Platform} {hw : Hardware α} {now : Int} {rounds : List (Round α)}
    {state : CrumState α} (h : runMain platform hw now rounds = .ok state) :
    state.database.machine.rows = [machineRow hw.computerSystem now].filter fun row =>
      rounds.all fun round =>
        platform.condition row.timestamp (timeSearch platform.zone round.cullNow) != some true := by
  refine runMain_invariant (fun rounds state => state.database.machine.rows =
    [machineRow hw.computerSystem now].filter fun row => rounds.all fun round =>
      platform.condition row.timestamp (timeSearch platform.zone round.cullNow) != some true) ?_ ?_ h
  · intro start hinit
    rw [(initMain_eq_ok hinit).1]
    rfl
  · intro past before round after hbefore hstep
    rcases iteration_eq_ok hstep with ⟨gathered, hgather, rfl⟩
    rcases gather_eq_ok hgather with ⟨polled, cpu, ram, network, -, -, -, -, rfl⟩
    simp only [refreshUI, cull, cullDatabase, KeyedTable.deleteWhere_rows]
    rw [hbefore, List.filter_filter]
    simp [List.all_append, Bool.and_comm]

omit [JavaLong α] in
/-- With the one row in place every sample refers to it. -/
theorem LoopInv.machineReferenced {site : Site} {log : RoundLog α site} {state : CrumState α}
    (hinv : LoopInv site log state) {row : MachineRow} (hmachine : row.machineId = site.serialNum)
    (hrows : state.database.machine.rows = [row]) :
    MachineReferenced state.database site.serialNum where
  one := by
    rw [hrows]
    simp [hmachine]
  disc sample hsample := by
    rcases hinv.records.disc_round hsample with ⟨-, -, -, hid⟩
    rw [hrows, hid, ← hmachine]
    exact List.mem_singleton.mpr rfl
  cpu sample hsample := by
    rcases hinv.records.cpu_round hsample with ⟨-, -, -, hid⟩
    rw [hrows, hid, ← hmachine]
    exact List.mem_singleton.mpr rfl
  ram sample hsample := by
    rcases hinv.records.ram_round hsample with ⟨-, -, -, hid⟩
    rw [hrows, hid, ← hmachine]
    exact List.mem_singleton.mpr rfl
  network sample hsample := by
    rcases hinv.records.network_round hsample with ⟨-, -, -, hid⟩
    rw [hrows, hid, ← hmachine]
    exact List.mem_singleton.mpr rfl

theorem machine_rows_or {platform : Platform} {hw : Hardware α} {now : Int} {rounds : List (Round α)}
    {state : CrumState α} (h : runMain platform hw now rounds = .ok state) :
    state.database.machine.rows = [machineRow hw.computerSystem now] ∨
      state.database.machine.rows = [] := by
  rw [machine_rows h, List.filter_singleton, cond_eq_ite]
  split
  · exact Or.inl rfl
  · exact Or.inr rfl

/-- The row is there after a run exactly when none of its cullings was true of it. -/
theorem machine_rows_kept_iff {platform : Platform} {hw : Hardware α} {now : Int}
    {rounds : List (Round α)} {state : CrumState α} (h : runMain platform hw now rounds = .ok state) :
    state.database.machine.rows = [machineRow hw.computerSystem now] ↔
      ∀ round ∈ rounds,
        platform.condition now (timeSearch platform.zone round.cullNow) ≠ some true := by
  rw [machine_rows h, List.filter_eq_self]
  simp [machineRow]

/-- At every loop head of a run MACHINE is as the samples need it if and only if each culling of the run
happens before the start is a calendar day old. -/
theorem machineReferenced_iff {platform : Platform} {render : Int → String} {hw : Hardware α}
    {now : Int} {rounds : List (Round α)} {final : CrumState α}
    (hrender : IntendedRendering platform render now rounds)
    (hrun : runMain platform hw now rounds = .ok final) :
    (∀ past rest state, rounds = past ++ rest → runMain platform hw now past = .ok state →
      MachineReferenced state.database hw.computerSystem.serialNumber) ↔
      ∀ round ∈ rounds, cutoff platform.zone round.cullNow / 1000 < now / 1000 := by
  constructor
  · intro hall round hround
    -- at the end of the run the row is still there, so this culling has spared it
    have hone := (hall rounds [] final (List.append_nil rounds).symm hrun).one
    rcases machine_rows_or hrun with hkept | hnone
    · have hspared := (machine_rows_kept_iff hrun).mp hkept round hround
      rw [Ne, hrender.culls_iff hround, not_le] at hspared
      exact hspared
    · rw [hnone] at hone
      cases hone
  · intro hearly past rest state hsplit hstate
    have hkept : state.database.machine.rows = [machineRow hw.computerSystem now] := by
      rw [machine_rows_kept_iff hstate]
      intro round hpast
      have hround : round ∈ rounds := by
        rw [hsplit]
        exact List.mem_append_left _ hpast
      rw [Ne, hrender.culls_iff hround, not_le]
      exact hearly round hround
    rcases runMain_inv hstate with ⟨log, hinv, -⟩
    exact hinv.machineReferenced rfl hkept

/-- The text that `cullDatabase` builds, of any instant. -/
def renderUtc (instant : Int) : String :=
  String.ofList ((timestampText .utc instant).takeWhile (· ≠ '.'))

/-- UTC, with stored instants rendered as the cutoff is. -/
def renderingPlatform : Platform where
  zone := .utc
  condition := datetimeCondition fun stamp => some (renderUtc stamp)
  loadBetweenTicks := pairedLoads fun _ _ => 0

/-- Within a minute of the start the row is there. -/
theorem machineReferenced_first_minute :
    ∃ final, runMain renderingPlatform smallComputer 1618920000000
        [smallRound 1618920001000 1618920002000 0] = .ok final ∧
      ∀ past rest state, [smallRound 1618920001000 1618920002000 0] = past ++ rest →
        runMain renderingPlatform smallComputer 1618920000000 past = .ok state →
        MachineReferenced state.database "S" := by
  obtain ⟨final, hrun⟩ := JavaRuntime.exists_of_isOk
    (by decide : (runMain renderingPlatform smallComputer 1618920000000
      [smallRound 1618920001000 1618920002000 0]).isOk = true)
  have hrender : IntendedRendering renderingPlatform renderUtc 1618920000000
      [smallRound 1618920001000 1618920002000 0] := ⟨rfl, fun _ _ => rfl, by decide⟩
  refine ⟨final, hrun, (machineReferenced_iff hrender hrun).mpr ?_⟩
  decide

/-- A round two days after the start: its culling leaves MACHINE empty under the sample just taken. -/
theorem machine_row_culled_after_two_days :
    IntendedRendering renderingPlatform renderUtc 1618920000000
        [smallRound 1619092800000 1619092801000 0] ∧
      ∃ final, runMain renderingPlatform smallComputer 1618920000000
          [smallRound 1619092800000 1619092801000 0] = .ok final ∧
        final.database.machine.rows = [] ∧
        ¬ MachineReferenced final.database "S" := by
  obtain ⟨final, hrun⟩ := JavaRuntime.exists_of_isOk
    (by decide : (runMain renderingPlatform smallComputer 1618920000000
      [smallRound 1619092800000 1619092801000 0]).isOk = true)
  have hnone : final.database.machine.rows = [] := by
    rw [machine_rows hrun]
    decide
  refine ⟨⟨rfl, fun _ _ => rfl, by decide⟩, final, hrun, hnone, ?_⟩
  intro href
  have hone := href.one
  rw [hnone] at hone
  cases hone

end Crum
