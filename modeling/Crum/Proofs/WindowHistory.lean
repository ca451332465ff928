/-
Module: Crum.Proofs.WindowHistory
Layer: Proofs
Purpose: What the window has shown at any time. Labels keep their values when a query returns no rows, so the
  window may show a round that the database holds no longer. Yet the CPU, RAM and Network tabs always agree
  on one collected round and the disk panels on one that is not earlier, whatever the clocks do.
Imports: Crum.Proofs.TabRefresh, Crum.Proofs.MachineLifetime
Trusted boundary: none
Main exports: Collected, WindowShows, refresh_window, window_history
Open obligations: none
-/
import Crum.Proofs.TabRefresh
import Crum.Proofs.MachineLifetime

namespace Crum

open JavaRuntime KeyedTable

variable {α : Type} [JavaLong α]

/-! ### One refresh -/

/-- The CPU, RAM and Network tabs display the round `tabs`, the disk panels the round `panels`. -/
structure WindowShows {site : Site} (ui : CrumUI α) (tabs panels : RoundRecord α site) : Prop where
  cpu : ui.cpu = showCpu tabs.cpu
  ram : ui.ram = showRam tabs.ram
  network : ui.network = showNetwork tabs.network
  disks : ui.diskList = panels.disc.map showDisc

/-- Without rows nothing but the main tab is refreshed. -/
theorem refresh_empty {site : Site} {db : Database α} {log : RoundLog α site} (h : Records db log)
    (hnone : log.rows = []) (ui : CrumUI α) :
    (ui.refresh db).cpu = ui.cpu ∧ (ui.refresh db).ram = ui.ram ∧ (ui.refresh db).network = ui.network ∧
      (ui.refresh db).diskList = ui.diskList := by
  have hdisc : db.disc.rows = [] := by rw [h.disc, hnone, List.flatMap_nil]
  have hcpu : db.cpu.rows = [] := by rw [h.cpu, hnone, List.flatMap_nil]
  have hram : db.ram.rows = [] := by rw [h.ram, hnone, List.flatMap_nil]
  have hnetwork : db.network.rows = [] := by rw [h.network, hnone, List.flatMap_nil]
  have hscan : ∀ i, discScan db.disc i = [] := by
    intro i
    rw [discScan, hdisc]
    rfl
  rw [CrumUI.refresh, hcpu, hram, hnetwork]
  refine ⟨rfl, rfl, rfl, ?_⟩
  apply List.ext_getElem
  · simp
  · intro i hi hi'
    simp only [List.getElem_mapIdx, hscan]
    rfl

/-- The disk panels display the round with the latest stamp. -/
theorem refresh_disks {site : Site} {db : Database α} {log : RoundLog α site} (h : Records db log)
    {record : RoundRecord α site} (hrecord : record ∈ log.rows)
    (hlatest : ∀ r ∈ log.rows, r.stamp ≤ record.stamp) {ui : CrumUI α}
    (hpanels : ui.diskList.length = site.fileStores) :
    (ui.refresh db).diskList = record.disc.map showDisc := by
  have hlength : record.disc.length = site.fileStores := by
    simpa using congrArg List.length record.disc_ids
  apply List.ext_getElem
  · simp [CrumUI.refresh, hpanels, hlength]
  · intro i hi hi'
    have hi'' : i < record.disc.length := by simpa using hi'
    have hscan := discScan_last h hrecord hlatest (List.getElem?_eq_getElem hi'')
    simp only [CrumUI.refresh, List.getElem_mapIdx, List.getElem_map]
    exact LastRow.overwrite_of_getLast? hscan _

/-- The CPU, RAM and Network tabs display the round inserted last. -/
theorem refresh_tabs {site : Site} {db : Database α} {log : RoundLog α site} (h : Records db log)
    {front : List (RoundRecord α site)} {record : RoundRecord α site}
    (hlast : log.rows = front ++ [record]) (ui : CrumUI α) :
    (ui.refresh db).cpu = showCpu record.cpu ∧ (ui.refresh db).ram = showRam record.ram ∧
      (ui.refresh db).network = showNetwork record.network := by
  have hcpu : db.cpu.rows = front.flatMap (fun r => [r.cpu]) ++ [record.cpu] := by
    rw [h.cpu, hlast, List.flatMap_append, List.flatMap_singleton]
  have hram : db.ram.rows = front.flatMap (fun r => [r.ram]) ++ [record.ram] := by
    rw [h.ram, hlast, List.flatMap_append, List.flatMap_singleton]
  have hnetwork : db.network.rows = front.flatMap (fun r => [r.network]) ++ [record.network] := by
    rw [h.network, hlast, List.flatMap_append, List.flatMap_singleton]
  rw [CrumUI.refresh, hcpu, hram, hnetwork]
  exact ⟨LastRow.overwrite_concat _ _ _ _, LastRow.overwrite_concat _ _ _ _,
    LastRow.overwrite_concat _ _ _ _⟩

/-- A refresh leaves the window alone or shows two kept rounds, the one of the panels not the earlier. -/
theorem refresh_window {site : Site} {db : Database α} {log : RoundLog α site} (h : Records db log)
    {ui : CrumUI α} (hpanels : ui.diskList.length = site.fileStores) :
    ((ui.refresh db).cpu = ui.cpu ∧ (ui.refresh db).ram = ui.ram ∧
        (ui.refresh db).network = ui.network ∧ (ui.refresh db).diskList = ui.diskList) ∨
      ∃ tabs ∈ log.rows, ∃ panels ∈ log.rows, tabs.stamp ≤ panels.stamp ∧
        WindowShows (ui.refresh db) tabs panels := by
  rcases List.eq_nil_or_concat log.rows with hnone | ⟨front, tabs, hlast⟩
  · exact Or.inl (refresh_empty h hnone ui)
  · right
    rw [List.concat_eq_append] at hlast
    have htabs : tabs ∈ log.rows := by
      rw [hlast]
      simp
    obtain ⟨panels, hmem, hlatest⟩ := Set.exists_max_image {r | r ∈ log.rows} RoundRecord.stamp
      (List.finite_toSet log.rows) ⟨tabs, htabs⟩
    rcases refresh_tabs h hlast ui with ⟨hcpu, hram, hnetwork⟩
    exact ⟨tabs, htabs, panels, hmem, hlatest tabs htabs,
      hcpu, hram, hnetwork, refresh_disks h hmem hlatest hpanels⟩

/-! ### Whole runs -/

/-- The record is what one of the iterations of the run has inserted. -/
def Collected (platform : Platform) (hw : Hardware α) (now : Int) (rounds : List (Round α))
    (record : RoundRecord α hw.site) : Prop :=
  ∃ past round rest before gathered, rounds = past ++ round :: rest ∧
    runMain platform hw now past = .ok before ∧ gather platform before round = .ok gathered ∧
    record.stamp = round.calendar ∧ Inserted before.database record gathered.database

theorem Collected.snoc {platform : Platform} {hw : Hardware α} {now : Int} {rounds : List (Round α)}
    {record : RoundRecord α hw.site} (h : Collected platform hw now rounds record) (round : Round α) :
    Collected platform hw now (rounds ++ [round]) record := by
  rcases h with ⟨past, middle, rest, before, gathered, hsplit, hrun⟩
  exact ⟨past, middle, rest ++ [round], before, gathered, by rw [hsplit]; simp, hrun⟩

/-- Every kept round is one that was collected. -/
theorem runMain_collected {platform : Platform} {hw : Hardware α} {now : Int} {rounds : List (Round α)}
    {state : CrumState α} (h : runMain platform hw now rounds = .ok state) :
    ∃ log, LoopInv hw.site log state ∧ ∀ r ∈ log.rows, Collected platform hw now rounds r := by
  refine (runMain_invariant (fun rounds state => runMain platform hw now rounds = .ok state ∧
    ∃ log, LoopInv hw.site log state ∧ ∀ r ∈ log.rows, Collected platform hw now rounds r) ?_ ?_ h).2
  · intro start hinit
    have hstart : runMain platform hw now ([] : List (Round α)) = .ok start := by
      rw [runMain, hinit]
      rfl
    exact ⟨hstart, _, (initMain_eq_ok hinit).2, by simp⟩
  · rintro past before round after ⟨hbefore, log, hinv, hpast⟩ hstep
    refine ⟨(runMain_snoc past).mpr ⟨before, hbefore, hstep⟩, ?_⟩
    rcases iteration_eq_ok hstep with ⟨gathered, hgather, rfl⟩
    rcases gather_records hinv hgather with ⟨record, grown, hstamp, hinserted, hinsert, hgathered, -⟩
    refine ⟨_, (hgathered.cull platform round.cullNow).refreshUI, ?_⟩
    intro r hr
    have hr := (mem_deleteWhere.mp hr).1
    rw [(insert_eq_some_iff.mp hinsert).2, List.mem_append, List.mem_singleton] at hr
    rcases hr with hold | rfl
    · exact (hpast r hold).snoc round
    · exact ⟨past, round, [], before, gathered, rfl, hbefore, hgather, hstamp, hinserted⟩

/-- An iteration refreshes the window it found from the database it leaves. -/
theorem iteration_ui {platform : Platform} {before after : CrumState α} {round : Round α}
    (h : iteration platform before round = .ok after) :
    after.ui = before.ui.refresh after.database := by
  rcases iteration_eq_ok h with ⟨gathered, hgather, rfl⟩
  rcases gather_eq_ok hgather with ⟨polled, cpu, ram, network, -, -, -, -, rfl⟩
  rfl

/-- What the window shows after a run: its first texts, or two rounds that were collected. -/
structure WindowHistory (platform : Platform) (hw : Hardware α) (now : Int) (rounds : List (Round α))
    (ui : CrumUI α) : Prop where
  main : ui.main = (newCrumUI hw.fileStores.length).main ∨
    ui.main = showMachine (machineRow hw.computerSystem now)
  samples : (ui.cpu = (newCrumUI hw.fileStores.length).cpu ∧
      ui.ram = (newCrumUI hw.fileStores.length).ram ∧
      ui.network = (newCrumUI hw.fileStores.length).network ∧
      ui.diskList = (newCrumUI hw.fileStores.length).diskList) ∨
    ∃ tabs panels, Collected platform hw now rounds tabs ∧ Collected platform hw now rounds panels ∧
      tabs.stamp ≤ panels.stamp ∧ WindowShows ui tabs panels

theorem initMain_ui {hw : Hardware α} {now : Int} {state : CrumState α}
    (h : initMain hw now = .ok state) : state.ui = newCrumUI hw.fileStores.length := by
  simp only [initMain, bind_eq_ok_iff] at h
  rcases h with ⟨⟨diskData, n⟩, hdisk, machine, -, hstate⟩
  obtain rfl := Except.ok.inj hstate
  rw [(initDisk_spec hdisk).1]

/-- One iteration, from the window it found. -/
theorem WindowHistory.step {platform : Platform} {hw : Hardware α} {now : Int} {past : List (Round α)}
    {before after : CrumState α} {round : Round α}
    (h : WindowHistory platform hw now past before.ui)
    (hbefore : runMain platform hw now past = .ok before)
    (hstep : iteration platform before round = .ok after) :
    WindowHistory platform hw now (past ++ [round]) after.ui := by
  have hafter : runMain platform hw now (past ++ [round]) = .ok after :=
    (runMain_snoc past).mpr ⟨before, hbefore, hstep⟩
  rcases runMain_collected hafter with ⟨log, hinv, hcollected⟩
  rcases runMain_inv hbefore with ⟨earlier, hinvBefore, -⟩
  rw [iteration_ui hstep]
  constructor
  · rcases machine_rows_or hafter with hrow | hnone
    · right
      rw [CrumUI.refresh, hrow]
      rfl
    · rw [CrumUI.refresh, hnone]
      exact h.main
  · rcases refresh_window hinv.records hinvBefore.panels with
      ⟨hcpu, hram, hnetwork, hdisks⟩ | ⟨tabs, htabs, panels, hpanels, hle, hshows⟩
    · rcases h.samples with ⟨hcpu', hram', hnetwork', hdisks'⟩ |
        ⟨tabs, panels, htabs, hpanels, hle, hshows⟩
      · exact Or.inl ⟨hcpu.trans hcpu', hram.trans hram', hnetwork.trans hnetwork', hdisks.trans hdisks'⟩
      · exact Or.inr ⟨tabs, panels, htabs.snoc round, hpanels.snoc round, hle,
          hcpu.trans hshows.cpu, hram.trans hshows.ram, hnetwork.trans hshows.network,
          hdisks.trans hshows.disks⟩
    · exact Or.inr ⟨tabs, panels, hcollected tabs htabs, hcollected panels hpanels, hle, hshows⟩

/-- After any run, with any clocks and any reading of the stamps by SQLite, the window has its first texts or
shows two collected rounds. -/
theorem window_history {platform : Platform} {hw : Hardware α} {now : Int} {rounds : List (Round α)}
    {state : CrumState α} (h : runMain platform hw now rounds = .ok state) :
    WindowHistory platform hw now rounds state.ui := by
  refine (runMain_invariant (fun rounds state => runMain platform hw now rounds = .ok state ∧
    WindowHistory platform hw now rounds state.ui) ?_ ?_ h).2
  · intro start hinit
    have hstart : runMain platform hw now ([] : List (Round α)) = .ok start := by
      rw [runMain, hinit]
      rfl
    rw [initMain_ui hinit]
    exact ⟨hstart, Or.inl rfl, Or.inl ⟨rfl, rfl, rfl, rfl⟩⟩
  · rintro past before round after ⟨hbefore, hhistory⟩ hstep
    exact ⟨(runMain_snoc past).mpr ⟨before, hbefore, hstep⟩, hhistory.step hbefore hstep⟩

/-- Two rounds, between which the wall clock is set back by a second. In the second one 16 MB of memory are
in use, and the disk has moved 4 KB since the first. -/
def splitRounds : List (Round Int64) :=
  [smallRound 1618920002000 1618920002000 4096,
    { smallRound 1618920001000 1618920001000 4096 with memory := ⟨16000000, 0, [], 0⟩ }]

/-- The memory in use and the speeds of the row and the rows that a round of them inserts. -/
def insertedFigures (past : List (Round Int64)) (round : Round Int64) : Option (List Int64 × List Int64) := do
  let before ← (runMain utcPlatform smallComputer 1618920000000 past).toOption
  let gathered ← (gather utcPlatform before round).toOption
  return ((gathered.database.ram.rows.drop before.database.ram.rows.length).map (·.usedSpace),
    (gathered.database.disc.rows.drop before.database.disc.rows.length).map (·.discSpeed))

/-- Each of the two rounds has its figures. -/
theorem splitRounds_collected {record : RoundRecord Int64 smallComputer.site}
    (h : Collected utcPlatform smallComputer 1618920000000 splitRounds record) :
    record.stamp = 1618920002000 ∧ record.ram.usedSpace = 0 ∧ record.disc.map (·.discSpeed) = [0] ∨
      record.stamp = 1618920001000 ∧ record.ram.usedSpace = 16 ∧ record.disc.map (·.discSpeed) = [4] := by
  rcases h with ⟨past, round, rest, before, gathered, hsplit, hbefore, hgather, hstamp, hinserted⟩
  have hfigures : insertedFigures past round =
      some ([record.ram.usedSpace], record.disc.map (·.discSpeed)) := by
    simp only [insertedFigures, hbefore, hgather, Except.toOption, Option.bind_eq_bind, Option.bind_some,
      Option.pure_def, hinserted.ram, hinserted.disc, List.drop_left, List.map_singleton]
  have hcases : (past = [] ∧ splitRounds[0]? = some round) ∨
      (past = splitRounds.take 1 ∧ splitRounds[1]? = some round) := by
    cases past with
    | nil =>
        left
        rw [hsplit]
        exact ⟨rfl, rfl⟩
    | cons first past =>
        right
        have hone : past = [] := by
          have hlength := congrArg List.length hsplit
          simp only [splitRounds, List.length_append, List.length_cons, List.length_nil] at hlength
          exact List.length_eq_zero_iff.mp (by omega)
        subst hone
        rw [hsplit]
        exact ⟨rfl, rfl⟩
  rcases hcases with ⟨rfl, hround⟩ | ⟨rfl, hround⟩
  · obtain rfl := Option.some.inj hround
    have hvalues := hfigures.symm.trans (by decide : insertedFigures [] _ = some ([0], [0]))
    rcases Prod.mk.inj (Option.some.inj hvalues) with ⟨hused, hspeeds⟩
    exact Or.inl ⟨hstamp, List.singleton_inj.mp hused, hspeeds⟩
  · obtain rfl := Option.some.inj hround
    have hvalues := hfigures.symm.trans (by decide : insertedFigures (splitRounds.take 1) _ = some ([16], [4]))
    rcases Prod.mk.inj (Option.some.inj hvalues) with ⟨hused, hspeeds⟩
    exact Or.inr ⟨hstamp, List.singleton_inj.mp hused, hspeeds⟩

/-- After the clock has stepped back, the window shows two rounds at once: the tabs the second one, the disk
panel the first. -/
theorem window_history_after_step :
    ∃ state, runMain utcPlatform smallComputer 1618920000000 splitRounds = .ok state ∧
      ∃ tabs panels : RoundRecord Int64 smallComputer.site,
        Collected utcPlatform smallComputer 1618920000000 splitRounds tabs ∧
        Collected utcPlatform smallComputer 1618920000000 splitRounds panels ∧
        tabs.stamp = 1618920001000 ∧ panels.stamp = 1618920002000 ∧ WindowShows state.ui tabs panels := by
  obtain ⟨state, hrun, hlabels⟩ := exists_of_toOption
    (by decide : (runMain utcPlatform smallComputer 1618920000000 splitRounds).toOption.map (fun state =>
      (state.ui.ram.ramUsedLabel.value, state.ui.diskList.map (·.speed.value))) =
        some (.long 16, [.long 0]))
  rcases Prod.mk.inj hlabels with ⟨hused, hspeeds⟩
  rcases (window_history hrun).samples with ⟨-, hram, -, -⟩ | ⟨tabs, panels, htabs, hpanels, -, hshows⟩
  · rw [hram] at hused
    cases hused
  · rw [hshows.ram] at hused
    rw [hshows.disks, List.map_map] at hspeeds
    have hshown : (panels.disc.map (·.discSpeed)).map Shown.long = [.long 0] := by
      rw [List.map_map]
      exact hspeeds
    refine ⟨state, hrun, tabs, panels, htabs, hpanels, ?_, ?_, hshows⟩
    · rcases splitRounds_collected htabs with ⟨-, hfirst, -⟩ | ⟨hstamp, -, -⟩
      · exact absurd (hfirst.symm.trans (Shown.long.inj hused)) (by decide)
      · exact hstamp
    · rcases splitRounds_collected hpanels with ⟨hstamp, -, -⟩ | ⟨-, -, hsecond⟩
      · exact hstamp
      · rw [hsecond] at hshown
        exact absurd hshown (by decide)

end Crum
