/-
Module: Crum.Proofs.TabRefresh
Layer: Proofs
Purpose: Which round the tabs show after an iteration. The CPU, RAM and Network tabs keep the row inserted
  last, the disk panels the row with the latest stamp. The two agree as long as no round with a later
  stamp has survived, that is until the wall clock steps back.
Imports: Crum.Lib.LastRow, Crum.Proofs.MainLoop
Trusted boundary: none
Main exports: ShowsRound, TabsShowRound, NoLaterRound, tabs_show_round, later_round_hides_newest,
  clock_step_splits_tabs
Open obligations: none
-/
import Crum.Lib.LastRow
import Crum.Proofs.MainLoop

namespace Crum

open KeyedTable

/-! ### Disk panels -/

section Scan

variable {α : Type} {site : Site}

instance : Std.Total (@indexOrder α) where
  total a b := by
    unfold indexOrder
    rcases lt_trichotomy a.machineId b.machineId with hlt | heq | hgt
    · exact Or.inl (Or.inl hlt)
    · rcases le_total a.timestamp b.timestamp with hle | hle
      · exact Or.inl (Or.inr ⟨heq, hle⟩)
      · exact Or.inr (Or.inr ⟨heq.symm, hle⟩)
    · exact Or.inr (Or.inl hgt)

instance : IsTrans (DiscRow α) indexOrder where
  trans a b c hab hbc := by
    unfold indexOrder at hab hbc ⊢
    rcases hab with hab | ⟨hab, hstamp⟩
    · rcases hbc with hbc | ⟨hbc, -⟩
      · exact Or.inl (hab.trans hbc)
      · exact Or.inl (hbc ▸ hab)
    · rcases hbc with hbc | ⟨hbc, hstamp'⟩
      · exact Or.inl (hab ▸ hbc)
      · exact Or.inr ⟨hab.trans hbc, hstamp.trans hstamp'⟩

/-- Rows of one machine are in the order of their stamps. -/
theorem indexOrder.stamp_le {a b : DiscRow α} (h : indexOrder a b) (hmachine : a.machineId = b.machineId) :
    a.timestamp ≤ b.timestamp := by
  rcases h with hlt | ⟨-, hle⟩
  · rw [hmachine] at hlt
    exact absurd hlt (lt_irrefl _)
  · exact hle

/-- The row of file store `i` in a round is its `i`-th one. -/
theorem RoundRecord.disc_eq_of_discId (record : RoundRecord α site) {row : DiscRow α} {i : Nat}
    (hrow : row ∈ record.disc) (hid : row.discId = i) : record.disc[i]? = some row := by
  rcases List.getElem?_of_mem hrow with ⟨k, hk⟩
  have hids := congrArg (fun ids : List Nat => ids[k]?) record.disc_ids
  have hlt : k < site.fileStores := by
    have hk' := (List.getElem?_eq_some_iff.mp hk).1
    have hlength := congrArg List.length record.disc_ids
    rw [List.length_map, List.length_range] at hlength
    omega
  simp only [List.getElem?_map, hk, Option.map_some, List.getElem?_range hlt,
    Option.some.injEq] at hids
  rw [← hid, hids, hk]

theorem RoundRecord.discId_eq (record : RoundRecord α site) {row : DiscRow α} {i : Nat}
    (hrow : record.disc[i]? = some row) : row.discId = i := by
  have hids := congrArg (fun ids : List Nat => ids[i]?) record.disc_ids
  have hlt : i < site.fileStores := by
    have hlength := congrArg List.length record.disc_ids
    have hi := (List.getElem?_eq_some_iff.mp hrow).1
    rw [List.length_map, List.length_range] at hlength
    omega
  simpa [hrow, List.getElem?_range hlt] using hids

/-- The scan of file store `i` ends with the row of a round that no kept round is later than. -/
theorem discScan_last {db : Database α} {log : RoundLog α site} (h : Records db log)
    {record : RoundRecord α site} (hrecord : record ∈ log.rows)
    (hlatest : ∀ r ∈ log.rows, r.stamp ≤ record.stamp) {i : Nat} {row : DiscRow α}
    (hrow : record.disc[i]? = some row) : (discScan db.disc i).getLast? = some row := by
  have hmem : row ∈ record.disc := List.mem_of_getElem? hrow
  rcases record.disc_of row hmem with ⟨hstamp, hmachine⟩
  apply LastRow.last_insertionSort
  · rw [List.mem_filter]
    exact ⟨h.disc.mem_iff.mpr ⟨record, hrecord, hmem⟩, decide_eq_true (record.discId_eq hrow)⟩
  · intro y hy horder
    rw [List.mem_filter] at hy
    rcases hy with ⟨hy, hid⟩
    rcases h.disc.mem_iff.mp hy with ⟨r, hr, hyr⟩
    rcases r.disc_of y hyr with ⟨hystamp, hymachine⟩
    -- one serial number: the index orders by stamp, and no round is later
    have hle := horder.stamp_le (hmachine.trans hymachine.symm)
    have hsame : r.stamp = record.stamp := by
      apply le_antisymm (hlatest r hr)
      rw [← hstamp, ← hystamp]
      exact hle
    obtain rfl : r = record := List.inj_on_of_nodup_map log.keys_nodup hr hrecord hsame
    have hget := r.disc_eq_of_discId hyr (of_decide_eq_true hid)
    rw [hrow] at hget
    exact (Option.some.inj hget).symm

end Scan

/-! ### What the window shows -/

variable {α : Type} [JavaLong α] {site : Site}

/-- The labels of the CPU, RAM and Network tabs and of every disk panel display one round. -/
structure ShowsRound (ui : CrumUI α) (record : RoundRecord α site) : Prop where
  cpu : ui.cpu = showCpu record.cpu
  ram : ui.ram = showRam record.ram
  network : ui.network = showNetwork record.network
  disks : ui.diskList = record.disc.map showDisc

/-- After an iteration the tabs display the round that the iteration inserted. -/
def TabsShowRound (platform : Platform) (site : Site) (before after : CrumState α) (round : Round α) :
    Prop :=
  ∃ gathered, ∃ record : RoundRecord α site, gather platform before round = .ok gathered ∧
    record.stamp = round.calendar ∧ Inserted before.database record gathered.database ∧
    ShowsRound after.ui record

/-- The culling of an iteration leaves its own round. -/
def KeepsNewest (platform : Platform) (round : Round α) : Prop :=
  platform.condition round.calendar (timeSearch platform.zone round.cullNow) ≠ some true

instance (platform : Platform) (round : Round α) : Decidable (KeepsNewest platform round) :=
  inferInstanceAs (Decidable (_ ≠ _))

/-- Every DISC row with a later stamp than the round goes in the culling of the iteration. -/
def NoLaterRound (platform : Platform) (before : CrumState α) (round : Round α) : Prop :=
  ∀ row ∈ before.database.disc.rows, round.calendar < row.timestamp →
    platform.condition row.timestamp (timeSearch platform.zone round.cullNow) = some true

/-- Refreshing from the tables of a log whose last round is the latest shows that round. -/
theorem refresh_shows {db : Database α} {log : RoundLog α site} (h : Records db log)
    {front : List (RoundRecord α site)} {record : RoundRecord α site}
    (hlast : log.rows = front ++ [record])
    (hlatest : site.fileStores ≠ 0 → ∀ r ∈ log.rows, r.stamp ≤ record.stamp) {ui : CrumUI α}
    (hpanels : ui.diskList.length = site.fileStores) : ShowsRound (ui.refresh db) record where
  cpu := by
    have hrows : db.cpu.rows = front.flatMap (fun r => [r.cpu]) ++ [record.cpu] := by
      rw [h.cpu, hlast, List.flatMap_append, List.flatMap_singleton]
    rw [CrumUI.refresh, hrows]
    exact LastRow.overwrite_concat _ _ _ _
  ram := by
    have hrows : db.ram.rows = front.flatMap (fun r => [r.ram]) ++ [record.ram] := by
      rw [h.ram, hlast, List.flatMap_append, List.flatMap_singleton]
    rw [CrumUI.refresh, hrows]
    exact LastRow.overwrite_concat _ _ _ _
  network := by
    have hrows : db.network.rows = front.flatMap (fun r => [r.network]) ++ [record.network] := by
      rw [h.network, hlast, List.flatMap_append, List.flatMap_singleton]
    rw [CrumUI.refresh, hrows]
    exact LastRow.overwrite_concat _ _ _ _
  disks := by
    have hlength : record.disc.length = site.fileStores := by
      simpa using congrArg List.length record.disc_ids
    apply List.ext_getElem
    · simp [CrumUI.refresh, hpanels, hlength]
    · intro i hi hi'
      have hi'' : i < record.disc.length := by simpa using hi'
      have hscan := discScan_last h (by rw [hlast]; simp : record ∈ log.rows)
        (hlatest (by omega)) (List.getElem?_eq_getElem hi'')
      simp only [CrumUI.refresh, List.getElem_mapIdx, List.getElem_map]
      exact LastRow.overwrite_of_getLast? hscan _

omit [JavaLong α] in
/-- A round that stays is not later than the new one: it would have had a DISC row before the
iteration. -/
theorem stamp_le_of_noLaterRound {platform : Platform} {log : RoundLog α site} {before : CrumState α}
    {round : Round α} (hinv : LoopInv site log before) (hlater : NoLaterRound platform before round)
    (hstores : site.fileStores ≠ 0) {r : RoundRecord α site} (hr : r ∈ log.rows)
    (hlive : platform.condition r.stamp (timeSearch platform.zone round.cullNow) ≠ some true) :
    r.stamp ≤ round.calendar := by
  by_contra hlt
  rw [not_le] at hlt
  have hlength := congrArg List.length r.disc_ids
  rw [List.length_map, List.length_range] at hlength
  have hdisc : 0 < r.disc.length := by
    rw [hlength]
    exact Nat.pos_of_ne_zero hstores
  have hmem : r.disc[0] ∈ r.disc := List.getElem_mem hdisc
  have hstamp := r.disc_stamp _ hmem
  have hrow : r.disc[0] ∈ before.database.disc.rows :=
    hinv.records.disc.mem_iff.mpr ⟨r, hr, hmem⟩
  have hgone := hlater r.disc[0] hrow (hstamp ▸ hlt)
  rw [hstamp] at hgone
  exact hlive hgone

/-- One iteration that culls neither its own round nor leaves a later one. -/
theorem iteration_shows {platform : Platform} {log : RoundLog α site} {before after : CrumState α}
    {round : Round α} (hinv : LoopInv site log before) (hkeep : KeepsNewest platform round)
    (hlater : NoLaterRound platform before round)
    (h : iteration platform before round = .ok after) :
    TabsShowRound platform site before after round := by
  rcases iteration_eq_ok h with ⟨gathered, hgather, rfl⟩
  rcases gather_records hinv hgather with
    ⟨record, grown, hstamp, hinserted, hinsert, hgathered, hui⟩
  refine ⟨gathered, record, hgather, hstamp, hinserted, ?_⟩
  have hculled := hgathered.cull platform round.cullNow
  -- the culled log still ends with the new round
  have hkept : platform.condition record.stamp (timeSearch platform.zone round.cullNow) ≠ some true := by
    rw [hstamp]
    exact hkeep
  have hrows := (insert_eq_some_iff.mp hinsert).2
  have hsplit : (grown.deleteWhere fun r =>
      platform.condition r.stamp (timeSearch platform.zone round.cullNow)).rows =
      (log.deleteWhere fun r =>
        platform.condition r.stamp (timeSearch platform.zone round.cullNow)).rows ++ [record] := by
    rw [deleteWhere_rows, deleteWhere_rows, hrows, List.filter_append]
    simp [hkept]
  refine refresh_shows hculled.records hsplit ?_ hculled.panels
  intro hstores r hr
  rw [hsplit, List.mem_append, List.mem_singleton] at hr
  rcases hr with hr | rfl
  · rcases mem_deleteWhere.mp hr with ⟨hr, hlive⟩
    rw [hstamp]
    exact stamp_le_of_noLaterRound hinv hlater hstores hr hlive
  · exact le_rfl

/-- In every run whose culling keeps the newest round and whose iterations leave no later one, all tabs
show, after each iteration, the round that the iteration inserted. -/
theorem tabs_show_round {platform : Platform} {hw : Hardware α} {now : Int} {rounds : List (Round α)}
    (hkeep : ∀ round ∈ rounds, KeepsNewest platform round)
    (hlater : ∀ past round rest before, rounds = past ++ round :: rest →
      runMain platform hw now past = .ok before → NoLaterRound platform before round) :
    ∀ past round rest before after, rounds = past ++ round :: rest →
      runMain platform hw now past = .ok before → iteration platform before round = .ok after →
      TabsShowRound platform hw.site before after round := by
  intro past round rest before after hsplit hbefore hstep
  rcases runMain_inv hbefore with ⟨log, hinv, -⟩
  have hround : round ∈ rounds := by
    rw [hsplit]
    simp
  exact iteration_shows hinv (hkeep round hround) (hlater past round rest before hsplit hbefore) hstep

/-- Where the condition fails the panel of the surviving row ends on a row with a later stamp than the round
that was inserted. -/
theorem later_round_hides_newest {platform : Platform} {log : RoundLog α site}
    {before after : CrumState α} {round : Round α} (hinv : LoopInv site log before)
    (h : iteration platform before round = .ok after) {row : DiscRow α}
    (hrow : row ∈ before.database.disc.rows) (hlt : round.calendar < row.timestamp)
    (hlive : platform.condition row.timestamp (timeSearch platform.zone round.cullNow) ≠ some true) :
    ∃ last, (discScan after.database.disc row.discId).getLast? = some last ∧
      round.calendar < last.timestamp := by
  rcases iteration_eq_ok h with ⟨gathered, hgather, rfl⟩
  rcases gather_records hinv hgather with ⟨record, grown, -, hinserted, -, hgathered, -⟩
  have hculled := hgathered.cull platform round.cullNow
  have hkept : row ∈ (cull platform round.cullNow gathered).database.disc.rows := by
    refine mem_deleteWhere.mpr ⟨?_, hlive⟩
    rw [hinserted.disc]
    exact List.mem_append_left _ hrow
  have hscan : row ∈ (cull platform round.cullNow gathered).database.disc.rows.filter
      (·.discId = row.discId) := List.mem_filter.mpr ⟨hkept, decide_eq_true rfl⟩
  rcases LastRow.exists_last_insertionSort indexOrder hscan with ⟨last, hlastMem, hlast, horder⟩
  rcases hculled.records.disc_round hkept with ⟨-, -, -, hmachine⟩
  rcases hculled.records.disc_round (List.mem_filter.mp hlastMem).1 with ⟨-, -, -, hmachine'⟩
  exact ⟨last, hlast, hlt.trans_le (horder.stamp_le (hmachine.trans hmachine'.symm))⟩

/-- As long as the clock does not step back, no kept round is later than the new one. -/
theorem noLaterRound_of_past {platform : Platform} {hw : Hardware α} {now : Int}
    {past : List (Round α)} {round : Round α} {before : CrumState α}
    (hbefore : runMain platform hw now past = .ok before)
    (hclock : ∀ earlier ∈ past, earlier.calendar ≤ round.calendar) :
    NoLaterRound platform before round := by
  intro row hrow hlt
  rcases runMain_inv hbefore with ⟨log, hinv, hpast⟩
  rcases hinv.records.disc_round hrow with ⟨r, hr, hrowStamp, -⟩
  rcases hpast r hr with ⟨earlier, hearlier, hstamp⟩
  have hle := hclock earlier hearlier
  rw [hstamp, ← hrowStamp] at hle
  exact absurd hlt (not_lt.mpr hle)

/-- Two rounds, a second apart. -/
def forwardRounds : List (Round Int64) :=
  [smallRound 1618920001000 1618920001000 4096, smallRound 1618920002000 1618920002000 4096]

/-- With the clock going forward all tabs show the second round after the second iteration. -/
theorem tabs_show_forward_rounds :
    ∃ before after, runMain utcPlatform smallComputer 1618920000000
        [smallRound 1618920001000 1618920001000 4096] = .ok before ∧
      iteration utcPlatform before (smallRound 1618920002000 1618920002000 4096) = .ok after ∧
      TabsShowRound utcPlatform smallComputer.site before after
        (smallRound 1618920002000 1618920002000 4096) := by
  obtain ⟨final, hrun⟩ := JavaRuntime.exists_of_isOk
    (by decide : (runMain utcPlatform smallComputer 1618920000000 forwardRounds).isOk = true)
  rcases (runMain_snoc [smallRound 1618920001000 1618920001000 4096]).mp hrun with
    ⟨before, hbefore, hstep⟩
  have hlater : ∀ past round rest before, forwardRounds = past ++ round :: rest →
      runMain utcPlatform smallComputer 1618920000000 past = .ok before →
      NoLaterRound utcPlatform before round := by
    intro past round rest before hsplit hbefore
    have hclock : forwardRounds.Pairwise fun earlier later => earlier.calendar ≤ later.calendar := by
      decide
    rw [hsplit, List.pairwise_append] at hclock
    apply noLaterRound_of_past hbefore
    intro earlier hearlier
    exact hclock.2.2 earlier hearlier round (by simp)
  exact ⟨before, final, hbefore, hstep,
    tabs_show_round (by decide) hlater _ _ [] before final rfl hbefore hstep⟩

/-- Two rounds, between which the wall clock is set back by a second. -/
def steppedRounds : List (Round Int64) :=
  [smallRound 1618920002000 1618920002000 4096, smallRound 1618920001000 1618920001000 4096]

/-- The speed that the disk panel shows after the second of them, and the one it has inserted. -/
def speedShownAndInserted : Option (List (Shown Int64) × List (Shown Int64)) := do
  let before ← (runMain utcPlatform smallComputer 1618920000000 (steppedRounds.take 1)).toOption
  let round ← steppedRounds[1]?
  let gathered ← (gather utcPlatform before round).toOption
  let after ← (iteration utcPlatform before round).toOption
  return (after.ui.diskList.map (·.speed.value),
    (gathered.database.disc.rows.drop before.database.disc.rows.length).map fun row =>
      (showDisc row).speed.value)

/-- After the clock has stepped back the disk panel still shows the first round, of 0 KB/s, while the
other tabs show the second one, whose row says 4 KB/s. -/
theorem clock_step_splits_tabs :
    ∃ before after, runMain utcPlatform smallComputer 1618920000000
        [smallRound 1618920002000 1618920002000 4096] = .ok before ∧
      iteration utcPlatform before (smallRound 1618920001000 1618920001000 4096) = .ok after ∧
      (∀ round ∈ steppedRounds, KeepsNewest utcPlatform round) ∧
      (steppedRounds.map (·.calendar)).Nodup ∧
      ¬ TabsShowRound utcPlatform smallComputer.site before after
        (smallRound 1618920001000 1618920001000 4096) := by
  obtain ⟨final, hrun⟩ := JavaRuntime.exists_of_isOk
    (by decide : (runMain utcPlatform smallComputer 1618920000000 steppedRounds).isOk = true)
  rcases (runMain_snoc [smallRound 1618920002000 1618920002000 4096]).mp hrun with
    ⟨before, hbefore, hstep⟩
  refine ⟨before, final, hbefore, hstep, by decide, by decide, ?_⟩
  rintro ⟨gathered, record, hgather, -, hinserted, hshows⟩
  have hspeeds : speedShownAndInserted = some ([.long 0], [.long 4]) := by decide
  simp only [speedShownAndInserted, steppedRounds, List.take_succ_cons, List.take_zero, hbefore,
    List.getElem?_cons_succ, List.getElem?_cons_zero, hgather, hstep, Except.toOption,
    Option.bind_eq_bind, Option.bind_some, Option.pure_def, Option.some.injEq, Prod.mk.injEq] at hspeeds
  rcases hspeeds with ⟨hshown, hinsertedSpeed⟩
  rw [hinserted.disc, List.drop_left] at hinsertedSpeed
  rw [hshows.disks, List.map_map] at hshown
  have hequal : [Shown.long (0 : Int64)] = [Shown.long 4] := hshown.symm.trans hinsertedSpeed
  revert hequal
  decide

end Crum
