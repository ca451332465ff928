/-
Module: Crum.Proofs.Exceptions
Layer: Proofs
Purpose: Which exception ends the program. What an iteration throws can be told from what the hardware
  delivers and from the rounds still kept, without the tables: a file store without a disk, what OSHI
  throws, a missing load, or the first of the inserts whose key an earlier round has taken. From the
  iterations it follows for whole runs.
Imports: Crum.Proofs.Progress, Crum.Proofs.DiskStartup
Trusted boundary: none
Main exports: keptRounds, raises, foretold, Foreseen.thrown_iteration, thrown_runMain, run_exception
Open obligations: none
-/
import Crum.Proofs.Progress
import Crum.Proofs.DiskStartup

namespace Crum

open JavaRuntime Run

variable {α : Type} [JavaLong α]

/-- An INSERT throws when its key is taken, and only then. -/
theorem thrown_execute {ρ κ : Type} {key : ρ → κ} [DecidableEq κ] {name : String}
    {table : KeyedTable ρ κ key} {row : ρ} {taken : Prop} [Decidable taken]
    (htaken : key row ∈ table.rows.map key ↔ taken) :
    thrown (execute name table row) = if taken then some (.sqlConstraint name) else none := by
  rw [execute, KeyedTable.insert]
  by_cases hkey : key row ∈ table.rows.map key
  · rw [dif_pos hkey, if_pos (htaken.mp hkey)]
    rfl
  · rw [dif_neg hkey, if_neg (mt htaken.mpr hkey)]
    rfl

/-! ### What can be told in advance -/

/-- The rounds that the cullings so far have left. -/
def keptRounds (platform : Platform) (rounds : List (Round α)) : List (Round α) :=
  rounds.foldl (fun kept round =>
    (kept ++ [round]).filter fun r => judge platform round r.calendar != some true) []

omit [JavaLong α] in
theorem keptRounds_snoc (platform : Platform) (past : List (Round α)) (round : Round α) :
    keptRounds platform (past ++ [round]) =
      (keptRounds platform past ++ [round]).filter fun r =>
        judge platform round r.calendar != some true := by
  rw [keptRounds, List.foldl_append]
  rfl

omit [JavaLong α] in
/-- Their stamps are the kept ones. -/
theorem map_keptRounds (platform : Platform) (rounds : List (Round α)) :
    (keptRounds platform rounds).map (·.calendar) = keptStamps platform rounds := by
  induction rounds using List.reverseRecOn with
  | nil => rfl
  | append_singleton past round ih =>
      rw [keptRounds_snoc, keptStamps_snoc, ← ih, ← List.map_singleton (f := Round.calendar),
        ← List.map_append, List.filter_map]
      rfl

/-- What `getDiskData` throws: the stores are polled in order, and a taken stamp is noticed at the first
of them, unless that one has no disk. -/
def discRaises (fileStores : List (OSFileStore α)) (disks : List (HWDiskStore α)) (taken : Prop)
    [Decidable taken] : Option JavaException :=
  if fileStores ≠ [] ∧ AllStoresMatched (fileStores.take 1) disks ∧ taken then
    some (.sqlConstraint "DISC")
  else if AllStoresMatched fileStores disks then none
  else some .nullPointer

/-- What `getCPUData` throws: what OSHI throws, or a load is missing, or there is no usage to store, or the
key is taken, which only a round does that has found the same processor. -/
def cpuRaises (loadBetweenTicks : LoadBetweenTicks) (baseline : List Ticks) (cpu : CentralProcessor α)
    (taken : Prop) [Decidable taken] : Option JavaException :=
  match loadBetweenTicks cpu.logicalProcessorCount baseline cpu.windowEnd with
  | .error e => some e
  | .ok loads =>
      if loads.length < cpu.logicalProcessorCount then
        some (.arrayIndexOutOfBounds loads.length loads.length)
      else if cpu.logicalProcessorCount = 0 ∨ taken then some (.sqlConstraint "CPU")
      else none

/-- What `getMemoryData` throws. -/
def ramRaises (taken : Prop) [Decidable taken] : Option JavaException :=
  if taken then some (.sqlConstraint "RAM") else none

/-- What the iteration of `round` throws after the rounds `past`; `getNetworkData` comes last and finds
its key free whenever the others did. -/
def raises (platform : Platform) (hw : Hardware α) (past : List (Round α)) (round : Round α) :
    Option JavaException :=
  let processors := (keptRounds platform past).map fun r => (r.cpu.processorID, r.calendar)
  discRaises hw.fileStores hw.disks (round.calendar ∈ keptStamps platform past) <|>
    cpuRaises platform.loadBetweenTicks (lastTicks hw past) round.cpu
      ((round.cpu.processorID, round.calendar) ∈ processors) <|>
    ramRaises (round.calendar ∈ keptStamps platform past)

/-- The first exception of the rounds `rest` after `past`. -/
def foretoldAfter (platform : Platform) (hw : Hardware α) :
    List (Round α) → List (Round α) → Option JavaException
  | _, [] => none
  | past, round :: rest =>
      raises platform hw past round <|> foretoldAfter platform hw (past ++ [round]) rest

/-- The exception that ends the program, if one does. -/
def foretold (platform : Platform) (hw : Hardware α) (rounds : List (Round α)) : Option JavaException :=
  if hw.fileStores.length < hw.disks.length then
    some (.arrayIndexOutOfBounds hw.fileStores.length hw.fileStores.length)
  else foretoldAfter platform hw [] rounds

/-! ### The gathering methods -/

/-- The loop of `getDiskData` gets as far as the first file store without a disk, when the keys are
free. -/
theorem pollStores_reach {calendar : Int} {serialNum : String} {disk : Disk α}
    (samples : Nat → StoreSamples α) {table : DiscTable α} {k : Nat} (hk : k ≤ disk.entries.length)
    (hmapped : ∀ i < k, ∃ j < disk.disks.length, disk.fileStoresToDisks i = some j)
    (hfree : ∀ row ∈ table.rows, row.discId < k → row.machineId = serialNum → row.timestamp ≠ calendar) :
    ∃ polled, forRange k (pollStore calendar serialNum samples)
        { disk := disk, table := table, polled := [] } = .ok polled ∧
      PollSpec calendar serialNum disk table k polled := by
  apply forRange_returns k _ _ (PollSpec calendar serialNum disk table)
    (PollSpec.start calendar serialNum disk table)
  intro i hi state hstate
  rcases hmapped i hi with ⟨j, hj, hij⟩
  have hentry : i < state.disk.entries.length := by
    rw [hstate.length_entries]
    exact hi.trans_le hk
  rw [← hstate.length_disks] at hj
  rw [← hstate.map_eq] at hij
  have hkey := hstate.key_free fun row hrow hid => hfree row hrow (hid ▸ hi)
  rcases pollStore_returns samples hentry hij hj hkey with ⟨after, hstep⟩
  exact ⟨after, hstep, hstate.step hstep⟩

/-- The first file store without a disk ends the call. -/
theorem getDiskData_unmapped {calendar : Int} {serialNum : String} {disk : Disk α}
    {samples : Nat → StoreSamples α} {table : DiscTable α} {k : Nat} (hk : k < disk.entries.length)
    (hmapped : ∀ i < k, ∃ j < disk.disks.length, disk.fileStoresToDisks i = some j)
    (hfree : ∀ row ∈ table.rows, row.discId < k → row.machineId = serialNum → row.timestamp ≠ calendar)
    (hnone : disk.fileStoresToDisks k = none) :
    getDiskData calendar serialNum disk samples table = .error .nullPointer := by
  rcases pollStores_reach samples hk.le hmapped hfree with ⟨polled, hpolled, hspec⟩
  apply forRange_error hk hpolled
  have hentry : k < polled.disk.entries.length := by
    rw [hspec.length_entries]
    exact hk
  have hget : listGet polled.disk.entries k = .ok polled.disk.entries[k] :=
    listGet_eq_ok_iff.mpr (List.getElem?_eq_getElem hentry)
  rw [pollStore, hget, hspec.map_eq, hnone]
  rfl

/-- A taken key ends the call at the first file store. -/
theorem getDiskData_taken {calendar : Int} {serialNum : String} {disk : Disk α}
    {samples : Nat → StoreSamples α} {table : DiscTable α} {j : Nat} (hentry : 0 < disk.entries.length)
    (hj : j < disk.disks.length) (hmap : disk.fileStoresToDisks 0 = some j)
    (htaken : (0, serialNum, calendar) ∈ table.rows.map DiscRow.key) :
    getDiskData calendar serialNum disk samples table = .error (.sqlConstraint "DISC") := by
  apply forRange_error hentry (forRange_zero _ _)
  have hget : listGet disk.entries 0 = .ok disk.entries[0] :=
    listGet_eq_ok_iff.mpr (List.getElem?_eq_getElem hentry)
  have hdisk : listGet disk.disks j = .ok disk.disks[j] :=
    listGet_eq_ok_iff.mpr (List.getElem?_eq_getElem hj)
  have hthrows : ∀ row : DiscRow α, row.key = (0, serialNum, calendar) →
      execute "DISC" table row = .error (.sqlConstraint "DISC") := by
    intro row hkey
    rw [← hkey] at htaken
    rw [execute, KeyedTable.insert, dif_pos htaken]
  rw [pollStore, hget, hmap]
  simp only [unbox, bind, Except.bind, hdisk, arrayModify, if_pos hentry]
  rw [hthrows]
  rfl

/-- Without a load for every logical processor the loop over the loads runs past their end. -/
theorem sumLoads_overrun {loads : List Rat} {n : Nat} (hn : loads.length < n) :
    sumLoads loads n = .error (.arrayIndexOutOfBounds loads.length loads.length) := by
  apply forRange_error hn (sumLoads_returns le_rfl)
  rw [List.getElem?_eq_none le_rfl]
  rfl

theorem thrown_getCPUData {loadBetweenTicks : LoadBetweenTicks} {calendar : Int} {serialNum : String}
    {state : Cpu} {cpu : CentralProcessor α} {table : CpuTable α} {taken : Prop} [Decidable taken]
    (htaken : (cpu.processorID, serialNum, calendar) ∈ table.rows.map CpuRow.key ↔ taken) :
    thrown (getCPUData loadBetweenTicks calendar serialNum state cpu table) =
      cpuRaises loadBetweenTicks state.prevLoadTicks cpu taken := by
  rw [cpuRaises]
  cases hloads : loadBetweenTicks cpu.logicalProcessorCount state.prevLoadTicks cpu.windowEnd with
  | error e =>
      rw [getCPUData, hloads]
      rfl
  | ok loads =>
      dsimp only
      by_cases hfew : loads.length < cpu.logicalProcessorCount
      · rw [if_pos hfew, getCPUData, hloads]
        simp only [bind, Except.bind, sumLoads_overrun hfew, thrown_error]
      · rw [if_neg hfew]
        have hlength := not_lt.mp hfew
        by_cases hzero : cpu.logicalProcessorCount = 0
        · rw [if_pos (Or.inl hzero), getCPUData, hloads]
          simp only [bind, Except.bind, sumLoads_returns hlength, meanLoad, if_pos hzero, notNull,
            thrown_error]
        · rcases getCPUData_insert ⟨Nat.pos_of_ne_zero hzero, loads, hloads, hlength⟩ with
            ⟨state', usage, heq⟩
          rw [heq, thrown_bind_of_none fun _ _ => rfl, thrown_execute htaken]
          simp only [hzero, false_or]

/-! ### One iteration -/

omit [JavaLong α] in
theorem lastDisk_eq_some {disks : List (HWDiskStore α)} {uuid : String} :
    (∃ j, lastDisk disks uuid = some j) ↔
      ∃ hw ∈ disks, ∃ partition ∈ hw.partitions, partition.uuid = uuid := by
  rw [← exists_hasPartition_iff, ← not_iff_not, not_exists, not_exists, ← lastDisk_eq_none_iff,
    Option.eq_none_iff_forall_ne_some]

/-- What a loop head knows of the past that decides the next exception. -/
structure Foreseen (platform : Platform) (hw : Hardware α) (past : List (Round α))
    (log : RoundLog α hw.site) (state : CrumState α) : Prop where
  reckoned : Reckoned platform hw past log state
  processors : state.database.cpu.rows.map (fun row => (row.cpuId, row.timestamp)) =
    (keptRounds platform past).map fun r => (r.cpu.processorID, r.calendar)
  map_eq : ∀ i, state.diskData.fileStoresToDisks i =
    (hw.fileStores[i]?).bind fun store => lastDisk hw.disks store.uuid

theorem initMain_foreseen {platform : Platform} {hw : Hardware α} {now : Int} {state : CrumState α}
    (h : initMain hw now = .ok state) : Foreseen platform hw [] .empty state := by
  have hreckoned : Reckoned platform hw [] .empty state := initMain_reckoned h
  simp only [initMain, bind_eq_ok_iff] at h
  rcases h with ⟨⟨diskData, n⟩, hdisk, machine, -, hstate⟩
  obtain rfl := Except.ok.inj hstate
  exact ⟨hreckoned, rfl, initDisk_map hdisk⟩

theorem Foreseen.step {platform : Platform} {hw : Hardware α} {past : List (Round α)}
    {log : RoundLog α hw.site} {before after : CrumState α} {round : Round α}
    (h : Foreseen platform hw past log before) (hstep : iteration platform before round = .ok after) :
    ∃ log', Foreseen platform hw (past ++ [round]) log' after := by
  rcases (h.reckoned.step hstep).2 with ⟨log', hreckoned⟩
  refine ⟨log', hreckoned, ?_, ?_⟩
  · rcases iteration_eq_ok hstep with ⟨gathered, hgather, rfl⟩
    rcases gather_eq_ok hgather with ⟨polled, cpu, ram, network, -, hcpu, -, -, rfl⟩
    -- the culling goes by the stamp, which is the second part of the pairs
    let live : String × Int → Bool := fun pair => judge platform round pair.2 != some true
    have hrows : cpu.2.rows.map (fun row => (row.cpuId, row.timestamp)) =
        (keptRounds platform past ++ [round]).map fun r => (r.cpu.processorID, r.calendar) := by
      rcases getCPUData_rows hcpu with ⟨usage, hinserted⟩
      rw [hinserted, List.map_append, h.processors, List.map_append]
      rfl
    have hculled := congrArg (List.filter live) hrows
    rw [List.filter_map, List.filter_map] at hculled
    rw [keptRounds_snoc]
    exact hculled
  · rcases iteration_calls hstep with ⟨polled, -, -, -, hdisk, -, -, -, -, hdiskData, -⟩
    rw [hdiskData, (getDiskData_spec hdisk).map_eq]
    exact h.map_eq

section Taken

variable {α : Type} {platform : Platform} {hw : Hardware α} {past : List (Round α)}
  {log : RoundLog α hw.site} {state : CrumState α}

/-- The key of the next CPU row is taken by a kept round with its calendar value that found the same
processor. -/
theorem Foreseen.cpu_taken_iff (h : Foreseen platform hw past log state) (processorID : String)
    (calendar : Int) :
    (processorID, state.serialNum, calendar) ∈ state.database.cpu.rows.map CpuRow.key ↔
      (processorID, calendar) ∈ (keptRounds platform past).map fun r => (r.cpu.processorID, r.calendar) := by
  rw [← h.processors, List.mem_map, List.mem_map]
  constructor
  · rintro ⟨row, hrow, hkey⟩
    rcases Prod.mk.inj hkey with ⟨hid, hrest⟩
    exact ⟨row, hrow, Prod.ext hid (Prod.mk.inj hrest).2⟩
  · rintro ⟨row, hrow, hpair⟩
    rcases h.reckoned.inv.records.cpu_round hrow with ⟨-, -, -, hmachine⟩
    rcases Prod.mk.inj hpair with ⟨hid, hstamp⟩
    exact ⟨row, hrow, by rw [CpuRow.key, hid, hmachine, h.reckoned.inv.serialNum_eq, hstamp]⟩

/-- The key of the next RAM row is taken by a kept round with its calendar value. -/
theorem Reckoned.ram_taken_iff (h : Reckoned platform hw past log state) (calendar : Int) :
    (state.memoryData.numMemModules, state.serialNum, calendar) ∈ state.database.ram.rows.map RamRow.key ↔
      calendar ∈ keptStamps platform past := by
  rw [← h.stamps]
  constructor
  · intro htaken
    rcases List.mem_map.mp htaken with ⟨row, hrow, hkey⟩
    rcases h.inv.records.ram_round hrow with ⟨r, hr, hstamp, -⟩
    have hcalendar : row.timestamp = calendar := congrArg (·.2.2) hkey
    exact List.mem_map.mpr ⟨r, hr, hstamp.symm.trans hcalendar⟩
  · intro hkept
    by_contra hfree
    rw [h.inv.numMemModules_eq, h.inv.serialNum_eq] at hfree
    exact h.inv.records.stamp_new hfree hkept

/-- A kept round has a row for the first file store. -/
theorem Reckoned.disc_taken (h : Reckoned platform hw past log state) {calendar : Int}
    (hkept : calendar ∈ keptStamps platform past) (hstores : 0 < hw.fileStores.length) :
    (0, state.serialNum, calendar) ∈ state.database.disc.rows.map DiscRow.key := by
  rw [← h.stamps] at hkept
  rcases List.mem_map.mp hkept with ⟨r, hr, hstamp⟩
  have hzero : 0 ∈ r.disc.map (·.discId) := by
    rw [r.disc_ids]
    exact List.mem_range.mpr hstores
  rcases List.mem_map.mp hzero with ⟨row, hrow, hid⟩
  rcases r.disc_of row hrow with ⟨hround, hmachine⟩
  refine List.mem_map.mpr ⟨row, h.inv.records.disc.mem_iff.mpr ⟨r, hr, hrow⟩, ?_⟩
  rw [DiscRow.key, hid, hmachine, h.inv.serialNum_eq, hround, hstamp]

/-- The keys of all file stores before the first one without a disk are free, unless that of the first
file store is taken. -/
theorem Reckoned.disc_free (h : Reckoned platform hw past log state) {calendar : Int} {k : Nat}
    (hfirst : ¬ (hw.fileStores ≠ [] ∧ AllStoresMatched (hw.fileStores.take 1) hw.disks ∧
      calendar ∈ keptStamps platform past))
    (hk : k ≤ hw.fileStores.length) (hmatched : AllStoresMatched (hw.fileStores.take k) hw.disks) :
    ∀ row ∈ state.database.disc.rows, row.discId < k → row.machineId = state.serialNum →
      row.timestamp ≠ calendar := by
  intro row hrow hid _
  have hpos : 0 < k := (Nat.zero_le _).trans_lt hid
  have hnew : calendar ∉ keptStamps platform past := by
    intro hkept
    refine hfirst ⟨List.length_pos_iff.mp (hpos.trans_le hk), ?_, hkept⟩
    intro store hstore
    exact hmatched store ((List.take_sublist_take_left hpos).subset hstore)
  exact (h.noSamples hnew).disc row hrow

/-- The first file stores have their disks when the UUIDs of these have been found. -/
theorem Foreseen.matched_iff (h : Foreseen platform hw past log state) {k : Nat}
    (hk : k ≤ hw.fileStores.length) :
    (∀ i < k, ∃ j < state.diskData.disks.length, state.diskData.fileStoresToDisks i = some j) ↔
      AllStoresMatched (hw.fileStores.take k) hw.disks := by
  constructor
  · intro hmapped store hstore
    rcases List.getElem_of_mem hstore with ⟨i, hi, rfl⟩
    rw [List.length_take, min_eq_left hk] at hi
    rcases hmapped i hi with ⟨j, -, hij⟩
    rw [h.map_eq, List.getElem?_eq_getElem (hi.trans_le hk), Option.bind_some] at hij
    rw [List.getElem_take]
    exact lastDisk_eq_some.mp ⟨j, hij⟩
  · intro hmatched i hi
    have hlt : i < hw.fileStores.length := hi.trans_le hk
    have hstore : hw.fileStores[i] ∈ hw.fileStores.take k :=
      List.mem_take_iff_getElem.mpr ⟨i, lt_min hi hlt, rfl⟩
    rcases lastDisk_eq_some.mpr (hmatched _ hstore) with ⟨j, hj⟩
    have hij : state.diskData.fileStoresToDisks i = some j := by
      rw [h.map_eq, List.getElem?_eq_getElem hlt]
      exact hj
    exact ⟨j, h.reckoned.in_range i j hij, hij⟩

/-- If some file store has no disk, there is a first one. -/
theorem Foreseen.first_unmatched (h : Foreseen platform hw past log state)
    (hunmatched : ¬ AllStoresMatched hw.fileStores hw.disks) :
    ∃ k < hw.fileStores.length, AllStoresMatched (hw.fileStores.take k) hw.disks ∧
      state.diskData.fileStoresToDisks k = none := by
  have hmapped : ∀ i, state.diskData.fileStoresToDisks i ≠ none →
      ∃ j < state.diskData.disks.length, state.diskData.fileStoresToDisks i = some j := by
    intro i hi
    rcases Option.ne_none_iff_exists'.mp hi with ⟨j, hij⟩
    exact ⟨j, h.reckoned.in_range i j hij, hij⟩
  have hexists : ∃ k, k < hw.fileStores.length ∧ state.diskData.fileStoresToDisks k = none := by
    by_contra hnone
    have hall := (h.matched_iff le_rfl).mp fun i hi => hmapped i fun hmap => hnone ⟨i, hi, hmap⟩
    rw [List.take_length] at hall
    exact hunmatched hall
  rcases Nat.find_spec hexists with ⟨hlt, hmap⟩
  refine ⟨Nat.find hexists, hlt, (h.matched_iff hlt.le).mp ?_, hmap⟩
  intro i hi
  exact hmapped i fun hnone => Nat.find_min hexists hi ⟨hi.trans hlt, hnone⟩

end Taken

theorem Foreseen.thrown_disc {platform : Platform} {hw : Hardware α} {past : List (Round α)}
    {log : RoundLog α hw.site} {state : CrumState α} (h : Foreseen platform hw past log state)
    (calendar : Int) (samples : Nat → StoreSamples α) :
    thrown (getDiskData calendar state.serialNum state.diskData samples state.database.disc) =
      discRaises hw.fileStores hw.disks (calendar ∈ keptStamps platform past) := by
  have hlength : state.diskData.entries.length = hw.fileStores.length := h.reckoned.inv.length_entries
  have hall := h.matched_iff le_rfl
  rw [List.take_length] at hall
  rw [discRaises]
  split
  · next htaken =>
      rcases htaken with ⟨hstores, hfirst, hkept⟩
      have hpos : 0 < hw.fileStores.length := List.length_pos_iff.mpr hstores
      rcases (h.matched_iff hpos).mpr hfirst 0 Nat.one_pos with ⟨j, hj, hmap⟩
      rw [getDiskData_taken (hlength ▸ hpos) hj hmap (h.reckoned.disc_taken hkept hpos), thrown_error]
  · next hfirst =>
      split
      · next hmatched =>
          have hmapped : state.diskData.AllMapped := by
            intro i hi
            exact hall.mpr hmatched i (hlength ▸ hi)
          have hfree := h.reckoned.disc_free hfirst le_rfl (by rwa [List.take_length])
          rw [← hlength] at hfree
          rcases getDiskData_returns samples hmapped hfree with ⟨polled, hpolled⟩
          rw [hpolled, thrown_ok]
      · next hunmatched =>
          rcases h.first_unmatched hunmatched with ⟨k, hk, hmatched, hnone⟩
          have hmapped := (h.matched_iff hk.le).mpr hmatched
          have hfree := h.reckoned.disc_free hfirst hk.le hmatched
          rw [getDiskData_unmapped (hlength ▸ hk) hmapped hfree hnone, thrown_error]

/-- What an iteration throws is what could be told in advance. -/
theorem Foreseen.thrown_iteration {platform : Platform} {hw : Hardware α} {past : List (Round α)}
    {log : RoundLog α hw.site} {before : CrumState α} (h : Foreseen platform hw past log before)
    (round : Round α) : thrown (iteration platform before round) = raises platform hw past round := by
  have hcpu : thrown (getCPUData platform.loadBetweenTicks round.calendar before.serialNum before.cpuData
      round.cpu before.database.cpu) = cpuRaises platform.loadBetweenTicks (lastTicks hw past) round.cpu
        ((round.cpu.processorID, round.calendar) ∈
          (keptRounds platform past).map fun r => (r.cpu.processorID, r.calendar)) := by
    rw [← h.reckoned.baseline]
    exact thrown_getCPUData (h.cpu_taken_iff round.cpu.processorID round.calendar)
  have hram : thrown (getMemoryData round.calendar before.serialNum before.memoryData round.memory
      before.database.ram) = ramRaises (round.calendar ∈ keptStamps platform past) :=
    thrown_execute (h.reckoned.ram_taken_iff round.calendar)
  rw [iteration, thrown_bind_of_none fun _ _ => rfl, raises, ← h.thrown_disc round.calendar round.disk,
    ← hcpu, ← hram]
  refine thrown_bind fun polled _ => thrown_bind fun cpu _ => thrown_bind_of_none fun ram hreturned => ?_
  have hnew : round.calendar ∉ keptStamps platform past := by
    rw [← h.reckoned.ram_taken_iff]
    exact (getMemoryData_rows hreturned).1
  rcases getNetworkData_returns before.serialNum before.networkData round.network
    (h.reckoned.noSamples hnew).network with ⟨network, hnetwork⟩
  rw [hnetwork]
  rfl

/-! ### Whole runs -/

theorem thrown_run {platform : Platform} {hw : Hardware α} {past : List (Round α)}
    {log : RoundLog α hw.site} {state : CrumState α} (h : Foreseen platform hw past log state)
    (rounds : List (Round α)) :
    thrown (run (iteration platform) state rounds) = foretoldAfter platform hw past rounds := by
  induction rounds generalizing past log state with
  | nil => rfl
  | cons round rest ih =>
      rw [run_cons, foretoldAfter, ← h.thrown_iteration round]
      apply thrown_bind
      intro after hstep
      rcases h.step hstep with ⟨log', hafter⟩
      exact ih hafter

/-- The exception that ends a run, told from its inputs: if the disks outnumber the file stores it comes
from the initialisation, otherwise from the first iteration that throws. -/
theorem thrown_runMain (platform : Platform) (hw : Hardware α) (now : Int) (rounds : List (Round α)) :
    thrown (runMain platform hw now rounds) = foretold platform hw rounds := by
  rw [foretold, runMain]
  split
  · next hsize =>
      rw [initMain, initDisk_overrun hsize]
      exact thrown_error _
  · next hsize =>
      rcases initMain_completes_iff.mpr (not_lt.mp hsize) with ⟨state, hinit⟩
      rw [hinit]
      exact thrown_run (initMain_foreseen hinit) rounds

section Constraints

variable {α : Type} {platform : Platform} {hw : Hardware α}

/-- On a computer with a file store a taken stamp never gets past `getDiskData`. -/
theorem discRaises_taken {fileStores : List (OSFileStore α)} (disks : List (HWDiskStore α)) {taken : Prop}
    [Decidable taken] (hstores : fileStores ≠ []) (htaken : taken) :
    discRaises fileStores disks taken = some (.sqlConstraint "DISC") ∨
      discRaises fileStores disks taken = some .nullPointer := by
  rw [discRaises]
  by_cases hfirst : AllStoresMatched (fileStores.take 1) disks
  · rw [if_pos ⟨hstores, hfirst, htaken⟩]
    exact Or.inl rfl
  · rw [if_neg fun h => hfirst h.2.1, if_neg]
    · exact Or.inr rfl
    · intro hall
      exact hfirst fun store hstore => hall store (List.mem_of_mem_take hstore)

/-- With a load for every processor, what is thrown there is one of two exceptions. -/
theorem raises_of_loads {past : List (Round α)} {round : Round α} {e : JavaException}
    (hstores : hw.fileStores ≠ [])
    (hloads : LoadsSuffice platform.loadBetweenTicks (lastTicks hw past) round.cpu)
    (h : raises platform hw past round = some e) : e = .nullPointer ∨ e = .sqlConstraint "DISC" := by
  rw [raises] at h
  by_cases hkept : round.calendar ∈ keptStamps platform past
  · rcases discRaises_taken hw.disks hstores hkept with hdisc | hdisc
    · rw [hdisc] at h
      exact Or.inr (Option.some.inj h).symm
    · rw [hdisc] at h
      exact Or.inl (Option.some.inj h).symm
  · have hprocessor : (round.cpu.processorID, round.calendar) ∉
        (keptRounds platform past).map fun r => (r.cpu.processorID, r.calendar) := by
      intro hmem
      rcases List.mem_map.mp hmem with ⟨r, hr, hpair⟩
      apply hkept
      rw [← map_keptRounds, ← (Prod.mk.inj hpair).2]
      exact List.mem_map_of_mem hr
    -- what is left is a store without a disk
    rcases hloads with ⟨hpos, loads, hreturned, hlength⟩
    simp only [discRaises, cpuRaises, hreturned, not_lt.mpr hlength, hpos.ne', ramRaises, hkept, hprocessor,
      and_false, or_false, if_false] at h
    split_ifs at h
    · cases h
    · exact Or.inl (Option.some.inj h).symm

/-- What is thrown is thrown by the iteration of some round. -/
theorem foretoldAfter_split {past rounds : List (Round α)} {e : JavaException}
    (h : foretoldAfter platform hw past rounds = some e) :
    ∃ front round back, rounds = front ++ round :: back ∧ raises platform hw (past ++ front) round = some e := by
  induction rounds generalizing past with
  | nil => cases h
  | cons round rest ih =>
      rw [foretoldAfter] at h
      cases hround : raises platform hw past round with
      | some e =>
          rw [hround] at h
          obtain rfl := Option.some.inj h
          exact ⟨[], round, rest, rfl, by rw [List.append_nil, hround]⟩
      | none =>
          rw [hround] at h
          rcases ih h with ⟨front, later, back, rfl, hlater⟩
          refine ⟨round :: front, later, back, rfl, ?_⟩
          rw [← hlater, List.append_assoc]
          rfl

end Constraints

/-- The exception that ends a run is the one foretold from its inputs. On a computer with a file store and
the same processors throughout it is one of three; no constraint but that of DISC ever fails, so that CPU
and RAM never see a taken key. -/
theorem run_exception (platform : Platform) (hw : Hardware α) (now : Int) (rounds : List (Round α)) :
    thrown (runMain platform hw now rounds) = foretold platform hw rounds ∧
      (hw.fileStores ≠ [] → LoadsPerProcessor platform.loadBetweenTicks →
        ∀ n, SteadyProcessors n hw rounds → ∀ e, thrown (runMain platform hw now rounds) = some e →
          e = .arrayIndexOutOfBounds hw.fileStores.length hw.fileStores.length ∨ e = .nullPointer ∨
            e = .sqlConstraint "DISC") := by
  refine ⟨thrown_runMain platform hw now rounds, ?_⟩
  intro hstores hoshi n hsteady e h
  rw [thrown_runMain, foretold] at h
  split at h
  · exact Or.inl (Option.some.inj h).symm
  · rcases foretoldAfter_split h with ⟨front, round, back, hsplit, hround⟩
    exact Or.inr (raises_of_loads hstores (hsteady.suffice hoshi hsplit) hround)

/-- The second of two rounds in one millisecond finds its key in DISC. -/
example : foretold utcPlatform smallComputer
    [smallRound 1618920001000 1618920001000 0, smallRound 1618920001000 1618920002000 0] =
      some (.sqlConstraint "DISC") := by decide

end Crum
