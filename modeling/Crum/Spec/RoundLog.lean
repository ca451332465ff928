/-
Module: Crum.Spec.RoundLog
Layer: Spec
Purpose: What the sample tables are for: a log of complete rounds of collection. A round carries one stamp
  and, under it, one row of CPU, RAM and NETWORK and one row of DISC for each file store. No two kept
  rounds share a stamp; an iteration of the main loop adds a round and drops the expired ones.
Imports: Crum.Core.Main
Trusted boundary: the abstract behaviour, not translated from the source
Main exports: Site, RoundRecord, RoundLog, RoundLog.advance, Records, Inserted, Records.cull,
  Records.filter_stamp, Records.disc_round
Open obligations: none
-/
import Crum.Core.Main

namespace Crum

/-- What stays fixed over a run: the number of file stores, `SerialNum` and the number of memory
modules found at the start. -/
structure Site where
  fileStores : Nat
  serialNum : String
  memModules : Nat
deriving Repr, DecidableEq

/-- A complete round. -/
structure RoundRecord (α : Type) (site : Site) where
  stamp : Int
  disc : List (DiscRow α)
  cpu : CpuRow α
  ram : RamRow α
  network : NetworkRow α
  disc_ids : disc.map (·.discId) = List.range site.fileStores
  disc_of : ∀ row ∈ disc, row.timestamp = stamp ∧ row.machineId = site.serialNum
  cpu_of : cpu.timestamp = stamp ∧ cpu.machineId = site.serialNum
  ram_of : ram.timestamp = stamp ∧ ram.machineId = site.serialNum ∧ ram.ramId = site.memModules
  network_of : network.timestamp = stamp ∧ network.machineId = site.serialNum

/-- Complete rounds in the order of their collection, under pairwise distinct stamps. -/
abbrev RoundLog (α : Type) (site : Site) :=
  KeyedTable (RoundRecord α site) Int RoundRecord.stamp

/-- One iteration of the main loop: a round enters, if its stamp is new, and expired rounds leave. -/
def RoundLog.advance {α : Type} {site : Site} (expired : Int → Option Bool) (log : RoundLog α site)
    (record : RoundRecord α site) : Option (RoundLog α site) :=
  (log.insert record).map fun grown => grown.deleteWhere fun r => expired r.stamp

/-- After a step the log holds rounds it held before, or the new one. -/
theorem RoundLog.mem_advance {α : Type} {site : Site} {expired : Int → Option Bool}
    {log log' : RoundLog α site} {record r : RoundRecord α site}
    (h : log.advance expired record = some log') (hr : r ∈ log'.rows) : r ∈ log.rows ∨ r = record := by
  rcases Option.map_eq_some_iff.mp h with ⟨grown, hinsert, rfl⟩
  have hgrown : r ∈ grown.rows := (KeyedTable.mem_deleteWhere.mp hr).1
  rw [(KeyedTable.insert_eq_some_iff.mp hinsert).2, List.mem_append, List.mem_singleton] at hgrown
  exact hgrown

section Tables

variable {α : Type} {site : Site}

theorem RoundRecord.disc_stamp (r : RoundRecord α site) :
    ∀ row ∈ r.disc, row.timestamp = r.stamp :=
  fun row hrow => (r.disc_of row hrow).1

theorem RoundRecord.cpu_stamp (r : RoundRecord α site) :
    ∀ row ∈ [r.cpu], row.timestamp = r.stamp :=
  List.forall_mem_singleton.mpr r.cpu_of.1

theorem RoundRecord.ram_stamp (r : RoundRecord α site) :
    ∀ row ∈ [r.ram], row.timestamp = r.stamp :=
  List.forall_mem_singleton.mpr r.ram_of.1

theorem RoundRecord.network_stamp (r : RoundRecord α site) :
    ∀ row ∈ [r.network], row.timestamp = r.stamp :=
  List.forall_mem_singleton.mpr r.network_of.1

/-- The four sample tables hold the parts of the rounds of a log, and nothing else. -/
structure Records (db : Database α) (log : RoundLog α site) : Prop where
  disc : KeyedTable.Projects RoundRecord.disc log db.disc
  cpu : KeyedTable.Projects (fun r => [r.cpu]) log db.cpu
  ram : KeyedTable.Projects (fun r => [r.ram]) log db.ram
  network : KeyedTable.Projects (fun r => [r.network]) log db.network

/-- The parts of one round were appended to the four tables. -/
structure Inserted (before : Database α) (record : RoundRecord α site) (after : Database α) : Prop where
  machine : after.machine = before.machine
  disc : after.disc.rows = before.disc.rows ++ record.disc
  cpu : after.cpu.rows = before.cpu.rows ++ [record.cpu]
  ram : after.ram.rows = before.ram.rows ++ [record.ram]
  network : after.network.rows = before.network.rows ++ [record.network]

theorem Records.start : Records initDB (KeyedTable.empty : RoundLog α site) where
  disc := KeyedTable.Projects.start
  cpu := KeyedTable.Projects.start
  ram := KeyedTable.Projects.start
  network := KeyedTable.Projects.start

/-- Appending a round to the tables is inserting it into the log. -/
theorem Records.insert {before after : Database α} {log log' : RoundLog α site}
    {record : RoundRecord α site} (h : Records before log) (hinserted : Inserted before record after)
    (hlog : log.insert record = some log') : Records after log' where
  disc := h.disc.insert hlog hinserted.disc
  cpu := h.cpu.insert hlog hinserted.cpu
  ram := h.ram.insert hlog hinserted.ram
  network := h.network.insert hlog hinserted.network

/-- Culling the tables is deleting from the log, since a row carries the stamp of its round. -/
theorem Records.cull {db : Database α} {log : RoundLog α site} (h : Records db log)
    (condition : Condition) (zone : Zone) (now : Int) :
    Records (cullDatabase condition zone now db)
      (log.deleteWhere fun r => condition r.stamp (timeSearch zone now)) where
  disc := h.disc.deleteWhere fun r row hrow => by rw [r.disc_stamp row hrow]
  cpu := h.cpu.deleteWhere fun r row hrow => by rw [r.cpu_stamp row hrow]
  ram := h.ram.deleteWhere fun r row hrow => by rw [r.ram_stamp row hrow]
  network := h.network.deleteWhere fun r row hrow => by rw [r.network_stamp row hrow]

/-- The rows with one stamp are those of the round with that stamp. -/
theorem Records.filter_stamp {db : Database α} {log : RoundLog α site} (h : Records db log) (tau : Int) :
    (db.disc.rows.filter fun row => row.timestamp = tau) =
        (log.rows.filter fun r => r.stamp = tau).flatMap RoundRecord.disc ∧
      (db.cpu.rows.filter fun row => row.timestamp = tau) =
        (log.rows.filter fun r => r.stamp = tau).flatMap (fun r => [r.cpu]) ∧
      (db.ram.rows.filter fun row => row.timestamp = tau) =
        (log.rows.filter fun r => r.stamp = tau).flatMap (fun r => [r.ram]) ∧
      (db.network.rows.filter fun row => row.timestamp = tau) =
        (log.rows.filter fun r => r.stamp = tau).flatMap (fun r => [r.network]) := by
  refine ⟨h.disc.filter ?_, h.cpu.filter ?_, h.ram.filter ?_, h.network.filter ?_⟩
  · intro r row hrow
    rw [r.disc_stamp row hrow]
  · intro r row hrow
    rw [r.cpu_stamp row hrow]
  · intro r row hrow
    rw [r.ram_stamp row hrow]
  · intro r row hrow
    rw [r.network_stamp row hrow]

/-- If the RAM row of a round could be inserted, no kept round has its stamp: the other two columns of the
key are the same in every round. -/
theorem Records.stamp_new {db : Database α} {log : RoundLog α site} (h : Records db log) {stamp : Int}
    (hfree : (site.memModules, site.serialNum, stamp) ∉ db.ram.rows.map RamRow.key) :
    stamp ∉ log.rows.map RoundRecord.stamp := by
  intro hmem
  rcases List.mem_map.mp hmem with ⟨r, hr, hstamp⟩
  have hrow : r.ram ∈ db.ram.rows := h.ram.mem_iff.mpr ⟨r, hr, List.mem_singleton.mpr rfl⟩
  rcases r.ram_of with ⟨hramStamp, hramSerial, hramId⟩
  apply hfree
  refine List.mem_map.mpr ⟨r.ram, hrow, ?_⟩
  rw [RamRow.key, hramStamp, hramSerial, hramId, hstamp]

/-! A row of any of the four tables belongs to a round with its stamp. -/

theorem Records.disc_round {db : Database α} {log : RoundLog α site} (h : Records db log)
    {row : DiscRow α} (hrow : row ∈ db.disc.rows) :
    ∃ r ∈ log.rows, row.timestamp = r.stamp ∧ row.machineId = site.serialNum := by
  rcases h.disc.mem_iff.mp hrow with ⟨r, hr, hmem⟩
  exact ⟨r, hr, r.disc_of row hmem⟩

theorem Records.cpu_round {db : Database α} {log : RoundLog α site} (h : Records db log)
    {row : CpuRow α} (hrow : row ∈ db.cpu.rows) :
    ∃ r ∈ log.rows, row.timestamp = r.stamp ∧ row.machineId = site.serialNum := by
  rcases h.cpu.mem_iff.mp hrow with ⟨r, hr, hmem⟩
  obtain rfl := List.mem_singleton.mp hmem
  exact ⟨r, hr, r.cpu_of⟩

theorem Records.ram_round {db : Database α} {log : RoundLog α site} (h : Records db log)
    {row : RamRow α} (hrow : row ∈ db.ram.rows) :
    ∃ r ∈ log.rows, row.timestamp = r.stamp ∧ row.machineId = site.serialNum := by
  rcases h.ram.mem_iff.mp hrow with ⟨r, hr, hmem⟩
  obtain rfl := List.mem_singleton.mp hmem
  exact ⟨r, hr, r.ram_of.1, r.ram_of.2.1⟩

theorem Records.network_round {db : Database α} {log : RoundLog α site} (h : Records db log)
    {row : NetworkRow α} (hrow : row ∈ db.network.rows) :
    ∃ r ∈ log.rows, row.timestamp = r.stamp ∧ row.machineId = site.serialNum := by
  rcases h.network.mem_iff.mp hrow with ⟨r, hr, hmem⟩
  obtain rfl := List.mem_singleton.mp hmem
  exact ⟨r, hr, r.network_of⟩

end Tables

end Crum
