/-
Module: Crum.Core.Schema
Layer: Core
Purpose: The five tables `initDB` creates, with their columns and primary keys, and the inserts into
  them. `TIMESTAMP` holds the integer number of milliseconds since 1970 that `setTimestamp` stores. The
  foreign keys are declared but not enforced by default, so an insert does not check them.
Imports: Crum.Lib.KeyedTable, Crum.Lib.JavaRuntime
Trusted boundary: human-reviewed spec of the CREATE TABLE statements
Main exports: MachineRow, DiscRow, CpuRow, RamRow, NetworkRow, Database, initDB, notNull, execute
Open obligations: none
-/
import Crum.Lib.KeyedTable
import Crum.Lib.JavaRuntime

namespace Crum

/-- A row of `MACHINE`. -/
structure MachineRow where
  machineId : String
  timestamp : Int
  machineModel : String
  machineVendor : String
deriving Repr, DecidableEq

/-- A row of `DISC`. -/
structure DiscRow (α : Type) where
  discId : Nat
  machineId : String
  timestamp : Int
  discName : String
  discModel : String
  discSize : α
  discUsed : α
  discSpeed : α
deriving Repr, DecidableEq

/-- A row of `CPU`. `CORE_USAGE` receives a double, here its exact value. -/
structure CpuRow (α : Type) where
  cpuId : String
  machineId : String
  timestamp : Int
  cpuModel : String
  clockSpeed : α
  corePhysical : Nat
  coreLogical : Nat
  coreUsage : Rat
  numProcess : α
deriving Repr, DecidableEq

/-- A row of `RAM`. -/
structure RamRow (α : Type) where
  ramId : Nat
  machineId : String
  timestamp : Int
  totalSpace : α
  totalPhysical : α
  totalVirtual : α
  usedSpace : α
deriving Repr, DecidableEq

/-- A row of `NETWORK`. -/
structure NetworkRow (α : Type) where
  networkId : String
  machineId : String
  timestamp : Int
  inboundTraffic : α
  outboundTraffic : α
  macAddress : String
deriving Repr, DecidableEq

/-- `PRIMARY KEY(MACHINE_ID, TIMESTAMP)` -/
def MachineRow.key (row : MachineRow) : String × Int := (row.machineId, row.timestamp)

/-- `PRIMARY KEY(DISC_ID, MACHINE_ID, TIMESTAMP)` -/
def DiscRow.key {α : Type} (row : DiscRow α) : Nat × String × Int :=
  (row.discId, row.machineId, row.timestamp)

/-- `PRIMARY KEY(CPU_ID, MACHINE_ID, TIMESTAMP)` -/
def CpuRow.key {α : Type} (row : CpuRow α) : String × String × Int :=
  (row.cpuId, row.machineId, row.timestamp)

/-- `PRIMARY KEY(RAM_ID, MACHINE_ID, TIMESTAMP)` -/
def RamRow.key {α : Type} (row : RamRow α) : Nat × String × Int :=
  (row.ramId, row.machineId, row.timestamp)

/-- `PRIMARY KEY(NETWORK_ID, MACHINE_ID, TIMESTAMP)` -/
def NetworkRow.key {α : Type} (row : NetworkRow α) : String × String × Int :=
  (row.networkId, row.machineId, row.timestamp)

abbrev MachineTable := KeyedTable MachineRow (String × Int) MachineRow.key
abbrev DiscTable (α : Type) := KeyedTable (DiscRow α) (Nat × String × Int) DiscRow.key
abbrev CpuTable (α : Type) := KeyedTable (CpuRow α) (String × String × Int) CpuRow.key
abbrev RamTable (α : Type) := KeyedTable (RamRow α) (Nat × String × Int) RamRow.key
abbrev NetworkTable (α : Type) := KeyedTable (NetworkRow α) (String × String × Int) NetworkRow.key

/-- The file `crum.db`. -/
structure Database (α : Type) where
  machine : MachineTable
  disc : DiscTable α
  cpu : CpuTable α
  ram : RamTable α
  network : NetworkTable α

variable {α : Type}

/-- `initDB` drops whatever tables an earlier run left and creates them anew. -/
def initDB : Database α where
  machine := .empty
  disc := .empty
  cpu := .empty
  ram := .empty
  network := .empty

/-- A value for a column that is `NOT NULL`; binding NULL to it is an `SQLException` at the INSERT. -/
def notNull {τ : Type} (name : String) (value : Option τ) : Except JavaException τ :=
  match value with
  | some x => .ok x
  | none => .error (.sqlConstraint name)

@[simp] theorem notNull_eq_ok_iff {τ : Type} {name : String} {value : Option τ} {x : τ} :
    notNull name value = .ok x ↔ value = some x := by
  cases value <;> simp [notNull]

/-- `smi.execute()` of an INSERT: a taken key is an `SQLException`. -/
def execute {ρ κ : Type} {key : ρ → κ} [DecidableEq κ] (name : String) (table : KeyedTable ρ κ key)
    (row : ρ) : Except JavaException (KeyedTable ρ κ key) :=
  match table.insert row with
  | some after => .ok after
  | none => .error (.sqlConstraint name)

/-- An executed INSERT found its key free and appended its row. -/
theorem execute_eq_ok_iff {ρ κ : Type} {key : ρ → κ} [DecidableEq κ] {name : String}
    {table after : KeyedTable ρ κ key} {row : ρ} :
    execute name table row = .ok after ↔
      key row ∉ table.rows.map key ∧ after.rows = table.rows ++ [row] := by
  rw [← KeyedTable.insert_eq_some_iff, execute]
  cases table.insert row <;> simp

end Crum
