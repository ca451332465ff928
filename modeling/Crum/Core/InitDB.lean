/-
Module: Crum.Core.InitDB
Layer: Core
Purpose: `initDB` on the database file `crum.db` that an earlier run, or another program, left. It executes
  eleven statements, each committed by itself; an exception ends the process. Names are written as SQLite
  compares them, in one case.
Imports: Crum.Lib.SqlSchema, Crum.Core.Schema
Trusted boundary: human-reviewed spec of `initDB` in CRUM.java; sqlite3DropTable, sqlite3ClearStatTables,
  sqlite3CodeDropTable and sqlite3StartTable of sqlite3.c
Main exports: TableContent, CrumFile, droppedTables, createdTables, initScript, startUp, openDatabase, store
Open obligations: none
-/
import Crum.Lib.SqlSchema
import Crum.Core.Schema

namespace Crum

open SqlSchema Run

/-- What a table of the file holds: rows of one of the program's tables, or rows of others. -/
inductive TableContent (α β : Type) where
  | machine (table : MachineTable)
  | disc (table : DiscTable α)
  | cpu (table : CpuTable α)
  | network (table : NetworkTable α)
  | ram (table : RamTable α)
  | foreign (rows : β)

/-- The file `crum.db` with everything it holds; `σ` is what a statistic says. -/
abbrev CrumFile (α β σ : Type) := SchemaFile String (TableContent α β) σ

/-- The DROP statements of `initDB`, in order. -/
def droppedTables : List String := ["MACHINE", "DISC", "USER", "CPU", "NETWORK", "RAM"]

variable {α β σ : Type}

/-- The CREATE statements of `initDB`, in order. -/
def createdTables : List (String × TableContent α β) :=
  [("MACHINE", .machine .empty), ("DISC", .disc .empty), ("CPU", .cpu .empty), ("NETWORK", .network .empty),
    ("RAM", .ram .empty)]

def initScript : List (SchemaStatement String (TableContent α β)) := rebuild droppedTables createdTables

/-- `initDB`; an error is what the catch clause prints before `System.exit(0)`. -/
def startUp (file : CrumFile α β σ) : Except (SchemaError String) (CrumFile α β σ) :=
  run SqlSchema.exec file initScript

/-- The content that an INSERT or DELETE of the program has brought a table to. -/
def storedContent (db : Database α) (name : String) (content : TableContent α β) : TableContent α β :=
  if name = "MACHINE" then .machine db.machine
  else if name = "DISC" then .disc db.disc
  else if name = "CPU" then .cpu db.cpu
  else if name = "NETWORK" then .network db.network
  else if name = "RAM" then .ram db.ram
  else content

/-- The file once its tables hold `db`. -/
def store (file : CrumFile α β σ) (db : Database α) : CrumFile α β σ := mapContents file (storedContent db)

end Crum
