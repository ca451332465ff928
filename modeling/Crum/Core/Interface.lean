/-
Module: Crum.Core.Interface
Layer: Core
Purpose: The labels of `CrumUI.java` and `DiskPanel.java` and the queries that refresh them. A label is
  kept as the caption, the value read from the row and the unit. A SELECT without ORDER BY and WHERE
  returns rows in insertion order; the rows of one `DISC_ID` come through the primary-key index.
Imports: Crum.Lib.JavaLong, Crum.Lib.LastRow, Crum.Core.Schema
Trusted boundary: human-reviewed spec of CrumUI.java and DiskPanel.java; the two scan orders
Main exports: JLabel, DiskPanel, CrumUI, readAll, discScan, CrumUI.refresh
Open obligations: none
-/
import Crum.Lib.JavaLong
import Crum.Lib.LastRow
import Crum.Core.Schema

namespace Crum

variable {α : Type}

/-- The value in a label: a text, a `long`, an `int`, or a `double` quotient. -/
inductive Shown (α : Type) where
  | nothing
  | text (s : String)
  | long (n : α)
  | int (n : Int)
  | quotient (n : α) (divisor : Int)
deriving Repr, DecidableEq

/-- A `JLabel`. -/
structure JLabel (α : Type) where
  caption : String
  value : Shown α
  unit : String
deriving Repr, DecidableEq

/-- The labels of a `DiskPanel`. -/
structure DiskPanel (α : Type) where
  diskName : JLabel α
  model : JLabel α
  diskSize : JLabel α
  amountUsed : JLabel α
  speed : JLabel α
deriving Repr, DecidableEq

/-- The constructor of `DiskPanel`. -/
def newDiskPanel : DiskPanel α where
  diskName := ⟨"Disk:0", .nothing, ""⟩
  model := ⟨"Disk Model: ", .nothing, ""⟩
  diskSize := ⟨"Size available: ", .nothing, ""⟩
  amountUsed := ⟨"Amount used: ", .nothing, ""⟩
  speed := ⟨"Disk speed: ", .nothing, ""⟩

structure MainLabels (α : Type) where
  modelLabel : JLabel α
  machineIDLabel : JLabel α
  vendorLabel : JLabel α
deriving Repr, DecidableEq

structure CpuLabels (α : Type) where
  cpuModelLabel : JLabel α
  clockSpeedLabel : JLabel α
  physicalCoresLabel : JLabel α
  logicalCoresLabel : JLabel α
  usageLabel : JLabel α
  processesLabel : JLabel α
deriving Repr, DecidableEq

structure RamLabels (α : Type) where
  ramUsedLabel : JLabel α
  ramSizeLabel : JLabel α
deriving Repr, DecidableEq

structure NetworkLabels (α : Type) where
  macAddrLabel : JLabel α
  inboundLabel : JLabel α
  outBoundLabel : JLabel α
deriving Repr, DecidableEq

/-- The labels of the window, one panel for each detected disk. -/
structure CrumUI (α : Type) where
  main : MainLabels α
  diskList : List (DiskPanel α)
  cpu : CpuLabels α
  ram : RamLabels α
  network : NetworkLabels α
deriving Repr, DecidableEq

/-- The constructor of `CrumUI`; the texts are those of `CrumUI.form`. -/
def newCrumUI (numDisks : Nat) : CrumUI α where
  main :=
    { modelLabel := ⟨"Machine Model:", .nothing, ""⟩
      machineIDLabel := ⟨"Machine ID:", .nothing, ""⟩
      vendorLabel := ⟨"Vendor:", .nothing, ""⟩ }
  diskList := List.replicate numDisks newDiskPanel
  cpu :=
    { cpuModelLabel := ⟨"CPU Model", .nothing, ""⟩
      clockSpeedLabel := ⟨"Clock Speed:", .nothing, ""⟩
      physicalCoresLabel := ⟨"Physical Cores:", .nothing, ""⟩
      logicalCoresLabel := ⟨"Logical Cores:", .nothing, ""⟩
      usageLabel := ⟨"Usage:", .nothing, ""⟩
      processesLabel := ⟨"Processes:", .nothing, ""⟩ }
  ram :=
    { ramUsedLabel := ⟨"Amount in Use:", .nothing, ""⟩
      ramSizeLabel := ⟨"Total RAM:", .nothing, ""⟩ }
  network :=
    { macAddrLabel := ⟨"MAC Address:", .nothing, ""⟩
      inboundLabel := ⟨"Inbound:", .nothing, ""⟩
      outBoundLabel := ⟨"Outbound:", .nothing, ""⟩ }

/-- `while(rs.next())`: every row overwrites the labels. -/
abbrev readAll {ρ lab : Type} (show_ : ρ → lab) (labels : lab) (rows : List ρ) : lab :=
  LastRow.overwrite show_ labels rows

def showMachine (row : MachineRow) : MainLabels α where
  modelLabel := ⟨"Machine Model: ", .text row.machineModel, ""⟩
  machineIDLabel := ⟨"Machine ID: ", .text row.machineId, ""⟩
  vendorLabel := ⟨"Machine Vendor: ", .text row.machineVendor, ""⟩

def showDisc (row : DiscRow α) : DiskPanel α where
  diskName := ⟨"Disk Name: ", .text row.discName, ""⟩
  model := ⟨"Disk Model: ", .text row.discModel, ""⟩
  diskSize := ⟨"Disk Size: ", .long row.discSize, " GB"⟩
  amountUsed := ⟨"Disk Used: ", .long row.discUsed, " GB"⟩
  speed := ⟨"Disk Speed: ", .long row.discSpeed, "KB/s"⟩

/-- `getInt` of a double drops its fraction. -/
def truncateRat (q : Rat) : Int := q.num.tdiv q.den

def showCpu (row : CpuRow α) : CpuLabels α where
  cpuModelLabel := ⟨"", .text row.cpuModel, ""⟩
  clockSpeedLabel := ⟨"Clock Speed: ", .quotient row.clockSpeed 1000000000, "GHz"⟩
  physicalCoresLabel := ⟨"Physical Cores: ", .int row.corePhysical, ""⟩
  logicalCoresLabel := ⟨"Logical Cores: ", .int row.coreLogical, ""⟩
  usageLabel := ⟨"Usage: ", .int (truncateRat row.coreUsage), "%"⟩
  processesLabel := ⟨"Processes: ", .long row.numProcess, ""⟩

def showRam (row : RamRow α) : RamLabels α where
  ramUsedLabel := ⟨"In Use: ", .long row.usedSpace, "MB"⟩
  ramSizeLabel := ⟨"Total RAM: ", .long row.totalPhysical, "MB"⟩

def showNetwork [JavaLong α] (row : NetworkRow α) : NetworkLabels α where
  macAddrLabel := ⟨"MAC Address: ", .text row.macAddress, ""⟩
  inboundLabel := ⟨"Inbound: ", .int (JavaLong.intValue row.inboundTraffic), "Mbps"⟩
  outBoundLabel := ⟨"Outbound: ", .int (JavaLong.intValue row.outboundTraffic), "Mbps"⟩

/-- The order of the primary-key index among rows of one `DISC_ID`. -/
def indexOrder (a b : DiscRow α) : Prop :=
  a.machineId < b.machineId ∨ (a.machineId = b.machineId ∧ a.timestamp ≤ b.timestamp)

instance : DecidableRel (@indexOrder α) := fun a b => by
  unfold indexOrder
  infer_instance

/-- `SELECT * FROM DISC WHERE DISC_ID = i` -/
def discScan (table : DiscTable α) (i : Nat) : List (DiscRow α) :=
  (table.rows.filter (·.discId = i)).insertionSort indexOrder

/-- `refresh`: the main tab, the disk panels, then the CPU, RAM and Network tabs. -/
def CrumUI.refresh [JavaLong α] (db : Database α) (ui : CrumUI α) : CrumUI α where
  main := readAll showMachine ui.main db.machine.rows
  diskList := ui.diskList.mapIdx fun i panel => readAll showDisc panel (discScan db.disc i)
  cpu := readAll showCpu ui.cpu db.cpu.rows
  ram := readAll showRam ui.ram db.ram.rows
  network := readAll showNetwork ui.network db.network.rows

end Crum
