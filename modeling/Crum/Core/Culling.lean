/-
Module: Crum.Core.Culling
Layer: Core
Purpose: `cullDatabase` and the clocks it goes through. A `Zone` gives the offset from UTC at an instant
  and the offset that a lenient `Calendar` picks for a wall-clock time. The calendar is Gregorian
  throughout; a Windows clock does not go back before 1601. `sqliteDatetime` is `DATETIME(x)` of SQLite on
  an integer, with the arithmetic of `computeYMD`; how a DELETE judges a row is a parameter of
  `cullDatabase`, so that other readings of `TIMESTAMP` can be studied too.
Imports: Crum.Core.Schema
Trusted boundary: human-reviewed spec of CRUM.cullDatabase, java.util.Calendar, java.sql.Timestamp and
  datetimeFunc
Main exports: Zone, Calendar, timestampText, timeSearch, cutoff, sqliteDatetime, Condition, cullDatabase
Open obligations: none
-/
import Crum.Core.Schema

namespace Crum

variable {α : Type}

def millisPerDay : Int := 86400000

/-! ### Calendar dates -/

/-- A date of the Gregorian calendar. -/
structure CivilDate where
  year : Int
  month : Int
  day : Int
deriving Repr, DecidableEq

/-- The date of a day numbered from 1 January 1970. -/
def civilDate (epochDay : Int) : CivilDate :=
  let z := epochDay + 719468
  let era := z / 146097
  let dayOfEra := z % 146097
  let yearOfEra := (dayOfEra - dayOfEra / 1460 + dayOfEra / 36524 - dayOfEra / 146096) / 365
  let dayOfYear := dayOfEra - (365 * yearOfEra + yearOfEra / 4 - yearOfEra / 100)
  let monthIndex := (5 * dayOfYear + 2) / 153
  let month := if monthIndex < 10 then monthIndex + 3 else monthIndex - 9
  { year := yearOfEra + era * 400 + (if month ≤ 2 then 1 else 0)
    month := month
    day := dayOfYear - (153 * monthIndex + 2) / 5 + 1 }

/-- The day number of 1 January of a year. -/
def newYearDay (year : Int) : Int :=
  let y := year - 1
  365 * y + y / 4 - y / 100 + y / 400 - 719162

/-- `java.util.TimeZone`: the offset from UTC in milliseconds at an instant, and the one used to turn
wall-clock milliseconds back into an instant. -/
structure Zone where
  offsetAt : Int → Int
  offsetAtWall : Int → Int

def Zone.utc : Zone where
  offsetAt _ := 0
  offsetAtWall _ := 0

def Zone.wall (zone : Zone) (instant : Int) : Int := instant + zone.offsetAt instant

/-- The fields of a `Calendar` that `cullDatabase` reads or sets, and the time of day. -/
structure Calendar where
  year : Int
  dayOfYear : Int
  millisOfDay : Int
deriving Repr, DecidableEq

/-- `Calendar.getInstance()` at an instant. -/
def Calendar.getInstance (zone : Zone) (now : Int) : Calendar :=
  let epochDay := zone.wall now / millisPerDay
  let year := (civilDate epochDay).year
  { year := year
    dayOfYear := epochDay - newYearDay year + 1
    millisOfDay := zone.wall now % millisPerDay }

/-- `getActualMaximum(Calendar.DAY_OF_YEAR)` -/
def Calendar.actualMaximumDayOfYear (c : Calendar) : Int := newYearDay (c.year + 1) - newYearDay c.year

/-- `getTime().getTime()` of a lenient calendar: day `d` of a year is `d - 1` days after its first. -/
def Calendar.getTime (zone : Zone) (c : Calendar) : Int :=
  let wall := (newYearDay c.year + (c.dayOfYear - 1)) * millisPerDay + c.millisOfDay
  wall - zone.offsetAtWall wall

/-! ### Time texts -/

/-- The last `width` decimal digits of `n`. -/
def lastDigits : Nat → Nat → List Char
  | 0, _ => []
  | width + 1, n => lastDigits width (n / 10) ++ [Nat.digitChar (n % 10)]

/-- `%0<width>d` -/
def padded (width : Nat) (n : Int) : List Char :=
  let digits (width n : Nat) := if n < 10 ^ width then lastDigits width n else Nat.toDigits 10 n
  if n < 0 then '-' :: digits (width - 1) n.natAbs else digits width n.natAbs

/-- `YYYY-MM-DD HH:MM:SS` of a date and a second of the day. -/
def dateTimeText (date : CivilDate) (second : Int) : List Char :=
  padded 4 date.year ++ '-' :: padded 2 date.month ++ '-' :: padded 2 date.day ++
    ' ' :: padded 2 (second / 3600) ++ ':' :: padded 2 (second / 60 % 60) ++
    ':' :: padded 2 (second % 60)

/-- The fraction of `Timestamp.toString`: milliseconds without trailing zeros, at least one digit. -/
def fractionText (millis : Int) : List Char :=
  if millis = 0 then ['0']
  else ((padded 3 millis).reverse.dropWhile (· = '0')).reverse

/-- `Timestamp.toString` of an instant, in local time. -/
def timestampText (zone : Zone) (instant : Int) : List Char :=
  let wall := zone.wall instant
  dateTimeText (civilDate (wall / millisPerDay)) (wall % millisPerDay / 1000) ++
    '.' :: fractionText (wall % 1000)

/-! ### `cullDatabase` -/

/-- The calendar arithmetic of `cullDatabase`. -/
def stepBack (c : Calendar) : Calendar :=
  let tempDay := c.dayOfYear
  if tempDay = 0 then
    let previous := { c with year := c.year - 1 }
    { previous with dayOfYear := previous.actualMaximumDayOfYear }
  else
    { c with dayOfYear := tempDay - 1 }

/-- The instant `lastMonth` of a call at `now`. -/
def cutoff (zone : Zone) (now : Int) : Int := (stepBack (Calendar.getInstance zone now)).getTime zone

/-- `timeSearch`: the text of the cutoff up to the first dot. -/
def timeSearch (zone : Zone) (now : Int) : String :=
  String.ofList ((timestampText zone (cutoff zone now)).takeWhile (· ≠ '.'))

/-- The value of `DATETIME(TIMESTAMP)<='...'` for a stored integer and the quoted text; `none` is
NULL. -/
abbrev Condition := Int → String → Option Bool

/-- The condition when `DATETIME` is the given function and texts are compared bytewise. -/
def datetimeCondition (datetime : Int → Option String) : Condition :=
  fun stamp text => (datetime stamp).map fun rendered => decide (rendered ≤ text)

/-- The five DELETE statements, all with one cutoff. -/
def cullDatabase (condition : Condition) (zone : Zone) (now : Int) (db : Database α) : Database α :=
  let text := timeSearch zone now
  { machine := db.machine.deleteWhere fun row => condition row.timestamp text
    disc := db.disc.deleteWhere fun row => condition row.timestamp text
    cpu := db.cpu.deleteWhere fun row => condition row.timestamp text
    ram := db.ram.deleteWhere fun row => condition row.timestamp text
    network := db.network.deleteWhere fun row => condition row.timestamp text }

/-! ### `DATETIME` of an integer -/

/-- `computeYMD` for the Julian day that begins at noon of day `z`. -/
def julianDate (z : Int) : CivilDate :=
  let a := (4 * z - 7468865).tdiv 146097
  let a := z + 1 + a - a.tdiv 4
  let b := a + 1524
  let c := (20 * b - 2442).tdiv 7305
  let d := (36525 * (c % 32768)).tdiv 100
  let e := (10000 * (b - d)).tdiv 306001
  let x1 := (306001 * e).tdiv 10000
  let month := if e < 14 then e - 1 else e - 13
  { year := if 2 < month then c - 4716 else c - 4715
    month := month
    day := b - d - x1 }

/-- `DATETIME(x)` reads an integer as a Julian day number, which falls at noon UTC, and is NULL outside
`[0, 5373484.5)`. -/
def sqliteDatetime (x : Int) : Option String :=
  if 0 ≤ x ∧ x ≤ 5373484 then some (String.ofList (dateTimeText (julianDate x) 43200)) else none

end Crum
