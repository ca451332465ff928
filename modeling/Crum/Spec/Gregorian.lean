/-
Module: Crum.Spec.Gregorian
Layer: Spec
Purpose: The Gregorian calendar as it is stated in words: which years are leap years, how long the months are,
  which date precedes a date, and the days counted from 1 January 1970. A `LocalDateTime` is a date that
  exists with a time of day; two of them compare by the whole seconds counted so far.
Imports: Crum.Core.Culling
Trusted boundary: the abstract behaviour, not translated from the source
Main exports: CivilDate.Valid, CivilDate.prev, CivilDate.dayNumber, CivilDate.Valid.dayNumber_lt_iff,
  CivilDate.Valid.dayNumber_prev, CivilDate.fromMarch, LocalDateTime, LocalDateTime.NotLater,
  LocalDateTime.dayEarlier
Open obligations: none
-/
import Mathlib
import Crum.Core.Culling

namespace Crum

/-! ### Years, months and days -/

def IsLeap (year : Int) : Prop := year % 4 = 0 ∧ (year % 100 ≠ 0 ∨ year % 400 = 0)

instance (year : Int) : Decidable (IsLeap year) := inferInstanceAs (Decidable (_ ∧ _))

def leapDay (year : Int) : Int := if IsLeap year then 1 else 0

def daysInMonth (year month : Int) : Int :=
  if month = 2 then 28 + leapDay year
  else if month = 4 ∨ month = 6 ∨ month = 9 ∨ month = 11 then 30
  else 31

/-- The days of a year before the first of a month. -/
def daysBefore (year month : Int) : Int :=
  ∑ k ∈ Finset.range (month - 1).toNat, daysInMonth year (k + 1)

theorem leapDay_bounds (year : Int) : 0 ≤ leapDay year ∧ leapDay year ≤ 1 := by
  unfold leapDay
  split <;> decide

theorem daysInMonth_bounds (year month : Int) : 28 ≤ daysInMonth year month ∧ daysInMonth year month ≤ 31 := by
  have hleap := leapDay_bounds year
  unfold daysInMonth
  split_ifs <;> omega

theorem newYearDay_eq (year : Int) :
    newYearDay year = 365 * (year - 1) + (year - 1) / 4 - (year - 1) / 100 + (year - 1) / 400 - 719162 := rfl

/-- A year is as long as its leap day makes it. -/
theorem newYearDay_succ (year : Int) : newYearDay (year + 1) = newYearDay year + 365 + leapDay year := by
  rw [newYearDay_eq, newYearDay_eq]
  by_cases hleap : IsLeap year
  · rw [leapDay, if_pos hleap]
    unfold IsLeap at hleap
    omega
  · rw [leapDay, if_neg hleap]
    unfold IsLeap at hleap
    omega

theorem newYearDay_mono {y z : Int} (hyz : y ≤ z) : newYearDay y ≤ newYearDay z := by
  rw [newYearDay_eq, newYearDay_eq]
  omega

@[simp] theorem daysBefore_january (year : Int) : daysBefore year 1 = 0 := rfl

theorem daysBefore_succ (year : Int) {month : Int} (h : 1 ≤ month) :
    daysBefore year (month + 1) = daysBefore year month + daysInMonth year month := by
  have hcount : (month + 1 - 1).toNat = (month - 1).toNat + 1 := by omega
  have hlast : (((month - 1).toNat : Int)) + 1 = month := by omega
  unfold daysBefore
  rw [hcount, Finset.sum_range_succ, hlast]

theorem daysBefore_mono (year : Int) {m n : Int} (hmn : m ≤ n) : daysBefore year m ≤ daysBefore year n := by
  apply Finset.sum_le_sum_of_subset_of_nonneg
  · apply Finset.range_mono
    omega
  · intro k _ _
    have hlength := daysInMonth_bounds year (k + 1)
    omega

/-- The months after February begin as in a year that starts in March. -/
theorem daysBefore_eq (year : Int) {month : Int} (h1 : 1 ≤ month) (h13 : month ≤ 13) :
    daysBefore year month =
      if month ≤ 2 then 31 * (month - 1) else 59 + leapDay year + (153 * (month - 3) + 2) / 5 := by
  induction month, h1 using Int.leInduction with
  | base => rfl
  | succ month h1 ih =>
      rw [daysBefore_succ year h1, ih (by omega)]
      have h12 : month ≤ 12 := by omega
      unfold daysInMonth
      clear ih h13
      interval_cases month <;> norm_num <;> ring

namespace CivilDate

/-- A date that the calendar has. -/
structure Valid (date : CivilDate) : Prop where
  month_pos : 1 ≤ date.month
  month_le : date.month ≤ 12
  day_pos : 1 ≤ date.day
  day_le : date.day ≤ daysInMonth date.year date.month

/-- The date before a date. -/
def prev (date : CivilDate) : CivilDate :=
  if 1 < date.day then { date with day := date.day - 1 }
  else if 1 < date.month then
    { date with month := date.month - 1, day := daysInMonth date.year (date.month - 1) }
  else { year := date.year - 1, month := 12, day := 31 }

/-- The days from 1 January 1970. -/
def dayNumber (date : CivilDate) : Int :=
  newYearDay date.year + daysBefore date.year date.month + (date.day - 1)

/-! ### Dates and day numbers -/

/-- Year, month and day, the first difference deciding. -/
def key (date : CivilDate) : (Int ×ₗ Int) ×ₗ Int := toLex (toLex (date.year, date.month), date.day)

theorem key_injective : Function.Injective key := by
  intro a b hkey
  cases a
  cases b
  simpa [key, and_assoc] using hkey

namespace Valid

variable {a b date : CivilDate}

theorem dayOfYear_bounds (h : date.Valid) :
    0 ≤ daysBefore date.year date.month + (date.day - 1) ∧
      daysBefore date.year date.month + (date.day - 1) < 365 + leapDay date.year := by
  have hday := h.day_pos
  have hlast := h.day_le
  have hfirst : daysBefore date.year 1 ≤ daysBefore date.year date.month := daysBefore_mono _ h.month_pos
  have hnext : daysBefore date.year (date.month + 1) ≤ daysBefore date.year 13 :=
    daysBefore_mono _ (by have := h.month_le; omega)
  have hyear : daysBefore date.year 13 = 365 + leapDay date.year := by
    rw [daysBefore_eq _ (by decide) (by decide), if_neg (by decide)]
    omega
  rw [daysBefore_january] at hfirst
  rw [daysBefore_succ _ h.month_pos] at hnext
  omega

/-- The lexicographic order of dates is the order of their day numbers. -/
theorem dayNumber_lt_of_key_lt (ha : a.Valid) (hb : b.Valid) (hkey : a.key < b.key) :
    a.dayNumber < b.dayNumber := by
  have haday := ha.dayOfYear_bounds
  have hbday := hb.dayOfYear_bounds
  unfold dayNumber
  simp only [key, Prod.Lex.toLex_lt_toLex, toLex_inj, Prod.mk.injEq] at hkey
  rcases hkey with (hyear | ⟨hyear, hmonth⟩) | ⟨⟨hyear, hmonth⟩, hday⟩
  · have hsucc := newYearDay_succ a.year
    have hmono : newYearDay (a.year + 1) ≤ newYearDay b.year := newYearDay_mono hyear
    omega
  · have hsucc : daysBefore b.year (a.month + 1) ≤ daysBefore b.year b.month := daysBefore_mono _ hmonth
    rw [daysBefore_succ _ ha.month_pos] at hsucc
    have halast := ha.day_le
    have hbfirst := hb.day_pos
    rw [hyear] at halast ⊢
    omega
  · rw [hyear, hmonth]
    omega

theorem dayNumber_lt_iff (ha : a.Valid) (hb : b.Valid) : a.dayNumber < b.dayNumber ↔ a.key < b.key := by
  constructor
  · intro hlt
    rcases lt_trichotomy a.key b.key with hkey | hkey | hkey
    · exact hkey
    · rw [key_injective hkey] at hlt
      exact absurd hlt (lt_irrefl _)
    · exact absurd hlt (dayNumber_lt_of_key_lt hb ha hkey).asymm
  · exact dayNumber_lt_of_key_lt ha hb

/-- No two dates have one day number. -/
theorem eq_of_dayNumber (ha : a.Valid) (hb : b.Valid) (heq : a.dayNumber = b.dayNumber) : a = b := by
  apply key_injective
  apply le_antisymm
  · exact not_lt.mp fun hlt => (dayNumber_lt_of_key_lt hb ha hlt).ne' heq
  · exact not_lt.mp fun hlt => (dayNumber_lt_of_key_lt ha hb hlt).ne heq

theorem prev (h : date.Valid) : date.prev.Valid := by
  have hmonth := h.month_le
  have hday := h.day_le
  unfold CivilDate.prev
  split_ifs with hfirst hjanuary
  · exact ⟨h.month_pos, hmonth, by dsimp only; omega, by dsimp only; omega⟩
  · have hlength := daysInMonth_bounds date.year (date.month - 1)
    exact ⟨by dsimp only; omega, by dsimp only; omega, by dsimp only; omega, le_refl _⟩
  · constructor <;> simp [daysInMonth]

/-- The date before a date is one day earlier. -/
theorem dayNumber_prev (h : date.Valid) : date.prev.dayNumber = date.dayNumber - 1 := by
  have hfirst := h.day_pos
  have hjanuary := h.month_pos
  unfold CivilDate.prev
  split_ifs with hday hmonth
  · simp only [dayNumber]
    omega
  · have hlast : daysBefore date.year (date.month - 1 + 1) =
        daysBefore date.year (date.month - 1) + daysInMonth date.year (date.month - 1) :=
      daysBefore_succ _ (by omega)
    rw [sub_add_cancel] at hlast
    simp only [dayNumber]
    omega
  · have hday : date.day = 1 := by omega
    have hmonth : date.month = 1 := by omega
    have hyear := newYearDay_succ (date.year - 1)
    rw [sub_add_cancel] at hyear
    simp only [dayNumber]
    rw [hday, hmonth, daysBefore_january, daysBefore_eq _ (by decide) (by decide), if_neg (by decide)]
    omega

end Valid

/-! ### Years that begin in March -/

/-- The date that is `dayOfYear` days after 1 March of a year. -/
def fromMarch (year dayOfYear : Int) : CivilDate :=
  let monthIndex := (5 * dayOfYear + 2) / 153
  let month := if monthIndex < 10 then monthIndex + 3 else monthIndex - 9
  { year := year + (if month ≤ 2 then 1 else 0)
    month := month
    day := dayOfYear - (153 * monthIndex + 2) / 5 + 1 }

section FromMarch

variable {year dayOfYear : Int}

/-- The ten months up to December, then January and February of the next year. -/
theorem fromMarch_cases (h0 : 0 ≤ dayOfYear) (h1 : dayOfYear < 365 + leapDay (year + 1)) :
    ∃ i, 0 ≤ i ∧ i ≤ 11 ∧ (153 * i + 2) / 5 ≤ dayOfYear ∧ dayOfYear < (153 * (i + 1) + 2) / 5 ∧
      fromMarch year dayOfYear =
        { year := if i < 10 then year else year + 1
          month := if i < 10 then i + 3 else i - 9
          day := dayOfYear - (153 * i + 2) / 5 + 1 } := by
  have hleap := leapDay_bounds (year + 1)
  refine ⟨(5 * dayOfYear + 2) / 153, by omega, by omega, by omega, by omega, ?_⟩
  unfold fromMarch
  by_cases hi : (5 * dayOfYear + 2) / 153 < 10
  · have hmonth : ¬(5 * dayOfYear + 2) / 153 + 3 ≤ 2 := by omega
    simp [hi, hmonth]
  · have hmonth : (5 * dayOfYear + 2) / 153 - 9 ≤ 2 := by omega
    simp [hi, hmonth]

/-- From March on the month lengths repeat every five months. -/
theorem daysInMonth_fromMarch (year : Int) {i : Int} (h0 : 0 ≤ i) (h9 : i ≤ 9) :
    daysInMonth year (i + 3) = (153 * (i + 1) + 2) / 5 - (153 * i + 2) / 5 := by
  have hnext : daysBefore year (i + 3 + 1) = daysBefore year (i + 3) + daysInMonth year (i + 3) :=
    daysBefore_succ year (by omega)
  have hshift : i + 3 + 1 - 3 = i + 1 := by ring
  rw [daysBefore_eq year (by omega) (by omega), daysBefore_eq year (by omega) (by omega), if_neg (by omega),
    if_neg (by omega), add_sub_cancel_right, hshift] at hnext
  omega

theorem fromMarch_valid (h0 : 0 ≤ dayOfYear) (h1 : dayOfYear < 365 + leapDay (year + 1)) :
    (fromMarch year dayOfYear).Valid := by
  rcases fromMarch_cases h0 h1 with ⟨i, hi0, hi11, hlow, hhigh, hdate⟩
  rw [hdate]
  by_cases hi : i < 10
  · simp only [if_pos hi]
    have hlength := daysInMonth_fromMarch year hi0 (Int.le_sub_one_of_lt hi)
    refine ⟨?_, ?_, ?_, ?_⟩ <;> dsimp only <;> omega
  · simp only [if_neg hi]
    have hlength : daysInMonth (year + 1) (i - 9) = if i = 10 then 31 else 28 + leapDay (year + 1) := by
      have hmonth : i = 10 ∨ i = 11 := by omega
      rcases hmonth with rfl | rfl <;> simp [daysInMonth]
    refine ⟨?_, ?_, ?_, ?_⟩ <;> dsimp only <;> omega

theorem dayNumber_fromMarch (h0 : 0 ≤ dayOfYear) (h1 : dayOfYear < 365 + leapDay (year + 1)) :
    (fromMarch year dayOfYear).dayNumber = newYearDay (year + 1) - 306 + dayOfYear := by
  rcases fromMarch_cases h0 h1 with ⟨i, hi0, hi11, hlow, hhigh, hdate⟩
  rw [hdate, dayNumber]
  by_cases hi : i < 10
  · have hyear := newYearDay_succ year
    simp only [if_pos hi]
    rw [daysBefore_eq year (by omega) (by omega), if_neg (by omega), add_sub_cancel_right]
    omega
  · simp only [if_neg hi]
    rw [daysBefore_eq (year + 1) (by omega) (by omega), if_pos (by omega)]
    omega

end FromMarch

end CivilDate

/-! ### Local time -/

/-- A date and a time of day. -/
structure LocalDateTime where
  date : CivilDate
  millisOfDay : Int
  date_valid : date.Valid
  millis_nonneg : 0 ≤ millisOfDay
  millis_lt : millisOfDay < millisPerDay

namespace LocalDateTime

/-- The whole seconds from the start of 1970. -/
def seconds (t : LocalDateTime) : Int := t.date.dayNumber * 86400 + t.millisOfDay / 1000

/-- Of two local times truncated to the second the first is not after the second. -/
def NotLater (t u : LocalDateTime) : Prop := t.seconds ≤ u.seconds

/-- The same time of day on the calendar date before. -/
def dayEarlier (t : LocalDateTime) : LocalDateTime where
  date := t.date.prev
  millisOfDay := t.millisOfDay
  date_valid := t.date_valid.prev
  millis_nonneg := t.millis_nonneg
  millis_lt := t.millis_lt

end LocalDateTime

end Crum
