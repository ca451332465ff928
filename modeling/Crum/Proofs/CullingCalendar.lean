/-
Module: Crum.Proofs.CullingCalendar
Layer: Proofs
Purpose: The calendar arithmetic of `cullDatabase`. `civilDate` gives the date with the day number it is asked
  for, so a day number one less gives the date before; `DAY_OF_YEAR` is never 0, and in a zone whose offset
  stays the same the instant `lastMonth` shows the time of day of the call on the date before.
Imports: Crum.Spec.Gregorian
Trusted boundary: `Zone.ReadsBack` is what `java.util.Calendar` documents of a lenient calendar
Main exports: civilDate_valid, dayNumber_civilDate, civilDate_sub_one, Zone.ReadsBack,
  Zone.Steady, Zone.localDateTime, localDateTime_cutoff
Open obligations: none
-/
import Mathlib
import Crum.Spec.Gregorian

namespace Crum

/-! ### Dates of day numbers -/

/-- The year of a 400-year era as century, block of four years and year, all from 1 March. The last year of a
block is a day longer, but for the last block of the first three centuries. -/
theorem yearOfEra_split {dayOfEra : Int} (h0 : 0 ≤ dayOfEra) (h1 : dayOfEra < 146097) :
    ∃ c q k s : Int,
      (dayOfEra - dayOfEra / 1460 + dayOfEra / 36524 - dayOfEra / 146096) / 365 = 100 * c + 4 * q + k ∧
      dayOfEra = 36524 * c + 1461 * q + 365 * k + s ∧
      (0 ≤ c ∧ c ≤ 3) ∧ (0 ≤ q ∧ q ≤ 24) ∧ (0 ≤ k ∧ k ≤ 3) ∧ 0 ≤ s ∧
      (s < 365 ∨ s = 365 ∧ k = 3 ∧ (q ≠ 24 ∨ c = 3)) := by
  rcases eq_or_lt_of_le (Int.le_sub_one_of_lt h1) with hlast | hbefore
  · refine ⟨3, 24, 3, 365, ?_⟩
    rw [hlast]
    decide
  · obtain ⟨c, hc⟩ : ∃ c, dayOfEra / 36524 = c := ⟨_, rfl⟩
    obtain ⟨q, hq⟩ : ∃ q, dayOfEra % 36524 / 1461 = q := ⟨_, rfl⟩
    obtain ⟨t, ht⟩ : ∃ t, dayOfEra % 36524 % 1461 = t := ⟨_, rfl⟩
    have hday : dayOfEra = 36524 * c + 1461 * q + t := by omega
    have hcentury : 0 ≤ c ∧ c ≤ 3 := by omega
    have hblock : 0 ≤ q ∧ q ≤ 24 := by omega
    have hrest : 0 ≤ t ∧ t ≤ 1460 := by omega
    have hlong : t = 1460 → q ≠ 24 := by omega
    -- In the last 97 days of a block the quotient by 1460 may already be that of the next block.
    obtain ⟨δ, hδ, hcarry⟩ : ∃ δ, dayOfEra / 1460 = 25 * c + q + δ ∧
        (δ = 0 ∧ t < 1460 ∨ δ = 1 ∧ 1364 ≤ t) :=
      ⟨dayOfEra / 1460 - (25 * c + q), by omega, by omega⟩
    have hyear : (dayOfEra - dayOfEra / 1460 + dayOfEra / 36524 - dayOfEra / 146096) / 365 =
        100 * c + 4 * q + (t - δ) / 365 := by
      have hera : dayOfEra / 146096 = 0 := by omega
      rw [hδ, hc, hera, hday]
      omega
    exact ⟨c, q, (t - δ) / 365, t - 365 * ((t - δ) / 365), hyear, by omega, hcentury, hblock, by omega,
      by omega, by omega⟩

section Split

variable {era c q k : Int}

theorem newYearDay_split (hc : 0 ≤ c ∧ c ≤ 3) (hq : 0 ≤ q ∧ q ≤ 24) (hk : 0 ≤ k ∧ k ≤ 3) :
    newYearDay (400 * era + (100 * c + 4 * q + k) + 1) =
      146097 * era + (36524 * c + 1461 * q + 365 * k) - 719162 := by
  have h4 : (400 * era + (100 * c + 4 * q + k)) / 4 = 100 * era + 25 * c + q := by omega
  have h100 : (400 * era + (100 * c + 4 * q + k)) / 100 = 4 * era + c := by omega
  have h400 : (400 * era + (100 * c + 4 * q + k)) / 400 = era := by omega
  rw [newYearDay_eq, add_sub_cancel_right, h4, h100, h400]
  ring

/-- The leap day at the end of a March year falls in the last year of a block. -/
theorem leapDay_split (hq : 0 ≤ q ∧ q ≤ 24) (hk : k = 3 ∧ (q ≠ 24 ∨ c = 3)) :
    leapDay (400 * era + (100 * c + 4 * q + k) + 1) = 1 := by
  rcases hk with ⟨rfl, hcommon⟩
  rw [leapDay, if_pos]
  constructor
  · omega
  · rcases hcommon with hblock | hcentury
    · left
      omega
    · omega

end Split

/-- The years behind the formula begin in March, 306 days before a new year. -/
theorem civilDate_eq_fromMarch (z : Int) :
    ∃ year dayOfYear, z = newYearDay (year + 1) - 306 + dayOfYear ∧ 0 ≤ dayOfYear ∧
      dayOfYear < 365 + leapDay (year + 1) ∧ civilDate z = CivilDate.fromMarch year dayOfYear := by
  obtain ⟨era, hera⟩ : ∃ era, (z + 719468) / 146097 = era := ⟨_, rfl⟩
  obtain ⟨dayOfEra, hday⟩ : ∃ dayOfEra, (z + 719468) % 146097 = dayOfEra := ⟨_, rfl⟩
  have h0 : 0 ≤ dayOfEra := by omega
  have h1 : dayOfEra < 146097 := by omega
  rcases yearOfEra_split h0 h1 with ⟨c, q, k, s, hyear, hsplit, hc, hq, hk, hs0, hs⟩
  have hrest : dayOfEra - (365 * (100 * c + 4 * q + k) + (100 * c + 4 * q + k) / 4 -
      (100 * c + 4 * q + k) / 100) = s := by
    clear hyear hday hera
    omega
  refine ⟨400 * era + (100 * c + 4 * q + k), s, ?_, hs0, ?_, ?_⟩
  · rw [newYearDay_split hc hq hk]
    clear hyear hrest
    omega
  · rcases hs with hs | ⟨hs, hlast⟩
    · have hleap := leapDay_bounds (400 * era + (100 * c + 4 * q + k) + 1)
      linarith only [hs, hleap.1]
    · rw [leapDay_split hq hlast, hs]
      norm_num
  · unfold civilDate CivilDate.fromMarch
    simp only [hera, hday, hyear, hrest, CivilDate.mk.injEq, and_true]
    ring

theorem civilDate_valid (z : Int) : (civilDate z).Valid := by
  rcases civilDate_eq_fromMarch z with ⟨year, dayOfYear, -, h0, h1, hdate⟩
  rw [hdate]
  exact CivilDate.fromMarch_valid h0 h1

/-- `civilDate` gives the date of the day number. -/
theorem dayNumber_civilDate (z : Int) : (civilDate z).dayNumber = z := by
  rcases civilDate_eq_fromMarch z with ⟨year, dayOfYear, hz, h0, h1, hdate⟩
  rw [hdate, CivilDate.dayNumber_fromMarch h0 h1, hz]

/-- A day earlier is the date before. -/
theorem civilDate_sub_one (z : Int) : civilDate (z - 1) = (civilDate z).prev := by
  have hvalid := civilDate_valid z
  apply CivilDate.Valid.eq_of_dayNumber (civilDate_valid _) hvalid.prev
  rw [hvalid.dayNumber_prev, dayNumber_civilDate, dayNumber_civilDate]

/-! ### The fields of the calendar -/

section Fields

variable (zone : Zone) (now : Int)

/-- `DAY_OF_YEAR` counts the days of the months before and the day of the month. -/
theorem dayOfYear_getInstance :
    (Calendar.getInstance zone now).dayOfYear =
      daysBefore (civilDate (zone.wall now / millisPerDay)).year (civilDate (zone.wall now / millisPerDay)).month +
        (civilDate (zone.wall now / millisPerDay)).day := by
  have hnumber := dayNumber_civilDate (zone.wall now / millisPerDay)
  unfold CivilDate.dayNumber at hnumber
  unfold Calendar.getInstance
  linarith only [hnumber]

/-- `DAY_OF_YEAR` runs from 1 to the length of the year. -/
theorem dayOfYear_bounds :
    1 ≤ (Calendar.getInstance zone now).dayOfYear ∧
      (Calendar.getInstance zone now).dayOfYear ≤ (Calendar.getInstance zone now).actualMaximumDayOfYear := by
  have hday := (civilDate_valid (zone.wall now / millisPerDay)).dayOfYear_bounds
  have hlength : (Calendar.getInstance zone now).actualMaximumDayOfYear =
      365 + leapDay (civilDate (zone.wall now / millisPerDay)).year := by
    have hnext := newYearDay_succ (civilDate (zone.wall now / millisPerDay)).year
    unfold Calendar.actualMaximumDayOfYear Calendar.getInstance
    linarith only [hnext]
  rw [dayOfYear_getInstance, hlength]
  omega

/-- The branch for day 0 is never taken: the day of the year is set one lower, and to 0 on 1 January. -/
theorem stepBack_getInstance :
    stepBack (Calendar.getInstance zone now) =
      { Calendar.getInstance zone now with dayOfYear := (Calendar.getInstance zone now).dayOfYear - 1 } := by
  have hday : (Calendar.getInstance zone now).dayOfYear ≠ 0 := by
    have hbounds := (dayOfYear_bounds zone now).1
    omega
  exact if_neg hday

/-- Being lenient, the calendar reads the fields as the wall-clock time a day earlier. -/
theorem cutoff_eq :
    cutoff zone now =
      zone.wall now - millisPerDay - zone.offsetAtWall (zone.wall now - millisPerDay) := by
  have hwall : (newYearDay (Calendar.getInstance zone now).year +
      ((Calendar.getInstance zone now).dayOfYear - 1 - 1)) * millisPerDay +
        (Calendar.getInstance zone now).millisOfDay = zone.wall now - millisPerDay := by
    have hmod : zone.wall now / millisPerDay * millisPerDay + zone.wall now % millisPerDay = zone.wall now :=
      Int.ediv_mul_add_emod _ _
    unfold Calendar.getInstance
    linarith only [hmod]
  rw [cutoff, stepBack_getInstance]
  unfold Calendar.getTime
  rw [hwall]

end Fields

/-! ### The same time on the date before -/

/-- A wall-clock time that some instant shows is turned back into an instant that shows it. -/
def Zone.ReadsBack (zone : Zone) : Prop :=
  ∀ t, zone.wall (zone.wall t - zone.offsetAtWall (zone.wall t)) = zone.wall t

/-- No change of the offset falls between two instants. -/
def Zone.Steady (zone : Zone) (start stop : Int) : Prop :=
  ∀ t, start ≤ t → t ≤ stop → zone.offsetAt t = zone.offsetAt stop

theorem Zone.utc_readsBack : Zone.utc.ReadsBack := by
  intro t
  simp [Zone.wall, Zone.utc]

theorem Zone.utc_steady (start stop : Int) : Zone.utc.Steady start stop := fun _ _ _ => rfl

theorem millisPerDay_pos : 0 < millisPerDay := by decide

/-- The local date and time at an instant. -/
def Zone.localDateTime (zone : Zone) (instant : Int) : LocalDateTime where
  date := civilDate (zone.wall instant / millisPerDay)
  millisOfDay := zone.wall instant % millisPerDay
  date_valid := civilDate_valid _
  millis_nonneg := Int.emod_nonneg _ millisPerDay_pos.ne'
  millis_lt := Int.emod_lt_of_pos _ millisPerDay_pos

/-- The cutoff of a call shows the time of day of the call on the date before. -/
theorem localDateTime_cutoff {zone : Zone} {now : Int} (hzone : zone.ReadsBack)
    (hsteady : zone.Steady (now - millisPerDay) now) :
    zone.localDateTime (cutoff zone now) = (zone.localDateTime now).dayEarlier := by
  have hearlier : zone.wall (now - millisPerDay) = zone.wall now - millisPerDay := by
    have hpos := millisPerDay_pos
    have hoffset := hsteady (now - millisPerDay) (le_refl _) (by omega)
    unfold Zone.wall
    rw [hoffset]
    ring
  have hwall : zone.wall (cutoff zone now) = zone.wall now - millisPerDay := by
    rw [cutoff_eq, ← hearlier]
    exact hzone _
  have hdate : (zone.wall now - millisPerDay) / millisPerDay = zone.wall now / millisPerDay - 1 := by
    rw [Int.sub_ediv_of_dvd _ (dvd_refl _), Int.ediv_self millisPerDay_pos.ne']
  unfold Zone.localDateTime LocalDateTime.dayEarlier
  simp only [hwall, hdate, civilDate_sub_one, LocalDateTime.mk.injEq, true_and]
  exact Int.sub_emod_right _ _

end Crum
