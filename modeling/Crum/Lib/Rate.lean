/-
Module: Crum.Lib.Rate
Layer: Lib
Purpose: Amounts per second in whole units. An amount that was collected over some milliseconds and is
  reported as if that had been one second is right only if the elapsed time lies close to one second: the
  larger the number of units, the closer.
Imports: Mathlib
Trusted boundary: none
Main exports: perSecond, SameUnits, tdiv_eq_perSecond_iff, sameUnits_second
Open obligations: none
-/
import Mathlib

namespace Rate

/-- `amount`, collected over `elapsed` milliseconds, in units per second, truncated. -/
def perSecond (unit amount elapsed : Int) : Int := (1000 * amount).tdiv (unit * elapsed)

/-- The elapsed time is one over which the amount makes as many whole units per second as it has whole
units: with `q` of them, `elapsed` lies between `1000 * |amount| / ((q + 1) * unit)`, exclusively, and
`1000 * |amount| / (q * unit)`. -/
def SameUnits (unit amount elapsed : Int) : Prop :=
  |amount| / unit * unit * elapsed ≤ 1000 * |amount| ∧
    1000 * |amount| < (|amount| / unit + 1) * unit * elapsed

theorem sameUnits_neg {unit amount elapsed : Int} :
    SameUnits unit (-amount) elapsed ↔ SameUnits unit amount elapsed := by
  rw [SameUnits, SameUnits, abs_neg]

theorem perSecond_neg (unit amount elapsed : Int) :
    perSecond unit (-amount) elapsed = -perSecond unit amount elapsed := by
  rw [perSecond, perSecond, mul_neg, Int.neg_tdiv]

/-- Reporting the whole units of an amount that is not negative is right exactly for such a time. -/
theorem tdiv_eq_perSecond_of_nonneg {unit amount elapsed : Int} (hunit : 0 < unit)
    (helapsed : 0 < elapsed) (hamount : 0 ≤ amount) :
    amount.tdiv unit = perSecond unit amount elapsed ↔ SameUnits unit amount elapsed := by
  have hscaled : 0 ≤ 1000 * amount := by positivity
  rw [perSecond, Int.tdiv_eq_ediv_of_nonneg hamount, Int.tdiv_eq_ediv_of_nonneg hscaled, eq_comm,
    Int.ediv_eq_iff_of_pos (by positivity), SameUnits, abs_of_nonneg hamount]
  constructor
  · rintro ⟨hle, hlt⟩
    exact ⟨by linarith, by linarith⟩
  · rintro ⟨hle, hlt⟩
    exact ⟨by linarith, by linarith⟩

/-- Reporting the whole units of an amount as units per second is right exactly for such a time. -/
theorem tdiv_eq_perSecond_iff {unit elapsed : Int} (amount : Int) (hunit : 0 < unit)
    (helapsed : 0 < elapsed) :
    amount.tdiv unit = perSecond unit amount elapsed ↔ SameUnits unit amount elapsed := by
  rcases le_total 0 amount with hamount | hamount
  · exact tdiv_eq_perSecond_of_nonneg hunit helapsed hamount
  · have hneg := tdiv_eq_perSecond_of_nonneg hunit helapsed (neg_nonneg.mpr hamount)
    rwa [Int.neg_tdiv, perSecond_neg, neg_inj, sameUnits_neg] at hneg

/-- One second is such a time for every amount. -/
theorem sameUnits_second {unit : Int} (amount : Int) (hunit : 0 < unit) : SameUnits unit amount 1000 := by
  have hle := Int.ediv_mul_le |amount| hunit.ne'
  have hlt := Int.lt_ediv_add_one_mul_self |amount| hunit
  exact ⟨by linarith, by linarith⟩

end Rate
