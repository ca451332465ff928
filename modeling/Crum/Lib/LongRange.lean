/-
Module: Crum.Lib.LongRange
Layer: Lib
Purpose: When an operation on `long` values is exact. Sums, differences and products are, exactly when the
  integer they stand for is in the range of the type; truncating division is unless the divisor is -1.
Imports: Crum.Lib.JavaLong
Trusted boundary: none
Main exports: FitsLong, fitsLong_of_abs_le, toInt_add_iff, toInt_sub_iff, toInt_mul_iff, toInt_quot,
  toInt_foldl_add, quot_mono, quot_sub_le
Open obligations: none
-/
import Crum.Lib.JavaLong

namespace JavaLong

/-- The integer is in the range of a signed 64-bit `long`. -/
def FitsLong (n : Int) : Prop := -2 ^ 63 ≤ n ∧ n < 2 ^ 63

instance (n : Int) : Decidable (FitsLong n) := inferInstanceAs (Decidable (_ ∧ _))

theorem fitsLong_toInt (a : Int64) : FitsLong a.toInt := ⟨a.le_toInt, a.toInt_lt⟩

/-- Half the range is enough. -/
theorem fitsLong_of_abs_le {n : Int} (h : |n| ≤ 2 ^ 62) : FitsLong n := by
  rcases abs_le.mp h with ⟨hlow, hhigh⟩
  exact ⟨by linarith, by linarith⟩

theorem bmod_eq_self_iff (n : Int) : n.bmod (2 ^ 64) = n ↔ FitsLong n := by
  constructor
  · intro h
    have hle := Int.le_bmod (x := n) (m := 2 ^ 64) (by decide)
    have hlt := Int.bmod_lt (x := n) (m := 2 ^ 64) (by decide)
    rw [h] at hle hlt
    exact ⟨by simpa using hle, by simpa using hlt⟩
  · intro h
    apply Int.bmod_eq_of_le
    · simpa using h.1
    · simpa using h.2

theorem toInt_add_iff (a b : Int64) :
    (a + b).toInt = a.toInt + b.toInt ↔ FitsLong (a.toInt + b.toInt) := by
  rw [Int64.toInt_add, bmod_eq_self_iff]

theorem toInt_sub_iff (a b : Int64) :
    (a - b).toInt = a.toInt - b.toInt ↔ FitsLong (a.toInt - b.toInt) := by
  rw [Int64.toInt_sub, bmod_eq_self_iff]

theorem toInt_mul_iff (a b : Int64) :
    (a * b).toInt = a.toInt * b.toInt ↔ FitsLong (a.toInt * b.toInt) := by
  rw [Int64.toInt_mul, bmod_eq_self_iff]

theorem toInt_quot (a : Int64) {b : Int64} (hb : b ≠ -1) : (quot a b).toInt = a.toInt.tdiv b.toInt :=
  Int64.toInt_div_of_ne_right a b hb

/-- A sum of values that are not negative is exact if it fits. -/
theorem toInt_foldl_add {xs : List Int64} {start : Int64} (hstart : 0 ≤ start.toInt)
    (hpos : ∀ x ∈ xs, 0 ≤ x.toInt) (hfit : start.toInt + (xs.map (·.toInt)).sum < 2 ^ 63) :
    (xs.foldl (· + ·) start).toInt = start.toInt + (xs.map (·.toInt)).sum := by
  induction xs generalizing start with
  | nil => simp
  | cons x xs ih =>
      have hx := hpos x List.mem_cons_self
      have htail : ∀ y ∈ xs, 0 ≤ y.toInt := fun y hy => hpos y (List.mem_cons_of_mem _ hy)
      have hrest : 0 ≤ (xs.map (·.toInt)).sum := by
        apply List.sum_nonneg
        intro n hn
        rcases List.mem_map.mp hn with ⟨y, hy, rfl⟩
        exact htail y hy
      rw [List.map_cons, List.sum_cons] at hfit ⊢
      have hadd : (start + x).toInt = start.toInt + x.toInt :=
        (toInt_add_iff start x).mpr ⟨by linarith, by linarith⟩
      rw [List.foldl_cons, ih (by linarith) htail (by linarith), hadd, add_assoc]

/-- Division by a positive number keeps the order of values that are not negative. -/
theorem quot_mono {a b d : Int64} (ha : 0 ≤ a.toInt) (hab : a.toInt ≤ b.toInt) (hd : 0 < d.toInt) :
    0 ≤ (quot a d).toInt ∧ (quot a d).toInt ≤ (quot b d).toInt := by
  have hne : d ≠ -1 := by
    rintro rfl
    exact absurd hd (by decide)
  rw [toInt_quot a hne, toInt_quot b hne, Int.tdiv_eq_ediv_of_nonneg ha,
    Int.tdiv_eq_ediv_of_nonneg (ha.trans hab)]
  exact ⟨Int.ediv_nonneg ha hd.le, Int.ediv_le_ediv hd hab⟩

/-- What is left of a whole, in some unit, is at most what anything that holds the whole has. -/
theorem quot_sub_le {whole part bound d : Int64} (hpart : 0 ≤ part.toInt)
    (hle : part.toInt ≤ whole.toInt) (hbound : whole.toInt ≤ bound.toInt) (hd : 0 < d.toInt) :
    0 ≤ (quot (whole - part) d).toInt ∧ (quot (whole - part) d).toInt ≤ (quot bound d).toInt := by
  have hwhole := whole.toInt_lt
  have hsub : (whole - part).toInt = whole.toInt - part.toInt :=
    (toInt_sub_iff whole part).mpr ⟨by linarith, by linarith⟩
  apply quot_mono _ _ hd
  · rw [hsub]
    linarith
  · rw [hsub]
    linarith

end JavaLong
