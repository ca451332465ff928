/-
Module: Crum.Lib.JavaLong
Layer: Lib
Purpose: The operators a Java program applies to `long` values, as a class, so that one definition
  can be run in exact integers and in wrap-around 64-bit arithmetic. `LawfulJavaLong` adds the laws
  under which sums may be regrouped; both interpretations are lawful.
Imports: Mathlib
Trusted boundary: the `Int64` instance is the language's own `long` (two's complement, truncating `/`)
Main exports: JavaLong, LawfulJavaLong, quot_bound
Open obligations: none
-/
import Mathlib

/-- The `long` operators of a Java program. `lit` is a literal, `quot` the truncating division,
`isNeg x` the test `x < 0`, and `intValue` the narrowing to a 32-bit `int`. -/
class JavaLong (α : Type) extends Zero α, Add α, Sub α, Mul α where
  lit : Int → α
  quot : α → α → α
  isNeg : α → Bool
  intValue : α → Int

/-- A `JavaLong` whose sums and differences form a commutative group. Wrap-around arithmetic is one,
as is exact arithmetic; arithmetic that traps on overflow is not. -/
class LawfulJavaLong (α : Type) extends JavaLong α, AddCommGroup α where
  zero_mul : ∀ a : α, 0 * a = 0
  zero_quot : ∀ a : α, quot 0 a = 0
  isNeg_zero : isNeg 0 = false

namespace JavaLong

/-- Exact integers: no operation ever overflows. -/
instance : JavaLong Int where
  lit n := n
  quot := Int.tdiv
  isNeg n := decide (n < 0)
  intValue n := n.bmod (2 ^ 32)

/-- The 64-bit two's complement `long`. -/
instance : JavaLong Int64 where
  lit := Int64.ofInt
  quot := (· / ·)
  isNeg n := decide (n < 0)
  intValue n := n.toInt.bmod (2 ^ 32)

instance : LawfulJavaLong Int where
  toJavaLong := inferInstance
  __ := (inferInstance : AddCommGroup Int)
  zero_mul := Int.zero_mul
  zero_quot := Int.zero_tdiv
  isNeg_zero := rfl

instance : LawfulJavaLong Int64 where
  toJavaLong := inferInstance
  add_assoc := Int64.add_assoc
  zero_add := Int64.zero_add
  add_zero := Int64.add_zero
  add_comm := Int64.add_comm
  neg := Neg.neg
  neg_add_cancel := Int64.add_left_neg
  sub_eq_add_neg := Int64.sub_eq_add_neg
  nsmul := nsmulRec
  zsmul := zsmulRec
  zero_mul _ := Int64.zero_mul
  zero_quot _ := Int64.zero_div
  isNeg_zero := rfl

@[simp] theorem int_quot (a b : Int) : quot a b = a.tdiv b := rfl

@[simp] theorem int_isNeg (a : Int) : isNeg a = decide (a < 0) := rfl

/-- Dividing by a positive `b` and multiplying back loses less than `b`, on either side of zero. -/
theorem quot_bound (a : Int) {b : Int} (hb : 0 < b) : |b * quot a b - a| ≤ b - 1 := by
  have hsplit : b * a.tdiv b + a.tmod b = a := Int.mul_tdiv_add_tmod a b
  have habs : (a.tmod b).natAbs < b.natAbs := by
    rw [Int.natAbs_tmod]
    exact Nat.mod_lt _ (Int.natAbs_pos.mpr hb.ne')
  have hrest : b * quot a b - a = -(a.tmod b) := by
    rw [int_quot]
    omega
  rw [hrest, abs_neg, Int.abs_eq_natAbs]
  omega

end JavaLong
