/-
Module: Crum.Lib.Reorder
Layer: Lib
Purpose: Lists put in another order by a permutation of their positions, so that entries can be followed
  from one order to the other.
Imports: Mathlib
Trusted boundary: none
Main exports: reorder, getElem?_reorder, reorder_of_length_le_one
Open obligations: none
-/
import Mathlib

namespace Reorder

variable {α β : Type*}

/-- Position `i` of the new list holds what position `σ i` of the old one held. -/
def reorder (xs : List α) (σ : Equiv.Perm (Fin xs.length)) : List α :=
  List.ofFn fun i => xs.get (σ i)

@[simp] theorem length_reorder (xs : List α) (σ : Equiv.Perm (Fin xs.length)) :
    (reorder xs σ).length = xs.length := by
  simp [reorder]

@[simp] theorem getElem?_reorder (xs : List α) (σ : Equiv.Perm (Fin xs.length)) (i : Fin xs.length) :
    (reorder xs σ)[i.val]? = xs[(σ i).val]? := by
  simp [reorder]

/-- A list with at most one entry has one order. -/
theorem reorder_of_length_le_one {xs : List α} (hlength : xs.length ≤ 1)
    (σ : Equiv.Perm (Fin xs.length)) : reorder xs σ = xs := by
  have : Subsingleton (Fin xs.length) := Fin.subsingleton_iff_le_one.mpr hlength
  have hsame : ∀ i, σ i = i := fun i => Subsingleton.elim _ _
  simp only [reorder, hsame]
  exact List.ofFn_get xs

end Reorder
