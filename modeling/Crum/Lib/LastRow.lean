/-
Module: Crum.Lib.LastRow
Layer: Lib
Purpose: A reader that keeps only the last row of a scan. Over rows in the order of insertion it keeps the
  newest; over rows in the order of an index it keeps the one that the index puts last.
Imports: Mathlib
Trusted boundary: none
Main exports: overwrite, overwrite_concat, overwrite_cases, exists_last_insertionSort, last_insertionSort
Open obligations: none
-/
import Mathlib

namespace LastRow

variable {ρ lab : Type}

/-- Every row overwrites what the row before it has left. -/
def overwrite (read : ρ → lab) (start : lab) (rows : List ρ) : lab :=
  rows.foldl (fun _ row => read row) start

@[simp] theorem overwrite_concat (read : ρ → lab) (start : lab) (rows : List ρ) (row : ρ) :
    overwrite read start (rows ++ [row]) = read row := by
  simp [overwrite]

/-- What is left is read from the last row. -/
theorem overwrite_of_getLast? {read : ρ → lab} {rows : List ρ} {row : ρ}
    (h : rows.getLast? = some row) (start : lab) : overwrite read start rows = read row := by
  rcases List.getLast?_eq_some_iff.mp h with ⟨front, rfl⟩
  exact overwrite_concat read start front row

/-- What is left is what was there before, or is read from one of the rows. -/
theorem overwrite_cases (read : ρ → lab) (start : lab) (rows : List ρ) :
    overwrite read start rows = start ∨ ∃ row ∈ rows, overwrite read start rows = read row := by
  rcases List.eq_nil_or_concat rows with rfl | ⟨front, row, rfl⟩
  · exact Or.inl rfl
  · right
    rw [List.concat_eq_append]
    exact ⟨row, by simp, overwrite_concat read start front row⟩

variable (r : ρ → ρ → Prop) [DecidableRel r] [Std.Total r] [IsTrans ρ r]

/-- A sorted scan of rows ends with one of them that every row is at most. -/
theorem exists_last_insertionSort {rows : List ρ} {row : ρ} (hrow : row ∈ rows) :
    ∃ last ∈ rows, (rows.insertionSort r).getLast? = some last ∧ r row last := by
  have hsorted := List.pairwise_insertionSort r rows
  have hmem : row ∈ rows.insertionSort r := (List.mem_insertionSort r).mpr hrow
  cases hlast : (rows.insertionSort r).getLast? with
  | none =>
      rw [List.getLast?_eq_none_iff.mp hlast] at hmem
      cases hmem
  | some last =>
      have hlastMem : last ∈ rows := (List.mem_insertionSort r).mp (List.mem_of_getLast? hlast)
      refine ⟨last, hlastMem, rfl, ?_⟩
      rcases List.getLast?_eq_some_iff.mp hlast with ⟨front, hsplit⟩
      rw [hsplit] at hsorted hmem
      rcases List.mem_append.mp hmem with hfront | hend
      · exact (List.pairwise_append.mp hsorted).2.2 row hfront last (List.mem_singleton.mpr rfl)
      · rw [List.mem_singleton.mp hend]
        exact (Std.Total.total last last).elim id id

/-- A row that no other row is above comes last. -/
theorem last_insertionSort {rows : List ρ} {row : ρ} (hrow : row ∈ rows)
    (htop : ∀ y ∈ rows, r row y → y = row) : (rows.insertionSort r).getLast? = some row := by
  rcases exists_last_insertionSort r hrow with ⟨last, hmem, hlast, hle⟩
  rw [hlast, htop last hmem hle]

end LastRow
