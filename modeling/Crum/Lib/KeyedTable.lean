/-
Module: Crum.Lib.KeyedTable
Layer: Lib
Purpose: A table with a primary key: rows in insertion order, no two with the same key. The key
  constraint is a field, so an insert that would break it has no result. Deletion follows SQL: a row
  goes only when the condition is true of it, and stays when the condition is false or NULL.
Imports: Mathlib
Trusted boundary: human-reviewed spec of INSERT and DELETE
Main exports: KeyedTable, insert_eq_some_iff, mem_deleteWhere, filter_key_of_mem, notMem_keys,
  filter_deleteWhere, Projects
Open obligations: none
-/
import Mathlib

/-- Rows in insertion order whose keys are pairwise distinct. -/
@[ext]
structure KeyedTable (ρ κ : Type) (key : ρ → κ) where
  rows : List ρ
  keys_nodup : (rows.map key).Nodup

namespace KeyedTable

variable {ρ κ : Type} {key : ρ → κ}

/-- A table as `CREATE TABLE` leaves it. -/
def empty : KeyedTable ρ κ key := ⟨[], by simp⟩

/-- `INSERT INTO`, which fails when the key is taken. -/
def insert [DecidableEq κ] (table : KeyedTable ρ κ key) (row : ρ) : Option (KeyedTable ρ κ key) :=
  if taken : key row ∈ table.rows.map key then none
  else some
    { rows := table.rows ++ [row]
      keys_nodup := by
        rw [List.map_append, List.nodup_append]
        refine ⟨table.keys_nodup, by simp, ?_⟩
        intro k hk k' hk' heq
        simp only [List.map_cons, List.map_nil, List.mem_singleton] at hk'
        exact taken (hk' ▸ heq ▸ hk) }

/-- `DELETE FROM ... WHERE`: the rows whose condition is true go. -/
def deleteWhere (condition : ρ → Option Bool) (table : KeyedTable ρ κ key) : KeyedTable ρ κ key where
  rows := table.rows.filter fun row => condition row != some true
  keys_nodup := table.keys_nodup.sublist (List.filter_sublist.map key)

@[simp] theorem empty_rows : (empty : KeyedTable ρ κ key).rows = [] := rfl

@[simp] theorem deleteWhere_rows (condition : ρ → Option Bool) (table : KeyedTable ρ κ key) :
    (table.deleteWhere condition).rows =
      table.rows.filter fun row => condition row != some true := rfl

/-- An insert succeeds exactly when the key is new, and then appends the row. -/
theorem insert_eq_some_iff [DecidableEq κ] {table after : KeyedTable ρ κ key} {row : ρ} :
    table.insert row = some after ↔
      key row ∉ table.rows.map key ∧ after.rows = table.rows ++ [row] := by
  unfold insert
  split
  · next taken => simp [taken]
  · next free =>
      rw [Option.some.injEq, KeyedTable.ext_iff]
      exact ⟨fun h => ⟨free, h.symm⟩, fun h => h.2.symm⟩

/-- A row with a new key can be inserted. -/
theorem insert_of_notMem [DecidableEq κ] {table : KeyedTable ρ κ key} {row : ρ}
    (hnew : key row ∉ table.rows.map key) : ∃ after, table.insert row = some after := by
  unfold insert
  rw [dif_neg hnew]
  exact ⟨_, rfl⟩

/-- A row survives a deletion exactly when the condition is not true of it. -/
theorem mem_deleteWhere {condition : ρ → Option Bool} {table : KeyedTable ρ κ key} {row : ρ} :
    row ∈ (table.deleteWhere condition).rows ↔ row ∈ table.rows ∧ condition row ≠ some true := by
  simp

/-! ### Rows by key -/

/-- Only one row has the key of a given row. -/
theorem filter_key_of_mem [DecidableEq κ] (table : KeyedTable ρ κ key) {row : ρ}
    (hrow : row ∈ table.rows) : (table.rows.filter fun r => key r = key row) = [row] := by
  have hkeys := table.keys_nodup
  generalize table.rows = rows at hkeys hrow
  induction rows with
  | nil => cases hrow
  | cons r rows ih =>
      rw [List.map_cons, List.nodup_cons] at hkeys
      rcases hkeys with ⟨hnew, hrest⟩
      rcases List.mem_cons.mp hrow with rfl | hrow
      · have hnone : (rows.filter fun r => key r = key row) = [] := by
          rw [List.filter_eq_nil_iff]
          intro r hr hkey
          exact hnew (List.mem_map.mpr ⟨r, hr, of_decide_eq_true hkey⟩)
        simp [hnone]
      · have hne : key r ≠ key row := by
          intro heq
          exact hnew (heq ▸ List.mem_map_of_mem hrow)
        rw [List.filter_cons_of_neg (by simpa using hne)]
        exact ih hrest hrow

theorem filter_key_of_notMem [DecidableEq κ] (table : KeyedTable ρ κ key) {k : κ}
    (hk : k ∉ table.rows.map key) : (table.rows.filter fun r => key r = k) = [] := by
  rw [List.filter_eq_nil_iff]
  intro r hr hkey
  exact hk (List.mem_map.mpr ⟨r, hr, of_decide_eq_true hkey⟩)

/-- A key is free when no row carries the stamp it contains. -/
theorem notMem_keys {ι : Type} (stamp : ρ → ι) {table : KeyedTable ρ κ key} {k : κ} {tau : ι}
    (hkey : ∀ row, key row = k → stamp row = tau) (hrows : ∀ row ∈ table.rows, stamp row ≠ tau) :
    k ∉ table.rows.map key := by
  intro htaken
  rcases List.mem_map.mp htaken with ⟨row, hrow, hsame⟩
  exact hrows row hrow (hkey row hsame)

/-- A deletion that goes by a stamp of the rows takes all the rows with one stamp or none of them. -/
theorem filter_deleteWhere {ι : Type} [DecidableEq ι] (stamp : ρ → ι) (judge : ι → Option Bool)
    (table : KeyedTable ρ κ key) (tau : ι) :
    ((table.deleteWhere fun row => judge (stamp row)).rows.filter fun row => stamp row = tau) =
      if judge tau = some true then [] else table.rows.filter fun row => stamp row = tau := by
  rw [deleteWhere_rows, List.filter_filter]
  split
  · next htrue =>
      rw [List.filter_eq_nil_iff]
      intro row _ hrow
      rw [Bool.and_eq_true, decide_eq_true_eq] at hrow
      rw [hrow.1, htrue] at hrow
      exact absurd hrow.2 (by decide)
  · next hfalse =>
      apply List.filter_congr
      intro row _
      by_cases hrow : stamp row = tau
      · rw [hrow]
        simpa using hfalse
      · simp [hrow]

/-! ### Tables that hold the parts of a log -/

variable {ρ' κ' : Type} {key' : ρ' → κ'}

/-- The rows of `table` are the `part` of each row of `log`, in the order of the log. -/
def Projects (part : ρ' → List ρ) (log : KeyedTable ρ' κ' key') (table : KeyedTable ρ κ key) : Prop :=
  table.rows = log.rows.flatMap part

namespace Projects

variable {part : ρ' → List ρ} {log log' : KeyedTable ρ' κ' key'} {table table' : KeyedTable ρ κ key}

theorem start : Projects part (empty : KeyedTable ρ' κ' key') (empty : KeyedTable ρ κ key) := rfl

/-- A condition that judges the rows of a part as another one judges the whole may be moved to the
log. -/
theorem filter (h : Projects part log table) {p : ρ → Bool} {q : ρ' → Bool}
    (hsame : ∀ x, ∀ y ∈ part x, p y = q x) :
    table.rows.filter p = (log.rows.filter q).flatMap part := by
  rw [h]
  generalize log.rows = rows
  induction rows with
  | nil => rfl
  | cons x rows ih =>
      rw [List.flatMap_cons, List.filter_append, ih]
      by_cases hx : q x = true
      · have hkeep : (part x).filter p = part x := by
          rw [List.filter_eq_self]
          intro y hy
          rw [hsame x y hy, hx]
        rw [hkeep, List.filter_cons_of_pos hx, List.flatMap_cons]
      · have hdrop : (part x).filter p = [] := by
          rw [List.filter_eq_nil_iff]
          intro y hy
          rw [hsame x y hy]
          exact hx
        rw [hdrop, List.filter_cons_of_neg hx, List.nil_append]

/-- Deleting from the table is deleting from the log. -/
theorem deleteWhere (h : Projects part log table) {condition : ρ → Option Bool}
    {expired : ρ' → Option Bool} (hsame : ∀ x, ∀ y ∈ part x, condition y = expired x) :
    Projects part (log.deleteWhere expired) (table.deleteWhere condition) := by
  unfold Projects
  rw [deleteWhere_rows, deleteWhere_rows]
  apply h.filter
  intro x y hy
  rw [hsame x y hy]

/-- Appending the part of a new log row to the table. -/
theorem insert [DecidableEq κ'] (h : Projects part log table) {x : ρ'}
    (hlog : log.insert x = some log') (htable : table'.rows = table.rows ++ part x) :
    Projects part log' table' := by
  unfold Projects
  rw [htable, (insert_eq_some_iff.mp hlog).2, h]
  simp

/-- A column of the table is made of the columns of the parts. -/
theorem map_eq {β : Type} (h : Projects part log table) {column : ρ → β} {columns : ρ' → List β}
    (hsame : ∀ x, (part x).map column = columns x) : table.rows.map column = log.rows.flatMap columns := by
  rw [h, List.map_flatMap]
  congr 1
  funext x
  exact hsame x

theorem mem_iff (h : Projects part log table) {y : ρ} : y ∈ table.rows ↔ ∃ x ∈ log.rows, y ∈ part x := by
  rw [h, List.mem_flatMap]

end Projects

end KeyedTable
