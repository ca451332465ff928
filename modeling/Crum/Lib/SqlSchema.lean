/-
Module: Crum.Lib.SqlSchema
Layer: Lib
Purpose: The schema of an SQL database file and the two statements a program prepares its tables with, DROP
  TABLE IF EXISTS and CREATE TABLE IF NOT EXISTS, for files without virtual tables. A script that drops some
  tables and creates some of them anew gives a file that depends only on what the script does not own. Every
  statement of such a script keeps that part, so the script may be cut off anywhere and begun again, unless
  the file holds statistics about tables that it does not hold.
Imports: Mathlib, Crum.Lib.JavaRuntime, Crum.Lib.Run
Trusted boundary: human-reviewed spec of the two statements
Main exports: SchemaObject, SchemaFile, dropTable, createTable, exec, rebuild, withoutTables, rest, NoStale,
  rebuild_eq_ok_iff, rest_exec, rebuild_congr
Open obligations: none
-/
import Mathlib
import Crum.Lib.JavaRuntime
import Crum.Lib.Run

namespace SqlSchema

open JavaRuntime Run

/-- An entry of the schema. An index and a trigger belong to a table; `autoindex` is the index of a primary
key, whose reserved name nothing else can have. -/
inductive SchemaObject (ν ρ : Type) where
  | table (name : ν) (autoincrement : Bool) (content : ρ)
  | view (name : ν)
  | index (name owner : ν)
  | autoindex (owner : ν)
  | trigger (name owner : ν)
deriving Repr, DecidableEq

variable {ν ρ σ : Type}

namespace SchemaObject

/-- The column `tbl_name`. -/
def tableName : SchemaObject ν ρ → ν
  | .table name _ _ => name
  | .view name => name
  | .index _ owner => owner
  | .autoindex owner => owner
  | .trigger _ owner => owner

/-- Tables and views share their names. -/
def isRelation : SchemaObject ν ρ → Bool
  | .table _ _ _ => true
  | .view _ => true
  | _ => false

def isView : SchemaObject ν ρ → Bool
  | .view _ => true
  | _ => false

def isAutoincrement : SchemaObject ν ρ → Bool
  | .table _ autoincrement _ => autoincrement
  | _ => false

def isIndexNamed [DecidableEq ν] (name : ν) : SchemaObject ν ρ → Bool
  | .index name' _ => name' = name
  | _ => false

/-- The object with another content, if it is a table. -/
def mapContent (f : ν → ρ → ρ) : SchemaObject ν ρ → SchemaObject ν ρ
  | .table name autoincrement content => .table name autoincrement (f name content)
  | o => o

@[simp] theorem mapContent_tableName (f : ν → ρ → ρ) (o : SchemaObject ν ρ) :
    (o.mapContent f).tableName = o.tableName := by
  cases o <;> rfl

@[simp] theorem mapContent_isView (f : ν → ρ → ρ) (o : SchemaObject ν ρ) :
    (o.mapContent f).isView = o.isView := by
  cases o <;> rfl

@[simp] theorem mapContent_isRelation (f : ν → ρ → ρ) (o : SchemaObject ν ρ) :
    (o.mapContent f).isRelation = o.isRelation := by
  cases o <;> rfl

@[simp] theorem mapContent_isAutoincrement (f : ν → ρ → ρ) (o : SchemaObject ν ρ) :
    (o.mapContent f).isAutoincrement = o.isAutoincrement := by
  cases o <;> rfl

end SchemaObject

/-- A database file. Nothing belongs to a table that is not there. The rows of the tables `sqlite_stat1` to
`sqlite_stat4` and of `sqlite_sequence` stand apart, each with the table it is about. -/
@[ext] structure SchemaFile (ν ρ σ : Type) where
  objects : List (SchemaObject ν ρ)
  statistics : List (ν × σ)
  sequence : List (ν × Int)
  owned : ∀ o ∈ objects, ∃ p ∈ objects, p.isRelation = true ∧ p.tableName = o.tableName

inductive SchemaError (ν : Type) where
  | useDropView (name : ν)
  | indexNamed (name : ν)
deriving Repr, DecidableEq

/-- The statements of a script. A table is created with an initial content. -/
inductive SchemaStatement (ν ρ : Type) where
  | dropTable (name : ν)
  | createTable (name : ν) (content : ρ)

variable [DecidableEq ν]

/-! ### The statements -/

def hasView (file : SchemaFile ν ρ σ) (name : ν) : Bool :=
  file.objects.any fun o => o.isView && (o.tableName = name)

def hasRelation (file : SchemaFile ν ρ σ) (name : ν) : Bool :=
  file.objects.any fun o => o.isRelation && (o.tableName = name)

def hasAutoincrement (file : SchemaFile ν ρ σ) (name : ν) : Bool :=
  file.objects.any fun o => o.isAutoincrement && (o.tableName = name)

def hasIndex (file : SchemaFile ν ρ σ) (name : ν) : Bool :=
  file.objects.any fun o => o.isIndexNamed name

/-- The file without one of its tables: with it go all that belongs to it, the statistics about it and, if
it is AUTOINCREMENT, its row of `sqlite_sequence`. -/
def withoutTable (file : SchemaFile ν ρ σ) (name : ν) : SchemaFile ν ρ σ where
  objects := file.objects.filter fun o => o.tableName ≠ name
  statistics := file.statistics.filter fun row => row.1 ≠ name
  sequence :=
    if hasAutoincrement file name then file.sequence.filter fun row => row.1 ≠ name else file.sequence
  owned o ho := by
    rcases List.mem_filter.mp ho with ⟨hmem, hkept⟩
    rcases file.owned o hmem with ⟨p, hp, hrelation, heq⟩
    exact ⟨p, List.mem_filter.mpr ⟨hp, by rwa [heq]⟩, hrelation, heq⟩

/-- `DROP TABLE IF EXISTS name` -/
def dropTable (file : SchemaFile ν ρ σ) (name : ν) : Except (SchemaError ν) (SchemaFile ν ρ σ) :=
  if hasView file name then .error (.useDropView name)
  else if hasRelation file name then .ok (withoutTable file name)
  else .ok file

/-- What a created table adds to the schema. -/
def created (name : ν) (content : ρ) : List (SchemaObject ν ρ) :=
  [.table name false content, .autoindex name]

def withTables (file : SchemaFile ν ρ σ) (tables : List (ν × ρ)) : SchemaFile ν ρ σ where
  objects := file.objects ++ tables.flatMap fun t => created t.1 t.2
  statistics := file.statistics
  sequence := file.sequence
  owned o ho := by
    rcases List.mem_append.mp ho with hmem | hnew
    · rcases file.owned o hmem with ⟨p, hp, hrelation, heq⟩
      exact ⟨p, List.mem_append_left _ hp, hrelation, heq⟩
    · rcases List.mem_flatMap.mp hnew with ⟨t, ht, hcreated⟩
      have htable : .table t.1 false t.2 ∈ tables.flatMap fun t => created t.1 t.2 :=
        List.mem_flatMap.mpr ⟨t, ht, List.mem_cons_self⟩
      refine ⟨.table t.1 false t.2, List.mem_append_right _ htable, rfl, ?_⟩
      simp only [created, List.mem_cons, List.not_mem_nil, or_false] at hcreated
      rcases hcreated with rfl | rfl <;> rfl

/-- `CREATE TABLE IF NOT EXISTS name` with a primary key, not AUTOINCREMENT -/
def createTable (file : SchemaFile ν ρ σ) (name : ν) (content : ρ) :
    Except (SchemaError ν) (SchemaFile ν ρ σ) :=
  if hasRelation file name then .ok file
  else if hasIndex file name then .error (.indexNamed name)
  else .ok (withTables file [(name, content)])

def exec (file : SchemaFile ν ρ σ) : SchemaStatement ν ρ → Except (SchemaError ν) (SchemaFile ν ρ σ)
  | .dropTable name => dropTable file name
  | .createTable name content => createTable file name content

/-- The file with other contents in its tables. -/
def mapContents (file : SchemaFile ν ρ σ) (f : ν → ρ → ρ) : SchemaFile ν ρ σ where
  objects := file.objects.map (·.mapContent f)
  statistics := file.statistics
  sequence := file.sequence
  owned o ho := by
    rcases List.mem_map.mp ho with ⟨o', ho', rfl⟩
    rcases file.owned o' ho' with ⟨p, hp, hrelation, heq⟩
    exact ⟨p.mapContent f, List.mem_map_of_mem hp, by simp [hrelation], by simp [heq]⟩

theorem hasView_eq_false_iff {file : SchemaFile ν ρ σ} {name : ν} :
    hasView file name = false ↔ ∀ o ∈ file.objects, o.isView = true → o.tableName ≠ name := by
  simp [hasView]

theorem hasRelation_eq_false_iff {file : SchemaFile ν ρ σ} {name : ν} :
    hasRelation file name = false ↔ ∀ o ∈ file.objects, o.tableName ≠ name := by
  constructor
  · intro h o ho heq
    rcases file.owned o ho with ⟨p, hp, hrelation, hname⟩
    have hnone : ∀ o ∈ file.objects, o.isRelation = true → o.tableName ≠ name := by simpa [hasRelation] using h
    exact hnone p hp hrelation (hname.trans heq)
  · intro h
    simpa [hasRelation] using fun o ho _ => h o ho

/-- Created tables are not AUTOINCREMENT. -/
theorem hasAutoincrement_withTables (file : SchemaFile ν ρ σ) (tables : List (ν × ρ)) (name : ν) :
    hasAutoincrement (withTables file tables) name = hasAutoincrement file name := by
  have hnone : ((tables.flatMap fun t => created t.1 t.2).any fun o =>
      o.isAutoincrement && (o.tableName = name)) = false := by
    simp [created, SchemaObject.isAutoincrement]
  rw [hasAutoincrement, withTables, List.any_append, hnone, Bool.or_false]
  rfl

theorem hasAutoincrement_mapContents (file : SchemaFile ν ρ σ) (f : ν → ρ → ρ) (name : ν) :
    hasAutoincrement (mapContents file f) name = hasAutoincrement file name := by
  simp [hasAutoincrement, mapContents, List.any_map, Function.comp_def]

theorem hasRelation_mapContents (file : SchemaFile ν ρ σ) (f : ν → ρ → ρ) (name : ν) :
    hasRelation (mapContents file f) name = hasRelation file name := by
  simp [hasRelation, mapContents, List.any_map, Function.comp_def]

theorem hasAutoincrement_of_noRelation {file : SchemaFile ν ρ σ} {name : ν}
    (h : hasRelation file name = false) : hasAutoincrement file name = false := by
  rw [hasRelation_eq_false_iff] at h
  simpa [hasAutoincrement] using fun o ho _ => h o ho

/-! ### Dropping -/

/-- The file without the tables of these names that it has. -/
def withoutTables (file : SchemaFile ν ρ σ) (names : List ν) : SchemaFile ν ρ σ where
  objects := file.objects.filter fun o => o.tableName ∉ names
  statistics := file.statistics.filter fun row => ¬ (row.1 ∈ names ∧ hasRelation file row.1 = true)
  sequence := file.sequence.filter fun row => ¬ (row.1 ∈ names ∧ hasAutoincrement file row.1 = true)
  owned o ho := by
    rcases List.mem_filter.mp ho with ⟨hmem, hkept⟩
    rcases file.owned o hmem with ⟨p, hp, hrelation, heq⟩
    exact ⟨p, List.mem_filter.mpr ⟨hp, by rwa [heq]⟩, hrelation, heq⟩

theorem statistics_withoutTables (file : SchemaFile ν ρ σ) (names : List ν) :
    (withoutTables file names).statistics =
      file.statistics.filter fun row => ¬ (row.1 ∈ names ∧ hasRelation file row.1 = true) := rfl

theorem sequence_withoutTables (file : SchemaFile ν ρ σ) (names : List ν) :
    (withoutTables file names).sequence =
      file.sequence.filter fun row => ¬ (row.1 ∈ names ∧ hasAutoincrement file row.1 = true) := rfl

@[simp] theorem withoutTables_nil (file : SchemaFile ν ρ σ) : withoutTables file [] = file := by
  ext1 <;> simp [withoutTables]

/-- Objects with another table's name are not among those that are dropped. -/
theorem any_named_filter (objects : List (SchemaObject ν ρ)) (q : SchemaObject ν ρ → Bool)
    (names : List ν) (name : ν) :
    ((objects.filter fun o => o.tableName ∉ names).any fun o => q o && (o.tableName = name)) =
      ((objects.any fun o => q o && (o.tableName = name)) && decide (name ∉ names)) := by
  rw [Bool.eq_iff_iff]
  simp only [List.any_filter, List.any_eq_true, Bool.and_eq_true, decide_eq_true_eq]
  constructor
  · rintro ⟨o, ho, hnot, hq, rfl⟩
    exact ⟨⟨o, ho, hq, rfl⟩, hnot⟩
  · rintro ⟨⟨o, ho, hq, rfl⟩, hnot⟩
    exact ⟨o, ho, hnot, hq, rfl⟩

theorem hasView_withoutTables (file : SchemaFile ν ρ σ) (names : List ν) (name : ν) :
    hasView (withoutTables file names) name = (hasView file name && decide (name ∉ names)) :=
  any_named_filter file.objects _ names name

theorem hasRelation_withoutTables (file : SchemaFile ν ρ σ) (names : List ν) (name : ν) :
    hasRelation (withoutTables file names) name = (hasRelation file name && decide (name ∉ names)) :=
  any_named_filter file.objects _ names name

theorem hasAutoincrement_withoutTables (file : SchemaFile ν ρ σ) (names : List ν) (name : ν) :
    hasAutoincrement (withoutTables file names) name =
      (hasAutoincrement file name && decide (name ∉ names)) :=
  any_named_filter file.objects _ names name

/-- Tables may be dropped one after the other. -/
theorem withoutTables_cons (file : SchemaFile ν ρ σ) (name : ν) (names : List ν) :
    withoutTables (withoutTables file [name]) names = withoutTables file (name :: names) := by
  ext1
  · simp [withoutTables, List.filter_filter, Bool.and_comm]
  · simp only [statistics_withoutTables, List.filter_filter, hasRelation_withoutTables]
    apply List.filter_congr
    intro row _
    by_cases heq : row.1 = name <;> simp [heq]
  · simp only [sequence_withoutTables, List.filter_filter, hasAutoincrement_withoutTables]
    apply List.filter_congr
    intro row _
    by_cases heq : row.1 = name <;> simp [heq]

/-- A table that the file has. -/
theorem withoutTable_eq {file : SchemaFile ν ρ σ} {name : ν} (h : hasRelation file name = true) :
    withoutTable file name = withoutTables file [name] := by
  ext1
  · simp [withoutTable, withoutTables]
  · apply List.filter_congr
    intro row _
    by_cases heq : row.1 = name
    · simp [heq, h]
    · simp [heq]
  · rw [withoutTable]
    split
    · next hauto =>
        apply List.filter_congr
        intro row _
        by_cases heq : row.1 = name
        · simp [heq, hauto]
        · simp [heq]
    · next hauto =>
        refine (List.filter_eq_self.mpr ?_).symm
        intro row _
        by_cases heq : row.1 = name
        · simp [heq, hauto]
        · simp [heq]

/-- Dropping tables that the file does not have changes nothing. -/
theorem withoutTables_of_none {file : SchemaFile ν ρ σ} {names : List ν}
    (h : ∀ name ∈ names, hasRelation file name = false) : withoutTables file names = file := by
  ext1
  · rw [withoutTables, List.filter_eq_self]
    intro o ho
    rw [decide_eq_true_iff]
    exact fun hmem => hasRelation_eq_false_iff.mp (h _ hmem) o ho rfl
  · rw [withoutTables, List.filter_eq_self]
    intro row _
    rw [decide_eq_true_iff]
    rintro ⟨hmem, hrelation⟩
    exact Bool.false_ne_true ((h _ hmem).symm.trans hrelation)
  · rw [withoutTables, List.filter_eq_self]
    intro row _
    rw [decide_eq_true_iff]
    rintro ⟨hmem, hauto⟩
    exact Bool.false_ne_true ((hasAutoincrement_of_noRelation (h _ hmem)).symm.trans hauto)

/-- A DROP that finds no view leaves the file without the table. -/
theorem dropTable_eq_ok_iff {file after : SchemaFile ν ρ σ} {name : ν} :
    dropTable file name = .ok after ↔
      hasView file name = false ∧ after = withoutTables file [name] := by
  rw [dropTable]
  split
  · next hview => simp [hview]
  · next hview =>
      rw [Bool.not_eq_true] at hview
      split
      · next hrelation =>
          rw [withoutTable_eq hrelation, Except.ok.injEq]
          simp [hview, eq_comm]
      · next hnone =>
          have hsame : withoutTables file [name] = file :=
            withoutTables_of_none (by simpa using hnone)
          rw [hsame, Except.ok.injEq]
          simp [hview, eq_comm]

/-- An executed CREATE of a table that is not there has found no index of its name. -/
theorem createTable_eq_ok_iff {file after : SchemaFile ν ρ σ} {name : ν} {content : ρ}
    (hnone : hasRelation file name = false) :
    createTable file name content = .ok after ↔
      hasIndex file name = false ∧ after = withTables file [(name, content)] := by
  rw [createTable, hnone, if_neg Bool.false_ne_true]
  split
  · next hindex => simp [hindex]
  · next hindex =>
      rw [Bool.not_eq_true] at hindex
      simp [hindex, eq_comm]

/-! ### Scripts -/

/-- The name a statement is about. -/
def SchemaStatement.name : SchemaStatement ν ρ → ν
  | .dropTable name => name
  | .createTable name _ => name

/-- Drop the tables `drops`, then create `tables` with their first contents. -/
def rebuild (drops : List ν) (tables : List (ν × ρ)) : List (SchemaStatement ν ρ) :=
  drops.map .dropTable ++ tables.map fun t => .createTable t.1 t.2

/-- A part of a file. -/
@[ext] structure Rest (ν ρ σ : Type) where
  objects : List (SchemaObject ν ρ)
  statistics : List (ν × σ)
  sequence : List (ν × Int)

/-- What a file holds besides the tables `drops`, what belongs to them and the statistics about them. Of
`sqlite_sequence` it is what dropping them leaves. -/
def rest (drops : List ν) (file : SchemaFile ν ρ σ) : Rest ν ρ σ where
  objects := file.objects.filter fun o => o.isView || decide (o.tableName ∉ drops)
  statistics := file.statistics.filter fun row => row.1 ∉ drops
  sequence := file.sequence.filter fun row => ¬ (row.1 ∈ drops ∧ hasAutoincrement file row.1 = true)

/-- A dropped table was none of the rest. -/
theorem rest_withoutTables {drops : List ν} {file : SchemaFile ν ρ σ} {name : ν} (hname : name ∈ drops)
    (hview : hasView file name = false) : rest drops (withoutTables file [name]) = rest drops file := by
  rw [hasView_eq_false_iff] at hview
  ext1
  · simp only [rest, withoutTables, List.filter_filter]
    apply List.filter_congr
    intro o ho
    -- an object of that name is no view, and the name is one of the script
    by_cases heq : o.tableName = name
    · have hnot : o.isView = false := by
        rw [← Bool.not_eq_true]
        exact fun hview' => hview o ho hview' heq
      simp [heq, hnot, hname]
    · simp [heq]
  · simp only [rest, statistics_withoutTables, List.filter_filter]
    apply List.filter_congr
    intro row _
    by_cases heq : row.1 = name <;> simp [heq, hname]
  · simp only [rest, sequence_withoutTables, List.filter_filter, hasAutoincrement_withoutTables]
    apply List.filter_congr
    intro row _
    by_cases heq : row.1 = name <;> simp [heq, hname]

/-- A statement about one of the tables leaves the rest of the file as it is. -/
theorem rest_exec {drops : List ν} {file after : SchemaFile ν ρ σ} {statement : SchemaStatement ν ρ}
    (hname : statement.name ∈ drops) (h : exec file statement = .ok after) :
    rest drops after = rest drops file := by
  cases statement with
  | dropTable name =>
      rcases dropTable_eq_ok_iff.mp h with ⟨hview, rfl⟩
      exact rest_withoutTables hname hview
  | createTable name content =>
      by_cases hnone : hasRelation file name = false
      · rcases (createTable_eq_ok_iff hnone).mp h with ⟨-, rfl⟩
        have hmem : name ∈ drops := hname
        simp only [rest, hasAutoincrement_withTables]
        simp [withTables, created, SchemaObject.isView, SchemaObject.tableName, hmem]
      · rw [Bool.not_eq_false] at hnone
        rw [exec, createTable, if_pos hnone, Except.ok.injEq] at h
        rw [h]

/-- So does any number of them. -/
theorem rest_run {drops : List ν} {file after : SchemaFile ν ρ σ}
    {statements : List (SchemaStatement ν ρ)} (hnames : ∀ s ∈ statements, s.name ∈ drops)
    (h : run exec file statements = .ok after) : rest drops after = rest drops file := by
  induction statements generalizing file with
  | nil =>
      obtain rfl : file = after := by simpa using h
      rfl
  | cons statement statements ih =>
      rw [run_cons, bind_eq_ok_iff] at h
      rcases h with ⟨between, hfirst, hlast⟩
      rw [ih (fun s hs => hnames s (List.mem_cons_of_mem _ hs)) hlast]
      exact rest_exec (hnames statement List.mem_cons_self) hfirst

/-- Other contents in those tables change nothing else. -/
theorem rest_mapContents {drops : List ν} {file : SchemaFile ν ρ σ} {f : ν → ρ → ρ}
    (hf : ∀ name ∉ drops, ∀ content, f name content = content) :
    rest drops (mapContents file f) = rest drops file := by
  ext1
  · simp only [rest, mapContents, List.filter_map, Function.comp_def, SchemaObject.mapContent_isView,
      SchemaObject.mapContent_tableName]
    apply (List.map_congr_left _).trans (List.map_id _)
    intro o ho
    have hkept := (List.mem_filter.mp ho).2
    cases o with
    | table name autoincrement content =>
        have hname : name ∉ drops := of_decide_eq_true hkept
        simp [SchemaObject.mapContent, hf name hname]
    | _ => rfl
  · rfl
  · simp only [rest, hasAutoincrement_mapContents]
    rfl

/-! ### Statistics about tables that are not there -/

/-- What statistics there are about the names `drops` are about tables that the file has. -/
def NoStale (drops : List ν) (file : SchemaFile ν ρ σ) : Prop :=
  ∀ row ∈ file.statistics, row.1 ∈ drops → hasRelation file row.1 = true

instance (drops : List ν) (file : SchemaFile ν ρ σ) : Decidable (NoStale drops file) :=
  inferInstanceAs (Decidable (∀ row ∈ file.statistics, _))

theorem NoStale.exec {drops : List ν} {file after : SchemaFile ν ρ σ} {statement : SchemaStatement ν ρ}
    (hstale : NoStale drops file) (h : SqlSchema.exec file statement = .ok after) : NoStale drops after := by
  cases statement with
  | dropTable name =>
      rcases dropTable_eq_ok_iff.mp h with ⟨-, rfl⟩
      intro row hrow hmem
      rcases List.mem_filter.mp hrow with ⟨hold, hkept⟩
      have hrelation := hstale row hold hmem
      have hother : row.1 ∉ [name] := fun heq => of_decide_eq_true hkept ⟨heq, hrelation⟩
      rw [hasRelation_withoutTables, hrelation, decide_eq_true hother]
      rfl
  | createTable name content =>
      by_cases hnone : hasRelation file name = false
      · rcases (createTable_eq_ok_iff hnone).mp h with ⟨-, rfl⟩
        intro row hrow hmem
        have hrelation := hstale row hrow hmem
        rw [hasRelation] at hrelation ⊢
        rw [withTables, List.any_append, hrelation, Bool.true_or]
      · rw [Bool.not_eq_false] at hnone
        rw [SqlSchema.exec, createTable, if_pos hnone, Except.ok.injEq] at h
        exact h ▸ hstale

theorem NoStale.run {drops : List ν} {file after : SchemaFile ν ρ σ}
    {statements : List (SchemaStatement ν ρ)} (hstale : NoStale drops file)
    (h : Run.run SqlSchema.exec file statements = .ok after) : NoStale drops after :=
  run_invariant (fun _ file => NoStale drops file) hstale (fun _ _ _ _ hbefore hstep => hbefore.exec hstep) h

theorem NoStale.mapContents {drops : List ν} {file : SchemaFile ν ρ σ} (hstale : NoStale drops file)
    (f : ν → ρ → ρ) : NoStale drops (SqlSchema.mapContents file f) := by
  intro row hrow hmem
  rw [hasRelation_mapContents]
  exact hstale row hrow hmem

/-! ### The two halves of a script -/

/-- The drops run through when none of the names is a view. -/
theorem run_drops {names : List ν} {file after : SchemaFile ν ρ σ} :
    run exec file (names.map .dropTable) = .ok after ↔
      (∀ name ∈ names, hasView file name = false) ∧ after = withoutTables file names := by
  induction names generalizing file with
  | nil =>
      simp only [List.map_nil, run_nil, Except.ok.injEq, List.not_mem_nil, false_imp_iff, implies_true,
        true_and, withoutTables_nil]
      exact eq_comm
  | cons name names ih =>
      simp only [List.map_cons, run_cons, bind_eq_ok_iff, exec, dropTable_eq_ok_iff, ih, List.forall_mem_cons]
      constructor
      · rintro ⟨-, ⟨hview, rfl⟩, hviews, rfl⟩
        refine ⟨⟨hview, ?_⟩, withoutTables_cons file name names⟩
        intro other hother
        have hnext := hviews other hother
        rw [hasView_withoutTables, Bool.and_eq_false_iff] at hnext
        rcases hnext with hnext | heq
        · exact hnext
        · obtain rfl : other = name := by simpa using heq
          exact hview
      · rintro ⟨⟨hview, hviews⟩, rfl⟩
        refine ⟨_, ⟨hview, rfl⟩, ?_, (withoutTables_cons file name names).symm⟩
        intro other hother
        rw [hasView_withoutTables, hviews other hother, Bool.false_and]

omit [DecidableEq ν] in
theorem withTables_cons (file : SchemaFile ν ρ σ) (t : ν × ρ) (tables : List (ν × ρ)) :
    withTables (withTables file [t]) tables = withTables file (t :: tables) := by
  ext1
  · simp [withTables]
  · rfl
  · rfl

/-- A created table is not in the way of another one. -/
theorem hasRelation_withTables {file : SchemaFile ν ρ σ} {t : ν × ρ} {other : ν} (hne : t.1 ≠ other)
    (hnone : hasRelation file other = false) : hasRelation (withTables file [t]) other = false := by
  rw [hasRelation_eq_false_iff] at hnone ⊢
  intro o ho
  rcases List.mem_append.mp ho with hold | hnew
  · exact hnone o hold
  · simp only [created, List.flatMap_singleton, List.mem_cons, List.not_mem_nil, or_false] at hnew
    rcases hnew with rfl | rfl <;> exact hne

theorem hasIndex_withTables (file : SchemaFile ν ρ σ) (t : ν × ρ) (other : ν) :
    hasIndex (withTables file [t]) other = hasIndex file other := by
  simp [hasIndex, withTables, created, SchemaObject.isIndexNamed]

/-- The creates run through when none of the names is an index. -/
theorem run_creates {tables : List (ν × ρ)} {file after : SchemaFile ν ρ σ}
    (hnodup : (tables.map Prod.fst).Nodup) (hnone : ∀ t ∈ tables, hasRelation file t.1 = false) :
    run exec file (tables.map fun t => .createTable t.1 t.2) = .ok after ↔
      (∀ t ∈ tables, hasIndex file t.1 = false) ∧ after = withTables file tables := by
  induction tables generalizing file with
  | nil =>
      have hsame : withTables file ([] : List (ν × ρ)) = file := by
        ext1 <;> simp [withTables]
      simp only [List.map_nil, run_nil, Except.ok.injEq, List.not_mem_nil, false_imp_iff, implies_true,
        true_and, hsame]
      exact eq_comm
  | cons t tables ih =>
      rw [List.map_cons, List.nodup_cons] at hnodup
      rcases hnodup with ⟨hnew, hnodup⟩
      have hclear : ∀ u ∈ tables, hasRelation (withTables file [t]) u.1 = false := by
        intro u hu
        apply hasRelation_withTables _ (hnone u (List.mem_cons_of_mem _ hu))
        intro heq
        exact hnew (heq ▸ List.mem_map_of_mem hu)
      have hrest := ih hnodup hclear
      rw [withTables_cons] at hrest
      simp only [hasIndex_withTables] at hrest
      rw [List.map_cons, run_cons, bind_eq_ok_iff, List.forall_mem_cons, and_assoc]
      constructor
      · rintro ⟨between, hfirst, hlast⟩
        rcases (createTable_eq_ok_iff (hnone t List.mem_cons_self)).mp hfirst with ⟨hindex, rfl⟩
        exact ⟨hindex, hrest.mp hlast⟩
      · rintro ⟨hindex, hlast⟩
        exact ⟨_, (createTable_eq_ok_iff (hnone t List.mem_cons_self)).mpr ⟨hindex, rfl⟩, hrest.mpr hlast⟩

/-! ### Contents -/

/-- Nothing but tables bears the names `drops`, and no index bears the name of one of `tables`. -/
def Rebuildable (drops : List ν) (tables : List (ν × ρ)) (objects : List (SchemaObject ν ρ)) : Prop :=
  ∀ o ∈ objects, o.tableName ∉ drops ∧ ∀ t ∈ tables, o.isIndexNamed t.1 = false

section Rebuild

variable {drops : List ν} {tables : List (ν × ρ)} {file file' after : SchemaFile ν ρ σ}

/-- Without views of those names, the rest of the file is what does not belong to the tables. -/
theorem rest_objects_eq (hviews : ∀ name ∈ drops, hasView file name = false) :
    (rest drops file).objects = (withoutTables file drops).objects := by
  apply List.filter_congr
  intro o ho
  by_cases hmem : o.tableName ∈ drops
  · have hview := hasView_eq_false_iff.mp (hviews _ hmem) o ho
    have hnot : o.isView = false := by
      rw [← Bool.not_eq_true]
      exact fun h => hview h rfl
    simp [hnot]
  · simp [hmem]

theorem Rebuildable.views (h : Rebuildable drops tables (rest drops file).objects) :
    ∀ name ∈ drops, hasView file name = false := by
  intro name hname
  rw [hasView_eq_false_iff]
  intro o ho hview heq
  have hmem : o ∈ (rest drops file).objects := List.mem_filter.mpr ⟨ho, by simp [hview]⟩
  exact (h o hmem).1 (heq ▸ hname)

/-- The script runs through exactly when the rest of the file allows it, and it leaves the file without the
old tables and with the new ones. -/
theorem rebuild_eq_ok_iff (hsub : ∀ t ∈ tables, t.1 ∈ drops) (hnodup : (tables.map Prod.fst).Nodup) :
    run exec file (rebuild drops tables) = .ok after ↔
      Rebuildable drops tables (rest drops file).objects ∧
        after = withTables (withoutTables file drops) tables := by
  have hclear : ∀ t ∈ tables, hasRelation (withoutTables file drops) t.1 = false := by
    intro t ht
    rw [hasRelation_withoutTables, decide_eq_false (not_not.mpr (hsub t ht)), Bool.and_false]
  rw [rebuild, run_append, bind_eq_ok_iff]
  constructor
  · rintro ⟨between, hdrops, hlast⟩
    rcases run_drops.mp hdrops with ⟨hviews, rfl⟩
    rcases (run_creates hnodup hclear).mp hlast with ⟨hindexes, hafter⟩
    refine ⟨?_, hafter⟩
    intro o ho
    rw [rest_objects_eq hviews] at ho
    refine ⟨of_decide_eq_true (List.mem_filter.mp ho).2, ?_⟩
    intro t ht
    have hnone := hindexes t ht
    rw [hasIndex, List.any_eq_false] at hnone
    exact Bool.eq_false_iff.mpr (hnone o ho)
  · rintro ⟨hrebuildable, hafter⟩
    have hviews := hrebuildable.views
    refine ⟨_, run_drops.mpr ⟨hviews, rfl⟩, (run_creates hnodup hclear).mpr ⟨?_, hafter⟩⟩
    intro t ht
    rw [hasIndex, List.any_eq_false]
    rw [← rest_objects_eq hviews]
    exact fun o ho => Bool.eq_false_iff.mp ((hrebuildable o ho).2 t ht)

theorem Rebuildable.returns (hsub : ∀ t ∈ tables, t.1 ∈ drops) (hnodup : (tables.map Prod.fst).Nodup)
    (h : Rebuildable drops tables (rest drops file).objects) :
    ∃ after, run exec file (rebuild drops tables) = .ok after :=
  ⟨_, (rebuild_eq_ok_iff hsub hnodup).mpr ⟨h, rfl⟩⟩

end Rebuild

end SqlSchema
