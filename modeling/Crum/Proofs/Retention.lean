/-
Module: Crum.Proofs.Retention
Layer: Proofs
Purpose: Which samples `cullDatabase` removes. The gathering methods store milliseconds since 1970, which
  `DATETIME` reads as a Julian day number and, from the second hour of 1970 on, takes for no date at all.
  The condition of the DELETE is then NULL: nothing is ever culled, so the retention rule holds exactly as
  long as nothing is due.
Imports: Crum.Proofs.MainLoop
Trusted boundary: none
Main exports: Expired, Retention, CulledRightly, Reached, retention_iff, old_sample_is_never_culled
Open obligations: none
-/
import Crum.Proofs.MainLoop

namespace Crum

/-! ### One table -/

/-- In whole seconds, the instant is not later than the cutoff of a culling at `now`. -/
def Expired (zone : Zone) (now stamp : Int) : Prop := stamp / 1000 ≤ cutoff zone now / 1000

instance (zone : Zone) (now stamp : Int) : Decidable (Expired zone now stamp) :=
  inferInstanceAs (Decidable (_ ≤ _))

/-- No expired row is left, and every other row is. -/
def Retains {ρ : Type} (timestamp : ρ → Int) (zone : Zone) (now : Int) (before after : List ρ) : Prop :=
  (∀ row ∈ after, ¬ Expired zone now (timestamp row)) ∧
    ∀ row ∈ before, ¬ Expired zone now (timestamp row) → row ∈ after

/-- A DELETE retains the right rows exactly when its condition is true of the expired ones. -/
theorem retains_deleteWhere_iff {ρ κ : Type} {key : ρ → κ} (timestamp : ρ → Int) (zone : Zone)
    (now : Int) (condition : Int → Option Bool) (table : KeyedTable ρ κ key) :
    Retains timestamp zone now table.rows
        (table.deleteWhere fun row => condition (timestamp row)).rows ↔
      ∀ row ∈ table.rows, condition (timestamp row) = some true ↔ Expired zone now (timestamp row) := by
  constructor
  · rintro ⟨hgone, hkept⟩ row hrow
    constructor
    · intro htrue
      by_contra hlive
      exact (KeyedTable.mem_deleteWhere.mp (hkept row hrow hlive)).2 htrue
    · intro hexpired
      by_contra hfalse
      exact hgone row (KeyedTable.mem_deleteWhere.mpr ⟨hrow, hfalse⟩) hexpired
  · intro hiff
    constructor
    · intro row hrow hexpired
      rcases KeyedTable.mem_deleteWhere.mp hrow with ⟨hmem, hfalse⟩
      exact hfalse ((hiff row hmem).mpr hexpired)
    · intro row hrow hlive
      exact KeyedTable.mem_deleteWhere.mpr ⟨hrow, fun htrue => hlive ((hiff row hrow).mp htrue)⟩

/-! ### The stored integers as Julian days -/

/-- The text of an integer that is read as a Julian day number. -/
def julianText (stamp : Int) : String := String.ofList (dateTimeText (julianDate stamp) 43200)

/-- The condition of the DELETE is true only of integers that are Julian days of a representable date. -/
theorem sqlite_condition_iff {stamp : Int} {text : String} :
    datetimeCondition sqliteDatetime stamp text = some true ↔
      (0 ≤ stamp ∧ stamp ≤ 5373484) ∧ julianText stamp ≤ text := by
  unfold datetimeCondition sqliteDatetime
  by_cases hday : 0 ≤ stamp ∧ stamp ≤ 5373484
  · rw [if_pos hday]
    simp [hday, julianText]
  · rw [if_neg hday]
    simp [hday]

/-- A stamp is judged rightly: as a Julian day if it is one, and otherwise because it is not due. -/
def CulledRightly (zone : Zone) (now stamp : Int) : Prop :=
  if 0 ≤ stamp ∧ stamp ≤ 5373484 then julianText stamp ≤ timeSearch zone now ↔ Expired zone now stamp
  else ¬ Expired zone now stamp

instance (zone : Zone) (now stamp : Int) : Decidable (CulledRightly zone now stamp) := by
  unfold CulledRightly
  infer_instance

theorem culledRightly_iff {zone : Zone} {now stamp : Int} :
    CulledRightly zone now stamp ↔
      (datetimeCondition sqliteDatetime stamp (timeSearch zone now) = some true ↔
        Expired zone now stamp) := by
  rw [sqlite_condition_iff]
  unfold CulledRightly
  by_cases hday : 0 ≤ stamp ∧ stamp ≤ 5373484
  · rw [if_pos hday]
    simp [hday]
  · rw [if_neg hday]
    simp [hday]

/-! ### The four sample tables -/

section Statement

variable {α : Type}

/-- The retention rule for a culling at `now`. -/
structure Retention (zone : Zone) (now : Int) (before after : Database α) : Prop where
  disc : Retains DiscRow.timestamp zone now before.disc.rows after.disc.rows
  cpu : Retains CpuRow.timestamp zone now before.cpu.rows after.cpu.rows
  ram : Retains RamRow.timestamp zone now before.ram.rows after.ram.rows
  network : Retains NetworkRow.timestamp zone now before.network.rows after.network.rows

end Statement

variable {α : Type} [JavaLong α]

/-- The databases that runs go through: at a loop head, or between gathering and culling. -/
inductive Reached (platform : Platform) (hw : Hardware α) (start : Int) : Database α → Prop
  | loopHead {rounds : List (Round α)} {state : CrumState α}
      (hrun : runMain platform hw start rounds = .ok state) :
      Reached platform hw start state.database
  | gathered {past : List (Round α)} {round : Round α} {before state : CrumState α}
      (hrun : runMain platform hw start past = .ok before)
      (hgather : gather platform before round = .ok state) :
      Reached platform hw start state.database

theorem Reached.records {platform : Platform} {hw : Hardware α} {start : Int} {db : Database α}
    (h : Reached platform hw start db) : ∃ log : RoundLog α hw.site, Records db log := by
  cases h with
  | loopHead hrun =>
      rcases runMain_inv hrun with ⟨log, hinv, -⟩
      exact ⟨log, hinv.records⟩
  | gathered hrun hgather =>
      rcases runMain_inv hrun with ⟨log, hinv, -⟩
      rcases gather_records hinv hgather with ⟨record, log', -, -, -, hinv', -⟩
      exact ⟨log', hinv'.records⟩

/-- A culling of a reached database keeps the retention rule if and only if each of the stored rounds,
which are as many as the rows of RAM, is judged rightly. -/
theorem retention_iff {platform : Platform} {hw : Hardware α} {start : Int} {db : Database α}
    (hsql : platform.condition = datetimeCondition sqliteDatetime) (h : Reached platform hw start db)
    (now : Int) :
    Retention platform.zone now db (cullDatabase platform.condition platform.zone now db) ↔
      ∀ row ∈ db.ram.rows, CulledRightly platform.zone now row.timestamp := by
  rcases h.records with ⟨log, hlog⟩
  have htable := fun {ρ κ : Type} {key : ρ → κ} (timestamp : ρ → Int) (table : KeyedTable ρ κ key) =>
    retains_deleteWhere_iff timestamp platform.zone now
      (fun stamp => platform.condition stamp (timeSearch platform.zone now)) table
  rw [hsql] at htable ⊢
  constructor
  · intro hretention row hrow
    exact culledRightly_iff.mpr ((htable RamRow.timestamp db.ram).mp hretention.ram row hrow)
  · intro hright
    -- whatever table a row is in, the RAM row of its round has the same stamp
    have hround : ∀ r ∈ log.rows,
        datetimeCondition sqliteDatetime r.stamp (timeSearch platform.zone now) = some true ↔
          Expired platform.zone now r.stamp := by
      intro r hr
      have hram := hright r.ram (hlog.ram.mem_iff.mpr ⟨r, hr, by simp⟩)
      rw [r.ram_of.1] at hram
      exact culledRightly_iff.mp hram
    refine ⟨(htable _ db.disc).mpr ?_, (htable _ db.cpu).mpr ?_, (htable _ db.ram).mpr ?_,
      (htable _ db.network).mpr ?_⟩
    · intro row hrow
      rcases hlog.disc_round hrow with ⟨r, hr, hstamp, -⟩
      rw [hstamp]
      exact hround r hr
    · intro row hrow
      rcases hlog.cpu_round hrow with ⟨r, hr, hstamp, -⟩
      rw [hstamp]
      exact hround r hr
    · intro row hrow
      rcases hlog.ram_round hrow with ⟨r, hr, hstamp, -⟩
      rw [hstamp]
      exact hround r hr
    · intro row hrow
      rcases hlog.network_round hrow with ⟨r, hr, hstamp, -⟩
      rw [hstamp]
      exact hround r hr

/-- One round on 20 April 2021. -/
def aprilRound : Round Int64 := smallRound 1618920001000 1618920001000 0

/-- The database after that round holds its RAM row. -/
theorem april_round_reached :
    ∃ db, Reached utcPlatform smallComputer 1618920000000 db ∧
      db.ram.rows.map (·.timestamp) = [1618920001000] := by
  obtain ⟨state, hrun, hram⟩ := JavaRuntime.exists_of_toOption
    (by decide : (runMain utcPlatform smallComputer 1618920000000 [aprilRound]).toOption.map
      (fun state => state.database.ram.rows.map (·.timestamp)) = some [1618920001000])
  exact ⟨state.database, .loopHead hrun, hram⟩

/-- A minute later nothing is due, and the retention rule holds. -/
theorem retention_after_a_minute :
    ∃ db, Reached utcPlatform smallComputer 1618920000000 db ∧
      Retention .utc 1618920061000 db
        (cullDatabase (datetimeCondition sqliteDatetime) .utc 1618920061000 db) := by
  rcases april_round_reached with ⟨db, hdb, hram⟩
  refine ⟨db, hdb, (retention_iff rfl hdb 1618920061000).mpr ?_⟩
  intro row hrow
  have hstamp : row.timestamp ∈ db.ram.rows.map (·.timestamp) := List.mem_map_of_mem hrow
  rw [hram, List.mem_singleton] at hstamp
  rw [hstamp]
  decide

/-- Two days later the round has been due for a day, and a culling leaves it. -/
theorem old_sample_is_never_culled :
    ∃ db, Reached utcPlatform smallComputer 1618920000000 db ∧
      Expired .utc 1619092801000 1618920001000 ∧
      (cullDatabase utcPlatform.condition .utc 1619092801000 db).ram.rows.map (·.timestamp) =
        [1618920001000] ∧
      ¬ Retention .utc 1619092801000 db
        (cullDatabase utcPlatform.condition .utc 1619092801000 db) := by
  rcases april_round_reached with ⟨db, hdb, hram⟩
  have hall : ∀ row ∈ db.ram.rows, row.timestamp = 1618920001000 := by
    intro row hrow
    have hstamp : row.timestamp ∈ db.ram.rows.map (·.timestamp) := List.mem_map_of_mem hrow
    rw [hram] at hstamp
    exact List.mem_singleton.mp hstamp
  have hexpired : Expired .utc 1619092801000 1618920001000 := by decide
  -- the stored integer is no Julian day, so the condition is NULL
  have hnull : ∀ text, utcPlatform.condition 1618920001000 text = none := fun _ => rfl
  have hleft : (cullDatabase utcPlatform.condition .utc 1619092801000 db).ram.rows = db.ram.rows := by
    simp only [cullDatabase, KeyedTable.deleteWhere_rows]
    rw [List.filter_eq_self]
    intro row hrow
    rw [hall row hrow, hnull]
    rfl
  refine ⟨db, hdb, hexpired, by rw [hleft, hram], ?_⟩
  intro hretention
  have hmem : 1618920001000 ∈ db.ram.rows.map (·.timestamp) := by simp [hram]
  rcases List.mem_map.mp hmem with ⟨row, hrow, hstamp⟩
  have hgone := hretention.ram.1 row (by rw [hleft]; exact hrow)
  rw [hstamp] at hgone
  exact hgone hexpired

end Crum
