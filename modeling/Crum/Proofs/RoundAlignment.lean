/-
Module: Crum.Proofs.RoundAlignment
Layer: Proofs
Purpose: Rounds stay aligned across the sample tables. Whatever the clocks show, at the loop head every
  stamp is carried either by no sample at all or by one row of CPU, RAM and NETWORK and one row of DISC
  for each file store.
Imports: Crum.Proofs.MainLoop
Trusted boundary: none
Main exports: NoSamples, CompleteRound, rounds_aligned
Open obligations: none
-/
import Crum.Proofs.MainLoop

namespace Crum

section Statement

variable {α : Type}

/-- No sample carries the stamp. -/
structure NoSamples (db : Database α) (tau : Int) : Prop where
  disc : ∀ row ∈ db.disc.rows, row.timestamp ≠ tau
  cpu : ∀ row ∈ db.cpu.rows, row.timestamp ≠ tau
  ram : ∀ row ∈ db.ram.rows, row.timestamp ≠ tau
  network : ∀ row ∈ db.network.rows, row.timestamp ≠ tau

/-- The samples with the stamp are a complete round of `n` file stores. -/
structure CompleteRound (db : Database α) (n : Nat) (tau : Int) : Prop where
  disc : (db.disc.rows.filter fun row => row.timestamp = tau).map (·.discId) = List.range n
  cpu : (db.cpu.rows.filter fun row => row.timestamp = tau).length = 1
  ram : (db.ram.rows.filter fun row => row.timestamp = tau).length = 1
  network : (db.network.rows.filter fun row => row.timestamp = tau).length = 1

theorem CompleteRound.exists_ram {db : Database α} {n : Nat} {tau : Int} (h : CompleteRound db n tau) :
    ∃ row ∈ db.ram.rows, row.timestamp = tau := by
  have hone : 0 < (db.ram.rows.filter fun row => row.timestamp = tau).length := by
    rw [h.ram]
    exact Nat.one_pos
  rcases List.exists_mem_of_length_pos hone with ⟨row, hrow⟩
  rcases List.mem_filter.mp hrow with ⟨hmem, hstamp⟩
  exact ⟨row, hmem, of_decide_eq_true hstamp⟩

/-- The tables of a log of complete rounds are aligned. -/
theorem Records.aligned {db : Database α} {site : Site} {log : RoundLog α site} (h : Records db log)
    (tau : Int) : NoSamples db tau ∨ CompleteRound db site.fileStores tau := by
  rcases h.filter_stamp tau with ⟨hdisc, hcpu, hram, hnetwork⟩
  by_cases htau : tau ∈ log.rows.map RoundRecord.stamp
  · right
    rcases List.mem_map.mp htau with ⟨record, hrecord, rfl⟩
    rw [log.filter_key_of_mem hrecord] at hdisc hcpu hram hnetwork
    refine ⟨?_, ?_, ?_, ?_⟩
    · rw [hdisc, List.flatMap_singleton, record.disc_ids]
    · rw [hcpu]
      rfl
    · rw [hram]
      rfl
    · rw [hnetwork]
      rfl
  · left
    rw [log.filter_key_of_notMem htau] at hdisc hcpu hram hnetwork
    refine ⟨?_, ?_, ?_, ?_⟩
    · intro row hrow hstamp
      exact List.filter_eq_nil_iff.mp hdisc row hrow (decide_eq_true hstamp)
    · intro row hrow hstamp
      exact List.filter_eq_nil_iff.mp hcpu row hrow (decide_eq_true hstamp)
    · intro row hrow hstamp
      exact List.filter_eq_nil_iff.mp hram row hrow (decide_eq_true hstamp)
    · intro row hrow hstamp
      exact List.filter_eq_nil_iff.mp hnetwork row hrow (decide_eq_true hstamp)

end Statement

variable {α : Type} [JavaLong α]

/-- At every loop head of every run the four tables are aligned. -/
theorem rounds_aligned {platform : Platform} {hw : Hardware α} {now : Int} {rounds : List (Round α)}
    {state : CrumState α} (h : runMain platform hw now rounds = .ok state) (tau : Int) :
    NoSamples state.database tau ∨ CompleteRound state.database hw.fileStores.length tau := by
  rcases runMain_inv h with ⟨log, hinv, -⟩
  exact hinv.records.aligned tau

/-- Two rounds, between which the clock has gone back by a second. -/
def backwardRounds : List (Round Int64) :=
  [smallRound 1618920002000 1618920002000 0, smallRound 1618920001000 1618920001000 0]

/-- After both of them the tables hold two complete rounds, and nothing in between. -/
theorem rounds_aligned_backward :
    ∃ state, runMain utcPlatform smallComputer 1618920000000 backwardRounds = .ok state ∧
      CompleteRound state.database 1 1618920001000 ∧ CompleteRound state.database 1 1618920002000 ∧
      NoSamples state.database 1618920001500 := by
  obtain ⟨state, hrun, hstamps⟩ := JavaRuntime.exists_of_toOption
    (by decide : (runMain utcPlatform smallComputer 1618920000000 backwardRounds).toOption.map
      (fun state => state.database.ram.rows.map (·.timestamp)) = some [1618920002000, 1618920001000])
  have hround : ∀ tau ∈ state.database.ram.rows.map (·.timestamp), CompleteRound state.database 1 tau := by
    intro tau htau
    rcases List.mem_map.mp htau with ⟨row, hrow, hstamp⟩
    rcases rounds_aligned hrun tau with hnone | hround
    · exact absurd hstamp (hnone.ram row hrow)
    · exact hround
  rw [hstamps] at hround
  refine ⟨state, hrun, hround _ (by decide), hround _ (by decide), ?_⟩
  rcases rounds_aligned hrun 1618920001500 with hnone | hbetween
  · exact hnone
  · have hram := List.mem_map.mpr hbetween.exists_ram
    rw [hstamps] at hram
    exact absurd hram (by decide)

end Crum
