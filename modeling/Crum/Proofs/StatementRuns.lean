/-
Module: Crum.Proofs.StatementRuns
Layer: Proofs
Purpose: The database between two statements of an iteration. The statements one after the other are the
  iteration, exceptions included. A census counts the rows with one stamp; every statement changes it in
  one place, so that it is known at every instant of a run, whether the program goes on from there, is
  killed there or has been stopped there by an exception.
Imports: Crum.Core.Statements, Crum.Proofs.RoundAlignment
Trusted boundary: none
Main exports: run_script, Census, exec_census, InstantCensus, LoopInv.instant, every_instant,
  stopped_iteration
Open obligations: none
-/
import Crum.Core.Statements
import Crum.Proofs.RoundAlignment

namespace Crum

open JavaRuntime Run

variable {α : Type} [JavaLong α]

/-! ### The statements are the iteration -/

/-- The list of the polls so far is only collected. -/
theorem pollStore_polled (calendar : Int) (serialNum : String) (samples : Nat → StoreSamples α) (i : Nat)
    (state : PollState α) :
    pollStore calendar serialNum samples i state =
      (fun after => { after with polled := state.polled ++ after.polled }) <$>
        pollStore calendar serialNum samples i { state with polled := [] } := by
  simp only [pollStore, map_bind, map_pure, List.nil_append]

/-- The state with what the loop of `getDiskData` has changed. -/
def CrumState.withDisk (state : CrumState α) (polled : PollState α) : CrumState α :=
  { state with
    diskData := polled.disk
    database := { state.database with disc := polled.table } }

/-- The inserts into DISC are the loop of `getDiskData`. -/
theorem run_insertDisc (platform : Platform) (round : Round α) (state : CrumState α) (n : Nat) :
    run (exec platform round) state ((List.range n).map .insertDisc) =
      state.withDisk <$> forRange n (pollStore round.calendar state.serialNum round.disk)
        { disk := state.diskData, table := state.database.disc, polled := [] } := by
  induction n with
  | zero => rfl
  | succ n ih =>
      rw [List.range_succ, List.map_append, run_append, ih, forRange_succ, map_bind, bind_map_left]
      congr 1
      funext polled
      rw [pollStore_polled, List.map_singleton, run_singleton, exec, bind_pure_comp, Functor.map_map]
      rfl

/-- An iteration is the run of its script. -/
theorem iteration_eq_run (platform : Platform) (state : CrumState α) (round : Round α) :
    iteration platform state round =
      run (exec platform round) state (script state.diskData.entries.length) := by
  rw [script, inserts, run_append, run_append, run_insertDisc, iteration, gather, getDiskData]
  simp only [deletes, run_cons, exec, bind_assoc, bind_map_left, pure_bind, run_nil]
  rfl

/-- The script, statement by statement, is the iteration: it completes with the same state or is stopped
by the same exception. -/
theorem run_script (platform : Platform) (round : Round α) (state : CrumState α) :
    run (exec platform round) state (script state.diskData.entries.length) =
      iteration platform state round :=
  (iteration_eq_run platform state round).symm

/-! ### A census of one stamp -/

/-- The rows with one stamp: the values of `DISC_ID` in order, and how many rows the other sample tables
have. -/
@[ext]
structure Census where
  disc : List Nat
  cpu : Nat
  ram : Nat
  network : Nat
deriving Repr, DecidableEq

namespace Census

def none : Census := ⟨[], 0, 0, 0⟩

def complete (n : Nat) : Census := ⟨List.range n, 1, 1, 1⟩

/-- After `k` of the inserts of a round. -/
def arrived (n k : Nat) : Census where
  disc := List.range (min k n)
  cpu := if n < k then 1 else 0
  ram := if n + 1 < k then 1 else 0
  network := if n + 2 < k then 1 else 0

/-- After `k` of the deletes of a culling, the first of which is for MACHINE. -/
def leaving (n k : Nat) : Census where
  disc := if 1 < k then [] else List.range n
  cpu := if 2 < k then 0 else 1
  ram := if 3 < k then 0 else 1
  network := if 4 < k then 0 else 1

/-- The rows of one census after those of another. -/
def plus (c d : Census) : Census := ⟨c.disc ++ d.disc, c.cpu + d.cpu, c.ram + d.ram, c.network + d.network⟩

/-- What a statement does to the census of a stamp: it is the stamp that rows are inserted under, or the
deletes are true of it. -/
def exec (arrives expires : Bool) (c : Census) : Statement → Census
  | .insertDisc i => if arrives then { c with disc := c.disc ++ [i] } else c
  | .insertCpu => if arrives then { c with cpu := c.cpu + 1 } else c
  | .insertRam => if arrives then { c with ram := c.ram + 1 } else c
  | .insertNetwork => if arrives then { c with network := c.network + 1 } else c
  | .deleteMachine => c
  | .deleteDisc => if expires then { c with disc := [] } else c
  | .deleteCpu => if expires then { c with cpu := 0 } else c
  | .deleteRam => if expires then { c with ram := 0 } else c
  | .deleteNetwork => if expires then { c with network := 0 } else c
  | .refresh => c

@[simp] theorem none_plus (c : Census) : none.plus c = c := by
  simp [plus, none]

theorem arrived_complete {n k : Nat} (hk : n + 3 ≤ k) : arrived n k = complete n := by
  have hmin : min k n = n := min_eq_right (by omega)
  simp [arrived, complete, hmin, show n < k by omega, show n + 1 < k by omega, show n + 2 < k by omega]

/-! Statements that neither insert under the stamp nor delete it leave its census alone. -/

theorem exec_insert_of_other {expires : Bool} {c : Census} {n : Nat} {statement : Statement}
    (h : statement ∈ inserts n) : c.exec false expires statement = c := by
  rw [inserts, List.mem_append, List.mem_map] at h
  rcases h with ⟨i, -, rfl⟩ | h
  · rfl
  · fin_cases h <;> rfl

theorem exec_delete_of_live {arrives : Bool} {c : Census} {statement : Statement}
    (h : statement ∈ deletes) : c.exec arrives false statement = c := by
  fin_cases h <;> rfl

theorem exec_delete_none {arrives expires : Bool} {statement : Statement} (h : statement ∈ deletes) :
    none.exec arrives expires statement = none := by
  cases expires with
  | false => exact exec_delete_of_live h
  | true => fin_cases h <;> rfl

/-- Statements that each leave a census alone leave it alone together. -/
theorem foldl_exec_fixed {arrives expires : Bool} {c : Census} {statements : List Statement}
    (h : ∀ statement ∈ statements, c.exec arrives expires statement = c) :
    statements.foldl (exec arrives expires) c = c := by
  induction statements with
  | nil => rfl
  | cons statement statements ih =>
      rw [List.forall_mem_cons] at h
      rw [List.foldl_cons, h.1]
      exact ih h.2

/-- The inserts into DISC. -/
theorem foldl_insertDisc (expires : Bool) (c : Census) (n : Nat) :
    ((List.range n).map Statement.insertDisc).foldl (exec true expires) c =
      { c with disc := c.disc ++ List.range n } := by
  induction n with
  | zero => simp
  | succ n ih =>
      rw [List.range_succ, List.map_append, List.foldl_append, ih]
      simp [exec]

/-- The inserts so far. -/
theorem foldl_inserts (expires : Bool) (c : Census) (n k : Nat) :
    ((inserts n).take k).foldl (exec true expires) c = c.plus (arrived n k) := by
  rw [inserts, List.take_append, List.foldl_append, ← List.map_take, List.take_range,
    foldl_insertDisc, List.length_map, List.length_range]
  rcases Nat.lt_or_ge n k with hlt | hge
  · obtain ⟨j, rfl⟩ : ∃ j, k = n + 1 + j := ⟨k - (n + 1), by omega⟩
    have hrest : n + 1 + j - n = j + 1 := by omega
    have hmin : min (n + 1 + j) n = n := min_eq_right (by omega)
    rw [hrest, hmin]
    rcases j with _ | _ | j
    · simp [exec, arrived, plus]
    · simp [exec, arrived, plus, hmin]
    · have hcpu : n < n + 1 + (j + 1 + 1) := by omega
      have hram : n + 1 < n + 1 + (j + 1 + 1) := by omega
      have hnetwork : n + 2 < n + 1 + (j + 1 + 1) := by omega
      simp [exec, arrived, plus, hmin, hcpu, hram, hnetwork]
  · have hrest : k - n = 0 := by omega
    have hcpu : ¬ n < k := by omega
    have hram : ¬ n + 1 < k := by omega
    have hnetwork : ¬ n + 2 < k := by omega
    simp [hrest, arrived, plus, hcpu, hram, hnetwork]

/-- The deletes so far, of a stamp with a complete round. -/
theorem foldl_deletes (arrives : Bool) (n k : Nat) :
    (deletes.take k).foldl (exec arrives true) (complete n) = leaving n k := by
  rcases k with _ | _ | _ | _ | _ | _ | k
  all_goals simp [deletes, exec, leaving, complete]

end Census

def Database.census (db : Database α) (tau : Int) : Census where
  disc := (db.disc.rows.filter fun row => row.timestamp = tau).map (·.discId)
  cpu := (db.cpu.rows.filter fun row => row.timestamp = tau).length
  ram := (db.ram.rows.filter fun row => row.timestamp = tau).length
  network := (db.network.rows.filter fun row => row.timestamp = tau).length

section Alignment

variable {α : Type}

theorem noSamples_iff_census {db : Database α} {tau : Int} :
    NoSamples db tau ↔ db.census tau = .none := by
  rw [Census.ext_iff]
  simp only [Database.census, Census.none, List.map_eq_nil_iff, List.length_eq_zero_iff,
    List.filter_eq_nil_iff, decide_eq_true_eq]
  constructor
  · intro h
    exact ⟨h.disc, h.cpu, h.ram, h.network⟩
  · rintro ⟨hdisc, hcpu, hram, hnetwork⟩
    exact ⟨hdisc, hcpu, hram, hnetwork⟩

theorem completeRound_iff_census {db : Database α} {n : Nat} {tau : Int} :
    CompleteRound db n tau ↔ db.census tau = .complete n := by
  rw [Census.ext_iff]
  constructor
  · intro h
    exact ⟨h.disc, h.cpu, h.ram, h.network⟩
  · rintro ⟨hdisc, hcpu, hram, hnetwork⟩
    exact ⟨hdisc, hcpu, hram, hnetwork⟩

end Alignment

/-! ### What a statement does -/

/-- An inserted row counts under its own stamp. -/
theorem filter_inserted {ρ : Type} (stamp : ρ → Int) {rows after : List ρ} {row : ρ}
    (hrows : after = rows ++ [row]) (tau : Int) :
    (after.filter fun r => stamp r = tau) =
      (rows.filter fun r => stamp r = tau) ++ if stamp row = tau then [row] else [] := by
  rw [hrows, List.filter_append, List.filter_singleton]
  simp

/-- Every statement changes the census of a stamp in the one place where it inserts or deletes. -/
theorem exec_census {platform : Platform} {round : Round α} {state after : CrumState α}
    {statement : Statement} (h : exec platform round state statement = .ok after) (tau : Int) :
    after.database.census tau = (state.database.census tau).exec (decide (round.calendar = tau))
      (judge platform round tau = some true) statement := by
  cases statement with
  | insertDisc i =>
      simp only [exec, bind_eq_ok_iff] at h
      rcases h with ⟨polled, hpoll, hafter⟩
      obtain rfl := Except.ok.inj hafter
      rcases pollStore_eq_ok_iff.mp hpoll with ⟨entry, j, currDisk, poll, table, -, -, -, rfl, -, hrows, rfl⟩
      have hfilter := filter_inserted DiscRow.timestamp hrows tau
      simp only [Database.census, Census.exec, stateAfter, hfilter]
      split <;> simp_all [measureStore, discRow]
  | insertCpu =>
      simp only [exec, bind_eq_ok_iff] at h
      rcases h with ⟨cpu, hcpu, hafter⟩
      obtain rfl := Except.ok.inj hafter
      rcases getCPUData_rows hcpu with ⟨usage, hrows⟩
      have hfilter := filter_inserted CpuRow.timestamp hrows tau
      simp only [Database.census, Census.exec, hfilter]
      split <;> simp_all [cpuRow]
  | insertRam =>
      simp only [exec, bind_eq_ok_iff] at h
      rcases h with ⟨ram, hram, hafter⟩
      obtain rfl := Except.ok.inj hafter
      have hfilter := filter_inserted RamRow.timestamp (getMemoryData_rows hram).2 tau
      simp only [Database.census, Census.exec, hfilter]
      split <;> simp_all [ramRow]
  | insertNetwork =>
      simp only [exec, bind_eq_ok_iff] at h
      rcases h with ⟨network, hnetwork, hafter⟩
      obtain rfl := Except.ok.inj hafter
      have hfilter := filter_inserted NetworkRow.timestamp
        (getNetworkData_eq_ok_iff.mp hnetwork).2.2 tau
      simp only [Database.census, Census.exec, hfilter]
      split <;> simp_all [networkRow]
  | deleteMachine =>
      obtain rfl := Except.ok.inj h
      rfl
  | deleteDisc =>
      obtain rfl := Except.ok.inj h
      have hfilter := state.database.disc.filter_deleteWhere DiscRow.timestamp (judge platform round) tau
      simp only [Database.census, Census.exec, hfilter]
      split <;> simp_all
  | deleteCpu =>
      obtain rfl := Except.ok.inj h
      have hfilter := state.database.cpu.filter_deleteWhere CpuRow.timestamp (judge platform round) tau
      simp only [Database.census, Census.exec, hfilter]
      split <;> simp_all
  | deleteRam =>
      obtain rfl := Except.ok.inj h
      have hfilter := state.database.ram.filter_deleteWhere RamRow.timestamp (judge platform round) tau
      simp only [Database.census, Census.exec, hfilter]
      split <;> simp_all
  | deleteNetwork =>
      obtain rfl := Except.ok.inj h
      have hfilter :=
        state.database.network.filter_deleteWhere NetworkRow.timestamp (judge platform round) tau
      simp only [Database.census, Census.exec, hfilter]
      split <;> simp_all
  | refresh =>
      obtain rfl := Except.ok.inj h
      rfl

/-- The census after some statements. -/
theorem run_census {platform : Platform} {round : Round α} {state after : CrumState α}
    {statements : List Statement} (h : run (exec platform round) state statements = .ok after) (tau : Int) :
    after.database.census tau = statements.foldl
      (Census.exec (decide (round.calendar = tau)) (judge platform round tau = some true))
      (state.database.census tau) := by
  refine run_invariant (fun past now => now.database.census tau = past.foldl
    (Census.exec (decide (round.calendar = tau)) (judge platform round tau = some true))
    (state.database.census tau)) rfl ?_ h
  intro past now statement next hnow hstep
  rw [exec_census hstep, hnow, List.foldl_append]
  rfl

@[simp] theorem length_inserts (n : Nat) : (inserts n).length = n + 3 := by
  simp [inserts]

theorem take_script (n k : Nat) :
    (script n).take k = (inserts n).take k ++ deletes.take (k - (n + 3)) := by
  rw [script, List.take_append, length_inserts]

/-! ### Every instant of an iteration -/

/-- A stamp that the deletes are true of loses its round table by table. -/
def Census.culled (n k : Nat) (expires : Prop) [Decidable expires] (c : Census) : Census :=
  if expires ∧ c = .complete n then .leaving n k else c

/-- While the gathering methods insert. -/
theorem Census.while_inserting {n k : Nat} (arrives expires : Bool) (c : Census) (hk : k ≤ n + 3) :
    ((script n).take k).foldl (Census.exec arrives expires) c =
      if arrives then c.plus (.arrived n k) else c := by
  have hnone : k - (n + 3) = 0 := by omega
  rw [take_script, hnone, List.take_zero, List.append_nil]
  cases arrives with
  | true => exact foldl_inserts expires c n k
  | false => exact foldl_exec_fixed fun statement h => exec_insert_of_other (List.mem_of_mem_take h)

/-- Once all inserts are in, the stamp they were under has a complete round, if it had no rows. -/
theorem Census.after_inserts {n : Nat} {arrives expires : Bool} {c : Census}
    (hfresh : arrives = true → c = .none) :
    (inserts n).foldl (Census.exec arrives expires) c = if arrives then .complete n else c := by
  have hall := Census.while_inserting arrives expires c (le_refl (n + 3))
  rw [take_script, Nat.sub_self, List.take_zero, List.append_nil,
    List.take_of_length_le (length_inserts n).le, Census.arrived_complete le_rfl] at hall
  rw [hall]
  split
  · next harrives => rw [hfresh harrives, Census.none_plus]
  · rfl

/-- While `cullDatabase` deletes, from a census with a complete round or none. -/
theorem Census.while_deleting {n k : Nat} {arrives expires : Bool} {c : Census}
    (hc : c = .none ∨ c = .complete n) :
    (deletes.take k).foldl (Census.exec arrives expires) c = c.culled n k (expires = true) := by
  cases expires with
  | false =>
      rw [Census.culled, if_neg (by simp)]
      exact foldl_exec_fixed fun statement h => exec_delete_of_live (List.mem_of_mem_take h)
  | true =>
      rcases hc with rfl | rfl
      · have hne : ¬ (true = true ∧ Census.none = .complete n) := by simp [Census.none, Census.complete]
        rw [Census.culled, if_neg hne]
        exact foldl_exec_fixed fun statement h => exec_delete_none (List.mem_of_mem_take h)
      · rw [Census.culled, if_pos ⟨rfl, rfl⟩]
        exact foldl_deletes arrives n k

/-- The row of file store 0 in a kept round has the key that the first insert finds free. -/
theorem insertDisc_new {platform : Platform} {site : Site} {log : RoundLog α site}
    {before after : CrumState α} {round : Round α} (hinv : LoopInv site log before)
    (hstores : 0 < site.fileStores) (h : exec platform round before (.insertDisc 0) = .ok after) :
    ¬ CompleteRound before.database site.fileStores round.calendar := by
  intro hround
  simp only [exec, bind_eq_ok_iff] at h
  rcases h with ⟨polled, hpoll, -⟩
  rcases pollStore_eq_ok_iff.mp hpoll with ⟨entry, j, currDisk, poll, table, -, -, -, rfl, hfree, -, -⟩
  apply hfree
  have hzero : 0 ∈ (before.database.disc.rows.filter
      fun row => row.timestamp = round.calendar).map (·.discId) := by
    rw [hround.disc]
    exact List.mem_range.mpr hstores
  rcases List.mem_map.mp hzero with ⟨row, hrow, hid⟩
  rcases List.mem_filter.mp hrow with ⟨hmem, hstamp⟩
  rcases hinv.records.disc_round hmem with ⟨-, -, -, hmachine⟩
  refine List.mem_map.mpr ⟨row, hmem, ?_⟩
  simp [DiscRow.key, measureStore, discRow, hid, hmachine, hinv.serialNum_eq, of_decide_eq_true hstamp]

/-- The RAM row of a kept round has the key that the insert into RAM finds free. -/
theorem insertRam_new {platform : Platform} {site : Site} {log : RoundLog α site}
    {before first after : CrumState α} {round : Round α} (hinv : LoopInv site log before)
    (hcpu : exec platform round before .insertCpu = .ok first)
    (hram : exec platform round first .insertRam = .ok after) :
    ¬ CompleteRound before.database site.fileStores round.calendar := by
  intro hround
  simp only [exec, bind_eq_ok_iff] at hcpu hram
  rcases hcpu with ⟨cpu, -, hfirst⟩
  obtain rfl := Except.ok.inj hfirst
  rcases hram with ⟨ram, hram, -⟩
  have hfree := (getMemoryData_rows hram).1
  rcases hround.exists_ram with ⟨row, hmem, hstamp⟩
  rcases hinv.records.ram_round hmem with ⟨r, hr, hrstamp, -⟩
  rw [hinv.numMemModules_eq, hinv.serialNum_eq] at hfree
  exact hinv.records.stamp_new hfree (List.mem_map.mpr ⟨r, hr, hrstamp.symm.trans hstamp⟩)

/-- Nothing carries the calendar value of a round once its first row is in DISC or, without file stores, its
row is in RAM. -/
theorem calendar_new {platform : Platform} {site : Site} {log : RoundLog α site}
    {before now : CrumState α} {round : Round α} {k : Nat} (hinv : LoopInv site log before)
    (hk : 0 < k ∧ 0 < site.fileStores ∨ 1 < k)
    (h : run (exec platform round) before ((script site.fileStores).take k) = .ok now) :
    before.database.census round.calendar = .none := by
  rcases hinv.records.aligned round.calendar with hnone | hround
  · exact noSamples_iff_census.mp hnone
  · exfalso
    obtain ⟨k, rfl⟩ : ∃ j, k = j + 1 := ⟨k - 1, by omega⟩
    rcases Nat.eq_zero_or_pos site.fileStores with hnone | hstores
    · obtain ⟨k, rfl⟩ : ∃ j, k = j + 1 := ⟨k - 1, by omega⟩
      have hhead : (script site.fileStores).take (k + 1 + 1) =
          .insertCpu :: .insertRam :: ((script site.fileStores).drop 2).take k := by
        rw [hnone]
        rfl
      rw [hhead, run_cons, bind_eq_ok_iff] at h
      rcases h with ⟨first, hcpu, h⟩
      rw [run_cons, bind_eq_ok_iff] at h
      rcases h with ⟨second, hram, -⟩
      exact insertRam_new hinv hcpu hram hround
    · obtain ⟨n, hn⟩ : ∃ n, site.fileStores = n + 1 := ⟨site.fileStores - 1, by omega⟩
      have hhead : (script site.fileStores).take (k + 1) =
          .insertDisc 0 :: (script site.fileStores).tail.take k := by
        rw [hn, script, inserts, List.range_succ_eq_map]
        rfl
      rw [hhead, run_cons, bind_eq_ok_iff] at h
      rcases h with ⟨first, hfirst, -⟩
      exact insertDisc_new hinv hstores hfirst hround

/-- The census at every instant of the iteration after `before`: up to the last insert the round of the
iteration grows row by row, afterwards the rounds that the culling is true of go table by table. Only
without file stores, and only as far as CPU, a round can grow next to an earlier one with its stamp. -/
structure InstantCensus (n : Nat) (platform : Platform) (round : Round α) (before : Database α) (k : Nat)
    (now : Database α) (tau : Int) : Prop where
  aligned : before.census tau = .none ∨ before.census tau = .complete n
  fresh : tau = round.calendar → 0 < k ∧ 0 < n ∨ 1 < k → before.census tau = .none
  inserting : k ≤ n + 3 →
    now.census tau = if tau = round.calendar then (before.census tau).plus (.arrived n k)
      else before.census tau
  deleting : n + 3 ≤ k →
    now.census tau = (if tau = round.calendar then .complete n else before.census tau).culled n
      (k - (n + 3)) (judge platform round tau = some true)

/-- The census at every instant of an iteration that starts with complete rounds. -/
theorem LoopInv.instant {platform : Platform} {site : Site} {log : RoundLog α site}
    {before now : CrumState α} {round : Round α} {k : Nat} (hinv : LoopInv site log before)
    (h : run (exec platform round) before ((script site.fileStores).take k) = .ok now) (tau : Int) :
    InstantCensus site.fileStores platform round before.database k now.database tau := by
  have haligned : before.database.census tau = .none ∨
      before.database.census tau = .complete site.fileStores := by
    rcases hinv.records.aligned tau with hnone | hround
    · exact Or.inl (noSamples_iff_census.mp hnone)
    · exact Or.inr (completeRound_iff_census.mp hround)
  have hfresh : tau = round.calendar → 0 < k ∧ 0 < site.fileStores ∨ 1 < k →
      before.database.census tau = .none := by
    rintro rfl hk
    exact calendar_new hinv hk h
  have hcensus := run_census h tau
  refine ⟨haligned, hfresh, ?_, ?_⟩
  · intro hk
    rw [hcensus, Census.while_inserting _ _ _ hk]
    simp only [decide_eq_true_eq, @eq_comm _ round.calendar tau]
  · intro hk
    have hinserted : (inserts site.fileStores).take k = inserts site.fileStores :=
      List.take_of_length_le ((length_inserts _).trans_le hk)
    rw [hcensus, take_script, hinserted, List.foldl_append,
      Census.after_inserts fun harrives => hfresh (of_decide_eq_true harrives).symm (by omega),
      Census.while_deleting (n := site.fileStores)]
    · simp only [decide_eq_true_eq, @eq_comm _ round.calendar tau]
    · split
      · exact Or.inr rfl
      · exact haligned

end Crum
