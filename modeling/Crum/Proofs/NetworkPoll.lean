/-
Module: Crum.Proofs.NetworkPoll
Layer: Proofs
Purpose: One poll of the network in terms of the pending differences, counter less baseline, of the
  interfaces. Both directions obey one law: the total is the clamped sum of the running sums of the
  differences, and the differences that are still pending afterwards are their leftover. All other
  statements about the network follow from this.
Imports: Crum.Lib.CarryChain, Crum.Lib.LongRange, Crum.Core.Network
Trusted boundary: none
Main exports: Direction, pending, pending_pollInterfaces, total_pollInterfaces, getNetworkData_eq_ok_iff,
  CallsCompleted.after, traffic_toInt
Open obligations: none
-/
import Crum.Lib.CarryChain
import Crum.Lib.LongRange
import Crum.Core.Network

namespace Crum

open CarryChain JavaLong JavaRuntime

/-- The two directions of traffic, which the loop treats alike. -/
inductive Direction where
  | inbound
  | outbound
deriving Repr, DecidableEq

section Accessors

variable {α : Type}

def NetworkIF.counter (netIF : NetworkIF α) : Direction → α
  | .inbound => netIF.bytesRecv
  | .outbound => netIF.bytesSent

def NetworkEntry.baseline (entry : NetworkEntry α) : Direction → α
  | .inbound => entry.baselineBytesIn
  | .outbound => entry.baselineBytesOut

def NetworkTotals.total (totals : NetworkTotals α) : Direction → α
  | .inbound => totals.totalInbound
  | .outbound => totals.totalOutbound

def NetworkTotals.current (totals : NetworkTotals α) : Direction → α
  | .inbound => totals.currentIn
  | .outbound => totals.currentOut

def Network.baselines (net : Network α) : Direction → List α
  | .inbound => net.baselineBytesIn
  | .outbound => net.baselineBytesOut

def NetworkRow.traffic (row : NetworkRow α) : Direction → α
  | .inbound => row.inboundTraffic
  | .outbound => row.outboundTraffic

/-- The counters of the first `n` interfaces of a reading. -/
def counters (dir : Direction) (fresh : Nat → NetworkIF α) (n : Nat) : List α :=
  (List.range n).map fun i => (fresh i).counter dir

theorem Network.baselines_eq (net : Network α) (dir : Direction) :
    net.baselines dir = net.entries.map (·.baseline dir) := by
  cases dir <;> rfl

@[simp] theorem length_counters (dir : Direction) (fresh : Nat → NetworkIF α) (n : Nat) :
    (counters dir fresh n).length = n := by
  simp [counters]

end Accessors

variable {α : Type} [LawfulJavaLong α]

@[simp] theorem NetworkTotals.start_current (dir : Direction) :
    (NetworkTotals.start : NetworkTotals α).current dir = 0 := by
  cases dir <;> rfl

@[simp] theorem NetworkTotals.start_total (dir : Direction) :
    (NetworkTotals.start : NetworkTotals α).total dir = 0 := by
  cases dir <;> rfl

/-- What every interface still has to account for: its counter less its baseline. -/
def pending (dir : Direction) (fresh : Nat → NetworkIF α) (entries : List (NetworkEntry α)) : List α :=
  entries.mapIdx fun i entry => (fresh i).counter dir - entry.baseline dir

theorem pending_cons (dir : Direction) (fresh : Nat → NetworkIF α) (entry : NetworkEntry α)
    (entries : List (NetworkEntry α)) :
    pending dir fresh (entry :: entries) =
      ((fresh 0).counter dir - entry.baseline dir) :: pending dir (fun i => fresh (i + 1)) entries := by
  simp [pending, List.mapIdx_cons]

@[simp] theorem length_pending (dir : Direction) (fresh : Nat → NetworkIF α)
    (entries : List (NetworkEntry α)) : (pending dir fresh entries).length = entries.length := by
  simp [pending]

/-- Only the counters of a reading matter for what is pending. -/
theorem pending_congr {dir : Direction} {fresh fresh' : Nat → NetworkIF α}
    {entries : List (NetworkEntry α)}
    (h : ∀ i < entries.length, (fresh i).counter dir = (fresh' i).counter dir) :
    pending dir fresh entries = pending dir fresh' entries := by
  apply List.ext_getElem
  · rw [length_pending, length_pending]
  · intro i hi hi'
    rw [length_pending] at hi
    simp only [pending, List.getElem_mapIdx]
    rw [h i hi]

/-! ### One iteration -/

theorem pollInterface_current (dir : Direction) (fresh : NetworkIF α) (totals : NetworkTotals α)
    (entry : NetworkEntry α) :
    (pollInterface fresh totals entry).1.current dir =
      totals.current dir + (fresh.counter dir - entry.baseline dir) := by
  cases dir <;> rfl

theorem pollInterface_total (dir : Direction) (fresh : NetworkIF α) (totals : NetworkTotals α)
    (entry : NetworkEntry α) :
    (pollInterface fresh totals entry).1.total dir =
      clampTotal (totals.total dir +
        (totals.current dir + (fresh.counter dir - entry.baseline dir))) := by
  cases dir <;> rfl

theorem pollInterface_baseline (dir : Direction) (fresh : NetworkIF α) (totals : NetworkTotals α)
    (entry : NetworkEntry α) :
    (pollInterface fresh totals entry).2.baseline dir =
      entry.baseline dir + (totals.current dir + (fresh.counter dir - entry.baseline dir)) := by
  cases dir <;> rfl

/-! ### The whole loop -/

theorem length_pollInterfaces (fresh : Nat → NetworkIF α) (totals : NetworkTotals α)
    (entries : List (NetworkEntry α)) :
    (pollInterfaces fresh totals entries).2.length = entries.length := by
  induction entries generalizing fresh totals with
  | nil => rfl
  | cons entry entries ih => simp [pollInterfaces, ih]

/-- The final total is the clamped sum of the running sums of what was pending. -/
theorem total_pollInterfaces (dir : Direction) (fresh : Nat → NetworkIF α) (totals : NetworkTotals α)
    (entries : List (NetworkEntry α)) :
    (pollInterfaces fresh totals entries).1.total dir =
      clampedSum JavaLong.isNeg (totals.total dir)
        (runningSums (totals.current dir) (pending dir fresh entries)) := by
  induction entries generalizing fresh totals with
  | nil => rfl
  | cons entry entries ih =>
      have hrest := ih (fun i => fresh (i + 1)) (pollInterface (fresh 0) totals entry).1
      rw [pollInterface_total, pollInterface_current] at hrest
      rw [pending_cons, runningSums, clampedSum]
      exact hrest

/-- What is pending after the loop, if the counters stood still, is the leftover of what was pending
before it: the baseline of an interface also takes the differences of all earlier interfaces. -/
theorem pending_pollInterfaces (dir : Direction) (fresh : Nat → NetworkIF α) (totals : NetworkTotals α)
    (entries : List (NetworkEntry α)) :
    pending dir fresh (pollInterfaces fresh totals entries).2 =
      leftover (totals.current dir) (pending dir fresh entries) := by
  induction entries generalizing fresh totals with
  | nil => rfl
  | cons entry entries ih =>
      have hrest := ih (fun i => fresh (i + 1)) (pollInterface (fresh 0) totals entry).1
      rw [pollInterface_current] at hrest
      have hhead : (fresh 0).counter dir - (pollInterface (fresh 0) totals entry).2.baseline dir =
          -totals.current dir := by
        rw [pollInterface_baseline]
        abel
      rw [pollInterfaces, pending_cons, pending_cons, leftover, hhead, hrest]

/-- The pending differences as a difference of the two arrays. -/
theorem pending_eq_zipWith (dir : Direction) (fresh : Nat → NetworkIF α)
    (entries : List (NetworkEntry α)) :
    pending dir fresh entries =
      List.zipWith (· - ·) (counters dir fresh entries.length) (entries.map (·.baseline dir)) := by
  apply List.ext_getElem
  · simp
  · intro i hi hi'
    simp [pending, counters]

/-- Nothing is pending exactly when every baseline equals its counter. -/
theorem pending_all_zero_iff (dir : Direction) (fresh : Nat → NetworkIF α)
    (entries : List (NetworkEntry α)) :
    (∀ d ∈ pending dir fresh entries, d = 0) ↔
      entries.map (·.baseline dir) = counters dir fresh entries.length := by
  induction entries generalizing fresh with
  | nil => simp [pending, counters]
  | cons entry entries ih =>
      have hcounters : counters dir fresh (entry :: entries).length =
          (fresh 0).counter dir :: counters dir (fun i => fresh (i + 1)) entries.length := by
        simp [counters, List.range_succ_eq_map, Function.comp_def]
      rw [pending_cons, List.forall_mem_cons, ih, hcounters, List.map_cons, List.cons.injEq,
        sub_eq_zero, eq_comm]

/-! ### Calls and runs -/

theorem pollNetwork_length (net : Network α) (fresh : Nat → NetworkIF α) :
    (pollNetwork net fresh).2.entries.length = net.entries.length :=
  length_pollInterfaces fresh .start net.entries

theorem pending_pollNetwork (dir : Direction) (net : Network α) (fresh : Nat → NetworkIF α) :
    pending dir fresh (pollNetwork net fresh).2.entries =
      leftover 0 (pending dir fresh net.entries) := by
  have h := pending_pollInterfaces dir fresh .start net.entries
  rwa [NetworkTotals.start_current] at h

theorem total_pollNetwork (dir : Direction) (net : Network α) (fresh : Nat → NetworkIF α) :
    (pollNetwork net fresh).1.total dir =
      clampedSum JavaLong.isNeg 0 (runningSums 0 (pending dir fresh net.entries)) := by
  have h := total_pollInterfaces dir fresh .start net.entries
  rwa [NetworkTotals.start_current, NetworkTotals.start_total] at h

theorem Network.after_length (net : Network α) (reads : Nat → Nat → NetworkIF α) (k : Nat) :
    (net.after reads k).entries.length = net.entries.length := by
  induction k with
  | zero => rfl
  | succ k ih => rw [Network.after, pollNetwork_length, ih]

omit [LawfulJavaLong α] in
/-- A call that returns has made the poll and appended its row. -/
theorem getNetworkData_eq_ok_iff [JavaLong α] {calendar : Int} {serialNum : String}
    {net : Network α} {fresh : Nat → NetworkIF α} {table : NetworkTable α}
    {result : Network α × NetworkTable α} :
    getNetworkData calendar serialNum net fresh table = .ok result ↔
      (networkRow calendar serialNum (pollNetwork net fresh).1).key ∉
          table.rows.map NetworkRow.key ∧
        result.1 = (pollNetwork net fresh).2 ∧
        result.2.rows = table.rows ++ [networkRow calendar serialNum (pollNetwork net fresh).1] := by
  obtain ⟨after, table'⟩ := result
  simp only [getNetworkData, bind_eq_ok_iff, execute_eq_ok_iff, pure, Except.pure, Except.ok.injEq,
    Prod.mk.injEq]
  constructor
  · rintro ⟨inserted, ⟨hkey, hrows⟩, rfl, rfl⟩
    exact ⟨hkey, rfl, hrows⟩
  · rintro ⟨hkey, rfl, hrows⟩
    exact ⟨table', ⟨hkey, hrows⟩, rfl, rfl⟩

omit [LawfulJavaLong α] in
/-- A call returns as long as no row carries its calendar value. -/
theorem getNetworkData_returns [JavaLong α] {calendar : Int} {table : NetworkTable α} (serialNum : String)
    (net : Network α) (fresh : Nat → NetworkIF α)
    (hfree : ∀ row ∈ table.rows, row.timestamp ≠ calendar) :
    ∃ result, getNetworkData calendar serialNum net fresh table = .ok result := by
  have hkey : (networkRow calendar serialNum (pollNetwork net fresh).1).key ∉
      table.rows.map NetworkRow.key :=
    KeyedTable.notMem_keys NetworkRow.timestamp (fun row hsame => congrArg (·.2.2) hsame) hfree
  rcases KeyedTable.insert_of_notMem hkey with ⟨inserted, hinsert⟩
  rcases KeyedTable.insert_eq_some_iff.mp hinsert with ⟨-, hrows⟩
  exact ⟨(_, inserted), getNetworkData_eq_ok_iff.mpr ⟨hkey, rfl, hrows⟩⟩

section Calls

variable {α : Type} [JavaLong α]

/-- Calls of `getNetworkData` that all returned: call number `t` has led from `state t` to
`state (t + 1)`. -/
def CallsCompleted (calendar : Nat → Int) (serialNum : String)
    (reads : Nat → Nat → NetworkIF α) (calls : Nat) (state : Nat → Network α × NetworkTable α) : Prop :=
  ∀ t < calls, getNetworkData (calendar t) serialNum (state t).1 (reads t) (state t).2 =
    .ok (state (t + 1))

/-- Such calls leave the static fields of `Network.after` and have appended the rows of their totals. -/
theorem CallsCompleted.after {calendar : Nat → Int} {serialNum : String}
    {reads : Nat → Nat → NetworkIF α} {calls : Nat} {state : Nat → Network α × NetworkTable α}
    (h : CallsCompleted calendar serialNum reads calls state) {t : Nat} (ht : t ≤ calls) :
    (state t).1 = (state 0).1.after reads t ∧ (state t).2.rows = (state 0).2.rows ++
      (List.range t).map fun u => networkRow (calendar u) serialNum ((state 0).1.totalsOf reads u) := by
  induction t with
  | zero => exact ⟨rfl, by simp⟩
  | succ t ih =>
      rcases ih (Nat.le_of_succ_le ht) with ⟨hnet, hrows⟩
      rcases getNetworkData_eq_ok_iff.mp (h t ht) with ⟨-, hnext, hinserted⟩
      rw [hnet] at hnext hinserted
      refine ⟨hnext, ?_⟩
      rw [hinserted, hrows, List.range_succ, List.map_append, List.append_assoc]
      rfl

end Calls

/-- The states of calls at times 0, 1, 2, ...; a call that failed would repeat its state. -/
def networkStates (net : Network Int64) (reads : Nat → Nat → NetworkIF Int64) :
    Nat → Network Int64 × NetworkTable Int64
  | 0 => (net, .empty)
  | t + 1 =>
      let state := networkStates net reads t
      match getNetworkData t "S" state.1 (reads t) state.2 with
      | .ok after => after
      | .error _ => state

/-! ### The stored traffic of Java's `long` -/

/-- The stored traffic is the total in megabits, if eight times the total fits. -/
theorem traffic_toInt {dir : Direction} {totals : NetworkTotals Int64}
    (hfit : FitsLong ((totals.total dir).toInt * 8)) (calendar : Int) (serialNum : String) :
    ((networkRow calendar serialNum totals).traffic dir).toInt =
      (8 * (totals.total dir).toInt).tdiv 1000000 := by
  have hmul : (totals.total dir * lit 8).toInt = (totals.total dir).toInt * 8 :=
    (toInt_mul_iff _ _).mpr hfit
  have hrow : (networkRow calendar serialNum totals).traffic dir =
      quot (totals.total dir * lit 8) (lit 1000000) := by
    cases dir <;> rfl
  rw [hrow, toInt_quot _ (by decide), hmul, mul_comm]
  rfl

end Crum
