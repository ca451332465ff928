/-
Module: Crum.Proofs.NetworkAccounting
Layer: Proofs
Purpose: When the network totals of a run are exact. Since `currentIn` and `currentOut` are carried from
  one interface to the next, the baseline of every interface also takes the traffic of the interfaces
  before it. The accounting of a run is therefore exact precisely when, in every call, no interface but
  the last has moved.
Imports: Crum.Proofs.NetworkPoll
Trusted boundary: none
Main exports: sampled, AccountingExact, OnlyLastMoves, accountingExact_iff, carry_breaks_accounting
Open obligations: none
-/
import Crum.Proofs.NetworkPoll

namespace Crum

open CarryChain

/-! ### What exact accounting means -/

/-- The counters read at sample `t`: by `initNetwork` for `t = 0`, by call number `t - 1` after it. -/
def sampled (dir : Direction) (ifs : List (NetworkIF Int)) (reads : Nat → Nat → NetworkIF Int) :
    Nat → List Int
  | 0 => ifs.map (·.counter dir)
  | t + 1 => counters dir (reads t) ifs.length

/-- By how much each counter grew from sample `t` to the next. -/
def growth (dir : Direction) (ifs : List (NetworkIF Int)) (reads : Nat → Nat → NetworkIF Int)
    (t : Nat) : List Int :=
  List.zipWith (· - ·) (sampled dir ifs reads (t + 1)) (sampled dir ifs reads t)

/-- No counter decreases over the first `calls` calls. -/
def CountersGrow (ifs : List (NetworkIF Int)) (reads : Nat → Nat → NetworkIF Int) (calls : Nat) : Prop :=
  ∀ t < calls, ∀ dir, ∀ d ∈ growth dir ifs reads t, 0 ≤ d

/-- Over the first `calls` calls, every call leaves the counters it read as baselines and totals their
growth, and the totals of consecutive calls add up to the overall growth. -/
structure AccountingExact (ifs : List (NetworkIF Int)) (fresh : Nat → NetworkIF Int)
    (reads : Nat → Nat → NetworkIF Int) (calls : Nat) : Prop where
  baselines : ∀ t < calls, ∀ dir,
    ((initNetwork ifs fresh).after reads (t + 1)).baselines dir = sampled dir ifs reads (t + 1)
  totals : ∀ t < calls, ∀ dir,
    ((initNetwork ifs fresh).totalsOf reads t).total dir = (growth dir ifs reads t).sum
  overall : ∀ s t, s ≤ t → t ≤ calls → ∀ dir,
    ∑ u ∈ Finset.Ico s t, ((initNetwork ifs fresh).totalsOf reads u).total dir =
      (sampled dir ifs reads t).sum - (sampled dir ifs reads s).sum

/-- In every one of the first `calls` calls, each interface but the last reads what it read before. -/
def OnlyLastMoves (ifs : List (NetworkIF Int)) (reads : Nat → Nat → NetworkIF Int) (calls : Nat) :
    Prop :=
  ∀ t < calls, ∀ dir, ∀ i, i + 1 < ifs.length →
    (sampled dir ifs reads (t + 1))[i]? = (sampled dir ifs reads t)[i]?

section Run

variable (ifs : List (NetworkIF Int)) (fresh : Nat → NetworkIF Int)
  (reads : Nat → Nat → NetworkIF Int)

@[simp] theorem length_sampled (dir : Direction) (t : Nat) :
    (sampled dir ifs reads t).length = ifs.length := by
  cases t <;> simp [sampled]

@[simp] theorem length_growth (dir : Direction) (t : Nat) :
    (growth dir ifs reads t).length = ifs.length := by
  simp [growth]

@[simp] theorem initNetwork_length : (initNetwork ifs fresh).entries.length = ifs.length := by
  simp [initNetwork]

theorem initNetwork_baselines (dir : Direction) :
    (initNetwork ifs fresh).baselines dir = sampled dir ifs reads 0 := by
  rw [Network.baselines_eq, sampled, initNetwork]
  apply List.ext_getElem
  · simp
  · intro i hi hi'
    cases dir <;> simp [NetworkEntry.baseline, NetworkIF.counter]

/-- The growth sums to the difference of the sums. -/
theorem growth_sum (dir : Direction) (t : Nat) :
    (growth dir ifs reads t).sum =
      (sampled dir ifs reads (t + 1)).sum - (sampled dir ifs reads t).sum := by
  have hlength : (sampled dir ifs reads (t + 1)).length = (sampled dir ifs reads t).length := by simp
  rw [growth]
  generalize sampled dir ifs reads (t + 1) = xs at hlength ⊢
  generalize sampled dir ifs reads t = ys at hlength ⊢
  induction xs generalizing ys with
  | nil =>
      obtain rfl : ys = [] := List.eq_nil_of_length_eq_zero (by simpa using hlength.symm)
      rfl
  | cons x xs ih =>
      cases ys with
      | nil => simp at hlength
      | cons y ys =>
          have htail := ih ys (by simpa using hlength)
          simp only [List.zipWith_cons_cons, List.sum_cons, htail]
          ring

/-- While the baselines are the previous sample, what is pending in a call is the growth. -/
theorem pending_eq_growth {dir : Direction} {t : Nat}
    (hbase : ((initNetwork ifs fresh).after reads t).baselines dir = sampled dir ifs reads t) :
    pending dir (reads t) ((initNetwork ifs fresh).after reads t).entries = growth dir ifs reads t := by
  rw [Network.baselines_eq] at hbase
  rw [pending_eq_zipWith, hbase, Network.after_length, initNetwork_length, growth, sampled]

/-- Under that condition a call restores the baselines exactly when only the last entry of the growth is
non-zero. -/
theorem baselines_step_iff {dir : Direction} {t : Nat}
    (hbase : ((initNetwork ifs fresh).after reads t).baselines dir = sampled dir ifs reads t) :
    ((initNetwork ifs fresh).after reads (t + 1)).baselines dir = sampled dir ifs reads (t + 1) ↔
      ∀ d ∈ (growth dir ifs reads t).dropLast, d = 0 := by
  have hafter : pending dir (reads t) ((initNetwork ifs fresh).after reads (t + 1)).entries =
      leftover 0 (growth dir ifs reads t) := by
    rw [← pending_eq_growth ifs fresh reads hbase, Network.after, pending_pollNetwork]
  have hzero := pending_all_zero_iff dir (reads t)
    ((initNetwork ifs fresh).after reads (t + 1)).entries
  rw [hafter, leftover_all_zero_iff, Network.after_length, initNetwork_length] at hzero
  rw [Network.baselines_eq, sampled, ← hzero]

/-- The total of such a call is the growth, when nothing has decreased. -/
theorem total_eq_growth {dir : Direction} {t : Nat}
    (hbase : ((initNetwork ifs fresh).after reads t).baselines dir = sampled dir ifs reads t)
    (hlast : ∀ d ∈ (growth dir ifs reads t).dropLast, d = 0)
    (hgrow : ∀ d ∈ growth dir ifs reads t, 0 ≤ d) :
    ((initNetwork ifs fresh).totalsOf reads t).total dir = (growth dir ifs reads t).sum := by
  rw [Network.totalsOf, total_pollNetwork, pending_eq_growth ifs fresh reads hbase]
  apply clampedSum_eq_sum rfl hlast
  intro d hd
  have := hgrow d hd
  simpa using this

/-- The condition on the counters says that all entries of the growth but the last are zero. -/
theorem growth_dropLast_zero_iff (dir : Direction) (t : Nat) :
    (∀ d ∈ (growth dir ifs reads t).dropLast, d = 0) ↔
      ∀ i, i + 1 < ifs.length →
        (sampled dir ifs reads (t + 1))[i]? = (sampled dir ifs reads t)[i]? := by
  constructor
  · intro h i hi
    have hlength : i < (growth dir ifs reads t).dropLast.length := by
      simp
      omega
    have hmem := List.getElem_mem hlength
    rw [List.getElem_dropLast] at hmem
    have hzero := h _ hmem
    simp only [growth, List.getElem_zipWith, sub_eq_zero] at hzero
    rw [List.getElem?_eq_getElem (by simp; omega), List.getElem?_eq_getElem (by simp; omega), hzero]
  · intro h d hd
    obtain ⟨i, hi, rfl⟩ := List.getElem_of_mem hd
    have hi' : i + 1 < ifs.length := by
      simp at hi
      omega
    have hsame := h i hi'
    rw [List.getElem?_eq_getElem (by simp; omega), List.getElem?_eq_getElem (by simp; omega)] at hsame
    simp only [List.getElem_dropLast, growth, List.getElem_zipWith, sub_eq_zero]
    exact Option.some.inj hsame

/-- As long as only the last interface moves, the baselines follow the samples. -/
theorem baselines_of_onlyLastMoves {calls : Nat} (hquiet : OnlyLastMoves ifs reads calls) :
    ∀ t ≤ calls, ∀ dir,
      ((initNetwork ifs fresh).after reads t).baselines dir = sampled dir ifs reads t := by
  intro t
  induction t with
  | zero => exact fun _ dir => initNetwork_baselines ifs fresh reads dir
  | succ t ih =>
      intro ht dir
      have hbase := ih (by omega) dir
      rw [baselines_step_iff ifs fresh reads hbase, growth_dropLast_zero_iff]
      exact hquiet t (by omega) dir

end Run

/-! ### The exact condition -/

/-- The accounting of a run is exact if and only if in every call each interface but the last reads the
counters of the sample before. -/
theorem accountingExact_iff (ifs : List (NetworkIF Int)) (fresh : Nat → NetworkIF Int)
    (reads : Nat → Nat → NetworkIF Int) (calls : Nat) (hgrow : CountersGrow ifs reads calls) :
    AccountingExact ifs fresh reads calls ↔ OnlyLastMoves ifs reads calls := by
  constructor
  · intro hexact t ht dir
    -- the baselines before call `t` are the sample before it, by `initNetwork` or by the call before
    have hbase : ((initNetwork ifs fresh).after reads t).baselines dir = sampled dir ifs reads t := by
      cases t with
      | zero => exact initNetwork_baselines ifs fresh reads dir
      | succ t => exact hexact.baselines t (by omega) dir
    rw [← growth_dropLast_zero_iff, ← baselines_step_iff ifs fresh reads hbase]
    exact hexact.baselines t ht dir
  · intro hquiet
    have hbases := baselines_of_onlyLastMoves ifs fresh reads hquiet
    have htotals : ∀ t < calls, ∀ dir,
        ((initNetwork ifs fresh).totalsOf reads t).total dir = (growth dir ifs reads t).sum := by
      intro t ht dir
      have hlast := (growth_dropLast_zero_iff ifs reads dir t).mpr (hquiet t ht dir)
      exact total_eq_growth ifs fresh reads (hbases t (by omega) dir) hlast (hgrow t ht dir)
    refine ⟨fun t ht dir => hbases (t + 1) (by omega) dir, htotals, ?_⟩
    intro s t hst ht dir
    have hsum : ∀ u ∈ Finset.Ico s t, ((initNetwork ifs fresh).totalsOf reads u).total dir =
        (sampled dir ifs reads (u + 1)).sum - (sampled dir ifs reads u).sum := by
      intro u hu
      have hut := (Finset.mem_Ico.mp hu).2
      rw [htotals u (by omega) dir, growth_sum]
    rw [Finset.sum_congr rfl hsum,
      Finset.sum_Ico_sub (fun u => (sampled dir ifs reads u).sum) hst]

/-- An interface that shows one pair of counters. -/
def quietIF (received sent : Int) : NetworkIF Int where
  bytesRecv := received
  bytesSent := sent
  ipv4addr := []
  macaddr := ""

/-- A quiet interface before one that goes on receiving. -/
def lastBusy (t i : Nat) : NetworkIF Int := if i = 0 then quietIF 100 7 else quietIF (60 + 10 * t) (9 * t)

/-- The accounting of the two is exact over three calls. -/
theorem accountingExact_lastBusy :
    AccountingExact [quietIF 100 7, quietIF 50 0] (fun _ => quietIF 0 0) lastBusy 3 :=
  (accountingExact_iff _ _ _ 3 (by
    intro t ht dir
    cases dir <;> interval_cases t <;> decide)).mpr (by
    intro t ht dir i hi
    obtain rfl : i = 0 := by simpa using hi
    cases dir <;> interval_cases t <;> decide)

/-- Two interfaces of which only the first receives, 10 bytes: the second one's baseline takes them too,
and the call totals 20 bytes. -/
theorem carry_breaks_accounting :
    CountersGrow [quietIF 0 0, quietIF 0 0] (fun _ i => if i = 0 then quietIF 10 0 else quietIF 0 0) 1 ∧
      ¬ AccountingExact [quietIF 0 0, quietIF 0 0] (fun _ => quietIF 0 0)
        (fun _ i => if i = 0 then quietIF 10 0 else quietIF 0 0) 1 := by
  constructor
  · intro t ht dir
    cases dir <;> interval_cases t <;> decide
  · intro hexact
    have hbase := hexact.baselines 0 (by omega) .inbound
    revert hbase
    decide

end Crum
