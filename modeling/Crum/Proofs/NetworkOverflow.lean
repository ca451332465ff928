/-
Module: Crum.Proofs.NetworkOverflow
Layer: Proofs
Purpose: When the 64-bit arithmetic of `getNetworkData` is exact. The sums that are carried from one
  interface to the next feed the baselines of the next call, so their size depends on the whole history:
  they are the carried sums of the growth of the counters, with alternating binomial coefficients. No
  operation of a run overflows exactly when the numbers built from those sums stay in range. They may leave
  it although all counters and their sums are small enough.
Imports: Crum.Lib.CarrySeries, Crum.Proofs.NetworkPoll
Trusted boundary: none
Main exports: StepFits, CallFits, NoWrapAround, CarryFits, callFits_iff, noWrapAround_iff,
  carryFits_of_small, carry_wraps_around
Open obligations: none
-/
import Crum.Lib.CarrySeries
import Crum.Proofs.NetworkPoll

namespace Crum

open CarrySeries JavaLong

/-! ### The operations of one call -/

/-- The operations of one iteration in one direction: the difference to the baseline, its addition to the
carried sum, and the additions of that sum to the baseline and to the total. -/
structure StepFits (dir : Direction) (fresh : NetworkIF Int64) (totals : NetworkTotals Int64)
    (entry : NetworkEntry Int64) : Prop where
  difference : FitsLong ((fresh.counter dir).toInt - (entry.baseline dir).toInt)
  carried : FitsLong ((totals.current dir).toInt + (fresh.counter dir - entry.baseline dir).toInt)
  baseline : FitsLong ((entry.baseline dir).toInt +
    ((pollInterface fresh totals entry).1.current dir).toInt)
  total : FitsLong ((totals.total dir).toInt +
    ((pollInterface fresh totals entry).1.current dir).toInt)

/-- The operations of the loop over the interfaces that are left. -/
def LoopFits (dir : Direction) : (Nat → NetworkIF Int64) → NetworkTotals Int64 →
    List (NetworkEntry Int64) → Prop
  | _, _, [] => True
  | fresh, totals, entry :: entries =>
      StepFits dir (fresh 0) totals entry ∧
        LoopFits dir (fun i => fresh (i + 1)) (pollInterface (fresh 0) totals entry).1 entries

/-- The operations of one call: the loop and the multiplication by 8. None of them overflows. -/
def CallFits (dir : Direction) (net : Network Int64) (fresh : Nat → NetworkIF Int64) : Prop :=
  LoopFits dir fresh .start net.entries ∧
    FitsLong (((pollNetwork net fresh).1.total dir).toInt * 8)

theorem clampTotal_toInt (total : Int64) : (clampTotal total).toInt = max 0 total.toInt := by
  rw [clampTotal]
  split
  · next hneg =>
      have hlt : total.toInt < 0 := by simpa [isNeg, Int64.lt_iff_toInt_lt] using hneg
      rw [max_eq_left hlt.le]
      rfl
  · next hpos =>
      have hge : 0 ≤ total.toInt := by simpa [isNeg, Int64.lt_iff_toInt_lt] using hpos
      rw [max_eq_right hge]

/-- The exact integers behind one iteration: counter and baseline, the sum carried so far and the total. -/
structure StepValues (dir : Direction) (fresh : NetworkIF Int64) (totals : NetworkTotals Int64)
    (entry : NetworkEntry Int64) (c b e total : Int) : Prop where
  counter : (fresh.counter dir).toInt = c
  baseline : (entry.baseline dir).toInt = b
  carried : (totals.current dir).toInt = e
  total : (totals.total dir).toInt = total

section Step

variable {dir : Direction} {fresh : NetworkIF Int64} {totals : NetworkTotals Int64}
  {entry : NetworkEntry Int64} {c b e total : Int}

theorem StepFits.difference_eq (h : StepFits dir fresh totals entry)
    (hv : StepValues dir fresh totals entry c b e total) :
    (fresh.counter dir - entry.baseline dir).toInt = c - b := by
  rw [(toInt_sub_iff _ _).mpr h.difference, hv.counter, hv.baseline]

theorem StepFits.current_eq (h : StepFits dir fresh totals entry)
    (hv : StepValues dir fresh totals entry c b e total) :
    ((pollInterface fresh totals entry).1.current dir).toInt = e + (c - b) := by
  rw [pollInterface_current, (toInt_add_iff _ _).mpr h.carried, h.difference_eq hv, hv.carried]

theorem StepFits.baseline_eq (h : StepFits dir fresh totals entry)
    (hv : StepValues dir fresh totals entry c b e total) :
    ((pollInterface fresh totals entry).2.baseline dir).toInt = c + e := by
  have hsum := (toInt_add_iff _ _).mpr h.baseline
  rw [pollInterface_current] at hsum
  rw [pollInterface_baseline, hsum, ← pollInterface_current, h.current_eq hv, hv.baseline]
  ring

theorem StepFits.total_eq (h : StepFits dir fresh totals entry)
    (hv : StepValues dir fresh totals entry c b e total) :
    ((pollInterface fresh totals entry).1.total dir).toInt = max 0 (total + (e + (c - b))) := by
  have hsum := (toInt_add_iff _ _).mpr h.total
  rw [pollInterface_current] at hsum
  rw [pollInterface_total, clampTotal_toInt, hsum, ← pollInterface_current, h.current_eq hv, hv.total]

/-- One iteration overflows nowhere exactly when the four exact results are in range. -/
theorem stepFits_iff (hv : StepValues dir fresh totals entry c b e total) :
    StepFits dir fresh totals entry ↔
      FitsLong (c - b) ∧ FitsLong (e + (c - b)) ∧ FitsLong (c + e) ∧
        FitsLong (total + (e + (c - b))) := by
  constructor
  · intro h
    refine ⟨?_, ?_, ?_, ?_⟩
    · have := h.difference
      rwa [hv.counter, hv.baseline] at this
    · have := h.carried
      rwa [h.difference_eq hv, hv.carried] at this
    · have := fitsLong_toInt ((pollInterface fresh totals entry).2.baseline dir)
      rwa [h.baseline_eq hv] at this
    · have := h.total
      rwa [h.current_eq hv, hv.total] at this
  · rintro ⟨hdifference, hcarried, hbaseline, htotal⟩
    have hd : (fresh.counter dir - entry.baseline dir).toInt = c - b := by
      rw [← hv.counter, ← hv.baseline]
      apply (toInt_sub_iff _ _).mpr
      rwa [hv.counter, hv.baseline]
    have hc : ((pollInterface fresh totals entry).1.current dir).toInt = e + (c - b) := by
      rw [pollInterface_current, ← hv.carried, ← hd]
      apply (toInt_add_iff _ _).mpr
      rwa [hv.carried, hd]
    refine ⟨?_, ?_, ?_, ?_⟩
    · rwa [hv.counter, hv.baseline]
    · rwa [hv.carried, hd]
    · rw [hv.baseline, hc]
      convert hbaseline using 1
      ring
    · rwa [hv.total, hc]

end Step

/-! ### The loop -/

/-- With counters `c` and carried sums `e`: the exact results of the iteration for interface `i` are in
range. -/
structure InterfaceFits (c e : Nat → Int) (i : Nat) : Prop where
  difference : FitsLong (e (i + 1) - e i)
  carried : FitsLong (e (i + 1))
  baseline : FitsLong (c i + e i)
  total : FitsLong (clampedTotal e i + e (i + 1))

/-- The interfaces from number `p` on are about to be polled: `c` are the counters they show, and `e` the
sums carried past the interfaces, each the one before it and the difference of the interface. -/
structure LoopValues (dir : Direction) (fresh : Nat → NetworkIF Int64) (totals : NetworkTotals Int64)
    (entries : List (NetworkEntry Int64)) (c e : Nat → Int) (p : Nat) : Prop where
  carried : (totals.current dir).toInt = e p
  total : (totals.total dir).toInt = clampedTotal e p
  counter : ∀ i < entries.length, ((fresh i).counter dir).toInt = c (p + i)
  next : ∀ (i : Nat) entry, entries[i]? = some entry →
    e (p + i + 1) = e (p + i) + (c (p + i) - (entry.baseline dir).toInt)

section Loop

variable {dir : Direction} {fresh : Nat → NetworkIF Int64} {totals : NetworkTotals Int64}
  {entry : NetworkEntry Int64} {entries : List (NetworkEntry Int64)} {c e : Nat → Int} {p : Nat}

theorem LoopValues.head (h : LoopValues dir fresh totals (entry :: entries) c e p) :
    StepValues dir (fresh 0) totals entry (c p) (entry.baseline dir).toInt (e p) (clampedTotal e p) where
  counter := h.counter 0 (Nat.zero_lt_succ _)
  baseline := rfl
  carried := h.carried
  total := h.total

theorem LoopValues.head_next (h : LoopValues dir fresh totals (entry :: entries) c e p) :
    e p + (c p - (entry.baseline dir).toInt) = e (p + 1) :=
  (h.next 0 entry rfl).symm

/-- The first iteration overflows nowhere exactly when its exact results are in range. -/
theorem LoopValues.head_fits_iff (h : LoopValues dir fresh totals (entry :: entries) c e p) :
    StepFits dir (fresh 0) totals entry ↔ InterfaceFits c e p := by
  have hdifference : c p - (entry.baseline dir).toInt = e (p + 1) - e p := by
    rw [← h.head_next]
    ring
  rw [stepFits_iff h.head, h.head_next, hdifference]
  constructor
  · rintro ⟨hd, hc, hb, ht⟩
    exact ⟨hd, hc, hb, ht⟩
  · intro hfits
    exact ⟨hfits.difference, hfits.carried, hfits.baseline, hfits.total⟩

/-- After a first iteration without overflow the same holds of the rest. -/
theorem LoopValues.tail (h : LoopValues dir fresh totals (entry :: entries) c e p)
    (hfits : StepFits dir (fresh 0) totals entry) :
    LoopValues dir (fun i => fresh (i + 1)) (pollInterface (fresh 0) totals entry).1 entries c e
      (p + 1) where
  carried := by rw [hfits.current_eq h.head, h.head_next]
  total := by rw [hfits.total_eq h.head, h.head_next, clampedTotal]
  counter i hi := by
    rw [h.counter (i + 1) (Nat.succ_lt_succ hi)]
    congr 1
    ring
  next i later hlater := by
    have hstep := h.next (i + 1) later hlater
    have hshift : p + (i + 1) = p + 1 + i := by ring
    rwa [hshift] at hstep

/-- The loop overflows nowhere exactly when the exact results of every interface are in range. -/
theorem loopFits_iff (h : LoopValues dir fresh totals entries c e p) :
    LoopFits dir fresh totals entries ↔ ∀ i < entries.length, InterfaceFits c e (p + i) := by
  induction entries generalizing fresh totals p with
  | nil => simp [LoopFits]
  | cons entry entries ih =>
      rw [LoopFits]
      constructor
      · rintro ⟨hhead, hrest⟩ i hi
        cases i with
        | zero => exact h.head_fits_iff.mp hhead
        | succ i =>
            have htail := (ih (h.tail hhead)).mp hrest i (Nat.lt_of_succ_lt_succ hi)
            rwa [Nat.add_assoc, Nat.add_comm 1 i] at htail
      · intro hall
        have hhead : StepFits dir (fresh 0) totals entry :=
          h.head_fits_iff.mpr (hall 0 (Nat.zero_lt_succ _))
        refine ⟨hhead, (ih (h.tail hhead)).mpr ?_⟩
        intro i hi
        have hnext := hall (i + 1) (Nat.succ_lt_succ hi)
        rwa [Nat.add_comm i 1, ← Nat.add_assoc] at hnext

/-- What a loop without overflow leaves: the total is the running total of the carried sums, and every
baseline is the counter and what was carried up to its interface. -/
theorem loop_values (h : LoopValues dir fresh totals entries c e p)
    (hfits : LoopFits dir fresh totals entries) :
    ((pollInterfaces fresh totals entries).1.total dir).toInt = clampedTotal e (p + entries.length) ∧
      ∀ (i : Nat) after, (pollInterfaces fresh totals entries).2[i]? = some after →
        (after.baseline dir).toInt = c (p + i) + e (p + i) := by
  induction entries generalizing fresh totals p with
  | nil => exact ⟨h.total, by simp [pollInterfaces]⟩
  | cons entry entries ih =>
      rcases hfits with ⟨hhead, hrest⟩
      rcases ih (h.tail hhead) hrest with ⟨htotal, hbaselines⟩
      constructor
      · rw [Nat.add_assoc, Nat.add_comm 1] at htotal
        exact htotal
      · intro i after hafter
        cases i with
        | zero =>
            rw [pollInterfaces, List.getElem?_cons_zero, Option.some.injEq] at hafter
            rw [← hafter]
            exact hhead.baseline_eq h.head
        | succ i =>
            rw [pollInterfaces, List.getElem?_cons_succ] at hafter
            have hrest := hbaselines i after hafter
            rwa [Nat.add_assoc, Nat.add_comm 1 i] at hrest

end Loop

/-! ### Runs -/

section Run

variable (dir : Direction) (ifs : List (NetworkIF Int64)) (fresh : Nat → NetworkIF Int64)
  (reads : Nat → Nat → NetworkIF Int64)

/-- The counter of interface `i` in sample `t`: `initNetwork` takes sample 0, call number `t` takes sample
`t + 1`. -/
def counterAt : Nat → Nat → Int
  | 0, i => ((ifs[i]?).map fun netIF => (netIF.counter dir).toInt).getD 0
  | t + 1, i => ((reads t i).counter dir).toInt

/-- By how much the counter of interface `i` has grown for call number `t`. -/
def growthAt (t i : Nat) : Int := counterAt dir ifs reads (t + 1) i - counterAt dir ifs reads t i

/-- What call number `t` carries past the first `m` interfaces, computed from the counters. -/
def carriedAt (t m : Nat) : Int := carriedSum (growthAt dir ifs reads) t m

/-- For call number `t` the numbers that the carried sums lead to are in range. -/
structure CarryFits (t : Nat) : Prop where
  interfaces : ∀ i < ifs.length,
    InterfaceFits (counterAt dir ifs reads (t + 1)) (carriedAt dir ifs reads t) i
  bits : FitsLong (clampedTotal (carriedAt dir ifs reads t) ifs.length * 8)

/-- No operation of the first `calls` calls overflows, and no stored traffic is negative. -/
def NoWrapAround (calls : Nat) : Prop :=
  ∀ t < calls, ∀ dir,
    CallFits dir ((initNetwork ifs fresh).after reads t) (reads t) ∧
      ∀ calendar serialNum,
        0 ≤ ((networkRow calendar serialNum
          ((initNetwork ifs fresh).totalsOf reads t)).traffic dir).toInt

/-- The baseline that interface `i` has before call number `t`, when nothing has overflowed. -/
def baselineAt : Nat → Nat → Int
  | 0, i => counterAt dir ifs reads 0 i
  | t + 1, i => counterAt dir ifs reads (t + 1) i + carriedAt dir ifs reads t i

/-- The invariant of a run without overflow: the baselines are those. -/
def BaselinesExact (t : Nat) : Prop :=
  ∀ (i : Nat) entry, ((initNetwork ifs fresh).after reads t).entries[i]? = some entry →
    (entry.baseline dir).toInt = baselineAt dir ifs reads t i

/-- What is carried past one more interface: its difference to that baseline is added. -/
theorem carriedAt_next (t i : Nat) :
    carriedAt dir ifs reads t (i + 1) =
      carriedAt dir ifs reads t i + (counterAt dir ifs reads (t + 1) i - baselineAt dir ifs reads t i) := by
  cases t with
  | zero =>
      rw [carriedAt, carriedAt, carriedSum_first, Finset.sum_range_succ, ← carriedSum_first]
      rfl
  | succ t =>
      rw [carriedAt, carriedSum_succ, growthAt, baselineAt, carriedAt, carriedAt]
      ring

variable {dir ifs fresh reads} {t : Nat}

theorem baselinesExact_start : BaselinesExact dir ifs fresh reads 0 := by
  intro i entry hentry
  rw [Network.after, initNetwork, List.getElem?_mapIdx, Option.map_eq_some_iff] at hentry
  rcases hentry with ⟨netIF, hnetIF, rfl⟩
  cases dir <;> simp [baselineAt, counterAt, hnetIF, NetworkEntry.baseline, NetworkIF.counter]

theorem after_initNetwork_length (t : Nat) :
    ((initNetwork ifs fresh).after reads t).entries.length = ifs.length := by
  rw [Network.after_length, initNetwork, List.length_mapIdx]

/-- Under the invariant the next call starts with the values of the closed form. -/
theorem BaselinesExact.loopValues (h : BaselinesExact dir ifs fresh reads t) :
    LoopValues dir (reads t) .start ((initNetwork ifs fresh).after reads t).entries
      (counterAt dir ifs reads (t + 1)) (carriedAt dir ifs reads t) 0 where
  carried := by
    rw [NetworkTotals.start_current, carriedAt, carriedSum_zero]
    rfl
  total := by
    rw [NetworkTotals.start_total, clampedTotal]
    rfl
  counter i _ := by rw [Nat.zero_add, counterAt]
  next i entry hentry := by
    rw [Nat.zero_add, carriedAt_next, h i entry hentry]

/-- Under the invariant the next call overflows nowhere exactly when the carried sums fit. -/
theorem BaselinesExact.callFits_iff (h : BaselinesExact dir ifs fresh reads t) :
    CallFits dir ((initNetwork ifs fresh).after reads t) (reads t) ↔ CarryFits dir ifs reads t := by
  have hloop := loopFits_iff h.loopValues
  rw [after_initNetwork_length] at hloop
  have htotal : LoopFits dir (reads t) .start ((initNetwork ifs fresh).after reads t).entries →
      ((pollNetwork ((initNetwork ifs fresh).after reads t) (reads t)).1.total dir).toInt =
        clampedTotal (carriedAt dir ifs reads t) ifs.length := by
    intro hfits
    have hvalues := (loop_values h.loopValues hfits).1
    rwa [Nat.zero_add, after_initNetwork_length] at hvalues
  constructor
  · rintro ⟨hfits, hbits⟩
    rw [htotal hfits] at hbits
    exact ⟨fun i hi => by simpa using hloop.mp hfits i hi, hbits⟩
  · rintro ⟨hinterfaces, hbits⟩
    have hfits := hloop.mpr fun i hi => by simpa using hinterfaces i hi
    refine ⟨hfits, ?_⟩
    rw [htotal hfits]
    exact hbits

/-- A call without overflow keeps the invariant. -/
theorem BaselinesExact.step (h : BaselinesExact dir ifs fresh reads t)
    (hfits : CallFits dir ((initNetwork ifs fresh).after reads t) (reads t)) :
    BaselinesExact dir ifs fresh reads (t + 1) := by
  intro i entry hentry
  have hvalues := (loop_values h.loopValues hfits.1).2 i entry hentry
  rwa [Nat.zero_add] at hvalues

/-- A run whose calls do not overflow while the invariant holds keeps the invariant. -/
theorem baselinesExact_of_calls {calls : Nat}
    (h : ∀ t < calls, ∀ dir, BaselinesExact dir ifs fresh reads t →
      CallFits dir ((initNetwork ifs fresh).after reads t) (reads t)) :
    ∀ t ≤ calls, ∀ dir, BaselinesExact dir ifs fresh reads t := by
  intro t
  induction t with
  | zero => exact fun _ dir => baselinesExact_start
  | succ t ih =>
      intro ht dir
      have hbefore := ih (Nat.le_of_succ_le ht) dir
      exact hbefore.step (h t ht dir hbefore)

/-- A call without overflow stores no negative traffic. -/
theorem BaselinesExact.traffic_nonneg (h : BaselinesExact dir ifs fresh reads t)
    (hfits : CallFits dir ((initNetwork ifs fresh).after reads t) (reads t)) (calendar : Int)
    (serialNum : String) :
    0 ≤ ((networkRow calendar serialNum ((initNetwork ifs fresh).totalsOf reads t)).traffic dir).toInt := by
  have htotal := (loop_values h.loopValues hfits.1).1
  have hnonneg : 0 ≤ (((initNetwork ifs fresh).totalsOf reads t).total dir).toInt := by
    refine le_of_le_of_eq ?_ htotal.symm
    exact clampedTotal_nonneg _ _
  have htraffic := traffic_toInt hfits.2 calendar serialNum
  refine le_of_le_of_eq ?_ htraffic.symm
  apply Int.tdiv_nonneg _ (by decide)
  exact mul_nonneg (by decide) hnonneg

end Run

/-- No operation of a run overflows if and only if in each of its calls the numbers that the carried sums
lead to are in range. -/
theorem noWrapAround_iff (ifs : List (NetworkIF Int64)) (fresh : Nat → NetworkIF Int64)
    (reads : Nat → Nat → NetworkIF Int64) (calls : Nat) :
    NoWrapAround ifs fresh reads calls ↔ ∀ t < calls, ∀ dir, CarryFits dir ifs reads t := by
  constructor
  · intro hrun t ht dir
    have hexact := baselinesExact_of_calls fun t ht dir _ => (hrun t ht dir).1
    exact (hexact t ht.le dir).callFits_iff.mp (hrun t ht dir).1
  · intro hcarry t ht dir
    have hexact : ∀ t ≤ calls, ∀ dir, BaselinesExact dir ifs fresh reads t :=
      baselinesExact_of_calls fun t ht dir hbefore => hbefore.callFits_iff.mpr (hcarry t ht dir)
    have hfits := (hexact t ht.le dir).callFits_iff.mpr (hcarry t ht dir)
    exact ⟨hfits, (hexact t ht.le dir).traffic_nonneg hfits⟩

/-! ### Bounds on the counters -/

/-- Over `calls` calls the counters are not negative, do not decrease, and in every sample their sum is
below `bound` in either direction. -/
structure CountersBounded (ifs : List (NetworkIF Int64)) (reads : Nat → Nat → NetworkIF Int64)
    (calls : Nat) (bound : Int) : Prop where
  nonneg : ∀ t ≤ calls, ∀ dir, ∀ i < ifs.length, 0 ≤ counterAt dir ifs reads t i
  grow : ∀ t < calls, ∀ dir, ∀ i < ifs.length,
    counterAt dir ifs reads t i ≤ counterAt dir ifs reads (t + 1) i
  sum_lt : ∀ t ≤ calls, ∀ dir,
    ∑ i ∈ Finset.range ifs.length, counterAt dir ifs reads t i < bound

section Bounded

variable {ifs : List (NetworkIF Int64)} {reads : Nat → Nat → NetworkIF Int64} {calls : Nat}
  {bound : Int}

theorem CountersBounded.counter_lt (h : CountersBounded ifs reads calls bound) {t : Nat} (ht : t ≤ calls)
    (dir : Direction) {i : Nat} (hi : i < ifs.length) : counterAt dir ifs reads t i < bound := by
  have hle : counterAt dir ifs reads t i ≤ ∑ j ∈ Finset.range ifs.length, counterAt dir ifs reads t j := by
    apply Finset.single_le_sum (f := fun j => counterAt dir ifs reads t j)
    · exact fun j hj => h.nonneg t ht dir j (Finset.mem_range.mp hj)
    · exact Finset.mem_range.mpr hi
  exact hle.trans_lt (h.sum_lt t ht dir)

theorem CountersBounded.abs_growth_le (h : CountersBounded ifs reads calls bound) {t : Nat}
    (ht : t < calls) (dir : Direction) {i : Nat} (hi : i < ifs.length) :
    |growthAt dir ifs reads t i| ≤ bound - 1 := by
  have hgrow := h.grow t ht dir i hi
  have hbefore := h.nonneg t ht.le dir i hi
  have hafter := h.counter_lt (Nat.succ_le_of_lt ht) dir hi
  rw [growthAt, abs_of_nonneg (sub_nonneg.mpr hgrow)]
  rw [Nat.succ_eq_add_one] at hafter
  linarith

theorem CountersBounded.bound_pos (h : CountersBounded ifs reads calls bound) : 0 < bound := by
  refine lt_of_le_of_lt ?_ (h.sum_lt 0 (Nat.zero_le calls) .inbound)
  exact Finset.sum_nonneg fun i hi => h.nonneg 0 (Nat.zero_le calls) .inbound i (Finset.mem_range.mp hi)

theorem CountersBounded.growth_bound_nonneg (h : CountersBounded ifs reads calls bound) :
    0 ≤ bound - 1 := by
  have hpos := h.bound_pos
  linarith

/-- Every carried sum is at most the largest power of two times the bound. -/
theorem CountersBounded.abs_carriedAt_le (h : CountersBounded ifs reads calls bound) {t : Nat}
    (ht : t < calls) (dir : Direction) {m : Nat} (hm : m ≤ ifs.length) :
    |carriedAt dir ifs reads t m| ≤ 2 ^ ifs.length * (bound - 1) := by
  have hB := h.growth_bound_nonneg
  have hcarried : |carriedAt dir ifs reads t m| ≤ (2 ^ m - 1) * (bound - 1) :=
    abs_carriedSum_le hB (fun s hs i hi => h.abs_growth_le (hs.trans_lt ht) dir hi) m hm
  have hpow : (2 : Int) ^ m ≤ 2 ^ ifs.length := pow_le_pow_right₀ (by decide) hm
  refine hcarried.trans (mul_le_mul_of_nonneg_right ?_ hB)
  linarith

/-- Every running total is at most twice that. -/
theorem CountersBounded.clampedTotal_le (h : CountersBounded ifs reads calls bound) {t : Nat}
    (ht : t < calls) (dir : Direction) {m : Nat} (hm : m ≤ ifs.length) :
    clampedTotal (carriedAt dir ifs reads t) m ≤ 2 * (2 ^ ifs.length * (bound - 1)) := by
  have hB := h.growth_bound_nonneg
  have hcarried : ∀ m ≤ ifs.length, |carriedAt dir ifs reads t m| ≤ (2 ^ m - 1) * (bound - 1) :=
    abs_carriedSum_le hB fun s hs i hi => h.abs_growth_le (hs.trans_lt ht) dir hi
  have hpow : (2 : Int) ^ m ≤ 2 ^ ifs.length := pow_le_pow_right₀ (by decide) hm
  refine (CarrySeries.clampedTotal_le hB hcarried m hm).trans ?_
  rw [pow_succ, mul_comm (2 ^ m) 2, mul_assoc]
  exact mul_le_mul_of_nonneg_left (mul_le_mul_of_nonneg_right hpow hB) (by decide)

/-- With `n` interfaces no operation overflows as long as the counters sum to at most
`2 ^ (60 - (n + 1))`. -/
theorem carryFits_of_small (h : CountersBounded ifs reads calls bound)
    (hbound : 2 ^ (ifs.length + 1) * bound ≤ 2 ^ 60) {t : Nat} (ht : t < calls) (dir : Direction) :
    CarryFits dir ifs reads t := by
  have hpos := h.bound_pos
  -- everything is measured by the largest power, which leaves a factor of two
  have hone : (1 : Int) ≤ 2 ^ ifs.length := one_le_pow₀ (by decide)
  rw [pow_succ] at hbound
  have hroom : 2 * (2 ^ ifs.length * (bound - 1)) < 2 ^ 60 := by linarith
  have hbig : bound ≤ 2 ^ 60 := by nlinarith
  constructor
  · intro i hi
    have hbefore := abs_le.mp (h.abs_carriedAt_le ht dir hi.le)
    have hafter := abs_le.mp (h.abs_carriedAt_le ht dir (Nat.succ_le_of_lt hi))
    have hcounter := h.counter_lt (Nat.succ_le_of_lt ht) dir hi
    have hcounter' := h.nonneg (t + 1) ht dir i hi
    have hsum := h.clampedTotal_le ht dir hi.le
    have hsum' := clampedTotal_nonneg (carriedAt dir ifs reads t) i
    rw [Nat.succ_eq_add_one] at hafter hcounter
    constructor <;> apply fitsLong_of_abs_le <;> rw [abs_le]
    · exact ⟨by linarith, by linarith⟩
    · exact ⟨by linarith, by linarith⟩
    · exact ⟨by linarith, by linarith⟩
    · exact ⟨by linarith, by linarith⟩
  · have hsum := h.clampedTotal_le ht dir le_rfl
    have hsum' := clampedTotal_nonneg (carriedAt dir ifs reads t) ifs.length
    exact ⟨by linarith, by linarith⟩

end Bounded

/-! ### The carry outgrows the counters -/

/-- Two interfaces with counters at zero. -/
def idleInterfaces : List (NetworkIF Int64) := [⟨0, 0, [], ""⟩, ⟨0, 0, [], ""⟩]

/-- The first of them has received so many bytes. -/
def firstHasReceived (bytes : Int64) (_ i : Nat) : NetworkIF Int64 :=
  if i = 0 then ⟨bytes, 0, [], ""⟩ else ⟨0, 0, [], ""⟩

theorem firstHasReceived_bounded {bytes : Int64} {bound : Int} (hbytes : 0 ≤ bytes.toInt)
    (hlt : bytes.toInt < bound) : CountersBounded idleInterfaces (firstHasReceived bytes) 1 bound where
  nonneg t ht dir i hi := by
    have hi' : i < 2 := hi
    interval_cases t <;> interval_cases i <;> cases dir <;>
      simp [counterAt, idleInterfaces, firstHasReceived, NetworkIF.counter, hbytes]
  grow t ht dir i hi := by
    have hi' : i < 2 := hi
    interval_cases t
    interval_cases i <;> cases dir <;>
      simp [counterAt, idleInterfaces, firstHasReceived, NetworkIF.counter, hbytes]
  sum_lt t ht dir := by
    have hpos : 0 < bound := hbytes.trans_lt hlt
    interval_cases t <;> cases dir <;>
      simp [counterAt, idleInterfaces, firstHasReceived, NetworkIF.counter, Finset.sum_range_succ, hlt,
        hpos]

/-- The counters sum to half of what is allowed, but the second interface adds them to the total again,
and eight times that total is stored as a negative number. -/
theorem carry_wraps_around :
    CountersBounded idleInterfaces (firstHasReceived 576460752303423488) 1 (2 ^ 60) ∧
      (networkRow 0 "S" ((initNetwork idleInterfaces (firstHasReceived 0 0)).totalsOf
        (firstHasReceived 576460752303423488) 0)).inboundTraffic = -9223372036854 ∧
      ¬ NoWrapAround idleInterfaces (firstHasReceived 0 0) (firstHasReceived 576460752303423488) 1 := by
  have hstored : (networkRow 0 "S" ((initNetwork idleInterfaces (firstHasReceived 0 0)).totalsOf
      (firstHasReceived 576460752303423488) 0)).inboundTraffic = -9223372036854 := by rfl
  refine ⟨firstHasReceived_bounded (by decide) (by decide), hstored, ?_⟩
  intro hrun
  have hnonneg := (hrun 0 (by decide) .inbound).2 0 "S"
  rw [NetworkRow.traffic, hstored] at hnonneg
  revert hnonneg
  decide

end Crum
