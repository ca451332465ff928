/-
Module: Crum.Lib.CarrySeries
Layer: Lib
Purpose: Pending differences that are settled with a running sum again and again while new growth comes in.
  The sum carried past the first `m` entries obeys a Pascal rule in the number of the round and in `m`, so
  it has a closed form in the growth with alternating binomial coefficients.
Imports: Mathlib
Trusted boundary: none
Main exports: carriedSum, carriedSum_first, carriedSum_succ, clampedTotal, clampedTotal_isGreatest,
  abs_carriedSum_le, clampedTotal_le
Open obligations: none
-/
import Mathlib

namespace CarrySeries

/-- With growth `g t j` of entry `j` in round `t`: the sum carried past the first `m` entries in round
`t`. -/
def carriedSum (g : Nat → Nat → Int) (t m : Nat) : Int :=
  ∑ k ∈ Finset.range (t + 1), ∑ j ∈ Finset.range m, (-1) ^ k * ((m - 1 - j).choose k : Int) * g (t - k) j

variable {g : Nat → Nat → Int}

@[simp] theorem carriedSum_zero (t : Nat) : carriedSum g t 0 = 0 := by
  simp [carriedSum]

/-- In the first round nothing but the growth is carried. -/
theorem carriedSum_first (m : Nat) : carriedSum g 0 m = ∑ j ∈ Finset.range m, g 0 j := by
  simp [carriedSum]

/-- The terms of one entry. -/
theorem carriedSum_comm (t m : Nat) :
    carriedSum g t m = ∑ j ∈ Finset.range m, ∑ k ∈ Finset.range (t + 1),
      (-1) ^ k * ((m - 1 - j).choose k : Int) * g (t - k) j := by
  rw [carriedSum, Finset.sum_comm]

/-- Pascal's rule for the terms of one entry that is not the last. -/
theorem pascal_terms (f : Nat → Int) (t d : Nat) :
    ∑ k ∈ Finset.range (t + 2), (-1) ^ k * ((d + 1).choose k : Int) * f (t + 1 - k) =
      ∑ k ∈ Finset.range (t + 2), (-1) ^ k * (d.choose k : Int) * f (t + 1 - k) -
        ∑ k ∈ Finset.range (t + 1), (-1) ^ k * (d.choose k : Int) * f (t - k) := by
  rw [Finset.sum_range_succ', Finset.sum_range_succ' _ (t + 1)]
  have hterm : ∀ k ∈ Finset.range (t + 1),
      (-1) ^ (k + 1) * ((d + 1).choose (k + 1) : Int) * f (t + 1 - (k + 1)) =
        (-1) ^ (k + 1) * (d.choose (k + 1) : Int) * f (t + 1 - (k + 1)) -
          (-1) ^ k * (d.choose k : Int) * f (t - k) := by
    intro k _
    rw [Nat.choose_succ_succ, Nat.add_sub_add_right, pow_succ]
    push_cast
    ring
  rw [Finset.sum_congr rfl hterm, Finset.sum_sub_distrib]
  simp only [Nat.choose_zero_right]
  ring

/-- The last entry contributes its growth and nothing of earlier rounds. -/
theorem last_terms (f : Nat → Int) (t : Nat) :
    ∑ k ∈ Finset.range (t + 1), (-1) ^ k * ((0 : Nat).choose k : Int) * f (t - k) = f t := by
  rw [Finset.sum_range_succ']
  simp

/-- What is carried past one more entry: its own growth is added, and what was carried past the entries
before it in the last round is taken off, since their differences are in its baseline already. -/
theorem carriedSum_succ (t m : Nat) :
    carriedSum g (t + 1) (m + 1) = carriedSum g (t + 1) m + g (t + 1) m - carriedSum g t m := by
  have hentry : ∀ j ∈ Finset.range m,
      ∑ k ∈ Finset.range (t + 2), (-1) ^ k * ((m + 1 - 1 - j).choose k : Int) * g (t + 1 - k) j =
        ∑ k ∈ Finset.range (t + 2), (-1) ^ k * ((m - 1 - j).choose k : Int) * g (t + 1 - k) j -
          ∑ k ∈ Finset.range (t + 1), (-1) ^ k * ((m - 1 - j).choose k : Int) * g (t - k) j := by
    intro j hj
    have hdepth : m + 1 - 1 - j = (m - 1 - j) + 1 := by
      have := Finset.mem_range.mp hj
      omega
    rw [hdepth]
    exact pascal_terms (fun s => g s j) t (m - 1 - j)
  have hlast : ∑ k ∈ Finset.range (t + 2), (-1) ^ k * ((m + 1 - 1 - m).choose k : Int) * g (t + 1 - k) m =
      g (t + 1) m := by
    rw [Nat.add_sub_cancel, Nat.sub_self]
    exact last_terms (fun s => g s m) (t + 1)
  rw [carriedSum_comm, Finset.sum_range_succ, Finset.sum_congr rfl hentry, hlast,
    Finset.sum_sub_distrib, ← carriedSum_comm, ← carriedSum_comm]
  ring

/-! ### The running total -/

/-- The running total of the first `m` carried sums, reset to zero whenever it is negative. -/
def clampedTotal (e : Nat → Int) : Nat → Int
  | 0 => 0
  | m + 1 => max 0 (clampedTotal e m + e (m + 1))

theorem clampedTotal_nonneg (e : Nat → Int) (m : Nat) : 0 ≤ clampedTotal e m := by
  cases m with
  | zero => exact le_rfl
  | succ m => exact le_max_left 0 _

/-- The sum of the terms after number `k`, up to the last one. -/
def blockSum (e : Nat → Int) (k m : Nat) : Int := ∑ i ∈ Finset.Ioc k m, e i

@[simp] theorem blockSum_self (e : Nat → Int) (m : Nat) : blockSum e m m = 0 := by
  simp [blockSum]

theorem blockSum_succ (e : Nat → Int) {k m : Nat} (h : k ≤ m) :
    blockSum e k (m + 1) = blockSum e k m + e (m + 1) := by
  rw [blockSum, Finset.sum_Ioc_succ_top h]
  rfl

/-- The running total is the greatest sum of the last terms, however many of them are taken. -/
theorem clampedTotal_isGreatest (e : Nat → Int) (m : Nat) :
    IsGreatest {s | ∃ k ≤ m, s = blockSum e k m} (clampedTotal e m) := by
  induction m with
  | zero =>
      constructor
      · exact ⟨0, le_rfl, (blockSum_self e 0).symm⟩
      · rintro s ⟨k, hk, rfl⟩
        rw [Nat.le_zero.mp hk, blockSum_self]
        exact le_rfl
  | succ m ih =>
      rcases ih with ⟨⟨k, hk, htotal⟩, hupper⟩
      constructor
      · -- a reset leaves the block of no terms, else the block grows by the new term
        rcases le_total 0 (clampedTotal e m + e (m + 1)) with hpos | hneg
        · exact ⟨k, Nat.le_succ_of_le hk, by rw [clampedTotal, max_eq_right hpos, htotal, blockSum_succ e hk]⟩
        · exact ⟨m + 1, le_rfl, by rw [clampedTotal, max_eq_left hneg, blockSum_self]⟩
      · rintro s ⟨j, hj, rfl⟩
        rcases Nat.lt_or_eq_of_le hj with hlt | rfl
        · have hjm := Nat.le_of_lt_succ hlt
          have hbefore := hupper ⟨j, hjm, rfl⟩
          rw [blockSum_succ e hjm]
          exact (add_le_add_left hbefore _).trans (le_max_right 0 _)
        · rw [blockSum_self]
          exact le_max_left 0 _

/-! ### Bounds -/

/-- If no growth exceeds `B`, what is carried at most doubles from entry to entry. -/
theorem abs_carriedSum_le {B : Int} {n t : Nat} (hB : 0 ≤ B)
    (hgrowth : ∀ s ≤ t, ∀ j < n, |g s j| ≤ B) : ∀ m ≤ n, |carriedSum g t m| ≤ (2 ^ m - 1) * B := by
  induction t with
  | zero =>
      intro m hm
      induction m with
      | zero => simp
      | succ m ih =>
          have hhead := ih (Nat.le_of_succ_le hm)
          have hlast := hgrowth 0 le_rfl m hm
          have hpow : (1 : Int) ≤ 2 ^ m := one_le_pow₀ (by decide)
          rw [carriedSum_first, Finset.sum_range_succ, ← carriedSum_first]
          calc |carriedSum g 0 m + g 0 m| ≤ |carriedSum g 0 m| + |g 0 m| := abs_add_le _ _
            _ ≤ (2 ^ m - 1) * B + B := add_le_add hhead hlast
            _ ≤ (2 ^ (m + 1) - 1) * B := by
                rw [pow_succ]
                nlinarith
  | succ t iht =>
      have hearlier := iht fun s hs => hgrowth s (Nat.le_succ_of_le hs)
      intro m hm
      induction m with
      | zero => simp
      | succ m ih =>
          have hhead := ih (Nat.le_of_succ_le hm)
          have hlast := hgrowth (t + 1) le_rfl m hm
          have hbefore := hearlier m (Nat.le_of_succ_le hm)
          rw [carriedSum_succ]
          calc |carriedSum g (t + 1) m + g (t + 1) m - carriedSum g t m|
              ≤ |carriedSum g (t + 1) m + g (t + 1) m| + |carriedSum g t m| := abs_sub _ _
            _ ≤ |carriedSum g (t + 1) m| + |g (t + 1) m| + |carriedSum g t m| := by
                gcongr
                exact abs_add_le _ _
            _ ≤ (2 ^ m - 1) * B + B + (2 ^ m - 1) * B := by gcongr
            _ = (2 ^ (m + 1) - 1) * B := by ring

/-- The running total is at most twice as large as that bound. -/
theorem clampedTotal_le {e : Nat → Int} {B : Int} {n : Nat} (hB : 0 ≤ B)
    (he : ∀ m ≤ n, |e m| ≤ (2 ^ m - 1) * B) : ∀ m ≤ n, clampedTotal e m ≤ 2 ^ (m + 1) * B := by
  intro m hm
  induction m with
  | zero =>
      rw [clampedTotal]
      positivity
  | succ m ih =>
      have hhead := ih (Nat.le_of_succ_le hm)
      have hlast := (le_abs_self _).trans (he (m + 1) hm)
      rw [clampedTotal]
      apply max_le
      · positivity
      · calc clampedTotal e m + e (m + 1) ≤ 2 ^ (m + 1) * B + (2 ^ (m + 1) - 1) * B :=
              add_le_add hhead hlast
          _ ≤ 2 ^ (m + 1 + 1) * B := by
              rw [pow_succ _ (m + 1)]
              linarith

end CarrySeries
