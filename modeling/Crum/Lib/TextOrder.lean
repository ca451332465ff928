/-
Module: Crum.Lib.TextOrder
Layer: Lib
Purpose: Texts of a fixed width whose lexicographic order is the order of what they stand for. Such codes
  stay so behind a fixed symbol, one after another (the order is then lexicographic in the parts) and under
  one more digit of a positional numeral.
Imports: Mathlib
Trusted boundary: none
Main exports: OrderCode, OrderCode.le_iff, OrderCode.symbol, OrderCode.cons, OrderCode.append, OrderCode.digit,
  OrderCode.comap
Open obligations: none
-/
import Mathlib

/-- On `s` every text has the given width and texts compare as what they stand for. -/
structure OrderCode {ι β : Type*} [LT ι] [LT β] (s : Set ι) (width : ℕ) (code : ι → List β) : Prop where
  length_eq : ∀ ⦃a⦄, a ∈ s → (code a).length = width
  lt_iff : ∀ ⦃a⦄, a ∈ s → ∀ ⦃b⦄, b ∈ s → (code a < code b ↔ a < b)

namespace OrderCode

variable {ι κ β : Type*} [LinearOrder ι] [LinearOrder κ] [LinearOrder β]
variable {s : Set ι} {t : Set κ} {width tail : ℕ} {code : ι → List β} {next : κ → List β}

/-- Between texts of one length the first difference decides. -/
theorem append_lt_append_iff {a b x y : List β} (hlen : a.length = b.length) :
    a ++ x < b ++ y ↔ a < b ∨ a = b ∧ x < y := by
  induction a generalizing b with
  | nil =>
      have hb : b = [] := List.length_eq_zero_iff.mp hlen.symm
      subst hb
      simp
  | cons c a ih =>
      cases b with
      | nil => cases hlen
      | cons d b =>
          have htail : a ++ x < b ++ y ↔ a < b ∨ a = b ∧ x < y := ih (Nat.succ.inj hlen)
          simp only [List.cons_append, List.cons_lt_cons_iff, htail, List.cons.injEq]
          tauto

theorem injOn (h : OrderCode s width code) {a b : ι} (ha : a ∈ s) (hb : b ∈ s)
    (heq : code a = code b) : a = b := by
  apply le_antisymm
  · apply not_lt.mp
    intro hlt
    exact lt_irrefl _ (heq ▸ (h.lt_iff hb ha).mpr hlt)
  · apply not_lt.mp
    intro hlt
    exact lt_irrefl _ (heq ▸ (h.lt_iff ha hb).mpr hlt)

theorem le_iff (h : OrderCode s width code) {a b : ι} (ha : a ∈ s) (hb : b ∈ s) :
    code a ≤ code b ↔ a ≤ b := by
  rw [← not_lt, h.lt_iff hb ha, not_lt]

/-- A single symbol. -/
theorem symbol {d : ι → β} (hd : StrictMonoOn d s) : OrderCode s 1 fun a => [d a] where
  length_eq _ _ := rfl
  lt_iff a ha b hb := by
    rw [List.cons_lt_cons_iff]
    simp [hd.lt_iff_lt ha hb]

/-- Behind a fixed symbol. -/
theorem cons (c : β) (h : OrderCode s width code) : OrderCode s (width + 1) fun a => c :: code a where
  length_eq a ha := by rw [List.length_cons, h.length_eq ha]
  lt_iff a ha b hb := by
    rw [List.cons_lt_cons_iff]
    simp [h.lt_iff ha hb]

/-- One code after another: pairs in lexicographic order. -/
theorem append (h : OrderCode s width code) (hnext : OrderCode t tail next) :
    OrderCode {p : ι ×ₗ κ | (ofLex p).1 ∈ s ∧ (ofLex p).2 ∈ t} (width + tail)
      fun p => code (ofLex p).1 ++ next (ofLex p).2 where
  length_eq p hp := by rw [List.length_append, h.length_eq hp.1, hnext.length_eq hp.2]
  lt_iff p hp q hq := by
    have hlen : (code (ofLex p).1).length = (code (ofLex q).1).length := by
      rw [h.length_eq hp.1, h.length_eq hq.1]
    have heq : code (ofLex p).1 = code (ofLex q).1 ↔ (ofLex p).1 = (ofLex q).1 :=
      ⟨h.injOn hp.1 hq.1, congrArg code⟩
    rw [append_lt_append_iff hlen, h.lt_iff hp.1 hq.1, hnext.lt_iff hp.2 hq.2, heq, Prod.Lex.lt_iff]

theorem congr {other : ι → List β} (h : OrderCode s width code) (heq : Set.EqOn other code s) :
    OrderCode s width other where
  length_eq a ha := by rw [heq ha, h.length_eq ha]
  lt_iff a ha b hb := by rw [heq ha, heq hb, h.lt_iff ha hb]

/-- The code of an image under a map that keeps the order. -/
theorem comap {e : κ → ι} (h : OrderCode s width code) (hmaps : Set.MapsTo e t s)
    (he : StrictMonoOn e t) : OrderCode t width fun a => code (e a) where
  length_eq _ ha := h.length_eq (hmaps ha)
  lt_iff a ha b hb := by rw [h.lt_iff (hmaps ha) (hmaps hb), he.lt_iff_lt ha hb]

/-- Division with remainder keeps the order. -/
theorem strictMono_divMod (k : ℕ) :
    StrictMono fun n : ℕ => (toLex (n / k, n % k) : ℕ ×ₗ ℕ) := by
  intro a b hab
  rw [Prod.Lex.toLex_lt_toLex]
  rcases lt_or_eq_of_le (Nat.div_le_div_right (c := k) hab.le) with hlt | heq
  · exact Or.inl hlt
  · right
    refine ⟨heq, ?_⟩
    have ha : k * (a / k) + a % k = a := Nat.div_add_mod a k
    have hb : k * (b / k) + b % k = b := Nat.div_add_mod b k
    rw [heq] at ha
    omega

/-- One more digit of a numeral to base `k`. -/
theorem digit {k n : ℕ} (hk : 0 < k) {numeral : ℕ → List β} {d : ℕ → β}
    (h : OrderCode {q | q < n} width numeral) (hd : StrictMonoOn d {r | r < k}) :
    OrderCode {x | x < n * k} (width + 1) fun x => numeral (x / k) ++ [d (x % k)] := by
  have hpair := h.append (symbol hd)
  apply hpair.comap (e := fun x : ℕ => (toLex (x / k, x % k) : ℕ ×ₗ ℕ))
  · intro x hx
    exact ⟨Nat.div_lt_of_lt_mul (by rwa [Nat.mul_comm]), Nat.mod_lt x hk⟩
  · exact (strictMono_divMod k).strictMonoOn _

end OrderCode
