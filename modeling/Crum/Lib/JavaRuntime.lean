/-
Module: Crum.Lib.JavaRuntime
Layer: Lib
Purpose: The partial operations of a Java program and its counted loop. List and array accesses check
  their index, unboxing checks for null, and the loop stops at the first exception. Each operation has
  one equation for its success, and the loop has an invariant rule for runs that return and one for
  showing that it returns. What a sequence of calls throws is put together from what each call throws.
Imports: Mathlib
Trusted boundary: human-reviewed spec of the language's exceptions
Main exports: JavaException, listGet, arrayModify, unbox, forRange, forRange_invariant, forRange_relate,
  forRange_error, forRange_returns, thrown, thrown_bind
Open obligations: none
-/
import Mathlib

/-- The exceptions an operation can throw. -/
inductive JavaException where
  | indexOutOfBounds (index size : Nat)
  | arrayIndexOutOfBounds (index length : Nat)
  | nullPointer
  | illegalArgument
  | sqlConstraint (table : String)
deriving Repr, DecidableEq

namespace JavaRuntime

variable {α β σ ε : Type}

/-- A computation that begins with `x` returns exactly when `x` returns and the rest does. -/
theorem bind_eq_ok_iff {x : Except ε α} {f : α → Except ε β} {b : β} :
    (x >>= f) = .ok b ↔ ∃ a, x = .ok a ∧ f a = .ok b := by
  cases x with
  | error e => simp [bind, Except.bind]
  | ok a => simp [bind, Except.bind]

/-- A computation that is found to return has a result. -/
theorem exists_of_isOk {x : Except ε α} (h : x.isOk = true) : ∃ a, x = .ok a := by
  cases x with
  | error e => cases h
  | ok a => exact ⟨a, rfl⟩

/-- A computation whose result is found to have some property has a result. -/
theorem exists_of_toOption {x : Except ε α} {f : α → β} {b : β} (h : x.toOption.map f = some b) :
    ∃ a, x = .ok a ∧ f a = b := by
  cases x with
  | error e => cases h
  | ok a => exact ⟨a, rfl, Option.some.inj h⟩

/-! ### The exception of a computation -/

/-- The exception that ends a computation, if one does. -/
def thrown : Except ε α → Option ε
  | .ok _ => none
  | .error e => some e

@[simp] theorem thrown_ok (a : α) : thrown (.ok a : Except ε α) = none := rfl

@[simp] theorem thrown_error (e : ε) : thrown (.error e : Except ε α) = some e := rfl

/-- The first of two computations to throw decides; the second is only reached when the first returns. -/
theorem thrown_bind {x : Except ε α} {f : α → Except ε β} {r : Option ε}
    (h : ∀ a, x = .ok a → thrown (f a) = r) : thrown (x >>= f) = (thrown x <|> r) := by
  cases hx : x with
  | error e => rfl
  | ok a => exact h a hx

/-- Only the first can throw when the second never does. -/
theorem thrown_bind_of_none {x : Except ε α} {f : α → Except ε β}
    (h : ∀ a, x = .ok a → thrown (f a) = none) : thrown (x >>= f) = thrown x := by
  cases hx : x with
  | error e => rfl
  | ok a => exact h a hx

/-! ### Lists, arrays and boxes -/

/-- `List.get(i)`. -/
def listGet (xs : List α) (i : Nat) : Except JavaException α :=
  match xs[i]? with
  | some x => .ok x
  | none => .error (.indexOutOfBounds i xs.length)

/-- A write to entry `i` of an array. -/
def arrayModify (xs : List α) (i : Nat) (f : α → α) : Except JavaException (List α) :=
  if i < xs.length then .ok (xs.modify i f) else .error (.arrayIndexOutOfBounds i xs.length)

/-- Unboxing the result of `Map.get`. -/
def unbox (x : Option α) : Except JavaException α :=
  match x with
  | some a => .ok a
  | none => .error .nullPointer

@[simp] theorem listGet_eq_ok_iff {xs : List α} {i : Nat} {x : α} :
    listGet xs i = .ok x ↔ xs[i]? = some x := by
  unfold listGet
  cases xs[i]? <;> simp

@[simp] theorem unbox_eq_ok_iff {x : Option α} {a : α} : unbox x = .ok a ↔ x = some a := by
  cases x <;> simp [unbox]

@[simp] theorem arrayModify_eq_ok_iff {xs ys : List α} {i : Nat} {f : α → α} :
    arrayModify xs i f = .ok ys ↔ i < xs.length ∧ xs.modify i f = ys := by
  unfold arrayModify
  split <;> simp_all

theorem getElem?_modify (xs : List α) (i j : Nat) (f : α → α) :
    (xs.modify i f)[j]? = (xs[j]?).map fun x => if i = j then f x else x := by
  rw [List.getElem?_modify]
  rfl

/-- A write that keeps a projection of its entry keeps that projection of the whole array. -/
theorem map_modify_of_same {g : α → β} {f : α → α} (hsame : ∀ x, g (f x) = g x) (xs : List α) (i : Nat) :
    (xs.modify i f).map g = xs.map g := by
  apply List.ext_getElem?
  intro j
  rw [List.getElem?_map, List.getElem?_map, getElem?_modify, Option.map_map]
  congr 1
  funext x
  simp only [Function.comp_apply]
  split
  · exact hsame x
  · rfl

theorem map_set_of_same {g : α → β} {xs : List α} {i : Nat} {x y : α} (hx : xs[i]? = some x)
    (hsame : g y = g x) : (xs.set i y).map g = xs.map g := by
  apply List.ext_getElem?
  intro j
  rw [List.getElem?_map, List.getElem?_map, List.getElem?_set]
  split
  · next heq =>
      subst heq
      rw [if_pos (List.getElem?_eq_some_iff.mp hx).1, hx, Option.map_some, Option.map_some, hsame]
  · rfl

/-- An entry of a list that was extended by one is an old entry or the new one. -/
theorem getElem?_concat_or {xs : List α} {x y : α} {i : Nat} (h : (xs ++ [x])[i]? = some y) :
    xs[i]? = some y ∨ i = xs.length ∧ y = x := by
  rcases Nat.lt_trichotomy i xs.length with hlt | rfl | hgt
  · rw [List.getElem?_append_left hlt] at h
    exact Or.inl h
  · rw [List.getElem?_concat_length] at h
    exact Or.inr ⟨rfl, (Option.some.inj h).symm⟩
  · have hi := (List.getElem?_eq_some_iff.mp h).1
    rw [List.length_append, List.length_singleton] at hi
    omega

/-! ### The counted loop -/

/-- `for (int i = 0; i < n; i++)`, left at the first exception. -/
def forRange (n : Nat) (body : Nat → σ → Except ε σ) (s : σ) : Except ε σ :=
  (List.range n).foldlM (fun s i => body i s) s

@[simp] theorem forRange_zero (body : Nat → σ → Except ε σ) (s : σ) : forRange 0 body s = .ok s := rfl

/-- The last iteration comes after all the others. -/
theorem forRange_succ (n : Nat) (body : Nat → σ → Except ε σ) (s : σ) :
    forRange (n + 1) body s = forRange n body s >>= body n := by
  simp [forRange, List.range_succ, List.foldlM_append]

/-- Invariant rule: what holds at the start and is kept by every iteration that returns holds when the
loop returns. -/
theorem forRange_invariant {n : Nat} {body : Nat → σ → Except ε σ} {s t : σ} (Inv : Nat → σ → Prop)
    (hstart : Inv 0 s)
    (hkeep : ∀ i < n, ∀ u v, Inv i u → body i u = .ok v → Inv (i + 1) v)
    (hrun : forRange n body s = .ok t) : Inv n t := by
  induction n generalizing t with
  | zero =>
      obtain rfl : s = t := by simpa using hrun
      exact hstart
  | succ n ih =>
      rw [forRange_succ, bind_eq_ok_iff] at hrun
      obtain ⟨u, hu, hlast⟩ := hrun
      have hinv : Inv n u := ih (fun i hi => hkeep i (by omega)) hu
      exact hkeep n (by omega) u t hinv hlast

/-- Two loops in lockstep: what relates their states at the start and is kept by every pair of iterations
that return relates the states in which they return. -/
theorem forRange_relate {τ ε' : Type} {n : Nat} {body : Nat → σ → Except ε σ}
    {body' : Nat → τ → Except ε' τ} {s t : σ} {s' t' : τ} (R : Nat → σ → τ → Prop) (hstart : R 0 s s')
    (hkeep : ∀ i < n, ∀ u u' v v', R i u u' → body i u = .ok v → body' i u' = .ok v' → R (i + 1) v v')
    (hrun : forRange n body s = .ok t) (hrun' : forRange n body' s' = .ok t') : R n t t' := by
  induction n generalizing t t' with
  | zero =>
      obtain rfl : s = t := by simpa using hrun
      obtain rfl : s' = t' := by simpa using hrun'
      exact hstart
  | succ n ih =>
      rw [forRange_succ, bind_eq_ok_iff] at hrun hrun'
      obtain ⟨u, hu, hlast⟩ := hrun
      obtain ⟨u', hu', hlast'⟩ := hrun'
      have hpast : R n u u' := ih (fun i hi => hkeep i (by omega)) hu hu'
      exact hkeep n (by omega) u u' t t' hpast hlast hlast'

/-- The exception of an iteration that is reached ends the whole loop. -/
theorem forRange_error {n k : Nat} {body : Nat → σ → Except ε σ} {s t : σ} {e : ε} (hk : k < n)
    (hreached : forRange k body s = .ok t) (hthrows : body k t = .error e) :
    forRange n body s = .error e := by
  induction n with
  | zero => exact absurd hk (Nat.not_lt_zero k)
  | succ n ih =>
      rw [forRange_succ]
      rcases Nat.lt_succ_iff_lt_or_eq.mp hk with hlt | rfl
      · rw [ih hlt]
        rfl
      · rw [hreached]
        exact hthrows

/-- Total rule: if every iteration returns from a state the invariant allows, the loop returns. -/
theorem forRange_returns (n : Nat) (body : Nat → σ → Except ε σ) (s : σ) (Inv : Nat → σ → Prop)
    (hstart : Inv 0 s)
    (hbody : ∀ i < n, ∀ u, Inv i u → ∃ v, body i u = .ok v ∧ Inv (i + 1) v) :
    ∃ t, forRange n body s = .ok t ∧ Inv n t := by
  induction n with
  | zero => exact ⟨s, rfl, hstart⟩
  | succ n ih =>
      obtain ⟨u, hu, hinv⟩ := ih (fun i hi => hbody i (by omega))
      obtain ⟨v, hv, hinv'⟩ := hbody n (by omega) u hinv
      refine ⟨v, ?_, hinv'⟩
      rw [forRange_succ, bind_eq_ok_iff]
      exact ⟨u, hu, hv⟩

end JavaRuntime
