import Mathlib.Logic.Basic
import Mathlib.Order.Basic
import Mathlib.Order.Nat

/-!
# Step machines: runs over an input stream, invariants and two-run relations

A step machine is a function `step : σ → ι → σ × ο`: one input, one new state and the output
of that step.  Nothing here looks inside the state.  A run is taken over a stream
`inputs : ℕ → ι`; a finite run is a prefix of one, so a statement about every `n` covers both.

* `stateAt` / `outputAt` — the state before input `n` and the output it produces;
* `stateAt_invariant` — what one step preserves, every state of the run has;
* `stateAt_fixed` — a state that every input leaves alone is never left;
* `stateAt_related` — the lock-step rule for two machines;
* `after` / `outcomes` — a run over a list of inputs, and how it grows by one input.
-/

namespace StepMachine

variable {σ τ ι κ ο ω : Type*}

/-- The state before the `n`-th input is consumed. -/
def stateAt (step : σ → ι → σ × ο) (s : σ) (inputs : ℕ → ι) : ℕ → σ
  | 0 => s
  | n + 1 => (step (stateAt step s inputs n) (inputs n)).1

/-- The output produced by the `n`-th input. -/
def outputAt (step : σ → ι → σ × ο) (s : σ) (inputs : ℕ → ι) (n : ℕ) : ο :=
  (step (stateAt step s inputs n) (inputs n)).2

section Single

variable {step : σ → ι → σ × ο} {s : σ} {inputs : ℕ → ι}

@[simp] theorem stateAt_zero : stateAt step s inputs 0 = s := rfl

theorem stateAt_succ (n : ℕ) :
    stateAt step s inputs (n + 1) = (step (stateAt step s inputs n) (inputs n)).1 := rfl

/-- **The run rule.**  What holds at the start and is preserved by every step holds of every
state of every run. -/
theorem stateAt_invariant (Inv : σ → Prop) (h0 : Inv s)
    (hstep : ∀ a x, Inv a → Inv (step a x).1) : ∀ n, Inv (stateAt step s inputs n) := by
  intro n
  induction n with
  | zero => exact h0
  | succ n ih => exact hstep _ _ ih

/-- The run rule from a later state on. -/
theorem stateAt_invariant_from (Inv : σ → Prop) {m : ℕ} (hm : Inv (stateAt step s inputs m))
    (hstep : ∀ a x, Inv a → Inv (step a x).1) : ∀ n, m ≤ n → Inv (stateAt step s inputs n) := by
  intro n hn
  induction n, hn using Nat.le_induction with
  | base => exact hm
  | succ n _ ih => exact hstep _ _ ih

/-- A state that every input leaves alone is never left. -/
theorem stateAt_fixed {m : ℕ}
    (hfix : ∀ x, (step (stateAt step s inputs m) x).1 = stateAt step s inputs m) :
    ∀ n, m ≤ n → stateAt step s inputs n = stateAt step s inputs m := by
  intro n hn
  induction n, hn using Nat.le_induction with
  | base => rfl
  | succ n _ ih => rw [stateAt_succ, ih]; exact hfix _

end Single

section OverList

/-- The state after a list of inputs. -/
def after (step : σ → ι → σ × ο) (s : σ) : List ι → σ
  | [] => s
  | x :: xs => after step (step s x).1 xs

/-- What each input of a list leads to: the state after it and its output. -/
def outcomes (step : σ → ι → σ × ο) (s : σ) : List ι → List (σ × ο)
  | [] => []
  | x :: xs => step s x :: outcomes step (step s x).1 xs

variable (step : σ → ι → σ × ο) (s : σ)

@[simp] theorem after_concat (xs : List ι) (x : ι) :
    after step s (xs ++ [x]) = (step (after step s xs) x).1 := by
  induction xs generalizing s with
  | nil => rfl
  | cons y xs ih => exact ih _

@[simp] theorem outcomes_concat (xs : List ι) (x : ι) :
    outcomes step s (xs ++ [x]) = outcomes step s xs ++ [step (after step s xs) x] := by
  induction xs generalizing s with
  | nil => rfl
  | cons y xs ih => exact congrArg (_ :: ·) (ih _)

@[simp] theorem length_outcomes (xs : List ι) : (outcomes step s xs).length = xs.length := by
  induction xs generalizing s with
  | nil => rfl
  | cons y xs ih => exact congrArg (· + 1) (ih _)

end OverList

section Double

variable {step : σ → ι → σ × ο} {step' : τ → κ → τ × ω}
variable {s : σ} {t : τ} {inputs : ℕ → ι} {inputs' : ℕ → κ}

/-- **The lock-step rule.**  Two runs that start related, and whose steps on the paired inputs
keep the relation, are related at every state. -/
theorem stateAt_related (R : σ → τ → Prop) (h0 : R s t)
    (hstep : ∀ a b n, R a b → R (step a (inputs n)).1 (step' b (inputs' n)).1) :
    ∀ n, R (stateAt step s inputs n) (stateAt step' t inputs' n) := by
  intro n
  induction n with
  | zero => exact h0
  | succ n ih => exact hstep _ _ n ih

end Double

end StepMachine
