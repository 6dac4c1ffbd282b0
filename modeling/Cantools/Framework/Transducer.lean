import Mathlib.Data.List.Basic

/-!
# Deterministic transducers

A component that is handed one input at a time, answers each with one output and keeps a
state is a function `step : State → Input → Output × State`. This file has its runs over a
finite input stream and the rules for reasoning about them:

* `outputs` and `final` — the outputs of a run and the state it ends in;
* `final_induction` — an invariant of one step holds of every state a run reaches;
* `outputs_eq_of_simulation` — two transducers related by a simulation answer alike;
* `outputs_wrap` — a transducer behind a translation of its inputs and outputs;
* `outputs_filter` and `final_filter` — inputs whose step leaves the state alone may be
  deleted from the stream: the outputs of the others and the final state stay the same.
-/

namespace Transducer

variable {State State' Input Input' Output Output' : Type*}

/-- The state after a stream of inputs. -/
def final (step : State → Input → Output × State) : State → List Input → State
  | s, [] => s
  | s, i :: is => final step (step s i).2 is

/-- The outputs along a stream of inputs, oldest first. -/
def outputs (step : State → Input → Output × State) : State → List Input → List Output
  | _, [] => []
  | s, i :: is => (step s i).1 :: outputs step (step s i).2 is

/-- Each input of a stream with the output it was answered with. -/
def trace (step : State → Input → Output × State) (s : State) (is : List Input) :
    List (Input × Output) :=
  is.zip (outputs step s is)

variable {step : State → Input → Output × State} {step' : State' → Input → Output × State'}

@[simp] theorem final_nil (s : State) : final step s [] = s := rfl

@[simp] theorem final_cons (s : State) (i : Input) (is : List Input) :
    final step s (i :: is) = final step (step s i).2 is := rfl

@[simp] theorem outputs_nil (s : State) : outputs step s [] = [] := rfl

@[simp] theorem outputs_cons (s : State) (i : Input) (is : List Input) :
    outputs step s (i :: is) = (step s i).1 :: outputs step (step s i).2 is := rfl

@[simp] theorem trace_cons (s : State) (i : Input) (is : List Input) :
    trace step s (i :: is) = (i, (step s i).1) :: trace step (step s i).2 is := rfl

/-! ### Composition -/

theorem outputs_append (s : State) (is js : List Input) :
    outputs step s (is ++ js) = outputs step s is ++ outputs step (final step s is) js := by
  induction is generalizing s with
  | nil => rfl
  | cons i is ih => exact congrArg _ (ih _)

@[simp] theorem length_outputs (s : State) (is : List Input) :
    (outputs step s is).length = is.length := by
  induction is generalizing s with
  | nil => rfl
  | cons i is ih => exact congrArg _ (ih _)

/-- The outputs read off a trace. -/
theorem trace_map_snd (s : State) (is : List Input) :
    (trace step s is).map Prod.snd = outputs step s is :=
  List.map_snd_zip (Nat.le_of_eq (length_outputs s is))

/-! ### Invariants and simulations -/

/-- **Invariant rule.** A predicate that holds of the first state and is preserved by every
step holds of every state a run reaches. -/
theorem final_induction (Inv : State → Prop) (h_step : ∀ s i, Inv s → Inv (step s i).2)
    {s : State} (h : Inv s) (is : List Input) : Inv (final step s is) := by
  induction is generalizing s with
  | nil => exact h
  | cons i is ih => exact ih (h_step s i h)

/-- **Simulation rule.** If related states answer every input alike and step to related
states, then two runs from related states have the same outputs. -/
theorem outputs_eq_of_simulation {R : State → State' → Prop}
    (h_out : ∀ s s' i, R s s' → (step s i).1 = (step' s' i).1)
    (h_step : ∀ s s' i, R s s' → R (step s i).2 (step' s' i).2)
    {s : State} {s' : State'} (h : R s s') (is : List Input) :
    outputs step s is = outputs step' s' is := by
  induction is generalizing s s' with
  | nil => rfl
  | cons i is ih =>
    rw [outputs_cons, outputs_cons, h_out s s' i h, ih (h_step s s' i h)]

/-- The states two simulated runs end in are related. -/
theorem final_of_simulation {R : State → State' → Prop}
    (h_step : ∀ s s' i, R s s' → R (step s i).2 (step' s' i).2)
    {s : State} {s' : State'} (h : R s s') (is : List Input) :
    R (final step s is) (final step' s' is) := by
  induction is generalizing s s' with
  | nil => exact h
  | cons i is ih => exact ih (h_step s s' i h)

/-! ### Translating inputs and outputs -/

/-- A transducer whose inputs are translated before it, and its outputs behind it. -/
def wrap (input : Input' → Input) (output : Output → Output')
    (step : State → Input → Output × State) (s : State) (i : Input') : Output' × State :=
  (output (step s (input i)).1, (step s (input i)).2)

/-- The outputs are those of the translated stream, translated one by one. -/
theorem outputs_wrap (input : Input' → Input) (output : Output → Output') (s : State)
    (is : List Input') :
    outputs (wrap input output step) s is = (outputs step s (is.map input)).map output := by
  induction is generalizing s with
  | nil => rfl
  | cons i is ih => exact congrArg _ (ih _)

/-! ### Deleting inputs that leave the state alone -/

section Filter

variable {keep : Input × Output → Bool}

/-- Deleting from the stream every input whose step leaves the state alone deletes exactly
those inputs' entries from the trace. -/
theorem trace_filter
    (h_idle : ∀ s i, keep (i, (step s i).1) = false → (step s i).2 = s)
    (s : State) (is : List Input) :
    trace step s (((trace step s is).filter keep).map Prod.fst)
      = (trace step s is).filter keep := by
  -- a deleted input leaves the run where it was, so the rest runs from the same state
  induction is generalizing s with
  | nil => rfl
  | cons i is ih =>
    rw [trace_cons]
    cases h_keep : keep (i, (step s i).1) with
    | true =>
      rw [List.filter_cons_of_pos h_keep, List.map_cons, trace_cons, ih]
    | false =>
      rw [List.filter_cons_of_neg (by simp [h_keep]), h_idle s i h_keep]
      exact ih s

/-- Deleting those inputs does not change the outputs of the others. -/
theorem outputs_filter
    (h_idle : ∀ s i, keep (i, (step s i).1) = false → (step s i).2 = s)
    (s : State) (is : List Input) :
    outputs step s (((trace step s is).filter keep).map Prod.fst)
      = ((trace step s is).filter keep).map Prod.snd := by
  rw [← trace_map_snd, trace_filter h_idle]

/-- Deleting those inputs does not change the final state. -/
theorem final_filter
    (h_idle : ∀ s i, keep (i, (step s i).1) = false → (step s i).2 = s)
    (s : State) (is : List Input) :
    final step s (((trace step s is).filter keep).map Prod.fst) = final step s is := by
  induction is generalizing s with
  | nil => rfl
  | cons i is ih =>
    rw [trace_cons]
    cases h_keep : keep (i, (step s i).1) with
    | true =>
      rw [List.filter_cons_of_pos h_keep, List.map_cons, final_cons, final_cons, ih]
    | false =>
      rw [List.filter_cons_of_neg (by simp [h_keep]), final_cons, h_idle s i h_keep]
      exact ih s

end Filter

end Transducer
