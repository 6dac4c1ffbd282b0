import Mathlib.Algebra.BigOperators.Group.Finset.Basic
import Mathlib.Algebra.Order.BigOperators.Group.Finset

/-!
# Timed traces

A component that waits and emits events leaves a trace of both: `emitted` has the events of a
trace, and `waited k` the time that was spent before the event of index `k`.

A component that repeats events of known instants waits, before each of them, for the time that
has passed since the one before, and not at all when time has gone back. Up to an event it has
waited for the `climb` of the instants, which is never less than the time between the first event
and this one (`sub_le_climb`), and is that time if the instants do not go back (`climb_eq_sub`).
-/

namespace Timed

/-! ### Traces -/

/-- What a component does. -/
inductive Action (Event : Type*) where
  | wait (duration : ℕ)
  | emit (event : Event)
  deriving DecidableEq, Repr

variable {Event : Type*}

/-- The events of a trace. -/
def emitted : List (Action Event) → List Event
  | [] => []
  | .wait _ :: trace => emitted trace
  | .emit event :: trace => event :: emitted trace

/-- The time spent before the event of this index. -/
def waited : ℕ → List (Action Event) → ℕ
  | _, [] => 0
  | k, .wait duration :: trace => duration + waited k trace
  | 0, .emit _ :: _ => 0
  | k + 1, .emit _ :: trace => waited k trace

@[simp] theorem emitted_nil : emitted ([] : List (Action Event)) = [] := rfl

@[simp] theorem emitted_wait (duration : ℕ) (trace : List (Action Event)) :
    emitted (.wait duration :: trace) = emitted trace := rfl

@[simp] theorem emitted_emit (event : Event) (trace : List (Action Event)) :
    emitted (.emit event :: trace) = event :: emitted trace := rfl

@[simp] theorem waited_wait (k duration : ℕ) (trace : List (Action Event)) :
    waited k (.wait duration :: trace) = duration + waited k trace := by
  cases k <;> rfl

@[simp] theorem waited_emit_zero (event : Event) (trace : List (Action Event)) :
    waited 0 (.emit event :: trace) = 0 := rfl

@[simp] theorem waited_emit_succ (k : ℕ) (event : Event) (trace : List (Action Event)) :
    waited (k + 1) (.emit event :: trace) = waited k trace := rfl

/-! ### Instants -/

section Climb

variable {G : Type*} [AddCommGroup G] [LinearOrder G]

/-- The sum of all steps upwards, up to an index. -/
def climb (t : ℕ → G) (k : ℕ) : G := ∑ j ∈ Finset.range k, max 0 (t (j + 1) - t j)

@[simp] theorem climb_zero (t : ℕ → G) : climb t 0 = 0 := Finset.sum_range_zero _

/-- The first step and the others. -/
theorem climb_succ (t : ℕ → G) (k : ℕ) :
    climb t (k + 1) = max 0 (t 1 - t 0) + climb (fun j => t (j + 1)) k := by
  rw [climb, Finset.sum_range_succ', add_comm]
  rfl

/-- The climb to an instant is at least the way there. -/
theorem sub_le_climb [IsOrderedAddMonoid G] (t : ℕ → G) (k : ℕ) : t k - t 0 ≤ climb t k := calc
  t k - t 0 = ∑ j ∈ Finset.range k, (t (j + 1) - t j) := (Finset.sum_range_sub t k).symm
  _ ≤ climb t k := Finset.sum_le_sum fun _ _ => le_max_right _ _

/-- **Instants that do not go back** are climbed to directly. -/
theorem climb_eq_sub [IsOrderedAddMonoid G] {t : ℕ → G} {k : ℕ} (h : ∀ j < k, t j ≤ t (j + 1)) :
    climb t k = t k - t 0 := calc
  climb t k = ∑ j ∈ Finset.range k, (t (j + 1) - t j) :=
    Finset.sum_congr rfl fun j h_j =>
      max_eq_right (sub_nonneg.mpr (h j (Finset.mem_range.mp h_j)))
  _ = t k - t 0 := Finset.sum_range_sub t k

end Climb

end Timed
