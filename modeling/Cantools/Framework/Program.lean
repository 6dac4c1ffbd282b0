import Mathlib.Data.List.Forall2

/-!
# Programs that fail or panic

A function of the source ends with a value, with an error of its own, or with a panic: an index
or a slice out of range. `Run ε α` has all three endings, so that `f x = .ok y` also says that
`f` does not panic on `x`.

A loop that pushes the results of a fallible body and stops at its first fault is `List.mapM`;
`mapM_eq_ok_iff` is its rule.
-/

namespace Program

/-- The ways not to return a value. -/
inductive Fault (ε : Type) where
  /-- An error the function returns. -/
  | error (e : ε)
  /-- The program stops. -/
  | panic
  deriving DecidableEq, Repr

/-- A run that returns a value, an error or panics. -/
abbrev Run (ε : Type) (α : Type) := Except (Fault ε) α

variable {ε α β : Type}

/-- An access that panics where it is `none`. -/
def orPanic : Option α → Run ε α
  | some a => .ok a
  | none => .error .panic

/-- The `?` operator: return the error of a fallible call. -/
def orFail : Except ε α → Run ε α
  | .ok a => .ok a
  | .error e => .error (.error e)

/-- The result of a call, value or error, for a caller that looks at it. -/
def result {ε' : Type} : Run ε α → Run ε' (Except ε α)
  | .ok a => .ok (.ok a)
  | .error (.error e) => .ok (.error e)
  | .error .panic => .error .panic

@[simp] theorem orPanic_some (a : α) : (orPanic (some a) : Run ε α) = .ok a := rfl

@[simp] theorem orFail_ok (a : α) : (orFail (.ok a) : Run ε α) = .ok a := rfl

theorem orFail_eq_ok_iff {x : Except ε α} {a : α} : (orFail x : Run ε α) = .ok a ↔ x = .ok a := by
  cases x <;> simp [orFail]

@[simp] theorem ok_bind (a : α) (f : α → Except ε β) : (Except.ok a >>= f) = f a := rfl

theorem bind_eq_ok_iff {x : Except ε α} {f : α → Except ε β} {b : β} :
    (x >>= f) = .ok b ↔ ∃ a, x = .ok a ∧ f a = .ok b := by
  cases x with
  | error e =>
    constructor
    · intro h
      cases h
    · rintro ⟨a, h, -⟩
      cases h
  | ok a =>
    constructor
    · exact fun h => ⟨a, rfl, h⟩
    · rintro ⟨a', h, h_f⟩
      cases h
      exact h_f

theorem mapError_eq_ok_iff {ε' : Type} {x : Except ε α} {f : ε → ε'} {a : α} :
    x.mapError f = .ok a ↔ x = .ok a := by
  cases x <;> simp [Except.mapError]

/-- **The loop rule.** The loop returns exactly when the body returns for every item, and then it
has the results in order. -/
theorem mapM_eq_ok_iff {f : α → Except ε β} {xs : List α} {ys : List β} :
    xs.mapM f = .ok ys ↔ List.Forall₂ (fun x y => f x = .ok y) xs ys := by
  constructor
  · intro h
    induction xs generalizing ys with
    | nil =>
      cases h
      exact .nil
    | cons x xs ih =>
      rw [List.mapM_cons] at h
      -- the first element, and then the others
      obtain ⟨y, h_y, h⟩ := bind_eq_ok_iff.mp h
      obtain ⟨rest, h_rest, h⟩ := bind_eq_ok_iff.mp h
      cases h
      exact .cons h_y (ih h_rest)
  · intro h
    induction h with
    | nil => rfl
    | cons h_head _ ih =>
      rw [List.mapM_cons, h_head, ih]
      rfl

theorem mapM_eq_ok {f : α → Except ε β} {xs : List α} {ys : List β}
    (h : List.Forall₂ (fun x y => f x = .ok y) xs ys) : xs.mapM f = .ok ys :=
  mapM_eq_ok_iff.mpr h

/-- Each result of the loop is one of the body. -/
theorem exists_of_mem_mapM {f : α → Except ε β} {xs : List α} {ys : List β}
    (h : xs.mapM f = .ok ys) {y : β} (h_y : y ∈ ys) : ∃ x ∈ xs, f x = .ok y := by
  have h_all := mapM_eq_ok_iff.mp h
  induction h_all with
  | nil => cases h_y
  | @cons x y' xs ys h_head h_tail ih =>
    rcases List.mem_cons.mp h_y with rfl | h_y
    · exact ⟨x, List.mem_cons_self .., h_head⟩
    · obtain ⟨x', h_x', h_f⟩ := ih (mapM_eq_ok_iff.mpr h_tail) h_y
      exact ⟨x', List.mem_cons_of_mem _ h_x', h_f⟩

end Program
