import Mathlib.Data.List.Basic
import Mathlib.Data.List.Forall2
import Mathlib.Order.Basic
import Mathlib.Order.Lattice

/-!
# Programs that talk to the outside world

A program asks the outside world (a kernel, a clock, a bus) one thing after the other, and goes on
with what it answers. `Interaction` is such a program as a function of the world: what it did, the
value or the error it ended with, and the world it left. The world is a type of states about which
nothing is known but what a caller assumes of the single questions.

* `bind_cases` takes a program apart at its first step;
* `Keeps` is the judgment that a relation between worlds, which the actions in between are part
  of, holds over a program, however it ends; it composes (`Keeps.bind`), so that a fact about the
  questions becomes one about every program that asks them;
* `scan` runs one program for each item of a list, up to the first error;
* `loop` repeats a program until it says that it is done, for a number of rounds; `Settles` says
  that enough rounds give a result, which no more of them change, and `settles_loop` is its rule
  for a measure that every round lowers.
-/

/-- A program: its actions, its result and the world behind it. -/
def Interaction (World Action ε α : Type) := World → List Action × Except ε α × World

namespace Interaction

variable {World Action ε ε' α β : Type}

/-- A program and, if it ends with a value, the program that goes on with it. -/
def andThen (p : Interaction World Action ε α) (f : α → Interaction World Action ε β) :
    Interaction World Action ε β := fun world =>
  match p world with
  | (actions, .error e, next) => (actions, .error e, next)
  | (actions, .ok a, next) =>
    match f a next with
    | (later, result, last) => (actions ++ later, result, last)

instance : Monad (Interaction World Action ε) where
  pure a world := ([], .ok a, world)
  bind := andThen

/-- End with an error. -/
def fail (e : ε) : Interaction World Action ε α := fun world => ([], .error e, world)

/-- Ask the world, and log what was asked and answered. -/
def ask (question : World → α × World) (log : α → List Action) :
    Interaction World Action ε α := fun world =>
  match question world with
  | (answer, next) => (log answer, .ok answer, next)

/-- Look at the world without changing it. -/
def look (view : World → α) : Interaction World Action ε α := fun world =>
  ([], .ok (view world), world)

/-- The result of a program, value or error, for a program that looks at it. -/
def attempt (p : Interaction World Action ε α) : Interaction World Action ε' (Except ε α) :=
  fun world =>
  match p world with
  | (actions, result, next) => (actions, .ok result, next)

/-- An error of a program in the type of its caller. -/
def mapError (f : ε → ε') (p : Interaction World Action ε α) : Interaction World Action ε' α :=
  fun world =>
  match p world with
  | (actions, result, next) => (actions, result.mapError f, next)

theorem pure_apply (a : α) (world : World) :
    (pure a : Interaction World Action ε α) world = ([], .ok a, world) := rfl

theorem bind_apply_ok {p : Interaction World Action ε α} {f : α → Interaction World Action ε β}
    {world next : World} {actions : List Action} {a : α} (h : p world = (actions, .ok a, next)) :
    (p >>= f) world = (actions ++ (f a next).1, (f a next).2.1, (f a next).2.2) := by
  show andThen p f world = _
  rw [andThen, h]

/-- A first step that does nothing leads to the rest. -/
theorem bind_apply_silent {p : Interaction World Action ε α}
    {f : α → Interaction World Action ε β} {world next : World} {a : α}
    (h : p world = ([], .ok a, next)) : (p >>= f) world = f a next := bind_apply_ok h

theorem bind_apply_error {p : Interaction World Action ε α}
    {f : α → Interaction World Action ε β} {world next : World} {actions : List Action} {e : ε}
    (h : p world = (actions, .error e, next)) : (p >>= f) world = (actions, .error e, next) := by
  show andThen p f world = _
  rw [andThen, h]

/-- **The first step of a program** ends it, or leads to the rest behind it. -/
theorem bind_cases (p : Interaction World Action ε α) (f : α → Interaction World Action ε β)
    (world : World) :
    (∃ actions e next, p world = (actions, .error e, next) ∧
      (p >>= f) world = (actions, .error e, next)) ∨
    ∃ actions a next, p world = (actions, .ok a, next) ∧
      (p >>= f) world = (actions ++ (f a next).1, (f a next).2.1, (f a next).2.2) := by
  rcases h : p world with ⟨actions, e | a, next⟩
  · exact .inl ⟨actions, e, next, rfl, bind_apply_error h⟩
  · exact .inr ⟨actions, a, next, rfl, bind_apply_ok h⟩

/-! ### What every run keeps -/

/-- A relation that may be put together along a list of actions. -/
structure Composes (R : World → List Action → World → Prop) : Prop where
  refl : ∀ world, R world [] world
  trans : ∀ {w₁ w₂ w₃ t₁ t₂}, R w₁ t₁ w₂ → R w₂ t₂ w₃ → R w₁ (t₁ ++ t₂) w₃

/-- From a world with `P`, the program keeps `R`, and leads to `Q` if it ends with a value. -/
def Keeps (R : World → List Action → World → Prop) (P : World → Prop)
    (p : Interaction World Action ε α) (Q : α → World → Prop) : Prop :=
  ∀ world, P world → R world (p world).1 (p world).2.2 ∧
    ∀ a, (p world).2.1 = .ok a → Q a (p world).2.2

section Rules

variable {R : World → List Action → World → Prop} {P : World → Prop}

theorem Keeps.pure (h_R : Composes R) {Q : α → World → Prop} {a : α} (h : ∀ w, P w → Q a w) :
    Keeps R P (Pure.pure a : Interaction World Action ε α) Q := by
  intro world h_world
  refine ⟨h_R.refl world, fun a' h_a => ?_⟩
  cases h_a
  exact h world h_world

theorem Keeps.fail (h_R : Composes R) {Q : α → World → Prop} {e : ε} :
    Keeps R P (Interaction.fail e) Q := fun world _ => ⟨h_R.refl world, fun _ h => nomatch h⟩

theorem Keeps.look (h_R : Composes R) {view : World → α} :
    Keeps R P (Interaction.look view : Interaction World Action ε α) fun _ => P :=
  fun world h_world => ⟨h_R.refl world, fun _ _ => h_world⟩

/-- A question keeps what its answer keeps. -/
theorem Keeps.ask {Q : α → World → Prop} {question : World → α × World}
    {log : α → List Action} (h : ∀ w, P w → R w (log (question w).1) (question w).2 ∧
      Q (question w).1 (question w).2) :
    Keeps R P (Interaction.ask question log : Interaction World Action ε α) Q := by
  intro world h_world
  obtain ⟨h_keeps, h_value⟩ := h world h_world
  refine ⟨h_keeps, fun a h_a => ?_⟩
  cases h_a
  exact h_value

/-- **The rule of sequence.** -/
theorem Keeps.bind (h_R : Composes R) {Q : α → World → Prop} {S : β → World → Prop}
    {p : Interaction World Action ε α} {f : α → Interaction World Action ε β}
    (h_p : Keeps R P p Q) (h_f : ∀ a, Keeps R (Q a) (f a) S) : Keeps R P (p >>= f) S := by
  intro world h_world
  obtain ⟨h_first, h_value⟩ := h_p world h_world
  obtain ⟨actions, e, next, h_run, h_bind⟩ | ⟨actions, a, next, h_run, h_bind⟩ :=
    bind_cases p f world
  · rw [h_bind]
    rw [h_run] at h_first
    exact ⟨h_first, fun _ h => nomatch h⟩
  · rw [h_run] at h_first h_value
    obtain ⟨h_rest, h_later⟩ := h_f a next (h_value a rfl)
    rw [h_bind]
    exact ⟨h_R.trans h_first h_rest, h_later⟩

end Rules

/-! ### Programs in a row -/

/-- One program for each item, up to the first error. -/
def scan (body : α → Interaction World Action ε Unit) : List α → Interaction World Action ε Unit
  | [] => pure ()
  | a :: as => do
    body a
    scan body as

/-- **The rule of the loop**: an invariant of the body is one of the loop. -/
theorem Keeps.scan {R : World → List Action → World → Prop} (h_R : Composes R)
    {Inv : World → Prop} {body : α → Interaction World Action ε Unit}
    (h : ∀ a, Keeps R Inv (body a) fun _ => Inv) (as : List α) :
    Keeps R Inv (Interaction.scan body as) fun _ => Inv := by
  induction as with
  | nil => exact Keeps.pure h_R fun _ h_world => h_world
  | cons a as ih => exact Keeps.bind h_R (h a) fun _ => ih

/-- A run of the body for this item that ends with a value. -/
def Ends (body : α → Interaction World Action ε Unit) (a : α) (actions : List Action) : Prop :=
  ∃ world next, body a world = (actions, .ok (), next)

/-- **A row that ends** has a run of the body for every item. -/
theorem scan_eq_ok {body : α → Interaction World Action ε Unit} {as : List α}
    {world next : World} {actions : List Action}
    (h : scan body as world = (actions, .ok (), next)) :
    ∃ runs, List.Forall₂ (Ends body) as runs ∧ actions = runs.flatten := by
  induction as generalizing world actions with
  | nil =>
    cases h
    exact ⟨[], .nil, rfl⟩
  | cons a as ih =>
    obtain ⟨_, _, _, -, h_bind⟩ | ⟨first, _, middle, h_first, h_bind⟩ :=
      bind_cases (body a) (fun _ => scan body as) world
    · cases h.symm.trans h_bind
    · have h_run := h.symm.trans h_bind
      simp only [Prod.mk.injEq] at h_run
      obtain ⟨rfl, h_ok, h_next⟩ := h_run
      obtain ⟨runs, h_runs, h_flat⟩ := ih (Prod.ext rfl (Prod.ext h_ok.symm h_next.symm))
      exact ⟨first :: runs, .cons ⟨world, middle, h_first⟩ h_runs, congrArg (first ++ ·) h_flat⟩

/-- **A row that fails** has runs of the body for the items before the one that fails. -/
theorem scan_eq_error {body : α → Interaction World Action ε Unit} {as : List α}
    {world next : World} {actions : List Action} {e : ε}
    (h : scan body as world = (actions, .error e, next)) :
    ∃ before a after runs last middle, as = before ++ a :: after ∧
      List.Forall₂ (Ends body) before runs ∧ body a middle = (last, .error e, next) ∧
      actions = runs.flatten ++ last := by
  induction as generalizing world actions with
  | nil => cases h
  | cons a as ih =>
    obtain ⟨first, e', last, h_first, h_bind⟩ | ⟨first, _, middle, h_first, h_bind⟩ :=
      bind_cases (body a) (fun _ => scan body as) world
    · cases h.symm.trans h_bind
      exact ⟨[], a, as, [], actions, world, rfl, .nil, h_first, rfl⟩
    · have h_run := h.symm.trans h_bind
      simp only [Prod.mk.injEq] at h_run
      obtain ⟨rfl, h_error, h_next⟩ := h_run
      obtain ⟨before, a', after, runs, last, world', rfl, h_runs, h_last, h_flat⟩ :=
        ih (Prod.ext rfl (Prod.ext h_error.symm h_next.symm))
      refine ⟨a :: before, a', after, first :: runs, last, world', rfl,
        .cons ⟨world, middle, h_first⟩ h_runs, h_last, ?_⟩
      exact (congrArg (first ++ ·) h_flat).trans (List.append_assoc ..).symm

/-! ### Loops -/

/-- Rounds of a body until one of them says that it was the last. A program without rounds left
ends with `none`, which is no error of the body. -/
def loop (body : Interaction World Action ε Bool) : ℕ → Interaction World Action (Option ε) Unit
  | 0 => fail none
  | rounds + 1 => do
    if ← mapError some body then pure ()
    else loop body rounds

section Round

variable {body : Interaction World Action ε Bool} {world next : World} {actions : List Action}

/-- A round with an error ends the loop. -/
theorem loop_of_error {e : ε} (h : body world = (actions, .error e, next)) (rounds : ℕ) :
    loop body (rounds + 1) world = (actions, .error (some e), next) := by
  refine bind_apply_error (e := some e) ?_
  rw [mapError, h]
  rfl

/-- A round that says so ends the loop. -/
theorem loop_of_done (h : body world = (actions, .ok true, next)) (rounds : ℕ) :
    loop body (rounds + 1) world = (actions, .ok (), next) := by
  have h_round : mapError some body world = (actions, .ok true, next) := by
    rw [mapError, h]
    rfl
  rw [loop, bind_apply_ok h_round, if_pos rfl, pure_apply, List.append_nil]

/-- The rounds behind any other one. -/
theorem loop_of_again (h : body world = (actions, .ok false, next)) (rounds : ℕ) :
    loop body (rounds + 1) world = (actions ++ (loop body rounds next).1,
      (loop body rounds next).2.1, (loop body rounds next).2.2) := by
  have h_round : mapError some body world = (actions, .ok false, next) := by
    rw [mapError, h]
    rfl
  rw [loop, bind_apply_ok h_round, if_neg Bool.false_ne_true]

end Round

/-- Enough rounds give a result, and more of them the same. -/
def Settles (p : ℕ → Interaction World Action (Option ε) α) (world : World) : Prop :=
  ∃ enough, (p enough world).2.1 ≠ .error none ∧ ∀ rounds ≥ enough, p rounds world = p enough world

/-- One round is enough for a program that ends in it. -/
theorem settles_of_eq {p : ℕ → Interaction World Action (Option ε) α} {world : World}
    {run : List Action × Except (Option ε) α × World}
    (h_ends : run.2.1 ≠ .error none) (h : ∀ rounds, p (rounds + 1) world = run) :
    Settles p world := by
  refine ⟨1, ?_, fun rounds h_rounds => ?_⟩
  · rw [h 0]
    exact h_ends
  · obtain ⟨rounds, rfl⟩ := Nat.exists_eq_add_of_le' h_rounds
    exact (h rounds).trans (h 0).symm

/-- A program without rounds settles. -/
theorem settles_mapError (p : Interaction World Action ε α) (world : World) :
    Settles (fun _ => mapError some p) world := by
  refine ⟨0, fun h_none => ?_, fun _ _ => rfl⟩
  have h_result : (p world).2.1.mapError some = .error none := h_none
  cases h : (p world).2.1 with
  | error e =>
    rw [h] at h_result
    cases h_result
  | ok a =>
    rw [h] at h_result
    cases h_result

theorem settles_const {p : Interaction World Action (Option ε) α} {world : World}
    (h : (p world).2.1 ≠ .error none) : Settles (fun _ => p) world :=
  ⟨0, h, fun _ _ => rfl⟩

/-- **The rule of sequence**, for programs that settle. -/
theorem Settles.bind {p : ℕ → Interaction World Action (Option ε) α}
    {f : ℕ → α → Interaction World Action (Option ε) β} {world : World} (h_p : Settles p world)
    (h_f : ∀ rounds a actions next, p rounds world = (actions, .ok a, next) →
      Settles (fun rounds => f rounds a) next) :
    Settles (fun rounds => p rounds >>= f rounds) world := by
  obtain ⟨enough, h_ends, h_same⟩ := h_p
  rcases h_run : p enough world with ⟨actions, e | a, next⟩
  · refine ⟨enough, ?_, fun rounds h_rounds => ?_⟩
    · show ((p enough >>= f enough) world).2.1 ≠ _
      rw [bind_apply_error h_run]
      rw [h_run] at h_ends
      cases e with
      | none => exact absurd rfl h_ends
      | some e => exact fun h => nomatch h
    · exact (bind_apply_error ((h_same rounds h_rounds).trans h_run)).trans
        (bind_apply_error h_run).symm
  · obtain ⟨later, h_later, h_still⟩ := h_f enough a actions next h_run
    -- both programs have settled at the larger of the two numbers
    have h_first : ∀ rounds ≥ max enough later, (p rounds >>= f rounds) world
        = (actions ++ (f later a next).1, (f later a next).2.1, (f later a next).2.2) := by
      intro rounds h_rounds
      have h_p := (h_same rounds (le_trans (le_max_left ..) h_rounds)).trans h_run
      rw [bind_apply_ok h_p]
      have h_rest := h_still rounds (le_trans (le_max_right ..) h_rounds)
      simp only at h_rest
      rw [h_rest]
    refine ⟨max enough later, ?_, fun rounds h_rounds => ?_⟩
    · show ((p _ >>= f _) world).2.1 ≠ _
      rw [h_first _ le_rfl]
      exact h_later
    · exact (h_first rounds h_rounds).trans (h_first _ le_rfl).symm

/-- Programs in a row settle if each of them does. -/
theorem settles_scan {body : ℕ → α → Interaction World Action (Option ε) Unit}
    (h : ∀ a world, Settles (fun rounds => body rounds a) world) (as : List α) (world : World) :
    Settles (fun rounds => scan (body rounds) as) world := by
  induction as generalizing world with
  | nil => exact settles_const (fun h_none => nomatch h_none)
  | cons a as ih => exact Settles.bind (h a world) fun _ _ _ next _ => ih next

/-- **The rule of the loop**, with a measure that every round which is not the last one lowers. -/
theorem settles_loop {body : Interaction World Action ε Bool} (measure : World → ℕ)
    (h : ∀ world actions next, body world = (actions, .ok false, next) →
      measure next < measure world) (world : World) : Settles (loop body) world := by
  -- by induction on a bound of the measure
  have h_bounded : ∀ n world, measure world < n → Settles (loop body) world := by
    intro n
    induction n with
    | zero => exact fun world h_measure => absurd h_measure (Nat.not_lt_zero _)
    | succ n ih =>
      intro world h_measure
      rcases h_round : body world with ⟨actions, e | _ | _, next⟩
      · exact settles_of_eq (by simp) (loop_of_error h_round)
      · -- a round that goes on leads to a world with a lower measure
        obtain ⟨enough, h_ends, h_same⟩ := ih next
          (Nat.lt_of_lt_of_le (h world actions next h_round) (Nat.le_of_lt_succ h_measure))
        refine ⟨enough + 1, ?_, fun rounds h_rounds => ?_⟩
        · rw [loop_of_again h_round]
          exact h_ends
        · obtain ⟨rounds, rfl⟩ : ∃ later, rounds = later + 1 := ⟨rounds - 1, by omega⟩
          rw [loop_of_again h_round, loop_of_again h_round,
            h_same rounds (Nat.le_of_succ_le_succ h_rounds)]
      · exact settles_of_eq (by simp) (loop_of_done h_round)
  exact h_bounded _ world (Nat.lt_succ_self _)

end Interaction
