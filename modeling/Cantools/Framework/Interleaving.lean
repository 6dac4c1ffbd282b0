import Mathlib.Algebra.BigOperators.Group.Finset.Piecewise
import Mathlib.Data.Fintype.Basic
import Cantools.Framework.Dialogue

/-!
# Processes side by side

Any number of dialogues run over one world. An `Environment` says which answers each of them may
get, and what may happen in between without a question; a step answers one process or moves the
world, and a `Run` is any order of steps, with the list of what was done in each.

A run is taken apart in two ways. What one process did is a path of its dialogue, whatever the
others did (`Run.follows`); and a fact about the world and the steps so far holds in every run if
each answer and each move keeps it (`Run.invariant`). Dialogues with a bounded number of questions
have runs of bounded length (`Run.length_le`).
-/

namespace Interleaving

open Dialogue

variable {ι Question World ε α : Type} {Answer : Question → Type}

/-- What is answered to whom, and what happens by itself. -/
structure Environment (ι World : Type) (Answer : Question → Type) where
  answers : World → ι → Event Answer → World → Prop
  moves : World → World → Prop

/-- A world, and what is left of each process. -/
structure Config (ι World : Type) (Answer : Question → Type) (ε α : Type) where
  world : World
  process : ι → Dialogue Question Answer ε α

/-- What is done in a step: an answer to a process, or a move of the world. -/
abbrev Label (ι : Type) (Answer : Question → Type) := Option (ι × Event Answer)

variable [DecidableEq ι]

/-- One process goes on, in another world. -/
def Config.advance (c : Config ι World Answer ε α) (i : ι) (world : World)
    (p : Dialogue Question Answer ε α) : Config ι World Answer ε α where
  world := world
  process := Function.update c.process i p

@[simp] theorem Config.advance_self (c : Config ι World Answer ε α) (i : ι) (world : World)
    (p : Dialogue Question Answer ε α) : (c.advance i world p).process i = p :=
  Function.update_self ..

theorem Config.advance_other (c : Config ι World Answer ε α) {i j : ι} (h : j ≠ i) (world : World)
    (p : Dialogue Question Answer ε α) : (c.advance i world p).process j = c.process j :=
  Function.update_of_ne h ..

variable (env : Environment ι World Answer)

inductive Step : Config ι World Answer ε α → Label ι Answer → Config ι World Answer ε α → Prop
  | answer {c : Config ι World Answer ε α} {i : ι} {question : Question}
    {resume : Answer question → Dialogue Question Answer ε α} {answer : Answer question}
    {world : World} (h_asks : c.process i = asking question resume)
    (h_answer : env.answers c.world i ⟨question, answer⟩ world) :
    Step c (some (i, ⟨question, answer⟩)) (c.advance i world (resume answer))
  | move {c : Config ι World Answer ε α} {world : World} (h_move : env.moves c.world world) :
    Step c none { c with world }

/-- Steps in any order. -/
inductive Run : Config ι World Answer ε α → List (Label ι Answer) → Config ι World Answer ε α →
    Prop
  | refl (c : Config ι World Answer ε α) : Run c [] c
  | snoc {c c' c'' : Config ι World Answer ε α} {labels : List (Label ι Answer)}
    {label : Label ι Answer} (h : Run c labels c') (h_step : Step env c' label c'') :
    Run c (labels ++ [label]) c''

/-- No step is possible. -/
def Final (c : Config ι World Answer ε α) : Prop := ∀ label c', ¬ Step env c label c'

/-- The part of a process in a step. -/
def part (i : ι) (label : Label ι Answer) : Option (Event Answer) :=
  label.bind fun step => if step.1 = i then some step.2 else none

theorem part_self (i : ι) (event : Event Answer) : part i (some (i, event)) = some event :=
  if_pos rfl

theorem part_other {i j : ι} (h : i ≠ j) (event : Event Answer) :
    part j (some (i, event)) = none := if_neg h

/-- What a process was answered. -/
def view (i : ι) (labels : List (Label ι Answer)) : List (Event Answer) :=
  labels.filterMap (part i)

/-- One element more. -/
theorem filterMap_snoc {β γ : Type} (f : β → Option γ) (l : List β) (b : β) :
    (l ++ [b]).filterMap f = l.filterMap f ++ (f b).toList := by
  rw [List.filterMap_append]
  cases h : f b with
  | none => rw [List.filterMap_cons_none h]; rfl
  | some c => rw [List.filterMap_cons_some h]; rfl

theorem view_snoc (i : ι) (labels : List (Label ι Answer)) (label : Label ι Answer) :
    view i (labels ++ [label]) = view i labels ++ (part i label).toList := filterMap_snoc ..

theorem view_snoc_move (i : ι) (labels : List (Label ι Answer)) :
    view i (labels ++ [none]) = view i labels := (view_snoc ..).trans (List.append_nil _)

theorem view_snoc_self (i : ι) (labels : List (Label ι Answer)) (event : Event Answer) :
    view i (labels ++ [some (i, event)]) = view i labels ++ [event] := by
  rw [view_snoc, part_self, Option.toList_some]

theorem view_snoc_other {i j : ι} (h : i ≠ j) (labels : List (Label ι Answer))
    (event : Event Answer) : view j (labels ++ [some (i, event)]) = view j labels := by
  rw [view_snoc, part_other h, Option.toList_none, List.append_nil]

variable {env} {c c' : Config ι World Answer ε α} {labels : List (Label ι Answer)}

/-- **One process** follows its own dialogue, whatever the others do in between. -/
theorem Run.follows (h : Run env c labels c') (i : ι) :
    Follows (c.process i) (view i labels) (c'.process i) := by
  induction h with
  | refl => exact .refl _
  | snoc h h_step ih =>
    cases h_step with
    | @answer j question resume answer world h_asks h_answer =>
      by_cases h_i : j = i
      · -- the answer is for this process
        subst h_i
        rw [view_snoc_self, Config.advance_self]
        exact (h_asks ▸ ih).snoc answer
      · -- the answer is for another one, so nothing is seen of it
        rw [view_snoc_other h_i, Config.advance_other _ (Ne.symm h_i)]
        exact ih
    | move h_move =>
      rw [view_snoc_move]
      exact ih

/-- **Invariants.** What every answer and every move keeps holds in every run. -/
theorem Run.invariant {Inv : World → List (Label ι Answer) → Prop} (h : Run env c labels c')
    (h_start : Inv c.world [])
    (h_answer : ∀ world labels i event next, Inv world labels →
      env.answers world i event next → Inv next (labels ++ [some (i, event)]))
    (h_move : ∀ world labels next, Inv world labels → env.moves world next →
      Inv next (labels ++ [none])) : Inv c'.world labels := by
  induction h with
  | refl => exact h_start
  | snoc h h_step ih =>
    cases h_step with
    | answer _ h_env => exact h_answer _ _ _ _ _ ih h_env
    | move h_env => exact h_move _ _ _ ih h_env

theorem Run.trans {c'' : Config ι World Answer ε α} {later : List (Label ι Answer)}
    (h : Run env c labels c') (h_later : Run env c' later c'') :
    Run env c (labels ++ later) c'' := by
  induction h_later with
  | refl => rwa [List.append_nil]
  | snoc _ h_step ih =>
    rw [← List.append_assoc]
    exact .snoc ih h_step

/-- **Every run ends**, in a world that can make at most as many moves by itself as its measure
says, which an answer raises by at most one. -/
theorem Run.length_le [Fintype ι] {bound : ι → ℕ} {measure : World → ℕ}
    (h_answer : ∀ world i event next, env.answers world i event next →
      measure next ≤ measure world + 1)
    (h_move : ∀ world next, env.moves world next → measure next < measure world)
    (h : Run env c labels c') (h_within : ∀ i, Within (bound i) (c.process i)) :
    labels.length ≤ measure c.world + 2 * ∑ i, bound i := by
  -- what is left of each process is within a bound that an answer lowers
  have h_left : ∃ left : ι → ℕ, (∀ i, Within (left i) (c'.process i)) ∧
      labels.length + measure c'.world + 2 * ∑ i, left i
        ≤ measure c.world + 2 * ∑ i, bound i := by
    induction h with
    | refl => exact ⟨bound, h_within, (Nat.zero_add _).symm ▸ le_rfl⟩
    | snoc h h_step ih =>
      obtain ⟨left, h_left, h_le⟩ := ih
      cases h_step with
      | @answer i question resume answer world h_asks h_env =>
        have h_i := h_left i
        rw [h_asks] at h_i
        -- who was asked had a question left
        obtain ⟨rest, h_rest⟩ : ∃ rest, left i = rest + 1 := by
          cases h_zero : left i with
          | zero =>
            rw [h_zero] at h_i
            exact h_i.elim
          | succ rest => exact ⟨rest, rfl⟩
        rw [h_rest] at h_i
        refine ⟨Function.update left i rest, fun j => ?_, ?_⟩
        · by_cases h_j : j = i
          · subst h_j
            rw [Function.update_self, Config.advance_self]
            exact h_i answer
          · rw [Function.update_of_ne h_j, Config.advance_other _ h_j]
            exact h_left j
        · -- so the sum of the bounds is one less
          have h_sum : ∑ j, Function.update left i rest j + 1 = ∑ j, left j := by
            rw [Finset.sum_update_of_mem (Finset.mem_univ i), ← Finset.erase_eq,
              ← Finset.add_sum_erase _ left (Finset.mem_univ i), h_rest]
            omega
          have h_world : measure world ≤ _ := h_answer _ _ _ _ h_env
          rw [List.length_append, List.length_singleton]
          show _ + measure world + _ ≤ _
          omega
      | @move world h_env =>
        -- a move of the world lowers its measure
        refine ⟨left, h_left, ?_⟩
        have h_world := h_move _ _ h_env
        rw [List.length_append, List.length_singleton]
        show _ + measure world + _ ≤ _
        omega
  obtain ⟨left, -, h_le⟩ := h_left
  omega

end Interleaving
