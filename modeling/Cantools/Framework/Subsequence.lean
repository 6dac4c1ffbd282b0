import Mathlib.Data.List.Basic
import Mathlib.Data.List.Infix

/-!
# Waiting for a subsequence

A reader waits for one item after the other: it takes items from a stream and drops them until the
first of its list comes, goes on with the second one, and so on, and stops behind the last.
`Spells ps xs` says that `xs` is what it takes from the stream for the list `ps`.

What it takes contains the list as a subsequence, and nothing shorter does (`spells_iff`): reading
on is needed, and reading less is not enough. If the reader is still waiting for its last item,
what it has taken does not contain the list (`Spells.not_sublist`).
-/

/-- What is read until all items of a list have come, in their order. -/
inductive Spells {α : Type*} : List α → List α → Prop
  | nil : Spells [] []
  /-- An item which is not the one that is waited for is dropped. -/
  | skip {x p : α} {ps xs : List α} (h : x ≠ p) (h_later : Spells (p :: ps) xs) :
    Spells (p :: ps) (x :: xs)
  | take {p : α} {ps xs : List α} (h_later : Spells ps xs) : Spells (p :: ps) (p :: xs)

variable {α : Type*} {p x : α} {ps qs xs ys : List α}

namespace Spells

/-- The items come in their order. -/
theorem sublist (h : Spells ps xs) : ps.Sublist xs := by
  induction h with
  | nil => exact List.Sublist.slnil
  | skip _ _ ih => exact ih.cons _
  | take _ ih => exact ih.cons_cons _

/-- One list of items after the other. -/
theorem append (h : Spells ps xs) (h_more : Spells qs ys) : Spells (ps ++ qs) (xs ++ ys) := by
  induction h with
  | nil => exact h_more
  | skip h_ne _ ih => exact .skip h_ne ih
  | take _ ih => exact .take ih

/-- A sublist goes on behind an item that is not its first. -/
theorem sublist_of_ne (h : x ≠ p) (h_sub : (p :: ps).Sublist (x :: xs)) :
    (p :: ps).Sublist xs := by
  cases h_sub with
  | cons _ h_sub => exact h_sub
  | cons_cons => exact absurd rfl h

/-- **A reader that still waits** has not seen the list. -/
theorem not_sublist (h : Spells ps xs) (h_none : ∀ y ∈ ys, y ≠ p) :
    ¬ (ps ++ [p]).Sublist (xs ++ ys) := by
  induction h with
  | nil =>
    intro h_sub
    exact h_none p (List.singleton_sublist.mp h_sub) rfl
  | skip h_ne _ ih => exact fun h_sub => ih (sublist_of_ne h_ne h_sub)
  | take _ ih => exact fun h_sub => ih (List.cons_sublist_cons.mp h_sub)

/-- Nothing shorter contains the list. -/
theorem shortest (h : Spells ps xs) (h_pre : ys <+: xs) (h_sub : ps.Sublist ys) : ys = xs := by
  induction h generalizing ys with
  | nil => exact List.prefix_nil.mp h_pre
  -- the awaited one is not here, so it stands in the rest
  | skip h_ne _ ih =>
    cases ys with
    | nil => cases h_sub
    | cons y ys =>
      obtain ⟨rfl, h_tail⟩ := List.cons_prefix_cons.mp h_pre
      rw [ih h_tail (sublist_of_ne h_ne h_sub)]
  | take _ ih =>
    cases ys with
    | nil => cases h_sub
    | cons y ys =>
      obtain ⟨rfl, h_tail⟩ := List.cons_prefix_cons.mp h_pre
      rw [ih h_tail (List.cons_sublist_cons.mp h_sub)]

end Spells

/-- A stream with the list in it starts with what the reader takes. -/
theorem exists_spells (h : ps.Sublist xs) : ∃ ys, ys <+: xs ∧ Spells ps ys := by
  induction xs generalizing ps with
  | nil =>
    cases h
    exact ⟨[], List.nil_prefix, .nil⟩
  | cons x xs ih =>
    cases ps with
    | nil => exact ⟨[], List.nil_prefix, .nil⟩
    | cons p ps =>
      by_cases h_eq : x = p
      · -- the first place at which the awaited one stands is taken
        subst h_eq
        obtain ⟨ys, h_pre, h_ys⟩ := ih (List.cons_sublist_cons.mp h)
        exact ⟨x :: ys, List.cons_prefix_cons.mpr ⟨rfl, h_pre⟩, .take h_ys⟩
      · obtain ⟨ys, h_pre, h_ys⟩ := ih (Spells.sublist_of_ne h_eq h)
        exact ⟨x :: ys, List.cons_prefix_cons.mpr ⟨rfl, h_pre⟩, .skip h_eq h_ys⟩

/-- **What the reader takes** is the shortest start of a stream with the list in it. -/
theorem spells_iff : Spells ps xs ↔
    ps.Sublist xs ∧ ∀ ys, ys <+: xs → ps.Sublist ys → ys = xs := by
  constructor
  · exact fun h => ⟨h.sublist, fun _ => h.shortest⟩
  · rintro ⟨h_sub, h_shortest⟩
    obtain ⟨ys, h_pre, h_ys⟩ := exists_spells h_sub
    rwa [← h_shortest ys h_pre h_ys.sublist]
