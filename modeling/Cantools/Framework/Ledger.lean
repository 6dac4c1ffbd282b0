import Mathlib.Data.Finset.Basic
import Cantools.Framework.Interaction

/-!
# Ledgers of resources

A resource is acquired, used and released: a descriptor, a lock, a mode of a device. A trace of
such uses is allowed from a set of held resources if nothing is acquired that is held already, and
nothing is used or released that is not (`Allows`). Allowed traces are put together along a
program (`Allows.append`), so that it is enough to look at its questions one by one.

In an allowed trace, a resource which has been released is not touched before it has been acquired
again (`Allows.acquired_between`).
-/

namespace Ledger

/-- What may be done with a resource. -/
inductive Use (Resource : Type) where
  | acquire (r : Resource)
  | touch (r : Resource)
  | release (r : Resource)
  deriving DecidableEq, Repr

variable {Resource World : Type} [DecidableEq Resource]

/-- The trace leads from one set of held resources to the other, and uses held ones only. -/
def Allows : Finset Resource → List (Use Resource) → Finset Resource → Prop
  | held, [], after => held = after
  | held, .acquire r :: trace, after => r ∉ held ∧ Allows (insert r held) trace after
  | held, .touch r :: trace, after => r ∈ held ∧ Allows held trace after
  | held, .release r :: trace, after => r ∈ held ∧ Allows (held.erase r) trace after

@[simp] theorem allows_nil {held after : Finset Resource} :
    Allows held [] after ↔ held = after := Iff.rfl

@[simp] theorem allows_acquire {held after : Finset Resource} {r : Resource}
    {trace : List (Use Resource)} : Allows held (.acquire r :: trace) after ↔
      r ∉ held ∧ Allows (insert r held) trace after := Iff.rfl

@[simp] theorem allows_touch {held after : Finset Resource} {r : Resource}
    {trace : List (Use Resource)} : Allows held (.touch r :: trace) after ↔
      r ∈ held ∧ Allows held trace after := Iff.rfl

@[simp] theorem allows_release {held after : Finset Resource} {r : Resource}
    {trace : List (Use Resource)} : Allows held (.release r :: trace) after ↔
      r ∈ held ∧ Allows (held.erase r) trace after := Iff.rfl

theorem allows_append {held after : Finset Resource} {t₁ t₂ : List (Use Resource)} :
    Allows held (t₁ ++ t₂) after ↔ ∃ middle, Allows held t₁ middle ∧ Allows middle t₂ after := by
  induction t₁ generalizing held with
  | nil =>
    constructor
    · exact fun h => ⟨held, rfl, h⟩
    · rintro ⟨middle, rfl, h⟩
      exact h
  | cons use t₁ ih =>
    cases use with
    | acquire r => simp only [List.cons_append, allows_acquire, ih, exists_and_left, and_assoc]
    | touch r => simp only [List.cons_append, allows_touch, ih, exists_and_left, and_assoc]
    | release r => simp only [List.cons_append, allows_release, ih, exists_and_left, and_assoc]

theorem Allows.append {held middle after : Finset Resource} {t₁ t₂ : List (Use Resource)}
    (h₁ : Allows held t₁ middle) (h₂ : Allows middle t₂ after) : Allows held (t₁ ++ t₂) after :=
  allows_append.mpr ⟨middle, h₁, h₂⟩

/-- What is not held stays so as long as it is not acquired. -/
theorem Allows.not_mem {held after : Finset Resource} {trace : List (Use Resource)} {r : Resource}
    (h : Allows held trace after) (h_not : r ∉ held) (h_acquire : .acquire r ∉ trace) :
    r ∉ after := by
  induction trace generalizing held with
  | nil =>
    rw [← allows_nil.mp h]
    exact h_not
  | cons use trace ih =>
    obtain ⟨h_ne, h_later⟩ := not_or.mp (List.mem_cons.not.mp h_acquire)
    cases use with
    -- another resource was acquired
    | acquire r' =>
      refine ih h.2 (fun h_mem => ?_) h_later
      rcases Finset.mem_insert.mp h_mem with rfl | h_mem
      · exact h_ne rfl
      · exact h_not h_mem
    | touch r' => exact ih h.2 h_not h_later
    | release r' => exact ih h.2 (fun h_mem => h_not (Finset.mem_of_mem_erase h_mem)) h_later

/-- **Nothing is used behind its release**: between the two, it has been acquired again. -/
theorem Allows.acquired_between {held after : Finset Resource}
    {before between later : List (Use Resource)} {r : Resource} {use : Use Resource}
    (h_use : use = .touch r ∨ use = .release r)
    (h : Allows held (before ++ .release r :: (between ++ use :: later)) after) :
    .acquire r ∈ between := by
  obtain ⟨middle, -, h_release⟩ := allows_append.mp h
  obtain ⟨last, h_between, h_last⟩ := allows_append.mp h_release.2
  by_contra h_none
  have h_gone := h_between.not_mem (Finset.notMem_erase r middle) h_none
  rcases h_use with rfl | rfl
  · exact h_gone h_last.1
  · exact h_gone h_last.1

end Ledger
