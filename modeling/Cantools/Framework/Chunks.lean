import Mathlib.Algebra.Order.Floor.Div
import Mathlib.Data.List.Basic
import Mathlib.Tactic.Ring

/-!
# Slices and chunks of a byte string

`slice l a b` is the sub-list from position `a` up to position `b`, and `chunks n l` cuts `l`
into consecutive pieces of `n` elements, the last of which may be shorter. The facts the
framing protocols rest on are here: the pieces concatenate to the list (`chunks_flatten`),
none is empty (`ne_nil_of_mem_chunks`), their number is known (`length_chunks`), all but the last
have `n` elements (`length_of_getElem?_chunks`), and a list that is already cut into pieces of `n`
is cut at the same places (`chunks_flatten_of_length`).

`eq_of_sublist_of_length_le` is the counting argument for receivers that may miss pieces: a
sub-list of non-empty pieces whose total length reaches that of all of them is all of them.
-/

namespace Chunks

variable {α : Type*}

/-- The elements at positions `a, a + 1, …, b - 1`. -/
def slice (l : List α) (a b : ℕ) : List α := (l.take b).drop a

/-- Consecutive pieces of `n` elements; no pieces when `n` is `0`. -/
def chunks (n : ℕ) (l : List α) : List (List α) :=
  if _h : l = [] ∨ n = 0 then []
  else l.take n :: chunks n (l.drop n)
termination_by l.length
decreasing_by
  have h_pos : 0 < l.length := List.length_pos_iff.mpr (fun h_nil => _h (.inl h_nil))
  have h_n : 0 < n := Nat.pos_of_ne_zero (fun h_zero => _h (.inr h_zero))
  rw [List.length_drop]
  omega

@[simp] theorem chunks_nil (n : ℕ) : chunks n ([] : List α) = [] := by
  rw [chunks, dif_pos (.inl rfl)]

theorem chunks_of_ne_nil {n : ℕ} (hn : 0 < n) {l : List α} (h : l ≠ []) :
    chunks n l = l.take n :: chunks n (l.drop n) := by
  rw [chunks, dif_neg]
  rintro (h_nil | h_zero)
  · exact h h_nil
  · omega

/-- The pieces concatenate to the list. -/
theorem chunks_flatten {n : ℕ} (hn : 0 < n) (l : List α) : (chunks n l).flatten = l := by
  induction h_len : l.length using Nat.strong_induction_on generalizing l with
  | _ len ih =>
    by_cases h : l = []
    · subst h; simp
    · have h_pos := List.length_pos_iff.mpr h
      rw [chunks_of_ne_nil hn h, List.flatten_cons,
        ih (l.drop n).length (by rw [List.length_drop]; omega) (l.drop n) rfl,
        List.take_append_drop]

/-- No piece is empty. -/
theorem ne_nil_of_mem_chunks {n : ℕ} (hn : 0 < n) {l c : List α} (h : c ∈ chunks n l) :
    c ≠ [] := by
  induction h_len : l.length using Nat.strong_induction_on generalizing l with
  | _ len ih =>
    by_cases h_nil : l = []
    · subst h_nil; simp at h
    · have h_pos := List.length_pos_iff.mpr h_nil
      rw [chunks_of_ne_nil hn h_nil] at h
      rcases List.mem_cons.mp h with rfl | h
      · simp only [ne_eq, List.take_eq_nil_iff, not_or]
        exact ⟨by omega, h_nil⟩
      · exact ih _ (by rw [List.length_drop]; omega) h rfl

/-- The `k`-th piece starts at position `n * k`, and there is one exactly when the list goes on
there. -/
theorem getElem?_chunks_eq_some_iff {n : ℕ} (hn : 0 < n) {l c : List α} {k : ℕ} :
    (chunks n l)[k]? = some c ↔ n * k < l.length ∧ c = (l.drop (n * k)).take n := by
  induction k generalizing l with
  | zero =>
    rw [Nat.mul_zero, List.drop_zero]
    by_cases h : l = []
    · simp [h]
    · rw [chunks_of_ne_nil hn h, List.getElem?_cons_zero, Option.some.injEq]
      exact ⟨fun h_eq => ⟨List.length_pos_iff.mpr h, h_eq.symm⟩, fun h_and => h_and.2.symm⟩
  | succ k ih =>
    have h_start : n + n * k = n * (k + 1) := by rw [Nat.mul_succ, Nat.add_comm]
    -- the piece is the previous one of what follows the first piece
    by_cases h : l = []
    · simp [h]
    · rw [chunks_of_ne_nil hn h, List.getElem?_cons_succ, ih, List.length_drop, List.drop_drop,
        h_start]
      have h_lt : n * k < l.length - n ↔ n * (k + 1) < l.length := by omega
      rw [h_lt]

/-- There is a `k`-th piece exactly when the list goes on where it starts. -/
theorem lt_length_chunks_iff {n : ℕ} (hn : 0 < n) {l : List α} {k : ℕ} :
    k < (chunks n l).length ↔ n * k < l.length := by
  have h_piece : ∀ c, (chunks n l)[k]? = some c ↔
      n * k < l.length ∧ c = (l.drop (n * k)).take n := fun c => getElem?_chunks_eq_some_iff hn
  constructor
  · exact fun h => ((h_piece _).mp (List.getElem?_eq_getElem h)).1
  · exact fun h => (List.getElem?_eq_some_iff.mp ((h_piece _).mpr ⟨h, rfl⟩)).1

/-- **The number of pieces.** -/
theorem length_chunks {n : ℕ} (hn : 0 < n) (l : List α) :
    (chunks n l).length = l.length ⌈/⌉ n := by
  refine eq_of_forall_lt_iff fun k => ?_
  rw [lt_length_chunks_iff hn, ← not_le, ← not_le, ceilDiv_le_iff_le_mul hn]

/-- All pieces but the last are full, and the last is neither empty nor longer. -/
theorem length_of_getElem?_chunks {n : ℕ} (hn : 0 < n) {l c : List α} {k : ℕ}
    (h : (chunks n l)[k]? = some c) :
    1 ≤ c.length ∧ c.length ≤ n ∧ (k + 1 < (chunks n l).length → c.length = n) := by
  obtain ⟨h_start, rfl⟩ := (getElem?_chunks_eq_some_iff hn).mp h
  rw [lt_length_chunks_iff hn, Nat.mul_succ, List.length_take, List.length_drop]
  omega

/-- A list cut into pieces of `n` elements is cut at the same places. -/
theorem chunks_flatten_of_length {n : ℕ} (hn : 0 < n) {cs : List (List α)}
    (h : ∀ c ∈ cs, c.length = n) : chunks n cs.flatten = cs := by
  induction cs with
  | nil => simp
  | cons c cs ih =>
    have h_c := h c (List.mem_cons_self ..)
    have h_ne : (c :: cs).flatten ≠ [] := by
      intro h_nil
      have h_len := congrArg List.length h_nil
      rw [List.flatten_cons, List.length_append, h_c, List.length_nil] at h_len
      omega
    rw [chunks_of_ne_nil hn h_ne, List.flatten_cons, List.take_left' h_c, List.drop_left' h_c,
      ih (fun d hd => h d (List.mem_cons_of_mem _ hd))]

/-- Pieces of one length. -/
theorem length_flatten_of_length {n : ℕ} {cs : List (List α)} (h : ∀ c ∈ cs, c.length = n) :
    cs.flatten.length = n * cs.length := by
  induction cs with
  | nil => rfl
  | cons c cs ih =>
    calc (c :: cs).flatten.length
        = c.length + cs.flatten.length := by rw [List.flatten_cons, List.length_append]
      _ = n + n * cs.length := by
          rw [h c (List.mem_cons_self ..), ih (fun d hd => h d (List.mem_cons_of_mem _ hd))]
      _ = n * (c :: cs).length := by rw [List.length_cons]; ring

/-! ### Counting a sub-list of pieces -/

theorem flatten_length_le_of_sublist {cs ds : List (List α)} (h : cs.Sublist ds) :
    cs.flatten.length ≤ ds.flatten.length := by
  induction h with
  | slnil => exact le_rfl
  | cons d _ ih =>
    rw [List.flatten_cons, List.length_append]
    omega
  | cons_cons d _ ih =>
    rw [List.flatten_cons, List.flatten_cons, List.length_append, List.length_append]
    omega

/-- **The counting argument.** Some of the pieces, in order, whose total length reaches that
of all the pieces, are all the pieces: a missing piece would leave a gap, since no piece is
empty. -/
theorem eq_of_sublist_of_length_le {cs ds : List (List α)} (h : cs.Sublist ds)
    (h_ne : ∀ d ∈ ds, d ≠ []) (h_len : ds.flatten.length ≤ cs.flatten.length) : cs = ds := by
  induction h with
  | slnil => rfl
  | cons d h_sub ih =>
    -- a missing piece: what is left is too short
    have h_le := flatten_length_le_of_sublist h_sub
    have h_pos := List.length_pos_iff.mpr (h_ne d (List.mem_cons_self ..))
    rw [List.flatten_cons, List.length_append] at h_len
    omega
  | cons_cons d h_sub ih =>
    rw [List.flatten_cons, List.flatten_cons, List.length_append, List.length_append] at h_len
    rw [ih (fun e he => h_ne e (List.mem_cons_of_mem _ he)) (by omega)]

end Chunks
