import Cantools.Framework.Chunks

/-!
# Byte buffers with checked ranges

Reading `buf[a..b]` and writing `buf[a..].copy_from_slice(..)` panic outside the buffer. Both are
partial functions here: `range` and `overwrite` are `none` where the program would panic, so a
result of `some` also says that no access was out of range.

* `range_flatten` — a buffer laid out field by field is read field by field.
* `overwrite_replicate` — writing fields from left to right into a blank buffer lays them out
  one after the other; what lies between them stays blank.

A `FixedArray` carries its length. `filled` is the fixed array that a blank one becomes when a
slice is copied to its front.
-/

namespace Buffer

open Chunks

variable {α : Type*}

/-- The elements at positions `a, …, b - 1`; `none` when the range leaves the buffer. -/
def range (buf : List α) (a b : ℕ) : Option (List α) :=
  if a ≤ b ∧ b ≤ buf.length then some (slice buf a b) else none

/-- Put `src` at position `start`; `none` when it does not fit. -/
def overwrite (buf : List α) (start : ℕ) (src : List α) : Option (List α) :=
  if start + src.length ≤ buf.length then
    some (buf.take start ++ src ++ buf.drop (start + src.length))
  else none

theorem range_eq_some {buf : List α} {a b : ℕ} (h_le : a ≤ b) (h_len : b ≤ buf.length) :
    range buf a b = some (slice buf a b) :=
  if_pos ⟨h_le, h_len⟩

/-- A length cut to the length of the list cuts the list all the same. -/
theorem take_min_length (l : List α) (n : ℕ) : l.take (min l.length n) = l.take n := by
  rw [Nat.min_comm]
  exact List.take_eq_take_min.symm

/-- **Reading a field.** In a buffer made of fields, the slice that starts where the fields
before `field` end and has the field's length is the field. -/
theorem slice_flatten (before : List (List α)) (field : List α) (after : List (List α))
    {a b : ℕ} (h_a : a = before.flatten.length) (h_b : b = a + field.length) :
    slice (before ++ field :: after).flatten a b = field := by
  calc slice (before ++ field :: after).flatten a b
      = ((before.flatten ++ (field ++ after.flatten)).drop a).take (b - a) := by
        rw [List.flatten_append, List.flatten_cons, slice, List.drop_take]
    _ = (field ++ after.flatten).take field.length := by
        rw [h_b, Nat.add_sub_cancel_left, h_a, List.drop_left]
    _ = field := List.take_left

/-- The same range does not leave the buffer. -/
theorem range_flatten (before : List (List α)) (field : List α) (after : List (List α))
    {a b : ℕ} (h_a : a = before.flatten.length) (h_b : b = a + field.length) :
    range (before ++ field :: after).flatten a b = some field := by
  have h_len : b ≤ (before ++ field :: after).flatten.length := by
    rw [List.flatten_append, List.flatten_cons, List.length_append, List.length_append]
    omega
  rw [range_eq_some (by omega) h_len, slice_flatten before field after h_a h_b]

/-- A field of one element is read by its index. -/
theorem getElem?_flatten (before : List (List α)) (x : α) (after : List (List α)) {i : ℕ}
    (h : i = before.flatten.length) : (before ++ [x] :: after).flatten[i]? = some x := by
  rw [List.flatten_append, List.flatten_cons, h, List.getElem?_append_right (le_refl _),
    Nat.sub_self]
  rfl

/-- **Writing a field.** Behind the used part of a buffer the rest is blank: a field that is put
there leaves a blank gap before it, and the rest blank. -/
theorem overwrite_replicate (used src : List α) (blank : α) (gap rest : ℕ) {start free : ℕ}
    (h_start : start = used.length + gap) (h_free : free = gap + src.length + rest) :
    overwrite (used ++ List.replicate free blank) start src
      = some (used ++ List.replicate gap blank ++ src ++ List.replicate rest blank) := by
  have h_fits : start + src.length ≤ (used ++ List.replicate free blank).length := by
    rw [List.length_append, List.length_replicate]
    omega
  -- in front of the new items: the used ones and a gap
  have h_take : (used ++ List.replicate free blank).take start
      = used ++ List.replicate gap blank := by
    rw [List.take_append, List.take_of_length_le (by omega), List.take_replicate]
    congr 2
    omega
  -- behind them: what is still blank
  have h_drop : (used ++ List.replicate free blank).drop (start + src.length)
      = List.replicate rest blank := by
    rw [List.drop_append, List.drop_eq_nil_of_le (by omega), List.drop_replicate, List.nil_append]
    congr 1
    omega
  rw [overwrite, if_pos h_fits, h_take, h_drop]

/-- Writing a field right behind the used part. -/
theorem overwrite_next (used src : List α) (blank : α) (rest : ℕ) {start free : ℕ}
    (h_start : start = used.length) (h_free : free = src.length + rest) :
    overwrite (used ++ List.replicate free blank) start src
      = some (used ++ src ++ List.replicate rest blank) := by
  rw [overwrite_replicate used src blank 0 rest h_start (by omega), List.replicate_zero,
    List.append_nil]

/-! ### Arrays of a fixed length -/

/-- `[T; n]` -/
abbrev FixedArray (α : Type*) (n : ℕ) := { l : List α // l.length = n }

/-- `[x; n]` -/
def FixedArray.replicate (n : ℕ) (x : α) : FixedArray α n :=
  ⟨List.replicate n x, List.length_replicate⟩

theorem length_padded {src : List α} {n : ℕ} (blank : α) (h : src.length ≤ n) :
    (src ++ List.replicate (n - src.length) blank).length = n := by
  rw [List.length_append, List.length_replicate]
  omega

/-- A blank array of length `n` with `src` copied to its front; `none` when it does not fit. -/
def filled (n : ℕ) (blank : α) (src : List α) : Option (FixedArray α n) :=
  if h : src.length ≤ n then
    some ⟨src ++ List.replicate (n - src.length) blank, length_padded blank h⟩
  else none

theorem filled_eq_some {n : ℕ} {blank : α} {src : List α} (h : src.length ≤ n) :
    filled n blank src
      = some ⟨src ++ List.replicate (n - src.length) blank, length_padded blank h⟩ :=
  dif_pos h

/-- A full array is its own source. -/
theorem filled_self {n : ℕ} (blank : α) (array : FixedArray α n) :
    filled n blank array.val = some array := by
  obtain ⟨l, h_len⟩ := array
  subst h_len
  rw [filled_eq_some (le_refl _)]
  congr 2
  rw [Nat.sub_self, List.replicate_zero, List.append_nil]

end Buffer
