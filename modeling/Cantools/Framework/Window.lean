import Mathlib.Data.List.DropRight

/-!
# Windows over a stream

A window keeps the newest elements of a stream: `push` puts an element behind a list, and drops
the oldest one first where the list is as long as the limit. From a limit of `1` on, a window that
starts out empty is always the end of the stream, as `List.rtake` cuts it off (`foldl_push`). At a
limit of `0` there is nothing to drop from the empty window, and behind the first element the test
never holds again: nothing is ever dropped (`foldl_push_zero`).
-/

namespace Window

variable {α : Type*}

/-- Put an element behind a window; a window of the length of the limit loses its first one. -/
def push (limit : ℕ) (window : List α) (x : α) : List α :=
  (if window.length = limit then window.tail else window) ++ [x]

theorem length_rtake (n : ℕ) (l : List α) : (l.rtake n).length = min l.length n := by
  rw [List.rtake, List.length_drop]
  omega

/-- **One element.** The end of the stream stays the end of the stream. -/
theorem push_rtake {limit : ℕ} (h : 1 ≤ limit) (seen : List α) (x : α) :
    push limit (seen.rtake limit) x = (seen ++ [x]).rtake limit := by
  obtain ⟨n, rfl⟩ := Nat.exists_eq_add_of_le' h
  rw [push, length_rtake, List.rtake_concat_succ]
  split
  · next h_full =>
    -- the window is full, and its first element is the one that falls out
    rw [List.rtake, List.tail_drop, List.rtake]
    congr 2
    omega
  · next h_free =>
    rw [List.rtake, List.rtake, show seen.length - (n + 1) = seen.length - n by omega]

/-- **A stream.** A window is the end of what was pushed. -/
theorem foldl_push {limit : ℕ} (h : 1 ≤ limit) (seen stream : List α) :
    stream.foldl (push limit) (seen.rtake limit) = (seen ++ stream).rtake limit := by
  induction stream generalizing seen with
  | nil => rw [List.foldl_nil, List.append_nil]
  | cons x stream ih => rw [List.foldl_cons, push_rtake h, ih, List.append_assoc,
      List.singleton_append]

/-- At a limit of `0`, everything is kept. -/
theorem foldl_push_zero (window stream : List α) :
    stream.foldl (push 0) window = window ++ stream := by
  induction stream generalizing window with
  | nil => rw [List.foldl_nil, List.append_nil]
  | cons x stream ih =>
    have h_push : push 0 window x = window ++ [x] := by
      cases window <;> rfl
    rw [List.foldl_cons, h_push, ih, List.append_assoc, List.singleton_append]

end Window
