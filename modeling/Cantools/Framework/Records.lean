import Mathlib.Data.List.Basic

/-!
# Self-delimiting records

In a stream of records each record says at its beginning how long it is. `walk size` cuts a list
into its records, going from one to the next by the size that is read there; it succeeds only if
the last record ends where the list ends. Records that state their own length are found again in
their concatenation (`walk_flatten`).
-/

namespace Records

variable {α : Type*}

/-- The records of a list; `none` where no size can be read, a record is empty, or the last one
leaves the list. -/
def walk (size : List α → Option ℕ) (l : List α) : Option (List (List α)) :=
  if l = [] then some []
  else
    match size l with
    | none => none
    | some n =>
      if _h : 0 < n ∧ n ≤ l.length then (walk size (l.drop n)).map (l.take n :: ·) else none
termination_by l.length
decreasing_by
  rw [List.length_drop]
  omega

theorem walk_nil (size : List α → Option ℕ) : walk size [] = some [] := by
  rw [walk, if_pos rfl]

/-- One record, and the walk through what follows it. -/
theorem walk_append {size : List α → Option ℕ} {record : List α} (rest : List α)
    (h_pos : 0 < record.length) (h_size : size (record ++ rest) = some record.length) :
    walk size (record ++ rest) = (walk size rest).map (record :: ·) := by
  have h_ne : record ++ rest ≠ [] := by
    intro h_nil
    rw [(List.append_eq_nil_iff.mp h_nil).1] at h_pos
    exact absurd h_pos (Nat.lt_irrefl 0)
  have h_in : 0 < record.length ∧ record.length ≤ (record ++ rest).length := by
    rw [List.length_append]
    omega
  rw [walk, if_neg h_ne, h_size]
  simp only [dif_pos h_in, List.drop_left, List.take_left]

/-- **Framing.** Records whose size is read off the stream at their start are exactly the records
of the stream. -/
theorem walk_flatten {size : List α → Option ℕ} {records : List (List α)}
    (h : ∀ record ∈ records, 0 < record.length ∧
      ∀ rest, size (record ++ rest) = some record.length) :
    walk size records.flatten = some records := by
  induction records with
  | nil => exact walk_nil size
  | cons record records ih =>
    obtain ⟨h_pos, h_size⟩ := h record (List.mem_cons_self ..)
    rw [List.flatten_cons, walk_append _ h_pos (h_size _),
      ih (fun r h_r => h r (List.mem_cons_of_mem _ h_r))]
    rfl

end Records
