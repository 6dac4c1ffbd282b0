import Cantools.Framework.Utf8

/-!
# Texts by byte positions

`str::len` counts the bytes of a text, and `&s[a..b]` cuts it at two byte positions. A position
inside a character, or behind the end, is no place to cut at: the program panics there, and
`splitAt` and `sliceBytes` are `none`.

Where a text is cut at all, it is cut into the two texts that make it up, the first of which has
as many bytes as the position says (`splitAt_eq_some_iff`). Positions behind a first part are
positions of the rest (`sliceBytes_append`), so that a loop over the slices of a text may forget
what it has passed.
-/

namespace Utf8

/-- `str::len` -/
def byteLen (s : List Char) : ℕ := (encode s).length

/-- `str::split_at_checked` -/
def splitAt : ℕ → List Char → Option (List Char × List Char)
  | 0, s => some ([], s)
  | _ + 1, [] => none
  | n + 1, c :: s =>
    if c.utf8Size ≤ n + 1 then
      (splitAt (n + 1 - c.utf8Size) s).map fun cut => (c :: cut.1, cut.2)
    else none

/-- `&s[a..b]`; `none` where it panics. -/
def sliceBytes (s : List Char) (a b : ℕ) : Option (List Char) := do
  let (front, _) ← splitAt b s
  let (_, slice) ← splitAt a front
  pure slice

/-! ### Counting bytes -/

@[simp] theorem byteLen_nil : byteLen [] = 0 := rfl

@[simp] theorem byteLen_cons (c : Char) (s : List Char) :
    byteLen (c :: s) = c.utf8Size + byteLen s := by
  rw [byteLen, encode_cons, List.length_append, String.length_utf8EncodeChar, byteLen]

@[simp] theorem byteLen_append (s t : List Char) : byteLen (s ++ t) = byteLen s + byteLen t := by
  rw [byteLen, encode, List.flatMap_append, List.length_append]
  rfl

theorem byteLen_pos {s : List Char} (h : s ≠ []) : 0 < byteLen s := by
  obtain ⟨c, s, rfl⟩ := List.exists_cons_of_ne_nil h
  rw [byteLen_cons]
  exact Nat.lt_of_lt_of_le c.utf8Size_pos (Nat.le_add_right ..)

/-! ### Cutting -/

@[simp] theorem splitAt_zero (s : List Char) : splitAt 0 s = some ([], s) := by
  cases s <;> rfl

theorem splitAt_cons (c : Char) (s : List Char) (n : ℕ) :
    splitAt (c.utf8Size + n) (c :: s) = (splitAt n s).map fun cut => (c :: cut.1, cut.2) := by
  obtain ⟨k, h_k⟩ := Nat.exists_eq_succ_of_ne_zero (Nat.pos_iff_ne_zero.mp c.utf8Size_pos)
  have h_n : c.utf8Size + n = k + n + 1 := by omega
  have h_rest : k + n + 1 - c.utf8Size = n := by omega
  rw [h_n, splitAt, if_pos (by omega), h_rest]

/-- Behind its first part, a text is cut where the rest is cut. -/
theorem splitAt_append (l s : List Char) (n : ℕ) :
    splitAt (byteLen l + n) (l ++ s) = (splitAt n s).map fun cut => (l ++ cut.1, cut.2) := by
  induction l with
  | nil =>
    rw [byteLen_nil, Nat.zero_add]
    exact Option.map_id'.symm
  | cons c l ih =>
    rw [byteLen_cons, Nat.add_assoc, List.cons_append, splitAt_cons, ih, Option.map_map]
    rfl

/-- **Where a text is cut.** -/
theorem splitAt_eq_some_iff {n : ℕ} {s l r : List Char} :
    splitAt n s = some (l, r) ↔ s = l ++ r ∧ byteLen l = n := by
  constructor
  · intro h
    fun_induction splitAt n s generalizing l with
    | case1 s =>
      cases h
      exact ⟨rfl, rfl⟩
    | case2 n => cases h
    | case3 n c s h_size ih =>
      -- the first character fits, and the cut is made behind it
      obtain ⟨⟨l', r'⟩, h_cut, h_eq⟩ := Option.map_eq_some_iff.mp h
      cases h_eq
      obtain ⟨rfl, h_len⟩ := ih h_cut
      refine ⟨rfl, ?_⟩
      show byteLen (c :: l') = _
      rw [byteLen_cons]
      omega
    | case4 n c s h_size => cases h
  · rintro ⟨rfl, rfl⟩
    -- at the end of a prefix, nothing is left of the cut
    have h_cut := splitAt_append l r 0
    rw [Nat.add_zero, splitAt_zero, Option.map_some, List.append_nil] at h_cut
    exact h_cut

/-- **Slices behind the first part** of a text are slices of the rest. -/
theorem sliceBytes_append (l s : List Char) (a b : ℕ) :
    sliceBytes (l ++ s) (byteLen l + a) (byteLen l + b) = sliceBytes s a b := by
  rw [sliceBytes, splitAt_append, sliceBytes]
  cases splitAt b s with
  | none => rfl
  | some cut =>
    simp only [Option.map_some, Option.bind_eq_bind, Option.bind_some, splitAt_append]
    cases splitAt a cut.1 <;> rfl

/-- A slice from the start. -/
theorem sliceBytes_zero (s : List Char) (n : ℕ) :
    sliceBytes s 0 n = (splitAt n s).map Prod.fst := by
  rw [sliceBytes]
  simp only [splitAt_zero]
  cases splitAt n s <;> rfl

end Utf8
