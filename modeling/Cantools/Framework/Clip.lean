import Mathlib.Data.List.TakeWhile
import Cantools.Framework.Utf8

/-!
# Text cut at a byte

A field of `n` bytes keeps the first `n` bytes of a text, whether or not they end with a
character. `clip n s` is what is read back: a character that was cut gives one replacement
character, however many of its bytes are left. That character may take more bytes than there were,
and is then cut in its turn; what is left of it reads as a replacement character again, so that
clipping a clipped text changes nothing (`clip_clip`).

A field may also end at a zero byte, which is the encoding of the zero character only
(`takeWhile_encode`).
-/

namespace Utf8

/-- The text read from the first `n` bytes of a text. -/
def clip (n : ℕ) (s : List Char) : List Char := decodeLossy ((encode s).take n)

@[simp] theorem clip_nil (n : ℕ) : clip n [] = [] := by
  rw [clip, encode, List.flatMap_nil, List.take_nil]
  rfl

@[simp] theorem clip_zero (s : List Char) : clip 0 s = [] := by
  rw [clip, List.take_zero]
  rfl

/-- A character that fits is kept. -/
theorem clip_cons_of_le {n : ℕ} {c : Char} (h : (String.utf8EncodeChar c).length ≤ n)
    (s : List Char) : clip n (c :: s) = c :: clip (n - (String.utf8EncodeChar c).length) s := by
  rw [clip, encode_cons, List.take_append, List.take_of_length_le h,
    (sequence_encodeChar c).decodeLossy_append, clip]

/-- A character that is cut is replaced. -/
theorem clip_cons_of_lt {n : ℕ} {c : Char} (h_pos : 0 < n)
    (h : n < (String.utf8EncodeChar c).length) (s : List Char) :
    clip n (c :: s) = [replacement] := by
  rw [clip, encode_cons, List.take_append_of_le_length (Nat.le_of_lt h),
    (sequence_encodeChar c).decodeLossy_take h_pos h]

/-- The replacement character is replaced by itself. -/
theorem clip_replacement {n : ℕ} (h_pos : 0 < n) : clip n [replacement] = [replacement] := by
  rcases Nat.lt_or_ge n (String.utf8EncodeChar replacement).length with h_lt | h_ge
  · exact clip_cons_of_lt h_pos h_lt []
  · rw [clip_cons_of_le h_ge, clip_nil]

/-- **Clipping twice** at the same byte changes nothing. -/
theorem clip_clip (n : ℕ) (s : List Char) : clip n (clip n s) = clip n s := by
  -- character by character, with the bytes that are left for the rest
  induction s generalizing n with
  | nil => rw [clip_nil, clip_nil]
  | cons c s ih =>
    rcases Nat.lt_or_ge n (String.utf8EncodeChar c).length with h_lt | h_ge
    · rcases Nat.eq_zero_or_pos n with rfl | h_pos
      · rw [clip_zero, clip_zero]
      · -- the character is cut, and what was put for it is all there is
        rw [clip_cons_of_lt h_pos h_lt, clip_replacement h_pos]
    · rw [clip_cons_of_le h_ge, clip_cons_of_le h_ge, ih]

/-- A text that fits is kept. -/
theorem clip_of_le {n : ℕ} {s : List Char} (h : (encode s).length ≤ n) : clip n s = s := by
  rw [clip, List.take_of_length_le h, decodeLossy_encode]

/-- Clipping brings no character but the replacement character. -/
theorem mem_clip {n : ℕ} {s : List Char} {c : Char} (h : c ∈ clip n s) :
    c ∈ s ∨ c = replacement := by
  -- a character that fits is in the text, and one that is cut is the last one
  induction s generalizing n with
  | nil =>
    rw [clip_nil] at h
    cases h
  | cons d s ih =>
    rcases Nat.lt_or_ge n (String.utf8EncodeChar d).length with h_lt | h_ge
    · rcases Nat.eq_zero_or_pos n with rfl | h_pos
      · rw [clip_zero] at h
        cases h
      · rw [clip_cons_of_lt h_pos h_lt] at h
        exact .inr (List.mem_singleton.mp h)
    · rw [clip_cons_of_le h_ge] at h
      rcases List.mem_cons.mp h with rfl | h
      · exact .inl (List.mem_cons_self ..)
      · exact (ih h).imp_left (List.mem_cons_of_mem _)

/-! ### Up to the zero byte -/

theorem takeWhile_of_notMem {s : List Char} (h : '\x00' ∉ s) : s.takeWhile (· != '\x00') = s := by
  rw [List.takeWhile_eq_self_iff]
  intro c h_c
  rw [bne_iff_ne]
  rintro rfl
  exact h h_c

theorem notMem_takeWhile (s : List Char) : '\x00' ∉ s.takeWhile (· != '\x00') := by
  intro h
  exact absurd (List.mem_takeWhile_imp h) (by decide)

/-- The bytes before the first zero byte encode the characters before the first zero character. -/
theorem takeWhile_encode (s : List Char) :
    (encode s).takeWhile (· != 0) = encode (s.takeWhile (· != '\x00')) := by
  induction s with
  | nil => rfl
  | cons c s ih =>
    rw [encode_cons]
    by_cases h : 0 ∈ String.utf8EncodeChar c
    · -- the zero character: both cuts are made here
      obtain ⟨h_bytes, rfl⟩ := (sequence_encodeChar c).eq_zero h
      rw [h_bytes]
      rfl
    · -- any other character: it is kept with all its bytes
      have h_bytes : ∀ b ∈ String.utf8EncodeChar c, (b != 0) = true := by
        intro b h_b
        rw [bne_iff_ne]
        rintro rfl
        exact h h_b
      have h_char : (c != '\x00') = true := by
        rw [bne_iff_ne]
        rintro rfl
        exact h (by decide)
      have h_while : (c :: s).takeWhile (· != '\x00') = c :: s.takeWhile (· != '\x00') :=
        List.takeWhile_cons_of_pos h_char
      rw [List.takeWhile_append_of_pos h_bytes, ih, h_while, encode_cons]

/-- What is read from a cut text up to its first zero byte. -/
theorem decodeLossy_takeWhile_take (n : ℕ) (s : List Char) :
    decodeLossy (((encode s).take n).takeWhile (· != 0))
      = clip n (s.takeWhile (· != '\x00')) := by
  rw [← List.take_takeWhile, takeWhile_encode, clip]

end Utf8
