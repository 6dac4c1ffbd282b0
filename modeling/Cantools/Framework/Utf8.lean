import Mathlib.Data.List.Basic

/-!
# UTF-8 with lossy decoding

`encode` is the UTF-8 encoding of a text. `decodeLossy` reads any byte string: a well-formed
sequence gives its character, and every maximal ill-formed prefix of one gives a single
replacement character. `decodeLossy_encode` shows that nothing is replaced in encoded text.

The sequences are those of the standard's table: the length follows from the lead byte, the
second byte may be restricted by it (no overlong forms, no surrogates, nothing above
`U+10FFFF`), and all later bytes are plain continuation bytes.
-/

namespace Utf8

/-- The UTF-8 bytes of a text. -/
def encode (s : List Char) : List UInt8 := s.flatMap String.utf8EncodeChar

/-- The replacement character. -/
def replacement : Char := '\uFFFD'

/-- The length of the sequence a lead byte announces; `0` for a byte that leads none. -/
def charWidth (lead : UInt8) : ℕ :=
  if lead.toNat < 0x80 then 1
  else if lead.toNat < 0xC2 then 0
  else if lead.toNat < 0xE0 then 2
  else if lead.toNat < 0xF0 then 3
  else if lead.toNat < 0xF5 then 4
  else 0

/-- `b` is a continuation byte. -/
def isContinuation (b : UInt8) : Bool := 0x80 ≤ b.toNat && b.toNat ≤ 0xBF

/-- `b` may follow `lead` in a sequence of three or four bytes. -/
def isSecond (lead b : UInt8) : Bool :=
  match lead.toNat with
  | 0xE0 => 0xA0 ≤ b.toNat && b.toNat ≤ 0xBF
  | 0xED => 0x80 ≤ b.toNat && b.toNat ≤ 0x9F
  | 0xF0 => 0x90 ≤ b.toNat && b.toNat ≤ 0xBF
  | 0xF4 => 0x80 ≤ b.toNat && b.toNat ≤ 0x8F
  | _ => isContinuation b

/-- The character of a sequence of two bytes. -/
def char2 (a b : UInt8) : Char := Char.ofNat (a.toNat % 32 * 64 + b.toNat % 64)

/-- The character of a sequence of three bytes. -/
def char3 (a b c : UInt8) : Char :=
  Char.ofNat (a.toNat % 16 * 4096 + b.toNat % 64 * 64 + c.toNat % 64)

/-- The character of a sequence of four bytes. -/
def char4 (a b c d : UInt8) : Char :=
  Char.ofNat (a.toNat % 8 * 262144 + b.toNat % 64 * 4096 + c.toNat % 64 * 64 + d.toNat % 64)

/-- Decode a byte string, with one replacement character for every maximal ill-formed
prefix. -/
def decodeLossy : List UInt8 → List Char
  | [] => []
  | a :: as =>
    match charWidth a with
    | 1 => Char.ofNat a.toNat :: decodeLossy as
    | 2 =>
      match as with
      | b :: bs =>
        if isContinuation b then char2 a b :: decodeLossy bs
        else replacement :: decodeLossy (b :: bs)
      | [] => [replacement]
    | 3 =>
      match as with
      | b :: bs =>
        if isSecond a b then
          match bs with
          | c :: cs =>
            if isContinuation c then char3 a b c :: decodeLossy cs
            else replacement :: decodeLossy (c :: cs)
          | [] => [replacement]
        else replacement :: decodeLossy (b :: bs)
      | [] => [replacement]
    | 4 =>
      match as with
      | b :: bs =>
        if isSecond a b then
          match bs with
          | c :: cs =>
            if isContinuation c then
              match cs with
              | d :: ds =>
                if isContinuation d then char4 a b c d :: decodeLossy ds
                else replacement :: decodeLossy (d :: ds)
              | [] => [replacement]
            else replacement :: decodeLossy (c :: cs)
          | [] => [replacement]
        else replacement :: decodeLossy (b :: bs)
      | [] => [replacement]
    | _ => replacement :: decodeLossy as

/-! ### Well-formed sequences -/

/-- The well-formed sequences and their characters. -/
inductive Sequence : List UInt8 → Char → Prop where
  | one {a : UInt8} : charWidth a = 1 → Sequence [a] (Char.ofNat a.toNat)
  | two {a b : UInt8} : charWidth a = 2 → isContinuation b = true → Sequence [a, b] (char2 a b)
  | three {a b c : UInt8} : charWidth a = 3 → isSecond a b = true → isContinuation c = true →
      Sequence [a, b, c] (char3 a b c)
  | four {a b c d : UInt8} : charWidth a = 4 → isSecond a b = true → isContinuation c = true →
      isContinuation d = true → Sequence [a, b, c, d] (char4 a b c d)

/-- A well-formed sequence gives its character, whatever follows it. -/
theorem Sequence.decodeLossy_append {bytes : List UInt8} {c : Char} (h : Sequence bytes c)
    (rest : List UInt8) : decodeLossy (bytes ++ rest) = c :: decodeLossy rest := by
  -- a sequence is recognised by its own bytes, so the rest is not looked at
  cases h with
  | one h_a =>
    simp only [List.cons_append, List.nil_append]
    conv_lhs => unfold decodeLossy
    simp only [h_a]
  | two h_a h_b =>
    simp only [List.cons_append, List.nil_append]
    conv_lhs => unfold decodeLossy
    simp only [h_a, h_b, if_true]
  | three h_a h_b h_c =>
    simp only [List.cons_append, List.nil_append]
    conv_lhs => unfold decodeLossy
    simp only [h_a, h_b, h_c, if_true]
  | four h_a h_b h_c h_d =>
    simp only [List.cons_append, List.nil_append]
    conv_lhs => unfold decodeLossy
    simp only [h_a, h_b, h_c, h_d, if_true]

/-- A well-formed sequence that breaks off gives one replacement character. -/
theorem Sequence.decodeLossy_take {bytes : List UInt8} {c : Char} (h : Sequence bytes c) {k : ℕ}
    (h_pos : 0 < k) (h_lt : k < bytes.length) : decodeLossy (bytes.take k) = [replacement] := by
  cases h with
  | one h_a =>
    -- a single byte does not break off
    simp only [List.length_cons, List.length_nil] at h_lt
    omega
  | two h_a h_b =>
    simp only [List.length_cons, List.length_nil] at h_lt
    obtain rfl : k = 1 := by omega
    simp only [List.take_succ_cons, List.take_zero, decodeLossy, h_a]
  | three h_a h_b h_c =>
    simp only [List.length_cons, List.length_nil] at h_lt
    obtain rfl | rfl : k = 1 ∨ k = 2 := by omega
    · simp only [List.take_succ_cons, List.take_zero, decodeLossy, h_a]
    · simp only [List.take_succ_cons, List.take_zero, decodeLossy, h_a, h_b, if_true]
  | four h_a h_b h_c h_d =>
    simp only [List.length_cons, List.length_nil] at h_lt
    obtain rfl | rfl | rfl : k = 1 ∨ k = 2 ∨ k = 3 := by omega
    · simp only [List.take_succ_cons, List.take_zero, decodeLossy, h_a]
    · simp only [List.take_succ_cons, List.take_zero, decodeLossy, h_a, h_b, if_true]
    · simp only [List.take_succ_cons, List.take_zero, decodeLossy, h_a, h_b, h_c, if_true]

/-! ### Encoded characters -/

/-- A character's code point is no surrogate and at most `U+10FFFF`. -/
theorem toNat_valid (c : Char) :
    c.val.toNat < 0xD800 ∨ (0xDFFF < c.val.toNat ∧ c.val.toNat < 0x110000) := c.valid

theorem toNat_ofNat {n : ℕ} (h : n < 256) : (UInt8.ofNat n).toNat = n := by
  rw [UInt8.toNat_ofNat']
  exact Nat.mod_eq_of_lt h

/-- The low six bits of a code point make a continuation byte. -/
theorem isContinuation_ofNat (n : ℕ) : isContinuation (UInt8.ofNat (n % 64 + 0x80)) = true := by
  have h_byte := toNat_ofNat (n := n % 64 + 0x80) (by omega)
  simp only [isContinuation, h_byte, Bool.and_eq_true, decide_eq_true_eq]
  omega

theorem isSecond_of_three {n : ℕ} (h_min : 0x7ff < n) (h_max : n ≤ 0xffff)
    (h_valid : n < 0xD800 ∨ 0xDFFF < n) :
    isSecond (UInt8.ofNat (n / 4096 % 16 + 0xe0)) (UInt8.ofNat (n / 64 % 64 + 0x80)) = true := by
  have h_lead := toNat_ofNat (n := n / 4096 % 16 + 0xe0) (by omega)
  have h_byte := toNat_ofNat (n := n / 64 % 64 + 0x80) (by omega)
  -- the lead bytes with a restriction of their own, and the others
  unfold isSecond
  split <;>
    simp only [isContinuation_ofNat, h_lead, h_byte, Bool.and_eq_true, decide_eq_true_eq] at * <;>
    omega

theorem isSecond_of_four {n : ℕ} (h_min : 0xffff < n) (h_max : n < 0x110000) :
    isSecond (UInt8.ofNat (n / 262144 % 8 + 0xf0)) (UInt8.ofNat (n / 4096 % 64 + 0x80))
      = true := by
  have h_lead := toNat_ofNat (n := n / 262144 % 8 + 0xf0) (by omega)
  have h_byte := toNat_ofNat (n := n / 4096 % 64 + 0x80) (by omega)
  unfold isSecond
  split <;>
    simp only [isContinuation_ofNat, h_lead, h_byte, Bool.and_eq_true, decide_eq_true_eq] at * <;>
    omega

/-- **One character.** Its encoding is a well-formed sequence. -/
theorem sequence_encodeChar (c : Char) : Sequence (String.utf8EncodeChar c) c := by
  have h_valid := toNat_valid c
  have h_char : Char.ofNat c.val.toNat = c := Char.ofNat_toNat c
  have h_cont := isContinuation_ofNat
  unfold String.utf8EncodeChar
  -- from here on arithmetic on the code point
  generalize c.val.toNat = n at h_valid h_char ⊢
  subst h_char
  -- one case for each length of the sequence
  dsimp only
  split
  · next h_one =>
    have h_lead := toNat_ofNat (n := n) (by omega)
    have h_width : charWidth (UInt8.ofNat n) = 1 := by
      rw [charWidth, h_lead, if_pos (by omega)]
    have h_sequence := Sequence.one h_width
    rwa [h_lead] at h_sequence
  split
  · next h_one h_two =>
    have h_lead := toNat_ofNat (n := n / 64 % 32 + 0xc0) (by omega)
    have h_last := toNat_ofNat (n := n % 64 + 0x80) (by omega)
    have h_width : charWidth (UInt8.ofNat (n / 64 % 32 + 0xc0)) = 2 := by
      rw [charWidth, h_lead, if_neg (by omega), if_neg (by omega), if_pos (by omega)]
    have h_point : (n / 64 % 32 + 0xc0) % 32 * 64 + (n % 64 + 0x80) % 64 = n := by omega
    have h_sequence := Sequence.two h_width (h_cont n)
    rwa [char2, h_lead, h_last, h_point] at h_sequence
  split
  · next h_two h_three =>
    have h_lead := toNat_ofNat (n := n / 4096 % 16 + 0xe0) (by omega)
    have h_mid := toNat_ofNat (n := n / 64 % 64 + 0x80) (by omega)
    have h_last := toNat_ofNat (n := n % 64 + 0x80) (by omega)
    have h_width : charWidth (UInt8.ofNat (n / 4096 % 16 + 0xe0)) = 3 := by
      rw [charWidth, h_lead, if_neg (by omega), if_neg (by omega), if_neg (by omega),
        if_pos (by omega)]
    have h_second := isSecond_of_three (n := n) (by omega) h_three (by omega)
    have h_point : (n / 4096 % 16 + 0xe0) % 16 * 4096 + (n / 64 % 64 + 0x80) % 64 * 64
        + (n % 64 + 0x80) % 64 = n := by omega
    have h_sequence := Sequence.three h_width h_second (h_cont n)
    rwa [char3, h_lead, h_mid, h_last, h_point] at h_sequence
  · next h_three =>
    have h_lead := toNat_ofNat (n := n / 262144 % 8 + 0xf0) (by omega)
    have h_second_byte := toNat_ofNat (n := n / 4096 % 64 + 0x80) (by omega)
    have h_third := toNat_ofNat (n := n / 64 % 64 + 0x80) (by omega)
    have h_last := toNat_ofNat (n := n % 64 + 0x80) (by omega)
    have h_width : charWidth (UInt8.ofNat (n / 262144 % 8 + 0xf0)) = 4 := by
      rw [charWidth, h_lead, if_neg (by omega), if_neg (by omega), if_neg (by omega),
        if_neg (by omega), if_pos (by omega)]
    have h_second := isSecond_of_four (n := n) (by omega) (by omega)
    have h_point : (n / 262144 % 8 + 0xf0) % 8 * 262144 + (n / 4096 % 64 + 0x80) % 64 * 4096
        + (n / 64 % 64 + 0x80) % 64 * 64 + (n % 64 + 0x80) % 64 = n := by omega
    have h_sequence := Sequence.four h_width h_second (h_cont (n / 64)) (h_cont n)
    rwa [char4, h_lead, h_second_byte, h_third, h_last, h_point] at h_sequence

/-- Text with more characters. -/
theorem encode_cons (c : Char) (s : List Char) :
    encode (c :: s) = String.utf8EncodeChar c ++ encode s :=
  List.flatMap_cons

/-- **Round trip.** Encoded text is read back without replacements. -/
theorem decodeLossy_encode (s : List Char) : decodeLossy (encode s) = s := by
  induction s with
  | nil => rfl
  | cons c s ih =>
    rw [encode_cons, (sequence_encodeChar c).decodeLossy_append, ih]

/-! ### The zero byte -/

theorem not_isSecond_zero (a : UInt8) : isSecond a 0 = false := by
  unfold isSecond
  split <;> rfl

/-- Only the zero character has a zero byte, and that is its encoding. -/
theorem Sequence.eq_zero {bytes : List UInt8} {c : Char} (h : Sequence bytes c)
    (h_zero : 0 ∈ bytes) : bytes = [0] ∧ c = '\x00' := by
  have h_width : charWidth 0 = 1 := by decide
  have h_cont : isContinuation 0 = false := by decide
  have h_second := not_isSecond_zero
  -- the zero byte leads only itself, and continues nothing
  cases h with
  | one h_a =>
    obtain rfl := List.mem_singleton.mp h_zero
    exact ⟨rfl, rfl⟩
  | two h_a h_b =>
    simp only [List.mem_cons, List.not_mem_nil, or_false] at h_zero
    rcases h_zero with rfl | rfl <;> simp_all
  | three h_a h_b h_c =>
    simp only [List.mem_cons, List.not_mem_nil, or_false] at h_zero
    rcases h_zero with rfl | rfl | rfl <;> simp_all
  | four h_a h_b h_c h_d =>
    simp only [List.mem_cons, List.not_mem_nil, or_false] at h_zero
    rcases h_zero with rfl | rfl | rfl | rfl <;> simp_all

/-- Characters of one byte each. -/
theorem length_encode {s : List Char} (h : ∀ c ∈ s, c.utf8Size = 1) :
    (encode s).length = s.length := by
  induction s with
  | nil => rfl
  | cons c s ih =>
    rw [encode, List.flatMap_cons, List.length_append, String.length_utf8EncodeChar,
      h c (List.mem_cons_self ..), ← encode, ih (fun d h_d => h d (List.mem_cons_of_mem _ h_d)),
      List.length_cons, Nat.add_comm]

end Utf8
