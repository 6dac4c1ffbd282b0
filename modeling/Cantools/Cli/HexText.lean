import Cantools.Cli.Basic

/-!
# Which texts are payloads

`ReadsHex` is what `parse_hex_bytes` is for: an even number of hexadecimal digits, apart from
blanks and underscores, is read as the values of its pairs, and any other text is an error. Two
things come in between. The slices of the loop count bytes, so that a character of several bytes
may be cut, which panics; and the parser of a pair takes a plus sign for the first digit.

`hexBytes` is followed pair by pair: a slice of two bytes in front is read and the rest goes on as
a text of its own (`hexBytes_append`). Every text is a number of pairs that are read and a rest at
which the loop ends (`exists_unpair_append`), and `Misread` looks at that rest.
-/

namespace Cantools.Cli

open Numeral Program Utf8

/-- The text of pairs of characters. -/
def unpair (pairs : List (Char × Char)) : List Char := pairs.flatMap fun pair => [pair.1, pair.2]

/-- An even number of hexadecimal digits. -/
def IsHexText (s : List Char) : Prop := 2 ∣ s.length ∧ ∀ c ∈ s, IsHexDigit c

/-- The value of a pair of digits. -/
def IsPairValue (pair : Char × Char) (byte : UInt8) : Prop :=
  ∃ high low, digitValue 16 pair.1 = some high ∧ digitValue 16 pair.2 = some low ∧
    byte.toNat = high * 16 + low

/-- The bytes are the values of the pairs of the text, in order. -/
def PairValues (s : List Char) (bytes : List UInt8) : Prop :=
  ∃ pairs, s = unpair pairs ∧ List.Forall₂ IsPairValue pairs bytes

/-- What is read: hexadecimal text and no other. -/
structure ReadsHex (input : List Char) : Prop where
  accepts : IsHexText (compact input) →
    ∃ bytes, parseHexBytes input = .ok bytes ∧ PairValues (compact input) bytes
  rejects : ¬ IsHexText (compact input) → ∃ e, parseHexBytes input = .error (.error e)

/-! ### Pairs -/

/-- A pair that is read as a byte: two digits, or a plus sign and a digit. -/
def IsReadPair (pair : Char × Char) : Prop :=
  (IsHexDigit pair.1 ∨ pair.1 = '+') ∧ IsHexDigit pair.2

theorem IsReadPair.byteLen_eq {pair : Char × Char} (h : IsReadPair pair) :
    byteLen [pair.1, pair.2] = 2 := by
  have h_first : pair.1.utf8Size = 1 := by
    rcases h.1 with h_digit | h_sign
    · exact h_digit.utf8Size
    · rw [h_sign]
      rfl
  simp only [byteLen_cons, byteLen_nil, h_first, h.2.utf8Size]

theorem readPair_eq_ok_iff {a b : Char} {n : ℕ} :
    fromStrRadix 16 (2 ^ 8) [a, b] = .ok n ↔ ∃ low, digitValue 16 b = some low ∧
      (a = '+' ∧ n = low ∨ ∃ high, digitValue 16 a = some high ∧ n = high * 16 + low) :=
  fromStrRadix_pair (by decide) a b

/-- The byte of a pair, which is its value if it is one of digits. -/
theorem IsReadPair.exists_byte {pair : Char × Char} (h : IsReadPair pair) :
    ∃ byte : UInt8, fromStrRadix 16 (2 ^ 8) [pair.1, pair.2] = .ok byte.toNat ∧
      (IsHexDigit pair.1 → IsPairValue pair byte) := by
  obtain ⟨low, h_low⟩ := exists_digitValue_iff.mpr h.2
  obtain ⟨n, h_n⟩ : ∃ n, fromStrRadix 16 (2 ^ 8) [pair.1, pair.2] = .ok n := by
    rcases h.1 with h_digit | h_sign
    · obtain ⟨high, h_high⟩ := exists_digitValue_iff.mpr h_digit
      exact ⟨_, readPair_eq_ok_iff.mpr ⟨low, h_low, .inr ⟨high, h_high, rfl⟩⟩⟩
    · exact ⟨_, readPair_eq_ok_iff.mpr ⟨low, h_low, .inl ⟨h_sign, rfl⟩⟩⟩
  -- the value of two digits fits a byte
  have h_toNat : n.toUInt8.toNat = n := UInt8.toNat_ofNat_of_lt (fromStrRadix_lt (by decide) h_n)
  refine ⟨n.toUInt8, by rw [h_toNat, h_n], fun h_digit => ?_⟩
  obtain ⟨low, h_low, ⟨h_sign, -⟩ | ⟨high, h_high, h_value⟩⟩ := readPair_eq_ok_iff.mp h_n
  · -- a plus sign is no digit
    rw [h_sign] at h_digit
    exact absurd h_digit (by decide)
  · exact ⟨high, low, h_high, h_low, h_toNat.trans h_value⟩

/-- A text of two bytes that is read as a number is such a pair. -/
theorem exists_isReadPair {head : List Char} (h_head : byteLen head = 2) {n : ℕ}
    (h : fromStrRadix 16 (2 ^ 8) head = .ok n) :
    ∃ pair, IsReadPair pair ∧ head = [pair.1, pair.2] := by
  match head, h_head with
  | [c], h_head =>
    -- a single character that is read takes one byte
    have h_digit := exists_digitValue_iff.mp (exists_digitValue_of_single h)
    rw [byteLen_cons, h_digit.utf8Size] at h_head
    exact absurd h_head (by decide)
  | [a, b], _ =>
    obtain ⟨low, h_low, h_first⟩ := readPair_eq_ok_iff.mp h
    refine ⟨(a, b), ⟨?_, exists_digitValue_iff.mp ⟨low, h_low⟩⟩, rfl⟩
    rcases h_first with ⟨h_sign, -⟩ | ⟨high, h_high, -⟩
    · exact .inr h_sign
    · exact .inl (exists_digitValue_iff.mp ⟨high, h_high⟩)
  | a :: b :: c :: rest, h_head =>
    have h_a := a.utf8Size_pos
    have h_b := b.utf8Size_pos
    have h_c := c.utf8Size_pos
    simp only [byteLen_cons] at h_head
    omega

/-! ### The loop -/

/-- **One round.** A slice of two bytes in front is read, and the loop goes on behind it. -/
theorem hexBytes_append {head : List Char} (h_head : byteLen head = 2) (rest : List Char) :
    hexBytes (head ++ rest) = (do
      let byte ← orFail ((fromStrRadix 16 (2 ^ 8) head).mapError
        (.context "invalid hex payload byte"))
      let bytes ← hexBytes rest
      pure (byte.toUInt8 :: bytes)) := by
  -- the pair is one round of the loop
  have h_count : (byteLen (head ++ rest) + 1) / 2 = (byteLen rest + 1) / 2 + 1 := by
    rw [byteLen_append]
    omega
  have h_cut : splitAt 2 (head ++ rest) = some (head, rest) :=
    splitAt_eq_some_iff.mpr ⟨rfl, h_head⟩
  have h_slice : sliceBytes (head ++ rest) 0 (0 + 2) = some head := by
    rw [Nat.zero_add, sliceBytes_zero, h_cut]
    rfl
  -- behind the pair, an offset counts from the rest of the text
  have h_later : ∀ offset, hexByte (head ++ rest) (2 + offset) = hexByte rest offset := by
    intro offset
    rw [hexByte, ← h_head, Nat.add_assoc, sliceBytes_append, h_head]
    rfl
  rw [hexBytes, h_count, List.range'_succ, List.mapM_cons, Nat.add_comm 0 2,
    ← List.map_add_range', List.mapM_map]
  simp only [Function.comp_def, h_later]
  rw [hexByte, h_slice, orPanic_some, ok_bind, bind_assoc]
  rfl

/-- A character that is cut stops the program. -/
theorem hexBytes_cut {s : List Char} (h_ne : s ≠ []) (h_cut : splitAt 2 s = none) :
    hexBytes s = .error .panic := by
  have h_pos := byteLen_pos h_ne
  obtain ⟨n, h_n⟩ : ∃ n, (byteLen s + 1) / 2 = n + 1 := ⟨(byteLen s + 1) / 2 - 1, by omega⟩
  have h_slice : sliceBytes s 0 (0 + 2) = none := by
    rw [Nat.zero_add, sliceBytes_zero, h_cut]
    rfl
  rw [hexBytes, h_n, List.range'_succ, List.mapM_cons, hexByte, h_slice]
  rfl

/-- **The pairs in front** are read. -/
theorem hexBytes_unpair {pairs : List (Char × Char)} (h : ∀ pair ∈ pairs, IsReadPair pair) :
    ∃ bytes, (∀ rest, hexBytes (unpair pairs ++ rest) = (hexBytes rest).map (bytes ++ ·)) ∧
      ((∀ pair ∈ pairs, IsHexDigit pair.1) → List.Forall₂ IsPairValue pairs bytes) := by
  induction pairs with
  | nil =>
    refine ⟨[], fun rest => ?_, fun _ => .nil⟩
    show hexBytes rest = _
    cases hexBytes rest <;> rfl
  | cons pair pairs ih =>
    obtain ⟨h_pair, h_pairs⟩ := List.forall_mem_cons.mp h
    obtain ⟨byte, h_byte, h_value⟩ := h_pair.exists_byte
    obtain ⟨bytes, h_bytes, h_values⟩ := ih h_pairs
    refine ⟨byte :: bytes, fun rest => ?_, fun h_digits => ?_⟩
    · -- the first pair is cut off the text, and the rest is read on its own
      have h_text : unpair (pair :: pairs) ++ rest
          = [pair.1, pair.2] ++ (unpair pairs ++ rest) := rfl
      rw [h_text, hexBytes_append h_pair.byteLen_eq, h_byte, h_bytes]
      cases hexBytes rest with
      | error fault => rfl
      | ok later => simp [Except.mapError, Except.map, bind, Except.bind, pure, Except.pure]
    · obtain ⟨h_digit, h_digits⟩ := List.forall_mem_cons.mp h_digits
      exact .cons (h_value h_digit) (h_values h_digits)

/-- The rest of a text at which the loop ends. -/
inductive EndsAt : List Char → Prop where
  | nil : EndsAt []
  /-- A slice of two bytes cuts a character. -/
  | cut {rest : List Char} : rest ≠ [] → splitAt 2 rest = none → EndsAt rest
  /-- A slice of two bytes is no number. -/
  | refused {head : List Char} {e : ParseIntError} (rest : List Char) : byteLen head = 2 →
      fromStrRadix 16 (2 ^ 8) head = .error e → EndsAt (head ++ rest)

/-- **Where the loop ends.** -/
theorem exists_unpair_append (s : List Char) : ∃ pairs rest, s = unpair pairs ++ rest ∧
    (∀ pair ∈ pairs, IsReadPair pair) ∧ EndsAt rest := by
  induction h_len : s.length using Nat.strong_induction_on generalizing s with
  | _ len ih =>
    by_cases h_nil : s = []
    · exact ⟨[], s, rfl, nofun, h_nil ▸ .nil⟩
    · cases h_cut : splitAt 2 s with
      | none => exact ⟨[], s, rfl, nofun, .cut h_nil h_cut⟩
      | some parts =>
        obtain ⟨h_s, h_head⟩ := splitAt_eq_some_iff.mp h_cut
        cases h_read : fromStrRadix 16 (2 ^ 8) parts.1 with
        | error e => exact ⟨[], s, rfl, nofun, h_s ▸ .refused parts.2 h_head h_read⟩
        | ok n =>
          -- a pair is read, and what follows it is shorter
          obtain ⟨pair, h_pair, h_text⟩ := exists_isReadPair h_head h_read
          have h_shorter : parts.2.length < len := by
            rw [← h_len, h_s, h_text, List.length_append, List.length_cons]
            omega
          obtain ⟨pairs, rest, h_rest, h_pairs, h_ends⟩ := ih _ h_shorter parts.2 rfl
          refine ⟨pair :: pairs, rest, ?_, List.forall_mem_cons.mpr ⟨h_pair, h_pairs⟩, h_ends⟩
          rw [h_s, h_text, h_rest]
          rfl

/-! ### Hexadecimal text -/

theorem length_unpair (pairs : List (Char × Char)) : (unpair pairs).length = 2 * pairs.length := by
  induction pairs with
  | nil => rfl
  | cons pair pairs ih =>
    rw [unpair, List.flatMap_cons, List.length_append, ← unpair, ih, List.length_cons]
    exact Nat.add_comm 2 (2 * pairs.length)

theorem forall_mem_unpair {pairs : List (Char × Char)} {p : Char → Prop} :
    (∀ c ∈ unpair pairs, p c) ↔ ∀ pair ∈ pairs, p pair.1 ∧ p pair.2 := by
  simp only [unpair, List.mem_flatMap, List.mem_cons, List.not_mem_nil, or_false]
  constructor
  · exact fun h pair h_pair => ⟨h _ ⟨pair, h_pair, .inl rfl⟩, h _ ⟨pair, h_pair, .inr rfl⟩⟩
  · rintro h c ⟨pair, h_pair, rfl | rfl⟩
    · exact (h pair h_pair).1
    · exact (h pair h_pair).2

theorem isHexText_unpair_iff {pairs : List (Char × Char)} :
    IsHexText (unpair pairs) ↔ ∀ pair ∈ pairs, IsHexDigit pair.1 ∧ IsHexDigit pair.2 := by
  rw [IsHexText, length_unpair, forall_mem_unpair]
  exact and_iff_right (Nat.dvd_mul_right 2 _)

/-- Hexadecimal text has an even number of bytes. -/
theorem IsHexText.dvd_byteLen {s : List Char} (h : IsHexText s) : 2 ∣ byteLen s := by
  rw [byteLen, length_encode fun c h_c => (h.2 c h_c).utf8Size]
  exact h.1

/-- A text of two bytes that is refused is no hexadecimal text. -/
theorem not_isHexText_of_refused {head : List Char} (h_head : byteLen head = 2) {e : ParseIntError}
    (h : fromStrRadix 16 (2 ^ 8) head = .error e) : ¬ ∀ c ∈ head, IsHexDigit c := by
  intro h_digits
  have h_length : head.length = 2 := by
    rw [← h_head, byteLen, length_encode fun c h_c => (h_digits c h_c).utf8Size]
  obtain ⟨a, b, rfl⟩ := List.length_eq_two.mp h_length
  have h_a := h_digits a (List.mem_cons_self ..)
  have h_b := h_digits b (List.mem_cons_of_mem _ (List.mem_cons_self ..))
  have h_pair : IsReadPair (a, b) := ⟨.inl h_a, h_b⟩
  obtain ⟨byte, h_byte, -⟩ := h_pair.exists_byte
  cases h.symm.trans h_byte

/-! ### Which texts are read -/

theorem parseHexBytes_of_even {input : List Char} (h : 2 ∣ byteLen (compact input)) :
    parseHexBytes input = hexBytes (compact input) := by
  by_cases h_empty : compact input = []
  · rw [parseHexBytes, h_empty]
    rfl
  · rw [parseHexBytes, if_neg (mt List.isEmpty_iff.mp h_empty), if_neg (not_not.mpr h)]

theorem parseHexBytes_of_odd {input : List Char} (h : ¬ 2 ∣ byteLen (compact input)) :
    ∃ e, parseHexBytes input = .error (.error e) := by
  have h_ne : ¬ (compact input).isEmpty := by
    rw [List.isEmpty_iff]
    intro h_nil
    rw [h_nil] at h
    exact h (Nat.dvd_zero 2)
  refine ⟨.message "hex payload must contain an even number of digits", ?_⟩
  rw [parseHexBytes, if_neg h_ne, if_pos h]

/-- Behind pairs that are read, the text ends and one of them has a sign, or a slice cuts a
character. -/
def Misread (s : List Char) : Prop :=
  ∃ pairs rest, s = unpair pairs ++ rest ∧ (∀ pair ∈ pairs, IsReadPair pair) ∧
    ((rest = [] ∧ ∃ pair ∈ pairs, pair.1 = '+') ∨ (rest ≠ [] ∧ splitAt 2 rest = none))

/-- Pairs of digits only are read as their values. -/
theorem readsHex_of_pairs {input : List Char} {pairs : List (Char × Char)}
    (h_text : compact input = unpair pairs) (h_pairs : ∀ pair ∈ pairs, IsReadPair pair)
    (h_sign : ∀ pair ∈ pairs, pair.1 ≠ '+') : ReadsHex input := by
  have h_digits : ∀ pair ∈ pairs, IsHexDigit pair.1 := fun pair h_pair =>
    (h_pairs pair h_pair).1.resolve_right (h_sign pair h_pair)
  have h_hex : IsHexText (compact input) := by
    rw [h_text, isHexText_unpair_iff]
    exact fun pair h_pair => ⟨h_digits pair h_pair, (h_pairs pair h_pair).2⟩
  obtain ⟨bytes, h_bytes, h_values⟩ := hexBytes_unpair h_pairs
  -- the loop reads the pairs, and nothing is left behind them
  have h_read : parseHexBytes input = .ok (bytes ++ []) := by
    have h_loop := h_bytes []
    rw [List.append_nil, ← h_text] at h_loop
    rw [parseHexBytes_of_even h_hex.dvd_byteLen, h_loop]
    rfl
  rw [List.append_nil] at h_read
  exact ⟨fun _ => ⟨bytes, h_read, pairs, h_text, h_values h_digits⟩,
    fun h_not => absurd h_hex h_not⟩

/-- A pair with a sign makes a text that is accepted, and is no hexadecimal text. -/
theorem not_readsHex_of_sign {input : List Char} {pairs : List (Char × Char)}
    (h_text : compact input = unpair pairs) (h_pairs : ∀ pair ∈ pairs, IsReadPair pair)
    {pair : Char × Char} (h_pair : pair ∈ pairs) (h_sign : pair.1 = '+')
    (h_even : 2 ∣ byteLen (compact input)) : ¬ ReadsHex input := by
  intro h
  have h_not : ¬ IsHexText (compact input) := by
    rw [h_text, isHexText_unpair_iff]
    intro h_digits
    have h_first := (h_digits pair h_pair).1
    rw [h_sign] at h_first
    exact absurd h_first (by decide)
  -- it should be an error, and the loop reads all of it
  obtain ⟨e, h_error⟩ := h.rejects h_not
  obtain ⟨bytes, h_bytes, -⟩ := hexBytes_unpair h_pairs
  have h_loop := h_bytes []
  rw [List.append_nil, ← h_text, ← parseHexBytes_of_even h_even] at h_loop
  cases h_error.symm.trans h_loop

/-- What is read as it should be does not panic. -/
theorem ReadsHex.ne_panic {input : List Char} (h : ReadsHex input) :
    parseHexBytes input ≠ .error .panic := by
  intro h_panic
  by_cases h_hex : IsHexText (compact input)
  · obtain ⟨bytes, h_ok, -⟩ := h.accepts h_hex
    cases h_ok.symm.trans h_panic
  · obtain ⟨e, h_error⟩ := h.rejects h_hex
    cases h_error.symm.trans h_panic

/-- A character that is cut behind the pairs that are read makes the program panic. -/
theorem parseHexBytes_of_cut {input rest : List Char} {pairs : List (Char × Char)}
    (h_text : compact input = unpair pairs ++ rest) (h_pairs : ∀ pair ∈ pairs, IsReadPair pair)
    (h_ne : rest ≠ []) (h_cut : splitAt 2 rest = none) (h_even : 2 ∣ byteLen (compact input)) :
    parseHexBytes input = .error .panic := by
  obtain ⟨bytes, h_bytes, -⟩ := hexBytes_unpair h_pairs
  rw [parseHexBytes_of_even h_even, h_text, h_bytes, hexBytes_cut h_ne h_cut]
  rfl

/-- A slice that is no number ends the loop with an error. -/
theorem readsHex_of_refused {input head rest : List Char} {pairs : List (Char × Char)}
    (h_text : compact input = unpair pairs ++ (head ++ rest))
    (h_pairs : ∀ pair ∈ pairs, IsReadPair pair) (h_head : byteLen head = 2) {e : ParseIntError}
    (h_read : fromStrRadix 16 (2 ^ 8) head = .error e) (h_even : 2 ∣ byteLen (compact input)) :
    ReadsHex input := by
  have h_not : ¬ IsHexText (compact input) := by
    rintro ⟨-, h_digits⟩
    rw [h_text] at h_digits
    refine not_isHexText_of_refused h_head h_read fun c h_c => h_digits c ?_
    exact List.mem_append_right _ (List.mem_append_left _ h_c)
  obtain ⟨bytes, h_bytes, -⟩ := hexBytes_unpair h_pairs
  have h_error := parseHexBytes_of_even h_even
  rw [h_text, h_bytes, hexBytes_append h_head, h_read] at h_error
  exact ⟨fun h_hex => absurd h_hex h_not, fun _ => ⟨_, h_error⟩⟩

/-- **Which texts are read as they should be.** -/
theorem parseHexBytes_readsHex_iff (input : List Char) :
    ReadsHex input ↔ ¬ (2 ∣ byteLen (compact input) ∧ Misread (compact input)) := by
  constructor
  · -- each of the two ways to misread is a wrong result
    rintro h ⟨h_even, pairs, rest, h_text, h_pairs, h_rest⟩
    rcases h_rest with ⟨rfl, pair, h_pair, h_sign⟩ | ⟨h_ne, h_cut⟩
    · rw [List.append_nil] at h_text
      exact not_readsHex_of_sign h_text h_pairs h_pair h_sign h_even h
    · exact h.ne_panic (parseHexBytes_of_cut h_text h_pairs h_ne h_cut h_even)
  · intro h_not
    by_cases h_even : 2 ∣ byteLen (compact input)
    · -- the pairs that are read, and why the reader stops behind them
      obtain ⟨pairs, rest, h_text, h_pairs, h_ends⟩ := exists_unpair_append (compact input)
      cases h_ends with
      -- all is read: a pair with a sign would be misread
      | nil =>
        rw [List.append_nil] at h_text
        refine readsHex_of_pairs h_text h_pairs fun pair h_pair h_sign => h_not ⟨h_even, ?_⟩
        rw [h_text]
        exact ⟨pairs, [], (List.append_nil _).symm, h_pairs, .inl ⟨rfl, pair, h_pair, h_sign⟩⟩
      -- a character is cut: this is a misreading as well
      | cut h_ne h_cut =>
        exact absurd ⟨h_even, pairs, rest, h_text, h_pairs, .inr ⟨h_ne, h_cut⟩⟩ h_not
      -- a pair that is refused is an error, as it should be
      | refused rest h_head h_read =>
        exact readsHex_of_refused h_text h_pairs h_head h_read h_even
    · exact ⟨fun h_hex => absurd h_hex.dvd_byteLen h_even, fun _ => parseHexBytes_of_odd h_even⟩

/-- A signed digit is read as a byte, and a character that does not end with a pair panics. -/
theorem parseHexBytes_readsHex_counterexample :
    parseHexBytes "+1".toList = .ok [1] ∧ ¬ ReadsHex "+1".toList ∧
      parseHexBytes "aéb".toList = .error .panic ∧ ¬ ReadsHex "aéb".toList := by
  have h_signed : parseHexBytes "+1".toList = .ok [1] := by decide
  have h_cut : parseHexBytes "aéb".toList = .error .panic := by decide
  refine ⟨h_signed, fun h => ?_, h_cut, fun h => ?_⟩
  · have h_not : ¬ IsHexText (compact "+1".toList) := fun h_hex =>
      absurd (h_hex.2 '+' (by decide)) (by decide)
    obtain ⟨e, h_error⟩ := h.rejects h_not
    cases h_error.symm.trans h_signed
  · exact h.ne_panic h_cut

end Cantools.Cli
