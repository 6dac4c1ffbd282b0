import Mathlib.Data.Nat.Digits.Lemmas

/-!
# Numerals in a radix

Printing a number with upper-case digits, padded with zeros to a width (`print`), and reading one
back with the checks of the integer parsers of the source (`fromStrRadix`): a sign, digits of the
radix, and a bound that no partial result may reach. A printed number below the bound is read back
(`fromStrRadix_print`).

A printed number is a non-empty list of digits (`print_spec`); what holds of all digits is checked
digit by digit.
-/

namespace Numeral

/-- The character of a digit below `36`. -/
def digitChar (d : ℕ) : Char := if d < 10 then Char.ofNat (48 + d) else Char.ofNat (55 + d)

/-- `char::to_digit` -/
def digitValue (radix : ℕ) (c : Char) : Option ℕ :=
  let n := c.toNat
  let d :=
    if 48 ≤ n ∧ n ≤ 57 then n - 48
    else if 65 ≤ n ∧ n ≤ 90 then n - 55
    else if 97 ≤ n ∧ n ≤ 122 then n - 87
    else radix
  if d < radix then some d else none

/-- The digits of a number, padded with zeros to a width; at least one digit. -/
def print (radix width n : ℕ) : List Char :=
  ((Nat.digits radix n).reverse.map digitChar).leftpad (max width 1) '0'

/-- `std::num::ParseIntError` of an unsigned integer. -/
inductive ParseIntError where
  | empty
  | invalidDigit
  | posOverflow
  deriving DecidableEq, Repr

/-- The text of the error. -/
def ParseIntError.message : ParseIntError → String
  | .empty => "cannot parse integer from empty string"
  | .invalidDigit => "invalid digit found in string"
  | .posOverflow => "number too large to fit in target type"

/-- Read digits behind a number that was read so far. -/
def readDigits (radix bound : ℕ) : ℕ → List Char → Except ParseIntError ℕ
  | n, [] => .ok n
  | n, c :: cs =>
    match digitValue radix c with
    | none => .error .invalidDigit
    | some d =>
      if n * radix + d < bound then readDigits radix bound (n * radix + d) cs
      else .error .posOverflow

/-- `from_str_radix` of the unsigned integers below `bound`. -/
def fromStrRadix (radix bound : ℕ) : List Char → Except ParseIntError ℕ
  | [] => .error .empty
  | ['+'] => .error .invalidDigit
  | ['-'] => .error .invalidDigit
  | '+' :: cs => readDigits radix bound 0 cs
  | cs => readDigits radix bound 0 cs

/-! ### Digits -/

theorem toNat_digitChar : ∀ d < 36,
    (digitChar d).toNat = if d < 10 then 48 + d else 55 + d := by
  decide

theorem digitValue_digitChar {radix d : ℕ} (h_radix : radix ≤ 36) (h : d < radix) :
    digitValue radix (digitChar d) = some d := by
  have h_nat := toNat_digitChar d (lt_of_lt_of_le h h_radix)
  have h_value : (if 48 ≤ (digitChar d).toNat ∧ (digitChar d).toNat ≤ 57 then
        (digitChar d).toNat - 48
      else if 65 ≤ (digitChar d).toNat ∧ (digitChar d).toNat ≤ 90 then (digitChar d).toNat - 55
      else if 97 ≤ (digitChar d).toNat ∧ (digitChar d).toNat ≤ 122 then (digitChar d).toNat - 87
      else radix) = d := by
    rw [h_nat]
    split_ifs <;> omega
  unfold digitValue
  simp only [h_value]
  exact if_pos h

/-- A digit is no sign. -/
theorem digitChar_ne_sign : ∀ d < 36, digitChar d ≠ '+' ∧ digitChar d ≠ '-' := by
  decide

/-! ### Printing -/

/-- The number of a list of digits, the most significant first. -/
def value (radix : ℕ) (ds : List ℕ) : ℕ := ds.foldl (fun n d => n * radix + d) 0

/-- **What is printed**: the digits of the number, behind zeros. -/
theorem print_spec {radix : ℕ} (h_radix : 1 < radix) (width n : ℕ) :
    ∃ ds : List ℕ, print radix width n = ds.map digitChar ∧ ds ≠ [] ∧ (∀ d ∈ ds, d < radix) ∧
      value radix ds = n := by
  -- leading zeros have the value zero
  have h_zeros : ∀ k : ℕ, (List.replicate k 0).foldl (fun n d => n * radix + d) 0 = 0 := by
    intro k
    induction k with
    | zero => rfl
    | succ k ih => rw [List.replicate_succ, List.foldl_cons, Nat.zero_mul, Nat.zero_add, ih]
  let pad := max width 1 - (Nat.digits radix n).length
  refine ⟨List.replicate pad 0 ++ (Nat.digits radix n).reverse, ?_, ?_, ?_, ?_⟩
  · rw [print, List.leftpad, List.map_append, List.map_replicate, List.length_map,
      List.length_reverse]
    rfl
  · intro h_nil
    -- without digits there is at least one zero
    obtain ⟨h_pad, h_digits⟩ := List.append_eq_nil_iff.mp h_nil
    rw [List.reverse_eq_nil_iff] at h_digits
    rw [List.replicate_eq_nil_iff] at h_pad
    simp only [pad, h_digits, List.length_nil] at h_pad
    omega
  · intro d h_d
    rcases List.mem_append.mp h_d with h_d | h_d
    · rw [(List.mem_replicate.mp h_d).2]
      omega
    · exact Nat.digits_lt_base h_radix (List.mem_reverse.mp h_d)
  · -- the zeros in front count nothing, and the fold over the rest is Mathlib's `ofDigits`
    rw [value, List.foldl_append, h_zeros, List.foldl_reverse]
    calc (Nat.digits radix n).foldr (fun d n => n * radix + d) 0
        = (Nat.digits radix n).foldr (fun d n => d + radix * n) 0 := by
          congr 1
          funext d n
          rw [Nat.mul_comm, Nat.add_comm]
      _ = Nat.ofDigits radix (Nat.digits radix n) := (Nat.ofDigits_eq_foldr radix _).symm
      _ = n := Nat.ofDigits_digits radix n

/-- What holds of every digit holds of every character that is printed. -/
theorem forall_mem_print {radix : ℕ} (h_radix : 1 < radix) (h_radix' : radix ≤ 36)
    {p : Char → Prop} (h : ∀ d < 36, p (digitChar d)) (width n : ℕ) :
    ∀ c ∈ print radix width n, p c := by
  obtain ⟨ds, h_print, -, h_ds, -⟩ := print_spec h_radix width n
  intro c h_c
  rw [h_print] at h_c
  obtain ⟨d, h_d, rfl⟩ := List.mem_map.mp h_c
  exact h d (lt_of_lt_of_le (h_ds d h_d) h_radix')

theorem print_ne_nil {radix : ℕ} (h_radix : 1 < radix) (width n : ℕ) :
    print radix width n ≠ [] := by
  obtain ⟨ds, h_print, h_ne, -⟩ := print_spec h_radix width n
  rw [h_print]
  exact mt List.map_eq_nil_iff.mp h_ne

theorem le_length_print (radix width n : ℕ) : width ≤ (print radix width n).length := by
  rw [print, List.leftpad, List.length_append, List.length_replicate]
  omega

/-- A number that fits the width is printed with it. -/
theorem length_print {radix width n : ℕ} (h_radix : 1 < radix) (h_width : 0 < width)
    (h : n < radix ^ width) : (print radix width n).length = width := by
  have h_digits := (Nat.digits_length_le_iff h_radix n).mpr h
  rw [print, List.leftpad, List.length_append, List.length_replicate, List.length_map,
    List.length_reverse]
  omega

/-! ### Reading -/

theorem le_foldl {radix : ℕ} (h_radix : 0 < radix) (n : ℕ) (ds : List ℕ) :
    n ≤ ds.foldl (fun n d => n * radix + d) n := by
  induction ds generalizing n with
  | nil => exact le_refl n
  | cons d ds ih =>
    calc n ≤ n * radix := Nat.le_mul_of_pos_right n h_radix
      _ ≤ n * radix + d := Nat.le_add_right ..
      _ ≤ _ := ih _

/-- **Reading digits.** No partial result is above the whole one. -/
theorem readDigits_map {radix bound : ℕ} (h_radix : radix ≤ 36) (n : ℕ) {ds : List ℕ}
    (h_ds : ∀ d ∈ ds, d < radix) (h : ds.foldl (fun n d => n * radix + d) n < bound) :
    readDigits radix bound n (ds.map digitChar)
      = .ok (ds.foldl (fun n d => n * radix + d) n) := by
  -- on the digits still to come; the bound holds of what was read because it holds of the whole
  induction ds generalizing n with
  | nil => rfl
  | cons d ds ih =>
    have h_d := h_ds d (List.mem_cons_self ..)
    have h_lt : n * radix + d < bound :=
      lt_of_le_of_lt (le_foldl (Nat.zero_lt_of_lt h_d) _ ds) h
    rw [List.map_cons, readDigits, digitValue_digitChar h_radix h_d]
    simp only [if_pos h_lt]
    exact ih _ (fun d' h_d' => h_ds d' (List.mem_cons_of_mem _ h_d')) h

/-- What is read stays below the bound. -/
theorem readDigits_lt {radix bound n m : ℕ} {cs : List Char} (h_n : n < bound)
    (h : readDigits radix bound n cs = .ok m) : m < bound := by
  induction cs generalizing n with
  | nil =>
    cases h
    exact h_n
  | cons c cs ih =>
    rw [readDigits] at h
    split at h
    · cases h
    · split at h
      · next h_lt => exact ih h_lt h
      · cases h

theorem fromStrRadix_lt {radix bound m : ℕ} {cs : List Char} (h_bound : 0 < bound)
    (h : fromStrRadix radix bound cs = .ok m) : m < bound := by
  unfold fromStrRadix at h
  split at h
  · cases h
  · cases h
  · cases h
  · exact readDigits_lt h_bound h
  · exact readDigits_lt h_bound h

/-- **Round trip.** A printed number below the bound is read back. -/
theorem fromStrRadix_print {radix bound n : ℕ} (h_radix : 1 < radix) (h_radix' : radix ≤ 36)
    (width : ℕ) (h : n < bound) : fromStrRadix radix bound (print radix width n) = .ok n := by
  obtain ⟨ds, h_print, h_ne, h_ds, h_value⟩ := print_spec h_radix width n
  have h_read : readDigits radix bound 0 (ds.map digitChar) = .ok n := by
    rw [← h_value] at h ⊢
    exact readDigits_map h_radix' 0 h_ds h
  obtain ⟨d, ds, rfl⟩ := List.exists_cons_of_ne_nil h_ne
  have h_sign := digitChar_ne_sign d (lt_of_lt_of_le (h_ds d (List.mem_cons_self ..)) h_radix')
  rw [h_print, ← h_read, List.map_cons]
  -- the first digit is no sign, so all characters are read as digits
  unfold fromStrRadix
  split <;> simp_all

/-! ### Pairs of characters -/

theorem digitValue_lt {radix d : ℕ} {c : Char} (h : digitValue radix c = some d) : d < radix := by
  simp only [digitValue, Option.ite_none_right_eq_some, Option.some.injEq] at h
  obtain ⟨h_lt, rfl⟩ := h
  exact h_lt

/-- Two digits are a number below the bound. -/
theorem readDigits_pair {radix bound n : ℕ} (h_bound : radix * radix ≤ bound) (a b : Char) :
    readDigits radix bound 0 [a, b] = .ok n ↔ ∃ high low, digitValue radix a = some high ∧
      digitValue radix b = some low ∧ n = high * radix + low := by
  cases h_a : digitValue radix a with
  | none => simp [readDigits, h_a]
  | some high =>
    cases h_b : digitValue radix b with
    | none =>
      simp only [readDigits, h_a, h_b]
      split <;> simp
    | some low =>
      have h_low := digitValue_lt h_b
      -- two digits fit below the square of the radix, and so does the first alone
      have h_fits : high * radix + low < bound := calc
        high * radix + low < (high + 1) * radix := by
          rw [Nat.succ_mul]
          exact Nat.add_lt_add_left h_low _
        _ ≤ radix * radix := Nat.mul_le_mul_right radix (digitValue_lt h_a)
        _ ≤ bound := h_bound
      have h_first : high < bound := calc
        high ≤ high * radix := Nat.le_mul_of_pos_right high (Nat.zero_lt_of_lt h_low)
        _ ≤ high * radix + low := Nat.le_add_right ..
        _ < bound := h_fits
      simp [readDigits, h_a, h_b, h_fits, h_first, eq_comm]

/-- **A number of two characters** is one of two digits, or of a plus sign and a digit. -/
theorem fromStrRadix_pair {radix bound n : ℕ} (h_bound : radix * radix ≤ bound) (a b : Char) :
    fromStrRadix radix bound [a, b] = .ok n ↔ ∃ low, digitValue radix b = some low ∧
      (a = '+' ∧ n = low ∨ ∃ high, digitValue radix a = some high ∧ n = high * radix + low) := by
  by_cases h_sign : a = '+'
  · subst h_sign
    -- a plus sign is no digit: it is skipped, and the other digit is read alone
    have h_none : digitValue radix '+' = none := if_neg (Nat.lt_irrefl radix)
    have h_read : fromStrRadix radix bound ['+', b] = readDigits radix bound 0 [b] := rfl
    rw [h_read, readDigits]
    cases h_b : digitValue radix b with
    | none => simp
    | some low =>
      have h_low := digitValue_lt h_b
      have h_fits : low < bound := calc
        low ≤ low * radix := Nat.le_mul_of_pos_right low (Nat.zero_lt_of_lt h_low)
        _ < radix * radix := Nat.mul_lt_mul_of_pos_right h_low (Nat.zero_lt_of_lt h_low)
        _ ≤ bound := h_bound
      simp [readDigits, h_none, h_fits, eq_comm]
  · -- without a sign, both are digits
    have h_read : fromStrRadix radix bound [a, b] = readDigits radix bound 0 [a, b] := by
      unfold fromStrRadix
      split <;> simp_all
    rw [h_read, readDigits_pair h_bound]
    simp only [h_sign, false_and, false_or]
    constructor
    · rintro ⟨high, low, h_a, h_b, h_n⟩
      exact ⟨low, h_b, high, h_a, h_n⟩
    · rintro ⟨low, h_b, high, h_a, h_n⟩
      exact ⟨high, low, h_a, h_b, h_n⟩

/-- A single character that is read is a digit. -/
theorem exists_digitValue_of_single {radix bound n : ℕ} {c : Char}
    (h : fromStrRadix radix bound [c] = .ok n) : ∃ d, digitValue radix c = some d := by
  by_cases h_sign : c = '+' ∨ c = '-'
  · rcases h_sign with rfl | rfl <;> cases h
  · have h_read : fromStrRadix radix bound [c] = readDigits radix bound 0 [c] := by
      unfold fromStrRadix
      split <;> simp_all
    rw [h_read, readDigits] at h
    cases h_c : digitValue radix c with
    | none =>
      rw [h_c] at h
      cases h
    | some d => exact ⟨d, rfl⟩

/-! ### Hexadecimal digits -/

/-- A hexadecimal digit. -/
def IsHexDigit (c : Char) : Prop :=
  ('0' ≤ c ∧ c ≤ '9') ∨ ('A' ≤ c ∧ c ≤ 'F') ∨ ('a' ≤ c ∧ c ≤ 'f')

instance (c : Char) : Decidable (IsHexDigit c) := inferInstanceAs (Decidable (_ ∨ _))

theorem isHexDigit_iff_toNat {c : Char} : IsHexDigit c ↔ (48 ≤ c.toNat ∧ c.toNat ≤ 57) ∨
    (65 ≤ c.toNat ∧ c.toNat ≤ 70) ∨ (97 ≤ c.toNat ∧ c.toNat ≤ 102) := by
  have h_le : ∀ a b : Char, a ≤ b ↔ a.toNat ≤ b.toNat := fun _ _ => UInt32.le_iff_toNat_le
  simp only [IsHexDigit, h_le, Char.reduceToNat]

/-- The digits of the radix `16`. -/
theorem exists_digitValue_iff {c : Char} : (∃ d, digitValue 16 c = some d) ↔ IsHexDigit c := by
  simp only [isHexDigit_iff_toNat, digitValue, Option.ite_none_right_eq_some, Option.some.injEq,
    exists_and_left, exists_eq', and_true]
  split_ifs <;> omega

/-- A hexadecimal digit takes one byte. -/
theorem IsHexDigit.utf8Size {c : Char} (h : IsHexDigit c) : c.utf8Size = 1 := by
  rw [isHexDigit_iff_toNat] at h
  have h_ascii : c.toNat ≤ 127 := by omega
  exact Char.utf8Size_eq_one_iff.mpr (UInt32.le_iff_toNat_le.mpr h_ascii)

end Numeral
