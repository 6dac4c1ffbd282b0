import Mathlib.Data.Nat.Bitwise
import Cantools.Framework.LittleEndian

/-!
# Bit fields of a byte string

A byte string is a number in two ways: its first byte may be the least significant one
(`littleEndian`) or the most significant one (`bigEndian`). Bit `i` of the first number is bit
`i % 8` of byte `i / 8`; in the second number the bits are counted from the other end
(`testBit_littleEndian`, `testBit_bigEndian`).

`field x start n` is the number made of the `n` bits of `x` from bit `start` on. A loop that puts
a field together bit by bit lets it grow at the top (`field_succ_top`) or at the bottom
(`field_succ_bottom`), and two fields that meet make up one (`field_add`). Read as a
two's-complement number, a field of `n` bits is `twosComplement n` of it. In a machine word, a
shift and a mask cut a field out (`toNat_shiftRight_and_mask`, and `toNat_shiftRight_and_ones`
where the mask starts at the lowest bit).
-/

namespace BitField

/-! ### Fields of a number -/

/-- The `n` bits of `x` from bit `start` on. -/
def field (x start n : ℕ) : ℕ := (x >>> start) % 2 ^ n

theorem field_lt (x start n : ℕ) : field x start n < 2 ^ n :=
  Nat.mod_lt _ (Nat.two_pow_pos n)

theorem field_zero (x start : ℕ) : field x start 0 = 0 := Nat.mod_one _

/-- Two fields that meet. -/
theorem field_add (x start m n : ℕ) :
    field x start (m + n) = field x start m + 2 ^ m * field x (start + m) n := by
  have h_shift : (x >>> start) / 2 ^ m = x >>> (start + m) := by
    rw [Nat.shiftRight_add, Nat.shiftRight_eq_div_pow (x >>> start)]
  calc field x start (m + n)
      = (x >>> start) % (2 ^ m * 2 ^ n) := by rw [field, pow_add]
    _ = (x >>> start) % 2 ^ m + 2 ^ m * ((x >>> start) / 2 ^ m % 2 ^ n) := Nat.mod_mul
    _ = field x start m + 2 ^ m * field x (start + m) n := by rw [h_shift, field, field]

theorem field_one (x start : ℕ) : field x start 1 = (x.testBit start).toNat := by
  rw [field, pow_one, Nat.toNat_testBit, Nat.shiftRight_eq_div_pow]

/-- One more bit at the top. -/
theorem field_succ_top (x start n : ℕ) :
    field x start (n + 1) = field x start n + 2 ^ n * (x.testBit (start + n)).toNat := by
  rw [field_add, field_one]

/-- One more bit at the bottom. -/
theorem field_succ_bottom (x start n : ℕ) :
    field x start (n + 1) = 2 * field x (start + 1) n + (x.testBit start).toNat := by
  rw [Nat.add_comm n, field_add, field_one, pow_one, Nat.add_comm]

/-- A number is its field up to its highest bit. -/
theorem field_of_lt {x n : ℕ} (h : x < 2 ^ n) : field x 0 n = x := Nat.mod_eq_of_lt h

/-- Fields of a field. -/
theorem field_field {x start width i n : ℕ} (h : i + n ≤ width) :
    field (field x start width) i n = field x (start + i) n := by
  apply Nat.eq_of_testBit_eq
  intro j
  simp only [field, Nat.testBit_mod_two_pow, Nat.testBit_shiftRight, Nat.add_assoc]
  by_cases h_j : j < n
  · have h_lt : i + j < width := by omega
    simp [h_j, h_lt]
  · simp [h_j]

/-- A field that was moved up is found there. -/
theorem field_shiftLeft (x start n : ℕ) : field (x <<< start) start n = field x 0 n := by
  rw [field, field, Nat.shiftLeft_shiftRight, Nat.shiftRight_zero]

/-- A mask leaves a field where it is. -/
theorem and_mask (x start n : ℕ) : x &&& ((2 ^ n - 1) <<< start) = field x start n <<< start := by
  apply Nat.eq_of_testBit_eq
  intro j
  simp only [field, Nat.testBit_and, Nat.testBit_shiftLeft, Nat.testBit_two_pow_sub_one,
    Nat.testBit_mod_two_pow, Nat.testBit_shiftRight]
  by_cases h_j : start ≤ j
  · rw [Nat.add_sub_cancel' h_j, Bool.and_comm, Bool.and_assoc]
  · simp [h_j]

/-- The two's-complement value of `n` bits. -/
def twosComplement (n v : ℕ) : ℤ := if 2 * v < 2 ^ n then v else v - 2 ^ n

/-- Its range. -/
theorem twosComplement_range {n v : ℕ} (h_n : 1 ≤ n) (h : v < 2 ^ n) :
    -2 ^ (n - 1) ≤ twosComplement n v ∧ twosComplement n v < 2 ^ (n - 1) := by
  -- with the top bit apart, the rest is linear in `2 ^ m`
  obtain ⟨m, rfl⟩ : ∃ m, n = m + 1 := ⟨n - 1, by omega⟩
  have h_pow : (2 : ℕ) ^ (m + 1) = 2 * 2 ^ m := pow_succ' ..
  have h_cast : ((2 ^ m : ℕ) : ℤ) = 2 ^ m := by push_cast; rfl
  have h_cast' : ((2 : ℤ) ^ (m + 1)) = 2 * 2 ^ m := pow_succ' ..
  rw [Nat.add_sub_cancel]
  unfold twosComplement
  rw [h_pow] at h ⊢
  split
  · omega
  · rw [h_cast']
    omega

/-- A field moved up, with zeros below it, stands for a multiple of its value. -/
theorem twosComplement_mul (n s v : ℕ) :
    twosComplement (n + s) (v * 2 ^ s) = twosComplement n v * 2 ^ s := by
  -- the top bit moves with the field
  have h_sign : 2 * (v * 2 ^ s) < 2 ^ (n + s) ↔ 2 * v < 2 ^ n := by
    rw [← Nat.mul_assoc, pow_add]
    exact Nat.mul_lt_mul_right (Nat.two_pow_pos s)
  unfold twosComplement
  by_cases h : 2 * v < 2 ^ n
  · rw [if_pos h, if_pos (h_sign.mpr h)]
    push_cast
    rfl
  · rw [if_neg h, if_neg (mt h_sign.mp h), sub_mul, ← pow_add]
    push_cast
    rfl

/-! ### Fields of a machine word -/

/-- A mask whose ones start at bit `start`. -/
theorem toNat_and_mask {x mask : UInt32} {start n : ℕ}
    (h_mask : mask.toNat = (2 ^ n - 1) <<< start) :
    (x &&& mask).toNat = field x.toNat start n <<< start := by
  rw [UInt32.toNat_and, h_mask, and_mask]

theorem toNat_shiftRight_and_mask {x shift mask : UInt32} {start n : ℕ} (h_shift : shift.toNat < 32)
    (h_mask : mask.toNat = (2 ^ n - 1) <<< start) :
    ((x >>> shift) &&& mask).toNat = field x.toNat (shift.toNat + start) n <<< start := by
  rw [toNat_and_mask h_mask, UInt32.toNat_shiftRight, Nat.mod_eq_of_lt h_shift, field, field,
    Nat.shiftRight_add]

/-- A mask of the low bits. -/
theorem toNat_and_ones {x mask : UInt32} {n : ℕ} (h_mask : mask.toNat = 2 ^ n - 1) :
    (x &&& mask).toNat = field x.toNat 0 n :=
  @toNat_and_mask x mask 0 n h_mask

theorem toNat_shiftRight_and_ones {x shift mask : UInt32} {n : ℕ} (h_shift : shift.toNat < 32)
    (h_mask : mask.toNat = 2 ^ n - 1) :
    ((x >>> shift) &&& mask).toNat = field x.toNat shift.toNat n :=
  @toNat_shiftRight_and_mask x shift mask 0 n h_shift h_mask

/-- A field of at most eight bits is kept when it is narrowed to a byte. -/
theorem toNat_toUInt8 {x : UInt32} {y start n : ℕ} (h : x.toNat = field y start n) (h_n : n ≤ 8) :
    x.toUInt8.toNat = field y start n := by
  have h_lt : field y start n < 2 ^ 8 :=
    Nat.lt_of_lt_of_le (field_lt y start n) (Nat.pow_le_pow_right (by decide) h_n)
  rw [UInt32.toNat_toUInt8, h, Nat.mod_eq_of_lt h_lt]

/-! ### Byte strings as numbers -/

/-- The number whose least significant byte is the first one. -/
def littleEndian (bytes : List UInt8) : ℕ := LittleEndian.value bytes

/-- The number whose most significant byte is the first one. -/
def bigEndian (bytes : List UInt8) : ℕ := LittleEndian.value bytes.reverse

/-- Bit `i` of the number is bit `i % 8` of byte `i / 8`. -/
theorem testBit_littleEndian (bytes : List UInt8) (i : ℕ) :
    (littleEndian bytes).testBit i = (bytes[i / 8]?.getD 0).toNat.testBit (i % 8) := by
  unfold littleEndian
  induction bytes generalizing i with
  | nil => simp [LittleEndian.value]
  | cons b bytes ih =>
    have h_value : LittleEndian.value (b :: bytes)
        = 2 ^ 8 * LittleEndian.value bytes + b.toNat := by
      rw [LittleEndian.value, Nat.add_comm]
      rfl
    rw [h_value, Nat.testBit_two_pow_mul_add _ (UInt8.toNat_lt b)]
    split
    · next h_lt =>
      rw [Nat.div_eq_of_lt h_lt, Nat.mod_eq_of_lt h_lt]
      rfl
    · next h_ge =>
      -- the rest of the bytes, eight bits on
      have h_div : i / 8 = (i - 8) / 8 + 1 := by omega
      have h_mod : i % 8 = (i - 8) % 8 := by omega
      rw [ih, h_div, h_mod, List.getElem?_cons_succ]

/-- Counted from the most significant bit, bit `p` of the number is bit `7 - p % 8` of byte
`p / 8`. -/
theorem testBit_bigEndian {bytes : List UInt8} {p : ℕ} (h : p < 8 * bytes.length) :
    (bigEndian bytes).testBit (8 * bytes.length - 1 - p)
      = (bytes[p / 8]?.getD 0).toNat.testBit (7 - p % 8) := by
  -- the bit counted from below is in the mirrored byte, which is the byte in the reversed string
  have h_byte : (8 * bytes.length - 1 - p) / 8 = bytes.length - 1 - p / 8 := by omega
  have h_bit : (8 * bytes.length - 1 - p) % 8 = 7 - p % 8 := by omega
  have h_mirror : bytes.length - 1 - (bytes.length - 1 - p / 8) = p / 8 := by omega
  have h_lt : bytes.length - 1 - p / 8 < bytes.length := by omega
  calc (bigEndian bytes).testBit (8 * bytes.length - 1 - p)
      = (bytes.reverse[bytes.length - 1 - p / 8]?.getD 0).toNat.testBit (7 - p % 8) := by
        rw [← h_byte, ← h_bit]
        exact testBit_littleEndian bytes.reverse _
    _ = (bytes[p / 8]?.getD 0).toNat.testBit (7 - p % 8) := by
        rw [List.getElem?_reverse h_lt, h_mirror]

end BitField
