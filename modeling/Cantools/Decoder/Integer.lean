import Cantools.Decoder.Extract
import Cantools.Framework.BitField

/-!
# The integer in a signal

What the two bit walks of `extract_raw` compute: a field of the payload, read as one number.
A little-endian signal is a field of the little-endian number, from its start bit on. A
big-endian signal is a field of the big-endian number, and its first position is the top of the
field.

Each walk keeps that what it has put together so far is the part of the field it has passed
(`toNat_littleEndianValue`, `toNat_bigEndianValue`): the little-endian field grows at the top, the
big-endian one at the bottom.

`Extracts` is the contract of `extract_raw`: a value exactly when every bit the signal covers lies
in the payload, and then the integer. For signals of at most `64` bits it is met exactly when the
signal is safe to extract (`extracts_iff`).
-/

namespace Cantools.Decoder

open BitField Program

/-! ### The bits of a signal -/

/-- The bits that a signal covers, one for each of its positions. -/
def Signal.Covers (signal : Signal) (bit : ℕ) : Prop :=
  ∃ i < signal.size.toNat,
    bit = signal.byteOrder.order (signal.byteOrder.order signal.startBit.toNat + i)

/-- A bit lies in a payload when its position does. -/
theorem ByteOrder.order_lt_iff (o : ByteOrder) (bit n : ℕ) : o.order bit < 8 * n ↔ bit < 8 * n := by
  -- the orders differ inside a byte only
  have h_byte := o.order_div bit
  omega

/-- Whether the last position is in the payload decides about all bits. -/
theorem Signal.liesIn_iff {signal : Signal} (h_size : 1 ≤ signal.size.toNat) (n : ℕ) :
    signal.LiesIn n ↔ ∀ bit, signal.Covers bit → bit < 8 * n := by
  unfold Signal.LiesIn Signal.lastPosition
  constructor
  · rintro h_last bit ⟨i, h_i, rfl⟩
    rw [ByteOrder.order_lt_iff]
    omega
  · intro h_all
    have h_bit := h_all _ ⟨signal.size.toNat - 1, by omega, rfl⟩
    rwa [ByteOrder.order_lt_iff] at h_bit

/-! ### The value of a walk -/

/-- The integer in a signal. -/
def Signal.integer (signal : Signal) (payload : List UInt8) : ℕ :=
  match signal.byteOrder with
  | .littleEndian =>
    (littleEndian payload >>> signal.startBit.toNat) % 2 ^ signal.size.toNat
  | .bigEndian =>
    (bigEndian payload >>>
      (8 * payload.length - linear signal.startBit.toNat - signal.size.toNat))
        % 2 ^ signal.size.toNat

theorem Signal.integer_lt (signal : Signal) (payload : List UInt8) :
    signal.integer payload < 2 ^ signal.size.toNat := by
  unfold Signal.integer
  cases signal.byteOrder <;> exact Nat.mod_lt _ (Nat.two_pow_pos _)

section Walk

variable {payload : List UInt8}

theorem toNat_bitValue (payload : List UInt8) (bit : ℕ) :
    (bitValue payload bit).toNat
      = ((payload[bit / 8]?.getD 0).toNat.testBit (bit % 8)).toNat := by
  have h_bit : (bit % 8).toUInt8.toNat % 8 = bit % 8 := by
    rw [Nat.toUInt8_eq, UInt8.toNat_ofNat']
    omega
  rw [bitValue, UInt8.toNat_toUInt64, UInt8.toNat_and, UInt8.toNat_shiftRight, h_bit,
    Nat.toNat_testBit, Nat.shiftRight_eq_div_pow]
  exact Nat.and_two_pow_sub_one_eq_mod _ 1

/-- A bit is the bit of the little-endian number at its index. -/
theorem toNat_bitValue_littleEndian (payload : List UInt8) (bit : ℕ) :
    (bitValue payload bit).toNat = ((littleEndian payload).testBit bit).toNat := by
  rw [toNat_bitValue, testBit_littleEndian]

/-- The bit at a position is that of the big-endian number, counted from the top. -/
theorem toNat_bitValue_linear {p : ℕ} (h : p < 8 * payload.length) :
    (bitValue payload (linear p)).toNat
      = ((bigEndian payload).testBit (8 * payload.length - 1 - p)).toNat := by
  have h_mod : linear p % 8 = 7 - p % 8 := by
    unfold linear
    omega
  rw [toNat_bitValue, testBit_bigEndian h, linear_div, h_mod]

/-- A bit put on top of a number of `k` bits. -/
theorem toNat_or_shiftLeft {value bit : UInt64} {b : Bool} {k : ℕ} (h_k : k < 64)
    (h_value : value.toNat < 2 ^ k) (h_bit : bit.toNat = b.toNat) :
    (value ||| (bit <<< (k % 64).toUInt64)).toNat = value.toNat + 2 ^ k * b.toNat := by
  have h_shift : (k % 64).toUInt64.toNat % 64 = k := by
    rw [Nat.toUInt64_eq, UInt64.toNat_ofNat']
    omega
  -- the new bit is below bit `64`, so the shift loses nothing
  have h_pow : 2 ^ k * b.toNat < 2 ^ 64 := by
    calc 2 ^ k * b.toNat
        ≤ 2 ^ k * 1 := Nat.mul_le_mul_left _ (Bool.toNat_le b)
      _ < 2 ^ 64 := by
        rw [Nat.mul_one]
        exact Nat.pow_lt_pow_right (by decide) h_k
  have h_high : (bit <<< (k % 64).toUInt64).toNat = 2 ^ k * b.toNat := by
    rw [UInt64.toNat_shiftLeft, h_shift, h_bit, Nat.shiftLeft_eq, Nat.mul_comm,
      Nat.mod_eq_of_lt h_pow]
  rw [UInt64.toNat_or, h_high, Nat.or_comm, ← Nat.two_pow_add_eq_or_of_lt h_value, Nat.add_comm]

/-- A number moved up by one bit, with a bit put below it. -/
theorem toNat_shiftLeft_or {value bit : UInt64} {b : Bool} (h_value : value.toNat < 2 ^ 63)
    (h_bit : bit.toNat = b.toNat) :
    ((value <<< 1) ||| bit).toNat = 2 * value.toNat + b.toNat := by
  have h_low : b.toNat < 2 ^ 1 := Nat.lt_succ_of_le (Bool.toNat_le b)
  have h_high : (value <<< 1).toNat = 2 ^ 1 * value.toNat := by
    have h_one : (1 : UInt64).toNat % 64 = 1 := rfl
    rw [UInt64.toNat_shiftLeft, h_one, Nat.shiftLeft_eq, Nat.mul_comm]
    omega
  rw [UInt64.toNat_or, h_high, h_bit, ← Nat.two_pow_add_eq_or_of_lt h_low, Nat.pow_one]

/-- **The little-endian walk.** With the low `offset` bits of the field passed, `k` more bits make
the field of `offset + k` bits. -/
theorem toNat_littleEndianValue {start k offset : ℕ} {value : UInt64} (h_size : offset + k ≤ 64)
    (h_value : value.toNat = field (littleEndian payload) start offset) :
    (littleEndianValue payload start k offset value).toNat
      = field (littleEndian payload) start (offset + k) := by
  -- on the bits still to come, from any value that is the field passed so far
  induction k generalizing offset value with
  | zero => exact h_value
  | succ k ih =>
    have h_step : (value ||| (bitValue payload (start + offset) <<< (offset % 64).toUInt64)).toNat
        = field (littleEndian payload) start (offset + 1) := by
      rw [field_succ_top, ← h_value]
      refine toNat_or_shiftLeft (by omega) ?_ (toNat_bitValue_littleEndian payload _)
      rw [h_value]
      exact field_lt ..
    rw [littleEndianValue, ih (by omega) h_step, Nat.add_right_comm, Nat.add_assoc]

/-- **The big-endian walk.** With the top `n` bits of the field passed, `k` more bits make the
field of `n + k` bits, which starts `k` bits lower. -/
theorem toNat_bigEndianValue {p k n : ℕ} {value : UInt64} (h_size : n + k ≤ 64)
    (h_in : p + k ≤ 8 * payload.length)
    (h_value : value.toNat = field (bigEndian payload) (8 * payload.length - p) n) :
    (bigEndianValue payload k p value).toNat
      = field (bigEndian payload) (8 * payload.length - p - k) (n + k) := by
  -- on the bits still to come; a position counts from the top, a field from the bottom
  induction k generalizing p n value with
  | zero => exact h_value
  | succ k ih =>
    have h_next : 8 * payload.length - (p + 1) + 1 = 8 * payload.length - p := by omega
    have h_bit : (bitValue payload (linear p)).toNat
        = ((bigEndian payload).testBit (8 * payload.length - (p + 1))).toNat := by
      rw [toNat_bitValue_linear (by omega), Nat.sub_sub, Nat.add_comm 1 p]
    -- one of the `64` bits is still to come, so the top bit is free
    have h_lt : value.toNat < 2 ^ 63 := by
      calc value.toNat
          < 2 ^ n := by
            rw [h_value]
            exact field_lt ..
        _ ≤ 2 ^ 63 := Nat.pow_le_pow_right (by decide) (by omega)
    have h_step : ((value <<< 1) ||| bitValue payload (linear p)).toNat
        = field (bigEndian payload) (8 * payload.length - (p + 1)) (n + 1) := by
      rw [toNat_shiftLeft_or h_lt h_bit, field_succ_bottom, h_next, h_value]
    have h_start : 8 * payload.length - (p + 1) - k = 8 * payload.length - p - (k + 1) := by omega
    rw [bigEndianValue, ih (by omega) (by omega) h_step, h_start, Nat.add_right_comm, Nat.add_assoc]

/-- **The raw value** of a signal of at most `64` bits in the payload is its integer. -/
theorem toNat_rawValue {signal : Signal} (h_size : 1 ≤ signal.size.toNat)
    (h_size' : signal.size.toNat ≤ 64) (h_in : signal.LiesIn payload.length) :
    (rawValue payload signal).toNat = signal.integer payload := by
  unfold Signal.LiesIn Signal.lastPosition at h_in
  unfold rawValue Signal.integer
  cases h_order : signal.byteOrder with
  | littleEndian =>
    -- both walks begin with the empty field
    have h_walk : (littleEndianValue payload signal.startBit.toNat signal.size.toNat 0 0).toNat
        = field (littleEndian payload) signal.startBit.toNat (0 + signal.size.toNat) :=
      toNat_littleEndianValue (by omega) (field_zero ..).symm
    rwa [Nat.zero_add] at h_walk
  | bigEndian =>
    rw [h_order, ByteOrder.order] at h_in
    have h_walk : (bigEndianValue payload signal.size.toNat (linear signal.startBit.toNat) 0).toNat
        = field (bigEndian payload)
            (8 * payload.length - linear signal.startBit.toNat - signal.size.toNat)
            (0 + signal.size.toNat) :=
      toNat_bigEndianValue (by omega) (by omega) (field_zero ..).symm
    rwa [Nat.zero_add] at h_walk

end Walk

/-! ### The contract of `extract_raw` -/

/-- **The contract of `extract_raw`.** -/
structure Extracts (checks : Bool) (payload : List UInt8) (signal : Signal) : Prop where
  /-- A value exactly when every covered bit lies in the payload. -/
  ok_iff : (∃ v, extractRaw checks payload signal = .ok v) ↔
    ∀ bit, signal.Covers bit → bit < 8 * payload.length
  /-- The diagnostic otherwise. -/
  tooShort : (∃ bit, signal.Covers bit ∧ 8 * payload.length ≤ bit) →
    ∃ expectedBits, extractRaw checks payload signal
      = .error (.error (.payloadTooShort signal.name expectedBits payload.length))
  /-- The value is the integer in the signal. -/
  value : ∀ v, extractRaw checks payload signal = .ok v → v.toNat = signal.integer payload

/-- **When `extract_raw` meets its contract**: exactly on the signals that are safe to extract. -/
theorem extracts_iff (checks : Bool) (payload : List UInt8) (signal : Signal)
    (h_len : payload.length < 2 ^ 61)
    (h_size : 1 ≤ signal.size.toNat ∧ signal.size.toNat ≤ 64) :
    Extracts checks payload signal ↔ signal.RawSafe checks payload.length := by
  have h_lies := signal.liesIn_iff h_size.1 payload.length
  constructor
  · intro h_extracts
    by_contra h_not_safe
    have h_panic := extractRaw_of_not_safe h_len h_not_safe
    -- a panic is neither a value nor the diagnostic
    by_cases h_all : ∀ bit, signal.Covers bit → bit < 8 * payload.length
    · obtain ⟨v, h_ok⟩ := h_extracts.ok_iff.mpr h_all
      rw [h_panic] at h_ok
      cases h_ok
    · obtain ⟨bit, h_bit⟩ := not_forall.mp h_all
      rw [Classical.not_imp, Nat.not_lt] at h_bit
      obtain ⟨expectedBits, h_error⟩ := h_extracts.tooShort ⟨bit, h_bit⟩
      rw [h_panic] at h_error
      cases h_error
  · intro h_safe
    obtain ⟨h_in, h_out⟩ := extractRaw_of_safe h_len h_safe
    -- the test for the last position decides about all bits
    have h_ok_iff := extractRaw_ok_iff h_len h_safe
    refine ⟨h_ok_iff.trans h_lies, ?_, ?_⟩
    · rintro ⟨bit, h_covers, h_bit⟩
      exact h_out fun h => absurd (h_lies.mp h bit h_covers) (Nat.not_lt.mpr h_bit)
    · intro v h_ok
      have h : signal.LiesIn payload.length := h_ok_iff.mp ⟨v, h_ok⟩
      rw [h_in h] at h_ok
      obtain rfl := Except.ok.inj h_ok
      exact toNat_rawValue h_size.1 h_size.2 h

/-- Twelve big-endian bits across a byte boundary. -/
theorem extracts_iff_bigEndian :
    let signal : Signal :=
      { name := "Torque", multiplexerIndicator := .plain, startBit := 3, size := 12
        byteOrder := .bigEndian, valueType := .unsigned, factor := 1, offset := 0, unit := "" }
    ∃ v, extractRaw true [0x12, 0x34, 0x56] signal = .ok v ∧ v.toNat = 0x234 := by
  intro signal
  have h_safe : signal.RawSafe true 3 :=
    ⟨by decide, fun h => absurd (by decide) h, fun _ h => by cases h⟩
  have h_extracts := (extracts_iff true [0x12, 0x34, 0x56] signal (by decide)
    ⟨by decide, by decide⟩).mpr h_safe
  have h_all := (signal.liesIn_iff (by decide) 3).mp (by decide)
  obtain ⟨v, h_ok⟩ := h_extracts.ok_iff.mpr h_all
  exact ⟨v, h_ok, (h_extracts.value v h_ok).trans (by decide)⟩

/-- Two bits from the last position on: the end of the signal is not representable. With overflow
checks its computation panics, and without them it wraps into the payload. -/
theorem extracts_counterexample :
    let signal : Signal :=
      { name := "Far", multiplexerIndicator := .plain, startBit := 0xffffffffffffffff, size := 2
        byteOrder := .littleEndian, valueType := .unsigned, factor := 1, offset := 0, unit := "" }
    ¬ Extracts true (List.replicate 8 0) signal ∧ ¬ Extracts false (List.replicate 8 0) signal := by
  intro signal
  have h_covers : ∃ bit, signal.Covers bit ∧ 8 * (List.replicate 8 (0 : UInt8)).length ≤ bit :=
    ⟨_, ⟨1, by decide, rfl⟩, by decide⟩
  have h_panic : ∀ checks, extractRaw checks (List.replicate 8 0) signal = .error .panic := by
    intro checks
    -- the last position is not a word, and wraps to bit `0`
    refine extractRaw_of_not_safe (by decide) ?_
    cases checks with
    | false => exact not_or.mpr ⟨by decide, by decide⟩
    | true => exact fun h_safe => absurd h_safe.1 (by decide)
  have h_not : ∀ checks, ¬ Extracts checks (List.replicate 8 0) signal := by
    intro checks h_extracts
    obtain ⟨expectedBits, h_error⟩ := h_extracts.tooShort h_covers
    rw [h_panic] at h_error
    cases h_error
  exact ⟨h_not true, h_not false⟩

end Cantools.Decoder
