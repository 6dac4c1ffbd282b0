import Cantools.Decoder.Decode
import Cantools.Decoder.Integer

/-!
# The number of a signal

`extract_signal` reports the integer in a signal as an `i64`. A signed signal is its
two's-complement number: moving the field to the top of the word and back copies its top bit
(`toInt_signExtend`). An unsigned signal is the integer itself, and here 64 bits are one too many:
an unsigned signal of full width with its top bit set comes out negative, and so does its scaled
value. `extractSignal_number_iff` shows that these are the only signals whose number is lost.
-/

namespace Cantools.Decoder

open BitField Machine Program

/-- The number that a signal in the payload stands for. -/
def Signal.number (signal : Signal) (payload : List UInt8) : ℤ :=
  match signal.valueType with
  | .unsigned => signal.integer payload
  | .signed => twosComplement signal.size.toNat (signal.integer payload)

/-- Its range, by the width and the kind of the signal. -/
theorem Signal.number_range {signal : Signal} (h_size : 1 ≤ signal.size.toNat)
    (payload : List UInt8) :
    (signal.valueType = .unsigned →
        0 ≤ signal.number payload ∧ signal.number payload < 2 ^ signal.size.toNat) ∧
      (signal.valueType = .signed →
        -2 ^ (signal.size.toNat - 1) ≤ signal.number payload ∧
          signal.number payload < 2 ^ (signal.size.toNat - 1)) := by
  have h_lt := signal.integer_lt payload
  constructor
  · intro h_type
    have h_cast : ((signal.integer payload : ℕ) : ℤ) < ((2 ^ signal.size.toNat : ℕ) : ℤ) :=
      Int.ofNat_lt.mpr h_lt
    push_cast at h_cast
    rw [Signal.number, h_type]
    exact ⟨Int.natCast_nonneg _, h_cast⟩
  · intro h_type
    rw [Signal.number, h_type]
    exact twosComplement_range h_size h_lt

/-! ### Reinterpretation and sign extension -/

/-- `as i64` -/
theorem toInt_toInt64 (x : UInt64) : x.toInt64.toInt = twosComplement 64 x.toNat := by
  calc x.toInt64.toInt
      = if 2 * x.toNat < 2 ^ 64 then (x.toNat : ℤ) else x.toNat - ((2 ^ 64 : ℕ) : ℤ) :=
        BitVec.toInt_eq_toNat_cond x.toBitVec
    _ = twosComplement 64 x.toNat := by
        unfold twosComplement
        push_cast
        rfl

/-- An arithmetic shift to the right divides, and rounds down. -/
theorem toInt_shiftRight {x : Int64} {n : ℕ} (h : n < 64) :
    (x >>> (n % 64).toUInt64.toInt64).toInt = x.toInt / 2 ^ n := by
  -- the amount goes through two word types on its way
  have h_shift : ∀ n < 64, ((n % 64).toUInt64.toInt64.toBitVec.smod 64).toNat = n := by decide
  have h_cast : ((2 ^ n : ℕ) : ℤ) = 2 ^ n := by push_cast; rfl
  calc (x >>> (n % 64).toUInt64.toInt64).toInt
      = (x.toBitVec.sshiftRight ((n % 64).toUInt64.toInt64.toBitVec.smod 64).toNat).toInt := rfl
    _ = x.toInt >>> n := by
        rw [h_shift n h]
        exact BitVec.toInt_sshiftRight
    _ = x.toInt / 2 ^ n := by rw [Int.shiftRight_eq_div_pow, h_cast]

/-- **Sign extension** of `n` bits. -/
theorem toInt_signExtend (checks : Bool) (raw : UInt64) {n : ℕ} (h_n : 1 ≤ n) (h_n' : n ≤ 64)
    (h : raw.toNat < 2 ^ n) :
    ∃ value, signExtend checks raw n = .ok value ∧ value.toInt = twosComplement n raw.toNat := by
  -- neither the subtraction nor the shifts fault, as the width is from `1` to `64`
  have h_lt : 64 - n < 64 := by omega
  have h_sub : (subU32 checks 64 n : Run DiagnosticError ℕ) = .ok (64 - n) := if_pos h_n'
  have h_sar : ∀ x : Int64, (sar checks x (64 - n) : Run DiagnosticError Int64)
      = .ok (x >>> ((64 - n) % 64).toUInt64.toInt64) := by
    intro x
    rw [sar, if_neg]
    simp [Nat.not_le.mpr h_lt]
  refine ⟨(raw <<< ((64 - n) % 64).toUInt64).toInt64 >>> ((64 - n) % 64).toUInt64.toInt64, ?_, ?_⟩
  · rw [signExtend, h_sub, ok_bind, shl_of_lt raw h_lt, ok_bind, h_sar]
  · -- the field at the top of the word: nothing is shifted out
    have h_word : raw.toNat * 2 ^ (64 - n) < 2 ^ 64 := by
      calc raw.toNat * 2 ^ (64 - n)
          < 2 ^ n * 2 ^ (64 - n) := Nat.mul_lt_mul_of_pos_right h (Nat.two_pow_pos _)
        _ = 2 ^ 64 := by rw [← pow_add, Nat.add_sub_cancel' h_n']
    have h_shift : ((64 - n) % 64).toUInt64.toNat % 64 = 64 - n := by
      rw [Nat.toUInt64_eq, UInt64.toNat_ofNat']
      omega
    have h_top : (raw <<< ((64 - n) % 64).toUInt64).toNat = raw.toNat * 2 ^ (64 - n) := by
      rw [UInt64.toNat_shiftLeft, h_shift, Nat.shiftLeft_eq, Nat.mod_eq_of_lt h_word]
    have h_pow : (2 : ℤ) ^ (64 - n) ≠ 0 := pow_ne_zero _ (by decide)
    calc ((raw <<< ((64 - n) % 64).toUInt64).toInt64 >>> ((64 - n) % 64).toUInt64.toInt64).toInt
        = twosComplement 64 (raw.toNat * 2 ^ (64 - n)) / 2 ^ (64 - n) := by
          rw [toInt_shiftRight h_lt, toInt_toInt64, h_top]
      _ = twosComplement (n + (64 - n)) (raw.toNat * 2 ^ (64 - n)) / 2 ^ (64 - n) := by
          rw [Nat.add_sub_cancel' h_n']
      _ = twosComplement n raw.toNat := by
          rw [twosComplement_mul, Int.mul_ediv_cancel _ h_pow]

/-! ### The reported number -/

/-- The decoded signal reports the number, which has its range, and scaling and the display text
go by the reported number. -/
structure Reports (database : LoadedDbc) (messageId : MessageId) (signal : Signal)
    (payload : List UInt8) (decoded : DecodedSignal) : Prop where
  raw : decoded.raw.toInt = signal.number payload
  unsigned : signal.valueType = .unsigned →
    0 ≤ decoded.raw.toInt ∧ decoded.raw.toInt < 2 ^ signal.size.toNat
  signed : signal.valueType = .signed →
    -2 ^ (signal.size.toNat - 1) ≤ decoded.raw.toInt ∧
      decoded.raw.toInt < 2 ^ (signal.size.toNat - 1)
  scaled : decoded.scaled = decoded.raw.toFloat * signal.factor + signal.offset
  enumText : decoded.enumText =
    (database.dbc.valueDescriptionsForSignal messageId signal.name).bind fun descriptions =>
      (descriptions.find? (·.id = decoded.raw)).map (·.description)

section Report

variable {signal : Signal} {payload : List UInt8}

/-- The decoded signal of a raw value with this sign-extended or reinterpreted word. -/
def decodedSignal (database : LoadedDbc) (messageId : MessageId) (signal : Signal)
    (signed : Int64) : DecodedSignal where
  name := signal.name
  raw := signed
  scaled := signed.toFloat * signal.factor + signal.offset
  unit := if signal.unit.isEmpty then none else some signal.unit
  enumText := (database.dbc.valueDescriptionsForSignal messageId signal.name).bind
    fun descriptions => (descriptions.find? (·.id = signed)).map (·.description)

/-- **What `extract_signal` returns** for a signal of at most `64` bits in the payload. -/
theorem extractSignal_of_liesIn (checks : Bool) (database : LoadedDbc) (messageId : MessageId)
    (h_len : payload.length < 2 ^ 61)
    (h_size : 1 ≤ signal.size.toNat ∧ signal.size.toNat ≤ 64)
    (h_in : signal.LiesIn payload.length) :
    ∃ value : Int64, extractSignal checks database messageId signal payload
        = .ok (decodedSignal database messageId signal value) ∧
      value.toInt =
        if signal.valueType = .signed then
          twosComplement signal.size.toNat (signal.integer payload)
        else twosComplement 64 (signal.integer payload) := by
  have h_raw : extractRaw checks payload signal = .ok (rawValue payload signal) :=
    extractRaw_of_liesIn h_len h_in fun _ _ => h_size.2
  have h_nat := toNat_rawValue h_size.1 h_size.2 h_in
  -- a signed signal is extended from its width, any other is read as a whole word
  by_cases h_type : signal.valueType = .signed
  · have h_width : signal.size.toNat % 2 ^ 32 = signal.size.toNat := by omega
    obtain ⟨value, h_sign, h_value⟩ := toInt_signExtend checks (rawValue payload signal)
      h_size.1 h_size.2 (by rw [h_nat]; exact signal.integer_lt payload)
    refine ⟨value, ?_, ?_⟩
    · rw [extractSignal, h_raw, ok_bind, if_pos h_type, h_width, h_sign]
      rfl
    · rw [if_pos h_type, h_value, h_nat]
  · refine ⟨(rawValue payload signal).toInt64, ?_, ?_⟩
    · rw [extractSignal, h_raw, ok_bind, if_neg h_type]
      rfl
    · rw [if_neg h_type, toInt_toInt64, h_nat]

/-- **When the number is reported**: unless the signal is unsigned, has all `64` bits and its top
bit set. -/
theorem extractSignal_number_iff (checks : Bool) (database : LoadedDbc) (messageId : MessageId)
    (signal : Signal) (payload : List UInt8) (h_len : payload.length < 2 ^ 61)
    (h_size : 1 ≤ signal.size.toNat ∧ signal.size.toNat ≤ 64)
    (h_in : ∀ bit, signal.Covers bit → bit < 8 * payload.length) :
    (∃ decoded, extractSignal checks database messageId signal payload = .ok decoded ∧
        Reports database messageId signal payload decoded) ↔
      ¬ (signal.valueType = .unsigned ∧ signal.size.toNat = 64 ∧
        2 ^ 63 ≤ signal.integer payload) := by
  obtain ⟨value, h_ok, h_value⟩ := extractSignal_of_liesIn checks database messageId h_len h_size
    ((signal.liesIn_iff h_size.1 _).mpr h_in)
  have h_lt := signal.integer_lt payload
  have h_range := signal.number_range h_size.1 payload
  constructor
  · rintro ⟨decoded, h_ok', h_reports⟩ ⟨h_type, h_width, h_top⟩
    rw [h_ok] at h_ok'
    obtain rfl := Except.ok.inj h_ok'
    -- the reported number is negative
    have h_nonneg : 0 ≤ value.toInt := (h_reports.unsigned h_type).1
    have h_signed : signal.valueType ≠ .signed := by
      rw [h_type]
      decide
    have h_neg : ¬ 2 * signal.integer payload < 2 ^ 64 := by omega
    rw [h_width] at h_lt
    rw [if_neg h_signed, twosComplement, if_neg h_neg] at h_value
    omega
  · intro h_not
    have h_number : value.toInt = signal.number payload := by
      rw [h_value, Signal.number]
      cases h_type : signal.valueType with
      | signed => rfl
      | unsigned =>
        -- a narrower field is below the sign bit, and one of full width must be
        have h_small : 2 * signal.integer payload < 2 ^ 64 := by
          by_contra h_large
          have h_width : signal.size.toNat = 64 := by
            by_contra h_width
            have h_pow : 2 ^ signal.size.toNat ≤ 2 ^ 63 :=
              Nat.pow_le_pow_right (by decide) (by omega)
            omega
          exact h_not ⟨h_type, h_width, by omega⟩
        rw [if_neg (by decide), twosComplement, if_pos h_small]
    refine ⟨_, h_ok, h_number, ?_, ?_, rfl, rfl⟩
    · intro h_type
      rw [decodedSignal, h_number]
      exact h_range.1 h_type
    · intro h_type
      rw [decodedSignal, h_number]
      exact h_range.2 h_type

end Report

/-- A signed signal of `16` bits with the number `-2`. -/
theorem extractSignal_number_signed :
    let signal : Signal :=
      { name := "Temp", multiplexerIndicator := .plain, startBit := 0, size := 16
        byteOrder := .littleEndian, valueType := .signed, factor := 1, offset := -40, unit := "C" }
    let database : LoadedDbc :=
      { name := "vehicle.dbc"
        dbc := { messages := []
                 messageMultiplexorSwitch := fun _ => .ok none
                 valueDescriptionsForSignal := fun _ _ => none } }
    ∃ decoded, extractSignal true database ⟨291⟩ signal [0xfe, 0xff] = .ok decoded ∧
      decoded.raw.toInt = -2 := by
  intro signal database
  have h_all := (signal.liesIn_iff (by decide) 2).mp (by decide)
  obtain ⟨decoded, h_ok, h_reports⟩ := (extractSignal_number_iff true database ⟨291⟩ signal
    [0xfe, 0xff] (by decide) ⟨by decide, by decide⟩ h_all).mpr fun h => absurd h.2.1 (by decide)
  exact ⟨decoded, h_ok, h_reports.raw.trans (by decide)⟩

/-- An unsigned signal of `64` set bits is reported as `-1`. -/
theorem extractSignal_number_counterexample :
    let signal : Signal :=
      { name := "Counter", multiplexerIndicator := .plain, startBit := 0, size := 64
        byteOrder := .littleEndian, valueType := .unsigned, factor := 1, offset := 0, unit := "" }
    let database : LoadedDbc :=
      { name := "vehicle.dbc"
        dbc := { messages := []
                 messageMultiplexorSwitch := fun _ => .ok none
                 valueDescriptionsForSignal := fun _ _ => none } }
    (∀ bit, signal.Covers bit → bit < 8 * (List.replicate 8 (0xff : UInt8)).length) ∧
      ∀ checks, ¬ ∃ decoded,
        extractSignal checks database ⟨291⟩ signal (List.replicate 8 0xff) = .ok decoded ∧
          Reports database ⟨291⟩ signal (List.replicate 8 0xff) decoded := by
  intro signal database
  refine ⟨(signal.liesIn_iff (by decide) 8).mp (by decide), fun checks => ?_⟩
  rintro ⟨decoded, h_ok, h_reports⟩
  have h_in : signal.LiesIn (List.replicate 8 (0xff : UInt8)).length := by decide
  obtain ⟨value, h_value, h_int⟩ :=
    extractSignal_of_liesIn checks database ⟨291⟩ (by decide) ⟨by decide, by decide⟩ h_in
  rw [h_value] at h_ok
  obtain rfl := Except.ok.inj h_ok
  -- the report asks for a number that is not negative
  have h_nonneg : 0 ≤ value.toInt := (h_reports.unsigned rfl).1
  have h_minus : value.toInt = -1 := h_int.trans (by decide)
  omega

end Cantools.Decoder
