import Cantools.Decoder.Database
import Cantools.Framework.Machine

/-!
# Extracting the raw value of a signal

`extract_raw` computes the highest bit of a signal, compares it with the payload and then walks
the bits. Both byte orders walk consecutive *positions*: for little endian a position is the bit
itself, and for big endian the bits of every byte are counted from its most significant one
(`order`). In these terms a signal covers the positions from `order start` to `lastPosition`,
and it lies in the payload when the last of them does (`Signal.LiesIn`).

Positions are `usize` values, and a database may put a signal anywhere: where `lastPosition`
does not fit 64 bits, the bound that `extract_raw` tests is not the one it needs. `RawSafe` is
the exact condition for it to return at all, in both kinds of build (`extractRaw_of_safe`,
`extractRaw_of_not_safe`).

`payload.len() * 8` is a natural number: no 64-bit target has room for a slice of `2 ^ 61`
bytes, which the results assume where it matters.
-/

namespace Cantools.Decoder

open Machine Program

/-- Why a signal has no value. -/
inductive DiagnosticError where
  | payloadTooShort (signal : String) (expectedBits actualBytes : ℕ)
  deriving DecidableEq, Repr

/-! ### The code -/

section Code

variable (checks : Bool)

/-- The bit after `bit` in a big-endian signal. -/
def nextBit (bit : ℕ) : Run DiagnosticError ℕ :=
  if bit % 8 = 0 then add checks bit 15 else .ok (bit - 1)

/-- `k` bits on from `bit` in a big-endian signal. -/
def walkBits : ℕ → ℕ → Run DiagnosticError ℕ
  | 0, bit => .ok bit
  | k + 1, bit => do walkBits k (← nextBit checks bit)

/-- The bit `extract_raw` compares with the payload. -/
def maxSignalBit (signal : Signal) : Run DiagnosticError ℕ :=
  let start := signal.startBit.toNat
  let length := signal.size.toNat
  match signal.byteOrder with
  | .littleEndian => add checks start (length - 1)
  | .bigEndian => walkBits checks (length - 1) start

/-- One bit of the payload. -/
def bitAt (payload : List UInt8) (bit : ℕ) : Run DiagnosticError UInt8 := do
  let byte ← orPanic payload[bit / 8]?
  pure ((byte >>> (bit % 8).toUInt8) &&& 1)

/-- The loop of `extract_little_endian`: `k` more bits from `offset` on. -/
def littleEndianLoop (payload : List UInt8) (start : ℕ) :
    ℕ → ℕ → UInt64 → Run DiagnosticError UInt64
  | 0, _, value => .ok value
  | k + 1, offset, value => do
    -- indexing panics outside the payload; the test before the walk saw one bit only
    let bit ← bitAt payload (← add checks start offset)
    let shifted ← shl checks bit.toUInt64 offset
    littleEndianLoop payload start k (offset + 1) (value ||| shifted)

def extractLittleEndian (payload : List UInt8) (start length : ℕ) :
    Run DiagnosticError UInt64 :=
  littleEndianLoop checks payload start length 0 0

/-- The loop of `extract_big_endian`: `k` more bits from `bit` on. -/
def bigEndianLoop (payload : List UInt8) : ℕ → ℕ → UInt64 → Run DiagnosticError UInt64
  | 0, _, value => .ok value
  | k + 1, bit, value => do
    let value := (value <<< 1) ||| (← bitAt payload bit).toUInt64
    bigEndianLoop payload k (← nextBit checks bit) value

def extractBigEndian (payload : List UInt8) (start length : ℕ) :
    Run DiagnosticError UInt64 :=
  bigEndianLoop checks payload length start 0

/-- The raw value of a signal. -/
def extractRaw (payload : List UInt8) (signal : Signal) : Run DiagnosticError UInt64 := do
  let start := signal.startBit.toNat
  let length := signal.size.toNat
  let maxBit ← maxSignalBit checks signal
  -- only the highest bit is compared with the payload
  if maxBit ≥ payload.length * 8 then
    let expectedBits ← add checks maxBit 1
    .error (.error (.payloadTooShort signal.name expectedBits payload.length))
  else
    match signal.byteOrder with
    | .littleEndian => extractLittleEndian checks payload start length
    | .bigEndian => extractBigEndian checks payload start length

/-- Two's-complement value of the low `width` bits. -/
def signExtend (raw : UInt64) (width : ℕ) : Run DiagnosticError Int64 := do
  let shift ← subU32 checks 64 width
  sar checks (← shl checks raw shift).toInt64 shift

end Code

/-! ### Positions -/

/-- Counting the bits of every byte from its most significant one; its own inverse. -/
def linear (bit : ℕ) : ℕ := 8 * (bit / 8) + (7 - bit % 8)

@[simp] theorem linear_linear (bit : ℕ) : linear (linear bit) = bit := by
  unfold linear
  omega

theorem linear_div (bit : ℕ) : linear bit / 8 = bit / 8 := by
  unfold linear
  omega

theorem linear_lt {bit : ℕ} (h : bit < 2 ^ 64) : linear bit < 2 ^ 64 := by
  unfold linear
  omega

/-- The position of a bit in a byte order, and the bit of a position. -/
def ByteOrder.order : ByteOrder → ℕ → ℕ
  | .littleEndian, bit => bit
  | .bigEndian, bit => linear bit

theorem ByteOrder.order_div (o : ByteOrder) (bit : ℕ) : o.order bit / 8 = bit / 8 := by
  cases o
  · rfl
  · exact linear_div bit

/-- The last position a signal covers; a signal without bits counts as one bit long. -/
def Signal.lastPosition (signal : Signal) : ℕ :=
  signal.byteOrder.order signal.startBit.toNat + (signal.size.toNat - 1)

/-- All bits of the signal lie in a payload of `n` bytes. -/
def Signal.LiesIn (signal : Signal) (n : ℕ) : Prop := signal.lastPosition < 8 * n

instance (signal : Signal) (n : ℕ) : Decidable (signal.LiesIn n) :=
  inferInstanceAs (Decidable (_ < _))

/-- One step of a big-endian walk is the next position. -/
theorem nextBit_linear (checks : Bool) {p : ℕ} (h : p < 2 ^ 64) :
    nextBit checks (linear p) =
      if p + 1 < 2 ^ 64 then .ok (linear (p + 1))
      else if checks then .error .panic
      else .ok (linear 0) := by
  unfold nextBit add linear
  by_cases h_byte : p % 8 = 7
  · -- from the last bit of a byte to the first of the next
    rw [if_pos (by omega)]
    by_cases h_next : p + 1 < 2 ^ 64
    · rw [if_pos h_next, if_pos (by omega)]
      congr 1
      omega
    · rw [if_neg h_next, if_neg (by omega)]
      cases checks
      · rw [if_neg (by decide), if_neg (by decide)]
        congr 1
        omega
      · rfl
  · -- within a byte the position goes down
    rw [if_neg (by omega), if_pos (by omega)]
    congr 1
    omega

/-- A walk that stays below `2 ^ 64`. -/
theorem walkBits_of_lt (checks : Bool) {k p : ℕ} (h : p + k < 2 ^ 64) :
    walkBits checks k (linear p) = .ok (linear (p + k)) := by
  induction k generalizing p with
  | zero => rfl
  | succ k ih =>
    calc walkBits checks (k + 1) (linear p)
        = walkBits checks k (linear (p + 1)) := by
          rw [walkBits, nextBit_linear checks (by omega), if_pos (by omega), ok_bind]
      _ = .ok (linear (p + 1 + k)) := ih (by omega)
      _ = .ok (linear (p + (k + 1))) := by rw [Nat.add_right_comm, Nat.add_assoc]

/-- A walk across `2 ^ 64` panics with overflow checks. -/
theorem walkBits_checked_of_le {k p : ℕ} (h_p : p < 2 ^ 64) (h : 2 ^ 64 ≤ p + k) :
    walkBits true k (linear p) = .error .panic := by
  -- on the steps left: the walk crosses `2 ^ 64` at one of them, and panics there
  induction k generalizing p with
  | zero => omega
  | succ k ih =>
    rw [walkBits, nextBit_linear true h_p]
    by_cases h_next : p + 1 < 2 ^ 64
    · rw [if_pos h_next, ok_bind, ih h_next (by omega)]
    · rw [if_neg h_next]
      rfl

/-- A walk wraps around `2 ^ 64` without them. -/
theorem walkBits_unchecked {k p : ℕ} (h_p : p < 2 ^ 64) :
    walkBits false k (linear p) = .ok (linear ((p + k) % 2 ^ 64)) := by
  -- positions count modulo `2 ^ 64`, and the walk restarts at position `0`
  induction k generalizing p with
  | zero => rw [walkBits, Nat.add_zero, Nat.mod_eq_of_lt h_p]
  | succ k ih =>
    rw [walkBits, nextBit_linear false h_p]
    by_cases h_next : p + 1 < 2 ^ 64
    · rw [if_pos h_next, ok_bind, ih h_next]
      congr 3
      omega
    · rw [if_neg h_next, if_neg (by decide), ok_bind, ih (by decide)]
      congr 2
      omega

/-- **The highest bit.** It is the bit of the last position, where that fits 64 bits. -/
theorem maxSignalBit_of_lt (checks : Bool) {signal : Signal}
    (h : signal.lastPosition < 2 ^ 64) :
    maxSignalBit checks signal = .ok (signal.byteOrder.order signal.lastPosition) := by
  unfold maxSignalBit Signal.lastPosition at *
  cases h_order : signal.byteOrder with
  | littleEndian =>
    rw [h_order] at h
    exact add_of_lt h
  | bigEndian =>
    rw [h_order] at h
    have h_walk := walkBits_of_lt checks h
    rwa [ByteOrder.order, linear_linear] at h_walk

/-- Where the last position does not fit, the sum overflows in both orders. -/
theorem maxSignalBit_checked_of_le {signal : Signal} (h : 2 ^ 64 ≤ signal.lastPosition) :
    maxSignalBit true signal = .error .panic := by
  have h_start := UInt64.toNat_lt signal.startBit
  unfold maxSignalBit Signal.lastPosition at *
  cases h_order : signal.byteOrder with
  | littleEndian =>
    rw [h_order] at h
    exact add_checked_of_le h
  | bigEndian =>
    rw [h_order] at h
    have h_walk := walkBits_checked_of_le (linear_lt h_start) h
    rwa [linear_linear] at h_walk

/-- ... or wraps. -/
theorem maxSignalBit_unchecked (signal : Signal) :
    maxSignalBit false signal
      = .ok (signal.byteOrder.order (signal.lastPosition % 2 ^ 64)) := by
  have h_start := UInt64.toNat_lt signal.startBit
  unfold maxSignalBit Signal.lastPosition
  cases signal.byteOrder with
  | littleEndian => exact add_unchecked ..
  | bigEndian =>
    have h_walk := walkBits_unchecked (k := signal.size.toNat - 1) (linear_lt h_start)
    rwa [linear_linear] at h_walk

/-! ### Walking the bits -/

/-- A bit of the payload as a number; `0` outside. -/
def bitValue (payload : List UInt8) (bit : ℕ) : UInt64 :=
  ((payload[bit / 8]?.getD 0 >>> (bit % 8).toUInt8) &&& 1).toUInt64

/-- The number `extract_little_endian` puts together, bit by bit. -/
def littleEndianValue (payload : List UInt8) (start : ℕ) : ℕ → ℕ → UInt64 → UInt64
  | 0, _, value => value
  | k + 1, offset, value =>
    littleEndianValue payload start k (offset + 1)
      (value ||| (bitValue payload (start + offset) <<< (offset % 64).toUInt64))

/-- The number `extract_big_endian` puts together, from a position on. -/
def bigEndianValue (payload : List UInt8) : ℕ → ℕ → UInt64 → UInt64
  | 0, _, value => value
  | k + 1, position, value =>
    bigEndianValue payload k (position + 1) ((value <<< 1) ||| bitValue payload (linear position))

/-- The raw value of a signal that lies in the payload. -/
def rawValue (payload : List UInt8) (signal : Signal) : UInt64 :=
  match signal.byteOrder with
  | .littleEndian =>
    littleEndianValue payload signal.startBit.toNat signal.size.toNat 0 0
  | .bigEndian => bigEndianValue payload signal.size.toNat (linear signal.startBit.toNat) 0

section Walk

variable {payload : List UInt8}

theorem bitAt_of_lt {bit : ℕ} (h : bit < 8 * payload.length) :
    ∃ b, bitAt payload bit = .ok b ∧ b.toUInt64 = bitValue payload bit := by
  have h_byte : bit / 8 < payload.length := by omega
  refine ⟨_, ?_, rfl⟩
  rw [bitAt, List.getElem?_eq_getElem h_byte]
  rfl

theorem bitAt_of_le {bit : ℕ} (h : 8 * payload.length ≤ bit) :
    bitAt payload bit = .error .panic := by
  rw [bitAt, List.getElem?_eq_none (by omega)]
  rfl

/-- **A little-endian walk inside the payload** returns. With overflow checks no bit may be
shifted by `64` or more. -/
theorem littleEndianLoop_of_le (checks : Bool) {start k offset : ℕ} (value : UInt64)
    (h_len : payload.length < 2 ^ 61) (h_in : start + (offset + k) ≤ 8 * payload.length)
    (h_shift : checks → offset + k ≤ 64) :
    littleEndianLoop checks payload start k offset value
      = .ok (littleEndianValue payload start k offset value) := by
  -- on the bits left; `offset + k` stays the size of the signal
  induction k generalizing offset value with
  | zero => rfl
  | succ k ih =>
    have h_bit_lt : start + offset < 8 * payload.length := by omega
    obtain ⟨b, h_bit, h_b⟩ := bitAt_of_lt h_bit_lt
    -- without checks the shift is reduced modulo `64`, and never fails
    have h_shl : (shl checks b.toUInt64 offset : Run DiagnosticError UInt64)
        = .ok (b.toUInt64 <<< (offset % 64).toUInt64) := by
      cases checks with
      | false => rfl
      | true =>
        have := h_shift rfl
        exact shl_of_lt _ (by omega)
    rw [littleEndianLoop, add_of_lt (by omega), ok_bind, h_bit, ok_bind, h_shl, ok_bind,
      ih _ (by omega) (fun h => by have := h_shift h; omega), littleEndianValue, h_b]

/-- With overflow checks the bit at offset `64` panics. -/
theorem littleEndianLoop_checked {start k offset : ℕ} (value : UInt64)
    (h_len : payload.length < 2 ^ 61) (h_in : start + (offset + k) ≤ 8 * payload.length)
    (h_offset : offset ≤ 64) (h_shift : 64 < offset + k) :
    littleEndianLoop true payload start k offset value = .error .panic := by
  induction k generalizing offset value with
  | zero => omega
  | succ k ih =>
    have h_bit_lt : start + offset < 8 * payload.length := by omega
    obtain ⟨b, h_bit, -⟩ := bitAt_of_lt h_bit_lt
    rw [littleEndianLoop, add_of_lt (by omega), ok_bind, h_bit, ok_bind]
    -- the bits before the one at offset `64` are read, so the loop arrives there
    by_cases h_last : offset = 64
    · rw [shl_checked_of_le _ (by omega)]
      rfl
    · rw [shl_of_lt _ (by omega), ok_bind]
      exact ih _ (by omega) (by omega) (by omega)

/-- A walk that reaches the last of all positions leaves the payload on the way. -/
theorem littleEndianLoop_wraps (checks : Bool) {start k offset : ℕ} (value : UInt64)
    (h_len : payload.length < 2 ^ 61) (h_first : start + offset < 2 ^ 64)
    (h_last : 2 ^ 64 ≤ start + (offset + k)) :
    littleEndianLoop checks payload start k offset value = .error .panic := by
  induction k generalizing offset value with
  | zero => omega
  | succ k ih =>
    rw [littleEndianLoop, add_of_lt h_first, ok_bind]
    -- a bit inside the payload lets the walk go on, one outside ends it
    rcases Nat.lt_or_ge (start + offset) (8 * payload.length) with h_in | h_out
    · obtain ⟨b, h_bit, -⟩ := bitAt_of_lt h_in
      rw [h_bit, ok_bind]
      cases h_shl : (shl checks b.toUInt64 offset : Run DiagnosticError UInt64) with
      | ok shifted => exact ih _ (by omega) (by omega)
      | error fault => rw [shl_error h_shl]; rfl
    · rw [bitAt_of_le h_out]
      rfl

/-- **A big-endian walk inside the payload** returns. -/
theorem bigEndianLoop_of_le (checks : Bool) {k p : ℕ} (value : UInt64)
    (h_len : payload.length < 2 ^ 61) (h_in : p + k ≤ 8 * payload.length) :
    bigEndianLoop checks payload k (linear p) value = .ok (bigEndianValue payload k p value) := by
  -- on the bits left; nothing is shifted by more than one place, so any width is safe
  induction k generalizing p value with
  | zero => rfl
  | succ k ih =>
    have h_bit_lt : linear p < 8 * payload.length := by
      have := linear_div p
      omega
    obtain ⟨b, h_bit, h_b⟩ := bitAt_of_lt h_bit_lt
    rw [bigEndianLoop, h_bit, ok_bind, nextBit_linear checks (by omega), if_pos (by omega),
      ok_bind, ih _ (by omega), bigEndianValue, h_b]

/-- A big-endian walk that reaches the last of all positions leaves the payload on the way. -/
theorem bigEndianLoop_wraps (checks : Bool) {k p : ℕ} (value : UInt64)
    (h_len : payload.length < 2 ^ 61) (h_first : p < 2 ^ 64) (h_last : 2 ^ 64 ≤ p + k) :
    bigEndianLoop checks payload k (linear p) value = .error .panic := by
  induction k generalizing p value with
  | zero => omega
  | succ k ih =>
    rw [bigEndianLoop]
    have h_byte := linear_div p
    -- the last position is far behind the payload, so one of the bits is outside
    rcases Nat.lt_or_ge (linear p) (8 * payload.length) with h_in | h_out
    · obtain ⟨b, h_bit, -⟩ := bitAt_of_lt h_in
      rw [h_bit, ok_bind, nextBit_linear checks h_first, if_pos (by omega), ok_bind]
      exact ih _ (by omega) (by omega)
    · rw [bitAt_of_le h_out]
      rfl

end Walk

/-! ### When extraction returns -/

/-- **Safe extraction** from a payload of `n` bytes. With overflow checks the last position fits
64 bits, a signal outside the payload has a representable length to report, and a little-endian
signal inside it has at most `64` bits. Without checks a last position that does not fit may
only wrap to a place outside the payload. -/
def Signal.RawSafe (checks : Bool) (signal : Signal) (n : ℕ) : Prop :=
  if checks then
    signal.lastPosition < 2 ^ 64 ∧
      (¬ signal.LiesIn n → signal.byteOrder.order signal.lastPosition + 1 < 2 ^ 64) ∧
      (signal.LiesIn n → signal.byteOrder = .littleEndian → signal.size.toNat ≤ 64)
  else signal.lastPosition < 2 ^ 64 ∨ 2 ^ 64 + 8 * n ≤ signal.lastPosition

instance (checks : Bool) (signal : Signal) (n : ℕ) : Decidable (signal.RawSafe checks n) :=
  inferInstanceAs (Decidable (if checks then _ else _))

theorem Signal.lastPosition_lt (signal : Signal) : signal.lastPosition < 2 ^ 64 + 2 ^ 64 := by
  have h_start := UInt64.toNat_lt signal.startBit
  have h_size := UInt64.toNat_lt signal.size
  have h_order : signal.byteOrder.order signal.startBit.toNat < 2 ^ 64 := by
    cases signal.byteOrder
    · exact h_start
    · exact linear_lt h_start
  unfold Signal.lastPosition
  omega

section Extract

variable {checks : Bool} {payload : List UInt8} {signal : Signal}

/-- What `extract_raw` does with the bit it compares. -/
theorem extractRaw_of_maxSignalBit {maxBit : ℕ} (h : maxSignalBit checks signal = .ok maxBit) :
    extractRaw checks payload signal =
      if 8 * payload.length ≤ maxBit then
        add checks maxBit 1 >>= fun expectedBits =>
          .error (.error (.payloadTooShort signal.name expectedBits payload.length))
      else
        match signal.byteOrder with
        | .littleEndian => littleEndianLoop checks payload signal.startBit.toNat
            signal.size.toNat 0 0
        | .bigEndian => bigEndianLoop checks payload signal.size.toNat signal.startBit.toNat 0 := by
  rw [extractRaw, h, Nat.mul_comm]
  rfl

theorem extractRaw_of_liesIn (h_len : payload.length < 2 ^ 61)
    (h_in : signal.LiesIn payload.length)
    (h_size : checks → signal.byteOrder = .littleEndian → signal.size.toNat ≤ 64) :
    extractRaw checks payload signal = .ok (rawValue payload signal) := by
  unfold Signal.LiesIn at h_in
  have h_byte := signal.byteOrder.order_div signal.lastPosition
  rw [extractRaw_of_maxSignalBit (maxSignalBit_of_lt checks (by omega)), if_neg (by omega),
    rawValue]
  unfold Signal.lastPosition at h_in
  -- the test lets the signal through, and each order has its loop
  cases h_order : signal.byteOrder with
  | littleEndian =>
    rw [h_order, ByteOrder.order] at h_in
    refine littleEndianLoop_of_le checks 0 h_len (by omega) (fun h_checks => ?_)
    have := h_size h_checks h_order
    omega
  | bigEndian =>
    rw [h_order, ByteOrder.order] at h_in
    have h_walk := bigEndianLoop_of_le checks (k := signal.size.toNat)
      (p := linear signal.startBit.toNat) 0 h_len (by omega)
    rwa [linear_linear] at h_walk

/-- A walk that starts below `2 ^ 64` and wraps panics, whatever the test allowed. -/
theorem extractRaw_of_wraps (h_len : payload.length < 2 ^ 61) {maxBit : ℕ}
    (h_max : maxSignalBit checks signal = .ok maxBit) (h_test : maxBit < 8 * payload.length)
    (h_wraps : 2 ^ 64 ≤ signal.lastPosition) :
    extractRaw checks payload signal = .error .panic := by
  have h_start := UInt64.toNat_lt signal.startBit
  rw [extractRaw_of_maxSignalBit h_max, if_neg (by omega)]
  unfold Signal.lastPosition at h_wraps
  -- the walk is the unbounded one: it has no test of its own
  cases h_order : signal.byteOrder with
  | littleEndian =>
    rw [h_order, ByteOrder.order] at h_wraps
    exact littleEndianLoop_wraps checks 0 h_len (by omega) (by omega)
  | bigEndian =>
    rw [h_order, ByteOrder.order] at h_wraps
    have h_walk := bigEndianLoop_wraps checks (k := signal.size.toNat) 0 h_len
      (linear_lt h_start) (by omega)
    rwa [linear_linear] at h_walk

/-- **The report** about a safe signal that leaves the payload: a number of 64 bits, which is one
more than the last bit where that fits. -/
theorem extractRaw_of_not_liesIn (h_safe : signal.RawSafe checks payload.length)
    (h_out : ¬ signal.LiesIn payload.length) :
    ∃ bits, extractRaw checks payload signal
        = .error (.error (.payloadTooShort signal.name bits payload.length)) ∧ bits < 2 ^ 64 ∧
      (signal.byteOrder.order signal.lastPosition + 1 < 2 ^ 64 →
        bits = signal.byteOrder.order signal.lastPosition + 1) := by
  have h_order := signal.byteOrder.order_div
  have h_ge : 8 * payload.length ≤ signal.lastPosition := Nat.not_lt.mp h_out
  -- outside the payload the test must say so, with the length it reports representable
  cases checks with
  | true =>
    obtain ⟨h_fits, h_report, -⟩ := h_safe
    have h_byte := h_order signal.lastPosition
    refine ⟨signal.byteOrder.order signal.lastPosition + 1, ?_, h_report h_out, fun _ => rfl⟩
    rw [extractRaw_of_maxSignalBit (maxSignalBit_of_lt true h_fits), if_pos (by omega),
      add_of_lt (h_report h_out)]
    rfl
  | false =>
    have h_byte := h_order (signal.lastPosition % 2 ^ 64)
    -- the last position may have wrapped, but not into the payload
    have h_test : 8 * payload.length ≤ signal.lastPosition % 2 ^ 64 := by
      rcases h_safe with h_fits | h_past
      · rwa [Nat.mod_eq_of_lt h_fits]
      · have h_last := signal.lastPosition_lt
        omega
    refine ⟨(signal.byteOrder.order (signal.lastPosition % 2 ^ 64) + 1) % 2 ^ 64, ?_,
      Nat.mod_lt _ (by decide), fun h_fits => ?_⟩
    · rw [extractRaw_of_maxSignalBit (maxSignalBit_unchecked signal), if_pos (by omega),
        add_unchecked]
      rfl
    · have h_byte' := h_order signal.lastPosition
      have h_last : signal.lastPosition < 2 ^ 64 := by omega
      rw [Nat.mod_eq_of_lt h_last, Nat.mod_eq_of_lt h_fits]

/-- **Safe extraction returns**: the raw value of a signal that lies in the payload, and the
diagnostic of one that does not. -/
theorem extractRaw_of_safe (h_len : payload.length < 2 ^ 61)
    (h_safe : signal.RawSafe checks payload.length) :
    (signal.LiesIn payload.length →
        extractRaw checks payload signal = .ok (rawValue payload signal)) ∧
      (¬ signal.LiesIn payload.length → ∃ bits, extractRaw checks payload signal
        = .error (.error (.payloadTooShort signal.name bits payload.length))) := by
  constructor
  · intro h_in
    refine extractRaw_of_liesIn h_len h_in ?_
    rintro rfl
    exact h_safe.2.2 h_in
  · intro h_out
    obtain ⟨bits, h_error, -⟩ := extractRaw_of_not_liesIn h_safe h_out
    exact ⟨bits, h_error⟩

/-- The signals with a value. -/
theorem extractRaw_ok_iff (h_len : payload.length < 2 ^ 61)
    (h_safe : signal.RawSafe checks payload.length) :
    (∃ v, extractRaw checks payload signal = .ok v) ↔ signal.LiesIn payload.length := by
  obtain ⟨h_in, h_out⟩ := extractRaw_of_safe h_len h_safe
  constructor
  · rintro ⟨v, h_ok⟩
    by_contra h
    obtain ⟨bits, h_error⟩ := h_out h
    rw [h_error] at h_ok
    cases h_ok
  · exact fun h => ⟨_, h_in h⟩

/-- **Unsafe extraction panics**, in both kinds of build. -/
theorem extractRaw_of_not_safe (h_len : payload.length < 2 ^ 61)
    (h_not_safe : ¬ signal.RawSafe checks payload.length) :
    extractRaw checks payload signal = .error .panic := by
  have h_last := signal.lastPosition_lt
  cases checks with
  | true =>
    rcases Nat.lt_or_ge signal.lastPosition (2 ^ 64) with h_fits | h_wraps
    · have h_max := maxSignalBit_of_lt true h_fits
      have h_byte := signal.byteOrder.order_div signal.lastPosition
      by_cases h_in : signal.LiesIn payload.length
      · -- too many bits to shift
        have h_bits : signal.byteOrder = .littleEndian ∧ 64 < signal.size.toNat := by
          by_contra h_not
          refine h_not_safe ⟨h_fits, fun h => absurd h_in h, fun _ h_le => ?_⟩
          by_contra h_size
          exact h_not ⟨h_le, Nat.not_le.mp h_size⟩
        unfold Signal.LiesIn at h_in
        rw [extractRaw_of_maxSignalBit h_max, if_neg (by omega), h_bits.1]
        rw [Signal.lastPosition, h_bits.1, ByteOrder.order] at h_in
        exact littleEndianLoop_checked 0 h_len (by omega) (by omega) (by omega)
      · -- no length to report
        have h_report : ¬ signal.byteOrder.order signal.lastPosition + 1 < 2 ^ 64 :=
          fun h => h_not_safe ⟨h_fits, fun _ => h, fun h' => absurd h' h_in⟩
        unfold Signal.LiesIn at h_in
        rw [extractRaw_of_maxSignalBit h_max, if_pos (by omega),
          add_checked_of_le (Nat.not_lt.mp h_report)]
        rfl
    · -- the last position does not fit 64 bits
      rw [extractRaw, maxSignalBit_checked_of_le h_wraps]
      rfl
  | false =>
    -- not safe without checks: the last position wraps into the payload
    have h_wraps : 2 ^ 64 ≤ signal.lastPosition ∧
        signal.lastPosition < 2 ^ 64 + 8 * payload.length := by
      unfold Signal.RawSafe at h_not_safe
      simp only [Bool.false_eq_true, if_false, not_or, Nat.not_lt, Nat.not_le] at h_not_safe
      exact h_not_safe
    have h_byte := signal.byteOrder.order_div (signal.lastPosition % 2 ^ 64)
    exact extractRaw_of_wraps h_len (maxSignalBit_unchecked signal) (by omega) h_wraps.1

end Extract

end Cantools.Decoder
