import Mathlib.Order.Bounds.Basic
import Cantools.Decoder.Integer

/-!
# What a short payload is told to have

With `PayloadTooShort`, `extract_raw` reports how many bits it expected: one more than the bit its
walk visits last. `TrueNeed` is what that number is for: it is one more than the largest bit the
signal covers, and rounded up to bytes it is the length from which on the signal can be extracted.

The last bit of a little-endian signal is its largest one. A big-endian walk goes down inside a
byte, so its last bit is the largest only when it is the top bit of its byte, or the only bit of
the signal (`isGreatest_lastPosition_iff`). The number of bytes is right all the same, as the walk
never goes back to an earlier byte.
-/

namespace Cantools.Decoder

open Machine Program

/-- The reported number of bits is what the signal needs. -/
structure TrueNeed (checks : Bool) (payload : List UInt8) (signal : Signal)
    (expectedBits : ℕ) : Prop where
  /-- It is one more than the largest bit that is read. -/
  greatest : ∃ top, IsGreatest {bit | signal.Covers bit} top ∧ expectedBits = top + 1
  /-- The payload has fewer bits. -/
  more : 8 * payload.length < expectedBits
  /-- So many bytes are the shortest payload with the signal. -/
  shortest : ∀ payload' : List UInt8, payload'.length < 2 ^ 61 →
    ((∃ v, extractRaw checks payload' signal = .ok v) ↔ (expectedBits + 7) / 8 ≤ payload'.length)

/-- The last bit of a signal is covered. -/
theorem Signal.covers_lastPosition {signal : Signal} (h_size : 1 ≤ signal.size.toNat) :
    signal.Covers (signal.byteOrder.order signal.lastPosition) :=
  ⟨signal.size.toNat - 1, by omega, rfl⟩

/-- **When the last bit is the largest one.** -/
theorem Signal.isGreatest_lastPosition_iff {signal : Signal} (h_size : 1 ≤ signal.size.toNat) :
    IsGreatest {bit | signal.Covers bit} (signal.byteOrder.order signal.lastPosition) ↔
      signal.byteOrder = .littleEndian ∨ signal.size.toNat = 1 ∨ signal.lastPosition % 8 = 0 := by
  have h_last := signal.covers_lastPosition h_size
  constructor
  · rintro ⟨-, h_upper⟩
    cases h_order : signal.byteOrder with
    | littleEndian => exact .inl rfl
    | bigEndian =>
      by_contra h_not
      simp only [reduceCtorEq, false_or, not_or] at h_not
      obtain ⟨h_one, h_top⟩ := h_not
      -- the bit before the last one is in the same byte, and above it
      have h_before := h_upper ⟨signal.size.toNat - 2, by omega, rfl⟩
      unfold Signal.lastPosition at h_before h_top
      simp only [h_order, ByteOrder.order] at h_before h_top
      unfold linear at h_before h_top
      omega
  · intro h_cases
    refine ⟨h_last, ?_⟩
    rintro bit ⟨i, h_i, rfl⟩
    cases h_order : signal.byteOrder with
    | littleEndian =>
      -- positions are bits, and the last one is the largest
      unfold Signal.lastPosition
      simp only [h_order, ByteOrder.order]
      omega
    | bigEndian =>
      unfold Signal.lastPosition at h_cases ⊢
      simp only [h_order, reduceCtorEq, false_or, ByteOrder.order] at h_cases ⊢
      unfold linear at h_cases ⊢
      -- one bit only, or the top bit of the last byte of the walk
      rcases h_cases with h_one | h_top
      · obtain rfl : i = 0 := by omega
        rw [h_one]
      · omega

section Report

variable {checks : Bool} {payload : List UInt8} {signal : Signal}

/-- **What is reported**, and that the signal leaves the payload. -/
theorem extractRaw_tooShort (h_len : payload.length < 2 ^ 61) {name : String}
    {expectedBits actualBytes : ℕ}
    (h : extractRaw checks payload signal
      = .error (.error (.payloadTooShort name expectedBits actualBytes))) :
    name = signal.name ∧ actualBytes = payload.length ∧ ¬ signal.LiesIn payload.length ∧
      expectedBits < 2 ^ 64 ∧
      (signal.byteOrder.order signal.lastPosition + 1 < 2 ^ 64 →
        expectedBits = signal.byteOrder.order signal.lastPosition + 1) := by
  -- a signal that is not safe panics, and one that lies in the payload has a value
  have h_safe : signal.RawSafe checks payload.length := by
    by_contra h_not_safe
    rw [extractRaw_of_not_safe h_len h_not_safe] at h
    cases h
  have h_out : ¬ signal.LiesIn payload.length := by
    intro h_in
    rw [(extractRaw_of_safe h_len h_safe).1 h_in] at h
    cases h
  obtain ⟨bits, h_error, h_lt, h_bits⟩ := extractRaw_of_not_liesIn h_safe h_out
  rw [h_error] at h
  cases h
  exact ⟨rfl, rfl, h_out, h_lt, h_bits⟩

/-- **When the report is right**: for a signal whose last bit is its largest, and has a
representable successor. -/
theorem tooShort_trueNeed_iff (checks : Bool) (payload : List UInt8) (signal : Signal)
    (h_len : payload.length < 2 ^ 61)
    (h_size : 1 ≤ signal.size.toNat ∧ signal.size.toNat ≤ 64) (name : String)
    (expectedBits actualBytes : ℕ)
    (h : extractRaw checks payload signal
      = .error (.error (.payloadTooShort name expectedBits actualBytes))) :
    (actualBytes = payload.length ∧ TrueNeed checks payload signal expectedBits) ↔
      signal.byteOrder.order signal.lastPosition + 1 < 2 ^ 64 ∧
        (signal.byteOrder = .littleEndian ∨ signal.size.toNat = 1 ∨
          signal.lastPosition % 8 = 0) := by
  obtain ⟨-, h_actual, h_out, h_lt, h_bits⟩ := extractRaw_tooShort h_len h
  rw [← Signal.isGreatest_lastPosition_iff h_size.1]
  constructor
  · rintro ⟨-, ⟨top, h_top, rfl⟩, -, -⟩
    -- the largest bit is a word less one, so the last bit has a successor
    have h_le := h_top.2 (signal.covers_lastPosition h_size.1)
    have h_fits : signal.byteOrder.order signal.lastPosition + 1 < 2 ^ 64 := by omega
    refine ⟨h_fits, ?_⟩
    rwa [← Nat.succ.inj (h_bits h_fits)]
  · rintro ⟨h_fits, h_greatest⟩
    have h_ge : 8 * payload.length ≤ signal.lastPosition := Nat.not_lt.mp h_out
    have h_byte := signal.byteOrder.order_div signal.lastPosition
    refine ⟨h_actual, ⟨_, h_greatest, h_bits h_fits⟩, ?_, ?_⟩
    · rw [h_bits h_fits]
      omega
    · -- extraction succeeds where the last position lies in the payload
      intro payload' h_len'
      have h_last : signal.lastPosition < 2 ^ 64 := by omega
      have h_safe : signal.RawSafe checks payload'.length := by
        cases checks with
        | false => exact .inl h_last
        | true => exact ⟨h_last, fun _ => h_fits, fun _ _ => h_size.2⟩
      rw [extractRaw_ok_iff h_len' h_safe, h_bits h_fits, Signal.LiesIn]
      omega

end Report

/-- Sixteen little-endian bits from bit 8 on need three bytes. -/
theorem tooShort_trueNeed_littleEndian :
    let signal : Signal :=
      { name := "Speed", multiplexerIndicator := .plain, startBit := 8, size := 16
        byteOrder := .littleEndian, valueType := .unsigned, factor := 1, offset := 0, unit := "" }
    TrueNeed true [0] signal 24 := by
  intro signal
  have h_error : extractRaw true [0] signal
      = .error (.error (.payloadTooShort "Speed" 24 1)) := by decide
  exact ((tooShort_trueNeed_iff true [0] signal (by decide) ⟨by decide, by decide⟩ "Speed" 24 1
    h_error).mpr ⟨by decide, .inl rfl⟩).2

/-- Four big-endian bits from the top of the first byte down: the walk ends at bit `4`, and the
report is five bits, though bit `7` is read as well. -/
theorem tooShort_trueNeed_counterexample :
    let signal : Signal :=
      { name := "Gear", multiplexerIndicator := .plain, startBit := 7, size := 4
        byteOrder := .bigEndian, valueType := .unsigned, factor := 1, offset := 0, unit := "" }
    ∀ checks, extractRaw checks [] signal = .error (.error (.payloadTooShort "Gear" 5 0)) ∧
      ¬ TrueNeed checks [] signal 5 := by
  intro signal checks
  refine ⟨by cases checks <;> decide, fun h_need => ?_⟩
  obtain ⟨top, h_top, h_bits⟩ := h_need.greatest
  have h_covers : signal.Covers 7 := ⟨0, by decide, by decide⟩
  have h_le : 7 ≤ top := h_top.2 h_covers
  omega

end Cantools.Decoder
