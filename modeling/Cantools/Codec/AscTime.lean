import Cantools.Codec.AscFidelity
import Cantools.Core.Timestamp

/-!
# The times of an ASC log

`read_asc` computes a whole number of nanoseconds from the first word of a line and splits it into
seconds and nanoseconds: the seconds by division towards zero, the nanoseconds by the Euclidean
remainder. The two halves belong together exactly for totals that are not negative or whole
seconds. Every other total comes out one second too late (`nanoseconds_timestampOf`), which
reverses its order against the totals up to one second above it (`readAsc_time_iff`).
-/

namespace Cantools.Codec.Asc

open Numeral Program Text

variable {float : FloatText}

/-! ### The split -/

/-- The two halves of this total do not belong together. -/
def Shifted (total : Int64) : Prop := total.toInt < 0 ∧ total.toInt % 1000000000 ≠ 0

instance (total : Int64) : Decidable (Shifted total) := inferInstanceAs (Decidable (_ ∧ _))

theorem timestampOf_seconds (total : Int64) : (timestampOf total).seconds.toInt
    = total.toInt / 1000000000 + if Shifted total then 1 else 0 := by
  have h_div : (timestampOf total).seconds.toInt = total.toInt.tdiv 1000000000 :=
    Int64.toInt_div_of_ne_right total 1000000000 (by decide)
  have h_sign : Int.sign 1000000000 = 1 := by decide
  rw [h_div, Int.tdiv_eq_ediv, h_sign]
  simp only [Int.dvd_iff_emod_eq_zero, Shifted]
  split_ifs <;> omega

theorem toInt_remEuclid (total : Int64) : (remEuclid total).toInt = total.toInt % 1000000000 := by
  have h_mod : (total % 1000000000).toInt = total.toInt.tmod 1000000000 := Int64.toInt_mod ..
  have h_sign : total % 1000000000 < 0 ↔ (total % 1000000000).toInt < 0 := Int64.lt_iff_toInt_lt
  have h_abs : Int.natAbs 1000000000 = 1000000000 := by decide
  rw [Int.tmod_eq_emod, h_abs] at h_mod
  simp only [Int.dvd_iff_emod_eq_zero] at h_mod
  simp only [remEuclid, h_sign]
  split
  · next h_neg =>
    have h_add : (total % 1000000000 + 1000000000).toInt
        = ((total % 1000000000).toInt + 1000000000).bmod (2 ^ 64) := Int64.toInt_add ..
    have h_low : (total % 1000000000).toInt = total.toInt % 1000000000 - 1000000000 := by
      split_ifs at h_mod <;> omega
    -- the sum is far from the bounds of the type
    rw [h_add, Int.bmod_eq_of_le (by omega) (by omega)]
    omega
  · next h_nonneg =>
    split_ifs at h_mod <;> omega

theorem timestampOf_nanos (total : Int64) :
    ((timestampOf total).nanos.toNat : ℤ) = total.toInt % 1000000000 := by
  have h_rem := toInt_remEuclid total
  have h_nonneg : 0 ≤ remEuclid total := Int64.le_iff_toInt_le.mpr (by
    rw [h_rem]
    exact Int.emod_nonneg _ (by decide))
  have h_unsigned : (remEuclid total).toUInt64.toNat = (remEuclid total).toInt.toNat := by
    rw [Int64.toNat_toUInt64_of_le h_nonneg]
    rfl
  have h_nanos : (timestampOf total).nanos.toNat = (remEuclid total).toUInt64.toNat % 2 ^ 32 :=
    UInt64.toNat_toUInt32 _
  rw [h_nanos, h_unsigned, h_rem]
  omega

theorem normalised_timestampOf (total : Int64) : (timestampOf total).Normalised := by
  have h_nanos := timestampOf_nanos total
  unfold Timestamp.Normalised
  omega

/-- **The instant** of a split total. -/
theorem nanoseconds_timestampOf (total : Int64) : (timestampOf total).nanoseconds
    = total.toInt + if Shifted total then 1000000000 else 0 := by
  rw [Timestamp.nanoseconds, timestampOf_nanos, timestampOf_seconds]
  split_ifs <;> omega

/-! ### The times of lines -/

/-- The line is read as this event, and its time is parsed to this total of nanoseconds. -/
def ReadAt (float : FloatText) (line : List Char) (total : Int64) (read : CaptureEvent) : Prop :=
  readLine float noReport line = .ok { events := [read], notes := [] } ∧
    ∃ time words seconds, splitWhitespace (trim line) = time :: words ∧
      float.parse time = .ok seconds ∧ float.nanosTotal seconds = total

/-- The timestamp is that total, split into normalised halves. -/
structure SplitsExactly (total : Int64) (t : Timestamp) : Prop where
  nanos : t.nanos.toNat < 1000000000
  total : t.seconds.toInt * 1000000000 + t.nanos.toNat = total.toInt

/-- The derived order of two timestamps is the order of their totals. -/
def SameOrder (a b : Int64) (s t : Timestamp) : Prop := (s ≤ t ↔ a ≤ b) ∧ (t ≤ s ↔ b ≤ a)

/-- Both totals are shifted, or none is, or the shifted one is above the other or more than one
second below it. -/
def OrderKept (a b : Int64) : Prop :=
  (Shifted a ↔ Shifted b) ∨
  (Shifted a ∧ (b.toInt < a.toInt ∨ a.toInt + 1000000000 < b.toInt)) ∨
  (Shifted b ∧ (a.toInt < b.toInt ∨ b.toInt + 1000000000 < a.toInt))

instance (a b : Int64) : Decidable (OrderKept a b) := inferInstanceAs (Decidable (_ ∨ _))

theorem ReadAt.timestamp {line : List Char} {total : Int64} {read : CaptureEvent}
    (h : ReadAt float line total read) : read.timestamp = timestampOf total := by
  obtain ⟨h_line, time, words, seconds, h_words, h_time, rfl⟩ := h
  simp only [readLine] at h_line
  split at h_line
  · cases h_line
  · split at h_line
    · -- the words of the line are the same, so the time is
      next h_words' =>
      obtain ⟨event, h_event, h_read⟩ := bind_eq_ok_iff.mp h_line
      cases h_read
      obtain ⟨seconds', _, _, _, h_time', -, -, -, -, rfl⟩ := parseEvent_cases h_event
      cases h_words.symm.trans h_words'
      cases h_time.symm.trans h_time'
      rfl
    · cases h_line

theorem splitsExactly_iff (total : Int64) :
    SplitsExactly total (timestampOf total) ↔ ¬ Shifted total := by
  have h_instant := nanoseconds_timestampOf total
  rw [Timestamp.nanoseconds] at h_instant
  constructor
  · rintro ⟨-, h_total⟩ h_shifted
    rw [if_pos h_shifted] at h_instant
    omega
  · intro h_not
    rw [if_neg h_not] at h_instant
    exact ⟨normalised_timestampOf total, by omega⟩

theorem sameOrder_iff (a b : Int64) :
    SameOrder a b (timestampOf a) (timestampOf b) ↔ OrderKept a b := by
  have h_a := normalised_timestampOf a
  have h_b := normalised_timestampOf b
  rw [SameOrder, Timestamp.le_iff h_a h_b, Timestamp.le_iff h_b h_a, nanoseconds_timestampOf,
    nanoseconds_timestampOf, Int64.le_iff_toInt_le, Int64.le_iff_toInt_le]
  unfold OrderKept
  -- a shifted total and one that is not are never equal
  have h_ne : ¬ (Shifted a ↔ Shifted b) → a.toInt ≠ b.toInt := by
    unfold Shifted
    omega
  by_cases h_sa : Shifted a <;> by_cases h_sb : Shifted b <;>
    simp only [h_sa, h_sb, if_true, if_false, iff_true, iff_false, true_and, false_and, or_false,
      false_or, true_or, not_true_eq_false, not_false_eq_true] at h_ne ⊢ <;>
    omega

/-- **The times of two lines.** The timestamp of a line is its total of nanoseconds exactly for
totals that are not negative or whole seconds; two timestamps are ordered like their totals unless
a shifted one is at most one second below the other. -/
theorem readAsc_time_iff (float : FloatText) (first second : List Char) (a b : Int64)
    (x y : CaptureEvent) (h_x : ReadAt float first a x) (h_y : ReadAt float second b y) :
    (SplitsExactly a x.timestamp ↔ 0 ≤ a.toInt ∨ (1000000000 : ℤ) ∣ a.toInt) ∧
      (SameOrder a b x.timestamp y.timestamp ↔ OrderKept a b) := by
  rw [h_x.timestamp, h_y.timestamp, splitsExactly_iff, sameOrder_iff]
  refine ⟨?_, Iff.rfl⟩
  unfold Shifted
  omega

/-- The words of an event make a line that is read. -/
theorem readAt_of_isEvent {line time id direction frameKind len : List Char}
    {tokens : List (List Char)} {seconds : float.F64} (name : List Char)
    (h_content : ¬ (trim line = [] ∨ ∃ start ∈ skippedStarts, start <+: trim line))
    (h_words : splitWhitespace (trim line)
      = time :: name :: id :: direction :: frameKind :: len :: tokens)
    (h : IsEvent float time id direction frameKind len tokens)
    (h_time : float.parse time = .ok seconds) :
    ∃ read, ReadAt float line (float.nanosTotal seconds) read := by
  obtain ⟨read, h_read⟩ := parseEvent_of_isEvent name h
  refine ⟨read, ?_, time, _, seconds, h_words, h_time, rfl⟩
  simp only [readLine, if_neg h_content, h_words, h_read, ok_bind]
  rfl

/-- Half a second before the epoch, the epoch, and one second behind it. -/
def aroundEpoch : FloatText where
  F64 := Int64
  format _ := "1.000000".toList
  parse text :=
    if text = "-0.500000".toList then .ok (-500000000)
    else if text = "0.000000".toList then .ok 0
    else if text = "1.000000".toList then .ok 1000000000
    else .error "invalid float literal"
  nanosTotal seconds := seconds

/-- Remote frames at these times are read. -/
theorem readAt_aroundEpoch :
    (∃ x, ReadAt aroundEpoch "-0.500000 can0 123 Rx r 0".toList (-500000000) x) ∧
      (∃ x, ReadAt aroundEpoch "0.000000 can0 123 Rx r 0".toList 0 x) ∧
      ∃ x, ReadAt aroundEpoch "1.000000 can0 123 Rx r 0".toList 1000000000 x := by
  -- the three lines differ in their times only
  have h_event : ∀ (time : List Char) (seconds : Int64), aroundEpoch.parse time = .ok seconds →
      IsEvent aroundEpoch time "123".toList "Rx".toList "r".toList "0".toList [] :=
    fun time seconds h_time =>
      { time := ⟨seconds, h_time⟩
        id := ⟨(⟨0x123, false, by decide⟩, false), by decide⟩
        direction := ⟨.rx, by decide⟩
        data := ⟨[], by decide, by decide⟩ }
  have h_before : aroundEpoch.parse "-0.500000".toList = .ok (-500000000 : Int64) := rfl
  have h_epoch : aroundEpoch.parse "0.000000".toList = .ok (0 : Int64) := rfl
  have h_behind : aroundEpoch.parse "1.000000".toList = .ok (1000000000 : Int64) := rfl
  exact ⟨readAt_of_isEvent "can0".toList (by decide) (by decide) (h_event _ _ h_before) h_before,
    readAt_of_isEvent "can0".toList (by decide) (by decide) (h_event _ _ h_epoch) h_epoch,
    readAt_of_isEvent "can0".toList (by decide) (by decide) (h_event _ _ h_behind) h_behind⟩

/-- The timestamps of the epoch and of one second behind it. -/
theorem readAsc_time_second : ∃ x y,
    ReadAt aroundEpoch "0.000000 can0 123 Rx r 0".toList 0 x ∧
      ReadAt aroundEpoch "1.000000 can0 123 Rx r 0".toList 1000000000 y ∧
      SplitsExactly 0 x.timestamp ∧ SameOrder 0 1000000000 x.timestamp y.timestamp := by
  obtain ⟨-, ⟨x, h_x⟩, y, h_y⟩ := readAt_aroundEpoch
  obtain ⟨h_splits, h_order⟩ := readAsc_time_iff aroundEpoch _ _ 0 1000000000 x y h_x h_y
  exact ⟨x, y, h_x, h_y, h_splits.mpr (.inl (by decide)), h_order.mpr (.inl (by decide))⟩

/-- Half a second before the epoch comes out half a second behind it. -/
theorem readAsc_time_counterexample : ∃ x y,
    ReadAt aroundEpoch "-0.500000 can0 123 Rx r 0".toList (-500000000) x ∧
      ReadAt aroundEpoch "0.000000 can0 123 Rx r 0".toList 0 y ∧
      ¬ SplitsExactly (-500000000) x.timestamp ∧
      ¬ SameOrder (-500000000) 0 x.timestamp y.timestamp := by
  obtain ⟨⟨x, h_x⟩, ⟨y, h_y⟩, -⟩ := readAt_aroundEpoch
  refine ⟨x, y, h_x, h_y, ?_, ?_⟩
  · rw [h_x.timestamp, splitsExactly_iff]
    decide
  · rw [h_x.timestamp, h_y.timestamp, sameOrder_iff]
    decide

end Cantools.Codec.Asc
