import Cantools.Decoder.Contract

/-!
# Decoding without arithmetic faults

A build with overflow checks panics at every operation that leaves its type, at every shift by 64
or more and at every index outside the payload, so decoding has no such fault when that build
returns (`FaultFree`). The build without checks then computes the same: operation by operation the
two builds end alike unless the one with checks panics (`checked_decodeFrame`).

Nothing bounds the position and the size of a signal, so there are faults: `faultFree_iff` names
the messages that decode without one.
-/

namespace Cantools.Decoder

open Machine Program

/-! ### The two builds -/

theorem checked_nextBit (bit : ℕ) : Checked (nextBit true bit) (nextBit false bit) := by
  unfold nextBit
  -- only the step to the next byte is checked
  by_cases h_byte : bit % 8 = 0
  · rw [if_pos h_byte, if_pos h_byte]
    exact .add bit 15
  · rw [if_neg h_byte, if_neg h_byte]
    exact .refl _

theorem checked_walkBits (k bit : ℕ) : Checked (walkBits true k bit) (walkBits false k bit) := by
  induction k generalizing bit with
  | zero => exact .refl _
  | succ k ih => exact (checked_nextBit bit).bind ih

theorem checked_maxSignalBit (signal : Signal) :
    Checked (maxSignalBit true signal) (maxSignalBit false signal) := by
  unfold maxSignalBit
  -- one addition, or a walk of additions
  cases signal.byteOrder with
  | littleEndian => exact .add ..
  | bigEndian => exact checked_walkBits ..

section Decode

variable (database : LoadedDbc) (messageId : MessageId) (payload : List UInt8)

theorem checked_littleEndianLoop (start k offset : ℕ) (value : UInt64) :
    Checked (littleEndianLoop true payload start k offset value)
      (littleEndianLoop false payload start k offset value) := by
  induction k generalizing offset value with
  | zero => exact .refl _
  | succ k ih =>
    -- the position and the shift are checked, the bit is the same in both builds
    refine (Checked.add start offset).bind fun bit => (Checked.refl _).bind fun b => ?_
    exact (Checked.shl _ offset).bind fun shifted => ih _ _

theorem checked_bigEndianLoop (k bit : ℕ) (value : UInt64) :
    Checked (bigEndianLoop true payload k bit value)
      (bigEndianLoop false payload k bit value) := by
  induction k generalizing bit value with
  | zero => exact .refl _
  | succ k ih =>
    exact (Checked.refl _).bind fun b => (checked_nextBit bit).bind fun next => ih next _

theorem checked_extractRaw (signal : Signal) :
    Checked (extractRaw true payload signal) (extractRaw false payload signal) := by
  -- both builds make the same test on the same last bit, and so take the same way
  refine (checked_maxSignalBit signal).bind fun maxBit => ?_
  by_cases h_test : maxBit ≥ payload.length * 8
  · rw [if_pos h_test, if_pos h_test]
    exact (Checked.add maxBit 1).bind fun _ => .refl _
  · rw [if_neg h_test, if_neg h_test]
    cases signal.byteOrder with
    | littleEndian => exact checked_littleEndianLoop ..
    | bigEndian => exact checked_bigEndianLoop ..

theorem checked_signExtend (raw : UInt64) (width : ℕ) :
    Checked (signExtend true raw width) (signExtend false raw width) :=
  (Checked.subU32 64 width).bind fun shift => (Checked.shl raw shift).bind fun _ => .sar _ shift

theorem checked_extractSignal (signal : Signal) :
    Checked (extractSignal true database messageId signal payload)
      (extractSignal false database messageId signal payload) := by
  refine (checked_extractRaw payload signal).bind fun raw => ?_
  by_cases h_type : signal.valueType = .signed
  · rw [if_pos h_type, if_pos h_type]
    exact (checked_signExtend _ _).bind fun _ => .refl _
  · rw [if_neg h_type, if_neg h_type]
    exact .refl _

theorem checked_messageMuxValue (dbc : Dbc) :
    Checked (messageMuxValue true dbc messageId payload)
      (messageMuxValue false dbc messageId payload) := by
  unfold messageMuxValue
  split
  · next mux _ => exact (checked_extractRaw payload mux).result.bind fun _ => .refl _
  · exact .refl _

theorem checked_decodeSignals (muxValue : Option Int64) (signals : List Signal) :
    Checked (decodeSignals true database messageId payload muxValue signals)
      (decodeSignals false database messageId payload muxValue signals) := by
  induction signals with
  | nil => exact .refl _
  | cons signal rest ih =>
    -- whether a signal is active does not depend on the build
    unfold decodeSignals
    by_cases h_active : signalActive signal muxValue
    · rw [if_pos h_active, if_pos h_active]
      refine (checked_extractSignal database messageId payload signal).result.bind fun _ => ?_
      exact ih.bind fun _ => .refl _
    · rw [if_neg h_active, if_neg h_active]
      exact ih

end Decode

/-- **The two builds of `decode_frame`** return the same, where the one with checks returns. -/
theorem checked_decodeFrame (databases : List LoadedDbc) (frame : CanFrame) :
    Checked (decodeFrame true databases frame) (decodeFrame false databases frame) := by
  unfold decodeFrame
  split
  · exact .refl _
  · next database message _ =>
    refine (checked_messageMuxValue message.id frame.data database.dbc).bind fun muxValue => ?_
    exact (checked_decodeSignals database message.id frame.data muxValue _).bind fun _ => .refl _
  · exact .refl _

/-! ### Freedom from faults -/

/-- Decoding the frame performs no arithmetic fault: the build with overflow checks returns, and
each active signal ends as a value or as a diagnostic. -/
structure FaultFree (databases : List LoadedDbc) (frame : CanFrame) : Prop where
  /-- Both builds return, and the same. -/
  returns : ∃ outcome, ∀ checks, decodeFrame checks databases frame = .ok outcome
  /-- Where a message is decoded, its signals are sorted. -/
  sorted : ∀ checks outcome, decodeFrame checks databases frame = .ok outcome →
    ∀ database message, matching databases frame = [database] →
      firstMessage frame database = some message →
      ∃ decoded,
        outcome.message = some { database := database.name
                                 messageName := message.name
                                 signals := decoded } ∧
        Sorted (Active database.dbc message frame.data) message.signals decoded
          outcome.diagnostics

/-- **When decoding is free of faults**: when the multiplexor of the decoded message and all its
active signals are safe. -/
theorem faultFree_iff (databases : List LoadedDbc) (frame : CanFrame) (h_valid : frame.Valid) :
    FaultFree databases frame ↔ Safe true databases frame := by
  have h_len : frame.data.length < 2 ^ 61 := Nat.lt_of_le_of_lt h_valid.length_le (by decide)
  constructor
  · intro h_free
    obtain ⟨outcome, h_ok⟩ := h_free.returns
    exact safe_of_ok h_len (h_ok true)
  · intro h_safe
    -- the build with checks returns, and the other one returns the same
    obtain ⟨outcome, h_true⟩ := h_safe.returns h_len
    have h_ok : ∀ checks, decodeFrame checks databases frame = .ok outcome := by
      intro checks
      cases checks with
      | true => exact h_true
      | false => exact (checked_decodeFrame databases frame).ok h_true
    refine ⟨⟨outcome, h_ok⟩, ?_⟩
    intro checks outcome' h_ok' database message h_one h_message
    obtain rfl : outcome = outcome' := Except.ok.inj ((h_ok checks).symm.trans h_ok')
    obtain ⟨message', decoded, diagnostics, h_message', h_decode, h_sorted⟩ :=
      (h_safe.contract h_len).unique database h_one
    obtain rfl : message' = message := Option.some.inj (h_message'.symm.trans h_message)
    obtain rfl := Except.ok.inj (h_decode.symm.trans h_true)
    exact ⟨decoded, rfl, h_sorted⟩

/-- A signed signal of `64` bits at the end of a CAN FD frame. -/
theorem faultFree_iff_fd :
    let signal : Signal :=
      { name := "Position", multiplexerIndicator := .plain, startBit := 448, size := 64
        byteOrder := .littleEndian, valueType := .signed, factor := 1, offset := 0, unit := "" }
    let database : LoadedDbc :=
      { name := "vehicle.dbc"
        dbc := { messages := [{ id := ⟨291⟩, name := "ExampleMessage", signals := [signal] }]
                 messageMultiplexorSwitch := fun _ => .ok none
                 valueDescriptionsForSignal := fun _ _ => none } }
    let frame : CanFrame :=
      { id := ⟨0x123, false, by decide⟩, class' := .data, data := List.replicate 64 0
        fd := true, fdFlags := {} }
    FaultFree [database] frame := by
  intro signal database frame
  have h_all : ∀ s ∈ [signal], s.Safe true 64 := by decide
  exact (faultFree_iff [database] frame (by decide)).mpr
    (safe_of_forall database rfl rfl (fun mux h_mux => by cases h_mux) h_all)

/-- Sixty-five little-endian bits fit a CAN FD frame, and their last one is shifted by `64`. -/
theorem faultFree_counterexample :
    let signal : Signal :=
      { name := "Wide", multiplexerIndicator := .plain, startBit := 0, size := 65
        byteOrder := .littleEndian, valueType := .unsigned, factor := 1, offset := 0, unit := "" }
    let database : LoadedDbc :=
      { name := "vehicle.dbc"
        dbc := { messages := [{ id := ⟨291⟩, name := "ExampleMessage", signals := [signal] }]
                 messageMultiplexorSwitch := fun _ => .ok none
                 valueDescriptionsForSignal := fun _ _ => none } }
    let frame : CanFrame :=
      { id := ⟨0x123, false, by decide⟩, class' := .data, data := List.replicate 64 0
        fd := true, fdFlags := {} }
    frame.Valid ∧ ¬ FaultFree [database] frame := by
  intro signal database frame
  refine ⟨by decide, fun h_free => ?_⟩
  obtain ⟨outcome, h_ok⟩ := h_free.returns
  have h_safe := safe_of_ok (by decide) (h_ok true)
  -- a little-endian signal that lies in the payload is safe with `64` bits at most
  have h_signal := (h_safe database _ rfl rfl).2 signal (List.mem_singleton_self _) trivial
  exact absurd (h_signal.1.2.2 (by decide) rfl) (by decide)

end Cantools.Decoder
