import Cantools.Framework.Chunks
import Cantools.Framework.Program

/-!
# ISO-TP protocol data units

The PDU type of `cantools-isotp`, its wire encoding and the segmentation of a payload.

`usize` lengths are natural numbers: the only sum `segment` forms, `offset +
consecutive_capacity`, is reached only past the single-frame test, where the capacity is
below `payload.len()`, so it stays below twice the length of an existing slice and cannot
wrap. Bytes are `UInt8`, and `as u8` is the truncation `Nat.toUInt8`.

`encode` asks for a vector with room for a whole frame, and `Vec::with_capacity` panics if the
frame size is above `isize::MAX` (`withCapacity`).

The consecutive-frame loop of `segment` need not end: with a consecutive capacity of `0` its
offset never moves. `segmentLoop` therefore runs on fuel and is `none` when the fuel is
spent; `segment` gives it one unit for every byte and one more, and
`segmentWithin_eq_segment` shows that more fuel never produces a result `segment` does not
have, so that `segment … = none` means exactly that the loop never ends.
-/

namespace Cantools.Isotp

open Chunks Program

/-! ### Types -/

/-- Flow-control status. -/
inductive FlowStatus where
  /-- Receiver is ready for more data. -/
  | continueToSend
  /-- Receiver needs more time. -/
  | wait
  /-- Receiver aborted the transfer. -/
  | overflow
  deriving DecidableEq, Repr

/-- ISO-TP protocol errors. -/
inductive IsotpError where
  /-- Single-frame payload exceeds the available capacity. -/
  | singleFrameTooLarge
  /-- A consecutive frame was received before a first frame. -/
  | unexpectedConsecutiveFrame
  /-- Sequence number mismatch. -/
  | sequenceNumberMismatch (expected actual : UInt8)
  /-- Flow control cannot represent the requested block size or separation time. -/
  | invalidFlowControl
  deriving DecidableEq, Repr

/-- Encoded protocol control information and payload. -/
inductive ProtocolDataUnit where
  /-- Single-frame transfer. -/
  | singleFrame (payload : List UInt8)
  /-- First frame of a multi-frame transfer. -/
  | firstFrame (totalLen : ℕ) (payload : List UInt8)
  /-- Consecutive frame. -/
  | consecutiveFrame (sequenceNumber : UInt8) (payload : List UInt8)
  /-- Flow-control frame. -/
  | flowControl (status : FlowStatus) (blockSize separationTimeMs : UInt8)
  deriving DecidableEq, Repr

/-! ### Encoding -/

/-- The low nibble of a flow-control control byte. -/
def FlowStatus.nibble : FlowStatus → UInt8
  | .continueToSend => 0x00
  | .wait => 0x01
  | .overflow => 0x02

/-- `isize::MAX` on a 64-bit target. -/
def isizeMax : ℕ := 2 ^ 63 - 1

/-- `Vec::with_capacity` and what is put into the vector: a capacity above `isize::MAX` is a
panic. -/
def withCapacity {ε : Type} (capacity : ℕ) (bytes : List UInt8) : Run ε (List UInt8) :=
  if capacity ≤ isizeMax then .ok bytes else .error .panic

/-- Encode a PDU into a raw CAN payload using the provided frame size. -/
def ProtocolDataUnit.encode (frameSize : ℕ) : ProtocolDataUnit → Run IsotpError (List UInt8)
  | .singleFrame payload =>
    if payload.length > frameSize - 1 then .error (.error .singleFrameTooLarge)
    else withCapacity frameSize (payload.length.toUInt8 :: payload)
  | .firstFrame totalLen payload =>
    withCapacity frameSize (((0x10 : UInt8) ||| ((totalLen >>> 8) &&& 0x0f).toUInt8) ::
      (totalLen &&& 0xff).toUInt8 :: payload)
  | .consecutiveFrame sequenceNumber payload =>
    withCapacity frameSize ((0x20 ||| (sequenceNumber &&& 0x0f)) :: payload)
  | .flowControl status blockSize separationTimeMs =>
    -- `vec!` of three bytes
    .ok [0x30 ||| status.nibble, blockSize, separationTimeMs]

section

variable {ε : Type} {frameSize : ℕ} (bytes : List UInt8)

theorem withCapacity_ok (h : frameSize ≤ isizeMax) :
    (withCapacity frameSize bytes : Run ε _) = .ok bytes := if_pos h

theorem withCapacity_panic (h : isizeMax < frameSize) :
    (withCapacity frameSize bytes : Run ε _) = .error .panic := if_neg (Nat.not_le.mpr h)

end

theorem encode_singleFrame {p : List UInt8} {frameSize : ℕ} (h : p.length ≤ frameSize - 1) :
    (ProtocolDataUnit.singleFrame p).encode frameSize
      = withCapacity frameSize (p.length.toUInt8 :: p) :=
  if_neg (Nat.not_lt.mpr h)

theorem encode_firstFrame {frameSize : ℕ} (h : frameSize ≤ isizeMax) (n : ℕ) (p : List UInt8) :
    (ProtocolDataUnit.firstFrame n p).encode frameSize
      = .ok (((0x10 : UInt8) ||| ((n >>> 8) &&& 0x0f).toUInt8) :: (n &&& 0xff).toUInt8 :: p) :=
  withCapacity_ok _ h

theorem encode_consecutiveFrame {frameSize : ℕ} (h : frameSize ≤ isizeMax) (seq : UInt8)
    (p : List UInt8) :
    (ProtocolDataUnit.consecutiveFrame seq p).encode frameSize
      = .ok ((0x20 ||| (seq &&& 0x0f)) :: p) :=
  withCapacity_ok _ h

/-! ### Segmentation -/

/-- The sequence number after `seq`. -/
def nextSequence (seq : UInt8) : UInt8 := (seq + 1) &&& 0x0f

/-- The consecutive-frame loop of `segment` from a given offset and sequence number; `none`
when `fuel` iterations do not reach the end of the payload. -/
def segmentLoop (payload : List UInt8) (consecutiveCapacity : ℕ) :
    ℕ → ℕ → UInt8 → Option (List ProtocolDataUnit)
  | 0, _, _ => none
  | fuel + 1, offset, seq =>
    if offset < payload.length then
      -- the last piece may be short; the offset moves to its end
      let stop := min (offset + consecutiveCapacity) payload.length
      (segmentLoop payload consecutiveCapacity fuel stop (nextSequence seq)).map
        fun pdus => .consecutiveFrame seq (slice payload offset stop) :: pdus
    else
      some []

/-- `segment` with a bound on the iterations of its loop. -/
def segmentWithin (fuel : ℕ) (payload : List UInt8) (frameCapacity : ℕ) :
    Option (Except IsotpError (List ProtocolDataUnit)) :=
  if payload.length ≤ frameCapacity - 1 then
    some (.ok [.singleFrame payload])
  else
    let firstCapacity := frameCapacity - 2
    let consecutiveCapacity := frameCapacity - 1
    let firstEnd := min payload.length firstCapacity
    (segmentLoop payload consecutiveCapacity fuel firstEnd 1).map fun pdus =>
      .ok (.firstFrame payload.length (payload.take firstEnd) :: pdus)

/-- Split a payload into ISO-TP PDUs for a given frame payload capacity; `none` when the
consecutive-frame loop never ends. -/
def segment (payload : List UInt8) (frameCapacity : ℕ) :
    Option (Except IsotpError (List ProtocolDataUnit)) :=
  segmentWithin (payload.length + 1) payload frameCapacity

/-! ### The loop and its fuel -/

/-- With a consecutive capacity of `0` the loop spends any fuel without reaching the end. -/
theorem segmentLoop_zero_capacity {payload : List UInt8} (fuel : ℕ) {offset : ℕ} (seq : UInt8)
    (h : offset < payload.length) : segmentLoop payload 0 fuel offset seq = none := by
  -- the offset stays where it is, so the induction is on the fuel alone
  induction fuel generalizing seq with
  | zero => rfl
  | succ fuel ih =>
    have h_stop : min (offset + 0) payload.length = offset := by omega
    simp only [segmentLoop, if_pos h, h_stop, ih, Option.map_none]

/-- The PDUs that carry the given pieces, numbered from `seq` on. -/
def consecutiveFrames : UInt8 → List (List UInt8) → List ProtocolDataUnit
  | _, [] => []
  | seq, c :: cs => .consecutiveFrame seq c :: consecutiveFrames (nextSequence seq) cs

@[simp] theorem length_consecutiveFrames (seq : UInt8) (cs : List (List UInt8)) :
    (consecutiveFrames seq cs).length = cs.length := by
  induction cs generalizing seq with
  | nil => rfl
  | cons c cs ih => exact congrArg Nat.succ (ih _)

/-- **The loop.** With a positive consecutive capacity every iteration moves the offset on, so
one unit of fuel for each byte left and one more are enough, and the frames carry the rest of
the payload cut into pieces. -/
theorem segmentLoop_eq {payload : List UInt8} {capacity : ℕ} (h_cap : 0 < capacity) {fuel : ℕ}
    {offset : ℕ} (seq : UInt8) (h_fuel : payload.length - offset < fuel) :
    segmentLoop payload capacity fuel offset seq
      = some (consecutiveFrames seq (chunks capacity (payload.drop offset))) := by
  induction fuel generalizing offset seq with
  | zero => omega
  | succ fuel ih =>
    unfold segmentLoop
    split
    · next h_lt =>
      have h_ne : payload.drop offset ≠ [] := by
        rw [Ne, List.drop_eq_nil_iff]; omega
      -- the slice up to `stop` is the next piece, and the payload from `stop` on is the rest
      have h_piece : slice payload offset (min (offset + capacity) payload.length)
          = (payload.drop offset).take capacity := by
        unfold slice
        rw [List.drop_take]
        rcases Nat.le_total (offset + capacity) payload.length with h | h
        · rw [Nat.min_eq_left h]; congr 1; omega
        · rw [Nat.min_eq_right h, List.take_of_length_le (by rw [List.length_drop]),
            List.take_of_length_le (by rw [List.length_drop]; omega)]
      have h_rest : payload.drop (min (offset + capacity) payload.length)
          = (payload.drop offset).drop capacity := by
        rw [List.drop_drop]
        rcases Nat.le_total (offset + capacity) payload.length with h | h
        · rw [Nat.min_eq_left h]
        · rw [Nat.min_eq_right h, List.drop_length, List.drop_eq_nil_of_le h]
      have h_next : payload.length - min (offset + capacity) payload.length < fuel := by omega
      simp only [ih _ h_next, h_rest, h_piece, chunks_of_ne_nil h_cap h_ne, Option.map_some]
      rfl
    · next h_ge =>
      rw [List.drop_eq_nil_of_le (Nat.not_lt.mp h_ge), chunks_nil]
      rfl

/-- **What `segment` returns**: one single frame, or a first frame and the consecutive frames
that carry the rest. It always returns for a capacity of at least `2`. -/
theorem segment_eq {payload : List UInt8} {capacity : ℕ} (h_cap : 2 ≤ capacity) :
    segment payload capacity = some (.ok (
      if payload.length ≤ capacity - 1 then [.singleFrame payload]
      else .firstFrame payload.length (payload.take (capacity - 2)) ::
        consecutiveFrames 1 (chunks (capacity - 1) (payload.drop (capacity - 2))))) := by
  unfold segment segmentWithin
  split
  · rfl
  · next h_long =>
    have h_end : min payload.length (capacity - 2) = capacity - 2 := by omega
    simp only [h_end]
    rw [segmentLoop_eq (by omega) 1 (by omega)]
    rfl

/-- A result found with some fuel is found with more. -/
theorem segmentLoop_mono {payload : List UInt8} {capacity fuel fuel' offset : ℕ} {seq : UInt8}
    {pdus : List ProtocolDataUnit} (h : segmentLoop payload capacity fuel offset seq = some pdus)
    (h_le : fuel ≤ fuel') : segmentLoop payload capacity fuel' offset seq = some pdus := by
  induction fuel generalizing fuel' offset seq pdus with
  | zero => exact absurd h (by simp [segmentLoop])
  | succ fuel ih =>
    obtain ⟨fuel', rfl⟩ : ∃ k, fuel' = k + 1 := ⟨fuel' - 1, by omega⟩
    unfold segmentLoop at h ⊢
    split at h
    · next h_lt =>
      rw [if_pos h_lt]
      obtain ⟨rest, h_rest, rfl⟩ := Option.map_eq_some_iff.mp h
      have h_more := ih h_rest (Nat.le_of_succ_le_succ h_le)
      simp only [h_more, Option.map_some]
    · next h_ge => rw [if_neg h_ge]; exact h

/-- **The fuel of `segment` decides nothing.** Whatever bound is put on the iterations, a
result found within it is the result `segment` has. -/
theorem segmentWithin_eq_segment {fuel : ℕ} {payload : List UInt8} {capacity : ℕ}
    {r : Except IsotpError (List ProtocolDataUnit)}
    (h : segmentWithin fuel payload capacity = some r) : segment payload capacity = some r := by
  unfold segment segmentWithin at *
  split at h
  · next h_short => rw [if_pos h_short]; exact h
  · next h_long =>
    rw [if_neg h_long]
    obtain ⟨pdus, h_loop, rfl⟩ := Option.map_eq_some_iff.mp h
    simp only [Option.map_eq_some_iff, Except.ok.injEq, List.cons.injEq, true_and]
    refine ⟨pdus, ?_, rfl⟩
    rcases Nat.eq_zero_or_pos (capacity - 1) with h_zero | h_pos
    · -- the loop makes no progress, so it has found nothing within `fuel`
      rw [h_zero, segmentLoop_zero_capacity fuel 1 (by omega)] at h_loop
      exact absurd h_loop (by simp)
    · -- with progress the loop ends, and the longer of the two runs has the result of the shorter
      have h_total : segmentLoop payload (capacity - 1) (payload.length + 1)
          (min payload.length (capacity - 2)) 1 = some _ := segmentLoop_eq h_pos 1 (by omega)
      rcases Nat.le_total fuel (payload.length + 1) with h_le | h_le
      · exact segmentLoop_mono h_loop h_le
      · rw [← h_loop, segmentLoop_mono h_total h_le, h_total]

end Cantools.Isotp
