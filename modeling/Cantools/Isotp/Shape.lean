import Cantools.Isotp.Reassembler

/-!
# The shape of a segmented payload

From a capacity of `2` on, the list of PDUs that `segment` returns is determined: a single frame,
or a first frame and numbered consecutive frames, which fill their frames but for the last one
(`segment_shape`). The numbers and lengths are read off the pieces that `Chunks.chunks` cuts, so
no fact about the loop is needed beyond `segment_eq`. All of them can be encoded if a vector can
have room for a frame, and else none of them.

Below that capacity a consecutive frame has no room for data. The loop then stays where it is, and
`segment` does not return for any payload but the empty one (`segment_ends_iff`).
-/

namespace Cantools.Isotp

open Chunks

/-! ### The frames -/

/-- The frames are numbered by their places in the list. -/
theorem consecutiveFrames_eq_mapIdx (k : ℕ) (cs : List (List UInt8)) :
    consecutiveFrames (sequenceNumber k) cs
      = cs.mapIdx fun i c => .consecutiveFrame (sequenceNumber (k + i)) c := by
  induction cs generalizing k with
  | nil => rfl
  | cons c cs ih =>
    have h_number : ∀ i, k + 1 + i = k + (i + 1) := fun i => by omega
    rw [consecutiveFrames, nextSequence_sequenceNumber, ih, List.mapIdx_cons]
    simp only [Nat.add_zero, h_number]

/-- A PDU whose encoding fits a frame of `c` bytes, and fills it if it is `full`. -/
def FitsFrame (c : ℕ) (full : Prop) (pdu : ProtocolDataUnit) : Prop :=
  ∃ bytes, pdu.encode c = .ok bytes ∧ bytes.length ≤ c ∧ (full → bytes.length = c)

/-- How a PDU of a segmented payload is encoded: to bytes that fit, or, if no vector can have room
for a frame, with a panic. -/
structure EncodesAt (c : ℕ) (full : Prop) (pdu : ProtocolDataUnit) : Prop where
  fits : c ≤ isizeMax → FitsFrame c full pdu
  panics : isizeMax < c → pdu.encode c = .error .panic

theorem encodesAt_singleFrame {payload : List UInt8} {c : ℕ} (h_cap : 2 ≤ c)
    (h : payload.length ≤ c - 1) {full : Prop} (h_full : ¬ full) :
    EncodesAt c full (.singleFrame payload) := by
  have h_encode := encode_singleFrame h
  refine ⟨fun h_max => ?_, fun h_max => h_encode.trans (withCapacity_panic _ h_max)⟩
  refine ⟨_, h_encode.trans (withCapacity_ok _ h_max), ?_, fun h_not => absurd h_not h_full⟩
  rw [List.length_cons]
  omega

theorem encodesAt_firstFrame {first : List UInt8} {c : ℕ} (h_cap : 2 ≤ c)
    (h : first.length = c - 2) (totalLen : ℕ) (full : Prop) :
    EncodesAt c full (.firstFrame totalLen first) := by
  refine ⟨fun h_max => ?_, fun h_max => withCapacity_panic _ h_max⟩
  refine ⟨_, encode_firstFrame h_max _ _, ?_⟩
  simp only [List.length_cons]
  omega

theorem encodesAt_consecutiveFrame {piece : List UInt8} {c : ℕ} (h_cap : 2 ≤ c)
    (h : piece.length ≤ c - 1) (seq : UInt8) {full : Prop} (h_full : full → piece.length = c - 1) :
    EncodesAt c full (.consecutiveFrame seq piece) := by
  refine ⟨fun h_max => ?_, fun h_max => withCapacity_panic _ h_max⟩
  refine ⟨_, encode_consecutiveFrame h_max _ _, ?_, fun h_last => ?_⟩
  · rw [List.length_cons]
    omega
  · rw [List.length_cons, h_full h_last]
    omega

/-! ### The shape -/

/-- The pieces that follow a first frame with `c - 2` bytes of the payload. -/
structure PiecesOf (payload : List UInt8) (c : ℕ) (pieces : List (List UInt8)) : Prop where
  count : pieces.length = (payload.length - (c - 2)) ⌈/⌉ (c - 1)
  full : ∀ k piece, pieces[k]? = some piece → k + 1 < pieces.length → piece.length = c - 1
  last : ∀ piece, pieces.getLast? = some piece → 1 ≤ piece.length ∧ piece.length ≤ c - 1
  whole : payload.take (c - 2) ++ pieces.flatten = payload

/-- The PDUs of a payload at a capacity of `c`. -/
inductive Shape (payload : List UInt8) (c : ℕ) : List ProtocolDataUnit → Prop where
  /-- The payload in a single frame. -/
  | single : payload.length ≤ c - 1 → Shape payload c [.singleFrame payload]
  /-- A first frame, and the `k`-th piece behind it with the number `k` modulo `16`. -/
  | multi (pieces : List (List UInt8)) : c - 1 < payload.length → PiecesOf payload c pieces →
      Shape payload c (.firstFrame payload.length (payload.take (c - 2)) ::
        pieces.mapIdx fun i piece => .consecutiveFrame ((i + 1) % 16).toUInt8 piece)

theorem piecesOf_chunks {payload : List UInt8} {c : ℕ} (h_cap : 2 ≤ c) :
    PiecesOf payload c (chunks (c - 1) (payload.drop (c - 2))) := by
  have h_pos : 0 < c - 1 := by omega
  refine ⟨?_, ?_, ?_, ?_⟩
  · rw [length_chunks h_pos, List.length_drop]
  · intro k piece h_piece
    exact (length_of_getElem?_chunks h_pos h_piece).2.2
  · intro piece h_piece
    rw [List.getLast?_eq_getElem?] at h_piece
    obtain ⟨h_ne, h_le, -⟩ := length_of_getElem?_chunks h_pos h_piece
    exact ⟨h_ne, h_le⟩
  · rw [chunks_flatten h_pos, List.take_append_drop]

/-- Every PDU of a list of this shape fits its frame, if there can be such a frame. -/
theorem Shape.encodesAt {payload : List UInt8} {c : ℕ} (h_cap : 2 ≤ c)
    {pdus : List ProtocolDataUnit} (h : Shape payload c pdus) {i : ℕ} {pdu : ProtocolDataUnit}
    (h_pdu : pdus[i]? = some pdu) : EncodesAt c (i + 1 < pdus.length) pdu := by
  cases h with
  | single h_short =>
    obtain ⟨h_i, rfl⟩ := List.getElem?_eq_some_iff.mp h_pdu
    obtain rfl : i = 0 := Nat.lt_one_iff.mp h_i
    -- the only one, so it need not fill its frame
    exact encodesAt_singleFrame h_cap h_short (Nat.lt_irrefl _)
  | multi pieces h_long h_pieces =>
    cases i with
    | zero =>
      obtain rfl : _ = pdu := Option.some.inj h_pdu
      refine encodesAt_firstFrame h_cap ?_ _ _
      rw [List.length_take]
      omega
    | succ i =>
      -- the PDU of the `i`-th piece
      rw [List.getElem?_cons_succ, List.getElem?_mapIdx, Option.map_eq_some_iff] at h_pdu
      obtain ⟨piece, h_piece, rfl⟩ := h_pdu
      have h_i := (List.getElem?_eq_some_iff.mp h_piece).1
      simp only [List.length_cons, List.length_mapIdx, Nat.add_lt_add_iff_right]
      refine encodesAt_consecutiveFrame h_cap ?_ _ (h_pieces.full i piece h_piece)
      rcases Nat.lt_or_ge (i + 1) pieces.length with h_lt | h_last
      · exact (h_pieces.full i piece h_piece h_lt).le
      · refine (h_pieces.last piece ?_).2
        rw [List.getLast?_eq_getElem?, show pieces.length - 1 = i by omega, h_piece]

/-- **What `segment` returns** at a capacity of at least `2`: a list of PDUs of the shape above.
Up to a capacity of `isize::MAX` they encode to frames of at most `c` bytes, and of exactly `c`
bytes but for the last one of several; above it, encoding any of them panics. -/
theorem segment_shape (payload : List UInt8) (c : ℕ) (h_cap : 2 ≤ c) :
    ∃ pdus, segment payload c = some (.ok pdus) ∧ Shape payload c pdus ∧
      ∀ i pdu, pdus[i]? = some pdu →
        (c ≤ isizeMax → FitsFrame c (i + 1 < pdus.length) pdu) ∧
        (isizeMax < c → pdu.encode c = .error .panic) := by
  have h_shape : Shape payload c (if payload.length ≤ c - 1 then [.singleFrame payload]
      else .firstFrame payload.length (payload.take (c - 2)) ::
        consecutiveFrames 1 (chunks (c - 1) (payload.drop (c - 2)))) := by
    split
    · next h_short => exact .single h_short
    · -- the sequence numbers are those of the places in the list
      next h_long =>
      have h_frames := consecutiveFrames_eq_mapIdx 1 (chunks (c - 1) (payload.drop (c - 2)))
      simp only [Nat.add_comm 1] at h_frames
      have h_first : (1 : UInt8) = sequenceNumber 1 := rfl
      rw [h_first, h_frames]
      exact .multi _ (Nat.not_le.mp h_long) (piecesOf_chunks h_cap)
  refine ⟨_, segment_eq h_cap, h_shape, fun i pdu h_pdu => ?_⟩
  have h_encodes := h_shape.encodesAt h_cap h_pdu
  exact ⟨h_encodes.fits, h_encodes.panics⟩

/-- Twenty bytes at a capacity of `8`: six in the first frame, and two full frames behind it. -/
theorem segment_shape_twenty :
    ∃ first second third, segment (List.replicate 20 7) 8 = some (.ok [first, second, third]) ∧
      FitsFrame 8 True first ∧ FitsFrame 8 True second ∧ FitsFrame 8 False third := by
  obtain ⟨pdus, h_seg, -, h_fits⟩ := segment_shape (List.replicate 20 7) 8 (by decide)
  obtain ⟨first, second, third, h_three⟩ : ∃ first second third,
      segment (List.replicate 20 7) 8 = some (.ok [first, second, third]) := ⟨_, _, _, rfl⟩
  cases h_seg.symm.trans h_three
  have h_max : 8 ≤ isizeMax := by decide
  exact ⟨first, second, third, h_three, by simpa using (h_fits 0 first rfl).1 h_max,
    by simpa using (h_fits 1 second rfl).1 h_max, by simpa using (h_fits 2 third rfl).1 h_max⟩

/-- At the largest capacity the empty payload is one single frame, which cannot be encoded. -/
theorem segment_shape_counterexample :
    ¬ ∃ pdus, segment [] (2 ^ 64 - 1) = some (.ok pdus) ∧ Shape [] (2 ^ 64 - 1) pdus ∧
      ∀ i pdu, pdus[i]? = some pdu → FitsFrame (2 ^ 64 - 1) (i + 1 < pdus.length) pdu := by
  rintro ⟨pdus, h_seg, -, h_fits⟩
  have h_single : segment [] (2 ^ 64 - 1) = some (.ok [.singleFrame []]) := by
    rw [segment_eq (by decide), List.length_nil, if_pos (Nat.zero_le _)]
  cases h_seg.symm.trans h_single
  obtain ⟨bytes, h_bytes, -⟩ := h_fits 0 _ rfl
  have h_panic : (ProtocolDataUnit.singleFrame []).encode (2 ^ 64 - 1) = .error .panic :=
    (encode_singleFrame (Nat.zero_le _)).trans (withCapacity_panic _ (by decide))
  cases h_bytes.symm.trans h_panic

/-! ### Which capacities end -/

/-- `segment` returns, and every iteration of its loop moves the offset towards the end. -/
structure Ends (payload : List UInt8) (c : ℕ) : Prop where
  /-- Some number of iterations is enough. -/
  returns : ∃ fuel result, segmentWithin fuel payload c = some result
  /-- Past the single-frame test, an iteration from any offset before the end. -/
  advances : ¬ payload.length ≤ c - 1 → ∀ offset < payload.length,
    offset < min (offset + (c - 1)) payload.length

/-- With no room in a consecutive frame, no number of iterations is enough. -/
theorem segmentWithin_eq_none {payload : List UInt8} {c : ℕ} (h_ne : payload ≠ []) (h_cap : c < 2)
    (fuel : ℕ) : segmentWithin fuel payload c = none := by
  have h_pos := List.length_pos_iff.mpr h_ne
  have h_zero : c - 1 = 0 := by omega
  have h_first : min payload.length (c - 2) < payload.length := by omega
  rw [segmentWithin, if_neg (by omega), h_zero]
  simp only [segmentLoop_zero_capacity fuel 1 h_first, Option.map_none]

/-- **When `segment` ends**: for the empty payload at any capacity, and for every payload from a
capacity of `2` on. At `0` and `1` the loop makes no progress. -/
theorem segment_ends_iff (payload : List UInt8) (c : ℕ) :
    Ends payload c ↔ payload = [] ∨ 2 ≤ c := by
  constructor
  · rintro ⟨⟨fuel, result, h_result⟩, -⟩
    -- below two, the loop takes nothing off the payload
    by_contra h_not
    obtain ⟨h_ne, h_cap⟩ := not_or.mp h_not
    rw [segmentWithin_eq_none h_ne (Nat.not_le.mp h_cap)] at h_result
    cases h_result
  · intro h
    have h_loop : ¬ payload.length ≤ c - 1 → 2 ≤ c := by
      rintro h_long
      rcases h with rfl | h_cap
      · exact absurd (Nat.zero_le _) h_long
      · exact h_cap
    -- one round for each byte is enough, and every round takes one at least
    refine ⟨⟨payload.length + 1, ?_⟩, fun h_long offset h_offset => ?_⟩
    · rcases h with rfl | h_cap
      · exact ⟨_, if_pos (Nat.zero_le _)⟩
      · exact ⟨_, segment_eq h_cap⟩
    · have h_cap := h_loop h_long
      omega

/-- One byte at a capacity of `1`: the loop adds empty frames without end. -/
theorem segment_ends_counterexample : ¬ Ends [1] 1 := by
  rintro ⟨⟨fuel, result, h_result⟩, -⟩
  rw [segmentWithin_eq_none (List.cons_ne_nil 1 []) (by decide)] at h_result
  cases h_result

end Cantools.Isotp
