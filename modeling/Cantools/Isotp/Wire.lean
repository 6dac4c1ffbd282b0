import Cantools.Framework.Bits
import Cantools.Isotp.Loss
import Cantools.Isotp.Stream

/-!
# ISO-TP frames on the wire

`ProtocolDataUnit.encode` puts a protocol control byte in front of the data. First,
consecutive and flow-control frames carry a kind tag `0x10`, `0x20`, `0x30` in its high nibble,
and mask the field that shares the byte with it. A single frame writes its length there,
unmasked and without a tag. Two questions about the wire format turn on this byte.

* *Can frames of different kinds be equal?* Yes, from a frame size of `17` on: the length of a
  single frame then reaches the tags. `Clash` is the exact condition on the two payloads, and
  `framesDistinct_iff` shows that no clash exists exactly up to a frame size of `16`.
* *Does a payload survive the wire?* On classic CAN a single frame is at most seven bytes
  long, so the kinds stay apart, and what decides is the width of the length field of a first
  frame. `encode` keeps the low twelve bits of `total_len`: a transfer arrives exactly when the
  payload is shorter than `4096` bytes (`wireTransfer_iff`), and from there on the receiver
  never hands the payload out at all.
-/

namespace Cantools.Isotp

open Transducer Chunks Channel

/-! ### The PDUs of a payload -/

/-- The kind of a PDU. -/
inductive Kind where
  | singleFrame
  | firstFrame
  | consecutiveFrame
  | flowControl
  deriving DecidableEq, Repr

/-- The constructor of a PDU. -/
def ProtocolDataUnit.kind : ProtocolDataUnit → Kind
  | .singleFrame _ => .singleFrame
  | .firstFrame _ _ => .firstFrame
  | .consecutiveFrame _ _ => .consecutiveFrame
  | .flowControl _ _ _ => .flowControl

/-- `pdu` is among the PDUs `segment` makes of the payload. -/
def Emitted (payload : List UInt8) (capacity : ℕ) (pdu : ProtocolDataUnit) : Prop :=
  ∃ pdus, segment payload capacity = some (.ok pdus) ∧ pdu ∈ pdus

theorem mem_consecutiveFrames_iff {k : ℕ} {cs : List (List UInt8)} {pdu : ProtocolDataUnit} :
    pdu ∈ consecutiveFrames (sequenceNumber k) cs ↔
      ∃ i c, cs[i]? = some c ∧ pdu = .consecutiveFrame (sequenceNumber (k + i)) c := by
  -- the number of a frame counts on from the number of the first one
  induction cs generalizing k with
  | nil => simp [consecutiveFrames]
  | cons c cs ih =>
    rw [consecutiveFrames, List.mem_cons, nextSequence_sequenceNumber, ih]
    constructor
    · rintro (rfl | ⟨i, d, h_d, rfl⟩)
      · exact ⟨0, c, rfl, rfl⟩
      · exact ⟨i + 1, d, h_d, by rw [show k + (i + 1) = k + 1 + i by omega]⟩
    · rintro ⟨i, d, h_d, rfl⟩
      cases i with
      | zero =>
        obtain rfl : c = d := by simpa using h_d
        exact .inl rfl
      | succ i => exact .inr ⟨i, d, h_d, by rw [show k + (i + 1) = k + 1 + i by omega]⟩

/-- The `k`-th piece of `payload` behind the first frame: it is not empty, and it starts where
the pieces before it end. -/
def Piece (payload : List UInt8) (capacity k : ℕ) (c : List UInt8) : Prop :=
  capacity - 2 + (capacity - 1) * k < payload.length ∧
    c = (payload.drop (capacity - 2 + (capacity - 1) * k)).take (capacity - 1)

theorem getElem?_chunks_iff {payload c : List UInt8} {capacity k : ℕ} (h_cap : 2 ≤ capacity) :
    (chunks (capacity - 1) (payload.drop (capacity - 2)))[k]? = some c ↔
      Piece payload capacity k c := by
  have h_pos : 0 < capacity - 1 := by omega
  rw [getElem?_chunks_eq_some_iff h_pos, List.length_drop, List.drop_drop, Piece,
    show (capacity - 1) * k < payload.length - (capacity - 2) ↔
      capacity - 2 + (capacity - 1) * k < payload.length by omega]

/-- **What is emitted**: a single frame for a payload that fits, and else a first frame and a
consecutive frame for every piece. -/
theorem emitted_iff {payload : List UInt8} {capacity : ℕ} (h_cap : 2 ≤ capacity)
    {pdu : ProtocolDataUnit} :
    Emitted payload capacity pdu ↔
      (payload.length ≤ capacity - 1 ∧ pdu = .singleFrame payload) ∨
      (capacity - 1 < payload.length ∧
        (pdu = .firstFrame payload.length (payload.take (capacity - 2)) ∨
          ∃ k c, Piece payload capacity k c ∧
            pdu = .consecutiveFrame (sequenceNumber (k + 1)) c)) := by
  -- `segment` has one result, so being emitted is being in that list
  have h_emitted : Emitted payload capacity pdu ↔ pdu ∈
      if payload.length ≤ capacity - 1 then [.singleFrame payload]
      else .firstFrame payload.length (payload.take (capacity - 2)) ::
        consecutiveFrames (sequenceNumber 1)
          (chunks (capacity - 1) (payload.drop (capacity - 2))) := by
    unfold Emitted
    rw [segment_eq h_cap]
    constructor
    · rintro ⟨pdus, h_pdus, h_mem⟩
      cases h_pdus
      exact h_mem
    · exact fun h_mem => ⟨_, rfl, h_mem⟩
  rw [h_emitted]
  split
  · next h_short => simp [h_short, Nat.not_lt.mpr h_short]
  · next h_long =>
    simp only [List.mem_cons, mem_consecutiveFrames_iff, getElem?_chunks_iff h_cap, h_long,
      false_and, false_or, Nat.not_le.mp h_long, true_and, Nat.add_comm 1]

/-! ### Control bytes -/

theorem toNat_length {p : List UInt8} {frameSize : ℕ} (h : p.length ≤ frameSize - 1)
    (h_max : frameSize ≤ 64) : p.length.toUInt8.toNat = p.length := by
  rw [Nat.toUInt8_eq, UInt8.toNat_ofNat']
  exact Nat.mod_eq_of_lt (by omega)

/-- The four high bits of a length field, as `encode` masks them. -/
theorem toNat_lengthHigh (n : ℕ) : ((n >>> 8) &&& 0x0f).toUInt8.toNat = n / 256 % 16 := by
  rw [Nat.toUInt8_eq, UInt8.toNat_ofNat', Nat.shiftRight_eq_div_pow,
    Nat.and_two_pow_sub_one_eq_mod _ 4]
  omega

theorem toNat_lengthLow (n : ℕ) : (n &&& 0xff).toUInt8.toNat = n % 256 := by
  rw [Nat.toUInt8_eq, UInt8.toNat_ofNat', Nat.and_two_pow_sub_one_eq_mod _ 8]
  omega

theorem toNat_firstFrame_control (n : ℕ) :
    ((0x10 : UInt8) ||| ((n >>> 8) &&& 0x0f).toUInt8).toNat = 16 + n / 256 % 16 := by
  have h_high := toNat_lengthHigh n
  rw [Bits.toNat_tag_or (by decide) (by omega), h_high]
  rfl

theorem toNat_consecutiveFrame_control (seq : UInt8) :
    ((0x20 : UInt8) ||| (seq &&& 0x0f)).toNat = 32 + seq.toNat % 16 := by
  have h_low := Bits.toNat_and_15 seq
  rw [Bits.toNat_tag_or (by decide) (by omega), h_low]
  rfl

theorem toNat_sequenceNumber (k : ℕ) : (sequenceNumber k).toNat = k % 16 := by
  rw [sequenceNumber, Nat.toUInt8_eq, UInt8.toNat_ofNat']
  omega

/-! ### Frames of different kinds -/

/-- Both PDUs encode, to different byte strings. -/
def Distinct (frameSize : ℕ) (a b : ProtocolDataUnit) : Prop :=
  ∃ x y, a.encode frameSize = .ok x ∧ b.encode frameSize = .ok y ∧ x ≠ y

theorem Distinct.symm {frameSize : ℕ} {a b : ProtocolDataUnit} (h : Distinct frameSize a b) :
    Distinct frameSize b a := by
  obtain ⟨x, y, h_x, h_y, h_ne⟩ := h
  exact ⟨y, x, h_y, h_x, h_ne.symm⟩

theorem distinct_iff_ne {frameSize : ℕ} {a b : ProtocolDataUnit} {x y : List UInt8}
    (h_x : a.encode frameSize = .ok x) (h_y : b.encode frameSize = .ok y) :
    Distinct frameSize a b ↔ x ≠ y := by
  constructor
  · rintro ⟨x', y', h_x', h_y', h_ne⟩
    cases h_x.symm.trans h_x'
    cases h_y.symm.trans h_y'
    exact h_ne
  · exact fun h_ne => ⟨x, y, h_x, h_y, h_ne⟩

/-- The PDUs of `p` and the PDUs of `q` that differ in kind differ on the wire. -/
def FramesDistinct (c : ℕ) (p q : List UInt8) : Prop :=
  ∀ a b, Emitted p c a → Emitted q c b → a.kind ≠ b.kind → Distinct c a b

theorem FramesDistinct.symm {c : ℕ} {p q : List UInt8} (h : FramesDistinct c p q) :
    FramesDistinct c q p :=
  fun a b h_a h_b h_ne => (h b a h_b h_a h_ne.symm).symm

/-- The length and the data of the short payload `p` spell the control field and the data of a
frame of the long payload `q`: of its first frame, whose length field has the tag `0x10`, or of
the consecutive frame of some piece, whose number has the tag `0x20`. -/
def Clash (c : ℕ) (p q : List UInt8) : Prop :=
  p.length ≤ c - 1 ∧ c - 1 < q.length ∧
    ((p.length = 16 + q.length / 256 % 16 ∧
        p = (q.length % 256).toUInt8 :: q.take (c - 2)) ∨
      ∃ k, Piece q c k p ∧ p.length = 32 + (k + 1) % 16)

/-- A vector can have room for a frame of CAN FD. -/
theorem le_isizeMax {c : ℕ} (h : c ≤ 64) : c ≤ isizeMax := le_trans h (by decide)

section Kinds

variable {c : ℕ} {p : List UInt8}

/-- A single frame and a first frame. -/
theorem distinct_firstFrame_iff (h_p : p.length ≤ c - 1) (h_max : c ≤ 64) (n : ℕ)
    (first : List UInt8) :
    Distinct c (.singleFrame p) (.firstFrame n first) ↔
      ¬ (p.length = 16 + n / 256 % 16 ∧ p = (n % 256).toUInt8 :: first) := by
  have h_low : (n &&& 0xff).toUInt8 = (n % 256).toUInt8 := by
    rw [Nat.and_two_pow_sub_one_eq_mod n 8]
  have h_single := (encode_singleFrame h_p).trans (withCapacity_ok _ (le_isizeMax h_max))
  rw [distinct_iff_ne h_single (encode_firstFrame (le_isizeMax h_max) _ _), Ne, List.cons.injEq,
    ← UInt8.toNat_inj, toNat_length h_p h_max, toNat_firstFrame_control, h_low]

/-- A single frame and a consecutive frame. -/
theorem distinct_consecutiveFrame_iff (h_p : p.length ≤ c - 1) (h_max : c ≤ 64) (k : ℕ)
    (piece : List UInt8) :
    Distinct c (.singleFrame p) (.consecutiveFrame (sequenceNumber k) piece) ↔
      ¬ (p.length = 32 + k % 16 ∧ p = piece) := by
  have h_single := (encode_singleFrame h_p).trans (withCapacity_ok _ (le_isizeMax h_max))
  rw [distinct_iff_ne h_single (encode_consecutiveFrame (le_isizeMax h_max) _ _), Ne,
    List.cons.injEq, ← UInt8.toNat_inj, toNat_length h_p h_max, toNat_consecutiveFrame_control,
    toNat_sequenceNumber, Nat.mod_mod]

/-- The tags of first and consecutive frames keep them apart at every frame size. -/
theorem distinct_firstFrame_consecutiveFrame (h_max : c ≤ 64) (n k : ℕ)
    (first piece : List UInt8) :
    Distinct c (.firstFrame n first) (.consecutiveFrame (sequenceNumber k) piece) := by
  rw [distinct_iff_ne (encode_firstFrame (le_isizeMax h_max) _ _)
    (encode_consecutiveFrame (le_isizeMax h_max) _ _)]
  intro h
  have h_control := congrArg UInt8.toNat (List.cons.inj h).1
  rw [toNat_firstFrame_control, toNat_consecutiveFrame_control] at h_control
  omega

end Kinds

theorem Clash.not_framesDistinct {c : ℕ} {p q : List UInt8} (h_min : 8 ≤ c) (h_max : c ≤ 64)
    (h : Clash c p q) : ¬ FramesDistinct c p q := by
  obtain ⟨h_p, h_q, h_frame⟩ := h
  intro h_all
  have h_single : Emitted p c (.singleFrame p) :=
    (emitted_iff (by omega)).mpr (.inl ⟨h_p, rfl⟩)
  -- the frame of `q` that the single frame of `p` equals is emitted, and of another kind
  rcases h_frame with ⟨h_len, h_bytes⟩ | ⟨k, h_piece, h_len⟩
  · have h_first : Emitted q c (.firstFrame q.length (q.take (c - 2))) :=
      (emitted_iff (by omega)).mpr (.inr ⟨h_q, .inl rfl⟩)
    have h_distinct := h_all _ _ h_single h_first (by simp [ProtocolDataUnit.kind])
    exact (distinct_firstFrame_iff h_p h_max _ _).mp h_distinct ⟨h_len, h_bytes⟩
  · have h_consecutive : Emitted q c (.consecutiveFrame (sequenceNumber (k + 1)) p) :=
      (emitted_iff (by omega)).mpr (.inr ⟨h_q, .inr ⟨k, p, h_piece, rfl⟩⟩)
    have h_distinct := h_all _ _ h_single h_consecutive (by simp [ProtocolDataUnit.kind])
    exact (distinct_consecutiveFrame_iff h_p h_max _ _).mp h_distinct ⟨h_len, rfl⟩

/-- Without a clash the single frame of `p` differs from every frame of another kind. -/
theorem distinct_of_not_clash {c : ℕ} {p q : List UInt8} (h_min : 8 ≤ c) (h_max : c ≤ 64)
    (h : ¬ Clash c p q) (h_p : p.length ≤ c - 1) {b : ProtocolDataUnit} (h_b : Emitted q c b)
    (h_kind : b.kind ≠ .singleFrame) : Distinct c (.singleFrame p) b := by
  -- an equal frame of each of the two other kinds would be a clash
  rcases (emitted_iff (by omega)).mp h_b with ⟨-, rfl⟩ | ⟨h_q, rfl | ⟨k, piece, h_piece, rfl⟩⟩
  · exact absurd rfl h_kind
  · rw [distinct_firstFrame_iff h_p h_max]
    exact fun h_eq => h ⟨h_p, h_q, .inl h_eq⟩
  · rw [distinct_consecutiveFrame_iff h_p h_max]
    rintro ⟨h_len, rfl⟩
    exact h ⟨h_p, h_q, .inr ⟨k, h_piece, h_len⟩⟩

theorem framesDistinct_iff_not_clash {c : ℕ} {p q : List UInt8} (h_min : 8 ≤ c)
    (h_max : c ≤ 64) : FramesDistinct c p q ↔ ¬ Clash c p q ∧ ¬ Clash c q p := by
  constructor
  · intro h
    exact ⟨fun h_clash => h_clash.not_framesDistinct h_min h_max h,
      fun h_clash => h_clash.not_framesDistinct h_min h_max h.symm⟩
  · rintro ⟨h_pq, h_qp⟩ a b h_a h_b h_kind
    rcases (emitted_iff (by omega)).mp h_a with ⟨h_p, rfl⟩ | ⟨-, h_a'⟩
    · exact distinct_of_not_clash h_min h_max h_pq h_p h_b h_kind.symm
    rcases (emitted_iff (by omega)).mp h_b with ⟨h_q, rfl⟩ | ⟨-, h_b'⟩
    · exact (distinct_of_not_clash h_min h_max h_qp h_q h_a h_kind).symm
    -- both payloads are long: the kinds are told apart by their tags
    rcases h_a' with rfl | ⟨i, piece, -, rfl⟩ <;> rcases h_b' with rfl | ⟨j, piece', -, rfl⟩
    · exact absurd rfl h_kind
    · exact distinct_firstFrame_consecutiveFrame h_max ..
    · exact (distinct_firstFrame_consecutiveFrame h_max ..).symm
    · exact absurd rfl h_kind

/-- Up to a frame size of `16` the length of a single frame stays below every tag. -/
theorem not_clash_of_le {c : ℕ} (h_max : c ≤ 16) (p q : List UInt8) : ¬ Clash c p q := by
  rintro ⟨h_p, -, ⟨h_len, -⟩ | ⟨k, -, h_len⟩⟩ <;> omega

/-- Frame sizes `17` to `32`: a single frame that fills the frame has the length `16 + x` for
some `x` below `16`, which is the control byte of a first frame of `4096 + 256 * x` bytes. -/
theorem clash_firstFrame {c : ℕ} (h_min : 17 ≤ c) (h_max : c ≤ 32) :
    Clash c (List.replicate (c - 1) 0) (List.replicate (4096 + 256 * (c - 17)) 0) := by
  refine ⟨by simp, by rw [List.length_replicate]; omega, .inl ⟨?_, ?_⟩⟩
  · simp only [List.length_replicate]
    omega
  · rw [List.length_replicate, List.take_replicate,
      show (4096 + 256 * (c - 17)) % 256 = 0 by omega,
      show min (c - 2) (4096 + 256 * (c - 17)) = c - 2 by omega,
      show c - 1 = (c - 2) + 1 by omega]
    rfl

/-- From a frame size of `33` on: a single frame of `32` bytes, and a transfer whose sixteenth
consecutive frame, which has the number `0`, is its last and carries `32` bytes. -/
theorem clash_consecutiveFrame {c : ℕ} (h_min : 33 ≤ c) :
    Clash c (List.replicate 32 0) (List.replicate (c - 2 + (c - 1) * 15 + 32) 0) := by
  refine ⟨by rw [List.length_replicate]; omega, by rw [List.length_replicate]; omega,
    .inr ⟨15, ⟨by rw [List.length_replicate]; omega, ?_⟩, by simp⟩⟩
  rw [List.drop_replicate, List.take_replicate]
  congr 1
  omega

/-- **Which frame sizes keep the kinds apart.** Two payloads have a pair of equal frames of
different kinds exactly when they clash, and some payloads do from a frame size of `17` on. -/
theorem framesDistinct_iff (c : ℕ) (h_min : 8 ≤ c) (h_max : c ≤ 64) :
    (∀ p q, FramesDistinct c p q ↔ ¬ Clash c p q ∧ ¬ Clash c q p) ∧
      ((∀ p q, FramesDistinct c p q) ↔ c ≤ 16) := by
  refine ⟨fun p q => framesDistinct_iff_not_clash h_min h_max, ?_, ?_⟩
  · intro h_all
    -- one family of payloads up to the tag `0x20`, another one from there on
    by_contra h_large
    rcases Nat.lt_or_ge 32 c with h_gt | h_le
    · exact (clash_consecutiveFrame h_gt).not_framesDistinct h_min h_max (h_all _ _)
    · exact (clash_firstFrame (by omega) h_le).not_framesDistinct h_min h_max (h_all _ _)
  · intro h_small p q
    exact (framesDistinct_iff_not_clash h_min h_max).mpr
      ⟨not_clash_of_le h_small p q, not_clash_of_le h_small q p⟩

/-- At the payload sizes of classic CAN the kinds are apart, at those of CAN FD they are not. -/
theorem framesDistinct_iff_classic_fd :
    (∀ p q, FramesDistinct 8 p q) ∧ ¬ ∀ p q, FramesDistinct 64 p q := by
  refine ⟨(framesDistinct_iff 8 (by decide) (by decide)).2.mpr (by decide), fun h_all => ?_⟩
  exact absurd ((framesDistinct_iff 64 (by decide) (by decide)).2.mp h_all) (by decide)

/-- A single frame of `33` zero bytes is, byte for byte, the first consecutive frame of a
transfer of `95` zero bytes. -/
theorem framesDistinct_fd_counterexample :
    ¬ FramesDistinct 64 (List.replicate 33 0) (List.replicate 95 0) := by
  refine Clash.not_framesDistinct (by decide) (by decide) ⟨by decide, by decide, ?_⟩
  exact .inr ⟨0, ⟨by decide, by decide⟩, by decide⟩

/-! ### Decoding -/

/-- Read a frame back by its control byte, as `encode` lays it out: the kind in the high
nibble, the length of a single frame in the low one, the length of a transfer in the low nibble
and the byte after it. -/
def decodeWire : List UInt8 → Option ProtocolDataUnit
  | [] => none
  | control :: rest =>
    let low := control &&& 0x0f
    match (control >>> 4).toNat, rest with
    | 0, _ => some (.singleFrame (rest.take low.toNat))
    | 1, lengthLow :: payload =>
      some (.firstFrame (low.toNat * 256 + lengthLow.toNat) payload)
    | 2, _ => some (.consecutiveFrame low rest)
    | 3, [blockSize, separationTimeMs] =>
      match low.toNat with
      | 0 => some (.flowControl .continueToSend blockSize separationTimeMs)
      | 1 => some (.flowControl .wait blockSize separationTimeMs)
      | 2 => some (.flowControl .overflow blockSize separationTimeMs)
      | _ => none
    | _, _ => none

/-- A PDU with its control fields cut to their width on the wire. -/
def ProtocolDataUnit.onWire : ProtocolDataUnit → ProtocolDataUnit
  | .firstFrame totalLen payload => .firstFrame (totalLen % 4096) payload
  | .consecutiveFrame sequenceNumber payload =>
    .consecutiveFrame (sequenceNumber &&& 0x0f) payload
  | pdu => pdu

/-- **One frame.** What arrives of a classic CAN frame is the PDU cut to the wire. -/
theorem decodeWire_encode {pdu : ProtocolDataUnit} {frame : List UInt8}
    (h : pdu.encode 8 = .ok frame) : decodeWire frame = some pdu.onWire := by
  have h_room : 8 ≤ isizeMax := le_isizeMax (by decide)
  cases pdu with
  | singleFrame payload =>
    simp only [ProtocolDataUnit.encode] at h
    split at h
    · cases h
    · next h_len =>
      obtain rfl := Except.ok.inj ((withCapacity_ok _ h_room).symm.trans h)
      -- the length is its own low nibble, and the high nibble is clear
      have h_byte := toNat_length (Nat.not_lt.mp h_len) (by decide)
      have h_high : (payload.length.toUInt8 >>> 4).toNat = 0 := by
        rw [Bits.toNat_shiftRight_4, h_byte]
        omega
      have h_low : (payload.length.toUInt8 &&& 0x0f).toNat = payload.length := by
        rw [Bits.toNat_and_15, h_byte]
        omega
      simp only [decodeWire, h_high, h_low, List.take_length]
      rfl
  | firstFrame totalLen payload =>
    -- the field loses everything above its twelve bits
    obtain rfl := Except.ok.inj ((encode_firstFrame h_room _ _).symm.trans h)
    have h_control := toNat_firstFrame_control totalLen
    have h_high : (((0x10 : UInt8) ||| ((totalLen >>> 8) &&& 0x0f).toUInt8) >>> 4).toNat = 1 := by
      rw [Bits.toNat_shiftRight_4, h_control]
      omega
    have h_low : (((0x10 : UInt8) ||| ((totalLen >>> 8) &&& 0x0f).toUInt8) &&& 0x0f).toNat
        = totalLen / 256 % 16 := by
      rw [Bits.toNat_and_15, h_control]
      omega
    have h_total : totalLen / 256 % 16 * 256 + totalLen % 256 = totalLen % 4096 := by omega
    simp only [decodeWire, h_high, h_low, toNat_lengthLow, h_total]
    rfl
  | consecutiveFrame seq payload =>
    obtain rfl := Except.ok.inj ((encode_consecutiveFrame h_room _ _).symm.trans h)
    have h_control := toNat_consecutiveFrame_control seq
    have h_high : (((0x20 : UInt8) ||| (seq &&& 0x0f)) >>> 4).toNat = 2 := by
      rw [Bits.toNat_shiftRight_4, h_control]
      omega
    have h_low : ((0x20 : UInt8) ||| (seq &&& 0x0f)) &&& 0x0f = seq &&& 0x0f := by
      apply UInt8.toNat_inj.mp
      rw [Bits.toNat_and_15, Bits.toNat_and_15, h_control]
      omega
    simp only [decodeWire, h_high, h_low]
    rfl
  | flowControl status blockSize separationTimeMs =>
    obtain rfl := Except.ok.inj h
    cases status <;> rfl

theorem onWire_firstFrame {n : ℕ} (h : n < 4096) (p : List UInt8) :
    (ProtocolDataUnit.firstFrame n p).onWire = .firstFrame n p :=
  congrArg (ProtocolDataUnit.firstFrame · p) (Nat.mod_eq_of_lt h)

/-- The numbers `segment` gives the consecutive frames fit their nibble. -/
theorem onWire_consecutiveFrames (k : ℕ) (cs : List (List UInt8)) :
    (consecutiveFrames (sequenceNumber k) cs).map ProtocolDataUnit.onWire
      = consecutiveFrames (sequenceNumber k) cs := by
  induction cs generalizing k with
  | nil => rfl
  | cons c cs ih =>
    have h_low : sequenceNumber k &&& 0x0f = sequenceNumber k := by
      apply UInt8.toNat_inj.mp
      rw [Bits.toNat_and_15, toNat_sequenceNumber, Nat.mod_mod]
    rw [consecutiveFrames, List.map_cons, nextSequence_sequenceNumber, ih,
      ProtocolDataUnit.onWire, h_low]

/-! ### A transfer over the wire -/

/-- Encode a stream of PDUs for classic CAN. -/
def Encodes (pdus : List ProtocolDataUnit) (frames : List (List UInt8)) : Prop :=
  List.Forall₂ (fun pdu frame => pdu.encode 8 = .ok frame) pdus frames

/-- The PDUs read back from a stream of frames. -/
def Decodes (frames : List (List UInt8)) (pdus : List ProtocolDataUnit) : Prop :=
  List.Forall₂ (fun frame pdu => decodeWire frame = some pdu) frames pdus

/-- **A transfer over classic CAN.** If the payload can be segmented and every PDU encoded, the
frames can be decoded, a default reassembler accepts what is decoded without an error, and the
last frame hands out the payload. -/
def WireTransfer (payload : List UInt8) : Prop :=
  ∀ pdus frames, segment payload 8 = some (.ok pdus) → Encodes pdus frames →
    ∃ decoded, Decodes frames decoded ∧
      (∀ answer ∈ outputs Reassembler.ingest {} decoded, ∃ r, answer = .ok r) ∧
      (outputs Reassembler.ingest {} decoded).getLast? = some (.ok (some payload))

theorem decodes_iff {pdus decoded : List ProtocolDataUnit} {frames : List (List UInt8)}
    (h : Encodes pdus frames) :
    Decodes frames decoded ↔ decoded = pdus.map ProtocolDataUnit.onWire := by
  unfold Encodes at h
  unfold Decodes
  -- frame by frame, along `Encodes`
  induction h generalizing decoded with
  | nil => simp
  | cons h_frame _ ih =>
    rw [List.forall₂_cons_left_iff, List.map_cons]
    simp only [decodeWire_encode h_frame, Option.some.injEq, ih]
    constructor
    · rintro ⟨pdu, decoded, rfl, rfl, rfl⟩
      rfl
    · rintro rfl
      exact ⟨_, _, rfl, rfl, rfl⟩

/-- Every PDU that `segment` makes for classic CAN can be encoded. -/
theorem exists_encodes {payload : List UInt8} {pdus : List ProtocolDataUnit}
    (h_seg : segment payload 8 = some (.ok pdus)) : ∃ frames, Encodes pdus frames := by
  have h_room : 8 ≤ isizeMax := le_isizeMax (by decide)
  -- only a single frame can be refused, and `segment` makes none that is too long
  have h_each : ∀ pdu ∈ pdus, ∃ frame, pdu.encode 8 = .ok frame := by
    intro pdu h_mem
    rcases (emitted_iff (by decide)).mp ⟨pdus, h_seg, h_mem⟩ with ⟨h_len, rfl⟩ |
        ⟨-, rfl | ⟨k, c, -, rfl⟩⟩
    · exact ⟨_, (encode_singleFrame h_len).trans (withCapacity_ok _ h_room)⟩
    · exact ⟨_, encode_firstFrame h_room _ _⟩
    · exact ⟨_, encode_consecutiveFrame h_room _ _⟩
  clear h_seg
  induction pdus with
  | nil => exact ⟨[], .nil⟩
  | cons pdu pdus ih =>
    obtain ⟨frame, h_frame⟩ := h_each pdu (List.mem_cons_self ..)
    obtain ⟨frames, h_frames⟩ := ih fun q h_q => h_each q (List.mem_cons_of_mem _ h_q)
    exact ⟨frame :: frames, .cons h_frame h_frames⟩

theorem delivery_ok {payload : List UInt8} {pdus : List ProtocolDataUnit} {answer : Outcome}
    (h : answer ∈ delivery payload pdus) : ∃ r, answer = .ok r := by
  rcases List.mem_append.mp h with h | h
  · exact ⟨_, List.eq_of_mem_replicate h⟩
  · exact ⟨_, List.mem_singleton.mp h⟩

/-- Nothing is lost on the wire of a payload below `4096` bytes. -/
theorem onWire_segment {payload : List UInt8} {pdus : List ProtocolDataUnit}
    (h_seg : segment payload 8 = some (.ok pdus)) (h_len : payload.length < 4096) :
    pdus.map ProtocolDataUnit.onWire = pdus := by
  rw [segment_eq (by decide), Option.some.injEq, Except.ok.injEq] at h_seg
  split at h_seg
  · subst h_seg
    rfl
  · subst h_seg
    rw [List.map_cons, onWire_firstFrame h_len]
    exact congrArg _ (onWire_consecutiveFrames 1 _)

theorem wireTransfer_of_lt {payload : List UInt8} (h_len : payload.length < 4096) :
    WireTransfer payload := by
  intro pdus frames h_seg h_frames
  have h_out := (segment_delivers (by decide) h_seg {}).1
  refine ⟨pdus, ?_, ?_, ?_⟩
  · rw [decodes_iff h_frames, onWire_segment h_seg h_len]
  · intro answer h_mem
    rw [h_out] at h_mem
    exact delivery_ok h_mem
  · rw [h_out, delivery, List.getLast?_concat]

/-- **A wrapped length.** Of a payload of `4096` bytes or more nothing is handed out but
prefixes of less than `4096` bytes: the receiver's transfer has the announced length
`payload.len() % 4096`. -/
theorem length_lt_of_onWire {payload x : List UInt8} {pdus : List ProtocolDataUnit}
    (h_seg : segment payload 8 = some (.ok pdus)) (h_len : 4096 ≤ payload.length)
    (h_out : .ok (some x) ∈
      outputs Reassembler.ingest {} (pdus.map ProtocolDataUnit.onWire)) :
    x.length < 4096 := by
  rw [outputs_ingest Represents.initial] at h_out
  rw [segment_eq (by decide), if_neg (by omega), Option.some.injEq, Except.ok.injEq] at h_seg
  -- the frames are those of `segment`, the first with the length cut to twelve bits
  subst h_seg
  have h_total : payload.length % 4096 < 4096 := Nat.mod_lt _ (by decide)
  rw [List.map_cons, ProtocolDataUnit.onWire,
    show (1 : UInt8) = sequenceNumber 1 from rfl, onWire_consecutiveFrames, outputs_cons] at h_out
  rcases List.mem_cons.mp h_out with h_first | h_rest
  · -- the announced length can be covered by the first frame already
    obtain ⟨-, rfl⟩ := Transfer.delivered_eq_some_iff.mp (Except.ok.inj h_first.symm)
    exact Nat.lt_of_le_of_lt (List.length_take_le _ _) h_total
  · -- and every later delivery is a prefix of the announced, wrapped length
    have h_part : Partial (payload.length % 4096) (payload.take (8 - 2)) []
        (Transfer.step none
          (.firstFrame (payload.length % 4096) (payload.take (8 - 2)))).2 :=
      ⟨rfl, rfl, List.Sublist.refl _⟩
    obtain ⟨acc, -, -, rfl⟩ := Partial.run (Lossy.refl _) h_part h_rest
    exact Nat.lt_of_le_of_lt (List.length_take_le _ _) h_total

theorem not_wireTransfer_of_le {payload : List UInt8} (h_len : 4096 ≤ payload.length) :
    ¬ WireTransfer payload := by
  intro h
  obtain ⟨pdus, h_seg⟩ : ∃ pdus, segment payload 8 = some (.ok pdus) :=
    ⟨_, segment_eq (by decide)⟩
  obtain ⟨frames, h_frames⟩ := exists_encodes h_seg
  obtain ⟨decoded, h_decoded, -, h_last⟩ := h pdus frames h_seg h_frames
  rw [decodes_iff h_frames] at h_decoded
  subst h_decoded
  have h_short := length_lt_of_onWire h_seg h_len (List.mem_of_getLast? h_last)
  omega

/-- **Which payloads survive the wire**: those whose length fits the twelve bits of the length
field. -/
theorem wireTransfer_iff (payload : List UInt8) :
    WireTransfer payload ↔ payload.length < 4096 := by
  constructor
  · intro h
    by_contra h_long
    exact not_wireTransfer_of_le (Nat.not_lt.mp h_long) h
  · exact wireTransfer_of_lt

/-- The first length the field cannot carry: it is sent as a transfer of `0` bytes. -/
theorem wireTransfer_counterexample : ¬ WireTransfer (List.replicate 4096 0) :=
  not_wireTransfer_of_le (by rw [List.length_replicate])

end Cantools.Isotp
