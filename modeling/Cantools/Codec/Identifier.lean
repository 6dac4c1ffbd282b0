import Cantools.Codec.Blf
import Cantools.Codec.Mf4

/-!
# Identifiers that other programs stored

The two binary readers rebuild an identifier from a 32-bit field and a flag for the extended
format. `ReadsId` is what a reader may do with such a field: return the identifier that is in it,
or an error, and an error in any case where the field is above the standard identifiers and the
flag is clear.

Both readers narrow a standard field to 16 bits before its range is checked. A field of this
program's own writers has no bits above, but one of another program may: where its low 16 bits
are in range again, another identifier is returned. `Kept` is the exact condition under which this
does not happen (`readers_readId_iff`).
-/

namespace Cantools.Codec

open Buffer Chunks LittleEndian Program

/-! ### Rebuilding an identifier -/

/-- What a reader may make of a stored identifier. -/
structure ReadsId (extended : Bool) (stored : UInt32) (read : Run CodecError CanId) : Prop where
  noPanic : read ≠ .error .panic
  same : ∀ id, read = .ok id → id.raw = stored ∧ id.isExtended = extended
  /-- A standard identifier out of range is an error. -/
  rejected : extended = false → 0x7ff < stored →
    ∃ value kind, read = .error (.error (.core (.invalidCanId value kind)))

/-- The identifier is still out of range, or the same, when a standard one is narrowed to 16
bits. -/
def Kept (extended : Bool) (stored : UInt32) : Prop :=
  extended = true ∨ stored.toNat < 2 ^ 16 ∨ 0x7ff < stored.toNat % 2 ^ 16

/-- The identifier of a field, as both readers rebuild it. -/
def rebuildId (extended : Bool) (stored : UInt32) : Except CodecError CanId :=
  liftCore (if extended then CanId.extended stored else CanId.standard stored.toUInt16)

theorem rebuildId_extended (stored : UInt32) :
    (∃ id, rebuildId true stored = .ok id ∧ id.raw = stored ∧ id.isExtended = true) ∨
      ∃ value kind, rebuildId true stored = .error (.core (.invalidCanId value kind)) := by
  rw [rebuildId, if_pos rfl, CanId.extended]
  split
  · exact .inr ⟨_, _, rfl⟩
  · exact .inl ⟨_, rfl, rfl, rfl⟩

/-- A standard field gives the identifier of its low 16 bits, if they are in range. -/
theorem rebuildId_standard (stored : UInt32) :
    (stored.toNat % 2 ^ 16 ≤ 0x7ff ∧ ∃ id, rebuildId false stored = .ok id ∧
      id.raw.toNat = stored.toNat % 2 ^ 16 ∧ id.isExtended = false) ∨
    (0x7ff < stored.toNat % 2 ^ 16 ∧
      ∃ value kind, rebuildId false stored = .error (.core (.invalidCanId value kind))) := by
  have h_low : stored.toUInt16.toNat = stored.toNat % 2 ^ 16 := UInt32.toNat_toUInt16 stored
  rw [rebuildId, if_neg Bool.false_ne_true, CanId.standard]
  split
  · next h =>
    rw [gt_iff_lt, UInt16.lt_iff_toNat_lt, h_low] at h
    exact .inr ⟨h, _, _, rfl⟩
  · next h =>
    rw [gt_iff_lt, UInt16.lt_iff_toNat_lt, h_low, Nat.not_lt] at h
    refine .inl ⟨h, _, rfl, ?_, rfl⟩
    rw [UInt16.toNat_toUInt32, h_low]

/-- **The narrowing.** A reader that goes on behind the identifier, and fails there for other
reasons only, reads it properly exactly where narrowing does no harm. -/
theorem readsId_iff {extended : Bool} {stored : UInt32} {next : CanId → Run CodecError CanId}
    (h_next : ∀ id, next id = .ok id ∨
      ∃ e, next id = .error (.error e) ∧ ∀ value kind, e ≠ .core (.invalidCanId value kind)) :
    ReadsId extended stored (orFail (rebuildId extended stored) >>= next) ↔
      Kept extended stored := by
  -- an identifier that is rebuilt: the reader returns it, or fails behind it
  have h_rebuilt : ∀ id : CanId, id.raw = stored → id.isExtended = extended →
      (extended = false → ¬ 0x7ff < stored) → ReadsId extended stored (next id) := by
    intro id h_raw h_ext h_range
    have h_rejected : extended = false → 0x7ff < stored → ∃ value kind,
        next id = .error (.error (.core (.invalidCanId value kind))) :=
      fun h_std h_gt => absurd h_gt (h_range h_std)
    refine ⟨fun h_panic => ?_, fun read h_read => ?_, h_rejected⟩
    · rcases h_next id with h | ⟨e, h, -⟩ <;> cases h.symm.trans h_panic
    · rcases h_next id with h | ⟨e, h, -⟩
      · cases h.symm.trans h_read
        exact ⟨h_raw, h_ext⟩
      · cases h.symm.trans h_read
  -- an identifier that is refused: that is the error which is asked for
  have h_error : ∀ (value : UInt32) (kind : String) (read : Run CodecError CanId),
      read = .error (.error (.core (.invalidCanId value kind))) →
        ReadsId extended stored read := by
    rintro value kind read rfl
    exact ⟨nofun, nofun, fun _ _ => ⟨value, kind, rfl⟩⟩
  cases extended with
  | true =>
    -- every extended identifier is kept, or refused for its range
    refine ⟨fun _ => .inl rfl, fun _ => ?_⟩
    rcases rebuildId_extended stored with ⟨id, h_id, h_raw, h_ext⟩ | ⟨value, kind, h_id⟩
    · rw [h_id, orFail_ok, ok_bind]
      exact h_rebuilt id h_raw h_ext (fun h => nomatch h)
    · rw [h_id]
      exact h_error value kind _ rfl
  | false =>
    rcases rebuildId_standard stored with ⟨h_low, id, h_id, h_raw, h_ext⟩ |
      ⟨h_low, value, kind, h_id⟩
    · -- the low bits are in range: this is right exactly if there are no others
      rw [h_id, orFail_ok, ok_bind]
      constructor
      · intro h_reads
        by_contra h_not
        obtain ⟨-, h_high, -⟩ : ¬ false = true ∧ ¬ stored.toNat < 2 ^ 16 ∧
            ¬ 0x7ff < stored.toNat % 2 ^ 16 := by
          simpa only [Kept, not_or] using h_not
        have h_gt : 0x7ff < stored := UInt32.lt_iff_toNat_lt.mpr (by
          show 2047 < stored.toNat
          omega)
        -- a refusal would have to come from behind the identifier
        obtain ⟨value, kind, h_rejected⟩ := h_reads.rejected rfl h_gt
        rcases h_next id with h | ⟨e, h, h_other⟩
        · rw [h] at h_rejected
          cases h_rejected
        · rw [h] at h_rejected
          cases h_rejected
          exact h_other value kind rfl
      · intro h_kept
        have h_small : stored.toNat < 2 ^ 16 := by
          rcases h_kept with h | h | h
          · cases h
          · exact h
          · omega
        rw [Nat.mod_eq_of_lt h_small] at h_raw h_low
        refine h_rebuilt id (UInt32.toNat_inj.mp h_raw) h_ext fun _ => ?_
        exact UInt32.not_lt.mpr (UInt32.le_iff_toNat_le.mpr h_low)
    · rw [h_id]
      exact ⟨fun _ => .inr (.inr h_low), fun _ => h_error value kind _ rfl⟩

/-! ### The two readers -/

/-- The test of a flag word decides the format. -/
theorem rebuildId_decide (extended : Prop) [Decidable extended] (stored : UInt32) :
    rebuildId extended stored = liftCore
      (if extended then CanId.extended stored else CanId.standard stored.toUInt16) := by
  by_cases h : extended <;> simp [rebuildId, h]

/-- The identifier of a BLF message. -/
theorem decodeId_eq (raw : UInt32) :
    Blf.decodeId raw = rebuildId (raw &&& Blf.canFlagExtended ≠ 0) (raw &&& 0x1fffffff) := by
  rw [rebuildId_decide, Blf.decodeId]
  split <;> rfl

/-- `can_id` of an MF4 record -/
def storedId (record : List UInt8) : UInt32 := toU32 (slice record 8 12)

/-- The extended flag of an MF4 record. -/
def storedExtended (record : List UInt8) : Bool :=
  toU16 (slice record 12 14) &&& Mf4.flagExtendedId ≠ 0

/-- **An MF4 record** has all its fields, so its identifier is rebuilt first, and only the frame
may fail behind it. -/
theorem decodeRecord_eq (record : FixedArray UInt8 Mf4.recordSize) :
    ∃ (class' : FrameClass) (data : List UInt8) (fd : Bool) (fdFlags : FdFlags)
      (event : CanFrame → CaptureEvent), (∀ frame, (event frame).frame = frame) ∧
      Mf4.decodeRecord record.val
        = orFail (rebuildId (storedExtended record.val) (storedId record.val)) >>= fun id =>
          orFail (liftCore (CanFrame.new id class' data fd fdFlags)) >>= fun frame =>
          .ok (event frame) := by
  obtain ⟨bytes, h_len⟩ := record
  have h_len : bytes.length = 116 := h_len
  -- all ranges lie in the record, so only the constructors can fail
  have r_range : ∀ a b, a ≤ b → b ≤ 116 → range bytes a b = some (slice bytes a b) :=
    fun a b h_le h_b => range_eq_some h_le (h_len ▸ h_b)
  obtain ⟨len, r_len⟩ : ∃ len, bytes[18]? = some len :=
    ⟨_, List.getElem?_eq_getElem (by rw [h_len]; decide)⟩
  have r_data := r_range 52 (52 + min len.toNat 64) (Nat.le_add_right ..) (by omega)
  let flags := toU16 (slice bytes 12 14)
  let name := Mf4.decodeName (slice bytes 20 (20 + Mf4.interfaceNameLen))
  -- what follows from the flags, the length and the name, whatever the identifier is
  refine ⟨if flags &&& Mf4.flagError ≠ 0 then .error
      else if flags &&& Mf4.flagRemote ≠ 0 then .remote else .data,
    slice bytes 52 (52 + min len.toNat 64), flags &&& Mf4.flagFd ≠ 0,
    ⟨flags &&& Mf4.flagBrs ≠ 0, flags &&& Mf4.flagEsi ≠ 0⟩,
    CaptureEvent.new (nsToTimestamp (toU64 (slice bytes 0 8)))
      ⟨if name.isEmpty then none else some name, some (toU32 (slice bytes 14 18))⟩
      (if flags &&& Mf4.flagDirectionTx ≠ 0 then .tx else .rx), fun frame => rfl, ?_⟩
  simp only [Mf4.decodeRecord, r_range 0 8 (by decide) (by decide),
    r_range 8 12 (by decide) (by decide), r_range 12 14 (by decide) (by decide),
    r_range 14 18 (by decide) (by decide), r_range 20 (20 + Mf4.interfaceNameLen) (by decide)
    (by decide), r_len, r_data, orPanic_some, ok_bind, storedExtended, rebuildId_decide]
  rfl

/-- A frame fails for its length only. -/
theorem newFrame_id (id : CanId) (class' : FrameClass) (data : List UInt8) (fd : Bool)
    (fdFlags : FdFlags) {event : CanFrame → CaptureEvent}
    (h_event : ∀ frame, (event frame).frame = frame) :
    let read : Run CodecError CanId :=
      (orFail (liftCore (CanFrame.new id class' data fd fdFlags)) >>= fun frame =>
        .ok (event frame)).map (·.frame.id)
    read = .ok id ∨
      ∃ e, read = .error (.error e) ∧ ∀ value kind, e ≠ .core (.invalidCanId value kind) := by
  simp only [CanFrame.new]
  split
  · exact .inr ⟨_, rfl, nofun⟩
  · refine .inl (congrArg Except.ok ?_)
    show (event _).frame.id = id
    rw [h_event]

theorem readsId_decodeId_iff (raw : UInt32) :
    ReadsId (raw &&& Blf.canFlagExtended ≠ 0) (raw &&& 0x1fffffff) (orFail (Blf.decodeId raw)) ↔
      Kept (raw &&& Blf.canFlagExtended ≠ 0) (raw &&& 0x1fffffff) := by
  rw [decodeId_eq, ← @readsId_iff _ _ .ok fun id => .inl rfl]
  cases rebuildId (raw &&& Blf.canFlagExtended ≠ 0) (raw &&& 0x1fffffff) <;> rfl

theorem readsId_decodeRecord_iff (record : FixedArray UInt8 Mf4.recordSize) :
    ReadsId (storedExtended record.val) (storedId record.val)
        ((Mf4.decodeRecord record.val).map (·.frame.id)) ↔
      Kept (storedExtended record.val) (storedId record.val) := by
  obtain ⟨class', data, fd, fdFlags, event, h_event, h_decode⟩ := decodeRecord_eq record
  rw [h_decode, ← readsId_iff fun id => newFrame_id id class' data fd fdFlags h_event]
  cases rebuildId (storedExtended record.val) (storedId record.val) <;> rfl

/-- **Which identifiers the readers keep apart**, for every identifier word of a BLF message and
every MF4 record. -/
theorem readers_readId_iff (raw : UInt32) (record : FixedArray UInt8 Mf4.recordSize) :
    (ReadsId (raw &&& Blf.canFlagExtended ≠ 0) (raw &&& 0x1fffffff) (orFail (Blf.decodeId raw)) ↔
      Kept (raw &&& Blf.canFlagExtended ≠ 0) (raw &&& 0x1fffffff)) ∧
    (ReadsId (storedExtended record.val) (storedId record.val)
        ((Mf4.decodeRecord record.val).map (·.frame.id)) ↔
      Kept (storedExtended record.val) (storedId record.val)) :=
  ⟨readsId_decodeId_iff raw, readsId_decodeRecord_iff record⟩

/-- A standard identifier field of `0x10123`, in a BLF message and in an MF4 record: both readers
return `0x123`. -/
theorem readers_readId_counterexample :
    ¬ ReadsId (0x10123 &&& Blf.canFlagExtended ≠ 0) (0x10123 &&& 0x1fffffff)
        (orFail (Blf.decodeId 0x10123)) ∧
      ∃ record : FixedArray UInt8 Mf4.recordSize,
        ¬ ReadsId (storedExtended record.val) (storedId record.val)
          ((Mf4.decodeRecord record.val).map (·.frame.id)) := by
  have h_not : ¬ Kept false 0x10123 := by
    rintro (h | h | h)
    · cases h
    · exact absurd h (by decide)
    · exact absurd h (by decide)
  refine ⟨fun h => h_not ((readsId_decodeId_iff _).mp h),
    ⟨List.replicate 8 0 ++ [0x23, 0x01, 0x01, 0x00] ++ List.replicate 104 0, rfl⟩, fun h => ?_⟩
  exact h_not ((readsId_decodeRecord_iff _).mp h)

end Cantools.Codec
