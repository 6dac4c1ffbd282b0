import Cantools.Codec.Mf4
import Cantools.Framework.Clip

/-!
# The MF4 round trip

Writing events and reading the file back returns the same number of events in the same order
(`mf4_roundTrip`). What a record keeps of its event is the event but for its interface and its
annotations (`stored`); the interface survives when the name fits its field and the index is
known (`Recordable`), and then the writer is silent about the event.
-/

namespace Cantools.Codec.Mf4

open Buffer Chunks LittleEndian Program

/-! ### One record -/

/-- The interface name as its padded field has it. -/
def storedName (event : CaptureEvent) : String :=
  let name := (nameBytes event).take interfaceNameLen
  decodeName (name ++ List.replicate (interfaceNameLen - name.length) 0)

/-- What a record keeps of its event. -/
def stored (event : CaptureEvent) : CaptureEvent :=
  { event with
    interface :=
      { name := if (storedName event).isEmpty then none else some (storedName event)
        index := some (event.interface.index.getD 0) }
    annotations := [] }

/-- The class is rebuilt from its two flags. -/
theorem decodeClass_eq (class' : FrameClass) :
    (if class' = .error then FrameClass.error
      else if class' = .remote then .remote else .data) = class' := by
  cases class' <;> rfl

/-- The field of the payload: its bytes, and the blank behind them. -/
theorem range_data (event : CaptureEvent) :
    range (recordBytes event) 52 (52 + (event.frame.data.take 64).length)
      = some (event.frame.data.take 64) := by
  have h_name : ((nameBytes event).take interfaceNameLen).length ≤ 32 := List.length_take_le ..
  -- seven fields stand before the payload, and the blank behind it
  have h_split : recordBytes event = ((recordFields event).take 7 ++ event.frame.data.take 64 ::
      [List.replicate (64 - (event.frame.data.take 64).length) 0]).flatten := by
    simp [recordBytes, recordFields]
  rw [h_split]
  refine range_flatten _ _ _ ?_ rfl
  simp [recordFields, interfaceNameLen]

/-- What a record gives back of its event: what it keeps, at the time its nanoseconds stand for. -/
def normalised (event : CaptureEvent) : CaptureEvent :=
  { timestamp := nsToTimestamp (timestampToNs event.timestamp)
    interface :=
      { name := if (storedName event).isEmpty then none else some (storedName event)
        index := some (event.interface.index.getD 0) }
    direction := event.direction
    frame := event.frame
    annotations := [] }

theorem normalised_of_fits {event : CaptureEvent} (h_fits : Timestamp.Fits event.timestamp) :
    normalised event = stored event := by
  rw [normalised, stored, h_fits.nsToTimestamp]

/-- **One record.** A record of an event with a valid frame decodes to what it gives back. -/
theorem decodeRecord_recordBytes {event : CaptureEvent} (h_valid : event.frame.Valid) :
    decodeRecord (recordBytes event) = .ok (normalised event) := by
  -- the length byte is the length, as no valid payload is longer than `64`
  have h_len : min ((min event.frame.data.length 64).toUInt8).toNat 64
      = event.frame.data.length := by
    have := h_valid.length_le
    rw [Nat.toUInt8_eq, UInt8.toNat_ofNat']
    omega
  obtain ⟨h_tx, h_remote, h_error, h_fd, h_brs, h_esi, h_ext⟩ := flagWord_flags
    (event.direction = .tx) (event.frame.class' = .remote) (event.frame.class' = .error)
    event.frame.fd event.frame.fdFlags.bitRateSwitch event.frame.fdFlags.errorStateIndicator
    event.frame.id.isExtended
  -- every field is read at its place
  have r_ts : range (recordBytes event) 0 8 = some (ofU64 (timestampToNs event.timestamp)) :=
    range_flatten [] _ _ rfl (by simp)
  have r_id : range (recordBytes event) 8 12 = some (ofU32 event.frame.id.raw) :=
    range_flatten [_] _ _ (by simp) (by simp)
  have r_flags : range (recordBytes event) 12 14 = some (ofU16 (encodeFlags event)) :=
    range_flatten [_, _] _ _ (by simp) (by simp)
  have r_index : range (recordBytes event) 14 18
      = some (ofU32 (event.interface.index.getD 0)) :=
    range_flatten [_, _, _] _ _ (by simp) (by simp)
  have r_len : (recordBytes event)[18]? = some (min event.frame.data.length 64).toUInt8 :=
    getElem?_flatten [_, _, _, _] _ _ (by simp)
  have r_name : range (recordBytes event) 20 (20 + interfaceNameLen)
      = some ((nameBytes event).take interfaceNameLen ++ List.replicate
          (interfaceNameLen - ((nameBytes event).take interfaceNameLen).length) 0) :=
    range_flatten [_, _, _, _, _, _] _ _ (by simp) (by simp [interfaceNameLen])
  have r_data := range_data event
  rw [List.take_of_length_le h_valid.length_le] at r_data
  simp only [decodeRecord, r_ts, r_id, r_flags, r_index, r_len, r_name, orPanic_some, ok_bind,
    toU64_ofU64, toU32_ofU32, toU16_ofU16, h_len, r_data, encodeFlags, h_tx, h_remote, h_error,
    h_fd, h_brs, h_esi, h_ext, decide_eq_true_eq, Bool.decide_eq_true]
  rw [CanId.rebuild, liftCore_ok, orFail_ok, ok_bind, decodeClass_eq, Direction.rebuild,
    h_valid.new_eq, liftCore_ok, orFail_ok, ok_bind]
  rw [normalised]
  rfl

/-! ### The interface name -/

/-- A padded field is read up to the first zero byte of the name. -/
theorem decodeName_padded (name : List UInt8) (padding : ℕ) :
    decodeName (name ++ List.replicate padding 0)
      = String.ofList (Utf8.decodeLossy (name.takeWhile (· != 0))) := by
  have h_while : ∀ raw : List UInt8,
      raw.take (raw.findIdx (· == 0)) = raw.takeWhile (· != 0) := by
    intro raw
    rw [List.takeWhile_eq_take_findIdx_not]
    simp only [bne, Bool.not_not]
  have h_padding : (List.replicate padding (0 : UInt8)).takeWhile (· != 0) = [] := by
    rw [List.takeWhile_replicate]
    rfl
  rw [decodeName, h_while, List.takeWhile_append, h_padding]
  -- a name without a zero byte ends where the padding starts
  split
  · next h_all =>
    have h_name : name.takeWhile (· != 0) = name :=
      (List.takeWhile_prefix _).eq_of_length h_all
    rw [List.append_nil, h_name]
  · rfl

/-- **The stored name** is the clipped one, up to its first zero character. -/
theorem storedName_eq (event : CaptureEvent) :
    storedName event = String.ofList (Utf8.clip interfaceNameLen
      ((event.interface.name.getD "").toList.takeWhile (· != '\x00'))) := by
  rw [storedName, decodeName_padded, nameBytes, Utf8.decodeLossy_takeWhile_take]

/-! ### Interfaces that survive -/

/-- The index is known, the name is unknown or fits its field, and there are no annotations. -/
structure Recordable (event : CaptureEvent) : Prop where
  index : event.interface.index.isSome
  name : ∀ name, event.interface.name = some name →
    name ≠ "" ∧ (Utf8.encode name.toList).length ≤ interfaceNameLen ∧ '\x00' ∉ name.toList
  annotations : event.annotations = []

/-- **The name.** A name that fits its field is the one stored, and an unknown name is stored as
the empty one. -/
theorem Recordable.storedName {event : CaptureEvent} (h : Recordable event) :
    storedName event = event.interface.name.getD "" := by
  have h_fits : (nameBytes event).length ≤ interfaceNameLen ∧
      '\x00' ∉ (event.interface.name.getD "").toList := by
    rw [nameBytes]
    cases h_name : event.interface.name with
    | none => exact ⟨by decide, by decide⟩
    | some name =>
      obtain ⟨-, h_len, h_zero⟩ := h.name name h_name
      exact ⟨h_len, h_zero⟩
  rw [storedName_eq, Utf8.takeWhile_of_notMem h_fits.2, Utf8.clip_of_le h_fits.1,
    String.ofList_toList]

theorem Recordable.stored {event : CaptureEvent} (h : Recordable event) :
    stored event = event := by
  have h_index : some (event.interface.index.getD 0) = event.interface.index := by
    obtain ⟨i, h_i⟩ := Option.isSome_iff_exists.mp h.index
    rw [h_i]
    rfl
  -- an empty name is read back as none, and no name here is empty
  have h_name : (if (Mf4.storedName event).isEmpty then none else some (Mf4.storedName event))
      = event.interface.name := by
    rw [h.storedName]
    cases h_name : event.interface.name with
    | none => rfl
    | some name =>
      have h_ne := String.isEmpty_eq_false_iff.mpr (h.name name h_name).1
      simp [h_ne]
  rw [Mf4.stored, h_index, h_name, ← h.annotations]

/-- What is noted about an event: its annotations, and a name that is too long. -/
theorem recordNotes_eq_nil_iff {event : CaptureEvent} {index : ℕ} :
    recordNotes event index = [] ↔
      event.annotations = [] ∧ (nameBytes event).length ≤ interfaceNameLen := by
  rw [recordNotes, List.append_eq_nil_iff, and_comm, noteIf_eq_nil_iff, noteIf_eq_nil_iff, not_not,
    Nat.not_lt]

/-- Nothing is lost, and nothing is noted. -/
theorem Recordable.recordNotes {event : CaptureEvent} (h : Recordable event) (index : ℕ) :
    recordNotes event index = [] := by
  refine recordNotes_eq_nil_iff.mpr ⟨h.annotations, ?_⟩
  rw [nameBytes]
  cases h_name : event.interface.name with
  | none => decide
  | some name => exact (h.name name h_name).2.1

theorem eventIndex_of_mem_recordNotes {event : CaptureEvent} {index : ℕ} {note : FidelityNote}
    (h : note ∈ recordNotes event index) : note.eventIndex = some index := by
  rcases List.mem_append.mp h with h | h
  all_goals
    split at h
    · rw [List.mem_singleton.mp h]
    · cases h

/-! ### The whole file -/

/-- **The payload loop** writes one record for every event, in order. -/
theorem writePayload_eq (index : ℕ) (events : List CaptureEvent) :
    writePayload index events = .ok ((events.map recordBytes).flatten,
      (events.zipIdx index).flatMap fun e => recordNotes e.1 e.2) :=
  writeEvents_eq encodeRecord_eq index events

theorem length_of_mem_records {events : List CaptureEvent} :
    ∀ record ∈ events.map recordBytes, record.length = recordSize := by
  intro record h_record
  obtain ⟨event, -, rfl⟩ := List.mem_map.mp h_record
  exact length_recordBytes event

/-- The records of a payload are cut where they were put together. -/
theorem chunks_records (events : List CaptureEvent) :
    chunks recordSize (events.map recordBytes).flatten = events.map recordBytes :=
  chunks_flatten_of_length (by decide) length_of_mem_records

theorem recordSize_dvd_length (events : List CaptureEvent) :
    recordSize ∣ (events.map recordBytes).flatten.length := by
  rw [length_flatten_of_length length_of_mem_records]
  exact Nat.dvd_mul_right ..

/-- A written file is read through its only group and that group's only block. -/
theorem readMf4_captureGroup {records : List UInt8 → ℕ → List (List UInt8)}
    {payload : List UInt8} {events : List CaptureEvent}
    (h : readBlock records recordSize payload = .ok events) :
    readMf4 records [captureGroup payload] = .ok { events, notes := [] } := by
  have h_size : recordSize.toUInt32.toNat = recordSize := by decide
  have h_group : readGroup records (captureGroup payload) = .ok events := by
    simp only [readGroup, captureGroup, mdfError, orFail_ok, ok_bind, h_size, ne_eq,
      not_true_eq_false, if_false, mapM_eq_ok (.cons h .nil), List.flatten_cons,
      List.flatten_nil, List.append_nil]
    rfl
  rw [readMf4, mapM_eq_ok (.cons h_group .nil), ok_bind, List.flatten_cons, List.flatten_nil,
    List.append_nil]
  rfl

/-- The decoded event has the frame of the written one, its time and its direction. -/
structure SameFrame (written decoded : CaptureEvent) : Prop where
  timestamp : decoded.timestamp = written.timestamp
  direction : decoded.direction = written.direction
  frame : decoded.frame = written.frame

theorem sameFrame_stored (event : CaptureEvent) : SameFrame event (stored event) := by
  constructor <;> simp only [stored]

/-- **The MF4 round trip.** Events with valid frames and timestamps that fit are written as
records, every record decodes, and the decoded events have the frames of the written ones in
order. An event whose interface fits its record comes back unchanged and without a note. -/
theorem mf4_roundTrip (records : List UInt8 → ℕ → List (List UInt8))
    (h_records : ∀ data, recordSize ∣ data.length →
      records data recordSize = chunks recordSize data)
    (events : List CaptureEvent) (h_frames : ∀ event ∈ events, event.frame.Valid)
    (h_times : ∀ event ∈ events, Timestamp.Fits event.timestamp) :
    ∃ group payload notes decoded,
      writePayload 0 events = .ok (payload, notes) ∧
      writeMf4 events = .ok (group, { notes }) ∧
      (records payload recordSize).mapM decodeRecord = .ok decoded ∧
      readMf4 records [group] = .ok { events := decoded, notes := [] } ∧
      List.Forall₂ SameFrame events decoded ∧
      ∀ i event, events[i]? = some event → Recordable event →
        decoded[i]? = some event ∧ ∀ note ∈ notes, note.eventIndex ≠ some i := by
  have h_write := writePayload_eq 0 events
  -- the records are cut where they were joined, and none is short
  have h_cut : records (events.map recordBytes).flatten recordSize = events.map recordBytes := by
    rw [h_records _ (recordSize_dvd_length events), chunks_records]
  have h_decode : (events.map recordBytes).mapM decodeRecord = .ok (events.map stored) := by
    refine mapM_eq_ok ?_
    rw [List.forall₂_map_left_iff, List.forall₂_map_right_iff, List.forall₂_same]
    intro event h_mem
    rw [decodeRecord_recordBytes (h_frames event h_mem), normalised_of_fits (h_times event h_mem)]
  have h_filter : (events.map recordBytes).filter (recordSize ≤ ·.length)
      = events.map recordBytes := by
    rw [List.filter_eq_self]
    intro record h_record
    simp [length_of_mem_records record h_record]
  have h_block : readBlock records recordSize (events.map recordBytes).flatten
      = .ok (events.map stored) := by
    rw [readBlock, h_cut, h_filter, h_decode]
  refine ⟨captureGroup (events.map recordBytes).flatten, _, _, events.map stored, h_write, ?_, ?_,
    readMf4_captureGroup h_block, ?_, ?_⟩
  · rw [writeMf4, h_write]
    rfl
  · rw [h_cut, h_decode]
  · rw [List.forall₂_map_right_iff, List.forall₂_same]
    exact fun event _ => sameFrame_stored event
  · intro i event h_event h_recordable
    constructor
    · rw [List.getElem?_map, h_event, Option.map_some, h_recordable.stored]
    · exact (forall_notes_iff recordNotes (fun _ _ _ h => eventIndex_of_mem_recordNotes h)
        h_event).mpr (h_recordable.recordNotes i)

/-- A CAN FD frame on an interface with an index and no name, in a file of its own. -/
theorem mf4_roundTrip_fd :
    let event : CaptureEvent :=
      { timestamp := ⟨1700000000, 999999999⟩
        interface := ⟨none, some 3⟩
        direction := .tx
        frame := ⟨⟨0x1abcdef0, true, by decide⟩, .data, [1, 0, 255], true, ⟨true, false⟩⟩
        annotations := [] }
    ∃ group decoded notes, writeMf4 [event] = .ok (group, { notes }) ∧
      readMf4 (fun data n => chunks n data) [group] = .ok { events := decoded, notes := [] } ∧
      decoded[0]? = some event := by
  intro event
  have h_valid : ∀ e ∈ [event], e.frame.Valid := by decide
  -- the timestamp fits, and without a name nothing can be lost of one
  have h_fits : ∀ e ∈ [event], Timestamp.Fits e.timestamp := by
    intro e h_e
    rw [List.mem_singleton.mp h_e]
    exact ⟨by decide, by decide, by decide⟩
  have h_recordable : Recordable event := by
    refine { index := rfl, name := ?_, annotations := rfl }
    intro name h_name
    cases h_name
  obtain ⟨group, -, notes, decoded, -, h_write, -, h_read, -, h_event⟩ :=
    mf4_roundTrip (fun data n => chunks n data) (fun _ _ => rfl) [event] h_valid h_fits
  exact ⟨group, decoded, notes, h_write, h_read, (h_event 0 event rfl h_recordable).1⟩

end Cantools.Codec.Mf4
