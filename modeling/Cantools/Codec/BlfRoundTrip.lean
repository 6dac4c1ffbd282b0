import Cantools.Codec.Blf
import Cantools.Framework.Records

/-!
# The BLF round trip

A written file is framed right: the sizes and the count in its header are those of the file, and
walking from object to object by the sizes in their headers visits the objects of the events in
order and ends where the file ends (`walk_objects`). Converting the message of an object gives
back what an event can keep in a message of eight bytes (`stored`); for a `Recordable` event this
is the event, and everything the reader produces is recordable (`recordable_of_convertMessage`).
-/

namespace Cantools.Codec.Blf

open Buffer Chunks LittleEndian Program Records

/-! ### What is written -/

/-- The payload of a message: the first eight bytes, or all of them. -/
theorem length_take_data (event : CaptureEvent) :
    (event.frame.data.take (min (min event.frame.data.length 64) 8)).length ≤ 8 := by
  rw [List.length_take]
  omega

/-- The message of an event. -/
def canMessage (event : CaptureEvent) : CanMessage2Write where
  header := { flags := timeOneNans, clientIndex := 0, version := 0
              timestampNs := timestampToNs event.timestamp }
  channel := (event.interface.index.getD 1).toUInt16
  flags := messageFlags (event.direction = .tx) event.frame.fd
    event.frame.fdFlags.bitRateSwitch event.frame.fdFlags.errorStateIndicator
  dlc := (min event.frame.data.length 64).toUInt8
  id := idLayout.word event.frame.id event.frame.class'
  frameLengthNs := (min event.frame.data.length 64).toUInt32
  bitCount := (min event.frame.data.length 64 * 8).toUInt8
  extDataOffset := 0
  data := ⟨_, length_padded 0 (length_take_data event)⟩

/-- **What `build_can_message` builds**, without a panic for any event. -/
theorem buildCanMessage_eq (event : CaptureEvent) :
    buildCanMessage event = .ok (canMessage event) := by
  have h_len : min (min event.frame.data.length 64) 8 ≤ event.frame.data.length := by omega
  have h_range : range event.frame.data 0 (min (min event.frame.data.length 64) 8)
      = some (event.frame.data.take (min (min event.frame.data.length 64) 8)) := by
    rw [range_eq_some (Nat.zero_le _) h_len, slice, List.drop_zero]
  simp only [buildCanMessage, h_range, filled_eq_some (length_take_data event), orPanic_some,
    ok_bind]
  rfl

/-- The object of an event. -/
def objectBytes (event : CaptureEvent) : List UInt8 :=
  (objectHeader 38).bytes ++ (canMessage event).bytes

theorem encodeObject_eq (event : CaptureEvent) :
    encodeObject event = .ok (objectBytes event) := by
  simp only [encodeObject, buildCanMessage_eq, ok_bind, CanMessage2Write.length_bytes]
  rfl

theorem length_objectBytes (event : CaptureEvent) : (objectBytes event).length = 54 := by
  rw [objectBytes, List.length_append, ObjectBaseHeaderWrite.length_bytes,
    CanMessage2Write.length_bytes]

/-- **The object loop** writes one object for every event, in order. -/
theorem writeObjects_eq (index : ℕ) (events : List CaptureEvent) :
    writeObjects index events = .ok ((events.map objectBytes).flatten,
      (events.zipIdx index).flatMap fun e => objectNotes e.1 e.2) := by
  refine writeEvents_eq (fun event index => ?_) index events
  rw [encodeObject_eq]
  rfl

theorem length_objects (events : List CaptureEvent) :
    (events.map objectBytes).flatten.length = 54 * events.length := by
  have h_objects : ∀ object ∈ events.map objectBytes, object.length = 54 := by
    intro object h_object
    obtain ⟨event, -, rfl⟩ := List.mem_map.mp h_object
    exact length_objectBytes event
  rw [length_flatten_of_length h_objects, List.length_map]

/-! ### Framing -/

/-- The size an object states in its header. -/
def objectSize (bytes : List UInt8) : Option ℕ := do
  let signature ← range bytes 0 4
  let size ← range bytes 8 12
  if signature = lobjSignature.val then some (toU32 size).toNat else none

/-- An object states its own length. -/
theorem objectSize_append (event : CaptureEvent) (rest : List UInt8) :
    objectSize (objectBytes event ++ rest) = some (objectBytes event).length := by
  -- signature and size stand at fixed places of the base header
  have h_fields : objectBytes event ++ rest = [lobjSignature.val, ofU16 16, ofU16 1, ofU32 54,
      ofU32 objectTypeCanMessage2, (canMessage event).bytes, rest].flatten := by
    simp [objectBytes, ObjectBaseHeaderWrite.bytes, objectHeader]
  have h_signature : range (objectBytes event ++ rest) 0 4 = some lobjSignature.val := by
    rw [h_fields]
    exact range_flatten [] _ _ rfl rfl
  have h_size : range (objectBytes event ++ rest) 8 12 = some (ofU32 54) := by
    rw [h_fields]
    exact range_flatten [_, _, _] _ _ rfl rfl
  calc objectSize (objectBytes event ++ rest)
      = if lobjSignature.val = lobjSignature.val then some (toU32 (ofU32 54)).toNat
        else none := by
        rw [objectSize, h_signature, h_size]
        rfl
    _ = some (54 : UInt32).toNat := by rw [if_pos rfl, toU32_ofU32]
    _ = some (objectBytes event).length := by
        rw [length_objectBytes]
        rfl

/-- **Framing.** The walk visits the objects of the events in order, to the end. -/
theorem walk_objects (events : List CaptureEvent) :
    walk objectSize (events.map objectBytes).flatten = some (events.map objectBytes) := by
  apply walk_flatten
  intro object h_object
  obtain ⟨event, -, rfl⟩ := List.mem_map.mp h_object
  refine ⟨?_, objectSize_append event⟩
  rw [length_objectBytes]
  exact Nat.zero_lt_succ _

/-! ### What is read -/

/-- The values of the fields of a message that the reader looks at. -/
def CanMessage2Write.toCanMessage86 (m : CanMessage2Write) : CanMessage86 where
  timestampNs := m.header.timestampNs
  channel := m.channel
  flags := m.flags
  dlc := m.dlc
  id := m.id
  bitCount := m.bitCount
  data := m.data.val

/-- The transmission flag is read back. -/
theorem messageFlags_tx : ∀ tx fd brs esi : Bool,
    messageFlags tx fd brs esi &&& messageFlagTx ≠ 0 ↔ tx := by
  decide

/-- The identifier is read back. -/
theorem decodeId_word (id : CanId) (class' : FrameClass) :
    decodeId (idLayout.word id class') = .ok id := by
  have h_value : idLayout.word id class' &&& 0x1fffffff = id.raw :=
    idLayout.word_and_idMask id class'
  have h_ext : idLayout.word id class' &&& canFlagExtended ≠ 0 ↔ id.isExtended = true :=
    idLayout.word_extended_iff id class'
  rw [decodeId, h_value]
  simp only [h_ext]
  rw [← apply_ite liftCore, CanId.rebuild, liftCore_ok]

/-- The length of the payload in the object, which the message states twice. The bit count
wraps from `32` bytes on, but the other length does not. -/
theorem dataLen_eq : ∀ dataLen < 65,
    min (max dataLen.toUInt8 ((dataLen * 8).toUInt8 / 8)).toNat 8 = min dataLen 8 := by
  decide

/-- What the object of an event keeps of it. -/
def stored (event : CaptureEvent) : CaptureEvent where
  timestamp := nsToTimestamp (timestampToNs event.timestamp)
  interface := { name := none, index := some (event.interface.index.getD 1).toUInt16.toUInt32 }
  direction := event.direction
  frame :=
    { event.frame with
      data := event.frame.data.take 8
      fd := false
      fdFlags := { bitRateSwitch := false, errorStateIndicator := false } }
  annotations := []

/-- The payload in the object of an event. -/
theorem range_data (event : CaptureEvent) :
    range (canMessage event).data.val 0 (min event.frame.data.length 8)
      = some (event.frame.data.take 8) := by
  -- `64` is a bound of the length fields, and no bound of the data
  have h_take : event.frame.data.take (min (min event.frame.data.length 64) 8)
      = event.frame.data.take 8 := by
    calc event.frame.data.take (min (min event.frame.data.length 64) 8)
        = event.frame.data.take (min event.frame.data.length (min 64 8)) := by
          rw [Nat.min_assoc]
      _ = event.frame.data.take 8 := take_min_length ..
  have h_len : (event.frame.data.take 8).length = min event.frame.data.length 8 := by
    rw [List.length_take, Nat.min_comm]
  have h_in : min event.frame.data.length 8 ≤ (canMessage event).data.val.length := by
    rw [(canMessage event).data.property]
    exact Nat.min_le_right ..
  rw [range_eq_some (Nat.zero_le _) h_in, slice, List.drop_zero]
  simp only [canMessage, h_take]
  rw [← h_len, List.take_left]

/-- **One object.** Its message converts to what the object keeps of the event. -/
theorem convertMessage_canMessage (event : CaptureEvent) :
    convertMessage (canMessage event).toCanMessage86 = .ok (stored event) := by
  have h_len := dataLen_eq (min event.frame.data.length 64) (by omega)
  have h_min : min (min (min event.frame.data.length 64) 8) 8 = min event.frame.data.length 8 := by
    omega
  have h_tx := messageFlags_tx (event.direction = .tx) event.frame.fd
    event.frame.fdFlags.bitRateSwitch event.frame.fdFlags.errorStateIndicator
  -- eight bytes are a classic payload, so the constructor accepts the frame
  have h_valid : (stored event).frame.Valid := List.length_take_le ..
  have h_frame : CanFrame.new event.frame.id event.frame.class' (event.frame.data.take 8) false
      { bitRateSwitch := false, errorStateIndicator := false } = .ok (stored event).frame :=
    h_valid.new_eq
  have h_data := range_data event
  simp only [canMessage] at h_data
  simp only [convertMessage, CanMessage2Write.toCanMessage86, canMessage, decodeId_word,
    idLayout.classOf_word, h_len, h_min, h_data, h_tx, orFail_ok, orPanic_some, ok_bind,
    decide_eq_true_eq]
  rw [h_frame, liftCore_ok, orFail_ok, ok_bind, Direction.rebuild]
  rfl

/-! ### Events that survive -/

/-- An event whose frame fits a classic message, on a channel without a name, with nothing that
the message has no place for. -/
structure Recordable (event : CaptureEvent) : Prop where
  valid : event.frame.Valid
  classic : event.frame.fd = false
  fdFlags : event.frame.fdFlags = { bitRateSwitch := false, errorStateIndicator := false }
  name : event.interface.name = none
  index : ∃ i : UInt32, event.interface.index = some i ∧ i ≤ 65535
  annotations : event.annotations = []
  timestamp : Timestamp.Fits event.timestamp

/-- A channel of 16 bits survives the narrowing. -/
theorem toUInt16_toUInt32 {i : UInt32} (h : i ≤ 65535) : i.toUInt16.toUInt32 = i := by
  have h_le : i.toNat ≤ 65535 := UInt32.le_iff_toNat_le.mp h
  apply UInt32.toNat_inj.mp
  rw [UInt16.toNat_toUInt32, UInt32.toNat_toUInt16]
  omega

theorem Recordable.stored {event : CaptureEvent} (h : Recordable event) : stored event = event := by
  obtain ⟨i, h_index, h_le⟩ := h.index
  have h_interface : (InterfaceRef.mk none
      (some (event.interface.index.getD 1).toUInt16.toUInt32)) = event.interface := by
    rw [h_index, Option.getD_some, toUInt16_toUInt32 h_le, ← h_index, ← h.name]
  have h_data : event.frame.data.take 8 = event.frame.data :=
    List.take_of_length_le (h.valid.length_le_of_classic h.classic)
  rw [Blf.stored, h.timestamp.nsToTimestamp, h_interface, h_data, ← h.fdFlags, ← h.classic,
    ← h.annotations]

/-- **Everything the reader produces is recordable**, whatever the fields of the message are. -/
theorem recordable_of_convertMessage {message : CanMessage86} {event : CaptureEvent}
    (h : convertMessage message = .ok event) : Recordable event := by
  -- an event comes out only if the constructors accepted its parts
  simp only [convertMessage, bind_eq_ok_iff, orFail_eq_ok_iff, liftCore_eq_ok_iff,
    CanFrame.new_eq_ok_iff] at h
  obtain ⟨id, -, data, -, frame, ⟨rfl, h_valid⟩, h_event⟩ := h
  cases h_event
  exact
    { valid := h_valid
      classic := rfl
      fdFlags := rfl
      name := rfl
      index := ⟨_, rfl, by
        rw [UInt32.le_iff_toNat_le, UInt16.toNat_toUInt32]
        exact Nat.le_of_lt_succ (UInt16.toNat_lt _)⟩
      annotations := rfl
      timestamp := fits_nsToTimestamp _ }

/-! ### The whole file -/

/-- The parser of a message that is laid out like `CanMessage2Write`, as the round trip assumes it.
It is not that of `ablf` 0.2.0, which reads the data before `frame_length_ns` and `bit_count`. -/
def parseCanMessage86 (bytes : List UInt8) : CanMessage86 where
  timestampNs := toU64 (slice bytes 8 16)
  channel := toU16 (slice bytes 16 18)
  flags := bytes.getD 18 0
  dlc := bytes.getD 19 0
  id := toU32 (slice bytes 20 24)
  bitCount := bytes.getD 28 0
  data := slice bytes 30 38

/-- **The reader's loop** converts the messages of written objects in order. -/
theorem readObjects_eq (events : List CaptureEvent) (report : ReadReport) :
    readObjects (events.map fun event => .canMessage86 (canMessage event).toCanMessage86) report
      = .ok
        { events := report.events ++ events.map stored
          notes := report.notes ++
            (List.range' report.events.length events.length).map payloadNote } := by
  -- on the events still to come; the report holds those before, so note indices follow on
  induction events generalizing report with
  | nil => simp [readObjects]; rfl
  | cons event events ih =>
    rw [List.map_cons, readObjects, convertMessage_canMessage, ok_bind, ih]
    simp [List.range'_succ]

/-- **The BLF round trip.** For any list of fewer than `2 ^ 32` events the file is framed as its
header says, and the walk through it meets the objects of the events in order. The message of an
object whose event is recordable, or is one that the reader can produce, converts to that very
event. -/
theorem blf_roundTrip (parse : List UInt8 → CanMessage86)
    (h_parse : ∀ message : CanMessage2Write, parse message.bytes = message.toCanMessage86)
    (events : List CaptureEvent) (h_count : events.length < 2 ^ 32) (path : String) :
    ∃ (header : FileHeaderWrite) (objects : List (List UInt8)) (notes readNotes : List FidelityNote)
        (decoded : List CaptureEvent),
      writeBlf events = .ok (header.bytes ++ objects.flatten, { notes }) ∧
      header.fileSize.toNat = (header.bytes ++ objects.flatten).length ∧
      header.uncompressedSize.toNat + 144 = header.fileSize.toNat ∧
      header.objectCount.toNat = events.length ∧
      walk objectSize ((header.bytes ++ objects.flatten).drop 144) = some objects ∧
      List.Forall₂ (fun event object => encodeObject event = .ok object) events objects ∧
      readBlf path true (objects.map fun object => .canMessage86 (parse (object.drop 16)))
        = .ok { events := decoded, notes := readNotes } ∧
      List.Forall₂ (fun object event =>
        convertMessage (parse (object.drop 16)) = .ok event) objects decoded ∧
      ∀ (i : ℕ) (event : CaptureEvent), events[i]? = some event →
        (Recordable event ∨ ∃ message, convertMessage message = .ok event) →
        decoded[i]? = some event := by
  -- behind the header of an object is its message
  have h_message : ∀ event, parse ((objectBytes event).drop 16)
      = (canMessage event).toCanMessage86 := by
    intro event
    rw [objectBytes, List.drop_left' (ObjectBaseHeaderWrite.length_bytes _), h_parse]
  have h_len := length_objects events
  -- fewer than `2 ^ 32` objects of `54` bytes: neither size field wraps
  have h_file : (144 + (events.map objectBytes).flatten.length).toUInt64.toNat
      = 144 + (events.map objectBytes).flatten.length := by
    rw [Nat.toUInt64_eq, UInt64.toNat_ofNat', Nat.mod_eq_of_lt (by omega)]
  have h_inner : (events.map objectBytes).flatten.length.toUInt64.toNat
      = (events.map objectBytes).flatten.length := by
    rw [Nat.toUInt64_eq, UInt64.toNat_ofNat', Nat.mod_eq_of_lt (by omega)]
  refine ⟨fileHeader (events.map objectBytes).flatten.length events.length, events.map objectBytes,
    (events.zipIdx 0).flatMap fun e => objectNotes e.1 e.2,
    (List.range' 0 events.length).map payloadNote, events.map stored,
    ?_, ?_, ?_, ?_, ?_, ?_, ?_, ?_, ?_⟩
  · -- the file, its sizes, and its object count
    rw [writeBlf, writeObjects_eq]
    rfl
  · rw [List.length_append, FileHeaderWrite.length_bytes]
    exact h_file
  · simp only [fileHeader]
    rw [h_file, h_inner, Nat.add_comm]
  · simp only [fileHeader]
    rw [Nat.toUInt32_eq, UInt32.toNat_ofNat', Nat.mod_eq_of_lt h_count]
  · -- cut into objects, and read back
    rw [List.drop_left' (FileHeaderWrite.length_bytes _), walk_objects]
  · rw [List.forall₂_map_right_iff, List.forall₂_same]
    exact fun event _ => encodeObject_eq event
  · rw [readBlf, if_pos rfl, List.map_map]
    simp only [Function.comp_def, h_message]
    rw [readObjects_eq]
    rfl
  · rw [List.forall₂_map_left_iff, List.forall₂_map_right_iff, List.forall₂_same]
    intro event _
    rw [h_message, convertMessage_canMessage]
  · intro i event h_event h_kept
    -- what is read is recordable, so both kinds of events are kept
    have h_recordable : Recordable event := by
      rcases h_kept with h_recordable | ⟨message, h_convert⟩
      · exact h_recordable
      · exact recordable_of_convertMessage h_convert
    rw [List.getElem?_map, h_event, Option.map_some, h_recordable.stored]

theorem parseCanMessage86_bytes (message : CanMessage2Write) :
    parseCanMessage86 message.bytes = message.toCanMessage86 := by
  have h_len := message.data.property
  -- each field stands where the fields before it end
  have r_ts : slice message.bytes 8 16 = ofU64 message.header.timestampNs :=
    slice_flatten [_, _, _] _ _ rfl rfl
  have r_channel : slice message.bytes 16 18 = ofU16 message.channel :=
    slice_flatten [_, _, _, _] _ _ rfl rfl
  have r_flags : message.bytes[18]? = some message.flags :=
    getElem?_flatten [_, _, _, _, _] _ _ rfl
  have r_dlc : message.bytes[19]? = some message.dlc :=
    getElem?_flatten [_, _, _, _, _, _] _ _ rfl
  have r_id : slice message.bytes 20 24 = ofU32 message.id :=
    slice_flatten [_, _, _, _, _, _, _] _ _ rfl rfl
  have r_count : message.bytes[28]? = some message.bitCount :=
    getElem?_flatten [_, _, _, _, _, _, _, _, _] _ _ rfl
  have r_data : slice message.bytes 30 38 = message.data.val :=
    slice_flatten [_, _, _, _, _, _, _, _, _, _, _] _ _ rfl (by rw [h_len])
  rw [parseCanMessage86, r_ts, r_channel, r_id, r_data]
  simp only [List.getD_eq_getElem?_getD, r_flags, r_dlc, r_count, Option.getD_some, toU64_ofU64,
    toU32_ofU32, toU16_ofU16]
  rfl

/-- Two events in one file, read back with the layout of the writer: an extended remote frame on
the last channel, and a CAN FD frame whose payload the object has no place for. -/
theorem blf_roundTrip_two :
    let remote : CaptureEvent :=
      { timestamp := ⟨1700000000, 999999999⟩
        interface := ⟨none, some 65535⟩
        direction := .tx
        frame := ⟨⟨0x1abcdef0, true, by decide⟩, .remote, [1, 0, 255], false, {}⟩
        annotations := [] }
    let events := [remote,
      { remote with frame := ⟨⟨0x7ff, false, by decide⟩, .data, .replicate 32 7, true, {}⟩ }]
    ∃ (objects : List (List UInt8)) (decoded : List CaptureEvent) (notes : List FidelityNote),
      readBlf "two.blf" true
          (objects.map fun object => .canMessage86 (parseCanMessage86 (object.drop 16)))
        = .ok { events := decoded, notes } ∧
      decoded[0]? = some remote ∧ objects.length = events.length := by
  intro remote events
  -- the second event is no classic frame, so only the first is kept
  have h_recordable : Recordable remote :=
    { valid := by decide
      classic := rfl
      fdFlags := rfl
      name := rfl
      index := ⟨65535, rfl, by decide⟩
      annotations := rfl
      timestamp := ⟨by decide, by decide, by decide⟩ }
  obtain ⟨-, objects, -, notes, decoded, -, -, -, -, -, h_objects, h_read, -, h_kept⟩ :=
    blf_roundTrip parseCanMessage86 parseCanMessage86_bytes events (by decide) "two.blf"
  exact ⟨objects, decoded, notes, h_read, h_kept 0 remote rfl (.inl h_recordable),
    h_objects.length_eq.symm⟩

end Cantools.Codec.Blf
