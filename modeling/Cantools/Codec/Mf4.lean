import Cantools.Codec.Basic
import Cantools.Framework.Buffer
import Cantools.Framework.Program
import Cantools.Framework.LittleEndian
import Cantools.Framework.Utf8

/-!
# The MF4 codec

`write_mf4` puts every event into a record of `116` bytes and the records into the data block of
one channel group; `read_mf4` walks the groups of that name and decodes the records. The blocks
around the data are the business of the `mf4_rs` crate: a group is what that crate hands out of
a file (`ChannelGroup`), and the split of a data block into records is a parameter `records`.

The record is written field by field into a zeroed buffer. Its fields are disjoint, so the
result is their concatenation with zeros in between (`encodeRecord_eq`), and `decode_record`
reads each of them back at its place.
-/

namespace Cantools.Codec.Mf4

open Buffer Chunks LittleEndian Program

/-! ### The record -/

/-- `RECORD_SIZE` -/
def recordSize : ℕ := 116

/-- `CHANNEL_GROUP_NAME` -/
def channelGroupName : String := "cantools.capture"

/-- `INTERFACE_NAME_LEN` -/
def interfaceNameLen : ℕ := 32

def flagDirectionTx : UInt16 := 0x0001
def flagRemote : UInt16 := 0x0002
def flagError : UInt16 := 0x0004
def flagFd : UInt16 := 0x0008
def flagBrs : UInt16 := 0x0010
def flagEsi : UInt16 := 0x0020
def flagExtendedId : UInt16 := 0x0040

/-- The flag word, from the seven conditions `encode_record` tests. -/
def flagWord (tx remote error fd brs esi extended : Bool) : UInt16 :=
  let flags : UInt16 := 0
  let flags := if tx then flags ||| flagDirectionTx else flags
  let flags := if remote then flags ||| flagRemote else flags
  let flags := if error then flags ||| flagError else flags
  let flags := if fd then flags ||| flagFd else flags
  let flags := if brs then flags ||| flagBrs else flags
  let flags := if esi then flags ||| flagEsi else flags
  if extended then flags ||| flagExtendedId else flags

/-- The flags of an event. -/
def encodeFlags (event : CaptureEvent) : UInt16 :=
  flagWord (event.direction = .tx) (event.frame.class' = .remote) (event.frame.class' = .error)
    event.frame.fd event.frame.fdFlags.bitRateSwitch event.frame.fdFlags.errorStateIndicator
    event.frame.id.isExtended

/-- The bytes of the interface name; none when it is unknown. -/
def nameBytes (event : CaptureEvent) : List UInt8 :=
  Utf8.encode (event.interface.name.getD "").toList

/-- The notes `encode_record` pushes. -/
def recordNotes (event : CaptureEvent) (index : ℕ) : List FidelityNote :=
  (if (nameBytes event).length > interfaceNameLen then
    [{ eventIndex := some index
       field := "interface_name"
       detail := "MF4 export truncated interface name to 32 bytes" }]
  else []) ++
  (if event.annotations ≠ [] then
    [{ eventIndex := some index
       field := "annotations"
       detail := "MF4 export omits structured annotations in the bootstrap layout" }]
  else [])

/-- The record of an event and the notes about what it loses. -/
def encodeRecord (event : CaptureEvent) (index : ℕ) :
    Run CodecError (List UInt8 × List FidelityNote) := do
  let record := List.replicate recordSize 0
  let record ← orPanic (overwrite record 0 (ofU64 (timestampToNs event.timestamp)))
  let record ← orPanic (overwrite record 8 (ofU32 event.frame.id.raw))
  let record ← orPanic (overwrite record 12 (ofU16 (encodeFlags event)))
  let record ← orPanic (overwrite record 14 (ofU32 (event.interface.index.getD 0)))
  let record ← orPanic (overwrite record 18 [(min event.frame.data.length 64).toUInt8])
  -- cut at a byte, also in the middle of a character
  let nameLen := min (nameBytes event).length interfaceNameLen
  let record ← orPanic (overwrite record 20 ((nameBytes event).take nameLen))
  let dataLen := min event.frame.data.length 64
  let record ← orPanic (overwrite record 52 (event.frame.data.take dataLen))
  pure (record, recordNotes event index)

/-- The interface name in its padded field, up to the first zero byte. -/
def decodeName (raw : List UInt8) : String :=
  -- a field without a zero byte is all name
  let stop := raw.findIdx (· == 0)
  String.ofList (Utf8.decodeLossy (raw.take stop))

/-- The event of a record. -/
def decodeRecord (record : List UInt8) : Run CodecError CaptureEvent := do
  let timestampNs := toU64 (← orPanic (range record 0 8))
  let rawId := toU32 (← orPanic (range record 8 12))
  let flags := toU16 (← orPanic (range record 12 14))
  let ifindex := toU32 (← orPanic (range record 14 18))
  let dataLen := min (← orPanic record[18]?).toNat 64
  let raw ← orPanic (range record 20 (20 + interfaceNameLen))
  let interfaceName := decodeName raw
  let data ← orPanic (range record 52 (52 + dataLen))
  let id ← orFail (liftCore
    (if flags &&& flagExtendedId ≠ 0 then CanId.extended rawId
    else CanId.standard rawId.toUInt16))
  let class' : FrameClass :=
    -- the error flag goes first
    if flags &&& flagError ≠ 0 then .error
    else if flags &&& flagRemote ≠ 0 then .remote
    else .data
  let frame ← orFail (liftCore (CanFrame.new id class' data (flags &&& flagFd ≠ 0)
    { bitRateSwitch := flags &&& flagBrs ≠ 0, errorStateIndicator := flags &&& flagEsi ≠ 0 }))
  let interface : InterfaceRef :=
    { name := if interfaceName.isEmpty then none else some interfaceName
      index := some ifindex }
  let direction : Direction := if flags &&& flagDirectionTx ≠ 0 then .tx else .rx
  pure (CaptureEvent.new (nsToTimestamp timestampNs) interface direction frame)

/-! ### The file -/

/-- A channel group of a file, as `mf4_rs` hands it out. -/
structure ChannelGroup where
  /-- `name()`, with the text of the error it may end in. -/
  name : Except String (Option String)
  /-- The record size the group declares. -/
  samplesByteNr : UInt32
  /-- `data_blocks()`, likewise. -/
  dataBlocks : Except String (List (List UInt8))

/-- `map_err(mdf_error)` -/
def mdfError {α : Type} : Except String α → Except CodecError α
  | .ok a => .ok a
  | .error message => .error (.parse message)

/-- The payload loop of `write_mf4`, from an event index on. -/
def writePayload : ℕ → List CaptureEvent → Run CodecError (List UInt8 × List FidelityNote) :=
  writeEvents encodeRecord

/-- The channel group of a written file: all records in one data block. -/
def captureGroup (payload : List UInt8) : ChannelGroup where
  name := .ok (some channelGroupName)
  samplesByteNr := recordSize.toUInt32
  dataBlocks := .ok [payload]

/-- Write a capture-focused MF4 file using a fixed record layout. -/
def writeMf4 (events : List CaptureEvent) : Run CodecError (ChannelGroup × WriteReport) := do
  let (payload, notes) ← writePayload 0 events
  pure (captureGroup payload, { notes })

section Read

variable (records : List UInt8 → ℕ → List (List UInt8))

/-- The events of one data block: short records are passed over. -/
def readBlock (recordBytes : ℕ) (block : List UInt8) : Run CodecError (List CaptureEvent) :=
  ((records block recordBytes).filter (recordSize ≤ ·.length)).mapM decodeRecord

/-- The events of one channel group; none of a group with another name. -/
def readGroup (group : ChannelGroup) : Run CodecError (List CaptureEvent) := do
  let name ← orFail (mdfError group.name)
  -- groups of other tools are passed over
  if name ≠ some channelGroupName then
    pure []
  else
    let blocks ← orFail (mdfError group.dataBlocks)
    let events ← blocks.mapM (readBlock records group.samplesByteNr.toNat)
    pure events.flatten

/-- Read a capture-focused MF4 file into capture events. -/
def readMf4 (groups : List ChannelGroup) : Run CodecError ReadReport := do
  let events ← groups.mapM (readGroup records)
  pure { events := events.flatten, notes := [] }

end Read

/-! ### The layout of a record -/

/-- The fields of a record in order, the blank parts between them included. -/
def recordFields (event : CaptureEvent) : List (List UInt8) :=
  let name := (nameBytes event).take interfaceNameLen
  let data := event.frame.data.take 64
  [ofU64 (timestampToNs event.timestamp), ofU32 event.frame.id.raw, ofU16 (encodeFlags event),
    ofU32 (event.interface.index.getD 0), [(min event.frame.data.length 64).toUInt8], [0],
    name ++ List.replicate (interfaceNameLen - name.length) 0,
    data ++ List.replicate (64 - data.length) 0]

/-- The bytes of a record. -/
def recordBytes (event : CaptureEvent) : List UInt8 := (recordFields event).flatten

theorem length_recordBytes (event : CaptureEvent) :
    (recordBytes event).length = recordSize := by
  simp only [recordBytes, recordFields, List.flatten_cons, List.flatten_nil, List.length_append,
    length_ofU64, length_ofU32, length_ofU16, List.length_cons, List.length_nil,
    List.length_replicate, List.length_take, interfaceNameLen, recordSize]
  omega

/-- **What `encode_record` writes**, without a panic for any event. -/
theorem encodeRecord_eq (event : CaptureEvent) (index : ℕ) :
    encodeRecord event index = .ok (recordBytes event, recordNotes event index) := by
  have h_name : ((nameBytes event).take interfaceNameLen).length ≤ 32 := List.length_take_le ..
  have h_data : (event.frame.data.take 64).length ≤ 64 := List.length_take_le ..
  have h_ts := length_ofU64 (timestampToNs event.timestamp)
  have h_id := length_ofU32 event.frame.id.raw
  have h_flags := length_ofU16 (encodeFlags event)
  have h_index := length_ofU32 (event.interface.index.getD 0)
  simp only [encodeRecord, take_min_length, recordBytes, recordFields, recordSize]
  -- only the lengths of the fields matter for where they go
  generalize (nameBytes event).take interfaceNameLen = name at h_name ⊢
  generalize event.frame.data.take 64 = data at h_data ⊢
  generalize ofU64 (timestampToNs event.timestamp) = ts at h_ts ⊢
  generalize ofU32 event.frame.id.raw = id at h_id ⊢
  generalize ofU16 (encodeFlags event) = flags at h_flags ⊢
  generalize ofU32 (event.interface.index.getD 0) = ifindex at h_index ⊢
  -- the used part of the record grows from left to right
  rw [← List.nil_append (List.replicate 116 0), overwrite_next [] ts 0 108 (by simp) (by omega),
    orPanic_some, ok_bind, overwrite_next _ id 0 104 (by simp; omega) (by omega),
    orPanic_some, ok_bind, overwrite_next _ flags 0 102 (by simp; omega) (by omega),
    orPanic_some, ok_bind, overwrite_next _ ifindex 0 98 (by simp; omega) (by omega),
    orPanic_some, ok_bind, overwrite_next _ [_] 0 97 (by simp; omega) (by simp),
    orPanic_some, ok_bind,
    overwrite_replicate _ name 0 1 (96 - name.length) (by simp; omega) (by omega),
    orPanic_some, ok_bind,
    overwrite_replicate _ data 0 (32 - name.length) (64 - data.length) (by simp; omega) (by omega),
    orPanic_some, ok_bind]
  simp only [interfaceNameLen, List.append_assoc, List.nil_append,
    List.flatten_cons, List.flatten_nil, List.append_nil, List.replicate_one]
  rfl

/-- Every flag is read back. -/
theorem flagWord_flags : ∀ tx remote error fd brs esi extended : Bool,
    let flags := flagWord tx remote error fd brs esi extended
    (flags &&& flagDirectionTx ≠ 0 ↔ tx) ∧ (flags &&& flagRemote ≠ 0 ↔ remote) ∧
      (flags &&& flagError ≠ 0 ↔ error) ∧ (flags &&& flagFd ≠ 0 ↔ fd) ∧
      (flags &&& flagBrs ≠ 0 ↔ brs) ∧ (flags &&& flagEsi ≠ 0 ↔ esi) ∧
      (flags &&& flagExtendedId ≠ 0 ↔ extended) := by
  decide

end Cantools.Codec.Mf4
