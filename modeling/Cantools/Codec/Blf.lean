import Cantools.Codec.Basic
import Cantools.Core.IdWord
import Cantools.Framework.Buffer
import Cantools.Framework.LittleEndian
import Cantools.Framework.Program

/-!
# The BLF codec

`write_blf` puts every event into a CAN message object of `54` bytes (two headers and the
message) and all objects behind a file header of `144` bytes; `read_blf` turns the CAN message
objects of a file into events and passes over the others.

The declared layouts are serialised by the `binrw` crate: the fields in order, little-endian,
nothing in between (`bytes` of each structure). Reading a file is the business of the `ablf`
crate: `read_blf` starts from the objects which that crate hands out, of which the model has the
fields that are read (`CanMessage86`). The data of such an object is a vector of any length, and
`read_blf` panics if it is shorter than the message says.
-/

namespace Cantools.Codec.Blf

open Buffer LittleEndian Program

/-- `LOGG_SIGNATURE`, `b"LOGG"` -/
def loggSignature : FixedArray UInt8 4 := ⟨[0x4c, 0x4f, 0x47, 0x47], rfl⟩

/-- `LOBJ_SIGNATURE`, `b"LOBJ"` -/
def lobjSignature : FixedArray UInt8 4 := ⟨[0x4c, 0x4f, 0x42, 0x4a], rfl⟩

/-- `OBJECT_TYPE_CAN_MESSAGE2` -/
def objectTypeCanMessage2 : UInt32 := 86

def timeOneNans : UInt32 := 0x00000002
def canFlagExtended : UInt32 := 0x80000000
def canFlagRemote : UInt32 := 0x40000000
def canFlagError : UInt32 := 0x20000000
def messageFlagTx : UInt8 := 0x01
def messageFlagFd : UInt8 := 0x02
def messageFlagBrs : UInt8 := 0x04
def messageFlagEsi : UInt8 := 0x08

/-- The flags of the identifier word. -/
def idLayout : IdLayout where
  extendedFlag := canFlagExtended
  remoteFlag := canFlagRemote
  errorFlag := canFlagError
  outside := by decide
  readable := by decide

/-! ### Layouts -/

structure FileHeaderWrite where
  signature : FixedArray UInt8 4
  statsSize : UInt32
  apiVersion : UInt32
  applicationId : UInt8
  applicationMajor : UInt8
  applicationMinor : UInt8
  applicationBuild : UInt8
  fileSize : UInt64
  uncompressedSize : UInt64
  objectCount : UInt32
  objectsRead : UInt32
  measurementStartTime : FixedArray UInt16 8
  lastObjectTime : FixedArray UInt16 8
  reserved : FixedArray UInt32 18

def FileHeaderWrite.bytes (h : FileHeaderWrite) : List UInt8 :=
  h.signature.val ++ ofU32 h.statsSize ++ ofU32 h.apiVersion ++
    [h.applicationId, h.applicationMajor, h.applicationMinor, h.applicationBuild] ++
    ofU64 h.fileSize ++ ofU64 h.uncompressedSize ++ ofU32 h.objectCount ++ ofU32 h.objectsRead ++
    h.measurementStartTime.val.flatMap ofU16 ++ h.lastObjectTime.val.flatMap ofU16 ++
    h.reserved.val.flatMap ofU32

structure ObjectBaseHeaderWrite where
  signature : FixedArray UInt8 4
  headerSize : UInt16
  headerVersion : UInt16
  objectSize : UInt32
  objectType : UInt32

def ObjectBaseHeaderWrite.bytes (h : ObjectBaseHeaderWrite) : List UInt8 :=
  [h.signature.val, ofU16 h.headerSize, ofU16 h.headerVersion, ofU32 h.objectSize,
    ofU32 h.objectType].flatten

structure ObjectHeaderV1Write where
  flags : UInt32
  clientIndex : UInt16
  version : UInt16
  timestampNs : UInt64

structure CanMessage2Write where
  header : ObjectHeaderV1Write
  channel : UInt16
  flags : UInt8
  dlc : UInt8
  id : UInt32
  frameLengthNs : UInt32
  bitCount : UInt8
  extDataOffset : UInt8
  data : FixedArray UInt8 8

/-- The fields of a message in order. -/
def CanMessage2Write.fields (m : CanMessage2Write) : List (List UInt8) :=
  [ofU32 m.header.flags, ofU16 m.header.clientIndex, ofU16 m.header.version,
    ofU64 m.header.timestampNs, ofU16 m.channel, [m.flags], [m.dlc], ofU32 m.id,
    ofU32 m.frameLengthNs, [m.bitCount], [m.extDataOffset], m.data.val]

def CanMessage2Write.bytes (m : CanMessage2Write) : List UInt8 := m.fields.flatten

theorem FileHeaderWrite.length_bytes (h : FileHeaderWrite) : h.bytes.length = 144 := by
  simp [FileHeaderWrite.bytes, List.length_flatMap, h.signature.property,
    h.measurementStartTime.property, h.lastObjectTime.property, h.reserved.property]

theorem ObjectBaseHeaderWrite.length_bytes (h : ObjectBaseHeaderWrite) : h.bytes.length = 16 := by
  simp [ObjectBaseHeaderWrite.bytes, h.signature.property]

theorem CanMessage2Write.length_bytes (m : CanMessage2Write) : m.bytes.length = 38 := by
  simp [CanMessage2Write.bytes, CanMessage2Write.fields, m.data.property]

/-! ### Writing -/

/-- The flag byte of a message, from the four conditions `build_can_message` tests. -/
def messageFlags (tx fd brs esi : Bool) : UInt8 :=
  let flags : UInt8 := 0
  let flags := if tx then flags ||| messageFlagTx else flags
  let flags := if fd then flags ||| messageFlagFd else flags
  let flags := if brs then flags ||| messageFlagBrs else flags
  if esi then flags ||| messageFlagEsi else flags

/-- The message of an event: the payload is cut to `8` bytes, its length counted up to `64`. -/
def buildCanMessage (event : CaptureEvent) : Run CodecError CanMessage2Write := do
  -- counted up to `64` bytes, of which eight find room
  let dataLen := min event.frame.data.length 64
  let data ← orPanic (filled 8 0 (← orPanic (range event.frame.data 0 (min dataLen 8))))
  pure
    { header :=
        { flags := timeOneNans
          clientIndex := 0
          version := 0
          timestampNs := timestampToNs event.timestamp }
      channel := (event.interface.index.getD 1).toUInt16
      flags := messageFlags (event.direction = .tx) event.frame.fd
        event.frame.fdFlags.bitRateSwitch event.frame.fdFlags.errorStateIndicator
      dlc := dataLen.toUInt8
      id := idLayout.word event.frame.id event.frame.class'
      frameLengthNs := dataLen.toUInt32
      bitCount := (dataLen * 8).toUInt8
      extDataOffset := 0
      data }

/-- The base header of a CAN message object with a message of this length. -/
def objectHeader (payloadLength : ℕ) : ObjectBaseHeaderWrite where
  signature := lobjSignature
  headerSize := 16
  headerVersion := 1
  objectSize := (16 + payloadLength).toUInt32
  objectType := objectTypeCanMessage2

/-- The object of an event: the body of the loop of `write_blf`. -/
def encodeObject (event : CaptureEvent) : Run CodecError (List UInt8) := do
  let message ← buildCanMessage event
  let payload := message.bytes
  pure ((objectHeader payload.length).bytes ++ payload)

/-- The notes `write_blf` pushes for an event. -/
def objectNotes (event : CaptureEvent) (index : ℕ) : List FidelityNote :=
  (if event.annotations ≠ [] then
    [{ eventIndex := some index
       field := "annotations"
       detail := "BLF export omits structured annotations" }]
  else []) ++
  [{ eventIndex := some index
     field := "payload"
     detail := "BLF export is best-effort in the bootstrap implementation " ++
       "and may not preserve every payload/layout detail" }]

/-- The loop of `write_blf`, from an event index on. -/
def writeObjects : ℕ → List CaptureEvent → Run CodecError (List UInt8 × List FidelityNote) :=
  writeEvents fun event index => do
    let object ← encodeObject event
    pure (object, objectNotes event index)

/-- The header of a file with objects of this total length. -/
def fileHeader (innerLength count : ℕ) : FileHeaderWrite where
  signature := loggSignature
  statsSize := 144
  apiVersion := 0
  applicationId := 0
  applicationMajor := 0
  applicationMinor := 1
  applicationBuild := 0
  fileSize := (144 + innerLength).toUInt64
  uncompressedSize := innerLength.toUInt64
  objectCount := count.toUInt32
  objectsRead := 0
  measurementStartTime := .replicate 8 0
  lastObjectTime := .replicate 8 0
  reserved := .replicate 18 0

/-- Write a BLF file using a single uncompressed log container. -/
def writeBlf (events : List CaptureEvent) : Run CodecError (List UInt8 × WriteReport) := do
  let (innerObjects, notes) ← writeObjects 0 events
  -- the header is known only once all objects are
  let header := fileHeader innerObjects.length events.length
  pure (header.bytes ++ innerObjects, { notes })

/-! ### Reading -/

/-- A CAN message object as `ablf` hands it out, with the fields `read_blf` looks at. -/
structure CanMessage86 where
  /-- `header.timestamp_ns` -/
  timestampNs : UInt64
  channel : UInt16
  flags : UInt8
  dlc : UInt8
  id : UInt32
  bitCount : UInt8
  data : List UInt8

/-- The data of an object of a file. -/
inductive ObjectTypes where
  | canMessage86 (message : CanMessage86)
  /-- Any other object, with its debug text. -/
  | other (debug : String)

def decodeId (raw : UInt32) : Except CodecError CanId :=
  let value := raw &&& 0x1fffffff
  if raw &&& canFlagExtended ≠ 0 then liftCore (CanId.extended value)
  else liftCore (CanId.standard value.toUInt16)

/-- The event of a message: the body of the loop of `read_blf` for CAN messages. -/
def convertMessage (message : CanMessage86) : Run CodecError CaptureEvent := do
  let id ← orFail (decodeId message.id)
  let class' := idLayout.classOf message.id
  -- the length is stated twice, and at most eight bytes of the data are taken
  let dataLen := min (max message.dlc (message.bitCount / 8)).toNat 8
  let data ← orPanic (range message.data 0 (min dataLen 8))
  let frame ← orFail (liftCore (CanFrame.new id class' data false
    { bitRateSwitch := false, errorStateIndicator := false }))
  let timestamp := nsToTimestamp message.timestampNs
  let interface : InterfaceRef := { name := none, index := some message.channel.toUInt32 }
  let direction : Direction := if message.flags &&& messageFlagTx ≠ 0 then .tx else .rx
  pure (CaptureEvent.new timestamp interface direction frame)

/-- The note of `read_blf` for the event that is read next. -/
def payloadNote (eventIndex : ℕ) : FidelityNote where
  eventIndex := some eventIndex
  field := "payload"
  detail := "BLF import is best-effort in the bootstrap implementation " ++
    "and may not preserve every payload/layout detail"

/-- The loop of `read_blf`; the report holds what was read so far. -/
def readObjects : List ObjectTypes → ReadReport → Run CodecError ReadReport
  | [], report => pure report
  | .canMessage86 message :: objects, report => do
    let event ← convertMessage message
    readObjects objects
      { events := report.events ++ [event]
        notes := report.notes ++ [payloadNote report.events.length] }
  | .other debug :: objects, report =>
    let note : FidelityNote :=
      { eventIndex := none, field := "object_type", detail := "ignored BLF object " ++ debug }
    readObjects objects { report with notes := report.notes ++ [note] }

/-- Read a BLF file into capture events: the objects of the file at `path`, and whether `ablf`
finds its header valid. -/
def readBlf (path : String) (isValid : Bool) (objects : List ObjectTypes) :
    Run CodecError ReadReport :=
  if isValid then readObjects objects { events := [], notes := [] }
  else .error (.error (.parse ("invalid BLF file " ++ path)))

end Cantools.Codec.Blf
