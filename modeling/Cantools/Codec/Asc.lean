import Cantools.Codec.Basic
import Cantools.Framework.Numeral
import Cantools.Framework.Text
import Cantools.Framework.Utf8

/-!
# The ASC codec

`write_asc` prints one line for every event between fixed header and footer lines; `read_asc`
takes a log apart line by line and word by word. Error frames become comment lines, which the
reader passes over. A log is a list of characters.

Floating point is not modelled. `FloatText` has what the codec asks of it: the text of a time, the
parser of such a text, and the nanoseconds of what was parsed.
-/

namespace Cantools.Codec.Asc

open Numeral Text

/-- The floating-point operations of the codec. -/
structure FloatText where
  /-- The numbers of type `f64`. -/
  F64 : Type
  /-- `{:.6}` of `seconds as f64 + f64::from(nanos) / 1_000_000_000.0` -/
  format : Timestamp → List Char
  /-- `str::parse::<f64>`, with the text of its error -/
  parse : List Char → Except String F64
  /-- `(seconds * 1_000_000_000.0).round() as i64` -/
  nanosTotal : F64 → Int64

def directionFromStr (raw : List Char) : Option Direction :=
  if raw = "Rx".toList then some .rx
  else if raw = "Tx".toList then some .tx
  else none

def encodeHexBytes (bytes : List UInt8) : List Char :=
  [' '].intercalate (bytes.map fun byte => print 16 2 byte.toNat)

/-- An error about a word of a line, with the text of its cause. -/
def invalid (what : String) (word : List Char) (error : String) : CodecError :=
  .parse ("invalid ASC " ++ what ++ " " ++ String.ofList word ++ ": " ++ error)

/-- `from_str_radix` with its error mapped; a `usize` has 64 bits. -/
def parseNumber (what : String) (radix bound : ℕ) (word : List Char) : Except CodecError ℕ :=
  (fromStrRadix radix bound word).mapError fun error => invalid what word error.message

/-- An identifier, and whether it is extended: with an `x` behind it or more than three digits. -/
def parseHexId (raw : List Char) : Except CodecError (CanId × Bool) := do
  let trimmed := raw.rdropWhile (· == 'x')
  -- the length test is made without the `x`
  let extended := raw.getLast? = some 'x' ∨ (Utf8.encode trimmed).length > 3
  let value ← (fromStrRadix 16 (2 ^ 32) trimmed).mapError fun error =>
    invalid "identifier" raw error.message
  let id ← liftCore
    (if extended then CanId.extended value.toUInt32
    else CanId.standard value.toUInt32.toUInt16)
  pure (id, extended)

/-- `eq_ignore_ascii_case` -/
def eqIgnoreAsciiCase (a b : List Char) : Bool := a.map Char.toLower = b.map Char.toLower

/-- The first characters of the lines the reader passes over. -/
def skippedStarts : List (List Char) :=
  ["date".toList, "base".toList, "Begin Triggerblock".toList, "End TriggerBlock".toList,
    "//".toList]

/-- `nanos_total.rem_euclid(1_000_000_000)` -/
def remEuclid (nanosTotal : Int64) : Int64 :=
  let r := nanosTotal % 1000000000
  if r < 0 then r + 1000000000 else r

/-- The payload of a line, from its kind, its length and the words behind them; only data frames
have one. -/
def parseData (frameKind len : List Char) (tokens : List (List Char)) :
    Except CodecError (List UInt8) :=
  if eqIgnoreAsciiCase frameKind "d".toList ∨ eqIgnoreAsciiCase frameKind "fd".toList then do
    let declaredLen ← parseNumber "dlc" 10 (2 ^ 64) len
    -- fewer words than declared are no error
    (tokens.take declaredLen).mapM fun token => do
      let byte ← parseNumber "data byte" 16 (2 ^ 8) token
      pure byte.toUInt8
  else pure []

section Codec

variable (float : FloatText)

/-! ### Reading -/

/-- The event of the six first words of a line and the words behind them. -/
def parseEvent (time name id direction frameKind len : List Char) (tokens : List (List Char)) :
    Except CodecError CaptureEvent := do
  let seconds ← (float.parse time).mapError (invalid "timestamp" time)
  -- the channel column has the interface name, and no index
  let interface : InterfaceRef := { name := some (String.ofList name), index := none }
  -- whether it was extended is in the identifier itself
  let (id, _) ← parseHexId id
  let direction ← match directionFromStr direction with
    | some direction => Except.ok direction
    | none => .error (.parse ("invalid ASC direction " ++ String.ofList direction))
  let data ← parseData frameKind len tokens
  let fd := eqIgnoreAsciiCase frameKind "fd".toList
  let class' : FrameClass :=
    if eqIgnoreAsciiCase frameKind "r".toList then .remote
    else if eqIgnoreAsciiCase frameKind "error".toList then .error
    else .data
  let nanosTotal := float.nanosTotal seconds
  let timestamp : Timestamp :=
    { seconds := nanosTotal / 1000000000
      nanos := (remEuclid nanosTotal).toUInt64.toUInt32 }
  let frame ← liftCore (CanFrame.new id class' data fd {})
  pure (CaptureEvent.new timestamp interface direction frame)

/-- One line of a log, behind a report of what was read before it. -/
def readLine (report : ReadReport) (line : List Char) : Except CodecError ReadReport :=
  let trimmed := trim line
  if trimmed = [] ∨ ∃ start ∈ skippedStarts, start <+: trimmed then .ok report
  else
    match splitWhitespace trimmed with
    | time :: name :: id :: direction :: frameKind :: len :: tokens => do
      let event ← parseEvent float time name id direction frameKind len tokens
      pure { report with events := report.events ++ [event] }
    | _ =>
      let note : FidelityNote :=
        { eventIndex := none
          field := "line"
          detail := "skipped unrecognized ASC line: " ++ String.ofList trimmed }
      .ok { report with notes := report.notes ++ [note] }

/-- Read an ASC log into capture events. -/
def readAsc (log : List Char) : Except CodecError ReadReport :=
  (lines log).foldlM (readLine float) { events := [], notes := [] }

/-! ### Writing -/

/-- The identifier of a frame in a line. -/
def idText (id : CanId) : List Char :=
  if id.isExtended then print 16 8 id.raw.toNat ++ ['x'] else print 16 3 id.raw.toNat

def directionText : Direction → List Char
  | .rx => "Rx".toList
  | .tx => "Tx".toList

/-- The kind of a frame in a line; error frames have none. -/
def kindText (frame : CanFrame) : Option (List Char) :=
  match frame.class' with
  | .data => if frame.fd then some "FD".toList else some "d".toList
  | .remote => some "r".toList
  | .error => none

/-- The name of an event's interface. -/
def interfaceText (event : CaptureEvent) : List Char :=
  (event.interface.name.getD "can0").toList

/-- The line of an event with a frame of this kind. -/
def eventLine (event : CaptureEvent) (kind : List Char) : List Char :=
  (float.format event.timestamp).leftpad 10 ' ' ++ [' '] ++ interfaceText event ++ [' '] ++
    idText event.frame.id ++ [' '] ++ directionText event.direction ++ [' '] ++ kind ++ [' '] ++
    print 10 1 event.frame.data.length ++ [' '] ++ encodeHexBytes event.frame.data

/-- The comment line of an error frame. -/
def errorLine (event : CaptureEvent) : List Char :=
  "// error frame ".toList ++ idText event.frame.id ++ [' '] ++ directionText event.direction

/-- The line of an event: the body of the loop of `write_asc`. -/
def writtenLine (event : CaptureEvent) : List Char :=
  match kindText event.frame with
  | some kind => eventLine float event kind
  | none => errorLine event

/-- The note about an error frame. -/
def frameClassNote (index : ℕ) : FidelityNote where
  eventIndex := some index
  field := "frame_class"
  detail := "ASC export downgrades error frames into comment lines"

/-- The notes `write_asc` pushes for an event. -/
def eventNotes (event : CaptureEvent) (index : ℕ) : List FidelityNote :=
  (if event.annotations ≠ [] then
    [{ eventIndex := some index
       field := "annotations"
       detail := "ASC cannot persist structured annotations; annotations were omitted" }]
  else []) ++
  (if event.interface.index.isSome then
    [{ eventIndex := some index
       field := "interface_index"
       detail := "ASC does not preserve numeric interface indices; " ++
         "only the interface name was written" }]
  else []) ++
  (if (kindText event.frame).isNone then [frameClassNote index] else [])

/-- The lines before the events. -/
def headerLines : List (List Char) :=
  ["date generated by cantools-rs".toList, "base hex  timestamps absolute".toList,
    "Begin Triggerblock".toList]

/-- The line behind the events. -/
def footerLine : List Char := "End TriggerBlock".toList

/-- Write capture events to an ASC log. -/
def writeAsc (events : List CaptureEvent) : List Char × WriteReport :=
  ((headerLines ++ events.map (writtenLine float) ++ [footerLine]).flatMap (· ++ ['\n']),
    { notes := events.zipIdx.flatMap fun e => eventNotes e.1 e.2 })

end Codec

end Cantools.Codec.Asc
