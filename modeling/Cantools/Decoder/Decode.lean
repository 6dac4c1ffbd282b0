import Cantools.Decoder.Extract

/-!
# Decoding a frame

`Decoder::decode_frame` over the loaded databases. The only fault it can end in is a panic: a
payload that is too short for a signal is looked at and becomes a diagnostic.
-/

namespace Cantools.Decoder

open Machine Program

/-! ### The code -/

/-- Structured decode result for one signal. -/
structure DecodedSignal where
  name : String
  /-- Raw integer value after bit extraction and sign extension. -/
  raw : Int64
  /-- Scaled numeric value. -/
  scaled : Float
  /-- Engineering unit from the DBC when present. -/
  unit : Option String
  /-- Enumerated display text when the DBC defines one. -/
  enumText : Option String

/-- Decoded message payload and signal set. -/
structure DecodedMessage where
  /-- Source database label. -/
  database : String
  messageName : String
  signals : List DecodedSignal

/-- Decode diagnostics surfaced alongside passive decoding. -/
inductive Diagnostic where
  /-- No loaded DBC matched the frame identifier. -/
  | noMatch (id : UInt32)
  /-- More than one loaded DBC matched the frame identifier. -/
  | ambiguousMessage (id : UInt32) (databases : List String)
  /-- A signal extended past the payload length. -/
  | payloadTooShort (signal : String) (expectedBits actualBytes : ℕ)
  deriving DecidableEq, Repr

/-- Outcome of decoding a frame. -/
structure DecodeOutcome where
  /-- Successfully decoded message when the match is unambiguous. -/
  message : Option DecodedMessage
  diagnostics : List Diagnostic

/-- The message identifier of a frame. -/
def frameMessageId (id : CanId) : UInt32 :=
  -- bit 31 marks an extended identifier, as in a DBC file
  if id.isExtended then 0x80000000 ||| id.raw else id.raw

/-- The signal is in the branch the multiplexor selects. -/
def signalActive (signal : Signal) (muxValue : Option Int64) : Bool :=
  match signal.multiplexerIndicator with
  | .plain => true
  | .multiplexor => true
  | .multiplexedSignal expected => muxValue = some expected.toInt64
  | .multiplexorAndMultiplexedSignal expected =>
    -- an extended multiplexor is active also when the switch has no value
    muxValue.isNone || muxValue = some expected.toInt64

section Code

variable (checks : Bool)

/-- The value of one signal. -/
def extractSignal (database : LoadedDbc) (messageId : MessageId) (signal : Signal)
    (payload : List UInt8) : Run DiagnosticError DecodedSignal := do
  let raw ← extractRaw checks payload signal
  let signed ←
    if signal.valueType = .signed then signExtend checks raw (signal.size.toNat % 2 ^ 32)
    else pure raw.toInt64
  let enumText := (database.dbc.valueDescriptionsForSignal messageId signal.name).bind
    fun descriptions => (descriptions.find? (·.id = signed)).map (·.description)
  pure
    { name := signal.name
      raw := signed
      scaled := signed.toFloat * signal.factor + signal.offset
      unit := if signal.unit.isEmpty then none else some signal.unit
      enumText }

/-- The value that selects the branch of a message, when it can be read. -/
def messageMuxValue (dbc : Dbc) (messageId : MessageId) (payload : List UInt8) :
    Run Empty (Option Int64) :=
  match dbc.messageMultiplexorSwitch messageId with
  | .ok (some signal) => do
    -- a switch outside the payload has no value, and leaves no diagnostic
    let value ← result (extractRaw checks payload signal)
    pure (value.toOption.map UInt64.toInt64)
  | _ => pure none

/-- The signal loop of `decode_frame`. -/
def decodeSignals (database : LoadedDbc) (messageId : MessageId) (payload : List UInt8)
    (muxValue : Option Int64) :
    List Signal → Run Empty (List DecodedSignal × List Diagnostic)
  | [] => pure ([], [])
  | signal :: rest =>
    if signalActive signal muxValue then do
      let extracted ← result (extractSignal checks database messageId signal payload)
      let (signals, diagnostics) ← decodeSignals database messageId payload muxValue rest
      match extracted with
      | .ok decoded => pure (decoded :: signals, diagnostics)
      | .error (.payloadTooShort name expectedBits actualBytes) =>
        pure (signals, .payloadTooShort name expectedBits actualBytes :: diagnostics)
    else
      decodeSignals database messageId payload muxValue rest

/-- The databases that know the frame's identifier, each with its first such message. -/
def matchesOf (databases : List LoadedDbc) (frame : CanFrame) : List (LoadedDbc × Message) :=
  databases.filterMap fun database =>
    -- only the first message with the identifier counts
    (database.dbc.messages.find? (·.id.raw = frameMessageId frame.id)).map (database, ·)

/-- Decode a frame against the loaded DBCs. -/
def decodeFrame (databases : List LoadedDbc) (frame : CanFrame) : Run Empty DecodeOutcome :=
  match matchesOf databases frame with
  | [] => pure { message := none, diagnostics := [.noMatch frame.id.raw] }
  | [(database, message)] => do
    let muxValue ← messageMuxValue checks database.dbc message.id frame.data
    let (signals, diagnostics) ←
      decodeSignals checks database message.id frame.data muxValue message.signals
    pure
      { message := some { database := database.name, messageName := message.name, signals }
        diagnostics }
  | ambiguous =>
    pure
      { message := none
        diagnostics :=
          [.ambiguousMessage frame.id.raw (ambiguous.map fun found => found.1.name)] }

end Code

end Cantools.Decoder
