import Cantools.Core.Frame

/-!
# Loaded databases

What the decoder of `cantools-dbc` uses of a parsed database. The parser and the types are those
of the `can_dbc` crate: a message id is what its `raw()` returns, and the two look-ups that
crate offers, `message_multiplexor_switch` and `value_descriptions_for_signal`, are fields of
the database, so that nothing is assumed about what they find.
-/

namespace Cantools.Decoder

/-- A message identifier; extended ones have bit 31 set. -/
structure MessageId where
  raw : UInt32
  deriving DecidableEq, Repr

inductive ByteOrder where
  | littleEndian
  | bigEndian
  deriving DecidableEq, Repr

inductive ValueType where
  | signed
  | unsigned
  deriving DecidableEq, Repr

inductive MultiplexIndicator where
  /-- Signal is not multiplexed. -/
  | plain
  /-- Signal selects the branch. -/
  | multiplexor
  /-- Signal is present in one branch. -/
  | multiplexedSignal (value : UInt64)
  /-- Both at once. -/
  | multiplexorAndMultiplexedSignal (value : UInt64)
  deriving DecidableEq, Repr

structure Signal where
  name : String
  multiplexerIndicator : MultiplexIndicator
  startBit : UInt64
  size : UInt64
  byteOrder : ByteOrder
  valueType : ValueType
  factor : Float
  offset : Float
  unit : String

structure Message where
  id : MessageId
  name : String
  signals : List Signal

/-- The display text of a value. -/
structure ValDescription where
  id : Int64
  description : String
  deriving DecidableEq, Repr

/-- A parsed database. -/
structure Dbc where
  messages : List Message
  /-- The signal that selects the branch of a message. -/
  messageMultiplexorSwitch : MessageId → Except Unit (Option Signal)
  /-- The display texts of a signal's values. -/
  valueDescriptionsForSignal : MessageId → String → Option (List ValDescription)

/-- A database under the label of its loader. -/
structure LoadedDbc where
  name : String
  dbc : Dbc

end Cantools.Decoder
