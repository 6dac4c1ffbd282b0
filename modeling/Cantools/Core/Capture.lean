import Cantools.Core.Frame

/-!
# The capture envelope

A `CaptureEvent` wraps a raw frame with the metadata a capture keeps: timestamp, interface,
direction and annotations. The codecs translate to and from this type.
-/

namespace Cantools

/-- Timestamp stored as seconds and nanoseconds since Unix epoch. -/
structure Timestamp where
  seconds : Int64
  /-- Additional nanoseconds in the current second. -/
  nanos : UInt32
  deriving DecidableEq, Repr

/-- Interface reference kept outside the raw frame itself. -/
structure InterfaceRef where
  /-- Friendly interface name when known. -/
  name : Option String
  /-- Numeric ifindex when known. -/
  index : Option UInt32
  deriving DecidableEq, Repr

/-- Capture direction as observed by the backend. -/
inductive Direction where
  /-- Frame was received. -/
  | rx
  /-- Frame was transmitted. -/
  | tx
  deriving DecidableEq, Repr

/-- A direction is rebuilt from a flag for the transmitted ones. -/
theorem Direction.rebuild (direction : Direction) :
    (if direction = .tx then Direction.tx else .rx) = direction := by
  cases direction <;> rfl

/-- Simple key-value annotation attached to a capture event. -/
structure Annotation where
  key : String
  value : String
  deriving DecidableEq, Repr

/-- Portable capture envelope around a raw frame. -/
structure CaptureEvent where
  timestamp : Timestamp
  interface : InterfaceRef
  direction : Direction
  frame : CanFrame
  /-- Optional annotations layered on top of the raw frame. -/
  annotations : List Annotation
  deriving DecidableEq, Repr

/-- Build a basic capture event. -/
def CaptureEvent.new (timestamp : Timestamp) (interface : InterfaceRef) (direction : Direction)
    (frame : CanFrame) : CaptureEvent :=
  { timestamp, interface, direction, frame, annotations := [] }

end Cantools
