import Cantools.Core.Frame
import Cantools.Framework.ByteIndex
import Cantools.Framework.Numeral
import Cantools.Framework.Program

/-!
# Frames on the command line

The texts of `cantools-cli`: `parse_id` and `parse_hex_bytes` read an identifier and a payload,
`build_frame` makes a frame of them, and `render_frame` prints a frame. A text is a list of
characters, and a slice of one is cut at byte positions.
-/

namespace Cantools.Cli

open Numeral Program Utf8

/-- The errors of the command line, which `anyhow` carries. -/
inductive CliError where
  /-- `bail!` -/
  | message (text : String)
  /-- `context`, above the error of a number -/
  | context (text : String) (cause : ParseIntError)
  /-- Core value validation failed. -/
  | core (error : CoreError)
  deriving DecidableEq, Repr

/-! ### Reading -/

/-- `input.replace([' ', '_'], "")` -/
def compact (input : List Char) : List Char := input.filter fun c => c ≠ ' ' ∧ c ≠ '_'

/-- The byte of the two digits at a position. -/
def hexByte (compact : List Char) (offset : ℕ) : Run CliError UInt8 := do
  let digits ← orPanic (sliceBytes compact offset (offset + 2))
  let byte ← orFail ((fromStrRadix 16 (2 ^ 8) digits).mapError
    (.context "invalid hex payload byte"))
  pure byte.toUInt8

/-- The loop of `parse_hex_bytes`: `(0..compact.len()).step_by(2)`, up to the first error. -/
def hexBytes (compact : List Char) : Run CliError (List UInt8) :=
  (List.range' 0 ((byteLen compact + 1) / 2) 2).mapM (hexByte compact)

def parseHexBytes (input : List Char) : Run CliError (List UInt8) :=
  let compact := compact input
  if compact.isEmpty then pure []
  else if ¬ 2 ∣ byteLen compact then
    .error (.error (.message "hex payload must contain an even number of digits"))
  else hexBytes compact

/-- `trim_start_matches("0x")` -/
def trimHexPrefix : List Char → List Char
  | '0' :: 'x' :: text => trimHexPrefix text
  | text => text

/-- An identifier; its value decides the format. -/
def parseId (input : List Char) : Except CliError CanId := do
  let trimmed := trimHexPrefix input
  let raw ← (fromStrRadix 16 (2 ^ 32) trimmed).mapError
    (.context ("invalid CAN identifier " ++ String.ofList input))
  if raw.toUInt32 ≤ 0x7ff then (CanId.standard raw.toUInt32.toUInt16).mapError .core
  else (CanId.extended raw.toUInt32).mapError .core

def buildFrame (id data : List Char) (fd brs esi : Bool) : Run CliError CanFrame := do
  let id ← orFail (parseId id)
  let data ← parseHexBytes data
  orFail ((CanFrame.new id .data data fd
    { bitRateSwitch := brs, errorStateIndicator := esi }).mapError .core)

/-! ### Printing -/

/-- The identifier of a printed frame; its format decides the number of digits. -/
def idText (frame : CanFrame) : List Char :=
  if frame.id.isExtended then print 16 8 frame.id.raw.toNat else print 16 3 frame.id.raw.toNat

/-- The payload of a printed frame. -/
def dataText (frame : CanFrame) : List Char :=
  [' '].intercalate (frame.data.map fun byte => print 16 2 byte.toNat)

/-- What stands behind the payload. -/
def suffix (frame : CanFrame) : List Char := if frame.fd then " fd".toList else []

def renderFrame (frame : CanFrame) : List Char :=
  idText frame ++ " [".toList ++ (print 10 1 frame.data.length).leftpad 2 ' ' ++ "] ".toList ++
    dataText frame ++ suffix frame

end Cantools.Cli
