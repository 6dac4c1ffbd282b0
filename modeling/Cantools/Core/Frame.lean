import Mathlib.Algebra.Group.Nat.Defs

/-!
# The portable CAN frame

The identifier and frame types of `cantools-core`, shared by every other crate.

* `CanId` has private fields in the source and two constructors, `CanId.standard` and
  `CanId.extended`, so its range check is a field of the structure here and an
  out-of-range identifier cannot be built.
* `CanFrame` has public fields, so a frame that `CanFrame.new` would reject can be
  written down. `CanFrame.Valid` says that a frame is one `CanFrame.new` accepts
  (`CanFrame.new_eq_ok_iff`).

Byte strings are lists of `UInt8`; fixed-width identifiers and lengths keep their widths.
-/

namespace Cantools

/-- Errors returned when building or validating portable CAN values. -/
inductive CoreError where
  /-- The identifier exceeds the valid bit width for the requested format. -/
  | invalidCanId (value : UInt32) (kind : String)
  /-- The payload length does not match CAN or CAN FD limits. -/
  | invalidPayloadLength (length max : ℕ) (kind : String)
  /-- System time values earlier than the Unix epoch cannot be represented. -/
  | timestampBeforeEpoch
  deriving DecidableEq, Repr

/-! ### Identifiers -/

/-- The largest raw value of each identifier format. -/
def idMax (extended : Bool) : UInt32 := if extended then 0x1fffffff else 0x7ff

/-- Canonical CAN identifier representation. -/
structure CanId where
  raw : UInt32
  isExtended : Bool
  /-- The bound both constructors check. -/
  inRange : raw ≤ idMax isExtended
  deriving DecidableEq, Repr

namespace CanId

theorem standard_inRange {raw : UInt16} (h : ¬ raw > 0x7ff) :
    raw.toUInt32 ≤ idMax false := by
  rw [gt_iff_lt, UInt16.lt_iff_toNat_lt, Nat.not_lt] at h
  exact UInt32.le_iff_toNat_le.mpr (by simpa [idMax] using h)

/-- Create a standard 11-bit identifier. -/
def standard (raw : UInt16) : Except CoreError CanId :=
  if h : raw > 0x7ff then
    .error (.invalidCanId raw.toUInt32 "standard identifier")
  else
    .ok ⟨raw.toUInt32, false, standard_inRange h⟩

/-- Create an extended 29-bit identifier. -/
def extended (raw : UInt32) : Except CoreError CanId :=
  if h : raw > 0x1fffffff then
    .error (.invalidCanId raw "extended identifier")
  else
    .ok ⟨raw, true, UInt32.not_lt.mp h⟩

/-- The identifier is determined by its raw value and its format. -/
theorem ext {a b : CanId} (h_raw : a.raw = b.raw) (h_ext : a.isExtended = b.isExtended) :
    a = b := by
  cases a; cases b; simp_all

theorem raw_le (id : CanId) : id.raw ≤ 0x1fffffff := by
  refine UInt32.le_trans id.inRange ?_
  cases id.isExtended <;> decide

/-- An identifier has 29 bits. -/
theorem toNat_raw_lt (id : CanId) : id.raw.toNat < 2 ^ 29 :=
  Nat.lt_of_le_of_lt (UInt32.le_iff_toNat_le.mp id.raw_le) (by decide)

theorem raw_le_of_standard {id : CanId} (h : id.isExtended = false) : id.raw ≤ 0x7ff := by
  have h_range := id.inRange
  rwa [h] at h_range

/-- Rebuilding an extended identifier from its raw value. -/
theorem extended_raw {id : CanId} (h : id.isExtended = true) : extended id.raw = .ok id := by
  have h_le : ¬ id.raw > 0x1fffffff := UInt32.not_lt.mpr id.raw_le
  rw [extended, dif_neg h_le]
  exact congrArg Except.ok (ext rfl h.symm)

/-- Rebuilding a standard identifier from its raw value, which survives the narrowing to
16 bits. -/
theorem standard_raw {id : CanId} (h : id.isExtended = false) :
    standard id.raw.toUInt16 = .ok id := by
  have h_le := UInt32.le_iff_toNat_le.mp (raw_le_of_standard h)
  have h_bound : id.raw.toNat ≤ 2047 := h_le
  have h_nat : id.raw.toUInt16.toNat = id.raw.toNat := by
    rw [UInt32.toNat_toUInt16, Nat.mod_eq_of_lt (by omega)]
  have h_not : ¬ id.raw.toUInt16 > 0x7ff := by
    rw [gt_iff_lt, UInt16.lt_iff_toNat_lt, h_nat, Nat.not_lt]
    exact h_bound
  rw [standard, dif_neg h_not]
  refine congrArg Except.ok (ext (UInt32.toNat_inj.mp ?_) h.symm)
  rw [UInt16.toNat_toUInt32, h_nat]

/-- An identifier is rebuilt from its raw value by the constructor of its format. -/
theorem rebuild (id : CanId) :
    (if id.isExtended then extended id.raw else standard id.raw.toUInt16) = .ok id := by
  split
  · next h => exact extended_raw h
  · next h => exact standard_raw (Bool.eq_false_iff.mpr h)

end CanId

/-! ### Frames -/

/-- Coarse frame class. -/
inductive FrameClass where
  /-- Standard or extended data frame. -/
  | data
  /-- Classic CAN remote frame. -/
  | remote
  /-- Backend-surfaced error frame. -/
  | error
  deriving DecidableEq, Repr

/-- CAN FD flags that are orthogonal to identifier or capture metadata. -/
structure FdFlags where
  bitRateSwitch : Bool := false
  errorStateIndicator : Bool := false
  deriving DecidableEq, Repr

/-- Raw CAN or CAN FD frame. -/
structure CanFrame where
  id : CanId
  class' : FrameClass
  data : List UInt8
  /-- Whether the frame should be encoded as CAN FD. -/
  fd : Bool
  fdFlags : FdFlags
  deriving DecidableEq, Repr

namespace CanFrame

/-- The largest payload of each frame kind. -/
def maxLen (fd : Bool) : ℕ := if fd then 64 else 8

/-- Build a validated frame. -/
def new (id : CanId) (class' : FrameClass) (data : List UInt8) (fd : Bool) (fdFlags : FdFlags) :
    Except CoreError CanFrame :=
  if data.length > maxLen fd then
    .error (.invalidPayloadLength data.length (maxLen fd)
      (if fd then "CAN FD frame" else "classic CAN frame"))
  else
    .ok { id, class', data, fd, fdFlags }

/-- The payload fits the frame kind: the frame is one that `CanFrame.new` builds. -/
def Valid (frame : CanFrame) : Prop := frame.data.length ≤ maxLen frame.fd

instance (frame : CanFrame) : Decidable frame.Valid := inferInstanceAs (Decidable (_ ≤ _))

/-- `CanFrame.new` returns exactly the valid frame with the given fields. -/
theorem new_eq_ok_iff {id : CanId} {class' : FrameClass} {data : List UInt8} {fd : Bool}
    {fdFlags : FdFlags} {frame : CanFrame} :
    new id class' data fd fdFlags = .ok frame ↔
      frame = { id, class', data, fd, fdFlags } ∧ frame.Valid := by
  unfold new Valid
  split
  · -- too long: there is no frame
    next h =>
    constructor
    · intro h_eq; cases h_eq
    · rintro ⟨rfl, h_le⟩
      exact absurd h_le (Nat.not_le.mpr h)
  · -- else the frame has the parts it is given
    next h =>
    constructor
    · intro h_eq
      cases h_eq
      exact ⟨rfl, Nat.not_lt.mp h⟩
    · rintro ⟨rfl, -⟩
      rfl

theorem Valid.length_le {frame : CanFrame} (h : frame.Valid) : frame.data.length ≤ 64 := by
  unfold Valid maxLen at h
  split at h <;> omega

theorem Valid.length_le_of_classic {frame : CanFrame} (h : frame.Valid)
    (h_fd : frame.fd = false) : frame.data.length ≤ 8 := by
  unfold Valid at h
  rwa [h_fd] at h

/-- A valid frame is rebuilt from its own fields. -/
theorem Valid.new_eq {frame : CanFrame} (h : frame.Valid) :
    new frame.id frame.class' frame.data frame.fd frame.fdFlags = .ok frame :=
  new_eq_ok_iff.mpr ⟨rfl, h⟩

end CanFrame

end Cantools
