import Cantools.Core.Frame
import Cantools.Framework.Bits

/-!
# Identifiers packed with their flags

BLF objects and SocketCAN frames carry the identifier of a frame in one 32-bit word: the raw
value in the low 29 bits, and three flags above it for the extended format, for remote frames
and for error frames. Both crates pack and unpack the word with code of their own. An
`IdLayout` has the positions of the flags together with what makes them readable, so that what
is unpacked from a packed word is said once, for every such layout.
-/

namespace Cantools

/-- Mask of the bits a raw identifier may use. -/
def idMask : UInt32 := 0x1fffffff

/-- The flags that are set, as one word. -/
def flagBits (extendedFlag remoteFlag errorFlag : UInt32) (extended remote error : Bool) :
    UInt32 :=
  (if extended then extendedFlag else 0) ||| (if remote then remoteFlag else 0) |||
    (if error then errorFlag else 0)

/-- The flags of an identifier word. -/
structure IdLayout where
  extendedFlag : UInt32
  remoteFlag : UInt32
  errorFlag : UInt32
  /-- No flag lies under the mask. -/
  outside : ∀ extended remote error,
    flagBits extendedFlag remoteFlag errorFlag extended remote error &&& idMask = 0
  /-- Each flag shows whether it was set, whatever the others are. -/
  readable : ∀ extended remote error,
    let bits := flagBits extendedFlag remoteFlag errorFlag extended remote error
    (bits &&& extendedFlag ≠ 0 ↔ extended) ∧ (bits &&& remoteFlag ≠ 0 ↔ remote) ∧
      (bits &&& errorFlag ≠ 0 ↔ error)

namespace IdLayout

variable (layout : IdLayout)

/-- The word of a frame's identifier and class. -/
def word (id : CanId) (class' : FrameClass) : UInt32 :=
  let raw := id.raw
  let raw := if id.isExtended then raw ||| layout.extendedFlag else raw
  match class' with
  | .remote => raw ||| layout.remoteFlag
  | .error => raw ||| layout.errorFlag
  | .data => raw

/-- The class of a frame, from its word; the error flag goes first. -/
def classOf (word : UInt32) : FrameClass :=
  if word &&& layout.errorFlag ≠ 0 then .error
  else if word &&& layout.remoteFlag ≠ 0 then .remote
  else .data

/-- The flags of a frame with this identifier and class. -/
def flags (id : CanId) (class' : FrameClass) : UInt32 :=
  flagBits layout.extendedFlag layout.remoteFlag layout.errorFlag id.isExtended
    (class' = .remote) (class' = .error)

theorem word_eq (id : CanId) (class' : FrameClass) :
    layout.word id class' = id.raw ||| layout.flags id class' := by
  unfold word flags flagBits
  cases id.isExtended <;> cases class' <;> simp [UInt32.or_assoc]

/-! ### Unpacking -/

theorem raw_and_idMask (id : CanId) : id.raw &&& idMask = id.raw :=
  Bits.and_mask_of_le (n := 29) rfl id.raw_le

/-- **The identifier.** A mask that keeps the raw value cuts it out of the word. -/
theorem word_and_mask {id : CanId} {mask : UInt32} (class' : FrameClass)
    (h_mask : mask &&& idMask = mask) (h_raw : id.raw &&& mask = id.raw) :
    layout.word id class' &&& mask = id.raw := by
  -- the mask keeps none of the flags, and all of the raw value
  have h_flags : layout.flags id class' &&& mask = 0 := by
    calc layout.flags id class' &&& mask
        = layout.flags id class' &&& idMask &&& mask := by
          rw [UInt32.and_assoc, UInt32.and_comm idMask, h_mask]
      _ = 0 &&& mask := by rw [flags, layout.outside]
      _ = 0 := UInt32.zero_and
  calc layout.word id class' &&& mask
      = (id.raw ||| layout.flags id class') &&& mask := by rw [word_eq]
    _ = id.raw := Bits.or_and_mask h_raw h_flags

theorem word_and_idMask (id : CanId) (class' : FrameClass) :
    layout.word id class' &&& idMask = id.raw :=
  layout.word_and_mask class' (UInt32.and_self ..) (raw_and_idMask id)

/-- Under a flag, the word shows what the flags alone show. -/
theorem word_and_flag (id : CanId) (class' : FrameClass) {flag : UInt32}
    (h_flag : idMask &&& flag = 0) :
    layout.word id class' &&& flag = layout.flags id class' &&& flag := by
  rw [word_eq, Bits.or_and_flag (raw_and_idMask id) h_flag]

theorem idMask_and_extendedFlag : idMask &&& layout.extendedFlag = 0 := by
  -- the flag alone is one of the combinations that lie outside
  have h := layout.outside true false false
  rwa [UInt32.and_comm, flagBits, if_pos rfl, if_neg Bool.false_ne_true,
    if_neg Bool.false_ne_true, UInt32.or_zero, UInt32.or_zero] at h

theorem idMask_and_remoteFlag : idMask &&& layout.remoteFlag = 0 := by
  have h := layout.outside false true false
  rwa [UInt32.and_comm, flagBits, if_pos rfl, if_neg Bool.false_ne_true,
    if_neg Bool.false_ne_true, UInt32.zero_or, UInt32.or_zero] at h

theorem idMask_and_errorFlag : idMask &&& layout.errorFlag = 0 := by
  have h := layout.outside false false true
  rwa [UInt32.and_comm, flagBits, if_pos rfl, if_neg Bool.false_ne_true,
    if_neg Bool.false_ne_true, UInt32.or_zero, UInt32.zero_or] at h

/-- **The format.** -/
theorem word_extended_iff (id : CanId) (class' : FrameClass) :
    layout.word id class' &&& layout.extendedFlag ≠ 0 ↔ id.isExtended = true := by
  rw [layout.word_and_flag id class' layout.idMask_and_extendedFlag]
  exact (layout.readable ..).1

/-- **The class.** -/
theorem classOf_word (id : CanId) (class' : FrameClass) :
    layout.classOf (layout.word id class') = class' := by
  have h_remote : layout.word id class' &&& layout.remoteFlag ≠ 0 ↔ class' = .remote := by
    rw [layout.word_and_flag id class' layout.idMask_and_remoteFlag]
    exact (layout.readable ..).2.1.trans decide_eq_true_iff
  have h_error : layout.word id class' &&& layout.errorFlag ≠ 0 ↔ class' = .error := by
    rw [layout.word_and_flag id class' layout.idMask_and_errorFlag]
    exact (layout.readable ..).2.2.trans decide_eq_true_iff
  rw [classOf]
  simp only [h_remote, h_error]
  cases class' <;> rfl

end IdLayout

end Cantools
