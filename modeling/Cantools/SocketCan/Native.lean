import Cantools.Core.IdWord
import Cantools.Framework.Buffer
import Cantools.Framework.LittleEndian
import Cantools.Framework.Program

/-!
# Native SocketCAN frames

`RawSocketImpl::send` fills a `can_frame` or a `canfd_frame` and hands its bytes to the kernel;
`recv_native` takes whatever the kernel puts into a buffer of the larger layout and tells the two
apart by the number of bytes received. The system calls are outside the model: `send` has the
result of its `write`, `recv_native` that of its `recv` and the content of the buffer after it
(`Received`).

The structures are `repr(C)` without padding, so their bytes are their fields in order, integers
in the byte order of the machine.
-/

namespace Cantools.SocketCan

open Buffer Chunks LittleEndian Program

/-- The kinds of `errno` that the backend tells apart. -/
inductive Errno where
  | wouldBlock
  | other (code : ℤ)
  deriving DecidableEq, Repr

/-- SocketCAN backend errors. -/
inductive Error where
  /-- I/O failed. -/
  | io (error : Errno)
  /-- Core frame validation failed. -/
  | core (error : CoreError)
  deriving DecidableEq, Repr

/-- The `?` operator on a core result. -/
def liftCore {α : Type} : Except CoreError α → Except Error α
  | .ok a => .ok a
  | .error e => .error (.core e)

@[simp] theorem liftCore_ok {α : Type} (a : α) : liftCore (.ok a) = .ok a := rfl

def canEffFlag : UInt32 := 0x80000000
def canRtrFlag : UInt32 := 0x40000000
def canErrFlag : UInt32 := 0x20000000
def canEffMask : UInt32 := 0x1fffffff
def canFdBrs : UInt8 := 0x01
def canFdEsi : UInt8 := 0x02

/-- The flags of `can_id`. -/
def idLayout : IdLayout where
  extendedFlag := canEffFlag
  remoteFlag := canRtrFlag
  errorFlag := canErrFlag
  outside := by decide
  readable := by decide

/-! ### Layouts -/

/-- `struct can_frame` -/
structure CanFrameNative where
  canId : UInt32
  canDlc : UInt8
  len8Dlc : UInt8
  pad : UInt8
  res0 : UInt8
  data : FixedArray UInt8 8

/-- `struct canfd_frame` -/
structure CanFdFrameNative where
  canId : UInt32
  len : UInt8
  flags : UInt8
  res0 : UInt8
  res1 : UInt8
  data : FixedArray UInt8 64

def CanFrameNative.bytes (order : ByteOrder) (wire : CanFrameNative) : List UInt8 :=
  [order.ofU32 wire.canId, [wire.canDlc], [wire.len8Dlc], [wire.pad], [wire.res0],
    wire.data.val].flatten

def CanFdFrameNative.bytes (order : ByteOrder) (wire : CanFdFrameNative) : List UInt8 :=
  [order.ofU32 wire.canId, [wire.len], [wire.flags], [wire.res0], [wire.res1],
    wire.data.val].flatten

/-- The bytes of a buffer, seen as a `canfd_frame`. -/
def CanFdFrameNative.ofBytes (order : ByteOrder) (buffer : FixedArray UInt8 72) :
    CanFdFrameNative where
  canId := order.toU32 (slice buffer.val 0 4)
  len := buffer.val.getD 4 0
  flags := buffer.val.getD 5 0
  res0 := buffer.val.getD 6 0
  res1 := buffer.val.getD 7 0
  data := ⟨buffer.val.drop 8, by rw [List.length_drop, buffer.property]⟩

theorem CanFrameNative.length_bytes (order : ByteOrder) (wire : CanFrameNative) :
    (wire.bytes order).length = 16 := by
  simp [CanFrameNative.bytes, wire.data.property]

theorem CanFdFrameNative.length_bytes (order : ByteOrder) (wire : CanFdFrameNative) :
    (wire.bytes order).length = 72 := by
  simp [CanFdFrameNative.bytes, wire.data.property]

/-- A `canfd_frame` is seen in its own bytes. -/
theorem CanFdFrameNative.ofBytes_eq (order : ByteOrder) (wire : CanFdFrameNative)
    {buffer : FixedArray UInt8 72} (h : buffer.val = wire.bytes order) :
    ofBytes order buffer = wire := by
  obtain ⟨_, h_len⟩ := buffer
  subst h
  -- each field stands where those before it end
  have r_id : slice (wire.bytes order) 0 4 = order.ofU32 wire.canId :=
    slice_flatten [] _ _ rfl (by simp)
  have r_len : (wire.bytes order)[4]? = some wire.len :=
    getElem?_flatten [_] _ _ (by simp)
  have r_flags : (wire.bytes order)[5]? = some wire.flags :=
    getElem?_flatten [_, _] _ _ (by simp)
  have r_res0 : (wire.bytes order)[6]? = some wire.res0 :=
    getElem?_flatten [_, _, _] _ _ (by simp)
  have r_res1 : (wire.bytes order)[7]? = some wire.res1 :=
    getElem?_flatten [_, _, _, _] _ _ (by simp)
  have r_data : (wire.bytes order).drop 8 = wire.data.val := by
    have h_split : wire.bytes order = [order.ofU32 wire.canId, [wire.len], [wire.flags],
        [wire.res0], [wire.res1]].flatten ++ wire.data.val := by
      simp [CanFdFrameNative.bytes]
    rw [h_split, List.drop_left' (by simp)]
  simp only [ofBytes, List.getD_eq_getElem?_getD, r_id, r_len, r_flags, r_res0, r_res1, r_data,
    Option.getD_some, ByteOrder.toU32_ofU32]

/-- A `can_frame` in a larger zeroed buffer, seen as a `canfd_frame`. -/
def CanFrameNative.widen (wire : CanFrameNative) : CanFdFrameNative where
  canId := wire.canId
  len := wire.canDlc
  flags := wire.len8Dlc
  res0 := wire.pad
  res1 := wire.res0
  data := ⟨wire.data.val ++ List.replicate 56 0, by simp [wire.data.property]⟩

theorem CanFrameNative.widen_bytes (order : ByteOrder) (wire : CanFrameNative) :
    wire.widen.bytes order = wire.bytes order ++ List.replicate 56 0 := by
  simp [CanFdFrameNative.bytes, CanFrameNative.bytes, CanFrameNative.widen]

/-! ### Sending -/

/-- `can_id` of a frame. -/
def canIdFromFrame (frame : CanFrame) : UInt32 := idLayout.word frame.id frame.class'

/-- The flags of a `canfd_frame`. -/
def fdFlagBits (fdFlags : FdFlags) : UInt8 :=
  let flags : UInt8 := 0
  let flags := if fdFlags.bitRateSwitch then flags ||| canFdBrs else flags
  if fdFlags.errorStateIndicator then flags ||| canFdEsi else flags

/-- The bytes that `send` hands to `write`; a payload longer than the frame's array panics. -/
def nativeBytes (order : ByteOrder) (frame : CanFrame) : Run Error (List UInt8) :=
  if frame.fd then do
    let data ← orPanic (filled 64 0 frame.data)
    let wire : CanFdFrameNative :=
      { canId := canIdFromFrame frame
        len := frame.data.length.toUInt8
        flags := fdFlagBits frame.fdFlags
        res0 := 0
        res1 := 0
        data }
    pure (wire.bytes order)
  else do
    let data ← orPanic (filled 8 0 frame.data)
    let wire : CanFrameNative :=
      { canId := canIdFromFrame frame
        canDlc := frame.data.length.toUInt8
        len8Dlc := 0
        pad := 0
        res0 := 0
        data }
    pure (wire.bytes order)

/-- `RawSocketImpl::send`; `write` is the system call, with its result and `errno`. -/
def send (order : ByteOrder) (write : List UInt8 → ℤ × Errno) (frame : CanFrame) :
    Run Error Unit := do
  let bytes ← nativeBytes order frame
  let (written, errno) := write bytes
  if written = -1 then .error (.error (.io errno)) else pure ()

/-! ### Receiving -/

/-- What a call of `recv` leaves behind. -/
structure Received where
  /-- The number of bytes received, or `-1`. -/
  received : ℤ
  errno : Errno
  /-- The buffer, zeroed before the call. -/
  buffer : FixedArray UInt8 72

/-- `recv_native` -/
def recvNative (order : ByteOrder) (r : Received) : Run Error (Option CanFrame) :=
  if r.received = -1 then
    if r.errno = .wouldBlock then pure none else .error (.error (.io r.errno))
  else do
    -- both layouts agree up to the first bytes of the payload
    let fdFrame := CanFdFrameNative.ofBytes order r.buffer
    let (fdMode, len, flags) : Bool × ℕ × UInt8 :=
      -- any other number of bytes is a classic frame, also a short read
      if r.received = 72 then (true, fdFrame.len.toNat, fdFrame.flags)
      else (false, (min fdFrame.len 8).toNat, 0)
    let rawId := fdFrame.canId
    let id ← orFail (liftCore
      (if rawId &&& canEffFlag ≠ 0 then CanId.extended (rawId &&& canEffMask)
      -- the flags and the upper bits of a standard identifier are masked away
      else CanId.standard (rawId &&& 0x7ff).toUInt16))
    let class' := idLayout.classOf rawId
    let data ← orPanic (range fdFrame.data.val 0 (min len 64))
    let frame ← orFail (liftCore (CanFrame.new id class' data fdMode
      { bitRateSwitch := flags &&& canFdBrs ≠ 0, errorStateIndicator := flags &&& canFdEsi ≠ 0 }))
    pure (some frame)

end Cantools.SocketCan
