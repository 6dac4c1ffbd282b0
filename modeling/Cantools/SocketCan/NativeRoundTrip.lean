import Cantools.SocketCan.Native

/-!
# The SocketCAN round trip

A frame that is sent and handed back by the kernel as it was sent is received as it was
(`native_roundTrip`), and whatever the kernel hands over is received as some valid frame
(`recvNative_total`): identifiers are masked before their constructors check them, and the length
byte is cut to the bound of the frame kind.
-/

namespace Cantools.SocketCan

open Buffer Chunks LittleEndian Program

/-! ### What is received -/

/-- A masked identifier passes the check of its constructor, whatever the word is. -/
theorem exists_id (rawId : UInt32) :
    ∃ id, (if rawId &&& canEffFlag ≠ 0 then CanId.extended (rawId &&& canEffMask)
      else CanId.standard (rawId &&& 0x7ff).toUInt16) = .ok id := by
  split
  · have h_le : ¬ rawId &&& canEffMask > 0x1fffffff :=
      UInt32.not_lt.mpr (Bits.and_mask_le rawId canEffMask)
    exact ⟨_, dif_neg h_le⟩
  · have h_le : (rawId &&& 0x7ff).toNat ≤ 2047 :=
      UInt32.le_iff_toNat_le.mp (Bits.and_mask_le rawId 0x7ff)
    have h_not : ¬ (rawId &&& 0x7ff).toUInt16 > 0x7ff := by
      rw [gt_iff_lt, UInt16.lt_iff_toNat_lt, UInt32.toNat_toUInt16]
      exact Nat.not_lt.mpr (le_trans (Nat.mod_le ..) h_le)
    exact ⟨_, dif_neg h_not⟩

/-- The bytes of the payload, whose length is cut to the array. -/
theorem range_data {data : FixedArray UInt8 64} {len : ℕ} (h : len ≤ 64) :
    range data.val 0 len = some (data.val.take len) := by
  rw [range_eq_some (Nat.zero_le _) (by rwa [data.property]), slice, List.drop_zero]

section Receive

variable {order : ByteOrder} {r : Received} {wire : CanFdFrameNative} {id : CanId}

/-- **A CAN FD frame**, which is what the size of the larger layout means. -/
theorem recvNative_fd (h_size : r.received = 72)
    (h_native : CanFdFrameNative.ofBytes order r.buffer = wire)
    (h_id : (if wire.canId &&& canEffFlag ≠ 0 then CanId.extended (wire.canId &&& canEffMask)
      else CanId.standard (wire.canId &&& 0x7ff).toUInt16) = .ok id) :
    recvNative order r = .ok (some
      { id
        class' := idLayout.classOf wire.canId
        data := wire.data.val.take (min wire.len.toNat 64)
        fd := true
        fdFlags :=
          { bitRateSwitch := wire.flags &&& canFdBrs ≠ 0
            errorStateIndicator := wire.flags &&& canFdEsi ≠ 0 } }) := by
  have h_len : (wire.data.val.take (min wire.len.toNat 64)).length ≤ CanFrame.maxLen true :=
    le_trans (List.length_take_le ..) (Nat.min_le_right ..)
  have h_recv : r.received ≠ -1 := by
    rw [h_size]
    decide
  -- the length that was received is cut to the 64 bytes that there are
  have h_data : range wire.data.val 0 (min wire.len.toNat 64)
      = some (wire.data.val.take (min wire.len.toNat 64)) := range_data (Nat.min_le_right ..)
  rw [recvNative, if_neg h_recv]
  simp only [h_size, h_native, if_true, h_id, h_data, liftCore_ok, orFail_ok, orPanic_some,
    ok_bind]
  rw [CanFrame.new_eq_ok_iff.mpr ⟨rfl, h_len⟩]
  rfl

/-- **A classic frame** otherwise. -/
theorem recvNative_classic (h_recv : r.received ≠ -1) (h_size : r.received ≠ 72)
    (h_native : CanFdFrameNative.ofBytes order r.buffer = wire)
    (h_id : (if wire.canId &&& canEffFlag ≠ 0 then CanId.extended (wire.canId &&& canEffMask)
      else CanId.standard (wire.canId &&& 0x7ff).toUInt16) = .ok id) :
    recvNative order r = .ok (some
      { id
        class' := idLayout.classOf wire.canId
        data := wire.data.val.take (min wire.len.toNat 8)
        fd := false
        fdFlags := { bitRateSwitch := false, errorStateIndicator := false } }) := by
  -- cut to eight before the cut to the array
  have h_min : min (min wire.len 8).toNat 64 = min wire.len.toNat 8 := by
    have h_eight : (8 : UInt8).toNat = 8 := rfl
    rw [Bits.toNat_min, h_eight]
    omega
  have h_len : (wire.data.val.take (min wire.len.toNat 8)).length ≤ CanFrame.maxLen false :=
    le_trans (List.length_take_le ..) (Nat.min_le_right ..)
  have h_data : range wire.data.val 0 (min wire.len.toNat 8)
      = some (wire.data.val.take (min wire.len.toNat 8)) := range_data (by omega)
  have h_flags : ({ bitRateSwitch := (0 : UInt8) &&& canFdBrs ≠ 0
                    errorStateIndicator := (0 : UInt8) &&& canFdEsi ≠ 0 } : FdFlags)
      = { bitRateSwitch := false, errorStateIndicator := false } := by decide
  rw [recvNative, if_neg h_recv]
  simp only [h_size, h_native, if_false, h_id, h_min, h_data, liftCore_ok, orFail_ok,
    orPanic_some, ok_bind]
  rw [h_flags, CanFrame.new_eq_ok_iff.mpr ⟨rfl, h_len⟩]
  rfl

end Receive

/-- **Every content is received.** -/
theorem recvNative_total (order : ByteOrder) {r : Received} (h_recv : r.received ≠ -1) :
    ∃ frame, recvNative order r = .ok (some frame) ∧ frame.Valid := by
  obtain ⟨id, h_id⟩ := exists_id (CanFdFrameNative.ofBytes order r.buffer).canId
  -- the size alone decides between the two layouts
  by_cases h_size : r.received = 72
  · exact ⟨_, recvNative_fd h_size rfl h_id,
      le_trans (List.length_take_le ..) (Nat.min_le_right ..)⟩
  · exact ⟨_, recvNative_classic h_recv h_size rfl h_id,
      le_trans (List.length_take_le ..) (Nat.min_le_right ..)⟩

/-! ### What is sent -/

/-- The identifier is read back in its own format. -/
theorem id_canIdFromFrame (frame : CanFrame) :
    (if canIdFromFrame frame &&& canEffFlag ≠ 0 then
        CanId.extended (canIdFromFrame frame &&& canEffMask)
      else CanId.standard (canIdFromFrame frame &&& 0x7ff).toUInt16) = .ok frame.id := by
  have h_ext : canIdFromFrame frame &&& canEffFlag ≠ 0 ↔ frame.id.isExtended = true :=
    idLayout.word_extended_iff frame.id frame.class'
  have h_value : canIdFromFrame frame &&& canEffMask = frame.id.raw :=
    idLayout.word_and_idMask frame.id frame.class'
  split
  · next h =>
    rw [h_value]
    exact CanId.extended_raw (h_ext.mp h)
  · next h =>
    -- the narrower mask keeps a standard identifier, and none of the flags
    have h_std : frame.id.isExtended = false := Bool.eq_false_iff.mpr (mt h_ext.mpr h)
    have h_raw : frame.id.raw &&& 0x7ff = frame.id.raw :=
      Bits.and_mask_of_le (n := 11) rfl (CanId.raw_le_of_standard h_std)
    have h_narrow : canIdFromFrame frame &&& 0x7ff = frame.id.raw :=
      idLayout.word_and_mask frame.class' (by decide) h_raw
    rw [h_narrow]
    exact CanId.standard_raw h_std

/-- The class is read back. -/
theorem classOf_canIdFromFrame (frame : CanFrame) :
    idLayout.classOf (canIdFromFrame frame) = frame.class' :=
  idLayout.classOf_word frame.id frame.class'

/-- The flags of a CAN FD frame are read back. -/
theorem fdFlags_fdFlagBits (fdFlags : FdFlags) :
    ({ bitRateSwitch := fdFlagBits fdFlags &&& canFdBrs ≠ 0
       errorStateIndicator := fdFlagBits fdFlags &&& canFdEsi ≠ 0 } : FdFlags) = fdFlags := by
  obtain ⟨bitRateSwitch, errorStateIndicator⟩ := fdFlags
  cases bitRateSwitch <;> cases errorStateIndicator <;> decide

theorem toNat_length {data : List UInt8} (h : data.length ≤ 64) :
    data.length.toUInt8.toNat = data.length := by
  rw [Nat.toUInt8_eq, UInt8.toNat_ofNat']
  omega

/-- The kernel hands back a CAN FD frame as it was sent. -/
theorem recvNative_nativeBytes_fd (order : ByteOrder) (errno : Errno) {frame : CanFrame}
    (h_valid : frame.Valid) (h_fd : frame.fd = true) :
    ∃ bytes buffer, nativeBytes order frame = .ok bytes ∧ bytes.length = 72 ∧
      filled 72 0 bytes = some buffer ∧
      recvNative order { received := 72, errno, buffer } = .ok (some frame) := by
  have h_len := h_valid.length_le
  let wire : CanFdFrameNative :=
    { canId := canIdFromFrame frame
      len := frame.data.length.toUInt8
      flags := fdFlagBits frame.fdFlags
      res0 := 0
      res1 := 0
      data := ⟨_, length_padded 0 h_len⟩ }
  -- the bytes are as many as the larger layout has, so the buffer is the frame
  have h_native : CanFdFrameNative.ofBytes order
      ⟨wire.bytes order, wire.length_bytes order⟩ = wire := wire.ofBytes_eq order rfl
  refine ⟨wire.bytes order, ⟨wire.bytes order, wire.length_bytes order⟩, ?_,
    wire.length_bytes order, filled_self 0 ⟨_, wire.length_bytes order⟩, ?_⟩
  · rw [nativeBytes, if_pos h_fd, filled_eq_some h_len]
    rfl
  · -- the length byte, the flags and the class are read back
    rw [recvNative_fd rfl h_native (id_canIdFromFrame frame)]
    simp only [wire]
    rw [toNat_length h_len, Nat.min_eq_left h_len, List.take_left, fdFlags_fdFlagBits,
      classOf_canIdFromFrame, ← h_fd]

/-- The kernel hands back a classic frame at the front of the zeroed buffer. -/
theorem recvNative_nativeBytes_classic (order : ByteOrder) (errno : Errno) {frame : CanFrame}
    (h_valid : frame.Valid) (h_fd : frame.fd = false) :
    ∃ bytes buffer, nativeBytes order frame = .ok bytes ∧ bytes.length = 16 ∧
      filled 72 0 bytes = some buffer ∧
      recvNative order { received := 16, errno, buffer } = .ok (some
        { frame with fdFlags := { bitRateSwitch := false, errorStateIndicator := false } }) := by
  have h_len := h_valid.length_le_of_classic h_fd
  let wire : CanFrameNative :=
    { canId := canIdFromFrame frame
      canDlc := frame.data.length.toUInt8
      len8Dlc := 0
      pad := 0
      res0 := 0
      data := ⟨_, length_padded 0 h_len⟩ }
  have h_bytes := wire.length_bytes order
  have h_fits : (wire.bytes order).length ≤ 72 := by omega
  -- seen through the larger layout, the buffer behind the frame is its zeroed tail
  have h_native : CanFdFrameNative.ofBytes order ⟨_, length_padded 0 h_fits⟩ = wire.widen := by
    refine wire.widen.ofBytes_eq order ?_
    rw [wire.widen_bytes]
    simp only [h_bytes]
  refine ⟨wire.bytes order, ⟨_, length_padded 0 h_fits⟩, ?_, h_bytes,
    filled_eq_some h_fits, ?_⟩
  · rw [nativeBytes, if_neg (by rw [h_fd]; decide), filled_eq_some h_len]
    rfl
  · have h_recv : (16 : ℤ) ≠ -1 ∧ (16 : ℤ) ≠ 72 := by decide
    rw [recvNative_classic h_recv.1 h_recv.2 h_native (id_canIdFromFrame frame)]
    simp only [wire, CanFrameNative.widen]
    rw [toNat_length (by omega), Nat.min_eq_left h_len, List.append_assoc, List.take_left,
      classOf_canIdFromFrame, ← h_fd]

/-- **The SocketCAN round trip.** A frame that `CanFrame.new` accepts and that the kernel hands
back as it was sent is received with its identifier, class, payload and mode; and every number of
received bytes, with any content of the buffer, is received as a frame within the limits. -/
theorem native_roundTrip (order : ByteOrder) (errno : Errno) :
    (∀ id class' data fd fdFlags frame, CanFrame.new id class' data fd fdFlags = .ok frame →
      ∃ bytes buffer, nativeBytes order frame = .ok bytes ∧
        bytes.length = (if fd then 72 else 16) ∧ filled 72 0 bytes = some buffer ∧
        recvNative order { received := bytes.length, errno, buffer } = .ok (some
          { id, class', data, fd
            fdFlags :=
              if fd then fdFlags
              else { bitRateSwitch := false, errorStateIndicator := false } })) ∧
    ∀ received buffer, received ≠ -1 →
      ∃ frame, recvNative order { received, errno, buffer } = .ok (some frame) ∧
        frame.id.raw ≤ idMax frame.id.isExtended ∧
        frame.data.length ≤ CanFrame.maxLen frame.fd := by
  constructor
  · intro id class' data fd fdFlags frame h_new
    obtain ⟨rfl, h_valid⟩ := CanFrame.new_eq_ok_iff.mp h_new
    -- the two layouts
    cases fd with
    | true =>
      obtain ⟨bytes, buffer, h_send, h_len, h_buffer, h_recv⟩ :=
        recvNative_nativeBytes_fd order errno h_valid rfl
      refine ⟨bytes, buffer, h_send, h_len, h_buffer, ?_⟩
      rw [h_len]
      exact h_recv
    | false =>
      obtain ⟨bytes, buffer, h_send, h_len, h_buffer, h_recv⟩ :=
        recvNative_nativeBytes_classic order errno h_valid rfl
      refine ⟨bytes, buffer, h_send, h_len, h_buffer, ?_⟩
      rw [h_len]
      exact h_recv
  · -- whatever is received is a frame that its constructors have accepted
    intro received buffer h_recv
    obtain ⟨frame, h_frame, h_valid⟩ := recvNative_total order
      (r := { received, errno, buffer }) h_recv
    exact ⟨frame, h_frame, frame.id.inRange, h_valid⟩

/-- An error frame with a standard identifier comes back on a big-endian machine, and a buffer of
set bits, of which `20` bytes count as received, is read as a valid frame. -/
theorem native_roundTrip_error :
    (∃ bytes buffer, filled 72 0 bytes = some buffer ∧
      recvNative .big { received := bytes.length, errno := .wouldBlock, buffer } = .ok (some
        { id := ⟨0x7ff, false, by decide⟩, class' := .error, data := [1, 2, 3], fd := false
          fdFlags := { bitRateSwitch := false, errorStateIndicator := false } })) ∧
    ∃ frame, recvNative .big
        { received := 20, errno := .wouldBlock, buffer := .replicate 72 0xff } = .ok (some frame) ∧
      frame.data.length ≤ CanFrame.maxLen frame.fd := by
  constructor
  · obtain ⟨bytes, buffer, -, -, h_buffer, h_recv⟩ := (native_roundTrip .big .wouldBlock).1
      ⟨0x7ff, false, by decide⟩ .error [1, 2, 3] false {} _ rfl
    exact ⟨bytes, buffer, h_buffer, h_recv⟩
  · obtain ⟨frame, h_recv, -, h_len⟩ := (native_roundTrip .big .wouldBlock).2 20
      (.replicate 72 0xff) (by decide)
    exact ⟨frame, h_recv, h_len⟩

end Cantools.SocketCan
