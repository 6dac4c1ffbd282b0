import Cantools.Cli.HexText

/-!
# Sending what was printed

`render_frame` prints the identifier with three digits or with eight, by its format; `parse_id`
looks at the value alone. A printed frame is made again by `build_frame` unless it is an extended
one whose value would fit a standard identifier (`buildFrame_printed_iff`); that frame comes out as
a standard one. The payload is always read back.
-/

namespace Cantools.Cli

open Numeral Program Utf8

/-- The line of a frame has this identifier before its first blank and this payload behind the
length. -/
structure Printed (frame : CanFrame) (id data : List Char) : Prop where
  line : renderFrame frame = id ++ " [".toList ++
    (print 10 1 frame.data.length).leftpad 2 ' ' ++ "] ".toList ++ data ++ suffix frame
  word : ' ' ∉ id

/-! ### The identifier -/

theorem notMem_idText {c : Char} (h : ∀ d < 36, digitChar d ≠ c) (frame : CanFrame) :
    c ∉ idText frame := by
  have h_print : ∀ width, ∀ d ∈ print 16 width frame.id.raw.toNat, d ≠ c := fun width =>
    forall_mem_print (by decide) (by decide) (p := (· ≠ c)) h width _
  rw [idText]
  split
  all_goals exact fun h_mem => h_print _ c h_mem rfl

/-- No prefix is cut off a text without an `x`. -/
theorem trimHexPrefix_of_notMem {s : List Char} (h : 'x' ∉ s) : trimHexPrefix s = s := by
  fun_cases trimHexPrefix s with
  | case1 text => exact absurd (List.mem_cons_of_mem _ (List.mem_cons_self ..)) h
  | case2 => rfl

/-- **The identifier that is read**: the value is kept, and decides the format. -/
theorem parseId_idText (frame : CanFrame) : ∃ id, parseId (idText frame) = .ok id ∧
    id.raw = frame.id.raw ∧ (id.isExtended = true ↔ 0x7ff < frame.id.raw) := by
  have h_value : frame.id.raw.toNat.toUInt32 = frame.id.raw := UInt32.ofNat_toNat
  have h_trim := trimHexPrefix_of_notMem (notMem_idText (by decide) frame)
  -- both widths are read back as the number they print
  have h_read : fromStrRadix 16 (2 ^ 32) (idText frame) = .ok frame.id.raw.toNat := by
    rw [idText]
    split
    all_goals exact fromStrRadix_print (by decide) (by decide) _ (UInt32.toNat_lt frame.id.raw)
  simp only [parseId, h_trim, h_read, Except.mapError, ok_bind, h_value]
  split
  · -- up to `0x7ff` the reader takes the standard format, whatever the frame has
    next h_le =>
    let id : CanId := ⟨frame.id.raw, false, h_le⟩
    have h_std : id.isExtended = false := rfl
    have h_id : CanId.standard frame.id.raw.toUInt16 = .ok id := CanId.standard_raw h_std
    rw [h_id]
    exact ⟨id, rfl, rfl, iff_of_false Bool.false_ne_true (UInt32.not_lt.mpr h_le)⟩
  · next h_gt =>
    -- a larger identifier can only be extended
    have h_ext : frame.id.isExtended = true := by
      by_contra h_std
      exact h_gt (CanId.raw_le_of_standard (Bool.eq_false_iff.mpr h_std))
    rw [CanId.extended_raw h_ext]
    exact ⟨frame.id, rfl, rfl, iff_of_true h_ext (UInt32.not_le.mp h_gt)⟩

/-! ### The payload -/

/-- The digits of a payload. -/
def digits (data : List UInt8) : List Char := data.flatMap fun byte => print 16 2 byte.toNat

theorem byteLen_print (byte : UInt8) : byteLen (print 16 2 byte.toNat) = 2 := by
  have h_ascii : ∀ c ∈ print 16 2 byte.toNat, c.utf8Size = 1 :=
    forall_mem_print (by decide) (by decide) (by decide) 2 _
  rw [byteLen, length_encode h_ascii]
  exact length_print (by decide) (by decide) (UInt8.toNat_lt byte)

theorem byteLen_digits (data : List UInt8) : byteLen (digits data) = 2 * data.length := by
  induction data with
  | nil => rfl
  | cons byte data ih =>
    rw [digits, List.flatMap_cons, ← digits, byteLen_append, byteLen_print, ih, List.length_cons]
    omega

/-- **The loop** reads the digits back. -/
theorem hexBytes_digits (data : List UInt8) : hexBytes (digits data) = .ok data := by
  induction data with
  | nil => rfl
  | cons byte data ih =>
    have h_read : fromStrRadix 16 (2 ^ 8) (print 16 2 byte.toNat) = .ok byte.toNat :=
      fromStrRadix_print (by decide) (by decide) 2 (UInt8.toNat_lt byte)
    have h_byte : byte.toNat.toUInt8 = byte := UInt8.ofNat_toNat
    rw [digits, List.flatMap_cons, ← digits, hexBytes_append (byteLen_print byte), h_read, ih]
    show Except.ok (byte.toNat.toUInt8 :: data) = _
    rw [h_byte]

/-- The blanks between the bytes are removed. -/
theorem compact_dataText (frame : CanFrame) : compact (dataText frame) = digits frame.data := by
  have h_digits : ∀ byte : UInt8, compact (print 16 2 byte.toNat) = print 16 2 byte.toNat := by
    intro byte
    rw [compact, List.filter_eq_self]
    exact forall_mem_print (by decide) (by decide) (by decide) 2 _
  rw [dataText]
  -- over the bytes: a blank is removed between two of them
  induction frame.data with
  | nil => rfl
  | cons byte data ih =>
    cases data with
    | nil => simp [digits, h_digits]
    | cons next data =>
      rw [List.map_cons] at ih
      rw [List.map_cons, List.map_cons, List.intercalate_cons_cons, compact, List.filter_append,
        List.filter_append, ← compact, ← compact, ← compact, h_digits, ih]
      have h_blank : compact [' '] = [] := by decide
      rw [h_blank, List.append_nil]
      rfl

theorem parseHexBytes_dataText (frame : CanFrame) :
    parseHexBytes (dataText frame) = .ok frame.data := by
  have h_even : 2 ∣ byteLen (compact (dataText frame)) := by
    rw [compact_dataText, byteLen_digits]
    exact Nat.dvd_mul_right 2 _
  rw [parseHexBytes_of_even h_even, compact_dataText, hexBytes_digits]

/-! ### The frame -/

/-- What stands before the first blank. -/
theorem eq_of_append_blank {a b s t : List Char} (h_a : ' ' ∉ a) (h_b : ' ' ∉ b)
    (h : a ++ ' ' :: s = b ++ ' ' :: t) : a = b ∧ s = t := by
  have h_front : ∀ {l r : List Char}, ' ' ∉ l → (l ++ ' ' :: r).takeWhile (· ≠ ' ') = l := by
    intro l r h_l
    have h_all : ∀ c ∈ l, decide (c ≠ ' ') = true := fun c h_c =>
      decide_eq_true fun h_eq => h_l (h_eq ▸ h_c)
    rw [List.takeWhile_append_of_pos h_all, List.takeWhile_cons_of_neg (by decide), List.append_nil]
  obtain rfl : a = b := by rw [← h_front h_a, h, h_front h_b]
  exact ⟨rfl, List.tail_eq_of_cons_eq (List.append_cancel_left h)⟩

theorem Printed.eq {frame : CanFrame} {id data : List Char} (h : Printed frame id data) :
    id = idText frame ∧ data = dataText frame := by
  have h_line := h.line
  rw [renderFrame] at h_line
  simp only [List.append_assoc] at h_line
  obtain ⟨h_id, h_rest⟩ := eq_of_append_blank (notMem_idText (by decide) frame) h.word h_line
  -- behind the bracket, both lines go on with the length
  have h_length := List.append_cancel_left (List.tail_eq_of_cons_eq h_rest)
  have h_data := List.append_cancel_left (List.append_cancel_left h_length)
  exact ⟨h_id.symm, (List.append_cancel_right h_data).symm⟩

/-- A printed frame has the identifier that is read. -/
theorem buildFrame_printed {frame : CanFrame} (h_valid : frame.Valid)
    (h_class : frame.class' = .data) : ∃ id, id.raw = frame.id.raw ∧
    (id.isExtended = true ↔ 0x7ff < frame.id.raw) ∧
    buildFrame (idText frame) (dataText frame) frame.fd frame.fdFlags.bitRateSwitch
      frame.fdFlags.errorStateIndicator = .ok { frame with id := id } := by
  obtain ⟨id, h_id, h_raw, h_ext⟩ := parseId_idText frame
  refine ⟨id, h_raw, h_ext, ?_⟩
  have h_new : CanFrame.new id .data frame.data frame.fd frame.fdFlags
      = .ok { frame with id := id } :=
    CanFrame.new_eq_ok_iff.mpr ⟨by rw [← h_class], h_valid⟩
  rw [buildFrame, h_id, orFail_ok, ok_bind, parseHexBytes_dataText, ok_bind, h_new]
  rfl

/-- **Which printed frames are sent again**: all but the extended ones whose value fits a standard
identifier. -/
theorem buildFrame_printed_iff (frame : CanFrame) (h_valid : frame.Valid)
    (h_class : frame.class' = .data) (id data : List Char) (h_printed : Printed frame id data) :
    buildFrame id data frame.fd frame.fdFlags.bitRateSwitch frame.fdFlags.errorStateIndicator
        = .ok frame ↔ ¬ (frame.id.isExtended = true ∧ frame.id.raw ≤ 0x7ff) := by
  obtain ⟨rfl, rfl⟩ := h_printed.eq
  obtain ⟨id, h_raw, h_ext, h_build⟩ := buildFrame_printed h_valid h_class
  have h_same : ({ frame with id := id } : CanFrame) = frame ↔ id = frame.id :=
    ⟨fun h => congrArg CanFrame.id h, fun h => h ▸ rfl⟩
  rw [h_build, Except.ok.injEq, h_same]
  constructor
  · -- the other identifier is read as a standard one
    rintro rfl ⟨h_extended, h_le⟩
    exact UInt32.not_lt.mpr h_le (h_ext.mp h_extended)
  · intro h_not
    refine CanId.ext h_raw (Bool.eq_iff_iff.mpr (h_ext.trans ?_))
    constructor
    · -- a value that fits no standard identifier
      intro h_lt
      by_contra h_std
      exact UInt32.not_lt.mpr (CanId.raw_le_of_standard (Bool.eq_false_iff.mpr h_std)) h_lt
    · exact fun h_extended => UInt32.not_le.mp fun h_le => h_not ⟨h_extended, h_le⟩

/-- An extended frame with a high identifier and FD flags. -/
theorem buildFrame_printed_extended :
    buildFrame "18DAF110".toList "02 10 03".toList true true false
      = .ok ⟨⟨0x18daf110, true, by decide⟩, .data, [0x02, 0x10, 0x03], true, ⟨true, false⟩⟩ := by
  have h_printed : Printed ⟨⟨0x18daf110, true, by decide⟩, .data, [0x02, 0x10, 0x03], true,
      ⟨true, false⟩⟩ "18DAF110".toList "02 10 03".toList := ⟨by decide, by decide⟩
  exact (buildFrame_printed_iff _ (by decide) rfl _ _ h_printed).mpr (by decide)

/-- The extended identifier `0x123` is printed with eight digits, and comes back as the standard
one. -/
theorem buildFrame_printed_counterexample :
    let frame : CanFrame := ⟨⟨0x123, true, by decide⟩, .data, [], false, {}⟩
    frame.Valid ∧ Printed frame "00000123".toList [] ∧
      buildFrame "00000123".toList [] false false false
        = .ok ⟨⟨0x123, false, by decide⟩, .data, [], false, {}⟩ ∧
      buildFrame "00000123".toList [] false false false ≠ .ok frame := by
  intro frame
  have h_build : buildFrame "00000123".toList [] false false false
      = .ok ⟨⟨0x123, false, by decide⟩, .data, [], false, {}⟩ := by decide
  refine ⟨by decide, ⟨by decide, by decide⟩, h_build, ?_⟩
  rw [h_build]
  decide

end Cantools.Cli
