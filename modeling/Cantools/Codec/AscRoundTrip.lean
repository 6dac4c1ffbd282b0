import Cantools.Codec.Asc
import Cantools.Framework.Program

/-!
# The ASC round trip

A printed event is six words and one word for every byte, with blanks around them
(`eventLine_eq`), so the reader finds the words again, and each of them is parsed back
(`readLine_eventLine`). The line begins with the time, which none of the passed-over lines does;
the header, the footer and the comment lines of error frames are passed over without a note.
-/

namespace Cantools.Codec.Asc

open Numeral Program Text

/-! ### Words -/

theorem isWord_print {radix : ℕ} (h_radix : 1 < radix) (h_radix' : radix ≤ 36) (width n : ℕ) :
    IsWord (print radix width n) where
  ne_nil := print_ne_nil h_radix width n
  noSpace := forall_mem_print h_radix h_radix' (by decide) width n

theorem isWord_idText (id : CanId) : IsWord (idText id) := by
  unfold idText
  split
  · have h_digits : IsWord (print 16 8 id.raw.toNat) := isWord_print (by decide) (by decide) 8 _
    refine ⟨List.append_ne_nil_of_right_ne_nil _ (List.cons_ne_nil 'x' []), ?_⟩
    intro c h_c
    rcases List.mem_append.mp h_c with h_c | h_c
    · exact h_digits.noSpace c h_c
    · rw [List.mem_singleton.mp h_c]
      decide
  · exact isWord_print (by decide) (by decide) 3 id.raw.toNat

theorem isWord_directionText (direction : Direction) : IsWord (directionText direction) := by
  cases direction <;> decide

/-- The kinds of the frames that are printed. -/
theorem kindText_cases {frame : CanFrame} {kind : List Char} (h : kindText frame = some kind) :
    (frame.class' = .data ∧ frame.fd = true ∧ kind = "FD".toList) ∨
    (frame.class' = .data ∧ frame.fd = false ∧ kind = "d".toList) ∨
    (frame.class' = .remote ∧ kind = "r".toList) := by
  unfold kindText at h
  -- a mode tells two kinds of data frames apart
  cases h_class : frame.class' with
  | data =>
    rw [h_class] at h
    cases h_fd : frame.fd with
    | true =>
      rw [h_fd] at h
      cases h
      exact .inl ⟨rfl, rfl, rfl⟩
    | false =>
      rw [h_fd] at h
      cases h
      exact .inr (.inl ⟨rfl, rfl, rfl⟩)
  | remote =>
    rw [h_class] at h
    cases h
    exact .inr (.inr ⟨rfl, rfl⟩)
  | error =>
    rw [h_class] at h
    cases h

theorem isWord_kindText {frame : CanFrame} {kind : List Char} (h : kindText frame = some kind) :
    IsWord kind := by
  obtain ⟨-, -, rfl⟩ | ⟨-, -, rfl⟩ | ⟨-, rfl⟩ := kindText_cases h <;> decide

/-! ### Parsing the words -/

/-- **Identifiers.** Eight digits and an `x`, or three digits, whatever the value is. -/
theorem parseHexId_idText (id : CanId) : parseHexId (idText id) = .ok (id, id.isExtended) := by
  have h_value : id.raw.toNat.toUInt32 = id.raw := UInt32.ofNat_toNat
  -- the digits are read back, and have no `x` among them
  have h_read : ∀ width,
      fromStrRadix 16 (2 ^ 32) (print 16 width id.raw.toNat) = .ok id.raw.toNat :=
    fun width => fromStrRadix_print (by decide) (by decide) width (UInt32.toNat_lt id.raw)
  have h_noX : ∀ width, ∀ c ∈ print 16 width id.raw.toNat, (c == 'x') = false :=
    fun width => forall_mem_print (by decide) (by decide) (by decide) width _
  have h_trim : ∀ width, (print 16 width id.raw.toNat).rdropWhile (· == 'x')
      = print 16 width id.raw.toNat := by
    intro width
    rw [List.rdropWhile_eq_self_iff]
    intro h_ne
    rw [h_noX width _ (List.getLast_mem h_ne)]
    exact Bool.false_ne_true
  -- the `x` tells the formats apart; a standard identifier has exactly three digits
  cases h_ext : id.isExtended with
  | true =>
    have h_text : idText id = print 16 8 id.raw.toNat ++ ['x'] := by rw [idText, if_pos h_ext]
    have h_trim' : (print 16 8 id.raw.toNat ++ ['x']).rdropWhile (· == 'x')
        = print 16 8 id.raw.toNat := by
      rw [List.rdropWhile_concat_pos _ _ _ rfl, h_trim]
    simp only [h_text, parseHexId, h_trim', h_read, Except.mapError, ok_bind, h_value,
      List.getLast?_concat, true_or, if_true, CanId.extended_raw h_ext, liftCore_ok]
    rfl
  | false =>
    have h_text : idText id = print 16 3 id.raw.toNat := by
      rw [idText, if_neg (by rw [h_ext]; decide)]
    -- neither sign of an extended identifier is there
    have h_len : (Utf8.encode (print 16 3 id.raw.toNat)).length = 3 := by
      have h_raw := UInt32.le_iff_toNat_le.mp (CanId.raw_le_of_standard h_ext)
      rw [Utf8.length_encode (forall_mem_print (by decide) (by decide) (by decide) 3 _),
        length_print (by decide) (by decide) (lt_of_le_of_lt h_raw (by decide))]
    have h_last : (print 16 3 id.raw.toNat).getLast? ≠ some 'x' := by
      intro h_last
      have h_false := h_noX 3 'x' (List.mem_of_getLast? h_last)
      cases h_false
    have h_std : ¬ ((print 16 3 id.raw.toNat).getLast? = some 'x' ∨
        (Utf8.encode (print 16 3 id.raw.toNat)).length > 3) := by
      rw [h_len]
      rintro (h | h)
      · exact h_last h
      · exact absurd h (by decide)
    simp only [h_text, parseHexId, h_trim, h_read, Except.mapError, ok_bind, h_value, h_std,
      if_false, CanId.standard_raw h_ext, liftCore_ok]
    rfl

theorem directionFromStr_directionText (direction : Direction) :
    directionFromStr (directionText direction) = some direction := by
  cases direction <;> rfl

/-- The words of the payload. -/
def byteWords (data : List UInt8) : List (List Char) := data.map fun byte => print 16 2 byte.toNat

/-- **The payload.** Two digits for every byte. -/
theorem mapM_byteWords (data : List UInt8) :
    (byteWords data).mapM (fun token => do
      let byte ← parseNumber "data byte" 16 (2 ^ 8) token
      pure byte.toUInt8) = .ok data := by
  apply mapM_eq_ok
  rw [byteWords, List.forall₂_map_left_iff, List.forall₂_same]
  intro byte _
  have h_read : fromStrRadix 16 (2 ^ 8) (print 16 2 byte.toNat) = .ok byte.toNat :=
    fromStrRadix_print (by decide) (by decide) 2 (UInt8.toNat_lt byte)
  rw [parseNumber, h_read]
  exact congrArg Except.ok UInt8.ofNat_toNat

/-! ### A line -/

/-- What the codec relies on in the text of a time: it is a word that begins like a number, and it
is parsed. -/
structure FloatText.Sound (float : FloatText) : Prop where
  word : ∀ t, IsWord (float.format t)
  first : ∀ t c, (float.format t).head? = some c → c.isDigit ∨ c = '-'
  parses : ∀ t, ∃ x, float.parse (float.format t) = .ok x

/-- An event that a log can keep: its interface has a name of one word, FD flags are clear, and
remote frames are classic and empty. -/
structure Recordable (event : CaptureEvent) : Prop where
  valid : event.frame.Valid
  name : ∃ name, event.interface.name = some name ∧ IsWord name.toList
  fdFlags : event.frame.class' ≠ .error → event.frame.fdFlags = {}
  remote : event.frame.class' = .remote → event.frame.fd = false ∧ event.frame.data = []

/-- The read event has the interface name, the direction and the frame of the written one. -/
structure SameFrame (written read : CaptureEvent) : Prop where
  name : read.interface.name = written.interface.name
  direction : read.direction = written.direction
  frame : read.frame = written.frame

variable {float : FloatText} {event : CaptureEvent}

/-- The words of a line behind the time and before the payload. -/
def leadWords (event : CaptureEvent) (kind : List Char) : List (List Char) :=
  [interfaceText event, idText event.frame.id, directionText event.direction, kind,
    print 10 1 event.frame.data.length]

/-- All words of a line. -/
def lineWords (float : FloatText) (event : CaptureEvent) (kind : List Char) : List (List Char) :=
  float.format event.timestamp :: (leadWords event kind ++ byteWords event.frame.data)

/-- **A line is made of words**, with blanks before the first one and, when the payload is empty,
behind the last one. -/
theorem eventLine_eq (float : FloatText) (event : CaptureEvent) (kind : List Char) :
    ∃ pad, eventLine float event kind = List.replicate pad ' ' ++
      ([' '].intercalate (lineWords float event kind) ++
        if event.frame.data = [] then [' '] else []) := by
  refine ⟨10 - (float.format event.timestamp).length, ?_⟩
  cases h_data : event.frame.data with
  | nil => simp [eventLine, encodeHexBytes, lineWords, leadWords, byteWords, List.leftpad, h_data]
  | cons b bs =>
    simp [eventLine, encodeHexBytes, lineWords, leadWords, byteWords, List.leftpad, h_data]

theorem Recordable.isWord_interfaceText (h : Recordable event) : IsWord (interfaceText event) := by
  obtain ⟨name, h_name, h_word⟩ := h.name
  rw [interfaceText, h_name]
  exact h_word

/-- The words of a line behind the interface name. -/
def tailWords (event : CaptureEvent) (kind : List Char) : List (List Char) :=
  idText event.frame.id :: directionText event.direction :: kind ::
    print 10 1 event.frame.data.length :: byteWords event.frame.data

theorem isWord_tailWords {kind : List Char} (h_kind : kindText event.frame = some kind) :
    ∀ w ∈ tailWords event kind, IsWord w := by
  simp only [tailWords, List.forall_mem_cons]
  refine ⟨isWord_idText _, isWord_directionText _, isWord_kindText h_kind,
    isWord_print (by decide) (by decide) 1 _, ?_⟩
  intro w h_w
  obtain ⟨byte, -, rfl⟩ := List.mem_map.mp h_w
  exact isWord_print (by decide) (by decide) 2 _

/-- The words of a line with the name between them, which may be any text. -/
theorem intercalate_lineWords (float : FloatText) (event : CaptureEvent) (kind : List Char) :
    [' '].intercalate (lineWords float event kind) = float.format event.timestamp ++
      ' ' :: (interfaceText event ++ ' ' :: [' '].intercalate (tailWords event kind)) := by
  simp only [lineWords, leadWords, tailWords, List.cons_append, List.nil_append,
    List.intercalate_cons_cons, List.append_assoc]

/-- A line ends with its last word. -/
theorem getLast?_lineWords {kind : List Char} (h_kind : kindText event.frame = some kind) {c : Char}
    (h_c : ([' '].intercalate (lineWords float event kind)).getLast? = some c) :
    isWhitespace c = false := by
  have h_ne : [' '].intercalate (tailWords event kind) ≠ [] :=
    intercalate_ne_nil (isWord_idText _).ne_nil
  have h_split : float.format event.timestamp ++
      ' ' :: (interfaceText event ++ ' ' :: [' '].intercalate (tailWords event kind)) =
      (float.format event.timestamp ++ ' ' :: (interfaceText event ++ [' '])) ++
        [' '].intercalate (tailWords event kind) := by
    simp only [List.append_assoc, List.cons_append, List.nil_append]
  rw [intercalate_lineWords, h_split, List.getLast?_append_of_ne_nil _ h_ne] at h_c
  exact getLast?_intercalate (isWord_tailWords h_kind) h_c

/-- The line without the blanks around it. -/
theorem trim_eventLine (h_float : float.Sound) {kind : List Char}
    (h_kind : kindText event.frame = some kind) :
    trim (eventLine float event kind) = [' '].intercalate (lineWords float event kind) := by
  obtain ⟨pad, h_line⟩ := eventLine_eq float event kind
  have h_time := h_float.word event.timestamp
  have h_head : ([' '].intercalate (lineWords float event kind)).head?
      = (float.format event.timestamp).head? := head?_intercalate h_time.ne_nil
  -- a short time is padded in front, and an empty payload leaves a blank behind
  have h_before : ∀ c ∈ List.replicate pad ' ', isWhitespace c := by
    intro c h_c
    rw [(List.mem_replicate.mp h_c).2]
    rfl
  have h_after : ∀ c ∈ (if event.frame.data = [] then [' '] else []), isWhitespace c := by
    intro c h_c
    split at h_c
    · rw [List.mem_singleton.mp h_c]
      rfl
    · cases h_c
  rw [h_line]
  refine trim_padded h_before h_after (intercalate_ne_nil h_time.ne_nil) ?_
    (fun c h_c => getLast?_lineWords h_kind h_c)
  intro c h_c
  rw [h_head] at h_c
  exact h_time.noSpace c (List.mem_of_head? h_c)

/-- **The words of a line**, whatever its name is. -/
theorem splitWhitespace_lineWords (h_float : float.Sound) {kind : List Char}
    (h_kind : kindText event.frame = some kind) :
    splitWhitespace ([' '].intercalate (lineWords float event kind)) =
      float.format event.timestamp ::
        (splitWhitespace (interfaceText event) ++ tailWords event kind) := by
  rw [intercalate_lineWords, splitWhitespace_append_cons rfl, splitWhitespace_append_cons rfl,
    splitWhitespace_of_isWord (h_float.word _),
    splitWhitespace_intercalate (isWord_tailWords h_kind), List.singleton_append]

/-- The lines that are passed over begin with a letter or a slash. -/
theorem head?_of_mem_skippedStarts : ∀ start ∈ skippedStarts,
    start ≠ [] ∧ start.head?.all fun c => !(c.isDigit || c == '-') := by
  decide

/-- No line that begins with a time is passed over. -/
theorem not_skipped (h_float : float.Sound) (t : Timestamp) (words : List (List Char)) :
    ¬ ∃ start ∈ skippedStarts, start <+: [' '].intercalate (float.format t :: words) := by
  rintro ⟨start, h_start, rest, h_line⟩
  obtain ⟨h_ne, h_not⟩ := head?_of_mem_skippedStarts start h_start
  -- the line begins like its time, a skipped one like its start
  have h_head : ([' '].intercalate (float.format t :: words)).head? = (float.format t).head? :=
    head?_intercalate (h_float.word t).ne_nil
  rw [← h_line, List.head?_append_of_ne_nil _ h_ne] at h_head
  rw [h_head] at h_not
  cases h_first : (float.format t).head? with
  | none => exact (h_float.word t).ne_nil (List.head?_eq_none_iff.mp h_first)
  | some c =>
    rw [h_first] at h_not
    rcases h_float.first t c h_first with h_digit | rfl
    · simp [h_digit] at h_not
    · cases h_not

/-- The mode that is read from a printed kind. -/
theorem isFd_kind {frame : CanFrame} {kind : List Char} (h_kind : kindText frame = some kind) :
    eqIgnoreAsciiCase kind "fd".toList = if frame.class' = .remote then false else frame.fd := by
  obtain ⟨h_class, h_fd, rfl⟩ | ⟨h_class, h_fd, rfl⟩ | ⟨h_class, rfl⟩ := kindText_cases h_kind
  · rw [h_class, h_fd]
    decide
  · rw [h_class, h_fd]
    decide
  · rw [if_pos h_class]
    decide

/-- The payload that is read from a printed frame. -/
theorem parseData_byteWords {frame : CanFrame} (h_valid : frame.Valid) {kind : List Char}
    (h_kind : kindText frame = some kind) :
    parseData kind (print 10 1 frame.data.length) (byteWords frame.data)
      = .ok (if frame.class' = .remote then [] else frame.data) := by
  have h_len : parseNumber "dlc" 10 (2 ^ 64) (print 10 1 frame.data.length)
      = .ok frame.data.length := by
    have h_le := h_valid.length_le
    rw [parseNumber, fromStrRadix_print (by decide) (by decide) 1 (by omega)]
    rfl
  have h_take : (byteWords frame.data).take frame.data.length = byteWords frame.data :=
    List.take_of_length_le (by rw [byteWords, List.length_map])
  -- only the kinds of data frames have a payload
  rw [parseData, h_len, ok_bind, h_take, mapM_byteWords]
  obtain ⟨h_class, -, rfl⟩ | ⟨h_class, -, rfl⟩ | ⟨h_class, rfl⟩ := kindText_cases h_kind
  all_goals
    rw [h_class]
    rfl

/-- The words of a line behind the time are parsed back. -/
theorem parseEvent_words (h_float : float.Sound) (h : Recordable event) {kind : List Char}
    (h_kind : kindText event.frame = some kind) :
    ∃ read, parseEvent float (float.format event.timestamp) (interfaceText event)
        (idText event.frame.id) (directionText event.direction) kind
        (print 10 1 event.frame.data.length) (byteWords event.frame.data) = .ok read ∧
      SameFrame event read := by
  obtain ⟨x, h_time⟩ := h_float.parses event.timestamp
  obtain ⟨name, h_name, -⟩ := h.name
  -- the payload, the mode and the class, as the kind says; a remote frame is classic and empty
  have h_data : parseData kind (print 10 1 event.frame.data.length) (byteWords event.frame.data)
      = .ok event.frame.data := by
    rw [parseData_byteWords h.valid h_kind]
    split
    · next h_class => rw [(h.remote h_class).2]
    · rfl
  have h_fd : eqIgnoreAsciiCase kind "fd".toList = event.frame.fd := by
    rw [isFd_kind h_kind]
    split
    · next h_class => rw [(h.remote h_class).1]
    · rfl
  have h_class : (if eqIgnoreAsciiCase kind "r".toList then FrameClass.remote
      else if eqIgnoreAsciiCase kind "error".toList then .error else .data)
      = event.frame.class' := by
    obtain ⟨h_class, -, rfl⟩ | ⟨h_class, -, rfl⟩ | ⟨h_class, rfl⟩ := kindText_cases h_kind
    all_goals
      rw [h_class]
      rfl
  -- the constructor accepts what was a frame before
  have h_frame : CanFrame.new event.frame.id event.frame.class' event.frame.data event.frame.fd {}
      = .ok event.frame := by
    have h_new := h.valid.new_eq
    have h_not : event.frame.class' ≠ .error := by
      obtain ⟨h_class, -⟩ | ⟨h_class, -⟩ | ⟨h_class, -⟩ := kindText_cases h_kind
      all_goals
        rw [h_class]
        decide
    rwa [h.fdFlags h_not] at h_new
  have h_interface : some (String.ofList (interfaceText event)) = event.interface.name := by
    rw [interfaceText, h_name, Option.getD_some, String.ofList_toList]
  simp only [parseEvent, h_time, Except.mapError, ok_bind, parseHexId_idText,
    directionFromStr_directionText, h_data, h_fd, h_class, h_frame, liftCore_ok, h_interface]
  exact ⟨_, rfl, rfl, rfl, rfl⟩

/-- A line is taken apart into its words. -/
theorem readLine_words (h_float : float.Sound) (h_interface : IsWord (interfaceText event))
    {kind : List Char} (h_kind : kindText event.frame = some kind) (report : ReadReport) :
    readLine float report (eventLine float event kind) =
      (parseEvent float (float.format event.timestamp) (interfaceText event)
        (idText event.frame.id) (directionText event.direction) kind
        (print 10 1 event.frame.data.length) (byteWords event.frame.data) >>= fun read =>
          .ok { report with events := report.events ++ [read] }) := by
  -- a name of one word is the second word of the line
  have h_words := splitWhitespace_lineWords h_float h_kind
  rw [splitWhitespace_of_isWord h_interface] at h_words
  have h_ne : [' '].intercalate (lineWords float event kind) ≠ [] := by
    intro h_nil
    rw [h_nil] at h_words
    cases h_words
  have h_skip : ¬ ([' '].intercalate (lineWords float event kind) = [] ∨
      ∃ start ∈ skippedStarts, start <+: [' '].intercalate (lineWords float event kind)) :=
    not_or.mpr ⟨h_ne, not_skipped h_float event.timestamp _⟩
  simp only [readLine, trim_eventLine h_float h_kind, if_neg h_skip, h_words]
  rfl

/-- **One line.** The line of a frame is read as an event with that frame. -/
theorem readLine_eventLine (h_float : float.Sound) (h : Recordable event) {kind : List Char}
    (h_kind : kindText event.frame = some kind) (report : ReadReport) :
    ∃ read, readLine float report (eventLine float event kind)
        = .ok { report with events := report.events ++ [read] } ∧ SameFrame event read := by
  obtain ⟨read, h_parse, h_same⟩ := parseEvent_words h_float h h_kind
  refine ⟨read, ?_, h_same⟩
  rw [readLine_words h_float h.isWord_interfaceText h_kind, h_parse, ok_bind]

/-! ### Lines that are passed over -/

theorem readLine_skipped (report : ReadReport) {line : List Char}
    (h : ∃ start ∈ skippedStarts, start <+: trim line) :
    readLine float report line = .ok report := by
  simp only [readLine]
  rw [if_pos (.inr h)]

/-- The words of a comment line. -/
theorem errorLine_eq (event : CaptureEvent) : errorLine event = [' '].intercalate
    ["//".toList, "error".toList, "frame".toList, idText event.frame.id,
      directionText event.direction] := by
  have h_start : "// error frame ".toList
      = "//".toList ++ ([' '] ++ ("error".toList ++ ([' '] ++ ("frame".toList ++ [' '])))) := by
    decide
  unfold errorLine
  simp only [h_start, List.intercalate_cons_cons, List.intercalate_singleton, List.append_assoc]

theorem isWord_errorWords (event : CaptureEvent) : ∀ w ∈ ["//".toList, "error".toList,
    "frame".toList, idText event.frame.id, directionText event.direction], IsWord w := by
  simp only [List.forall_mem_cons]
  exact ⟨by decide, by decide, by decide, isWord_idText _, isWord_directionText _,
    fun _ h_w => nomatch h_w⟩

/-- The comment line of an error frame is passed over. -/
theorem readLine_errorLine (report : ReadReport) (event : CaptureEvent) :
    readLine float report (errorLine event) = .ok report := by
  have h_nil : ∀ c ∈ ([] : List Char), isWhitespace c := fun _ h_c => nomatch h_c
  have h_trim := trim_intercalate h_nil h_nil (isWord_errorWords event)
  rw [List.nil_append, List.append_nil, ← errorLine_eq] at h_trim
  refine readLine_skipped report ⟨"//".toList, by decide, ?_⟩
  rw [h_trim, errorLine_eq, List.intercalate_cons_cons, List.append_assoc]
  exact List.prefix_append ..

/-- The header is passed over. -/
theorem foldlM_headerLines (report : ReadReport) :
    headerLines.foldlM (readLine float) report = .ok report := by
  have h_date : readLine float report "date generated by cantools-rs".toList = .ok report :=
    readLine_skipped report (by decide)
  have h_base : readLine float report "base hex  timestamps absolute".toList = .ok report :=
    readLine_skipped report (by decide)
  have h_begin : readLine float report "Begin Triggerblock".toList = .ok report :=
    readLine_skipped report (by decide)
  simp only [headerLines, List.foldlM_cons, List.foldlM_nil, h_date, h_base, h_begin, ok_bind]
  rfl

/-- The footer is passed over. -/
theorem readLine_footerLine (report : ReadReport) :
    readLine float report footerLine = .ok report :=
  readLine_skipped report (by decide)

theorem isLine_headerLines : ∀ line ∈ headerLines, IsLine line := by
  have h_printable : ∀ line ∈ headerLines, line.all isPrintable := by decide
  exact fun line h_line => isLine_of_printable (List.all_eq_true.mp (h_printable line h_line))

theorem isLine_footerLine : ∀ line ∈ [footerLine], IsLine line := by
  intro line h_line
  rw [List.mem_singleton.mp h_line]
  exact isLine_of_printable (List.all_eq_true.mp (by decide))

/-! ### The whole log -/

/-- Error frames are the ones without a kind. -/
theorem kindText_eq_none_iff {frame : CanFrame} :
    kindText frame = none ↔ frame.class' = .error := by
  unfold kindText
  cases frame.class' with
  | data => cases frame.fd <;> simp
  | remote => simp
  | error => simp

theorem lf_notMem_of_isWord {word : List Char} (h : IsWord word) : '\n' ∉ word := by
  intro h_lf
  cases h.noSpace '\n' h_lf

theorem isLine_errorLine (event : CaptureEvent) : IsLine (errorLine event) := by
  rw [errorLine_eq]
  exact isLine_of_printable (isPrintable_of_mem_intercalate (isWord_errorWords event))

/-- A written line holds no line end but those in its interface name. -/
theorem isLine_writtenLine (h_float : float.Sound) (h_name : '\n' ∉ interfaceText event) :
    IsLine (writtenLine float event) := by
  unfold writtenLine
  cases h_kind : kindText event.frame with
  | none => exact isLine_errorLine event
  | some kind =>
    obtain ⟨pad, h_line⟩ := eventLine_eq float event kind
    have h_words : '\n' ∉ [' '].intercalate (lineWords float event kind) := by
      have h_tail : '\n' ∉ [' '].intercalate (tailWords event kind) :=
        (isLine_of_printable (isPrintable_of_mem_intercalate (isWord_tailWords h_kind))).noLf
      have h_time : '\n' ∉ float.format event.timestamp := lf_notMem_of_isWord (h_float.word _)
      rw [intercalate_lineWords]
      simp [h_time, h_name, h_tail]
    show IsLine (eventLine float event kind)
    rw [h_line]
    -- the blanks around the words are no line ends
    refine ⟨fun h_lf => ?_, fun h_cr => ?_⟩
    · rcases List.mem_append.mp h_lf with h_lf | h_lf
      · exact absurd (List.mem_replicate.mp h_lf).2 (by decide)
      · rcases List.mem_append.mp h_lf with h_lf | h_lf
        · exact h_words h_lf
        · split at h_lf
          · exact absurd (List.mem_singleton.mp h_lf) (by decide)
          · cases h_lf
    · by_cases h_data : event.frame.data = []
      · rw [if_pos h_data, ← List.append_assoc, List.getLast?_concat] at h_cr
        exact absurd (Option.some.inj h_cr) (by decide)
      · have h_ne : [' '].intercalate (lineWords float event kind) ≠ [] :=
          intercalate_ne_nil (h_float.word _).ne_nil
        rw [if_neg h_data, List.append_nil, List.getLast?_append_of_ne_nil _ h_ne] at h_cr
        cases getLast?_lineWords h_kind h_cr

/-- **The event lines.** All frames but the error frames are read, in order and without a note. -/
theorem foldlM_writtenLines (h_float : float.Sound) {events : List CaptureEvent}
    (h : ∀ event ∈ events, Recordable event) (report : ReadReport) :
    ∃ read, (events.map (writtenLine float)).foldlM (readLine float) report
        = .ok { report with events := report.events ++ read } ∧
      List.Forall₂ SameFrame (events.filter (·.frame.class' ≠ .error)) read := by
  -- line by line; the report grows by what each line adds
  induction events generalizing report with
  | nil =>
    refine ⟨[], ?_, .nil⟩
    rw [List.append_nil]
    rfl
  | cons event events ih =>
    have h_event := h event (List.mem_cons_self ..)
    have h_events := fun e h_e => h e (List.mem_cons_of_mem _ h_e)
    rw [List.map_cons, List.foldlM_cons, writtenLine]
    cases h_kind : kindText event.frame with
    | none =>
      -- an error frame: nothing is read, and nothing is expected
      obtain ⟨read, h_read, h_same⟩ := ih h_events report
      have h_drop : (event :: events).filter (·.frame.class' ≠ .error)
          = events.filter (·.frame.class' ≠ .error) :=
        List.filter_cons_of_neg (by simp [kindText_eq_none_iff.mp h_kind])
      refine ⟨read, ?_, ?_⟩
      · rw [readLine_errorLine, ok_bind, h_read]
      · rwa [h_drop]
    | some kind =>
      obtain ⟨first, h_first, h_same_first⟩ := readLine_eventLine h_float h_event h_kind report
      obtain ⟨read, h_read, h_same⟩ := ih h_events
        { report with events := report.events ++ [first] }
      have h_class : event.frame.class' ≠ .error := by
        intro h_error
        rw [kindText_eq_none_iff.mpr h_error] at h_kind
        cases h_kind
      have h_keep : (event :: events).filter (·.frame.class' ≠ .error)
          = event :: events.filter (·.frame.class' ≠ .error) :=
        List.filter_cons_of_pos (decide_eq_true h_class)
      refine ⟨first :: read, ?_, ?_⟩
      · rw [h_first, ok_bind, h_read, List.append_assoc, List.singleton_append]
      · rw [h_keep]
        exact .cons h_same_first h_same

/-- **The ASC round trip.** The log of recordable events is read without an error and without a
note; what is read are the events but the error frames, in order, with their interface names,
directions and frames. Every error frame has a note with its index. -/
theorem asc_roundTrip (float : FloatText) (h_float : float.Sound) (events : List CaptureEvent)
    (h : ∀ event ∈ events, Recordable event) :
    ∃ log notes read, writeAsc float events = (log, { notes }) ∧
      readAsc float log = .ok { events := read, notes := [] } ∧
      List.Forall₂ SameFrame (events.filter (·.frame.class' ≠ .error)) read ∧
      ∀ (i : ℕ) (event : CaptureEvent), events[i]? = some event →
        event.frame.class' = .error → frameClassNote i ∈ notes := by
  have h_lines : ∀ line ∈ headerLines ++ events.map (writtenLine float) ++ [footerLine],
      IsLine line := by
    intro line h_line
    rcases List.mem_append.mp h_line with h_line | h_line
    · rcases List.mem_append.mp h_line with h_line | h_line
      · exact isLine_headerLines line h_line
      · obtain ⟨event, h_mem, rfl⟩ := List.mem_map.mp h_line
        exact isLine_writtenLine h_float (lf_notMem_of_isWord (h event h_mem).isWord_interfaceText)
    · exact isLine_footerLine line h_line
  obtain ⟨read, h_read, h_same⟩ := foldlM_writtenLines h_float h { events := [], notes := [] }
  -- the log is cut into the lines it was written as, and these are read in three parts
  refine ⟨_, _, read, rfl, ?_, h_same, ?_⟩
  · calc readAsc float (writeAsc float events).1
        = (headerLines ++ events.map (writtenLine float) ++ [footerLine]).foldlM (readLine float)
            { events := [], notes := [] } := by rw [readAsc, writeAsc, lines_unlines h_lines]
      _ = [footerLine].foldlM (readLine float) { events := read, notes := [] } := by
          rw [List.foldlM_append, List.foldlM_append, foldlM_headerLines, ok_bind, h_read, ok_bind,
            List.nil_append]
      _ = .ok { events := read, notes := [] } := by
          rw [List.foldlM_cons, readLine_footerLine, ok_bind]
          rfl
  · intro i event h_event h_error
    have h_none : (kindText event.frame).isNone = true := by
      rw [kindText_eq_none_iff.mpr h_error]
      rfl
    refine List.mem_flatMap.mpr ⟨(event, i), List.mk_mem_zipIdx_iff_getElem?.mpr h_event, ?_⟩
    rw [eventNotes, if_pos h_none]
    exact List.mem_append_right _ (List.mem_singleton_self _)

/-- The floating-point operations on a time of one second. -/
def oneSecond : FloatText where
  F64 := Unit
  format _ := "1.000000".toList
  parse text := if text = "1.000000".toList then .ok () else .error "invalid float literal"
  nanosTotal _ := 1000000000

theorem oneSecond_sound : oneSecond.Sound where
  word _ := show IsWord "1.000000".toList by decide
  first _ c h_c := by
    cases h_c
    decide
  parses _ := ⟨(), rfl⟩

/-- An empty frame and an error frame, both at the first second. -/
theorem asc_roundTrip_error :
    let frame : CaptureEvent :=
      { timestamp := ⟨1, 0⟩
        interface := ⟨some "vcan0", none⟩
        direction := .rx
        frame := ⟨⟨0x7, false, by decide⟩, .data, [], false, {}⟩
        annotations := [] }
    let error : CaptureEvent :=
      { frame with frame := ⟨⟨0x1abcdef0, true, by decide⟩, .error, [1], false, {}⟩ }
    ∃ read, readAsc oneSecond (writeAsc oneSecond [frame, error]).1
        = .ok { events := [read], notes := [] } ∧ SameFrame frame read := by
  intro frame error
  have h_frame : Recordable frame :=
    { valid := by decide
      name := ⟨"vcan0", rfl, by decide⟩
      fdFlags := fun _ => rfl
      remote := fun h_class => nomatch h_class }
  have h_error : Recordable error :=
    { valid := by decide
      name := ⟨"vcan0", rfl, by decide⟩
      fdFlags := fun h_class => absurd rfl h_class
      remote := fun h_class => nomatch h_class }
  obtain ⟨log, notes, read, h_write, h_read, h_same, -⟩ := asc_roundTrip oneSecond oneSecond_sound
    [frame, error] (List.forall_mem_cons.mpr ⟨h_frame, List.forall_mem_singleton.mpr h_error⟩)
  -- the error frame is not in the list of the frames that are read
  have h_same : List.Forall₂ SameFrame [frame] read := h_same
  obtain ⟨first, rest, h_first, h_rest, rfl⟩ := List.forall₂_cons_left_iff.mp h_same
  rw [List.forall₂_nil_left_iff.mp h_rest] at h_read
  rw [h_write]
  exact ⟨first, h_read, h_first⟩

end Cantools.Codec.Asc
