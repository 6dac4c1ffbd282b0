import Cantools.Codec.AscRoundTrip

/-!
# What an ASC log keeps, and what the writer says about it

A log has no place for the index of an interface, for annotations and for error frames, and the
writer notes each of them. It has no place either for FD flags, for an interface without a name,
for names of several words, and for the payload or the FD mode of a remote frame, and there the
writer is silent. What is read always fits a line (`IsRead`), so an event outside of that comes
back as another one.

The reader stops at the first line it cannot parse, and a name with blanks or line feeds makes
such lines. A log that holds one is not read at all, whatever the other events are
(`asc_losesNothing_iff`).
-/

namespace Cantools.Codec.Asc

open Numeral Program Text

variable {float : FloatText}

/-! ### Accepted lines -/

/-- Words that are read as an event; the second one is the interface name and may be any. -/
structure IsEvent (float : FloatText) (time id direction frameKind len : List Char)
    (tokens : List (List Char)) : Prop where
  time : ∃ seconds, float.parse time = .ok seconds
  id : ∃ parsed, parseHexId id = .ok parsed
  direction : ∃ parsed, directionFromStr direction = some parsed
  data : ∃ data, parseData frameKind len tokens = .ok data ∧
    data.length ≤ CanFrame.maxLen (eqIgnoreAsciiCase frameKind "fd".toList)

/-- The words of an event, or fewer than six words. -/
def AcceptedWords (float : FloatText) : List (List Char) → Prop
  | time :: _ :: id :: direction :: frameKind :: len :: tokens =>
    IsEvent float time id direction frameKind len tokens
  | _ => True

/-- A line the reader accepts: one that is passed over, or one of accepted words. -/
def Accepted (float : FloatText) (line : List Char) : Prop :=
  (trim line = [] ∨ ∃ start ∈ skippedStarts, start <+: trim line) ∨
    AcceptedWords float (splitWhitespace (trim line))

/-- What every event is that was read from a line. -/
structure IsRead (read : CaptureEvent) : Prop where
  name : ∃ name, read.interface.name = some name ∧ IsWord name.toList
  index : read.interface.index = none
  fdFlags : read.frame.fdFlags = {}
  remote : read.frame.class' = .remote → read.frame.fd = false ∧ read.frame.data = []
  annotations : read.annotations = []

/-- A kind is one word, whatever its case. -/
theorem not_eqIgnoreAsciiCase {kind a b : List Char} (h : eqIgnoreAsciiCase kind a)
    (h_ne : a.map Char.toLower ≠ b.map Char.toLower) : eqIgnoreAsciiCase kind b = false := by
  have h_kind : kind.map Char.toLower = a.map Char.toLower := of_decide_eq_true h
  rw [eqIgnoreAsciiCase, h_kind]
  exact decide_eq_false h_ne

/-- **The parser of a line** returns exactly for the words of an event. -/
theorem parseEvent_of_isEvent {time id direction frameKind len : List Char}
    {tokens : List (List Char)} (name : List Char)
    (h : IsEvent float time id direction frameKind len tokens) :
    ∃ read, parseEvent float time name id direction frameKind len tokens = .ok read := by
  obtain ⟨⟨seconds, h_time⟩, ⟨⟨parsed, extended⟩, h_id⟩, ⟨dir, h_direction⟩, data, h_data,
    h_len⟩ := h
  have h_new : ∀ class', CanFrame.new parsed class' data
      (eqIgnoreAsciiCase frameKind "fd".toList) {} = .ok
        { id := parsed, class', data, fd := eqIgnoreAsciiCase frameKind "fd".toList
          fdFlags := {} } :=
    fun class' => CanFrame.new_eq_ok_iff.mpr ⟨rfl, h_len⟩
  simp only [parseEvent, h_time, Except.mapError, ok_bind, h_id, h_direction, h_data, h_new,
    liftCore_ok]
  exact ⟨_, rfl⟩

/-- The timestamp of a nanosecond total. -/
def timestampOf (nanosTotal : Int64) : Timestamp where
  seconds := nanosTotal / 1000000000
  nanos := (remEuclid nanosTotal).toUInt64.toUInt32

/-- The class of a frame, from its kind. -/
def classOf (frameKind : List Char) : FrameClass :=
  if eqIgnoreAsciiCase frameKind "r".toList then .remote
  else if eqIgnoreAsciiCase frameKind "error".toList then .error
  else .data

/-- **What the parser returns**, where it does. -/
theorem parseEvent_cases {time name id direction frameKind len : List Char}
    {tokens : List (List Char)} {read : CaptureEvent}
    (h : parseEvent float time name id direction frameKind len tokens = .ok read) :
    ∃ seconds parsed dir data, float.parse time = .ok seconds ∧ parseHexId id = .ok parsed ∧
      directionFromStr direction = some dir ∧ parseData frameKind len tokens = .ok data ∧
      data.length ≤ CanFrame.maxLen (eqIgnoreAsciiCase frameKind "fd".toList) ∧
      read =
        { timestamp := timestampOf (float.nanosTotal seconds)
          interface := ⟨some (String.ofList name), none⟩
          direction := dir
          frame := ⟨parsed.1, classOf frameKind, data, eqIgnoreAsciiCase frameKind "fd".toList, {}⟩
          annotations := [] } := by
  -- each step of the parser has returned
  obtain ⟨seconds, h_time, h⟩ := bind_eq_ok_iff.mp h
  obtain ⟨parsed, h_id, h⟩ := bind_eq_ok_iff.mp h
  obtain ⟨dir, h_direction⟩ : ∃ dir, directionFromStr direction = some dir := by
    cases h_direction : directionFromStr direction with
    | none =>
      rw [h_direction] at h
      cases h
    | some dir => exact ⟨dir, rfl⟩
  rw [h_direction] at h
  obtain ⟨_, h_some, h⟩ := bind_eq_ok_iff.mp h
  cases h_some
  obtain ⟨data, h_data, h⟩ := bind_eq_ok_iff.mp h
  obtain ⟨frame, h_frame, h⟩ := bind_eq_ok_iff.mp h
  obtain ⟨rfl, h_valid⟩ := CanFrame.new_eq_ok_iff.mp (liftCore_eq_ok_iff.mp h_frame)
  cases h
  refine ⟨seconds, parsed, dir, data, ?_, h_id, h_direction, h_data, h_valid, rfl⟩
  cases h_parse : float.parse time with
  | ok x =>
    rw [h_parse] at h_time
    cases h_time
    rfl
  | error e =>
    rw [h_parse] at h_time
    cases h_time

theorem isEvent_of_parseEvent {time name id direction frameKind len : List Char}
    {tokens : List (List Char)} {read : CaptureEvent}
    (h : parseEvent float time name id direction frameKind len tokens = .ok read) :
    IsEvent float time id direction frameKind len tokens ∧
      (IsWord name → IsRead read) := by
  obtain ⟨seconds, parsed, dir, data, h_time, h_id, h_direction, h_data, h_len, rfl⟩ :=
    parseEvent_cases h
  refine ⟨⟨⟨_, h_time⟩, ⟨_, h_id⟩, ⟨_, h_direction⟩, ⟨_, h_data, h_len⟩⟩,
    fun h_name => ⟨⟨_, rfl, ?_⟩, rfl, rfl, ?_, rfl⟩⟩
  · rwa [String.toList_ofList]
  · intro h_remote
    -- a remote frame has the kind `r`, and no other
    have h_kind : eqIgnoreAsciiCase frameKind "r".toList := by
      by_contra h_not
      replace h_remote : classOf frameKind = .remote := h_remote
      rw [classOf, if_neg h_not] at h_remote
      split at h_remote <;> cases h_remote
    have h_d := not_eqIgnoreAsciiCase (b := "d".toList) h_kind (by decide)
    have h_fd := not_eqIgnoreAsciiCase (b := "fd".toList) h_kind (by decide)
    rw [parseData, h_d, h_fd] at h_data
    exact ⟨h_fd, (Except.ok.inj h_data).symm⟩

/-! ### Reading many lines -/

/-- The report of nothing. -/
def noReport : ReadReport := { events := [], notes := [] }

/-- The report of a piece of a log behind the report of what was before it. -/
def behind (report later : ReadReport) : ReadReport where
  events := report.events ++ later.events
  notes := report.notes ++ later.notes

theorem behind_noReport (report : ReadReport) : behind report noReport = report := by
  rw [behind, noReport, List.append_nil, List.append_nil]

theorem behind_behind (a b c : ReadReport) : behind (behind a b) c = behind a (behind b c) := by
  simp only [behind, List.append_assoc]

/-- **What a line adds** to a report does not depend on the report. -/
theorem readLine_behind (report : ReadReport) (line : List Char) :
    readLine float report line = readLine float noReport line >>= fun later =>
      .ok (behind report later) := by
  simp only [readLine]
  split
  · rw [ok_bind, behind_noReport]
  · split
    · -- a line of six words: its event, or its error
      next time name id direction frameKind len tokens _ =>
        cases parseEvent float time name id direction frameKind len tokens with
        | error e => rfl
        | ok read =>
          show Except.ok _ = Except.ok _
          simp [behind, noReport]
    · simp [behind, noReport]

/-- The report of these lines. -/
def readLines (float : FloatText) (ls : List (List Char)) : Except CodecError ReadReport :=
  ls.foldlM (readLine float) noReport

theorem foldlM_readLine (report : ReadReport) (ls : List (List Char)) :
    ls.foldlM (readLine float) report = readLines float ls >>= fun later =>
      .ok (behind report later) := by
  -- line by line, from any report; what two lines add is added in one go
  induction ls generalizing report with
  | nil =>
    show Except.ok report = Except.ok (behind report noReport)
    rw [behind_noReport]
  | cons line ls ih =>
    rw [readLines, List.foldlM_cons, List.foldlM_cons, readLine_behind]
    cases readLine float noReport line with
    | error e => rfl
    | ok first =>
      rw [ok_bind, ok_bind, ok_bind, ih, ih first]
      cases readLines float ls with
      | error e => rfl
      | ok later => rw [ok_bind, ok_bind, ok_bind, behind_behind]

/-- **Reading in parts.** -/
theorem readLines_append (ls later : List (List Char)) :
    readLines float (ls ++ later) = readLines float ls >>= fun report =>
      readLines float later >>= fun r => .ok (behind report r) := by
  rw [readLines, List.foldlM_append]
  congr
  funext report
  exact foldlM_readLine report later

/-- **One line.** The reader returns exactly on the lines that it accepts. -/
theorem readLine_ok_iff {line : List Char} :
    (∃ report, readLine float noReport line = .ok report) ↔ Accepted float line := by
  unfold Accepted
  simp only [readLine]
  split
  · -- empty lines, comments and headers
    next h_skip => exact ⟨fun _ => .inl h_skip, fun _ => ⟨_, rfl⟩⟩
  · next h_skip =>
    split
    · next time name id direction frameKind len tokens h_words =>
      rw [h_words]
      -- six words or more are accepted if they are an event
      refine ⟨?_, fun h => ?_⟩
      · rintro ⟨report, h⟩
        obtain ⟨read, h_read, -⟩ := bind_eq_ok_iff.mp h
        exact .inr (isEvent_of_parseEvent h_read).1
      · obtain ⟨read, h_read⟩ := parseEvent_of_isEvent name (h.resolve_left h_skip)
        exact ⟨_, bind_eq_ok_iff.mpr ⟨read, h_read, rfl⟩⟩
    · -- fewer than six words, which are noted
      next h_few =>
        refine ⟨fun _ => .inr ?_, fun _ => ⟨_, rfl⟩⟩
        unfold AcceptedWords
        split
        · next h_words => exact absurd h_words (h_few _ _ _ _ _ _ _)
        · trivial

theorem isRead_of_readLine {line : List Char} {report : ReadReport}
    (h : readLine float noReport line = .ok report) : ∀ read ∈ report.events, IsRead read := by
  simp only [readLine] at h
  split at h
  · -- a header, a comment or a line of another shape has no event
    cases h
    exact List.forall_mem_nil _
  · split at h
    · -- the one event of a line has a word of it for its name
      next time name id direction frameKind len tokens h_words =>
      obtain ⟨read, h_read, h⟩ := bind_eq_ok_iff.mp h
      cases h
      intro read' h_mem
      obtain rfl : read' = read := List.mem_singleton.mp h_mem
      have h_name : name ∈ splitWhitespace (trim line) := by
        rw [h_words]
        exact List.mem_cons_of_mem _ (List.mem_cons_self ..)
      exact (isEvent_of_parseEvent h_read).2 (isWord_of_mem_splitWhitespace h_name)
    · cases h
      exact List.forall_mem_nil _

/-- **All lines.** The reader returns exactly when it accepts each of them. -/
theorem readLines_ok_iff {ls : List (List Char)} :
    (∃ report, readLines float ls = .ok report) ↔ ∀ line ∈ ls, Accepted float line := by
  induction ls with
  | nil =>
    refine ⟨fun _ line h_mem => ?_, fun _ => ⟨noReport, rfl⟩⟩
    cases h_mem
  | cons line ls ih =>
    rw [List.forall_mem_cons, ← ih, ← readLine_ok_iff, readLines, List.foldlM_cons]
    refine ⟨?_, ?_⟩
    · -- the report so far decides nothing about the lines behind it
      rintro ⟨report, h⟩
      obtain ⟨first, h_first, h⟩ := bind_eq_ok_iff.mp h
      rw [foldlM_readLine] at h
      obtain ⟨later, h_later, -⟩ := bind_eq_ok_iff.mp h
      exact ⟨⟨first, h_first⟩, later, h_later⟩
    · rintro ⟨⟨first, h_first⟩, later, h_later⟩
      rw [h_first, ok_bind, foldlM_readLine, h_later]
      exact ⟨_, rfl⟩

/-- **What is read** fits a line, whatever the lines are. -/
theorem isRead_of_readLines {ls : List (List Char)} {report : ReadReport}
    (h : readLines float ls = .ok report) : ∀ read ∈ report.events, IsRead read := by
  induction ls generalizing report with
  | nil =>
    cases h
    exact List.forall_mem_nil _
  | cons line ls ih =>
    rw [readLines, List.foldlM_cons] at h
    obtain ⟨first, h_first, h⟩ := bind_eq_ok_iff.mp h
    rw [foldlM_readLine] at h
    obtain ⟨later, h_later, h⟩ := bind_eq_ok_iff.mp h
    cases h
    intro read h_mem
    -- the event is of the first line or of a later one
    rcases List.mem_append.mp h_mem with h_mem | h_mem
    · exact isRead_of_readLine h_first read h_mem
    · exact ih h_later read h_mem

/-! ### Logs -/

/-- The lines of the written events, as they are read. -/
def eventLines (float : FloatText) (events : List CaptureEvent) : List (List Char) :=
  (events.map (writtenLine float)).flatMap linesOf

theorem eventLines_append (events later : List CaptureEvent) :
    eventLines float (events ++ later) = eventLines float events ++ eventLines float later := by
  rw [eventLines, List.map_append, List.flatMap_append, eventLines, eventLines]

/-- The log as far as the lines of these events. -/
def logUpTo (float : FloatText) (events : List CaptureEvent) : List Char :=
  (headerLines ++ events.map (writtenLine float)).flatMap (· ++ ['\n'])

theorem readLines_headerLines (ls : List (List Char)) :
    readLines float (headerLines ++ ls) = readLines float ls := by
  rw [readLines, List.foldlM_append, foldlM_headerLines, ok_bind, readLines]

theorem readLines_footerLine (ls : List (List Char)) :
    readLines float (ls ++ [footerLine]) = readLines float ls := by
  have h_footer : readLines float [footerLine] = .ok noReport := by
    rw [readLines, List.foldlM_cons, readLine_footerLine, ok_bind]
    rfl
  rw [readLines_append, h_footer]
  cases readLines float ls with
  | error e => rfl
  | ok report => rw [ok_bind, ok_bind, behind_noReport]

theorem readAsc_logUpTo (events : List CaptureEvent) :
    readAsc float (logUpTo float events) = readLines float (eventLines float events) := by
  rw [readAsc, logUpTo, lines_flatMap, List.flatMap_append, flatMap_linesOf isLine_headerLines]
  exact readLines_headerLines _

/-- A whole log is read as the lines of its events. -/
theorem readAsc_writeAsc (events : List CaptureEvent) :
    readAsc float (writeAsc float events).1 = readLines float (eventLines float events) := by
  rw [readAsc, writeAsc, lines_flatMap, List.flatMap_append, List.flatMap_append,
    flatMap_linesOf isLine_headerLines, flatMap_linesOf isLine_footerLine]
  show readLines float _ = _
  rw [readLines_footerLine, readLines_headerLines, eventLines]

/-- The reader accepts the lines that an event leaves in a log: the comment line of an error frame,
the line of a name of one word, or, for any other name, what the line is cut into at the line feeds
of the name. -/
def Readable (float : FloatText) (event : CaptureEvent) : Prop :=
  event.frame.class' = .error ∨ IsWord (interfaceText event) ∨
    ∀ kind, kindText event.frame = some kind →
      ∀ line ∈ linesOf (eventLine float event kind), Accepted float line

/-- **Names without a line feed.** The words of the name stand between the time and the
identifier. -/
theorem accepted_lines_iff (h_float : float.Sound) {event : CaptureEvent} {kind : List Char}
    (h_kind : kindText event.frame = some kind) (h_name : '\n' ∉ interfaceText event) :
    (∀ line ∈ linesOf (eventLine float event kind), Accepted float line) ↔
      AcceptedWords float (float.format event.timestamp ::
        (splitWhitespace (interfaceText event) ++ tailWords event kind)) := by
  have h_written : writtenLine float event = eventLine float event kind := by
    rw [writtenLine, h_kind]
  have h_isLine := isLine_writtenLine h_float h_name
  rw [h_written] at h_isLine
  have h_ne : [' '].intercalate (lineWords float event kind) ≠ [] :=
    intercalate_ne_nil (h_float.word _).ne_nil
  -- the line begins with its time, so it is not passed over
  have h_skip : ¬ ([' '].intercalate (lineWords float event kind) = [] ∨
      ∃ start ∈ skippedStarts, start <+: [' '].intercalate (lineWords float event kind)) :=
    not_or.mpr ⟨h_ne, not_skipped h_float event.timestamp _⟩
  rw [linesOf_of_isLine h_isLine, List.forall_mem_singleton, Accepted,
    trim_eventLine h_float h_kind, or_iff_right h_skip, splitWhitespace_lineWords h_float h_kind]

theorem le_length_idText (id : CanId) : 3 ≤ (idText id).length := by
  unfold idText
  split
  · rw [List.length_append]
    exact le_trans (by decide) ((le_length_print 16 8 _).trans (Nat.le_add_right _ _))
  · exact le_length_print 16 3 _

/-- **Names of two words** put the identifier where a direction is read, and the log is not read at
all. -/
theorem not_readable_of_two_words (h_float : float.Sound) {event : CaptureEvent}
    {kind first second : List Char} (h_kind : kindText event.frame = some kind)
    (h_lf : '\n' ∉ interfaceText event)
    (h_name : splitWhitespace (interfaceText event) = [first, second]) :
    ¬ Readable float event := by
  rintro (h_error | h_word | h_lines)
  · rw [kindText_eq_none_iff.mpr h_error] at h_kind
    cases h_kind
  · rw [splitWhitespace_of_isWord h_word] at h_name
    cases h_name
  · have h_words := (accepted_lines_iff h_float h_kind h_lf).mp (h_lines kind h_kind)
    rw [h_name] at h_words
    obtain ⟨direction, h_direction⟩ : ∃ direction, directionFromStr (idText event.frame.id)
        = some direction := h_words.direction
    -- an identifier has three digits at least, a direction has two letters
    have h_long := le_length_idText event.frame.id
    have h_short : (idText event.frame.id).length = 2 := by
      unfold directionFromStr at h_direction
      split at h_direction
      · next h_text => rw [h_text]; rfl
      · split at h_direction
        · next h_text => rw [h_text]; rfl
        · cases h_direction
    omega

/-- The words of an event whose name is one word are accepted. -/
theorem acceptedWords_of_isWord (h_float : float.Sound) {event : CaptureEvent}
    (h_valid : event.frame.Valid) {kind : List Char} (h_kind : kindText event.frame = some kind)
    (h_name : IsWord (interfaceText event)) :
    AcceptedWords float (float.format event.timestamp ::
      (splitWhitespace (interfaceText event) ++ tailWords event kind)) := by
  -- the payload of a remote frame is not read; the others are read in their own mode
  have h_len : (if event.frame.class' = .remote then [] else event.frame.data).length ≤
      CanFrame.maxLen (eqIgnoreAsciiCase kind "fd".toList) := by
    rw [isFd_kind h_kind]
    split
    · exact Nat.zero_le _
    · exact h_valid
  rw [splitWhitespace_of_isWord h_name]
  exact
    { time := h_float.parses _
      id := ⟨_, parseHexId_idText _⟩
      direction := ⟨_, directionFromStr_directionText _⟩
      data := ⟨_, parseData_byteWords h_valid h_kind, h_len⟩ }

/-- The written lines of an event are accepted exactly when it is readable. -/
theorem readable_iff (h_float : float.Sound) {event : CaptureEvent} (h_valid : event.frame.Valid) :
    (∀ line ∈ linesOf (writtenLine float event), Accepted float line) ↔ Readable float event := by
  unfold Readable writtenLine
  cases h_kind : kindText event.frame with
  | none =>
    -- an error frame: its comment line is passed over
    have h_line : IsLine (errorLine event) := isLine_errorLine event
    refine ⟨fun _ => .inl (kindText_eq_none_iff.mp h_kind), fun _ => ?_⟩
    show ∀ line ∈ linesOf (errorLine event), Accepted float line
    rw [linesOf_of_isLine h_line, List.forall_mem_singleton, ← readLine_ok_iff]
    exact ⟨noReport, readLine_errorLine noReport event⟩
  | some kind =>
    refine ⟨fun h => .inr (.inr ?_), ?_⟩
    · rintro kind' h_kind'
      cases h_kind'
      exact h
    · rintro (h_error | h_word | h)
      · rw [kindText_eq_none_iff.mpr h_error] at h_kind
        cases h_kind
      · exact (accepted_lines_iff h_float h_kind (lf_notMem_of_isWord h_word)).mpr
          (acceptedWords_of_isWord h_float h_valid h_kind h_word)
      · exact h kind rfl

theorem readLines_eventLines_ok_iff (h_float : float.Sound) {events : List CaptureEvent}
    (h_frames : ∀ event ∈ events, event.frame.Valid) :
    (∃ report, readLines float (eventLines float events) = .ok report) ↔
      ∀ event ∈ events, Readable float event := by
  rw [readLines_ok_iff]
  refine ⟨fun h event h_event => ?_, fun h line h_line => ?_⟩
  · rw [← readable_iff h_float (h_frames event h_event)]
    exact fun line h_line => h line (List.mem_flatMap.mpr ⟨_, List.mem_map_of_mem h_event, h_line⟩)
  · obtain ⟨written, h_written, h_line⟩ := List.mem_flatMap.mp h_line
    obtain ⟨event, h_event, rfl⟩ := List.mem_map.mp h_written
    exact (readable_iff h_float (h_frames event h_event)).mpr (h event h_event) line h_line

/-! ### Losses without a note -/

/-- The events are the same but for their timestamps. -/
structure SameEvent (written read : CaptureEvent) : Prop where
  interface : read.interface = written.interface
  direction : read.direction = written.direction
  frame : read.frame = written.frame
  annotations : read.annotations = written.annotations

/-- The log is read, and what its `i`-th event line adds is one event, the same as this one. -/
def ReadsBack (float : FloatText) (events : List CaptureEvent) (i : ℕ) (event : CaptureEvent) :
    Prop :=
  ∃ before upTo whole read later,
    readAsc float (logUpTo float (events.take i)) = .ok before ∧
    readAsc float (logUpTo float (events.take (i + 1))) = .ok upTo ∧
    readAsc float (writeAsc float events).1 = .ok whole ∧
    upTo.events = before.events ++ [read] ∧ whole.events = upTo.events ++ later ∧
    SameEvent event read

/-- The writer of these events loses nothing of event `i` without a note: if it has no note about
it, the event is read back from its line. -/
def LosesNothing (float : FloatText) (events : List CaptureEvent) (i : ℕ) : Prop :=
  (∀ note ∈ (writeAsc float events).2.notes, note.eventIndex ≠ some i) →
    ∀ event, events[i]? = some event → ReadsBack float events i event

/-- The event has one of the parts that are noted. -/
def Noted (event : CaptureEvent) : Prop :=
  event.annotations ≠ [] ∨ event.interface.index.isSome ∨ event.frame.class' = .error

theorem eventIndex_of_mem_eventNotes {event : CaptureEvent} {index : ℕ} {note : FidelityNote}
    (h : note ∈ eventNotes event index) : note.eventIndex = some index := by
  rw [eventNotes, List.mem_append, List.mem_append] at h
  rcases h with (h | h) | h
  all_goals
    split at h
    · exact congrArg FidelityNote.eventIndex (List.mem_singleton.mp h)
    · cases h

theorem eventNotes_eq_nil_iff {event : CaptureEvent} {index : ℕ} :
    eventNotes event index = [] ↔ ¬ Noted event := by
  have h_class : (kindText event.frame).isNone ↔ event.frame.class' = .error := by
    rw [Option.isNone_iff_eq_none, kindText_eq_none_iff]
  rw [Noted, ← h_class, eventNotes, List.append_eq_nil_iff, List.append_eq_nil_iff,
    noteIf_eq_nil_iff, noteIf_eq_nil_iff, noteIf_eq_nil_iff, not_or, not_or, and_assoc]

/-- There is no note about an event exactly when it has none of the noted parts. -/
theorem forall_notes_iff_not_noted {events : List CaptureEvent} {i : ℕ} {event : CaptureEvent}
    (h_event : events[i]? = some event) :
    (∀ note ∈ (writeAsc float events).2.notes, note.eventIndex ≠ some i) ↔ ¬ Noted event := by
  rw [← eventNotes_eq_nil_iff]
  exact forall_notes_iff eventNotes (fun _ _ _ h => eventIndex_of_mem_eventNotes h) h_event

/-- An event that is read back from its line is one that a log can keep. -/
theorem ReadsBack.recordable {events : List CaptureEvent} {i : ℕ} {event : CaptureEvent}
    (h : ReadsBack float events i event) (h_valid : event.frame.Valid) : Recordable event := by
  obtain ⟨before, upTo, whole, read, later, -, h_upTo, -, h_read, -, h_same⟩ := h
  rw [readAsc_logUpTo] at h_upTo
  -- the event is among those that were read, which all fit a line
  have h_mem : read ∈ upTo.events := by
    rw [h_read]
    exact List.mem_append_right _ (List.mem_singleton_self read)
  obtain ⟨h_name, -, h_flags, h_remote, -⟩ := isRead_of_readLines h_upTo read h_mem
  rw [h_same.interface] at h_name
  rw [h_same.frame] at h_flags h_remote
  exact ⟨h_valid, h_name, fun _ => h_flags, h_remote⟩

/-- The line of a recordable event adds that event. -/
theorem readLines_of_recordable (h_float : float.Sound) {event : CaptureEvent}
    (h : Recordable event) (h_noted : ¬ Noted event) :
    ∃ read, readLines float (eventLines float [event]) = .ok { events := [read], notes := [] } ∧
      SameEvent event read := by
  obtain ⟨h_annotations, h_index, h_class⟩ : event.annotations = [] ∧
      event.interface.index = none ∧ event.frame.class' ≠ .error := by
    rw [Noted, not_or, not_or, not_not, Option.not_isSome_iff_eq_none] at h_noted
    exact h_noted
  cases h_kind : kindText event.frame with
  | none => exact absurd (kindText_eq_none_iff.mp h_kind) h_class
  | some kind =>
    obtain ⟨read, h_line, h_same⟩ := readLine_eventLine h_float h h_kind noReport
    have h_lines : eventLines float [event] = [eventLine float event kind] := by
      have h_written : writtenLine float event = eventLine float event kind := by
        rw [writtenLine, h_kind]
      have h_isLine := isLine_writtenLine h_float (lf_notMem_of_isWord h.isWord_interfaceText)
      rw [eventLines, List.map_singleton, List.flatMap_singleton, linesOf_of_isLine h_isLine,
        h_written]
    have h_read : readLines float [eventLine float event kind]
        = .ok { events := [read], notes := [] } := by
      rw [readLines, List.foldlM_cons, h_line, ok_bind]
      rfl
    -- the reader leaves the index and the annotations empty, as they are in the event
    have h_isRead := isRead_of_readLines h_read read (List.mem_singleton_self read)
    have h_interface : read.interface = event.interface := by
      calc read.interface
          = ⟨read.interface.name, read.interface.index⟩ := rfl
        _ = ⟨event.interface.name, event.interface.index⟩ := by
            rw [h_same.name, h_isRead.index, h_index]
    have h_annotations' : read.annotations = event.annotations := by
      rw [h_isRead.annotations, h_annotations]
    exact ⟨read, by rw [h_lines, h_read],
      ⟨h_interface, h_same.direction, h_same.frame, h_annotations'⟩⟩

/-- **When nothing is lost without a note**: when the event has a part that is noted, or when a log
can keep it and the reader accepts the lines of all events. -/
theorem asc_losesNothing_iff (float : FloatText) (h_float : float.Sound)
    (events : List CaptureEvent) (h_frames : ∀ event ∈ events, event.frame.Valid) (i : ℕ)
    (event : CaptureEvent) (h_event : events[i]? = some event) :
    LosesNothing float events i ↔
      Noted event ∨ (Recordable event ∧ ∀ event ∈ events, Readable float event) := by
  have h_valid := h_frames event (List.mem_of_getElem? h_event)
  constructor
  · intro h_keeps
    by_cases h_noted : Noted event
    · exact .inl h_noted
    · -- no note, so the event is read back, from a log that is read to its end
      have h_back := h_keeps ((forall_notes_iff_not_noted h_event).mpr h_noted) event h_event
      refine .inr ⟨h_back.recordable h_valid, ?_⟩
      obtain ⟨-, -, whole, -, -, -, -, h_whole, -⟩ := h_back
      rw [readAsc_writeAsc] at h_whole
      exact (readLines_eventLines_ok_iff h_float h_frames).mp ⟨whole, h_whole⟩
  · -- the other way, every line of the log is accepted
    intro h_cases h_silent event' h_event'
    obtain rfl : event = event' := Option.some.inj (h_event.symm.trans h_event')
    have h_noted := (forall_notes_iff_not_noted h_event).mp h_silent
    obtain ⟨h_recordable, h_readable⟩ := h_cases.resolve_left h_noted
    -- the log in three parts: the events before, the line of the event, the events behind it
    have h_part : ∀ part : List CaptureEvent, (∀ e ∈ part, e ∈ events) →
        ∃ report, readLines float (eventLines float part) = .ok report := by
      intro part h_part
      rw [readLines_eventLines_ok_iff h_float fun e h_e => h_frames e (h_part e h_e)]
      exact fun e h_e => h_readable e (h_part e h_e)
    obtain ⟨before, h_before⟩ := h_part (events.take i) fun _ h_e => List.mem_of_mem_take h_e
    obtain ⟨later, h_later⟩ := h_part (events.drop (i + 1)) fun _ h_e => List.mem_of_mem_drop h_e
    obtain ⟨read, h_read, h_same⟩ := readLines_of_recordable h_float h_recordable h_noted
    have h_take : events.take (i + 1) = events.take i ++ [event] := by
      rw [List.take_add_one, h_event, Option.toList_some]
    have h_upTo : readLines float (eventLines float (events.take (i + 1)))
        = .ok (behind before { events := [read], notes := [] }) := by
      rw [h_take, eventLines_append, readLines_append, h_before, ok_bind, h_read, ok_bind]
    have h_whole : readLines float (eventLines float events)
        = .ok (behind (behind before { events := [read], notes := [] }) later) := by
      have h_split := (List.take_append_drop (i + 1) events).symm
      rw [h_split, eventLines_append, readLines_append, h_upTo, ok_bind, h_later, ok_bind]
    exact ⟨_, _, _, read, later.events, (readAsc_logUpTo _).trans h_before,
      (readAsc_logUpTo _).trans h_upTo, (readAsc_writeAsc events).trans h_whole, rfl, rfl, h_same⟩

/-- An extended CAN FD frame behind an error frame without a name. -/
theorem asc_losesNothing_vcan0 :
    let error : CaptureEvent :=
      { timestamp := ⟨1, 0⟩
        interface := ⟨none, none⟩
        direction := .rx
        frame := ⟨⟨0x7, false, by decide⟩, .error, [1], false, {}⟩
        annotations := [] }
    let event : CaptureEvent :=
      { error with
        interface := ⟨some "vcan0", none⟩
        frame := ⟨⟨0x1abcdef0, true, by decide⟩, .data, [1, 2, 3, 4, 5, 6, 7, 8, 9], true, {}⟩ }
    LosesNothing oneSecond [error, event] 1 := by
  intro error event
  have h_event : Recordable event :=
    { valid := by decide
      name := ⟨"vcan0", rfl, by decide⟩
      fdFlags := fun _ => rfl
      remote := fun h_class => nomatch h_class }
  -- the error event becomes a comment line, and the other name is one word
  have h_readable : ∀ e ∈ [error, event], Readable oneSecond e :=
    List.forall_mem_cons.mpr ⟨.inl rfl,
      List.forall_mem_singleton.mpr (.inr (.inl h_event.isWord_interfaceText))⟩
  exact (asc_losesNothing_iff oneSecond oneSecond_sound [error, event] (by decide) 1 event rfl).mpr
    (.inr ⟨h_event, h_readable⟩)

/-- An event of an interface without a name: it comes back as one of `can0`, and there is no
note. -/
theorem asc_losesNothing_counterexample :
    let event : CaptureEvent :=
      { timestamp := ⟨1, 0⟩
        interface := ⟨none, none⟩
        direction := .rx
        frame := ⟨⟨0x123, false, by decide⟩, .data, [1, 2], false, {}⟩
        annotations := [] }
    event.frame.Valid ∧ oneSecond.Sound ∧ ¬ LosesNothing oneSecond [event] 0 := by
  intro event
  refine ⟨by decide, oneSecond_sound, fun h_keeps => ?_⟩
  -- a data frame of CAN without annotations
  have h_noted : ¬ Noted event := by
    rintro (h | h | h)
    · exact h rfl
    · cases h
    · cases h
  -- what comes back has a name, and the event has none
  have h_back := h_keeps ((forall_notes_iff_not_noted rfl).mpr h_noted) event rfl
  obtain ⟨name, h_name, -⟩ := (h_back.recordable (by decide)).name
  cases h_name

end Cantools.Codec.Asc
