import Cantools.Codec.Path

/-!
# Translating captures

What a codec gives back of an event that was written with it is a function of the event, for each
format (`carried`): the frame, the direction and the parts of the interface and the time the
format has room for. On portable events (classic frames a log can print, on interfaces whose names
are words) nothing else happens in any format, except that a log has no error frames. So a capture
that is handed from file to file, as a log or in MF4, is in the end what the formats of the way
make of it one after the other (`relay_carried`), with the frames it began with.

What is read from a BLF file is what `ablf` makes of it, so nothing is said about these files.
-/

namespace Cantools.Codec

open Chunks Program Utf8

/-- An event that every format has a place for. -/
structure Portable (event : CaptureEvent) : Prop where
  valid : event.frame.Valid
  classic : event.frame.fd = false
  fdFlags : event.frame.fdFlags = {}
  remote : event.frame.class' = .remote → event.frame.data = []
  name : ∀ name, event.interface.name = some name → Text.IsWord name.toList

/-! ### Logs -/

namespace Asc

open Text

variable {float : FloatText} {event : CaptureEvent}

/-- The time that is read from the text of a time. -/
def storedTime (float : FloatText) (t : Timestamp) : Timestamp :=
  match float.parse (float.format t) with
  | .ok seconds => timestampOf (float.nanosTotal seconds)
  | .error _ => t

/-- What the line of an event keeps of it. -/
def stored (float : FloatText) (event : CaptureEvent) : CaptureEvent where
  timestamp := storedTime float event.timestamp
  interface := { name := some (event.interface.name.getD "can0"), index := none }
  direction := event.direction
  frame := event.frame
  annotations := []

/-- The event under the name it is written with. -/
def named (event : CaptureEvent) : CaptureEvent :=
  { event with interface := { name := some (event.interface.name.getD "can0"), index := none } }

theorem recordable_named (h : Portable event) : Recordable (named event) where
  valid := h.valid
  name := by
    refine ⟨_, rfl, ?_⟩
    cases h_name : event.interface.name with
    | none => decide
    | some name => exact h.name name h_name
  fdFlags _ := h.fdFlags
  remote h_class := ⟨h.classic, h.remote h_class⟩

/-- **One line.** The line of a portable frame is read as what it keeps. -/
theorem readLine_stored (h_float : float.Sound) (h : Portable event) {kind : List Char}
    (h_kind : kindText event.frame = some kind) (report : ReadReport) :
    readLine float report (eventLine float event kind)
      = .ok { report with events := report.events ++ [stored float event] } := by
  have h_named := recordable_named h
  obtain ⟨read, h_parse, h_same⟩ := parseEvent_words h_float h_named h_kind
  have h_line := readLine_words h_float h_named.isWord_interfaceText h_kind report
  rw [h_parse, ok_bind] at h_line
  -- the event that is read, field by field
  obtain ⟨seconds, parsed, dir, data, h_time, -, -, -, -, h_read⟩ := parseEvent_cases h_parse
  have h_stored : storedTime float event.timestamp = timestampOf (float.nanosTotal seconds) := by
    have h_text : float.parse (float.format event.timestamp) = .ok seconds := h_time
    rw [storedTime, h_text]
  have h_timestamp : read.timestamp = storedTime float event.timestamp := by
    rw [h_read, h_stored]
  -- a name is written, an index is not
  have h_interface : read.interface = (named event).interface := by
    have h_index : read.interface.index = none := by rw [h_read]
    calc read.interface
        = ⟨read.interface.name, read.interface.index⟩ := rfl
      _ = (named event).interface := by rw [h_same.name, h_index]; rfl
  have h_annotations : read.annotations = [] := by rw [h_read]
  have h_eq : read = stored float event := by
    calc read
        = ⟨read.timestamp, read.interface, read.direction, read.frame, read.annotations⟩ := rfl
      _ = stored float event := by
          rw [h_timestamp, h_interface, h_same.direction, h_same.frame, h_annotations]
          rfl
  rw [← h_eq]
  exact h_line

/-- **The lines of a log** are read as what they keep of the events, but for the error frames. -/
theorem readLines_stored (h_float : float.Sound) {events : List CaptureEvent}
    (h : ∀ event ∈ events, Portable event) :
    readLines float (eventLines float events) = .ok
      { events := (events.filter (·.frame.class' ≠ .error)).map (stored float), notes := [] } := by
  induction events with
  | nil => rfl
  | cons event events ih =>
    obtain ⟨h_event, h_events⟩ := List.forall_mem_cons.mp h
    have h_word : IsWord (interfaceText event) := (recordable_named h_event).isWord_interfaceText
    -- the line of the first event is one line of the file
    have h_isLine := isLine_writtenLine h_float (lf_notMem_of_isWord h_word)
    have h_one : eventLines float [event] = [writtenLine float event] := by
      rw [eventLines, List.map_singleton, List.flatMap_singleton, linesOf_of_isLine h_isLine]
    rw [← List.singleton_append, eventLines_append, readLines_append, ih h_events, h_one,
      List.filter_append, List.map_append]
    cases h_kind : kindText event.frame with
    | none =>
      -- an error frame: its comment line is passed over
      have h_skip : readLines float [writtenLine float event] = .ok noReport := by
        rw [writtenLine, h_kind, readLines, List.foldlM_cons, readLine_errorLine, ok_bind]
        rfl
      have h_class := kindText_eq_none_iff.mp h_kind
      rw [h_skip, List.filter_cons_of_neg (by simp [h_class])]
      rfl
    | some kind =>
      -- any other frame: its line is read back as the event
      have h_read : readLines float [writtenLine float event]
          = .ok { events := [stored float event], notes := [] } := by
        rw [writtenLine, h_kind, readLines, List.foldlM_cons,
          readLine_stored h_float h_event h_kind, ok_bind]
        rfl
      have h_class : event.frame.class' ≠ .error := by
        intro h_error
        rw [kindText_eq_none_iff.mpr h_error] at h_kind
        cases h_kind
      rw [h_read, List.filter_cons_of_pos (by simp [h_class])]
      rfl

end Asc

/-! ### What each format keeps -/

/-- What the codec of the format gives back of an event, if it is handed what it wrote. -/
def carried (float : Asc.FloatText) : Format → CaptureEvent → CaptureEvent
  | .asc => Asc.stored float
  | .blf => Blf.stored
  | .mf4 => Mf4.normalised

/-- Only a log has no error frames. -/
def kept : Format → List CaptureEvent → List CaptureEvent
  | .asc, events => events.filter (·.frame.class' ≠ .error)
  | .blf, events => events
  | .mf4, events => events

variable {float : Asc.FloatText} {event : CaptureEvent}

/-- **Frames are carried over**, and so is the direction. -/
theorem Portable.carried_frame (h : Portable event) (float : Asc.FloatText) (format : Format) :
    (carried float format event).frame = event.frame ∧
      (carried float format event).direction = event.direction := by
  cases format with
  | asc => exact ⟨rfl, rfl⟩
  | mf4 =>
    refine ⟨Mf4.normalised_frame event, ?_⟩
    rw [carried, Mf4.normalised]
  | blf =>
    -- a classic payload has at most eight bytes
    have h_data : event.frame.data.take 8 = event.frame.data :=
      List.take_of_length_le (h.valid.length_le_of_classic h.classic)
    have h_frame : { event.frame with data := event.frame.data.take 8, fd := false, fdFlags := {} }
        = event.frame := by
      rw [h_data, ← h.fdFlags, ← h.classic]
    rw [carried, Blf.stored]
    exact ⟨h_frame, rfl⟩

/-- What is cut out of a word is a word. -/
theorem isWord_clip {n : ℕ} {s : List Char} (h : ∀ c ∈ s, Text.isWhitespace c = false) :
    ∀ c ∈ clip n s, Text.isWhitespace c = false := by
  intro c h_c
  rcases mem_clip h_c with h_mem | rfl
  · exact h c h_mem
  · decide

/-- An event that the codec of the format gives back: a log needs a portable one, a record a frame
no longer than its payload, and an object takes any. -/
def Fit : Format → CaptureEvent → Prop
  | .asc, event => Portable event
  | .blf, _ => True
  | .mf4, event => event.frame.Valid

theorem Portable.fit (h : Portable event) (format : Format) : Fit format event := by
  cases format with
  | asc => exact h
  | blf => trivial
  | mf4 => exact h.valid

/-- Portable events stay portable. -/
theorem Portable.carried (h : Portable event) (format : Format) :
    Portable (carried float format event) := by
  have h_frame := (h.carried_frame float format).1
  -- all but the name is a matter of the frame, which is as it was
  refine ⟨?_, ?_, ?_, ?_, ?_⟩
  · rw [h_frame]
    exact h.valid
  · rw [h_frame]
    exact h.classic
  · rw [h_frame]
    exact h.fdFlags
  · rw [h_frame]
    exact h.remote
  · intro name h_name
    cases format with
    | asc =>
      obtain ⟨name', h_some, h_word⟩ := (Asc.recordable_named h).name
      cases h_some
      cases h_name
      exact h_word
    | blf => cases h_name
    | mf4 =>
      -- the stored name is cut out of the name, and none if nothing is left
      simp only [Codec.carried, Mf4.normalised_interface] at h_name
      split at h_name
      · cases h_name
      · next h_empty =>
        cases h_name
        refine ⟨fun h_nil => h_empty ?_, ?_⟩
        · rw [String.isEmpty_iff, ← String.toList_eq_nil_iff, h_nil]
        · rw [Mf4.storedName_eq, String.toList_ofList]
          refine isWord_clip fun c h_c => ?_
          have h_mem := (List.takeWhile_prefix _).subset h_c
          cases h_some : event.interface.name with
          | none =>
            rw [h_some] at h_mem
            cases h_mem
          | some name =>
            rw [h_some] at h_mem
            exact (h.name name h_some).noSpace c h_mem

/-! ### Written files are read back -/

section

variable {σ ε : Type} {crates : Crates ε} {files : Files σ ε}

/-- A loop of the codec is the codec's loop. -/
theorem foldlM_ofCodec {α β : Type} (f : β → α → Except CodecError β) (l : List α) (b : β) :
    l.foldlM (fun b a => (ofCodec (orFail (f b a)) : Run (PathError ε) β)) b
      = ofCodec (orFail (l.foldlM f b)) := by
  induction l generalizing b with
  | nil => rfl
  | cons a l ih =>
    rw [List.foldlM_cons, List.foldlM_cons]
    cases f b a with
    | error e => rfl
    | ok b' => exact ih b'

theorem readAscBytes_written (h : crates.Sound) {events : List CaptureEvent}
    (h_events : ∀ event ∈ events, Portable event) :
    readAscBytes crates (encode (Asc.writeAsc crates.float events).1) = .ok
      { events := (kept .asc events).map (carried crates.float .asc), notes := [] } := by
  have h_read : (Text.lines (Asc.writeAsc crates.float events).1).foldlM
      (Asc.readLine crates.float) Asc.noReport = .ok
        { events := (kept .asc events).map (carried crates.float .asc), notes := [] } :=
    (Asc.readAsc_writeAsc events).trans (Asc.readLines_stored h.float h_events)
  rw [readAscBytes, byteLines_encode, List.foldlM_map, foldlM_ofCodec, h_read]
  rfl

theorem readMf4Bytes_written (h : crates.Sound) {events : List CaptureEvent}
    (h_events : ∀ event ∈ events, event.frame.Valid) {bytes : List UInt8} {report : WriteReport}
    (h_write : Mf4.writeFile crates.mf4 events = .ok (bytes, report))
    (h_lt : bytes.length < 2 ^ 64) :
    readMf4Bytes crates (.ok bytes) = .ok
      { events := events.map Mf4.normalised, notes := [] } := by
  -- the links lead to one group with all records in one block
  obtain ⟨mdf, h_stands, h_name, -, h_size, -, h_data, h_len⟩ :=
    Mf4.writeFile_standsIn h.sized h_lt h_write
  have h_open := h.mdf bytes mdf h_stands h_len (by rw [h_name]; decide)
  rw [h_name, h_size, h_data] at h_open
  have h_decode : (events.map Mf4.recordBytes).mapM Mf4.decodeRecord
      = .ok (events.map Mf4.normalised) := by
    refine mapM_eq_ok ?_
    rw [List.forall₂_map_left_iff, List.forall₂_map_right_iff, List.forall₂_same]
    exact fun event h_mem => Mf4.decodeRecord_recordBytes (h_events event h_mem)
  have h_filter : (events.map Mf4.recordBytes).filter (Mf4.recordSize ≤ ·.length)
      = events.map Mf4.recordBytes := by
    rw [List.filter_eq_self]
    intro record h_record
    simp [Mf4.length_of_mem_records record h_record]
  have h_block : Mf4.readBlock crates.records Mf4.recordSize (events.map Mf4.recordBytes).flatten
      = .ok (events.map Mf4.normalised) := by
    rw [Mf4.readBlock, h.records _ (Mf4.recordSize_dvd_length events), Mf4.chunks_records, h_filter,
      h_decode]
  rw [readMf4Bytes]
  show (orFail (Mf4.mdfError (crates.mdf bytes)) >>= fun groups =>
    Mf4.readMf4 crates.records groups) = _
  rw [h_open]
  exact Mf4.readMf4_captureGroup h_block

variable (ε) in
/-- A path that the codec of its format opens as it is. -/
def Reopens (path : Path) (format : Format) : Prop :=
  (Format.fromPath path : Except (PathError ε) Format) = .ok format ∧ opened format path = path

/-- What was written is what a successful write put into the file. -/
theorem writePath_ok {format : Format} {path : Path}
    (h_format : (Format.fromPath path : Except (PathError ε) Format) = .ok format) {s s' : σ}
    {events : List CaptureEvent} {report : WriteReport}
    (h : writePath crates files s path events = (.ok report, s')) :
    ∃ bytes, encodeAs crates format events = .ok (bytes, report) ∧
      files.write s path bytes = (.ok (), s') := by
  rw [writePath, h_format, orFail_ok, ok_bind] at h
  cases h_encode : encodeAs crates format events with
  -- what the codec refuses is not written
  | error e =>
    rw [h_encode] at h
    cases e <;> cases h
  | ok encoded =>
    obtain ⟨bytes, report'⟩ := encoded
    rw [h_encode, ofCodec_ok] at h
    simp only at h
    split at h
    · cases h
    · next s'' h_write =>
      cases h
      exact ⟨bytes, rfl, h_write⟩

/-- The codecs themselves do not fail. -/
theorem exists_encodeAs (h : crates.Sound) (format : Format) (events : List CaptureEvent) :
    ∃ encoded, encodeAs crates format events = .ok encoded := by
  cases format with
  | asc => exact ⟨_, rfl⟩
  | blf =>
    have h_write : ∃ encoded, Blf.writeBlf events = .ok encoded := by
      rw [Blf.writeBlf, Blf.writeObjects_eq]
      exact ⟨_, rfl⟩
    exact h_write
  | mf4 =>
    obtain ⟨bytes, h_write⟩ := Mf4.exists_writeFile h.total events
    exact ⟨_, h_write⟩

/-- A write with a known format fails with the file. -/
theorem writePath_error (h : crates.Sound) {format : Format} {path : Path}
    (h_format : (Format.fromPath path : Except (PathError ε) Format) = .ok format) {s s' : σ}
    {events : List CaptureEvent} {e : Fault (PathError ε)}
    (h_write : writePath crates files s path events = (.error e, s')) :
    ∃ e', e = .error (.io e') := by
  obtain ⟨encoded, h_encode⟩ := exists_encodeAs h format events
  rw [writePath, h_format, orFail_ok, ok_bind, h_encode, ofCodec_ok] at h_write
  simp only at h_write
  split at h_write
  · cases h_write
    exact ⟨_, rfl⟩
  · cases h_write

/-- **A written file** is read back as what its format keeps of the events. -/
theorem readPath_written (h : crates.Sound) {path : Path} (h_files : files.SoundAt path)
    {format : Format} (h_path : Reopens ε path format) (h_blf : format ≠ .blf)
    {events : List CaptureEvent}
    (h_events : ∀ event ∈ events, Fit format event) {s s' : σ} {report : WriteReport}
    (h_write : writePath crates files s path events = (.ok report, s')) :
    ∃ notes, readPath crates files s' path = .ok
      { events := (kept format events).map (carried crates.float format), notes } := by
  obtain ⟨h_format, h_opened⟩ := h_path
  obtain ⟨bytes, h_encode, h_put⟩ := writePath_ok h_format h_write
  have h_get := h_files.read_write s bytes s' h_put
  rw [readPath, h_format, orFail_ok, ok_bind]
  -- what was written is what is read, so each codec returns what it keeps
  cases format with
  | asc =>
    cases h_encode
    refine ⟨[], ?_⟩
    simp only [h_get, ofIo_ok, ok_bind]
    exact readAscBytes_written h h_events
  | blf => exact absurd rfl h_blf
  | mf4 =>
    refine ⟨[], ?_⟩
    simp only [h_opened, h_get]
    rw [readMf4Bytes_written h h_events h_encode
      (h_files.length_lt s bytes s' h_put), ofCodec_ok]
    rfl

/-! ### From file to file -/

/-- A client of the codecs that writes the events to the first path, writes what it reads back to
the second, and so on; the result is what was read last. -/
def relay (crates : Crates ε) (files : Files σ ε) (s : σ) :
    List CaptureEvent → List Path → Run (PathError ε) (List CaptureEvent) × σ
  | events, [] => (.ok events, s)
  | events, path :: paths =>
    match writePath crates files s path events with
    | (.error e, s') => (.error e, s')
    | (.ok _, s') =>
      match readPath crates files s' path with
      | .error e => (.error e, s')
      | .ok report => relay crates files s' report.events paths

/-- What the formats make of the events, one after the other. -/
def carriedBy (float : Asc.FloatText) (formats : List Format) (events : List CaptureEvent) :
    List CaptureEvent :=
  formats.foldl (fun events format => (kept format events).map (carried float format)) events

/-- The frames with their directions. -/
def frames (events : List CaptureEvent) : List (Direction × CanFrame) :=
  events.map fun event => (event.direction, event.frame)

theorem mem_of_mem_kept {format : Format} {events : List CaptureEvent} {event : CaptureEvent}
    (h : event ∈ kept format events) : event ∈ events := by
  cases format with
  | asc => exact (List.mem_filter.mp h).1
  | blf => exact h
  | mf4 => exact h

/-- One file more. -/
theorem portable_carried {format : Format} {events : List CaptureEvent}
    (h : ∀ event ∈ events, Portable event) :
    ∀ event ∈ (kept format events).map (carried float format), Portable event := by
  intro event h_mem
  obtain ⟨event', h_kept, rfl⟩ := List.mem_map.mp h_mem
  exact (h event' (mem_of_mem_kept h_kept)).carried format

/-- The frames that are left after a number of files: error frames do not get through a log. -/
def survivors (formats : List Format) (frames : List (Direction × CanFrame)) :
    List (Direction × CanFrame) :=
  if .asc ∈ formats then frames.filter (·.2.class' ≠ .error) else frames

theorem survivors_cons (format : Format) (formats : List Format)
    (frames : List (Direction × CanFrame)) :
    survivors formats (survivors [format] frames) = survivors (format :: formats) frames := by
  unfold survivors
  by_cases h_format : format = .asc
  · -- a log drops the error frames, and a later one has nothing left to drop
    subst h_format
    rw [if_pos (List.mem_singleton_self _), if_pos (List.mem_cons_self ..)]
    split
    · rw [List.filter_filter]
      simp only [Bool.and_self]
    · rfl
  · -- the other formats drop none
    have h_ne : Format.asc ∉ [format] := by
      rw [List.mem_singleton]
      exact Ne.symm h_format
    have h_mem : Format.asc ∈ format :: formats ↔ Format.asc ∈ formats := by
      rw [List.mem_cons]
      exact or_iff_right (Ne.symm h_format)
    rw [if_neg h_ne]
    simp only [h_mem]

/-- One file more. -/
theorem frames_carried (format : Format) {events : List CaptureEvent}
    (h : ∀ event ∈ events, Portable event) :
    frames ((kept format events).map (carried float format))
      = survivors [format] (frames events) := by
  -- what a format keeps of a portable event includes its frame
  have h_same : frames ((kept format events).map (carried float format))
      = frames (kept format events) := by
    rw [frames, frames, List.map_map]
    refine List.map_congr_left fun event h_mem => ?_
    obtain ⟨h_frame, h_direction⟩ :=
      (h event (mem_of_mem_kept h_mem)).carried_frame float format
    rw [Function.comp_apply, h_frame, h_direction]
  rw [h_same]
  cases format with
  | asc =>
    rw [survivors, if_pos (List.mem_singleton_self _), frames, frames, List.filter_map]
    rfl
  | blf => rfl
  | mf4 => rfl

/-- **The frames of a capture** after any number of files. -/
theorem frames_carriedBy (formats : List Format) {events : List CaptureEvent}
    (h : ∀ event ∈ events, Portable event) :
    frames (carriedBy float formats events) = survivors formats (frames events) := by
  induction formats generalizing events with
  | nil => rfl
  | cons format formats ih =>
    calc frames (carriedBy float (format :: formats) events)
        = frames (carriedBy float formats ((kept format events).map (carried float format))) := rfl
      _ = survivors formats (survivors [format] (frames events)) := by
          rw [ih (portable_carried h), frames_carried format h]
      _ = survivors (format :: formats) (frames events) := survivors_cons ..

/-- **One file more.** Unless an operation on the file fails, the way goes on with what its format
keeps of the events. -/
theorem relay_cons (h : crates.Sound) {path : Path} (h_files : files.SoundAt path)
    {format : Format} (h_path : Reopens ε path format) (h_blf : format ≠ .blf) (paths : List Path)
    {events : List CaptureEvent}
    (h_events : ∀ event ∈ events, Fit format event) (s : σ) :
    (∃ e, (relay crates files s events (path :: paths)).1 = .error (.error (.io e))) ∨
      ∃ s', relay crates files s events (path :: paths) = relay crates files s'
        ((kept format events).map (carried crates.float format)) paths := by
  rw [relay]
  cases h_write : writePath crates files s path events with
  | mk result s' =>
    cases result with
    | ok report =>
      obtain ⟨notes, h_read⟩ := readPath_written h h_files h_path h_blf h_events h_write
      simp only [h_read]
      exact .inr ⟨s', rfl⟩
    | error e =>
      -- the codec does not fail, so the file did
      obtain ⟨e', rfl⟩ := writePath_error h h_path.1 h_write
      exact .inl ⟨e', rfl⟩

/-- **Any way through files.** A capture of portable events is written to a log or an MF4 file, read
back, written to the next file, and so on. Unless an operation on a file fails, it is in the end
what the formats of the way keep of it one after the other: the frames and directions it began
with, in order, without the error frames if one of the files was a log. -/
theorem relay_carried (crates : Crates ε) (files : Files σ ε) (h : crates.Sound)
    (paths : List Path) (h_files : ∀ path ∈ paths, files.SoundAt path) (formats : List Format)
    (h_paths : List.Forall₂ (Reopens ε) paths formats) (h_blf : .blf ∉ formats)
    (events : List CaptureEvent) (h_events : ∀ event ∈ events, Portable event) (s : σ) :
    (∃ e, (relay crates files s events paths).1 = .error (.error (.io e))) ∨
      ((relay crates files s events paths).1 = .ok (carriedBy crates.float formats events) ∧
        frames (carriedBy crates.float formats events) = survivors formats (frames events)) := by
  rw [and_iff_left (frames_carriedBy formats h_events)]
  -- on the files still to come, from what was read last
  induction h_paths generalizing events s with
  | nil => exact .inr rfl
  | @cons path format paths formats h_path _ ih =>
    have h_fit : ∀ event ∈ events, Fit format event := fun event h_mem =>
      (h_events event h_mem).fit format
    obtain ⟨h_file, h_files⟩ := List.forall_mem_cons.mp h_files
    obtain ⟨h_ne, h_blf⟩ := not_or.mp (List.mem_cons.not.mp h_blf)
    rcases relay_cons h h_file h_path (Ne.symm h_ne) paths h_fit s with h_io | ⟨s', h_relay⟩
    · exact .inl h_io
    · rw [h_relay]
      exact ih h_files h_blf _ (portable_carried h_events) s'

/-- A log and an MF4 file, one after the other. -/
theorem relay_carried_two :
    let event : CaptureEvent :=
      { timestamp := ⟨1, 0⟩
        interface := ⟨some "vcan0", some 1⟩
        direction := .rx
        frame := ⟨⟨0x123, false, by decide⟩, .data, [0x11, 0x22], false, {}⟩
        annotations := [] }
    let formats := [Format.asc, .mf4]
    (∃ e, (relay plainCrates disk (fun _ => none) [event]
        [encode "a.asc".toList, encode "a.mf4".toList]).1 = .error (.error (.io e))) ∨
      ((relay plainCrates disk (fun _ => none) [event]
        [encode "a.asc".toList, encode "a.mf4".toList]).1
          = .ok (carriedBy Asc.oneSecond formats [event]) ∧
        frames (carriedBy Asc.oneSecond formats [event]) = survivors formats (frames [event])) := by
  intro event formats
  -- two plain files, and an event with a name that is one word
  refine relay_carried plainCrates disk plainCrates_sound _ (fun path _ => disk_soundAt path)
    formats (.cons ⟨rfl, rfl⟩ (.cons ⟨rfl, ?_⟩ .nil)) (by decide) [event] ?_ _
  · exact isSome_decode_iff.mp (by decide)
  · exact List.forall_mem_singleton.mpr
      { valid := by decide
        classic := rfl
        fdFlags := rfl
        remote := fun h_class => nomatch h_class
        name := fun name h_name => by
          cases h_name
          decide }

/-- **Saving again.** What was read from an MF4 file can be saved to it and read back any number of
times: unless an operation on the file fails, it is what the first time gave. -/
theorem relay_resave (crates : Crates ε) (files : Files σ ε) (h : crates.Sound) (path : Path)
    (h_files : files.SoundAt path) (h_path : Reopens ε path .mf4) (events : List CaptureEvent)
    (h_events : ∀ event ∈ events, event.frame.Valid) (s : σ) (k : ℕ) :
    (∃ e, (relay crates files s events (List.replicate (k + 1) path)).1 = .error (.error (.io e))) ∨
      (relay crates files s events (List.replicate (k + 1) path)).1
        = .ok (events.map Mf4.normalised) := by
  have h_valid : ∀ event ∈ events.map Mf4.normalised, event.frame.Valid := by
    intro event h_mem
    obtain ⟨event', h_mem', rfl⟩ := List.mem_map.mp h_mem
    rw [Mf4.normalised_frame]
    exact h_events event' h_mem'
  have h_again : (events.map Mf4.normalised).map Mf4.normalised = events.map Mf4.normalised := by
    rw [List.map_map]
    exact List.map_congr_left fun event _ => Mf4.normalised_normalised event
  rw [List.replicate_succ]
  rcases relay_cons h h_files h_path (by decide) _ h_events s with h_io | ⟨s', h_relay⟩
  · exact .inl h_io
  · have h_first : (kept .mf4 events).map (carried crates.float .mf4)
        = events.map Mf4.normalised := rfl
    rw [h_relay, h_first]
    -- from here on nothing changes
    generalize events.map Mf4.normalised = saved at h_valid h_again
    clear h_relay h_first
    induction k generalizing s' with
    | zero => exact .inr rfl
    | succ k ih =>
      rw [List.replicate_succ]
      rcases relay_cons h h_files h_path (by decide) (List.replicate k path) h_valid s' with
        h_io | ⟨s'', h_relay⟩
      · exact .inl h_io
      · have h_next : (kept .mf4 saved).map (carried crates.float .mf4) = saved := h_again
        rw [h_relay, h_next]
        exact ih s''

/-- A CAN FD frame of eleven bytes, in a file that is saved three times. -/
theorem relay_resave_three :
    let event : CaptureEvent :=
      { timestamp := ⟨1, 0⟩
        interface := ⟨some "vcan0", some 1⟩
        direction := .rx
        frame := ⟨⟨0x123, false, by decide⟩, .data, .replicate 11 0, true, {}⟩
        annotations := [] }
    (∃ e, (relay plainCrates disk (fun _ => none) [event]
        (List.replicate 3 (encode "a.mf4".toList))).1 = .error (.error (.io e))) ∨
      (relay plainCrates disk (fun _ => none) [event]
        (List.replicate 3 (encode "a.mf4".toList))).1 = .ok ([event].map Mf4.normalised) := by
  intro event
  have h_path : Reopens String (encode "a.mf4".toList) .mf4 :=
    ⟨rfl, isSome_decode_iff.mp (by decide)⟩
  have h_valid : ∀ e ∈ [event], e.frame.Valid := List.forall_mem_singleton.mpr (by decide)
  exact relay_resave plainCrates disk plainCrates_sound _ (disk_soundAt _) h_path [event] h_valid
    _ 2

end

/-! ### The path of an MF4 file -/

/-- **Which paths lead back.** On a disk, a log of portable events and an MF4 file of valid frames
are read back from the path they were written to, except for MF4 files under a path that is no
text: their reader looks for them under another path. -/
theorem readPath_disk_iff (crates : Crates String) (h : crates.Sound) (path : Path)
    (format : Format) (h_blf : format ≠ .blf)
    (h_format : (Format.fromPath path : Except (PathError String) Format) = .ok format)
    (h_small : ∃ bytes report, encodeAs crates format [] = .ok (bytes, report) ∧
      bytes.length < 2 ^ 64) :
    (∀ s s' events report, (∀ event ∈ events, Fit format event) →
      writePath crates disk s path events = (.ok report, s') →
      ∃ notes, readPath crates disk s' path = .ok
        { events := (kept format events).map (carried crates.float format), notes }) ↔
      (format = .mf4 → (decode path).isSome) := by
  constructor
  · rintro h_all rfl
    by_contra h_text
    rw [isSome_decode_iff] at h_text
    -- an empty capture on an empty disk
    obtain ⟨bytes, report, h_encode, h_lt⟩ := h_small
    have h_write : writePath crates disk (fun _ => none) path [] = (.ok report,
        fun path' => if path' = path then some bytes else none) := by
      have h_put : disk.write (fun _ => none) path bytes
          = (.ok (), fun path' => if path' = path then some bytes else none) := if_pos h_lt
      rw [writePath, h_format, orFail_ok, ok_bind, h_encode, ofCodec_ok]
      simp only [h_put]
    obtain ⟨notes, h_read⟩ := h_all _ _ [] report (List.forall_mem_nil _) h_write
    -- the reader does not find the file
    have h_none : disk.read (fun path' => if path' = path then some bytes else none)
        (opened .mf4 path) = .error "no such file" := by
      simp [disk, opened, h_text]
    rw [readPath, h_format, orFail_ok, ok_bind] at h_read
    simp only [h_none] at h_read
    cases h_read
  · intro h_text s s' events report h_events h_write
    refine readPath_written h (disk_soundAt path) ⟨h_format, ?_⟩ h_blf h_events h_write
    cases format with
    | asc => rfl
    | blf => rfl
    | mf4 => exact isSome_decode_iff.mp (h_text rfl)

/-- A path of one byte that is no text, before the extension. -/
theorem readPath_disk_lost :
    ¬ ∀ s s' events report, (∀ event ∈ events, Fit .mf4 event) →
      writePath plainCrates disk s (0xff :: encode ".mf4".toList) events = (.ok report, s') →
      ∃ notes, readPath plainCrates disk s' (0xff :: encode ".mf4".toList) = .ok
        { events := (kept .mf4 events).map (carried plainCrates.float .mf4), notes } := by
  have h_small : ∃ bytes report, encodeAs plainCrates .mf4 [] = .ok (bytes, report) ∧
      bytes.length < 2 ^ 64 := by
    obtain ⟨bytes, h_write⟩ := Mf4.exists_writeFile Mf4.plainCrate_total []
    have h_len : (Mf4.writeFile Mf4.plainCrate []).toOption.map (·.1.length) = some 1823 := by
      decide +kernel
    rw [h_write] at h_len
    have h_eq : bytes.length = 1823 := Option.some.inj h_len
    refine ⟨bytes, _, h_write, ?_⟩
    rw [h_eq]
    decide
  rw [readPath_disk_iff plainCrates plainCrates_sound _ .mf4 (by decide) rfl h_small]
  decide

end Cantools.Codec
