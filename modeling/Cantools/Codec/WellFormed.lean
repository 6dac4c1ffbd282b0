import Cantools.Codec.Path
import Cantools.Codec.Span

/-!
# What a file may give

Whatever the bytes of a file are, an event that is read from it is well formed: its frame is one
that `CanFrame::new` accepts, its nanoseconds stay below a second, its interface has a name or an
index, and it has no annotations. So what is read can be sent, exported and written again without a
check.
-/

namespace Cantools.Codec

open Program Utf8

/-- What every reader guarantees of an event. -/
structure WellFormed (event : CaptureEvent) : Prop where
  valid : event.frame.Valid
  normalised : event.timestamp.Normalised
  interface : event.interface.name.isSome ∨ event.interface.index.isSome
  annotations : event.annotations = []

/-- The events of a report are well formed. -/
def ReadReport.WellFormed (report : ReadReport) : Prop :=
  ∀ event ∈ report.events, Codec.WellFormed event

theorem ReadReport.wellFormed_none : ReadReport.WellFormed Asc.noReport := List.forall_mem_nil _

/-- One event more. -/
theorem ReadReport.WellFormed.snoc {report : ReadReport} (h : report.WellFormed)
    {event : CaptureEvent} (h_event : Codec.WellFormed event) {notes : List FidelityNote} :
    ReadReport.WellFormed { events := report.events ++ [event], notes } :=
  List.forall_mem_append.mpr ⟨h, List.forall_mem_singleton.mpr h_event⟩

/-! ### One event -/

theorem wellFormed_of_parseEvent {float : Asc.FloatText}
    {time name id direction frameKind len : List Char} {tokens : List (List Char)}
    {event : CaptureEvent}
    (h : Asc.parseEvent float time name id direction frameKind len tokens = .ok event) :
    WellFormed event := by
  obtain ⟨seconds, parsed, dir, data, -, -, -, -, h_len, rfl⟩ := Asc.parseEvent_cases h
  exact ⟨h_len, Asc.normalised_timestampOf _, .inl rfl, rfl⟩

theorem wellFormed_of_convertMessage {message : Blf.CanMessage86} {event : CaptureEvent}
    (h : Blf.convertMessage message = .ok event) : WellFormed event := by
  have h_recordable := Blf.recordable_of_convertMessage h
  obtain ⟨i, h_index, -⟩ := h_recordable.index
  refine ⟨h_recordable.valid, h_recordable.timestamp.nanos_lt, .inr ?_, h_recordable.annotations⟩
  rw [h_index]
  rfl

theorem wellFormed_of_decodeRecord {record : List UInt8} {event : CaptureEvent}
    (h : Mf4.decodeRecord record = .ok event) : WellFormed event := by
  have h_fits := fits_of_decodeRecord h
  simp only [Mf4.decodeRecord, bind_eq_ok_iff, orFail_eq_ok_iff, liftCore_eq_ok_iff,
    CanFrame.new_eq_ok_iff] at h
  obtain ⟨ns, -, id, -, flags, -, ifindex, -, len, -, name, -, data, -, rebuilt, -, frame,
    ⟨-, h_valid⟩, h_event⟩ := h
  cases h_event
  exact ⟨h_valid, h_fits.nanos_lt, .inr rfl, rfl⟩

/-! ### One file -/

theorem wellFormed_readLine {float : Asc.FloatText} {before report : ReadReport}
    {line : List Char} (h_before : before.WellFormed)
    (h : Asc.readLine float before line = .ok report) : report.WellFormed := by
  simp only [Asc.readLine] at h
  split at h
  · cases h
    exact h_before
  · split at h
    · obtain ⟨event, h_event, h⟩ := bind_eq_ok_iff.mp h
      cases h
      exact h_before.snoc (wellFormed_of_parseEvent h_event)
    · cases h
      exact h_before

theorem wellFormed_readObjects {objects : List Blf.ObjectTypes} {before report : ReadReport}
    (h_before : before.WellFormed) (h : Blf.readObjects objects before = .ok report) :
    report.WellFormed := by
  induction objects generalizing before with
  | nil =>
    cases h
    exact h_before
  | cons object objects ih =>
    cases object with
    -- a message adds one event
    | canMessage86 message =>
      obtain ⟨event, h_event, h⟩ := bind_eq_ok_iff.mp h
      exact ih (h_before.snoc (wellFormed_of_convertMessage h_event)) h
    -- any other object adds a note
    | other debug =>
      rw [Blf.readObjects] at h
      refine ih ?_ h
      exact h_before

/-- An event of a report comes from a record of one of its groups. -/
theorem wellFormed_readMf4 {records : List UInt8 → ℕ → List (List UInt8)}
    {groups : List Mf4.ChannelGroup} {report : ReadReport}
    (h : Mf4.readMf4 records groups = .ok report) : report.WellFormed := by
  obtain ⟨parts, h_parts, h⟩ := bind_eq_ok_iff.mp h
  cases h
  -- from the report back to the group, the block and the record of the event
  intro event h_event
  obtain ⟨part, h_part, h_event⟩ := List.mem_flatten.mp h_event
  obtain ⟨group, -, h_group⟩ := exists_of_mem_mapM h_parts h_part
  obtain ⟨name, -, h_group⟩ := bind_eq_ok_iff.mp h_group
  split at h_group
  · cases h_group
    exact absurd h_event List.not_mem_nil
  · obtain ⟨blocks, -, h_group⟩ := bind_eq_ok_iff.mp h_group
    obtain ⟨blockParts, h_blockParts, h_group⟩ := bind_eq_ok_iff.mp h_group
    cases h_group
    obtain ⟨blockPart, h_blockPart, h_event⟩ := List.mem_flatten.mp h_event
    obtain ⟨block, -, h_block⟩ := exists_of_mem_mapM h_blockParts h_blockPart
    obtain ⟨record, -, h_record⟩ := exists_of_mem_mapM h_block h_event
    exact wellFormed_of_decodeRecord h_record

/-! ### Every path -/

section

variable {σ ε : Type} {crates : Crates ε}

theorem ofCodec_eq_ok_iff {α : Type} {result : Run CodecError α} {a : α} :
    (ofCodec result : Run (PathError ε) α) = .ok a ↔ result = .ok a := by
  cases result with
  | ok a' => exact ⟨fun h => congrArg _ (Except.ok.inj h), fun h => congrArg _ (Except.ok.inj h)⟩
  | error fault => cases fault <;> exact ⟨fun h => (nomatch h), fun h => (nomatch h)⟩

/-- Line by line, what is read stays well formed. -/
theorem wellFormed_foldlM {ls : List (Option (List Char))} {before report : ReadReport}
    (h_before : before.WellFormed)
    (h : ls.foldlM (fun report line =>
      match line with
      | some line => ofCodec (orFail (Asc.readLine crates.float report line))
      | none => .error (.error (.io crates.invalidData))) before = .ok report) :
    report.WellFormed := by
  induction ls generalizing before with
  | nil =>
    cases h
    exact h_before
  | cons line ls ih =>
    rw [List.foldlM_cons] at h
    cases line with
    -- a line that is no text is an error
    | none => cases h
    | some line =>
      obtain ⟨next, h_next, h⟩ := bind_eq_ok_iff.mp h
      have h_line := orFail_eq_ok_iff.mp (ofCodec_eq_ok_iff.mp h_next)
      exact ih (wellFormed_readLine h_before h_line) h

theorem wellFormed_readAscBytes {bytes : List UInt8} {report : ReadReport}
    (h : readAscBytes crates bytes = .ok report) : report.WellFormed :=
  wellFormed_foldlM ReadReport.wellFormed_none h

theorem wellFormed_readBlfBytes {path : Path} {bytes : List UInt8} {report : ReadReport}
    (h : readBlfBytes crates path bytes = .ok report) : report.WellFormed := by
  obtain ⟨⟨isValid, objects⟩, -, h⟩ := bind_eq_ok_iff.mp h
  have h_read := ofCodec_eq_ok_iff.mp h
  rw [Blf.readBlf] at h_read
  split at h_read
  · exact wellFormed_readObjects ReadReport.wellFormed_none h_read
  · cases h_read

/-- **Whatever is in a file**, the events that are read from it are well formed. -/
theorem wellFormed_readPath {files : Files σ ε} {s : σ} {path : Path} {report : ReadReport}
    (h : readPath crates files s path = .ok report) : report.WellFormed := by
  obtain ⟨format, -, h⟩ := bind_eq_ok_iff.mp h
  -- each reader checks what it builds
  cases format with
  | asc =>
    obtain ⟨bytes, -, h⟩ := bind_eq_ok_iff.mp h
    exact wellFormed_readAscBytes h
  | blf =>
    obtain ⟨bytes, -, h⟩ := bind_eq_ok_iff.mp h
    exact wellFormed_readBlfBytes h
  | mf4 =>
    obtain ⟨bytes, -, h⟩ := bind_eq_ok_iff.mp (ofCodec_eq_ok_iff.mp h)
    obtain ⟨groups, -, h⟩ := bind_eq_ok_iff.mp h
    exact wellFormed_readMf4 h

end

end Cantools.Codec
