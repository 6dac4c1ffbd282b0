import Cantools.Codec.AscProvenance
import Cantools.Codec.AscTime
import Cantools.Codec.BlfRoundTrip
import Cantools.Codec.Mf4

/-!
# The span of what is read

No reader returns two events that are `2 ^ 64` nanoseconds apart: MF4 and BLF store an unsigned
count of 64 bits, and the totals of an ASC log are signed numbers of 64 bits, which the split moves
by at most a second.
-/

namespace Cantools.Codec

open Program

/-- No two events are `2 ^ 64` nanoseconds apart. -/
def Spans (events : List CaptureEvent) : Prop := ∀ a ∈ events, ∀ b ∈ events,
  b.timestamp.nanoseconds - a.timestamp.nanoseconds < 2 ^ 64

/-- Events within an interval of that length. -/
theorem spans_of_within {events : List CaptureEvent} (first : ℤ) (h : ∀ event ∈ events,
    first ≤ event.timestamp.nanoseconds ∧ event.timestamp.nanoseconds < first + 2 ^ 64) :
    Spans events := by
  intro a h_a b h_b
  have h_first := (h a h_a).1
  have h_last := (h b h_b).2
  omega

/-! ### The binary files -/

theorem spans_of_fits {events : List CaptureEvent}
    (h : ∀ event ∈ events, Timestamp.Fits event.timestamp) : Spans events := by
  refine spans_of_within 0 fun event h_event => ?_
  obtain ⟨h_seconds, -, h_ns⟩ := h event h_event
  rw [Timestamp.nanoseconds]
  omega

theorem fits_of_decodeRecord {record : List UInt8} {event : CaptureEvent}
    (h : Mf4.decodeRecord record = .ok event) : Timestamp.Fits event.timestamp := by
  simp only [Mf4.decodeRecord, bind_eq_ok_iff] at h
  obtain ⟨ns, -, id, -, flags, -, ifindex, -, len, -, name, -, data, -, rebuilt, -, frame, -,
    h_event⟩ := h
  cases h_event
  exact fits_nsToTimestamp _

theorem fits_of_readGroup {records : List UInt8 → ℕ → List (List UInt8)}
    {group : Mf4.ChannelGroup} {events : List CaptureEvent}
    (h : Mf4.readGroup records group = .ok events) :
    ∀ event ∈ events, Timestamp.Fits event.timestamp := by
  obtain ⟨name, -, h⟩ := bind_eq_ok_iff.mp h
  split at h
  · cases h
    exact List.forall_mem_nil _
  · obtain ⟨blocks, -, h⟩ := bind_eq_ok_iff.mp h
    obtain ⟨parts, h_parts, h⟩ := bind_eq_ok_iff.mp h
    cases h
    intro event h_event
    -- back from the event to its block and its record
    obtain ⟨part, h_part, h_event⟩ := List.mem_flatten.mp h_event
    obtain ⟨block, -, h_block⟩ := exists_of_mem_mapM h_parts h_part
    obtain ⟨record, -, h_record⟩ := exists_of_mem_mapM h_block h_event
    exact fits_of_decodeRecord h_record

theorem spans_of_readMf4 {records : List UInt8 → ℕ → List (List UInt8)}
    {groups : List Mf4.ChannelGroup} {report : ReadReport}
    (h : Mf4.readMf4 records groups = .ok report) : Spans report.events := by
  obtain ⟨parts, h_parts, h⟩ := bind_eq_ok_iff.mp h
  cases h
  refine spans_of_fits fun event h_event => ?_
  obtain ⟨part, h_part, h_event⟩ := List.mem_flatten.mp h_event
  obtain ⟨group, -, h_group⟩ := exists_of_mem_mapM h_parts h_part
  exact fits_of_readGroup h_group event h_event

theorem fits_of_readObjects {objects : List Blf.ObjectTypes} {before report : ReadReport}
    (h_before : ∀ event ∈ before.events, Timestamp.Fits event.timestamp)
    (h : Blf.readObjects objects before = .ok report) :
    ∀ event ∈ report.events, Timestamp.Fits event.timestamp := by
  induction objects generalizing before with
  | nil =>
    cases h
    exact h_before
  | cons object objects ih =>
    cases object with
    -- a message adds one event
    | canMessage86 message =>
      obtain ⟨event, h_event, h⟩ := bind_eq_ok_iff.mp h
      refine ih (List.forall_mem_append.mpr ⟨h_before, ?_⟩) h
      rw [List.forall_mem_singleton]
      exact (Blf.recordable_of_convertMessage h_event).timestamp
    | other debug =>
      rw [Blf.readObjects] at h
      refine ih ?_ h
      exact h_before

theorem spans_of_readBlf {path : String} {isValid : Bool} {objects : List Blf.ObjectTypes}
    {report : ReadReport} (h : Blf.readBlf path isValid objects = .ok report) :
    Spans report.events := by
  rw [Blf.readBlf] at h
  split at h
  · exact spans_of_fits (fits_of_readObjects (List.forall_mem_nil _) h)
  · cases h

/-! ### Logs -/

/-- The instant of a total of 64 bits. -/
theorem within_timestampOf (total : Int64) : -2 ^ 63 ≤ (Asc.timestampOf total).nanoseconds ∧
    (Asc.timestampOf total).nanoseconds < 2 ^ 63 := by
  have h_low := Int64.le_toInt total
  have h_high := Int64.toInt_lt total
  rw [Asc.nanoseconds_timestampOf]
  split
  · next h_shifted =>
    have h_neg := h_shifted.1
    omega
  · omega

theorem exists_timestampOf {float : Asc.FloatText} {line : List Char} {report : ReadReport}
    (h : Asc.readLine float Asc.noReport line = .ok report) :
    ∀ event ∈ report.events, ∃ total, event.timestamp = Asc.timestampOf total := by
  simp only [Asc.readLine] at h
  split at h
  · cases h
    exact List.forall_mem_nil _
  · split at h
    · obtain ⟨event, h_event, h⟩ := bind_eq_ok_iff.mp h
      cases h
      obtain ⟨seconds, _, _, _, -, -, -, -, -, rfl⟩ := Asc.parseEvent_cases h_event
      exact List.forall_mem_singleton.mpr ⟨_, rfl⟩
    · cases h
      exact List.forall_mem_nil _

/-- Line by line. -/
theorem exists_timestampOf_foldr {float : Asc.FloatText} {ls : List (List Char)}
    {parts : List ReadReport} (h : List.Forall₂
      (fun line part => Asc.readLine float Asc.noReport line = .ok part) ls parts) :
    ∀ event ∈ (parts.foldr Asc.behind Asc.noReport).events,
      ∃ total, event.timestamp = Asc.timestampOf total := by
  induction h with
  | nil => exact List.forall_mem_nil _
  | cons h_part _ ih => exact List.forall_mem_append.mpr ⟨exists_timestampOf h_part, ih⟩

theorem spans_of_readAsc {float : Asc.FloatText} {log : List Char} {report : ReadReport}
    (h : Asc.readAsc float log = .ok report) : Spans report.events := by
  obtain ⟨parts, h_parts, rfl⟩ := Asc.readLines_eq_ok_iff.mp h
  refine spans_of_within (-2 ^ 63) fun event h_event => ?_
  obtain ⟨total, h_total⟩ := exists_timestampOf_foldr h_parts event h_event
  have h_within := within_timestampOf total
  rw [h_total]
  omega

/-! ### Every reader -/

/-- The events of a report that a file reader returned. -/
inductive ReadFromFile : List CaptureEvent → Prop where
  | asc {float : Asc.FloatText} {log : List Char} {report : ReadReport} :
      Asc.readAsc float log = .ok report → ReadFromFile report.events
  | blf {path : String} {isValid : Bool} {objects : List Blf.ObjectTypes} {report : ReadReport} :
      Blf.readBlf path isValid objects = .ok report → ReadFromFile report.events
  | mf4 {records : List UInt8 → ℕ → List (List UInt8)} {groups : List Mf4.ChannelGroup}
      {report : ReadReport} : Mf4.readMf4 records groups = .ok report → ReadFromFile report.events

/-- **What a file reader returns** spans less than `2 ^ 64` nanoseconds. -/
theorem ReadFromFile.spans {events : List CaptureEvent} (h : ReadFromFile events) :
    Spans events := by
  cases h with
  | asc h => exact spans_of_readAsc h
  | blf h => exact spans_of_readBlf h
  | mf4 h => exact spans_of_readMf4 h

end Cantools.Codec
