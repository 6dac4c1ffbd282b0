import Cantools.Codec.Mf4RoundTrip

/-!
# What MF4 keeps, and what it says about it

Every event comes back normalised: its timestamp is the one its nanoseconds stand for, its index is
known, its name is clipped to the field. One pass is enough, as the normalised event comes back
unchanged (`mf4_normalises_once`); a character of the name that was cut at the end of the field is
replaced once and for all.

Where the normalised event is not the event, a note should say so. The writer notes annotations and
names that are too long. It is silent about an absent index, which comes back as `0`, about names
that are empty or have a zero character, and about timestamps that are not normalised
(`mf4_losesNothing_iff`).
-/

namespace Cantools.Codec.Mf4

/-! ### Normalisation -/

theorem normalised_timestamp (event : CaptureEvent) :
    (normalised event).timestamp = nsToTimestamp (timestampToNs event.timestamp) := by
  rw [normalised]

theorem normalised_interface (event : CaptureEvent) :
    (normalised event).interface =
      { name := if (storedName event).isEmpty then none else some (storedName event)
        index := some (event.interface.index.getD 0) } := by
  rw [normalised]

theorem normalised_frame (event : CaptureEvent) : (normalised event).frame = event.frame := by
  rw [normalised]

/-- A stored name ends before the first zero character. -/
theorem zero_notMem_storedName (event : CaptureEvent) : '\x00' ∉ (storedName event).toList := by
  rw [storedName_eq, String.toList_ofList]
  intro h_mem
  -- a kept character stands before the first zero, and the replacement character is none
  rcases Utf8.mem_clip h_mem with h_mem | h_replacement
  · exact Utf8.notMem_takeWhile _ h_mem
  · exact absurd h_replacement (by decide)

/-- The name in the record of a normalised event is the one in the record of the event. -/
theorem storedName_normalised (event : CaptureEvent) :
    storedName (normalised event) = storedName event := by
  have h_name : (normalised event).interface.name.getD "" = storedName event := by
    rw [normalised_interface]
    -- a name that is stored as the empty one comes back as none
    by_cases h_empty : (storedName event).isEmpty
    · rw [if_pos h_empty, Option.getD_none, String.isEmpty_iff.mp h_empty]
    · rw [if_neg h_empty, Option.getD_some]
  calc storedName (normalised event)
      = String.ofList (Utf8.clip interfaceNameLen (storedName event).toList) := by
        rw [storedName_eq (normalised event), h_name, 
          Utf8.takeWhile_of_notMem (zero_notMem_storedName event)]
    _ = storedName event := by
        rw [storedName_eq, String.toList_ofList, Utf8.clip_clip]

/-- **Normalising twice** changes nothing. -/
theorem normalised_normalised (event : CaptureEvent) :
    normalised (normalised event) = normalised event := by
  have h_time : nsToTimestamp (timestampToNs (normalised event).timestamp)
      = nsToTimestamp (timestampToNs event.timestamp) := by
    rw [normalised_timestamp, (fits_nsToTimestamp _).nsToTimestamp]
  have h_index : (normalised event).interface.index.getD 0 = event.interface.index.getD 0 := by
    rw [normalised_interface, Option.getD_some]
  rw [normalised, h_time, storedName_normalised, h_index, normalised]

/-- **One pass.** What is decoded from the record of any event with a valid frame is the normalised
event, and this comes back unchanged from its own record. -/
theorem mf4_normalises_once (event : CaptureEvent) (h_valid : event.frame.Valid)
    (index index' : ℕ) :
    ∃ record notes decoded record' notes',
      encodeRecord event index = .ok (record, notes) ∧ decodeRecord record = .ok decoded ∧
      encodeRecord decoded index' = .ok (record', notes') ∧ decodeRecord record' = .ok decoded ∧
      decoded = normalised event := by
  -- the second pass is the first one on the normalised event, whose frame is the same
  have h_again : decodeRecord (recordBytes (normalised event)) = .ok (normalised event) := by
    rw [← normalised_frame event] at h_valid
    rw [decodeRecord_recordBytes h_valid, normalised_normalised]
  exact ⟨_, _, _, _, _, encodeRecord_eq event index, decodeRecord_recordBytes h_valid,
    encodeRecord_eq (normalised event) index', h_again, rfl⟩

/-- A name whose last character is cut at the end of the field, without an index, before the
epoch. -/
theorem mf4_normalises_once_cut :
    let event : CaptureEvent :=
      { timestamp := ⟨-5, 1500000000⟩
        interface := ⟨some "aaaaaaaaaaaaaaaaaaaaaaaaaaaaaaaé", none⟩
        direction := .rx
        frame := ⟨⟨0x123, false, by decide⟩, .data, [1, 2], false, {}⟩
        annotations := [] }
    ∃ record notes decoded record' notes',
      encodeRecord event 0 = .ok (record, notes) ∧ decodeRecord record = .ok decoded ∧
      encodeRecord decoded 0 = .ok (record', notes') ∧ decodeRecord record' = .ok decoded ∧
      decoded.interface.name = some "aaaaaaaaaaaaaaaaaaaaaaaaaaaaaaa\uFFFD" := by
  intro event
  obtain ⟨record, notes, decoded, record', notes', h_first, h_decoded, h_second, h_again, rfl⟩ :=
    mf4_normalises_once event (by decide) 0 0
  -- the first of the two bytes of the last character is all that the field has of it
  have h_name : (normalised event).interface.name
      = some "aaaaaaaaaaaaaaaaaaaaaaaaaaaaaaa\uFFFD" := by
    rw [normalised_interface]
    decide +kernel
  exact ⟨record, notes, _, record', notes', h_first, h_decoded, h_second, h_again, h_name⟩

/-! ### Losses without a note -/

/-- The writer of these events loses nothing of event `i` without a note: if it has no note about
it, the event comes back from its record. -/
def LosesNothing (events : List CaptureEvent) (i : ℕ) : Prop :=
  ∃ group notes, writeMf4 events = .ok (group, { notes }) ∧
    ((∀ note ∈ notes, note.eventIndex ≠ some i) → ∀ event, events[i]? = some event →
      ∃ record own, encodeRecord event i = .ok (record, own) ∧ decodeRecord record = .ok event)

/-- The parts of an event that a record has a place for, and no note: the timestamp, an index, and a
name that is not empty and has no zero character. -/
structure Storable (event : CaptureEvent) : Prop where
  timestamp : Timestamp.Fits event.timestamp
  index : event.interface.index.isSome
  name : ∀ name, event.interface.name = some name → name ≠ "" ∧ '\x00' ∉ name.toList

/-- **What comes back unchanged**, of the events without a note. -/
theorem normalised_eq_self_iff {event : CaptureEvent} (h_annotations : event.annotations = [])
    (h_len : (nameBytes event).length ≤ interfaceNameLen) :
    normalised event = event ↔ Storable event := by
  -- what comes back has a fitting timestamp, an index and a stored name, so each of them is needed
  refine ⟨fun h => ⟨?_, ?_, ?_⟩, fun h => ?_⟩
  · rw [← h, normalised_timestamp]
    exact fits_nsToTimestamp _
  · rw [← h, normalised_interface]
    rfl
  · intro name h_name
    have h_interface := congrArg CaptureEvent.interface h
    rw [normalised_interface] at h_interface
    have h_stored := (congrArg InterfaceRef.name h_interface).trans h_name
    -- an empty stored name is read as none, so the name that came back is not empty
    by_cases h_empty : (storedName event).isEmpty
    · rw [if_pos h_empty] at h_stored
      cases h_stored
    · rw [if_neg h_empty] at h_stored
      obtain rfl : storedName event = name := Option.some.inj h_stored
      exact ⟨fun h_eq => h_empty (String.isEmpty_iff.mpr h_eq), zero_notMem_storedName event⟩
  · have h_recordable : Recordable event := by
      refine ⟨h.index, fun name h_name => ?_, h_annotations⟩
      obtain ⟨h_ne, h_zero⟩ := h.name name h_name
      rw [nameBytes, h_name] at h_len
      exact ⟨h_ne, h_len, h_zero⟩
    rw [normalised_of_fits h.timestamp, h_recordable.stored]

/-- **When nothing is lost without a note**: when the event has annotations or a name that is too
long, which are noted, or when a record has a place for all of it. -/
theorem mf4_losesNothing_iff (events : List CaptureEvent)
    (h_frames : ∀ event ∈ events, event.frame.Valid) (i : ℕ) (event : CaptureEvent)
    (h_event : events[i]? = some event) :
    LosesNothing events i ↔
      event.annotations ≠ [] ∨ interfaceNameLen < (nameBytes event).length ∨ Storable event := by
  have h_valid : event.frame.Valid := h_frames event (List.mem_of_getElem? h_event)
  have h_write : writeMf4 events = .ok (captureGroup (events.map recordBytes).flatten,
      { notes := (events.zipIdx 0).flatMap fun e => recordNotes e.1 e.2 }) := by
    rw [writeMf4, writePayload_eq]
    rfl
  -- a note is about an event exactly if its annotations or its name are cut
  have h_silent_iff : (∀ note ∈ (events.zipIdx 0).flatMap (fun e => recordNotes e.1 e.2),
      note.eventIndex ≠ some i) ↔
        event.annotations = [] ∧ (nameBytes event).length ≤ interfaceNameLen := by
    rw [← recordNotes_eq_nil_iff]
    exact forall_notes_iff recordNotes (fun _ _ _ h => eventIndex_of_mem_recordNotes h) h_event
  constructor
  · rintro ⟨group, notes, h_ok, h_keeps⟩
    rw [h_write] at h_ok
    cases h_ok
    by_cases h_annotations : event.annotations = []
    · rcases Nat.lt_or_ge interfaceNameLen (nameBytes event).length with h_long | h_len
      · exact .inr (.inl h_long)
      · -- no note, so the event comes back
        obtain ⟨record, own, h_encode, h_decode⟩ :=
          h_keeps (h_silent_iff.mpr ⟨h_annotations, h_len⟩) event h_event
        rw [encodeRecord_eq] at h_encode
        cases h_encode
        rw [decodeRecord_recordBytes h_valid] at h_decode
        exact .inr (.inr ((normalised_eq_self_iff h_annotations h_len).mp
          (Except.ok.inj h_decode)))
    · exact .inl h_annotations
  · intro h_cases
    refine ⟨_, _, h_write, fun h_silent event' h_event' => ?_⟩
    obtain rfl : event = event' := Option.some.inj (h_event.symm.trans h_event')
    obtain ⟨h_annotations, h_len⟩ := h_silent_iff.mp h_silent
    -- without a note about it, only a storable event is left
    have h_storable : Storable event := by
      rcases h_cases with h | h | h
      · exact absurd h_annotations h
      · exact absurd h_len (Nat.not_le.mpr h)
      · exact h
    refine ⟨_, _, encodeRecord_eq event i, ?_⟩
    -- such an event is its own normal form
    rw [decodeRecord_recordBytes h_valid,
      (normalised_eq_self_iff h_annotations h_len).mpr h_storable]

/-- An event of an interface with a name and an index. -/
theorem mf4_losesNothing_can0 :
    let event : CaptureEvent :=
      { timestamp := ⟨1700000000, 999999999⟩
        interface := ⟨some "can0", some 3⟩
        direction := .tx
        frame := ⟨⟨0x123, false, by decide⟩, .data, [1, 2], false, {}⟩
        annotations := [] }
    LosesNothing [event] 0 := by
  intro event
  have h_storable : Storable event := by
    refine ⟨⟨by decide, by decide, by decide⟩, rfl, ?_⟩
    intro name h_name
    cases h_name
    exact ⟨by decide, by decide⟩
  exact (mf4_losesNothing_iff [event] (by decide) 0 event rfl).mpr (.inr (.inr h_storable))

/-- An event of an interface without an index: it comes back with the index `0`, and no note. -/
theorem mf4_losesNothing_counterexample :
    let event : CaptureEvent :=
      { timestamp := ⟨0, 0⟩
        interface := ⟨some "can0", none⟩
        direction := .rx
        frame := ⟨⟨0x123, false, by decide⟩, .data, [1, 2], false, {}⟩
        annotations := [] }
    event.frame.Valid ∧ ¬ LosesNothing [event] 0 := by
  intro event
  refine ⟨by decide, ?_⟩
  rintro ⟨group, notes, h_ok, h_keeps⟩
  rw [writeMf4, writePayload_eq] at h_ok
  cases h_ok
  obtain ⟨record, own, h_encode, h_decode⟩ := h_keeps (by decide) event rfl
  rw [encodeRecord_eq] at h_encode
  cases h_encode
  rw [decodeRecord_recordBytes (by decide)] at h_decode
  have h_interface := congrArg CaptureEvent.interface (Except.ok.inj h_decode)
  rw [normalised_interface] at h_interface
  cases congrArg InterfaceRef.index h_interface

end Cantools.Codec.Mf4
