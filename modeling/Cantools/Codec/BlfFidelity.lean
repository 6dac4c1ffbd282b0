import Cantools.Codec.BlfRoundTrip

/-!
# How BLF keeps interfaces apart

All that a message has of an interface is its channel: the low 16 bits of the index, and `1` where
there is no index. Names have no place in it, and `write_blf` has no note about an interface. So two
interfaces with the same channel become one, in the messages and in what is read from them
(`stored_eq_iff`), and nothing is said about it (`blf_keepsApart_iff`).
-/

namespace Cantools.Codec.Blf

open Program

/-- The events differ in their interface references and in nothing else. -/
def DifferInInterface (a b : CaptureEvent) : Prop :=
  b = { a with interface := b.interface } ∧ a.interface ≠ b.interface

/-- The field of the note is about the interface. -/
def ConcernsInterface (note : FidelityNote) : Prop := "interface".toList <:+: note.field.toList

/-- The events `i` and `j` of this list are kept apart: by their messages, or by a note about one of
them that concerns the interface. -/
def KeepsApart (events : List CaptureEvent) (i j : ℕ) : Prop :=
  ∃ file notes, writeBlf events = .ok (file, { notes }) ∧
    ((∃ a b, events[i]? = some a ∧ events[j]? = some b ∧ buildCanMessage a ≠ buildCanMessage b) ∨
      ∃ note ∈ notes, (note.eventIndex = some i ∨ note.eventIndex = some j) ∧
        ConcernsInterface note)

/-! ### Messages -/

variable {a b : CaptureEvent}

/-- **The message and the interface.** Only the channel depends on it. -/
theorem canMessage_of_interface (h : b = { a with interface := b.interface }) :
    canMessage b = { canMessage a with channel := (b.interface.index.getD 1).toUInt16 } := by
  rw [h]
  rfl

theorem toUInt16_eq_iff {x y : UInt32} :
    x.toUInt16 = y.toUInt16 ↔ x.toNat % 65536 = y.toNat % 65536 := by
  rw [← UInt16.toNat_inj, UInt32.toNat_toUInt16, UInt32.toNat_toUInt16]

/-- **One message for two events**: their indices agree in the low 16 bits, where no index counts
as `1`. -/
theorem canMessage_eq_iff (h : b = { a with interface := b.interface }) :
    canMessage a = canMessage b ↔
      (a.interface.index.getD 1).toNat % 65536 = (b.interface.index.getD 1).toNat % 65536 := by
  rw [← toUInt16_eq_iff]
  -- the channel is a field of the message, and the only one that can differ
  refine ⟨fun h_eq => congrArg CanMessage2Write.channel h_eq, fun h_channel => ?_⟩
  rw [canMessage_of_interface h, ← h_channel]
  rfl

/-- **The reader** tells the events apart exactly when the messages do. -/
theorem stored_eq_iff (h : b = { a with interface := b.interface }) :
    stored a = stored b ↔ canMessage a = canMessage b := by
  rw [canMessage_eq_iff h, ← toUInt16_eq_iff]
  refine ⟨fun h_eq => ?_, fun h_channel => ?_⟩
  · have h_index := congrArg (fun event => event.interface.index) h_eq
    -- a channel is read as an index that is no larger
    have h_wide : (a.interface.index.getD 1).toUInt16.toUInt32
        = (b.interface.index.getD 1).toUInt16.toUInt32 := Option.some.inj h_index
    apply UInt16.toNat_inj.mp
    rw [← UInt16.toNat_toUInt32, h_wide, UInt16.toNat_toUInt32]
  · rw [stored, stored, ← h_channel, h]

/-! ### Notes -/

theorem field_of_mem_objectNotes {event : CaptureEvent} {index : ℕ} {note : FidelityNote}
    (h : note ∈ objectNotes event index) :
    note.field = "annotations" ∨ note.field = "payload" := by
  rcases List.mem_append.mp h with h | h
  · split at h
    · rw [List.mem_singleton.mp h]
      exact .inl rfl
    · cases h
  · rw [List.mem_singleton.mp h]
    exact .inr rfl

/-- No note of the writer concerns an interface. -/
theorem not_concernsInterface {event : CaptureEvent} {index : ℕ} {note : FidelityNote}
    (h : note ∈ objectNotes event index) : ¬ ConcernsInterface note := by
  intro h_concerns
  -- the other fields have no `f`
  have h_f : 'f' ∈ note.field.toList := h_concerns.subset (by decide)
  rcases field_of_mem_objectNotes h with h_field | h_field
  · rw [h_field] at h_f
    exact absurd h_f (by decide)
  · rw [h_field] at h_f
    exact absurd h_f (by decide)

theorem writeBlf_eq (events : List CaptureEvent) : ∃ file, writeBlf events = .ok (file,
    { notes := (events.zipIdx 0).flatMap fun e => objectNotes e.1 e.2 }) := by
  rw [writeBlf, writeObjects_eq]
  exact ⟨_, rfl⟩

/-- **The writer is silent** about interfaces, whatever the events are. -/
theorem forall_notes_not_concern {events : List CaptureEvent} {file : List UInt8}
    {notes : List FidelityNote} (h : writeBlf events = .ok (file, { notes })) :
    ∀ note ∈ notes, ¬ ConcernsInterface note := by
  obtain ⟨file', h_write⟩ := writeBlf_eq events
  rw [h_write] at h
  cases h
  intro note h_note
  obtain ⟨e, -, h_own⟩ := List.mem_flatMap.mp h_note
  exact not_concernsInterface h_own

/-- **When interfaces are kept apart**: exactly when the indices, with `1` for none, differ in the
low 16 bits. -/
theorem blf_keepsApart_iff (events : List CaptureEvent) (i j : ℕ) (a b : CaptureEvent)
    (h_a : events[i]? = some a) (h_b : events[j]? = some b) (h_differ : DifferInInterface a b) :
    KeepsApart events i j ↔
      (a.interface.index.getD 1).toNat % 65536 ≠ (b.interface.index.getD 1).toNat % 65536 := by
  -- of the interface, a message keeps the low half of the index
  have h_messages : buildCanMessage a = buildCanMessage b ↔
      (a.interface.index.getD 1).toNat % 65536 = (b.interface.index.getD 1).toNat % 65536 := by
    rw [buildCanMessage_eq, buildCanMessage_eq, Except.ok.injEq, canMessage_eq_iff h_differ.1]
  rw [Ne, ← h_messages]
  constructor
  · rintro ⟨file', notes, h_ok, ⟨a', b', h_a', h_b', h_apart⟩ | ⟨note, h_note, -, h_concerns⟩⟩
    · rw [h_a] at h_a'
      rw [h_b] at h_b'
      cases h_a'
      cases h_b'
      exact h_apart
    · -- there is no such note
      exact absurd h_concerns (forall_notes_not_concern h_ok note h_note)
  · intro h_apart
    obtain ⟨file, h_write⟩ := writeBlf_eq events
    exact ⟨file, _, h_write, .inl ⟨a, b, h_a, h_b, h_apart⟩⟩

/-- Two buses with an index each. -/
theorem blf_keepsApart_two :
    let event : CaptureEvent :=
      { timestamp := ⟨1, 0⟩
        interface := ⟨some "can0", some 1⟩
        direction := .rx
        frame := ⟨⟨0x123, false, by decide⟩, .data, [1, 2], false, {}⟩
        annotations := [] }
    KeepsApart [event, { event with interface := ⟨some "can1", some 2⟩ }] 0 1 := by
  intro event
  have h_differ : DifferInInterface event { event with interface := ⟨some "can1", some 2⟩ } :=
    ⟨rfl, by decide⟩
  exact (blf_keepsApart_iff [event, { event with interface := ⟨some "can1", some 2⟩ }] 0 1 event
    { event with interface := ⟨some "can1", some 2⟩ } rfl rfl h_differ).mpr (by decide)

/-- Two buses with a name each and no index: both are written to channel `1`, and there is no note
about their interfaces. -/
theorem blf_keepsApart_counterexample :
    let event : CaptureEvent :=
      { timestamp := ⟨1, 0⟩
        interface := ⟨some "can0", none⟩
        direction := .rx
        frame := ⟨⟨0x123, false, by decide⟩, .data, [1, 2], false, {}⟩
        annotations := [] }
    let other : CaptureEvent := { event with interface := ⟨some "can1", none⟩ }
    DifferInInterface event other ∧ ¬ KeepsApart [event, other] 0 1 := by
  intro event other
  refine ⟨⟨rfl, by decide⟩, ?_⟩
  rintro ⟨file, notes, h_ok, ⟨a, b, h_a, h_b, h_apart⟩ | ⟨note, h_note, -, h_concerns⟩⟩
  · -- both are cut to the same message
    obtain rfl : event = a := Option.some.inj h_a
    obtain rfl : other = b := Option.some.inj h_b
    have h_same : canMessage event = canMessage other := (canMessage_eq_iff rfl).mpr rfl
    apply h_apart
    rw [buildCanMessage_eq, buildCanMessage_eq, h_same]
  · -- no note is about an interface
    exact forall_notes_not_concern h_ok note h_note h_concerns

end Cantools.Codec.Blf
