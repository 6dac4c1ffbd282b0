import Mathlib.Algebra.Group.Int.Defs
import Cantools.Core.Capture
import Cantools.Framework.Program

/-!
# Reports, errors and timestamps of the codecs

The types that the readers and writers of `cantools-codec` share, and the conversion of a
timestamp to and from a 64-bit count of nanoseconds, which the MF4 and the BLF codec have in
common. Files are outside the model: a writer returns what it puts into the file, and a reader
starts from what is in it. Both binary writers put the bytes of one event after those of the
other (`writeEvents`).

`timestampToNs` wraps, as a build without overflow checks does; a build with them panics where
the count does not fit, and else has the same count (`timestampToNsIn_true`). On a timestamp that
`Fits` neither happens, and the conversion is inverted by `nsToTimestamp`.
-/

namespace Cantools.Codec

open Program

/-- Explicit note about fidelity loss or adaptation while translating formats. -/
structure FidelityNote where
  /-- Event index when the note applies to a specific event. -/
  eventIndex : Option ℕ
  /-- Short field or area label. -/
  field : String
  /-- Human-readable detail. -/
  detail : String
  deriving DecidableEq, Repr

/-- Result of reading a capture file. -/
structure ReadReport where
  events : List CaptureEvent
  notes : List FidelityNote
  deriving DecidableEq, Repr

/-- Result of writing a capture file. -/
structure WriteReport where
  notes : List FidelityNote
  deriving DecidableEq, Repr

/-- Codec errors. -/
inductive CodecError where
  /-- A format-specific parse error occurred. -/
  | parse (message : String)
  /-- Core value validation failed while reconstructing an event. -/
  | core (error : CoreError)
  deriving DecidableEq, Repr

/-- The `?` operator on a core result. -/
def liftCore {α : Type} : Except CoreError α → Except CodecError α
  | .ok a => .ok a
  | .error e => .error (.core e)

@[simp] theorem liftCore_ok {α : Type} (a : α) : liftCore (.ok a) = .ok a := rfl

theorem liftCore_eq_ok_iff {α : Type} {x : Except CoreError α} {a : α} :
    liftCore x = .ok a ↔ x = .ok a := by
  cases x <;> simp [liftCore]

/-! ### Writing event by event -/

/-- The loop of a writer, from an event index on: `encode` has the bytes of an event and the notes
about it. -/
def writeEvents (encode : CaptureEvent → ℕ → Run CodecError (List UInt8 × List FidelityNote)) :
    ℕ → List CaptureEvent → Run CodecError (List UInt8 × List FidelityNote)
  | _, [] => pure ([], [])
  | index, event :: events => do
    let (bytes, notes) ← encode event index
    let (laterBytes, laterNotes) ← writeEvents encode (index + 1) events
    pure (bytes ++ laterBytes, notes ++ laterNotes)

/-- **The writer's loop** writes the bytes of the events in order. -/
theorem writeEvents_eq
    {encode : CaptureEvent → ℕ → Run CodecError (List UInt8 × List FidelityNote)}
    {bytes : CaptureEvent → List UInt8} {notes : CaptureEvent → ℕ → List FidelityNote}
    (h : ∀ event index, encode event index = .ok (bytes event, notes event index)) (index : ℕ)
    (events : List CaptureEvent) :
    writeEvents encode index events = .ok ((events.map bytes).flatten,
      (events.zipIdx index).flatMap fun e => notes e.1 e.2) := by
  induction events generalizing index with
  | nil => rfl
  | cons event events ih =>
    rw [writeEvents, h, ok_bind]
    show (writeEvents encode (index + 1) events >>= fun r =>
      pure (bytes event ++ r.1, notes event index ++ r.2)) = _
    rw [ih, ok_bind]
    rfl

/-- There is no note where its condition fails. -/
theorem noteIf_eq_nil_iff {p : Prop} [Decidable p] {note : FidelityNote} :
    (if p then [note] else []) = [] ↔ ¬ p := by
  split
  · next h => exact ⟨fun h_nil => absurd h_nil (List.cons_ne_nil _ _), fun h_not => absurd h h_not⟩
  · next h => exact ⟨fun _ => h, fun _ => rfl⟩

/-- The notes about the event of an index are those of its encoder, where every encoder notes its
own index only. -/
theorem mem_notes_iff (notes : CaptureEvent → ℕ → List FidelityNote)
    (h_own : ∀ event index, ∀ note ∈ notes event index, note.eventIndex = some index)
    {events : List CaptureEvent} {i : ℕ} {event : CaptureEvent} (h_event : events[i]? = some event)
    {note : FidelityNote} :
    note ∈ (events.zipIdx 0).flatMap (fun e => notes e.1 e.2) ∧ note.eventIndex = some i ↔
      note ∈ notes event i := by
  constructor
  · rintro ⟨h_mem, h_index⟩
    obtain ⟨⟨event', j⟩, h_zip, h_note⟩ := List.mem_flatMap.mp h_mem
    -- the note is about event `j`, which is event `i`
    rw [h_own event' j note h_note, Option.some.injEq] at h_index
    subst h_index
    rw [List.mk_mem_zipIdx_iff_getElem?, h_event, Option.some.injEq] at h_zip
    subst h_zip
    exact h_note
  · intro h_note
    refine ⟨List.mem_flatMap.mpr ⟨(event, i), ?_, h_note⟩, h_own event i note h_note⟩
    rwa [List.mk_mem_zipIdx_iff_getElem?]

/-- There is no note about the event of an index exactly when its encoder has none. -/
theorem forall_notes_iff (notes : CaptureEvent → ℕ → List FidelityNote)
    (h_own : ∀ event index, ∀ note ∈ notes event index, note.eventIndex = some index)
    {events : List CaptureEvent} {i : ℕ} {event : CaptureEvent}
    (h_event : events[i]? = some event) :
    (∀ note ∈ (events.zipIdx 0).flatMap (fun e => notes e.1 e.2), note.eventIndex ≠ some i) ↔
      notes event i = [] := by
  rw [List.eq_nil_iff_forall_not_mem]
  refine forall_congr' fun note => ?_
  rw [← mem_notes_iff notes h_own h_event, not_and]

/-! ### Timestamps -/

/-- Nanoseconds since the epoch; a negative second counts as `0`. -/
def timestampToNs (timestamp : Timestamp) : UInt64 :=
  (max timestamp.seconds 0).toUInt64 * 1000000000 + timestamp.nanos.toUInt64

/-- The timestamp of a count of nanoseconds. -/
def nsToTimestamp (ns : UInt64) : Timestamp where
  seconds := (ns / 1000000000).toInt64
  nanos := (ns % 1000000000).toUInt32

/-- The timestamp is normalised, not before the epoch, and its nanoseconds fit 64 bits. -/
structure Timestamp.Fits (t : Timestamp) : Prop where
  seconds_nonneg : 0 ≤ t.seconds.toInt
  nanos_lt : t.nanos.toNat < 1000000000
  ns_lt : t.seconds.toInt * 1000000000 + t.nanos.toNat < 2 ^ 64

theorem max_zero_of_nonneg {x : Int64} (h : 0 ≤ x) : max x 0 = x := by
  show (if x ≤ 0 then 0 else x) = x
  split
  · next h_le => exact Int64.le_antisymm h h_le
  · rfl

/-- A negative second counts as `0`. -/
theorem toNat_max_zero (seconds : Int64) :
    (max seconds 0).toUInt64.toNat = seconds.toInt.toNat := by
  rcases Int64.le_total 0 seconds with h | h
  · rw [max_zero_of_nonneg h, Int64.toNat_toUInt64_of_le h]
    rfl
  · have h_neg : seconds.toInt ≤ 0 := Int64.le_iff_toInt_le.mp h
    have h_max : max seconds 0 = 0 := if_pos h
    rw [h_max, Int.toNat_of_nonpos h_neg]
    rfl

/-- The count of nanoseconds that a timestamp is converted to, without a bound. -/
def exportedNs (t : Timestamp) : ℕ := t.seconds.toInt.toNat * 1000000000 + t.nanos.toNat

/-- The conversion wraps at 64 bits. -/
theorem toNat_timestampToNs (t : Timestamp) :
    (timestampToNs t).toNat = exportedNs t % 2 ^ 64 := by
  rw [timestampToNs, UInt64.toNat_add, UInt64.toNat_mul, toNat_max_zero, UInt32.toNat_toUInt64,
    exportedNs]
  simp only [UInt64.reduceToNat]
  omega

/-- Nothing wraps on a timestamp that fits. -/
theorem Timestamp.Fits.toNat_ns {t : Timestamp} (h : Timestamp.Fits t) :
    (timestampToNs t).toNat = t.seconds.toInt.toNat * 1000000000 + t.nanos.toNat := by
  obtain ⟨h_seconds, -, h_ns⟩ := h
  rw [toNat_timestampToNs, exportedNs, Nat.mod_eq_of_lt (by omega)]

theorem toInt_toInt64 {x : UInt64} (h : 2 * x.toNat < 2 ^ 64) : x.toInt64.toInt = x.toNat :=
  BitVec.toInt_eq_toNat_of_lt h

/-- Every count of nanoseconds is that of a timestamp which fits. -/
theorem fits_nsToTimestamp (ns : UInt64) : Timestamp.Fits (nsToTimestamp ns) := by
  have h_ns := UInt64.toNat_lt ns
  have h_div : (ns / 1000000000).toNat = ns.toNat / 1000000000 := UInt64.toNat_div ..
  -- the seconds of a 64-bit count are far below the sign bit
  have h_seconds : (nsToTimestamp ns).seconds.toInt = (ns.toNat / 1000000000 : ℕ) := by
    rw [nsToTimestamp, toInt_toInt64 (by rw [h_div]; omega), h_div]
  have h_nanos : (nsToTimestamp ns).nanos.toNat = ns.toNat % 1000000000 := by
    have h_mod : (ns % 1000000000).toNat = ns.toNat % 1000000000 := UInt64.toNat_mod ..
    rw [nsToTimestamp, UInt64.toNat_toUInt32, h_mod]
    omega
  constructor
  · rw [h_seconds]
    exact Int.natCast_nonneg _
  · rw [h_nanos]
    exact Nat.mod_lt _ (by decide)
  · rw [h_seconds, h_nanos]
    omega

/-- **Timestamp round trip.** -/
theorem Timestamp.Fits.nsToTimestamp {t : Timestamp} (h : Timestamp.Fits t) :
    nsToTimestamp (timestampToNs t) = t := by
  have h_ns := h.toNat_ns
  obtain ⟨h_seconds, h_nanos, h_lt⟩ := h
  obtain ⟨seconds, nanos⟩ := t
  simp only at h_ns h_seconds h_nanos h_lt
  have h_div : (timestampToNs ⟨seconds, nanos⟩ / 1000000000).toNat = seconds.toInt.toNat := by
    rw [UInt64.toNat_div, h_ns]
    simp only [UInt64.reduceToNat]
    omega
  have h_mod : (timestampToNs ⟨seconds, nanos⟩ % 1000000000).toNat = nanos.toNat := by
    rw [UInt64.toNat_mod, h_ns]
    simp only [UInt64.reduceToNat]
    omega
  -- back from the unsigned quotient to the signed field
  have h_unsigned : timestampToNs ⟨seconds, nanos⟩ / 1000000000 = seconds.toUInt64 := by
    apply UInt64.toNat_inj.mp
    calc (timestampToNs ⟨seconds, nanos⟩ / 1000000000).toNat
        = seconds.toInt.toNat := h_div
      _ = seconds.toUInt64.toNat :=
          (Int64.toNat_toUInt64_of_le (Int64.le_iff_toInt_le.mpr h_seconds)).symm
  rw [Codec.nsToTimestamp]
  congr 1
  · rw [h_unsigned, Int64.toInt64_toUInt64]
  · apply UInt32.toNat_inj.mp
    rw [UInt64.toNat_toUInt32, h_mod, Nat.mod_eq_of_lt (UInt32.toNat_lt nanos)]

end Cantools.Codec
