import Cantools.Codec.BlfRoundTrip
import Cantools.Codec.Mf4RoundTrip
import Cantools.Core.Timestamp
import Cantools.Framework.Machine

/-!
# The order of exported timestamps

MF4 and BLF store a timestamp as an unsigned count of nanoseconds. `timestamp_to_ns` takes a
negative second for the epoch but adds the nanoseconds of the second all the same, so the
timestamps before the epoch come out as the first second behind it, ordered by their nanoseconds
alone; and the product and the sum are not checked, so they leave 64 bits behind
`lastExported`. `exports_inOrder_iff` says that these two are the only ways in which an export
loses the order of its events.
-/

namespace Cantools.Codec

open Buffer Chunks LittleEndian Program

/-! ### The conversion -/

/-- `timestamp_to_ns` in a build with or without overflow checks. -/
def timestampToNsIn (checks : Bool) (t : Timestamp) : Run CodecError ℕ := do
  let product ← Machine.mul checks (max t.seconds 0).toUInt64.toNat 1000000000
  Machine.add checks product t.nanos.toNat

/-- The conversion does not overflow: both builds return the whole count. -/
def Exact (t : Timestamp) : Prop := ∀ checks, timestampToNsIn checks t = .ok (exportedNs t)

/-- The last timestamp whose count fits 64 bits. -/
def lastExported : Timestamp := ⟨18446744073, 709551615⟩

theorem exportedNs_lt_iff {t : Timestamp} (h : t.Normalised) :
    exportedNs t < 2 ^ 64 ↔ t ≤ lastExported := by
  have h_seconds : lastExported.seconds.toInt = 18446744073 := by decide
  have h_nanos : lastExported.nanos.toNat = 709551615 := by decide
  unfold Timestamp.Normalised at h
  rw [Timestamp.le_iff_lex, h_seconds, h_nanos, exportedNs]
  omega

/-- The build without checks is the conversion of the codecs. -/
theorem timestampToNsIn_false (t : Timestamp) :
    timestampToNsIn false t = .ok (timestampToNs t).toNat := by
  rw [timestampToNsIn, Machine.mul_unchecked, ok_bind, Machine.add_unchecked, toNat_max_zero,
    toNat_timestampToNs, exportedNs, Nat.mod_add_mod]

/-- The build with checks has the same count, or panics where it does not fit. -/
theorem timestampToNsIn_true (t : Timestamp) :
    timestampToNsIn true t
      = if exportedNs t < 2 ^ 64 then .ok (timestampToNs t).toNat else .error .panic := by
  rw [timestampToNsIn, toNat_max_zero, toNat_timestampToNs]
  unfold exportedNs
  rcases Nat.lt_or_ge (t.seconds.toInt.toNat * 1000000000) (2 ^ 64) with h_product | h_product
  · rw [Machine.mul_of_lt h_product, ok_bind]
    split
    · next h_sum => rw [Machine.add_of_lt h_sum, Nat.mod_eq_of_lt h_sum]
    · next h_sum => exact Machine.add_checked_of_le (Nat.not_lt.mp h_sum)
  · -- the product alone is too large
    have h_sum := Nat.le_trans h_product (Nat.le_add_right _ t.nanos.toNat)
    rw [Machine.mul_checked_of_le h_product, if_neg (Nat.not_lt.mpr h_sum)]
    rfl

/-- **When the conversion is exact.** -/
theorem exact_iff {t : Timestamp} (h : t.Normalised) : Exact t ↔ t ≤ lastExported := by
  rw [← exportedNs_lt_iff h]
  constructor
  · intro h_exact
    -- the build with checks returns
    by_contra h_not
    have h_true := (timestampToNsIn_true t).symm.trans (h_exact true)
    rw [if_neg h_not] at h_true
    cases h_true
  · intro h_lt checks
    have h_ns : (timestampToNs t).toNat = exportedNs t := by
      rw [toNat_timestampToNs, Nat.mod_eq_of_lt h_lt]
    cases checks with
    | false => rw [timestampToNsIn_false, h_ns]
    | true => rw [timestampToNsIn_true, if_pos h_lt, h_ns]

/-- An exact conversion is the one of the codecs. -/
theorem Exact.toNat_timestampToNs {t : Timestamp} (h : Exact t) :
    (timestampToNs t).toNat = exportedNs t :=
  Except.ok.inj ((timestampToNsIn_false t).symm.trans (h false))

/-! ### Two timestamps -/

/-- Neither conversion overflows, and the order is kept. -/
structure ExportsInOrder (s t : Timestamp) : Prop where
  left : Exact s
  right : Exact t
  mono : s ≤ t → timestampToNs s ≤ timestampToNs t

/-- Where both seconds count as `0`, the nanoseconds alone are in order. -/
def NanosInOrder (s t : Timestamp) : Prop := t.seconds ≤ 0 → s.nanos ≤ t.nanos

instance (s t : Timestamp) : Decidable (NanosInOrder s t) := inferInstanceAs (Decidable (_ → _))

theorem timestampToNs_le_iff {s t : Timestamp} (h_s : s.Normalised) (h_le : s ≤ t)
    (h_left : Exact s) (h_right : Exact t) :
    timestampToNs s ≤ timestampToNs t ↔ NanosInOrder s t := by
  have h_sign : t.seconds ≤ 0 ↔ t.seconds.toInt ≤ 0 := Int64.le_iff_toInt_le
  rw [Timestamp.le_iff_lex] at h_le
  unfold Timestamp.Normalised at h_s
  rw [UInt64.le_iff_toNat_le, h_left.toNat_timestampToNs, h_right.toNat_timestampToNs, exportedNs,
    exportedNs, NanosInOrder, h_sign, UInt32.le_iff_toNat_le]
  -- a positive second outweighs all nanoseconds
  omega

theorem exportsInOrder_iff {s t : Timestamp} (h_s : s.Normalised) (h_t : t.Normalised) :
    ExportsInOrder s t ↔ s ≤ lastExported ∧ t ≤ lastExported ∧ (s ≤ t → NanosInOrder s t) := by
  rw [← exact_iff h_s, ← exact_iff h_t]
  constructor
  · rintro ⟨h_left, h_right, h_mono⟩
    exact ⟨h_left, h_right,
      fun h_le => (timestampToNs_le_iff h_s h_le h_left h_right).mp (h_mono h_le)⟩
  · rintro ⟨h_left, h_right, h_nanos⟩
    exact ⟨h_left, h_right,
      fun h_le => (timestampToNs_le_iff h_s h_le h_left h_right).mpr (h_nanos h_le)⟩

/-! ### Stored timestamps -/

/-- The timestamp in an MF4 record. -/
def mf4Time (record : List UInt8) : UInt64 := toU64 (slice record 0 8)

/-- The timestamp in a BLF object: behind the base header, the flags and two fields of the object
header. -/
def blfTime (object : List UInt8) : UInt64 := toU64 (slice object 24 32)

theorem mf4Time_recordBytes (event : CaptureEvent) :
    mf4Time (Mf4.recordBytes event) = timestampToNs event.timestamp := by
  have h_slice : slice (Mf4.recordBytes event) 0 8 = ofU64 (timestampToNs event.timestamp) :=
    slice_flatten [] _ _ rfl (by rw [length_ofU64])
  rw [mf4Time, h_slice, toU64_ofU64]

theorem blfTime_objectBytes (event : CaptureEvent) :
    blfTime (Blf.objectBytes event) = timestampToNs event.timestamp := by
  let message := Blf.canMessage event
  -- 24 bytes stand before the time
  have h_fields : Blf.objectBytes event = ([(Blf.objectHeader 38).bytes,
      ofU32 message.header.flags, ofU16 message.header.clientIndex,
      ofU16 message.header.version] ++ ofU64 message.header.timestampNs ::
        message.fields.drop 4).flatten := by
    simp [Blf.objectBytes, Blf.CanMessage2Write.bytes, Blf.CanMessage2Write.fields, message]
  have h_slice : slice (Blf.objectBytes event) 24 32 = ofU64 message.header.timestampNs := by
    rw [h_fields]
    refine slice_flatten _ _ _ ?_ ?_
    · simp [Blf.ObjectBaseHeaderWrite.length_bytes, length_ofU32, length_ofU16]
    · rw [length_ofU64]
  rw [blfTime, h_slice, toU64_ofU64]
  rfl

/-- The timestamps of a written MF4 file. -/
theorem mf4Time_records (events : List CaptureEvent) :
    (chunks Mf4.recordSize (events.map Mf4.recordBytes).flatten).map mf4Time
      = events.map fun event => timestampToNs event.timestamp := by
  rw [Mf4.chunks_records, List.map_map]
  exact List.map_congr_left fun event _ => mf4Time_recordBytes event

/-- The timestamps of a written BLF file, behind its header. -/
theorem blfTime_objects (header : Blf.FileHeaderWrite) (events : List CaptureEvent) :
    (chunks 54 ((header.bytes ++ (events.map Blf.objectBytes).flatten).drop 144)).map blfTime
      = events.map fun event => timestampToNs event.timestamp := by
  have h_objects : ∀ object ∈ events.map Blf.objectBytes, object.length = 54 := by
    intro object h_object
    obtain ⟨event, -, rfl⟩ := List.mem_map.mp h_object
    exact Blf.length_objectBytes event
  rw [List.drop_left' header.length_bytes, chunks_flatten_of_length (by decide) h_objects,
    List.map_map]
  exact List.map_congr_left fun event _ => blfTime_objectBytes event

/-- No conversion of an event overflows, and the timestamps in both files are in order. -/
structure StoredInOrder (events : List CaptureEvent) : Prop where
  noOverflow : ∀ event ∈ events, Exact event.timestamp
  mf4 : ∃ payload report, Mf4.writeMf4 events = .ok (Mf4.captureGroup payload, report) ∧
    ((chunks Mf4.recordSize payload).map mf4Time).Pairwise (· ≤ ·)
  blf : ∃ file report, Blf.writeBlf events = .ok (file, report) ∧
    ((chunks 54 (file.drop 144)).map blfTime).Pairwise (· ≤ ·)

/-- Both files hold the conversions of the timestamps. -/
theorem storedInOrder_iff_pairwise (events : List CaptureEvent) :
    StoredInOrder events ↔ (∀ event ∈ events, Exact event.timestamp) ∧
      events.Pairwise fun a b => timestampToNs a.timestamp ≤ timestampToNs b.timestamp := by
  constructor
  · -- the records alone say how the times are ordered
    rintro ⟨h_exact, ⟨payload, report, h_write, h_order⟩, -⟩
    rw [Mf4.writeMf4, Mf4.writePayload_eq] at h_write
    cases h_write
    rw [mf4Time_records, List.pairwise_map] at h_order
    exact ⟨h_exact, h_order⟩
  · -- both files have the times of the events
    rintro ⟨h_exact, h_order⟩
    have h_times := List.pairwise_map.mpr h_order
    refine ⟨h_exact, ⟨(events.map Mf4.recordBytes).flatten, ?_⟩, ?_⟩
    · rw [mf4Time_records, Mf4.writeMf4, Mf4.writePayload_eq]
      exact ⟨_, rfl, h_times⟩
    · rw [Blf.writeBlf, Blf.writeObjects_eq]
      refine ⟨_, _, rfl, ?_⟩
      rw [blfTime_objects]
      exact h_times

theorem storedInOrder_iff {events : List CaptureEvent}
    (h_norm : ∀ event ∈ events, event.timestamp.Normalised)
    (h_sorted : events.Pairwise (·.timestamp ≤ ·.timestamp)) :
    StoredInOrder events ↔ (∀ event ∈ events, event.timestamp ≤ lastExported) ∧
      events.Pairwise (NanosInOrder ·.timestamp ·.timestamp) := by
  rw [storedInOrder_iff_pairwise, forall₂_congr fun event h => exact_iff (h_norm event h)]
  refine and_congr_right fun h_last => ?_
  have h_exact : ∀ event ∈ events, Exact event.timestamp :=
    fun event h => (exact_iff (h_norm event h)).mpr (h_last event h)
  -- for events in order, only the nanoseconds can put the sums out of order
  have h_iff : ∀ a ∈ events, ∀ b ∈ events, a.timestamp ≤ b.timestamp →
      (timestampToNs a.timestamp ≤ timestampToNs b.timestamp ↔
        NanosInOrder a.timestamp b.timestamp) := fun a h_a b h_b h_le =>
    timestampToNs_le_iff (h_norm a h_a) h_le (h_exact a h_a) (h_exact b h_b)
  constructor
  · intro h_order
    exact (h_sorted.and h_order).imp_of_mem fun h_a h_b h => (h_iff _ h_a _ h_b h.1).mp h.2
  · intro h_order
    exact (h_sorted.and h_order).imp_of_mem fun h_a h_b h => (h_iff _ h_a _ h_b h.1).mpr h.2

/-! ### Which exports keep the order -/

/-- **When an export keeps the order** of two timestamps, and of the events of a sorted list: none
is behind `lastExported`, and those with no positive second are in the order of their nanoseconds
alone. -/
theorem exports_inOrder_iff (s t : Timestamp) (h_s : s.Normalised) (h_t : t.Normalised)
    (events : List CaptureEvent) (h_norm : ∀ event ∈ events, event.timestamp.Normalised)
    (h_sorted : events.Pairwise (·.timestamp ≤ ·.timestamp)) :
    (ExportsInOrder s t ↔
        s ≤ lastExported ∧ t ≤ lastExported ∧ (s ≤ t → NanosInOrder s t)) ∧
      (StoredInOrder events ↔ (∀ event ∈ events, event.timestamp ≤ lastExported) ∧
        events.Pairwise (NanosInOrder ·.timestamp ·.timestamp)) :=
  ⟨exportsInOrder_iff h_s h_t, storedInOrder_iff h_norm h_sorted⟩

/-- A timestamp in the first second and one in a later second. -/
theorem exports_inOrder_later :
    let early : CaptureEvent :=
      { timestamp := ⟨0, 999999999⟩
        interface := ⟨some "can0", none⟩
        direction := .rx
        frame := ⟨⟨0x123, false, by decide⟩, .data, [1, 2], false, {}⟩
        annotations := [] }
    let late : CaptureEvent := { early with timestamp := ⟨1700000000, 0⟩ }
    ExportsInOrder early.timestamp late.timestamp ∧ StoredInOrder [early, late] := by
  intro early late
  obtain ⟨h_two, h_list⟩ := exports_inOrder_iff early.timestamp late.timestamp (by decide)
    (by decide) [early, late] (by decide) (by decide)
  exact ⟨h_two.mpr (by decide), h_list.mpr (by decide)⟩

/-- The last nanosecond before the epoch is stored behind the epoch, and a second of `2 ^ 62`
does not fit. -/
theorem exports_inOrder_counterexample :
    let before : CaptureEvent :=
      { timestamp := ⟨-1, 999999999⟩
        interface := ⟨some "can0", none⟩
        direction := .rx
        frame := ⟨⟨0x123, false, by decide⟩, .data, [1, 2], false, {}⟩
        annotations := [] }
    let epoch : CaptureEvent := { before with timestamp := ⟨0, 0⟩ }
    before.timestamp ≤ epoch.timestamp ∧ Exact before.timestamp ∧ Exact epoch.timestamp ∧
      timestampToNs epoch.timestamp < timestampToNs before.timestamp ∧
      ¬ StoredInOrder [before, epoch] ∧ ¬ Exact ⟨4611686018427387904, 0⟩ := by
  intro before epoch
  -- an instant before the epoch is stored behind the epoch
  have h_stored : ¬ StoredInOrder [before, epoch] := by
    rw [storedInOrder_iff (by decide) (by decide)]
    decide
  have h_before : Exact before.timestamp := (exact_iff (by decide)).mpr (by decide)
  have h_epoch : Exact epoch.timestamp := (exact_iff (by decide)).mpr (by decide)
  have h_late : ¬ Exact ⟨4611686018427387904, 0⟩ := by
    rw [exact_iff (by decide)]
    decide
  exact ⟨by decide, h_before, h_epoch, by decide, h_stored, h_late⟩

end Cantools.Codec
