import Cantools.Core.Frame
import Cantools.Framework.BitField

/-!
# J1939 identifiers

`J1939Id::from_can_id` takes a 29-bit identifier apart. From the top it has three bits of priority,
two data-page bits, the PDU format, the PDU-specific byte and the source address. The parameter
group number is made of the data pages, the format and the PDU-specific byte; where the format is
below 240 (PDU1), the PDU-specific byte is the destination address instead, and the low byte of the
number is clear.

`fromCanId_fields` says which bits of the identifier each part is. `J1939Id.toRaw` puts the parts
back together, and `fromCanId_losesNothing` says that this gives the identifier.
-/

namespace Cantools.J1939

open BitField

/-- J1939 parsing errors. -/
inductive J1939Error where
  /-- Only 29-bit identifiers are valid J1939 identifiers. -/
  | requiresExtendedId
  deriving DecidableEq, Repr

/-- J1939 parameter group number. -/
structure Pgn where
  value : UInt32
  deriving DecidableEq, Repr

/-- Decoded J1939 identifier. -/
structure J1939Id where
  priority : UInt8
  pgn : Pgn
  sourceAddress : UInt8
  /-- Destination address when using PDU1. -/
  destinationAddress : Option UInt8
  deriving DecidableEq, Repr

/-- Decode a 29-bit J1939 identifier. -/
def J1939Id.fromCanId (id : CanId) : Except J1939Error J1939Id :=
  if !id.isExtended then
    .error .requiresExtendedId
  else
    let raw := id.raw
    let priority := ((raw >>> 26) &&& 0x07).toUInt8
    let pf := ((raw >>> 16) &&& 0xff).toUInt8
    let ps := ((raw >>> 8) &&& 0xff).toUInt8
    let sourceAddress := (raw &&& 0xff).toUInt8
    let destinationAddress := if pf < 240 then some ps else none
    let pgn := if pf < 240 then (raw >>> 8) &&& 0x03ff00 else (raw >>> 8) &&& 0x03ffff
    .ok { priority, pgn := ⟨pgn⟩, sourceAddress, destinationAddress }

/-! ### The parts of an identifier -/

/-- The PDU format of a parameter group number, its bits 8 to 15. -/
def Pgn.format (pgn : Pgn) : ℕ := field pgn.value.toNat 8 8

/-- The identifier that the parts make up. -/
def J1939Id.toRaw (decoded : J1939Id) : ℕ :=
  2 ^ 26 * decoded.priority.toNat +
    2 ^ 8 * (decoded.pgn.value.toNat + (decoded.destinationAddress.getD 0).toNat) +
    decoded.sourceAddress.toNat

/-- The parts of an identifier as fields of its raw value. -/
structure Fields (raw : ℕ) (decoded : J1939Id) : Prop where
  priority : decoded.priority.toNat = field raw 26 3
  source : decoded.sourceAddress.toNat = field raw 0 8
  /-- PDU1 -/
  peer : field raw 16 8 < 240 → decoded.pgn.value.toNat = field raw 16 10 <<< 8 ∧
    ∃ destination : UInt8, decoded.destinationAddress = some destination ∧
      destination.toNat = field raw 8 8
  /-- PDU2 -/
  broadcast : 240 ≤ field raw 16 8 →
    decoded.pgn.value.toNat = field raw 8 18 ∧ decoded.destinationAddress = none

/-- **The decoder**, as bits of the identifier. -/
theorem fromCanId_fields {id : CanId} (h : id.isExtended = true) :
    ∃ decoded, J1939Id.fromCanId id = .ok decoded ∧ Fields id.raw.toNat decoded := by
  -- every shift with its mask is a field of the identifier
  have h_priority : ((id.raw >>> 26) &&& 0x07).toUInt8.toNat = field id.raw.toNat 26 3 :=
    toNat_toUInt8 (toNat_shiftRight_and_ones (by decide) rfl) (by decide)
  have h_pf : ((id.raw >>> 16) &&& 0xff).toUInt8.toNat = field id.raw.toNat 16 8 :=
    toNat_toUInt8 (toNat_shiftRight_and_ones (by decide) rfl) (by decide)
  have h_ps : ((id.raw >>> 8) &&& 0xff).toUInt8.toNat = field id.raw.toNat 8 8 :=
    toNat_toUInt8 (toNat_shiftRight_and_ones (by decide) rfl) (by decide)
  have h_source : (id.raw &&& 0xff).toUInt8.toNat = field id.raw.toNat 0 8 :=
    toNat_toUInt8 (toNat_and_ones rfl) (by decide)
  have h_pdu1 : ((id.raw >>> 8) &&& 0x03ff00).toNat = field id.raw.toNat 16 10 <<< 8 :=
    @toNat_shiftRight_and_mask id.raw 8 0x03ff00 8 10 (by decide) rfl
  have h_pdu2 : ((id.raw >>> 8) &&& 0x03ffff).toNat = field id.raw.toNat 8 18 :=
    toNat_shiftRight_and_ones (by decide) rfl
  -- the format byte decides between the two kinds
  have h_format : ((id.raw >>> 16) &&& 0xff).toUInt8 < 240 ↔ field id.raw.toNat 16 8 < 240 := by
    rw [UInt8.lt_iff_toNat_lt, h_pf]
    rfl
  refine ⟨_, by rw [J1939Id.fromCanId, h]; rfl, h_priority, h_source, fun h_lt => ?_,
    fun h_ge => ?_⟩
  · rw [if_pos (h_format.mpr h_lt), if_pos (h_format.mpr h_lt)]
    exact ⟨h_pdu1, _, rfl, h_ps⟩
  · have h_not := mt h_format.mp (Nat.not_lt.mpr h_ge)
    rw [if_neg h_not, if_neg h_not]
    exact ⟨h_pdu2, rfl⟩

/-- The parts are in range, and nothing of the raw value is lost in them. -/
structure DecodesFully (raw : ℕ) (decoded : J1939Id) : Prop where
  priority_le : decoded.priority.toNat ≤ 7
  pgn_lt : decoded.pgn.value.toNat < 2 ^ 18
  destination_iff : decoded.destinationAddress.isSome = true ↔ decoded.pgn.format < 240
  low_zero : decoded.destinationAddress.isSome = true → decoded.pgn.value.toNat % 2 ^ 8 = 0
  raw_eq : raw = decoded.toRaw

/-- Five fields that meet make up the whole identifier. -/
theorem fields_join {raw : ℕ} (h : raw < 2 ^ 29) :
    raw = 2 ^ 26 * field raw 26 3 + 2 ^ 16 * field raw 16 10 + 2 ^ 8 * field raw 8 8 +
      field raw 0 8 := by
  have h_low : field raw 0 29 = field raw 0 8 + 2 ^ 8 * field raw 8 21 :=
    field_add raw 0 8 21
  have h_specific : field raw 8 21 = field raw 8 8 + 2 ^ 8 * field raw 16 13 :=
    field_add raw 8 8 13
  have h_group : field raw 16 13 = field raw 16 10 + 2 ^ 10 * field raw 26 3 :=
    field_add raw 16 10 3
  rw [field_of_lt h] at h_low
  omega

theorem Fields.decodesFully {raw : ℕ} {decoded : J1939Id} (h : Fields raw decoded)
    (h_raw : raw < 2 ^ 29) : DecodesFully raw decoded := by
  -- the identifier is the sum of its fields, each in its place
  have h_join := fields_join h_raw
  have h_priority := field_lt raw 26 3
  rw [← h.priority] at h_priority
  by_cases h_lt : field raw 16 8 < 240
  · -- PDU1: the low byte of the number is the place of the destination
    obtain ⟨h_pgn, destination, h_some, h_destination⟩ := h.peer h_lt
    have h_format : decoded.pgn.format = field raw 16 8 := by
      rw [Pgn.format, h_pgn, field_shiftLeft, field_field (by decide)]
    have h_group := field_lt raw 16 10
    rw [Nat.shiftLeft_eq] at h_pgn
    refine ⟨by omega, by omega, ?_, fun _ => by omega, ?_⟩
    · rw [h_some, h_format]
      exact ⟨fun _ => h_lt, fun _ => rfl⟩
    · rw [J1939Id.toRaw, h_some, Option.getD_some, h.priority, h.source, h_pgn, h_destination]
      omega
  · -- PDU2: the number keeps the whole of the two bytes
    obtain ⟨h_pgn, h_none⟩ := h.broadcast (Nat.not_lt.mp h_lt)
    have h_format : decoded.pgn.format = field raw 16 8 := by
      rw [Pgn.format, h_pgn, field_field (by decide)]
    have h_group := field_lt raw 8 18
    have h_split : field raw 8 18 = field raw 8 8 + 2 ^ 8 * field raw 16 10 :=
      field_add raw 8 8 10
    refine ⟨by omega, by omega, ?_, ?_, ?_⟩
    · rw [h_none, h_format]
      exact ⟨nofun, fun h_format => absurd h_format h_lt⟩
    · rw [h_none]
      exact nofun
    · rw [J1939Id.toRaw, h_none, Option.getD_none, h.priority, h.source, h_pgn, UInt8.toNat_zero]
      omega

/-- **Nothing is lost** in decoding an extended identifier, and two of them are not decoded
alike. -/
theorem fromCanId_losesNothing (id : CanId) (h : id.isExtended = true) :
    (∃ decoded, J1939Id.fromCanId id = .ok decoded ∧ DecodesFully id.raw.toNat decoded) ∧
      ∀ other : CanId, other.isExtended = true →
        J1939Id.fromCanId other = J1939Id.fromCanId id → other = id := by
  obtain ⟨decoded, h_decoded, h_fields⟩ := fromCanId_fields h
  refine ⟨⟨decoded, h_decoded, h_fields.decodesFully id.toNat_raw_lt⟩,
    fun other h_other h_same => ?_⟩
  obtain ⟨decoded', h_decoded', h_fields'⟩ := fromCanId_fields h_other
  obtain rfl : decoded' = decoded :=
    Except.ok.inj (h_decoded'.symm.trans (h_same.trans h_decoded))
  refine CanId.ext (UInt32.toNat_inj.mp ?_) (h_other.trans h.symm)
  calc other.raw.toNat
      = decoded'.toRaw := (h_fields'.decodesFully other.toNat_raw_lt).raw_eq
    _ = id.raw.toNat := (h_fields.decodesFully id.toNat_raw_lt).raw_eq.symm

/-- A request to the address `0x21`, which is a PDU1 identifier. -/
theorem fromCanId_losesNothing_request :
    let id : CanId := ⟨0x18ea2110, true, by decide⟩
    let decoded : J1939Id := ⟨6, ⟨0xea00⟩, 0x10, some 0x21⟩
    J1939Id.fromCanId id = .ok decoded ∧ DecodesFully id.raw.toNat decoded ∧
      ∀ other : CanId, other.isExtended = true →
        J1939Id.fromCanId other = J1939Id.fromCanId id → other = id := by
  intro id decoded
  have h_decoded : J1939Id.fromCanId id = .ok decoded := by decide
  obtain ⟨⟨decoded', h_decoded', h_fully⟩, h_apart⟩ := fromCanId_losesNothing id rfl
  obtain rfl : decoded' = decoded := Except.ok.inj (h_decoded'.symm.trans h_decoded)
  exact ⟨h_decoded, h_fully, h_apart⟩

end Cantools.J1939
