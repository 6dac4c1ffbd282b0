import Mathlib.Algebra.Group.Int.Defs
import Cantools.Core.Capture

/-!
# The order of timestamps

`Timestamp` derives its ordering: seconds first, then nanoseconds. The instant a timestamp stands
for is a whole number of nanoseconds, which may be negative. On normalised timestamps, whose
nanoseconds stay below one second, the two orders are the same (`Timestamp.le_iff`); the derived
one also compares timestamps that are not normalised.
-/

namespace Cantools.Timestamp

/-- The derived ordering. -/
instance : LE Timestamp :=
  ⟨fun a b => a.seconds < b.seconds ∨ (a.seconds = b.seconds ∧ a.nanos ≤ b.nanos)⟩

instance (a b : Timestamp) : Decidable (a ≤ b) := inferInstanceAs (Decidable (_ ∨ _))

/-- The instant in nanoseconds. -/
def nanoseconds (t : Timestamp) : ℤ := t.seconds.toInt * 1000000000 + t.nanos.toNat

/-- The nanoseconds stay below one second. -/
def Normalised (t : Timestamp) : Prop := t.nanos.toNat < 1000000000

instance (t : Timestamp) : Decidable t.Normalised := inferInstanceAs (Decidable (_ < _))

/-- The derived ordering, on the numbers. -/
theorem le_iff_lex {a b : Timestamp} : a ≤ b ↔ a.seconds.toInt < b.seconds.toInt ∨
    (a.seconds.toInt = b.seconds.toInt ∧ a.nanos.toNat ≤ b.nanos.toNat) := by
  rw [Int64.toInt_inj, ← Int64.lt_iff_toInt_lt, ← UInt32.le_iff_toNat_le]
  rfl

/-- **Normalised timestamps** are ordered like their instants. -/
theorem le_iff {a b : Timestamp} (h_a : a.Normalised) (h_b : b.Normalised) :
    a ≤ b ↔ a.nanoseconds ≤ b.nanoseconds := by
  unfold Normalised at h_a h_b
  rw [le_iff_lex, nanoseconds, nanoseconds]
  omega

end Cantools.Timestamp
