import Mathlib.Data.List.Basic
import Mathlib.Tactic.Ring

/-!
# Little-endian integers

An unsigned integer of `w` bytes is laid out least significant byte first. The layout is
defined on natural numbers (`bytes`, `value`), where reading inverts writing up to the width
(`value_bytes`), and the fixed-width integers use it at their width. In memory an integer has the
byte order of the machine (`ByteOrder`).
-/

namespace LittleEndian

/-- The `w` low bytes of `n`, least significant first. -/
def bytes : ℕ → ℕ → List UInt8
  | 0, _ => []
  | w + 1, n => n.toUInt8 :: bytes w (n / 256)

/-- The number whose bytes these are. -/
def value : List UInt8 → ℕ
  | [] => 0
  | b :: bs => b.toNat + 256 * value bs

@[simp] theorem length_bytes (w n : ℕ) : (bytes w n).length = w := by
  induction w generalizing n with
  | zero => rfl
  | succ w ih => exact congrArg Nat.succ (ih _)

/-- **Round trip.** What is read back is the number, cut to the width. -/
theorem value_bytes (w n : ℕ) : value (bytes w n) = n % 256 ^ w := by
  induction w generalizing n with
  | zero => rw [pow_zero, Nat.mod_one]; rfl
  | succ w ih =>
    calc value (bytes (w + 1) n)
        = n % 256 + 256 * (n / 256 % 256 ^ w) := by
          rw [bytes, value, ih, Nat.toUInt8_eq, UInt8.toNat_ofNat']
      _ = n % (256 * 256 ^ w) := (Nat.mod_mul ..).symm
      _ = n % 256 ^ (w + 1) := by rw [pow_succ']

theorem value_bytes_of_lt {w n : ℕ} (h : n < 256 ^ w) : value (bytes w n) = n := by
  rw [value_bytes, Nat.mod_eq_of_lt h]

/-! ### Fixed-width integers -/

/-- `u16::to_le_bytes` -/
def ofU16 (x : UInt16) : List UInt8 := bytes 2 x.toNat

/-- `u32::to_le_bytes` -/
def ofU32 (x : UInt32) : List UInt8 := bytes 4 x.toNat

/-- `u64::to_le_bytes` -/
def ofU64 (x : UInt64) : List UInt8 := bytes 8 x.toNat

/-- `u16::from_le_bytes` -/
def toU16 (bs : List UInt8) : UInt16 := (value bs).toUInt16

/-- `u32::from_le_bytes` -/
def toU32 (bs : List UInt8) : UInt32 := (value bs).toUInt32

/-- `u64::from_le_bytes` -/
def toU64 (bs : List UInt8) : UInt64 := (value bs).toUInt64

@[simp] theorem length_ofU16 (x : UInt16) : (ofU16 x).length = 2 := length_bytes ..

@[simp] theorem length_ofU32 (x : UInt32) : (ofU32 x).length = 4 := length_bytes ..

@[simp] theorem length_ofU64 (x : UInt64) : (ofU64 x).length = 8 := length_bytes ..

@[simp] theorem toU16_ofU16 (x : UInt16) : toU16 (ofU16 x) = x := by
  rw [toU16, ofU16, value_bytes_of_lt (UInt16.toNat_lt x)]
  exact UInt16.ofNat_toNat

@[simp] theorem toU32_ofU32 (x : UInt32) : toU32 (ofU32 x) = x := by
  rw [toU32, ofU32, value_bytes_of_lt (UInt32.toNat_lt x)]
  exact UInt32.ofNat_toNat

@[simp] theorem toU64_ofU64 (x : UInt64) : toU64 (ofU64 x) = x := by
  rw [toU64, ofU64, value_bytes_of_lt (UInt64.toNat_lt x)]
  exact UInt64.ofNat_toNat

/-! ### Native integers -/

/-- The byte order of a machine. -/
inductive ByteOrder where
  | little
  | big
  deriving DecidableEq, Repr

/-- `u32::to_ne_bytes` -/
def ByteOrder.ofU32 (order : ByteOrder) (x : UInt32) : List UInt8 :=
  match order with
  | .little => LittleEndian.ofU32 x
  | .big => (LittleEndian.ofU32 x).reverse

/-- `u32::from_ne_bytes` -/
def ByteOrder.toU32 (order : ByteOrder) (bs : List UInt8) : UInt32 :=
  match order with
  | .little => LittleEndian.toU32 bs
  | .big => LittleEndian.toU32 bs.reverse

@[simp] theorem ByteOrder.length_ofU32 (order : ByteOrder) (x : UInt32) :
    (order.ofU32 x).length = 4 := by
  cases order <;> simp [ByteOrder.ofU32]

@[simp] theorem ByteOrder.toU32_ofU32 (order : ByteOrder) (x : UInt32) :
    order.toU32 (order.ofU32 x) = x := by
  cases order <;> simp [ByteOrder.ofU32, ByteOrder.toU32]

end LittleEndian
