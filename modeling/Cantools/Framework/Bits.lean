import Mathlib.Data.Nat.Bitwise

/-!
# Fields packed into a machine word

Words that carry several fields are built with `|||` and taken apart with `&&&` and `>>>`.

* Nibbles of a byte: a tag whose low nibble is clear and a value below `16` make up the byte
  `tag + value` (`toNat_tag_or`), and both halves are read back by arithmetic.
* Flags of a 32-bit word: a value that lies under a mask and flag bits outside the mask do not
  disturb each other (`or_and_mask`, `or_and_flag`).
-/

namespace Bits

/-! ### Nibbles -/

theorem toNat_and_15 (x : UInt8) : (x &&& 0x0f).toNat = x.toNat % 16 := by
  rw [UInt8.toNat_and]
  exact Nat.and_two_pow_sub_one_eq_mod x.toNat 4

theorem toNat_shiftRight_4 (x : UInt8) : (x >>> 4).toNat = x.toNat / 16 := by
  rw [UInt8.toNat_shiftRight]
  exact Nat.shiftRight_eq_div_pow x.toNat 4

/-- A tag in the high nibble and a value in the low one. -/
theorem toNat_tag_or {tag x : UInt8} (h_tag : tag.toNat % 16 = 0) (h_x : x.toNat < 16) :
    (tag ||| x).toNat = tag.toNat + x.toNat := by
  have h_high : tag.toNat = 2 ^ 4 * (tag.toNat / 16) := by omega
  rw [UInt8.toNat_or, h_high]
  exact (Nat.two_pow_add_eq_or_of_lt (i := 4) h_x (tag.toNat / 16)).symm

theorem toNat_min (x y : UInt8) : (min x y).toNat = min x.toNat y.toNat := by
  show (if x ≤ y then x else y).toNat = _
  split
  · next h => rw [Nat.min_eq_left (UInt8.le_iff_toNat_le.mp h)]
  · next h =>
    have h_lt := UInt8.not_le.mp h
    rw [Nat.min_eq_right (Nat.le_of_lt (UInt8.lt_iff_toNat_lt.mp h_lt))]

/-! ### Flags -/

theorem and_or_distrib_right (x y z : UInt32) : (x ||| y) &&& z = (x &&& z) ||| (y &&& z) := by
  apply UInt32.toBitVec_inj.mp
  simp only [UInt32.toBitVec_and, UInt32.toBitVec_or]
  exact BitVec.and_or_distrib_right

/-- Flag bits outside the mask do not show under it. -/
theorem or_and_mask {x flags mask : UInt32} (h_x : x &&& mask = x) (h_flags : flags &&& mask = 0) :
    (x ||| flags) &&& mask = x := by
  rw [and_or_distrib_right, h_x, h_flags, UInt32.or_zero]

/-- A value under the mask does not show in a flag outside it. -/
theorem or_and_flag {x flags mask flag : UInt32} (h_x : x &&& mask = x)
    (h_flag : mask &&& flag = 0) : (x ||| flags) &&& flag = flags &&& flag := by
  rw [and_or_distrib_right, ← h_x, UInt32.and_assoc, h_flag, UInt32.and_zero, UInt32.zero_or]

/-- A value below a power of two lies under the mask of the bits below it. -/
theorem and_mask_of_le {x mask : UInt32} {n : ℕ} (h_mask : mask.toNat = 2 ^ n - 1)
    (h : x ≤ mask) : x &&& mask = x := by
  have h_le := UInt32.le_iff_toNat_le.mp h
  have h_pos : 0 < 2 ^ n := Nat.two_pow_pos n
  apply UInt32.toNat_inj.mp
  rw [UInt32.toNat_and, h_mask, Nat.and_two_pow_sub_one_eq_mod]
  exact Nat.mod_eq_of_lt (by omega)

/-- What lies under a mask is at most the mask. -/
theorem and_mask_le (x mask : UInt32) : x &&& mask ≤ mask := by
  rw [UInt32.le_iff_toNat_le, UInt32.toNat_and]
  exact Nat.and_le_right

end Bits
