import Mathlib.Algebra.Group.Nat.Defs
import Cantools.Framework.Program

/-!
# Machine arithmetic with and without overflow checks

A build with overflow checks panics where an operation leaves its type, and a build without
them wraps. Every operation takes the kind of build as a parameter, so that a statement about
`checks` is one about both.

Words are natural numbers below `2 ^ 64` where they are positions and lengths, and `UInt64` or
`Int64` where they are bit patterns.
-/

namespace Machine

open Program

variable {ε : Type}

/-- `a + b` on `usize`. -/
def add (checks : Bool) (a b : ℕ) : Run ε ℕ :=
  if a + b < 2 ^ 64 then .ok (a + b)
  else if checks then .error .panic
  else .ok ((a + b) % 2 ^ 64)

/-- `a * b` on `u64`. -/
def mul (checks : Bool) (a b : ℕ) : Run ε ℕ :=
  if a * b < 2 ^ 64 then .ok (a * b)
  else if checks then .error .panic
  else .ok (a * b % 2 ^ 64)

/-- `a - b` on `u32`. -/
def subU32 (checks : Bool) (a b : ℕ) : Run ε ℕ :=
  if b ≤ a then .ok (a - b)
  else if checks then .error .panic
  else .ok (a + 2 ^ 32 - b)

/-- `x << n` on `u64`. -/
def shl (checks : Bool) (x : UInt64) (n : ℕ) : Run ε UInt64 :=
  if checks && 64 ≤ n then .error .panic else .ok (x <<< (n % 64).toUInt64)

/-- `x >> n` on `i64`. -/
def sar (checks : Bool) (x : Int64) (n : ℕ) : Run ε Int64 :=
  if checks && 64 ≤ n then .error .panic else .ok (x >>> (n % 64).toUInt64.toInt64)

/-- `a.saturating_sub(b)` on `u8`; it is the same in both builds. -/
def saturatingSub (a b : UInt8) : UInt8 := if b ≤ a then a - b else 0

/-! ### What the operations return -/

theorem add_of_lt {checks : Bool} {a b : ℕ} (h : a + b < 2 ^ 64) :
    (add checks a b : Run ε ℕ) = .ok (a + b) := if_pos h

theorem add_checked_of_le {a b : ℕ} (h : 2 ^ 64 ≤ a + b) :
    (add true a b : Run ε ℕ) = .error .panic := by
  rw [add, if_neg (Nat.not_lt.mpr h), if_pos rfl]

theorem add_unchecked (a b : ℕ) : (add false a b : Run ε ℕ) = .ok ((a + b) % 2 ^ 64) := by
  unfold add
  split
  · next h => rw [Nat.mod_eq_of_lt h]
  · rfl

theorem mul_of_lt {checks : Bool} {a b : ℕ} (h : a * b < 2 ^ 64) :
    (mul checks a b : Run ε ℕ) = .ok (a * b) := if_pos h

theorem mul_checked_of_le {a b : ℕ} (h : 2 ^ 64 ≤ a * b) :
    (mul true a b : Run ε ℕ) = .error .panic := by
  rw [mul, if_neg (Nat.not_lt.mpr h), if_pos rfl]

theorem mul_unchecked (a b : ℕ) : (mul false a b : Run ε ℕ) = .ok (a * b % 2 ^ 64) := by
  unfold mul
  split
  · next h => rw [Nat.mod_eq_of_lt h]
  · rfl

theorem shl_of_lt {checks : Bool} (x : UInt64) {n : ℕ} (h : n < 64) :
    (shl checks x n : Run ε UInt64) = .ok (x <<< (n % 64).toUInt64) := by
  rw [shl, if_neg]
  simp [Nat.not_le.mpr h]

theorem shl_checked_of_le (x : UInt64) {n : ℕ} (h : 64 ≤ n) :
    (shl true x n : Run ε UInt64) = .error .panic := by
  rw [shl, if_pos]
  simp [h]

theorem toNat_saturatingSub (a b : UInt8) : (saturatingSub a b).toNat = a.toNat - b.toNat := by
  unfold saturatingSub
  split
  · next h => exact UInt8.toNat_sub_of_le a b h
  · next h =>
    have h_lt : a.toNat < b.toNat := UInt8.lt_iff_toNat_lt.mp (UInt8.not_le.mp h)
    exact (Nat.sub_eq_zero_of_le (Nat.le_of_lt h_lt)).symm

/-- A shift fails by a panic only. -/
theorem shl_error {checks : Bool} {x : UInt64} {n : ℕ} {fault : Fault ε}
    (h : (shl checks x n : Run ε UInt64) = .error fault) : fault = .panic := by
  unfold shl at h
  split at h
  · exact (Except.error.inj h).symm
  · cases h

/-! ### The two builds -/

/-- `x` is `y` with overflow checks: they end alike, unless `x` panics. -/
def Checked {α : Type} (x y : Run ε α) : Prop := x = .error .panic ∨ x = y

namespace Checked

variable {α β : Type} {x y : Run ε α}

theorem refl (x : Run ε α) : Checked x x := .inr rfl

theorem add (a b : ℕ) : Checked (Machine.add true a b : Run ε ℕ) (Machine.add false a b) := by
  rcases Nat.lt_or_ge (a + b) (2 ^ 64) with h_lt | h_ge
  · exact .inr (by rw [add_of_lt h_lt, add_of_lt h_lt])
  · exact .inl (add_checked_of_le h_ge)

theorem subU32 (a b : ℕ) :
    Checked (Machine.subU32 true a b : Run ε ℕ) (Machine.subU32 false a b) := by
  unfold Machine.subU32
  by_cases h_le : b ≤ a
  · exact .inr (by rw [if_pos h_le, if_pos h_le])
  · exact .inl (by rw [if_neg h_le, if_pos rfl])

theorem shl (x : UInt64) (n : ℕ) :
    Checked (Machine.shl true x n : Run ε UInt64) (Machine.shl false x n) := by
  rcases Nat.lt_or_ge n 64 with h_lt | h_ge
  · exact .inr (by rw [shl_of_lt x h_lt, shl_of_lt x h_lt])
  · exact .inl (shl_checked_of_le x h_ge)

theorem sar (x : Int64) (n : ℕ) :
    Checked (Machine.sar true x n : Run ε Int64) (Machine.sar false x n) := by
  unfold Machine.sar
  rcases Nat.lt_or_ge n 64 with h_lt | h_ge
  · exact .inr (by simp [Nat.not_le.mpr h_lt])
  · exact .inl (by simp [h_ge])

/-- **Sequences.** -/
theorem bind {f g : α → Run ε β} (h : Checked x y) (h_next : ∀ a, Checked (f a) (g a)) :
    Checked (x >>= f) (y >>= g) := by
  -- a panic of the first step is one of the sequence; otherwise both go on with the same value
  rcases h with rfl | rfl
  · exact .inl rfl
  · cases x with
    | error fault => exact .inr rfl
    | ok a => exact h_next a

/-- A caller that looks at the result panics where the call does. -/
theorem result {ε' : Type} (h : Checked x y) :
    Checked (Program.result x : Run ε' (Except ε α)) (Program.result y) := by
  rcases h with rfl | rfl
  · exact .inl rfl
  · exact .refl _

/-- What is returned with the checks is returned without them. -/
theorem ok (h : Checked x y) {a : α} (h_ok : x = .ok a) : y = .ok a := by
  rcases h with rfl | rfl
  · cases h_ok
  · exact h_ok

end Checked

end Machine
