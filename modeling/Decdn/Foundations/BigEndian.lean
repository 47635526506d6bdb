import Mathlib.Data.List.Induction
import Mathlib.Data.Vector.Basic
import Mathlib.Tactic.Cases
import Mathlib.Tactic.Ring

/-!
# Big-endian bytes

Words of whole bytes, written with the highest byte first.

Main results:

- Theorem `fromBeBytes_toBeBytes` and Theorem `toBeBytes_fromBeBytes`: words and arrays
  of bytes correspond.
-/

namespace Decdn

/-- The lowest `n` bytes of a number, the highest first. -/
def toBigEndian : Nat → Nat → List UInt8
  | 0, _ => []
  | n + 1, x => toBigEndian n (x / 256) ++ [UInt8.ofNat (x % 256)]

/-- The number that bytes write, the highest first. -/
def ofBigEndian (bytes : List UInt8) : Nat := bytes.foldl (fun x b => 256 * x + b.toNat) 0

@[simp]
theorem length_toBigEndian (n x : Nat) : (toBigEndian n x).length = n := by
  induction n generalizing x with
  | zero => rfl
  | succ n ih => rw [toBigEndian, List.length_append, ih, List.length_singleton]

theorem ofBigEndian_append (bytes : List UInt8) (b : UInt8) :
    ofBigEndian (bytes ++ [b]) = 256 * ofBigEndian bytes + b.toNat := by
  unfold ofBigEndian
  rw [List.foldl_append, List.foldl_cons, List.foldl_nil]

/-- The bytes of two numbers in a row. -/
theorem ofBigEndian_concat (high low : List UInt8) :
    ofBigEndian (high ++ low) = ofBigEndian high * 256 ^ low.length + ofBigEndian low := by
  induction low using List.reverseRecOn with
  | nil => simp [ofBigEndian]
  | append_singleton low b ih =>
    rw [← List.append_assoc, ofBigEndian_append, ih, ofBigEndian_append, List.length_append,
      List.length_singleton, Nat.pow_succ]
    ring

/-- The bytes of a number write its lowest bytes. -/
theorem ofBigEndian_toBigEndian (n x : Nat) : ofBigEndian (toBigEndian n x) = x % 256 ^ n := by
  induction n generalizing x with
  | zero => rw [Nat.pow_zero, Nat.mod_one]; rfl
  | succ n ih =>
    have hbyte : (UInt8.ofNat (x % 256)).toNat = x % 256 := by
      rw [UInt8.toNat_ofNat']
      omega
    rw [toBigEndian, ofBigEndian_append, ih, hbyte, Nat.pow_succ', Nat.mod_mul, Nat.add_comm]

/-- The bytes of the number that bytes write. -/
theorem toBigEndian_ofBigEndian (bytes : List UInt8) :
    toBigEndian bytes.length (ofBigEndian bytes) = bytes := by
  induction bytes using List.reverseRecOn with
  | nil => rfl
  | append_singleton bytes b ih =>
    have hlt := b.toNat_lt
    have hhigh : (256 * ofBigEndian bytes + b.toNat) / 256 = ofBigEndian bytes := by omega
    have hlow : (256 * ofBigEndian bytes + b.toNat) % 256 = b.toNat := by omega
    rw [List.length_append, List.length_singleton, ofBigEndian_append, toBigEndian, hhigh, hlow, ih,
      UInt8.ofNat_toNat]

theorem ofBigEndian_lt (bytes : List UInt8) : ofBigEndian bytes < 256 ^ bytes.length := by
  induction bytes using List.reverseRecOn with
  | nil => exact Nat.one_pos
  | append_singleton bytes b ih =>
    have hlt := b.toNat_lt
    rw [ofBigEndian_append, List.length_append, List.length_singleton, Nat.pow_succ']
    omega

/-! ## Words -/

variable {n : Nat}

/-- `to_be_bytes`. -/
def toBeBytes (x : BitVec (8 * n)) : Vector UInt8 n :=
  ⟨(toBigEndian n x.toNat).toArray, by simp⟩

/-- `from_be_bytes`. -/
def fromBeBytes (bytes : Vector UInt8 n) : BitVec (8 * n) :=
  BitVec.ofNat (8 * n) (ofBigEndian bytes.toList)

/-- A word is read back from its bytes. -/
@[simp]
theorem fromBeBytes_toBeBytes (x : BitVec (8 * n)) : fromBeBytes (toBeBytes x) = x := by
  have hpow : 256 ^ n = 2 ^ (8 * n) := by rw [Nat.pow_mul]
  have hlist : (toBeBytes x).toList = toBigEndian n x.toNat := rfl
  unfold fromBeBytes
  apply BitVec.eq_of_toNat_eq
  rw [hlist, BitVec.toNat_ofNat, ofBigEndian_toBigEndian, hpow, Nat.mod_mod,
    Nat.mod_eq_of_lt x.isLt]

/-- Bytes are those of the word they write. -/
@[simp]
theorem toBeBytes_fromBeBytes (bytes : Vector UInt8 n) : toBeBytes (fromBeBytes bytes) = bytes := by
  have hlen : bytes.toList.length = n := Vector.length_toList
  have hlt := ofBigEndian_lt bytes.toList
  have hpow : 256 ^ n = 2 ^ (8 * n) := by rw [Nat.pow_mul]
  apply Vector.toList_inj.mp
  change toBigEndian n (fromBeBytes bytes).toNat = bytes.toList
  unfold fromBeBytes
  rw [BitVec.toNat_ofNat, Nat.mod_eq_of_lt (by rw [hlen, hpow] at hlt; exact hlt)]
  have hback := toBigEndian_ofBigEndian bytes.toList
  rwa [hlen] at hback

end Decdn
