import Mathlib.Data.List.Lex
import Mathlib.Data.Nat.Log
import Mathlib.Data.Prod.Lex
import Mathlib.Tactic.Ring

/-!
# The keyspace

Node ids and content hashes are points of one 256-bit keyspace, compared byte by
byte.  The distance of two points is their bitwise exclusive or, and a distance
belongs to the bucket of its most significant set bit.

Main results:

- Theorem `bucketIndex_eq_some`: the bucket of a distance is the binary
  logarithm of its value, so each distance has one bucket.
- Theorem `bucketIndex_eq_none`: only the zero distance has no bucket.
- Theorem `xorDistanceBytes_left_injective`: two points at the same distance
  from a target are the same point.
-/

namespace Decdn.Dht

/-! ## Points -/

/-- `NODE_ID_LEN`. -/
def nodeIdLen : Nat := 32

/-- `KEYSPACE_BITS`. -/
def keyspaceBits : Nat := nodeIdLen * 8

/-- `[u8; NODE_ID_LEN]`. -/
structure Point where
  bytes : Vector UInt8 nodeIdLen
  deriving DecidableEq

/-- The bytes of a point, first byte first. -/
def Point.digits (p : Point) : List Nat := p.bytes.toList.map UInt8.toNat

theorem Point.digits_injective : Function.Injective Point.digits := by
  rintro ⟨p⟩ ⟨q⟩ h
  have hlist : p.toList = q.toList :=
    List.map_injective_iff.mpr (fun _ _ => UInt8.toNat_inj.mp) h
  rw [Point.mk.injEq]
  exact Vector.toList_inj.mp hlist

/-- Points are compared byte by byte. -/
instance : LinearOrder Point := LinearOrder.lift' Point.digits Point.digits_injective

@[simp]
theorem Point.length_digits (p : Point) : p.digits.length = nodeIdLen := by
  rw [Point.digits, List.length_map, Vector.length_toList]

/-- The number a list of bytes stands for, most significant byte first. -/
def bigEndian : List Nat → Nat
  | [] => 0
  | byte :: rest => byte * 256 ^ rest.length + bigEndian rest

/-- The number a point stands for. -/
def Point.value (p : Point) : Nat := bigEndian p.digits

/-- A node id. -/
structure NodeId where
  asBytes : Point
  deriving DecidableEq

instance : LinearOrder NodeId :=
  LinearOrder.lift' NodeId.asBytes fun _ _ h => NodeId.mk.injEq _ _ ▸ h

/-- A content hash. -/
structure ContentHash where
  asBytes : Point
  deriving DecidableEq

instance : LinearOrder ContentHash :=
  LinearOrder.lift' ContentHash.asBytes fun _ _ h => ContentHash.mk.injEq _ _ ▸ h

/-! ## Distances -/

/-- `xor_distance_bytes`. -/
def xorDistanceBytes (a b : Point) : Point :=
  ⟨Vector.zipWith (fun x y => x ^^^ y) a.bytes b.bytes⟩

/-- `xor_distance`. -/
def xorDistance (a b : NodeId) : Point := xorDistanceBytes a.asBytes b.asBytes

/-- `u8::leading_zeros`. -/
def leadingZeros (byte : UInt8) : Nat :=
  if byte = 0 then 8 else 7 - byte.toNat.log2

/-- The loop of `bucket_index` over the bytes and their indices. -/
def bucketIndexLoop : List (UInt8 × Nat) → Option Nat
  | [] => none
  | (byte, i) :: rest =>
    if byte ≠ 0 then
      let bitWithin := leadingZeros byte
      let bitFromMsb := i * 8 + bitWithin
      some (keyspaceBits - 1 - bitFromMsb)
    else bucketIndexLoop rest

/-- `bucket_index`. -/
def bucketIndex (d : Point) : Option Nat := bucketIndexLoop d.bytes.toList.zipIdx

/-- Two points at the same distance from a target are the same point. -/
theorem xorDistanceBytes_left_injective {a b target : Point}
    (h : xorDistanceBytes a target = xorDistanceBytes b target) : a = b := by
  rcases a with ⟨a⟩
  rcases b with ⟨b⟩
  rw [xorDistanceBytes, xorDistanceBytes, Point.mk.injEq] at h
  rw [Point.mk.injEq]
  apply Vector.ext
  intro i hi
  have hbyte := congrArg (fun v => v[i]) h
  simp only [Vector.getElem_zipWith] at hbyte
  exact (UInt8.xor_left_inj _).mp hbyte

/-! ## Buckets -/

theorem bigEndian_lt {digits : List Nat} (h : ∀ digit ∈ digits, digit < 256) :
    bigEndian digits < 256 ^ digits.length := by
  induction digits with
  | nil => exact Nat.one_pos
  | cons digit digits ih =>
    have hrest := ih fun d hd => h d (List.mem_cons_of_mem digit hd)
    have hdigit := Nat.mul_le_mul_right (256 ^ digits.length) (h digit List.mem_cons_self)
    rw [bigEndian, List.length_cons, pow_succ]
    calc digit * 256 ^ digits.length + bigEndian digits
        < digit * 256 ^ digits.length + 256 ^ digits.length := Nat.add_lt_add_left hrest _
      _ = (digit + 1) * 256 ^ digits.length := (Nat.succ_mul _ _).symm
      _ ≤ 256 * 256 ^ digits.length := hdigit
      _ = 256 ^ digits.length * 256 := Nat.mul_comm _ _

/-- The most significant bit of a byte that has one. -/
theorem leadingZeros_eq {byte : UInt8} (h : byte ≠ 0) :
    leadingZeros byte ≤ 7 ∧ 2 ^ (7 - leadingZeros byte) ≤ byte.toNat ∧
      byte.toNat < 2 ^ (7 - leadingZeros byte + 1) := by
  have hne : byte.toNat ≠ 0 := fun hzero => h (UInt8.toNat_inj.mp hzero)
  have hlog : byte.toNat.log2 < 8 := (Nat.log2_lt hne).mpr byte.toNat_lt
  unfold leadingZeros
  rw [if_neg h, Nat.sub_sub_self (by omega)]
  exact ⟨Nat.sub_le _ _, Nat.log2_self_le hne, Nat.lt_log2_self⟩

/-- The loop finds the binary logarithm of what it still has to read. -/
theorem bucketIndexLoop_eq {bytes : List UInt8} {i : Nat} (hlen : i + bytes.length = nodeIdLen) :
    match bucketIndexLoop (bytes.zipIdx i) with
    | some k => 2 ^ k ≤ bigEndian (bytes.map UInt8.toNat) ∧
        bigEndian (bytes.map UInt8.toNat) < 2 ^ (k + 1)
    | none => bigEndian (bytes.map UInt8.toNat) = 0 := by
  induction bytes generalizing i with
  | nil => rfl
  | cons byte rest ih =>
    rw [List.length_cons] at hlen
    rw [List.zipIdx_cons, bucketIndexLoop, List.map_cons, bigEndian, List.length_map]
    by_cases hbyte : byte = 0
    · have hrest := ih (i := i + 1) (by omega)
      rw [if_neg (not_not.mpr hbyte), hbyte]
      simpa using hrest
    · rw [if_pos hbyte]
      rcases leadingZeros_eq hbyte with ⟨hzeros, hlow, hhigh⟩
      have hindex : keyspaceBits - 1 - (i * 8 + leadingZeros byte) =
          (7 - leadingZeros byte) + 8 * rest.length := by
        unfold keyspaceBits nodeIdLen at *
        omega
      have hdigits : ∀ digit ∈ rest.map UInt8.toNat, digit < 256 := by
        intro digit hmem
        rcases List.mem_map.mp hmem with ⟨b, -, rfl⟩
        exact b.toNat_lt
      have htail := bigEndian_lt hdigits
      rw [List.length_map] at htail
      have hbase : (256 : Nat) ^ rest.length = 2 ^ (8 * rest.length) := by
        rw [pow_mul]
        norm_num
      dsimp only
      rw [hindex]
      rw [hbase] at htail ⊢
      constructor
      · calc 2 ^ (7 - leadingZeros byte + 8 * rest.length)
            = 2 ^ (7 - leadingZeros byte) * 2 ^ (8 * rest.length) := pow_add _ _ _
          _ ≤ byte.toNat * 2 ^ (8 * rest.length) := Nat.mul_le_mul_right _ hlow
          _ ≤ _ := Nat.le_add_right _ _
      · calc byte.toNat * 2 ^ (8 * rest.length) + bigEndian (rest.map UInt8.toNat)
            < byte.toNat * 2 ^ (8 * rest.length) + 2 ^ (8 * rest.length) :=
              Nat.add_lt_add_left htail _
          _ = (byte.toNat + 1) * 2 ^ (8 * rest.length) := (Nat.succ_mul _ _).symm
          _ ≤ 2 ^ (7 - leadingZeros byte + 1) * 2 ^ (8 * rest.length) :=
              Nat.mul_le_mul_right _ hhigh
          _ = 2 ^ (7 - leadingZeros byte + 8 * rest.length + 1) := by
              rw [← pow_add]
              congr 1
              omega

theorem bucketIndex_spec (d : Point) :
    match bucketIndex d with
    | some k => 2 ^ k ≤ d.value ∧ d.value < 2 ^ (k + 1)
    | none => d.value = 0 := by
  have hlen : 0 + d.bytes.toList.length = nodeIdLen := by
    rw [Nat.zero_add, Vector.length_toList]
  exact bucketIndexLoop_eq hlen

/-- The bucket of a distance holds exactly the distances with the same most significant bit. -/
theorem bucketIndex_eq_some {d : Point} {k : Nat} :
    bucketIndex d = some k ↔ 2 ^ k ≤ d.value ∧ d.value < 2 ^ (k + 1) := by
  have hspec := bucketIndex_spec d
  constructor
  · intro h
    rw [h] at hspec
    exact hspec
  · rintro ⟨hlow, hhigh⟩
    have hne : d.value ≠ 0 := (Nat.lt_of_lt_of_le (Nat.two_pow_pos k) hlow).ne'
    cases hindex : bucketIndex d with
    | none =>
      rw [hindex] at hspec
      exact absurd hspec hne
    | some j =>
      rw [hindex] at hspec
      have hj := (Nat.log2_eq_iff hne).mpr hspec
      have hk := (Nat.log2_eq_iff hne).mpr ⟨hlow, hhigh⟩
      rw [← hj, ← hk]

/-- Only the zero distance has no bucket. -/
theorem bucketIndex_eq_none {d : Point} : bucketIndex d = none ↔ d.value = 0 := by
  have hspec := bucketIndex_spec d
  constructor
  · intro h
    rw [h] at hspec
    exact hspec
  · intro h
    cases hindex : bucketIndex d with
    | none => rfl
    | some k =>
      rw [hindex, h] at hspec
      exact absurd hspec.1 (Nat.not_le.mpr (Nat.two_pow_pos k))

theorem value_lt (d : Point) : d.value < 2 ^ keyspaceBits := by
  have hdigits : ∀ digit ∈ d.digits, digit < 256 := by
    intro digit hmem
    rcases List.mem_map.mp hmem with ⟨b, -, rfl⟩
    exact b.toNat_lt
  have hvalue := bigEndian_lt hdigits
  rw [Point.length_digits] at hvalue
  exact lt_of_lt_of_eq hvalue (by norm_num [nodeIdLen, keyspaceBits])

/-- Every bucket is one of the table's. -/
theorem bucketIndex_lt {d : Point} {k : Nat} (h : bucketIndex d = some k) : k < keyspaceBits := by
  have hlow := (bucketIndex_eq_some.mp h).1
  exact (Nat.pow_lt_pow_iff_right Nat.one_lt_two).mp (lt_of_le_of_lt hlow (value_lt d))

theorem bigEndian_eq_zero {digits : List Nat} (h : bigEndian digits = 0) :
    ∀ digit ∈ digits, digit = 0 := by
  induction digits with
  | nil =>
    intro digit hmem
    cases hmem
  | cons digit digits ih =>
    rw [bigEndian, Nat.add_eq_zero_iff, Nat.mul_eq_zero] at h
    intro d hmem
    rcases List.mem_cons.mp hmem with rfl | hmem
    · rcases h.1 with hzero | hpow
      · exact hzero
      · exact absurd hpow (Nat.pow_pos (by decide)).ne'
    · exact ih h.2 d hmem

/-- Only a point itself is at distance zero. -/
theorem xorDistance_value_eq_zero {a b : NodeId} (h : (xorDistance a b).value = 0) : a = b := by
  rcases a with ⟨⟨a⟩⟩
  rcases b with ⟨⟨b⟩⟩
  have hzero := bigEndian_eq_zero h
  rw [NodeId.mk.injEq, Point.mk.injEq]
  apply Vector.ext
  intro i hi
  have hbyte : a[i] ^^^ b[i] = 0 := by
    apply UInt8.toNat_inj.mp
    apply hzero
    refine List.mem_map.mpr ⟨_, Vector.mem_toList_iff.mpr ?_, rfl⟩
    rw [xorDistance, xorDistanceBytes]
    have hget : (Vector.zipWith (fun x y => x ^^^ y) a b)[i] = a[i] ^^^ b[i] :=
      Vector.getElem_zipWith hi
    rw [← hget]
    exact Vector.getElem_mem hi
  exact UInt8.xor_eq_zero_iff.mp hbyte

end Decdn.Dht
