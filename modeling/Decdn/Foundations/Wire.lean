import Mathlib.Data.List.Basic
import Mathlib.Data.Vector.Basic
import Mathlib.Tactic.Cases

/-!
# Formats read off the front

A format writes values as bytes and reads a value off the front of some bytes.  It is
lawful when a reader gets back what was written, whatever follows, and never makes do
with a part of it.  Lawful formats in a row are lawful.

Main results:

- Theorem `Wire.Lawful.pair`: two formats in a row.
- Theorem `Wire.Lawful.map`: a format for another type.
- Theorem `lawful_byte`, Theorem `lawful_raw`, Theorem `lawful_varint` and
  Theorem `lawful_bytes`: the formats of a byte, of an array, of a number in seven-bit
  groups, and of bytes after their length.
-/

namespace Decdn

/-- A format: how values are written, and read off the front of some bytes. -/
structure Wire (α : Type) where
  put : α → List UInt8
  take : List UInt8 → Option (α × List UInt8)

namespace Wire

variable {α β : Type}

/-- A reader gets back what was written, and refuses a part of it. -/
structure Lawful (w : Wire α) : Prop where
  round_trip : ∀ a rest, w.take (w.put a ++ rest) = some (a, rest)
  whole : ∀ a bytes more, w.put a = bytes ++ more → more ≠ [] → w.take bytes = none

/-- What was written and nothing else. -/
theorem Lawful.take_put {w : Wire α} (h : w.Lawful) (a : α) : w.take (w.put a) = some (a, []) := by
  have hrest := h.round_trip a []
  rwa [List.append_nil] at hrest

/-! ## Formats in a row -/

/-- One format after another. -/
def pair (v : Wire α) (w : Wire β) : Wire (α × β) where
  put p := v.put p.1 ++ w.put p.2
  take bytes :=
    match v.take bytes with
    | some (a, rest) =>
      match w.take rest with
      | some (b, rest) => some ((a, b), rest)
      | none => none
    | none => none

/-- Two lawful formats in a row. -/
theorem Lawful.pair {v : Wire α} {w : Wire β} (hv : v.Lawful) (hw : w.Lawful) :
    (v.pair w).Lawful where
  round_trip p rest := by
    unfold Wire.pair
    dsimp only
    rw [List.append_assoc, hv.round_trip]
    dsimp only
    rw [hw.round_trip]
  whole p bytes more hput hmore := by
    unfold Wire.pair at hput ⊢
    dsimp only at hput ⊢
    -- the cut falls into the second value, or before it
    rcases List.append_eq_append_iff.mp hput with ⟨second, hbytes, hsecond⟩ | ⟨first, hfirst, hrest⟩
    · rw [hbytes, hv.round_trip]
      dsimp only
      rw [hw.whole p.2 second more hsecond hmore]
    · by_cases hnil : first = []
      · rw [hnil, List.append_nil] at hfirst
        rw [hnil, List.nil_append] at hrest
        rw [← hfirst, hv.take_put]
        dsimp only
        rw [hw.whole p.2 [] more hrest.symm hmore]
      · rw [hv.whole p.1 bytes first hfirst hnil]

/-- The same format for another type. -/
def map (w : Wire α) (f : α → β) (g : β → α) : Wire β where
  put b := w.put (g b)
  take bytes := (w.take bytes).map fun p => (f p.1, p.2)

/-- A lawful format for another type. -/
theorem Lawful.map {w : Wire α} (h : w.Lawful) {f : α → β} {g : β → α} (hfg : ∀ b, f (g b) = b) :
    (w.map f g).Lawful where
  round_trip b rest := by
    unfold Wire.map
    dsimp only
    rw [h.round_trip, Option.map_some, hfg]
  whole b bytes more hput hmore := by
    unfold Wire.map
    dsimp only
    rw [h.whole (g b) bytes more hput hmore, Option.map_none]

/-! ## Bytes and arrays -/

/-- One byte. -/
def byte : Wire UInt8 where
  put b := [b]
  take
    | [] => none
    | b :: rest => some (b, rest)

/-- A byte is a lawful format. -/
theorem lawful_byte : byte.Lawful where
  round_trip _ _ := rfl
  whole b bytes more hput hmore := by
    cases bytes with
    | nil => rfl
    | cons b' rest =>
      have hempty := (List.cons.inj hput).2
      exact absurd (List.append_eq_nil_iff.mp hempty.symm).2 hmore

/-- An array of a fixed length. -/
def raw (n : Nat) : Wire (Vector UInt8 n) where
  put v := v.toList
  take bytes :=
    if h : n ≤ bytes.length then
      some (⟨(bytes.take n).toArray, by simp [h]⟩, bytes.drop n)
    else none

/-- An array is a lawful format. -/
theorem lawful_raw (n : Nat) : (raw n).Lawful where
  round_trip v rest := by
    have hlen : v.toList.length = n := Vector.length_toList
    unfold raw
    dsimp only
    rw [dif_pos (by rw [List.length_append]; omega)]
    congr 2
    · apply Vector.toList_inj.mp
      simp [hlen]
    · rw [List.drop_append_of_le_length (by omega), List.drop_eq_nil_of_le (by omega),
        List.nil_append]
  whole v bytes more hput hmore := by
    have hlen : v.toList.length = n := Vector.length_toList
    have hshort := congrArg List.length hput
    have hpos := List.length_pos_iff.mpr hmore
    unfold raw at hshort ⊢
    dsimp only at hshort ⊢
    rw [List.length_append] at hshort
    rw [dif_neg (by omega)]

/-! ## Numbers -/

/-- A number in groups of seven bits, the lowest first, at most `k + 1` of them. -/
def putVarint : Nat → Nat → List UInt8
  | 0, n => [UInt8.ofNat n]
  | k + 1, n =>
    if n < 128 then [UInt8.ofNat n] else UInt8.ofNat (n % 128 + 128) :: putVarint k (n / 128)

/-- Read a number in groups of seven bits. -/
def takeVarint : Nat → List UInt8 → Option (Nat × List UInt8)
  | _, [] => none
  | 0, b :: rest => if b.toNat < 128 then some (b.toNat, rest) else none
  | k + 1, b :: rest =>
    if b.toNat < 128 then some (b.toNat, rest)
    else (takeVarint k rest).map fun p => (b.toNat - 128 + 128 * p.1, p.2)

/-- The reader gets the number back. -/
theorem takeVarint_putVarint {k n : Nat} (hn : n < 128 ^ (k + 1)) (rest : List UInt8) :
    takeVarint k (putVarint k n ++ rest) = some (n, rest) := by
  induction k generalizing n with
  | zero =>
    have hsmall : n < 128 := by simpa using hn
    have hbyte : (UInt8.ofNat n).toNat = n := by
      rw [UInt8.toNat_ofNat']
      omega
    unfold putVarint takeVarint
    rw [List.singleton_append]
    dsimp only
    rw [hbyte, if_pos hsmall]
  | succ k ih =>
    unfold putVarint
    split
    · rename_i hsmall
      have hbyte : (UInt8.ofNat n).toNat = n := by
        rw [UInt8.toNat_ofNat']
        omega
      unfold takeVarint
      rw [List.singleton_append]
      dsimp only
      rw [hbyte, if_pos hsmall]
    · have hbyte : (UInt8.ofNat (n % 128 + 128)).toNat = n % 128 + 128 := by
        rw [UInt8.toNat_ofNat']
        omega
      have hnext : n / 128 < 128 ^ (k + 1) := by
        rw [Nat.div_lt_iff_lt_mul (by decide)]
        exact hn
      unfold takeVarint
      rw [List.cons_append]
      dsimp only
      rw [hbyte, if_neg (by omega), ih hnext, Option.map_some]
      congr 2
      omega

/-- The reader refuses a part of a number. -/
theorem takeVarint_part {k n : Nat} {bytes more : List UInt8}
    (hput : putVarint k n = bytes ++ more) (hmore : more ≠ []) : takeVarint k bytes = none := by
  induction k generalizing n bytes with
  | zero =>
    cases bytes with
    | nil => rfl
    | cons b bytes =>
      have hempty := (List.cons.inj hput).2
      exact absurd (List.append_eq_nil_iff.mp hempty.symm).2 hmore
  | succ k ih =>
    cases bytes with
    | nil => rfl
    | cons b bytes =>
      unfold putVarint at hput
      split at hput
      · have hempty := (List.cons.inj hput).2
        exact absurd (List.append_eq_nil_iff.mp hempty.symm).2 hmore
      · rcases List.cons.inj hput with ⟨hhead, htail⟩
        have hbyte : b.toNat = n % 128 + 128 := by
          rw [← hhead, UInt8.toNat_ofNat']
          omega
        unfold takeVarint
        rw [if_neg (by omega), ih htail, Option.map_none]

/-- Numbers below a bound. -/
def varint (k bound : Nat) : Wire { n : Nat // n < bound } where
  put n := putVarint k n.1
  take bytes :=
    match takeVarint k bytes with
    | some (n, rest) => if h : n < bound then some (⟨n, h⟩, rest) else none
    | none => none

/-- Numbers that fit their groups are a lawful format. -/
theorem lawful_varint {k bound : Nat} (hbound : bound ≤ 128 ^ (k + 1)) :
    (varint k bound).Lawful where
  round_trip n rest := by
    unfold varint
    dsimp only
    rw [takeVarint_putVarint (Nat.lt_of_lt_of_le n.2 hbound)]
    dsimp only
    rw [dif_pos n.2]
  whole n bytes more hput hmore := by
    unfold varint
    dsimp only
    rw [takeVarint_part hput hmore]

/-- A 32-bit word. -/
def word32 : Wire UInt32 :=
  (varint 4 (2 ^ 32)).map (fun n => UInt32.ofNat n.1) fun x => ⟨x.toNat, x.toNat_lt⟩

/-- A 64-bit word. -/
def word64 : Wire UInt64 :=
  (varint 9 (2 ^ 64)).map (fun n => UInt64.ofNat n.1) fun x => ⟨x.toNat, x.toNat_lt⟩

/-- A 32-bit word is a lawful format. -/
theorem lawful_word32 : word32.Lawful :=
  (lawful_varint (by decide)).map fun _ => UInt32.ofNat_toNat

/-- A 64-bit word is a lawful format. -/
theorem lawful_word64 : word64.Lawful :=
  (lawful_varint (by decide)).map fun _ => UInt64.ofNat_toNat

/-! ## Bytes after their length -/

/-- Bytes of which a machine word counts the length. -/
abbrev Blob := { bytes : List UInt8 // bytes.length < 2 ^ 64 }

/-- Bytes after their length. -/
def bytes : Wire Blob where
  put b := (varint 9 (2 ^ 64)).put ⟨b.1.length, b.2⟩ ++ b.1
  take buf :=
    match (varint 9 (2 ^ 64)).take buf with
    | some (n, rest) =>
      if h : n.1 ≤ rest.length then
        some (⟨rest.take n.1, by rw [List.length_take_of_le h]; exact n.2⟩, rest.drop n.1)
      else none
    | none => none

/-- Bytes after their length are a lawful format. -/
theorem lawful_bytes : bytes.Lawful where
  round_trip b rest := by
    unfold Wire.bytes
    dsimp only
    rw [List.append_assoc, (lawful_varint (by decide)).round_trip]
    dsimp only
    rw [dif_pos (by rw [List.length_append]; omega)]
    congr 2
    · apply Subtype.ext
      exact List.take_left
    · exact List.drop_left
  whole b buf more hput hmore := by
    unfold Wire.bytes at hput ⊢
    dsimp only at hput ⊢
    have hlawful : (varint 9 (2 ^ 64)).Lawful := lawful_varint (by decide)
    rcases List.append_eq_append_iff.mp hput with ⟨part, hbuf, hpart⟩ | ⟨first, hfirst, hrest⟩
    · have hshort := congrArg List.length hpart
      have hpos := List.length_pos_iff.mpr hmore
      rw [List.length_append] at hshort
      rw [hbuf, hlawful.round_trip]
      dsimp only
      rw [dif_neg (by omega)]
    · by_cases hnil : first = []
      · rw [hnil, List.append_nil] at hfirst
        rw [hnil, List.nil_append] at hrest
        have hpos := List.length_pos_iff.mpr hmore
        rw [← hfirst, hlawful.take_put]
        dsimp only
        rw [dif_neg (by rw [hrest] at hpos; exact Nat.not_le_of_lt hpos)]
      · rw [hlawful.whole _ buf first hfirst hnil]

end Wire

end Decdn
