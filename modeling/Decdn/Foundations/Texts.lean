import Mathlib.Data.List.Basic

/-!
# Texts and their bytes

A text is a list of characters, and its bytes are its UTF-8 encoding.  A scanner that
works on bytes and only lets ASCII through reads characters all the same: a byte below
128 is a whole character.

Main results:

- Theorem `bytes_eq_cons`: an ASCII byte at the front of a text is its first character.
- Theorem `fromUtf8_eq_some`: decoding is the inverse of `bytes`.
- Theorems `splitOnce_eq_some`, `splitOnce_eq_none`: the first separator of a list.
- Theorem `lowercase_hex`: a text of hexadecimal digits, in lowercase, is that of its bytes.
-/

namespace Decdn

/-! ## Splitting at the first separator -/

section Split

variable {α : Type*} [DecidableEq α]

/-- What stands before and after the first `sep`. -/
def splitOnce (sep : α) : List α → Option (List α × List α)
  | [] => none
  | x :: xs =>
    if x = sep then some ([], xs)
    else (splitOnce sep xs).map fun parts => (x :: parts.1, parts.2)

theorem splitOnce_append {sep : α} {before : List α} (h : sep ∉ before) (after : List α) :
    splitOnce sep (before ++ sep :: after) = some (before, after) := by
  induction before with
  | nil => simp [splitOnce]
  | cons x before ih =>
    rw [List.mem_cons, not_or] at h
    rw [List.cons_append, splitOnce, if_neg (Ne.symm h.1), ih h.2]
    rfl

theorem splitOnce_eq_none {sep : α} {xs : List α} : splitOnce sep xs = none ↔ sep ∉ xs := by
  induction xs with
  | nil => simp [splitOnce]
  | cons x xs ih =>
    rw [splitOnce, List.mem_cons, not_or, ← ih]
    split
    · rename_i hx
      simp [hx]
    · rename_i hx
      simp [Option.map_eq_none_iff, Ne.symm hx]

theorem splitOnce_eq_some {sep : α} {xs before after : List α} :
    splitOnce sep xs = some (before, after) ↔ xs = before ++ sep :: after ∧ sep ∉ before := by
  constructor
  · intro h
    induction xs generalizing before with
    | nil => cases h
    | cons x xs ih =>
      rw [splitOnce] at h
      split at h
      · rename_i hx
        rcases Prod.mk.inj (Option.some.inj h) with ⟨rfl, rfl⟩
        exact ⟨by rw [hx]; rfl, List.not_mem_nil⟩
      · rename_i hx
        rcases Option.map_eq_some_iff.mp h with ⟨⟨before', after'⟩, hrest, hparts⟩
        rcases Prod.mk.inj hparts with ⟨rfl, rfl⟩
        rcases ih hrest with ⟨hxs, hmem⟩
        refine ⟨by rw [hxs]; rfl, ?_⟩
        rw [List.mem_cons, not_or]
        exact ⟨Ne.symm hx, hmem⟩
  · rintro ⟨rfl, hmem⟩
    exact splitOnce_append hmem after

end Split

/-! ## Bytes -/

/-- The UTF-8 encoding of a text. -/
def bytes (text : List Char) : List UInt8 := text.flatMap String.utf8EncodeChar

@[simp] theorem bytes_nil : bytes [] = [] := rfl

theorem bytes_cons (c : Char) (cs : List Char) :
    bytes (c :: cs) = String.utf8EncodeChar c ++ bytes cs := rfl

/-- A character below 128 is one byte. -/
def IsAscii (c : Char) : Prop := c.toNat < 128

instance (c : Char) : Decidable (IsAscii c) := inferInstanceAs (Decidable (_ < _))

theorem encode_ascii {c : Char} (h : IsAscii c) : String.utf8EncodeChar c = [c.toUInt8] := by
  apply String.utf8EncodeChar_eq_singleton
  rw [Char.utf8Size_eq_one_iff, UInt32.le_iff_toNat_le]
  exact Nat.lt_succ_iff.mp h

theorem bytes_cons_ascii {c : Char} (h : IsAscii c) (cs : List Char) :
    bytes (c :: cs) = c.toUInt8 :: bytes cs := by
  rw [bytes_cons, encode_ascii h]
  rfl

theorem bytes_ascii {text : List Char} (h : ∀ c ∈ text, IsAscii c) :
    bytes text = text.map Char.toUInt8 := by
  induction text with
  | nil => rfl
  | cons c cs ih =>
    rw [bytes_cons_ascii (h c List.mem_cons_self), List.map_cons,
      ih fun d hd => h d (List.mem_cons_of_mem _ hd)]

/-- The encoding of any other character starts with a byte above 127. -/
theorem encode_head (c : Char) {b : UInt8} {rest : List UInt8}
    (h : String.utf8EncodeChar c = b :: rest) (hb : b.toNat < 128) : IsAscii c := by
  by_contra hc
  have hbig : 128 ≤ c.val.toNat := Nat.not_lt.mp hc
  unfold String.utf8EncodeChar at h
  dsimp only at h
  split at h
  · omega
  · split at h
    · rcases List.cons.inj h with ⟨rfl, -⟩
      rw [UInt8.toNat_ofNat'] at hb
      omega
    · split at h
      · rcases List.cons.inj h with ⟨rfl, -⟩
        rw [UInt8.toNat_ofNat'] at hb
        omega
      · rcases List.cons.inj h with ⟨rfl, -⟩
        rw [UInt8.toNat_ofNat'] at hb
        omega

theorem encode_cons (c : Char) : ∃ b rest, String.utf8EncodeChar c = b :: rest := by
  cases hc : String.utf8EncodeChar c with
  | nil =>
    have hlength := String.length_utf8EncodeChar c
    rw [hc] at hlength
    exact absurd hlength.symm (Nat.ne_of_gt (Char.utf8Size_pos c))
  | cons b rest => exact ⟨b, rest, rfl⟩

/-- An ASCII byte at the front is the first character. -/
theorem bytes_eq_cons {text : List Char} {b : UInt8} {rest : List UInt8}
    (h : bytes text = b :: rest) (hb : b.toNat < 128) :
    ∃ c cs, text = c :: cs ∧ IsAscii c ∧ c.toUInt8 = b ∧ bytes cs = rest := by
  cases text with
  | nil => cases h
  | cons c cs =>
    have hascii : IsAscii c := by
      rcases encode_cons c with ⟨b', rest', hc⟩
      rw [bytes_cons, hc] at h
      rcases List.cons.inj h with ⟨rfl, -⟩
      exact encode_head c hc hb
    rw [bytes_cons_ascii hascii] at h
    rcases List.cons.inj h with ⟨hhead, htail⟩
    exact ⟨c, cs, rfl, hascii, hhead, htail⟩

/-- A text whose bytes are all ASCII. -/
theorem ascii_of_bytes {text : List Char} (h : ∀ b ∈ bytes text, b.toNat < 128) :
    ∀ c ∈ text, IsAscii c := by
  induction text with
  | nil => exact fun c hc => absurd hc List.not_mem_nil
  | cons c cs ih =>
    rw [bytes_cons] at h
    intro d hd
    rcases List.mem_cons.mp hd with rfl | hd
    · rcases encode_cons d with ⟨b, rest, hb⟩
      rw [hb] at h
      exact encode_head d hb (h b List.mem_cons_self)
    · exact ih (fun b hb => h b (List.mem_append_right _ hb)) d hd

/-- `String::from_utf8`. -/
def fromUtf8 (bs : List UInt8) : Option String := String.fromUTF8? bs.toByteArray

theorem toByteArray_eq (text : String) : text.toByteArray = (bytes text.toList).toByteArray :=
  String.utf8Encode_toList.symm

theorem toByteArray_injective {bs cs : List UInt8} (h : bs.toByteArray = cs.toByteArray) :
    bs = cs := by
  have hdata := congrArg (fun a => a.data.toList) h
  simpa using hdata

theorem fromUtf8_eq_some {bs : List UInt8} {text : String} :
    fromUtf8 bs = some text ↔ bytes text.toList = bs := by
  unfold fromUtf8 String.fromUTF8?
  constructor
  · intro h
    split at h
    · rename_i hvalid
      apply toByteArray_injective
      rw [← toByteArray_eq, ← Option.some.inj h]
      rfl
    · cases h
  · rintro rfl
    rw [← toByteArray_eq, dif_pos text.isValidUTF8]
    rfl

/-! ## Hexadecimal digits -/

/-- A hexadecimal digit of either case and its value. -/
def HexDigit (c : Char) (v : Nat) : Prop := v < 16 ∧ (c = v.digitChar ∨ c = v.digitChar.toUpper)

instance (c : Char) (v : Nat) : Decidable (HexDigit c v) := inferInstanceAs (Decidable (_ ∧ _))

/-- The two lowercase digits of a byte. -/
def hexLower (b : UInt8) : List Char := [(b.toNat / 16).digitChar, (b.toNat % 16).digitChar]

/-- The two uppercase digits of a byte. -/
def hexUpper (b : UInt8) : List Char :=
  [(b.toNat / 16).digitChar.toUpper, (b.toNat % 16).digitChar.toUpper]

theorem HexDigit.toLower {c : Char} {v : Nat} (h : HexDigit c v) : c.toLower = v.digitChar := by
  have hall : ∀ v < 16, v.digitChar.toLower = v.digitChar ∧
      v.digitChar.toUpper.toLower = v.digitChar := by
    decide
  rcases h with ⟨hv, rfl | rfl⟩
  · exact (hall v hv).1
  · exact (hall v hv).2

theorem HexDigit.ascii {c : Char} {v : Nat} (h : HexDigit c v) : IsAscii c := by
  have hall : ∀ v < 16, IsAscii v.digitChar ∧ IsAscii v.digitChar.toUpper := by
    decide
  rcases h with ⟨hv, rfl | rfl⟩
  · exact (hall v hv).1
  · exact (hall v hv).2

theorem hexDigit_hexLower {b : UInt8} {c : Char} (h : c ∈ hexLower b) :
    ∃ v, HexDigit c v := by
  have hb := b.toNat_lt
  simp only [hexLower, List.mem_cons, List.not_mem_nil, or_false] at h
  rcases h with rfl | rfl
  · exact ⟨b.toNat / 16, by omega, .inl rfl⟩
  · exact ⟨b.toNat % 16, by omega, .inl rfl⟩

theorem length_flatMap_hexLower (bs : List UInt8) :
    (bs.flatMap hexLower).length = 2 * bs.length := by
  induction bs with
  | nil => rfl
  | cons b bs ih =>
    rw [List.flatMap_cons, List.length_append, ih, List.length_cons]
    simp only [hexLower, List.length_cons, List.length_nil]
    omega

/-- An even number of digits, in lowercase, is the text of some bytes. -/
theorem lowercase_hex {text : List Char} {n : Nat} (hlength : text.length = 2 * n)
    (hdigits : ∀ c ∈ text, ∃ v, HexDigit c v) :
    ∃ bs : List UInt8, bs.length = n ∧ text.map Char.toLower = bs.flatMap hexLower := by
  induction n generalizing text with
  | zero =>
    rcases List.length_eq_zero_iff.mp hlength with rfl
    exact ⟨[], rfl, rfl⟩
  | succ n ih =>
    match text, hlength with
    | hi :: lo :: rest, hlength =>
      rcases hdigits hi List.mem_cons_self with ⟨v, hv⟩
      rcases hdigits lo (List.mem_cons_of_mem _ List.mem_cons_self) with ⟨w, hw⟩
      have hrest : rest.length = 2 * n := by
        simp only [List.length_cons] at hlength
        omega
      rcases ih hrest fun c hc => hdigits c (List.mem_cons_of_mem _ (List.mem_cons_of_mem _ hc))
        with ⟨bs, hbs, htext⟩
      have hbyte : (UInt8.ofNat (16 * v + w)).toNat = 16 * v + w := by
        rw [UInt8.toNat_ofNat']
        have := hv.1
        have := hw.1
        omega
      refine ⟨UInt8.ofNat (16 * v + w) :: bs, by rw [List.length_cons, hbs], ?_⟩
      have hdiv : (16 * v + w) / 16 = v := by
        have := hw.1
        omega
      have hmod : (16 * v + w) % 16 = w := by
        have := hw.1
        omega
      rw [List.map_cons, List.map_cons, List.flatMap_cons, hexLower, hbyte, hdiv, hmod, htext,
        hv.toLower, hw.toLower]
      rfl

end Decdn
