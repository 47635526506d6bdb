import Decdn.Client.Uri

/-!
# The grammar of `decdn:` URIs

The grammar the parser of `decdn:` URIs implements, with the value each text names, in the
terms of RFC 3986.  The parser decides it, and the printer picks one text for each value.

Main results:

- Theorem `fromStr_eq_ok`: the parser accepts the grammar, with its values.
- Theorem `Denotes.display`: what is printed denotes what was printed.
- Theorem `uri_language`: acceptance, the round trip and canonical forms.
-/

namespace Decdn.Client.Uri

/-! ## The grammar -/

def Unreserved (c : Char) : Prop := c.isAlphanum = true ∨ c ∈ ['-', '.', '_', '~']

def SubDelim (c : Char) : Prop :=
  c ∈ ['!', '$', '&', '\x27', '(', ')', '*', '+', ',', ';', '=']

/-- A `pchar` that is not an escape. -/
def Pchar (c : Char) : Prop := Unreserved c ∨ SubDelim c ∨ c = ':' ∨ c = '@'

instance (c : Char) : Decidable (Unreserved c) := inferInstanceAs (Decidable (_ ∨ _))

instance (c : Char) : Decidable (SubDelim c) := inferInstanceAs (Decidable (_ ∈ _))

instance (c : Char) : Decidable (Pchar c) := inferInstanceAs (Decidable (_ ∨ _))

/-- A text of `pchar`s and escapes, and the bytes it encodes. -/
inductive Encodes : List Char → List UInt8 → Prop where
  | nil : Encodes [] []
  | pchar {c : Char} {cs : List Char} {bs : List UInt8} (hc : Pchar c) (hcs : Encodes cs bs) :
      Encodes (c :: cs) (c.toUInt8 :: bs)
  | escape {hi lo : Char} {h l : Nat} {cs : List Char} {bs : List UInt8} (hhi : HexDigit hi h)
      (hlo : HexDigit lo l) (hcs : Encodes cs bs) :
      Encodes ('%' :: hi :: lo :: cs) (UInt8.ofNat (16 * h + l) :: bs)

/-- One segment of an entry path: its bytes are UTF-8, and its text is a file name. -/
structure Segment (raw : List Char) (text : String) : Prop where
  encodes : Encodes raw (bytes text.toList)
  nonempty : text ≠ ""
  notDot : text ≠ "."
  notDotDot : text ≠ ".."
  noSlash : '/' ∉ text.toList
  noNul : '\x00' ∉ text.toList

/-- What follows the hash. -/
inductive Path : List Char → UriTarget → Prop where
  | blob : Path [] .blob
  | bundle : Path ['/'] .bundle
  | entry {raws : List (List Char)} {texts : List String} (hne : raws ≠ [])
      (hsegments : List.Forall₂ Segment raws texts) :
      Path ('/' :: ['/'].intercalate raws) (.bundleEntry ("/".intercalate texts))

/-- The namespace hint. -/
inductive Query : List Char → Option UInt64 → Prop where
  | none : Query [] none
  | ns {digits : List Char} {id : UInt64} (hne : digits ≠ [])
      (hdigits : ∀ c ∈ digits, c.isDigit = true) (hvalue : Nat.ofDigitChars 10 digits 0 = id.toNat)
      (hpos : 1 ≤ id.toNat) : Query ("?ns=".toList ++ digits) (some id)

/-- Sixty-four hexadecimal digits, and the hash they write. -/
structure HashText (text : List Char) (hash : Vector UInt8 32) : Prop where
  length : text.length = 64
  digits : ∀ c ∈ text, ∃ v, HexDigit c v
  value : text.map Char.toLower = hash.toList.flatMap hexLower

/-- The texts of the grammar, with what they name. -/
def Denotes (s : String) (u : DecdnUri) : Prop :=
  ∃ hash path query, s.toList = scheme ++ (hash ++ path ++ query) ∧ HashText hash u.hash ∧
    Path path u.target ∧ Query query u.namespaceId

/-- The texts of the grammar. -/
def WellFormed (s : String) : Prop :=
  ∃ hash path query, s.toList = scheme ++ (hash ++ path ++ query) ∧
    (hash.length = 64 ∧ ∀ c ∈ hash, ∃ v, HexDigit c v) ∧ (∃ target, Path path target) ∧
    ∃ id, Query query id

/-! ## Characters and bytes -/

theorem ofUInt8_toUInt8 {c : Char} (h : IsAscii c) : Char.ofUInt8 c.toUInt8 = c := by
  have hall : ∀ n < 128, Char.ofUInt8 (Char.ofNat n).toUInt8 = Char.ofNat n := by
    decide
  have hc := hall c.toNat h
  rwa [Char.ofNat_toNat] at hc

theorem toUInt8_ofUInt8 (b : UInt8) : (Char.ofUInt8 b).toUInt8 = b :=
  UInt8.toUInt8_toUInt32 b

theorem toNat_toUInt8 {c : Char} (h : IsAscii c) : c.toUInt8.toNat < 128 := by
  have hall : ∀ n < 128, (Char.ofNat n).toUInt8.toNat < 128 := by
    decide
  have hc := hall c.toNat h
  rwa [Char.ofNat_toNat] at hc

theorem byteOf_eq_iff {c : Char} (h : IsAscii c) {b : UInt8} :
    byteOf c = b ↔ c = Char.ofUInt8 b := by
  constructor
  · rintro rfl
    exact (ofUInt8_toUInt8 h).symm
  · rintro rfl
    exact toUInt8_ofUInt8 b

theorem isAsciiAlphanumeric_iff {b : UInt8} :
    isAsciiAlphanumeric b = true ↔ (Char.ofUInt8 b).isAlphanum = true := by
  have hval : (Char.ofUInt8 b).val.toNat = b.toNat := by simp [Char.ofUInt8]
  simp only [isAsciiAlphanumeric, isAsciiDigit, Char.isAlphanum, Char.isAlpha, Char.isUpper,
    Char.isLower, Char.isDigit, Bool.or_eq_true, Bool.and_eq_true, decide_eq_true_eq, ge_iff_le,
    UInt8.le_iff_toNat_le, UInt32.le_iff_toNat_le, hval]
  exact or_assoc.trans or_comm

/-- The `pchar`s other than letters and digits. -/
theorem pchar_iff {c : Char} :
    Pchar c ↔ c.isAlphanum = true ∨ c ∈ ['-', '.', '_', '~', '!', '$', '&', '\x27', '(', ')', '*',
      '+', ',', ';', '=', ':', '@'] := by
  simp only [Pchar, Unreserved, SubDelim, List.mem_cons, List.not_mem_nil, or_false, or_assoc]

theorem ascii_of_all {l : List Char} {c : Char} (hall : l.all (fun c => decide (IsAscii c)) = true)
    (hc : c ∈ l) : IsAscii c :=
  of_decide_eq_true (List.all_eq_true.mp hall c hc)

theorem Pchar.ascii {c : Char} (h : Pchar c) : IsAscii c := by
  rcases h with (halnum | hmem) | hmem | rfl | rfl
  · simp only [Char.isAlphanum, Char.isAlpha, Char.isUpper, Char.isLower, Char.isDigit,
      Bool.or_eq_true, Bool.and_eq_true, decide_eq_true_eq, ge_iff_le,
      UInt32.le_iff_toNat_le] at halnum
    have hval : c.toNat = c.val.toNat := rfl
    have hz : 'z'.val.toNat = 122 := rfl
    have hZ : 'Z'.val.toNat = 90 := rfl
    have h9 : '9'.val.toNat = 57 := rfl
    unfold IsAscii
    omega
  · exact ascii_of_all (by decide) hmem
  · exact ascii_of_all (by decide) hmem
  · decide
  · decide

theorem isPchar_iff {b : UInt8} : isPchar b = true ↔ b.toNat < 128 ∧ Pchar (Char.ofUInt8 b) := by
  have hval : (Char.ofUInt8 b).toNat = b.toNat := by simp [Char.ofUInt8, Char.toNat]
  rw [isPchar, Bool.or_eq_true, isAsciiAlphanumeric_iff, List.any_eq_true]
  constructor
  · intro h
    have hpchar : Pchar (Char.ofUInt8 b) := by
      rw [pchar_iff]
      rcases h with h | ⟨c, hmem, hc⟩
      · exact Or.inl h
      · have hascii : IsAscii c := ascii_of_all (by decide) hmem
        rw [← (byteOf_eq_iff hascii).mp (eq_of_beq hc)]
        exact Or.inr hmem
    have hascii := hpchar.ascii
    rw [IsAscii, hval] at hascii
    exact ⟨hascii, hpchar⟩
  · rintro ⟨hsmall, hpchar⟩
    rcases pchar_iff.mp hpchar with h | hmem
    · exact Or.inl h
    · exact Or.inr ⟨_, hmem, beq_iff_eq.mpr (toUInt8_ofUInt8 b)⟩

theorem Pchar.isPchar {c : Char} (h : Pchar c) : isPchar c.toUInt8 = true := by
  have hascii := h.ascii
  rw [isPchar_iff, ofUInt8_toUInt8 hascii]
  exact ⟨toNat_toUInt8 hascii, h⟩

/-- The digits of a run of letters or of numerals. -/
theorem hexDigit_of_between {b lo hi : UInt8} {first : Nat} (h : lo ≤ b ∧ b ≤ hi)
    (hdigits : ∀ n ≤ hi.toNat - lo.toNat,
      lo.toNat + n < 128 ∧ HexDigit (Char.ofUInt8 (UInt8.ofNat (lo.toNat + n))) (first + n)) :
    b.toNat < 128 ∧ HexDigit (Char.ofUInt8 b) (first + (b.toNat - lo.toNat)) := by
  have hlo : lo.toNat ≤ b.toNat := UInt8.le_iff_toNat_le.mp h.1
  have hhi : b.toNat ≤ hi.toNat := UInt8.le_iff_toNat_le.mp h.2
  have hb := hdigits (b.toNat - lo.toNat) (by omega)
  rwa [Nat.add_sub_cancel' hlo, UInt8.ofNat_toNat] at hb

theorem hexDigit_of_hexValue {b v : UInt8} (h : hexValue b = some v) :
    b.toNat < 128 ∧ HexDigit (Char.ofUInt8 b) v.toNat := by
  have hvalue : ∀ {lo hi sub : UInt8}, lo ≤ b ∧ b ≤ hi → sub ≤ lo →
      (b - sub).toNat = lo.toNat - sub.toNat + (b.toNat - lo.toNat) := by
    intro lo hi sub hin hsub
    have hlo : lo.toNat ≤ b.toNat := UInt8.le_iff_toNat_le.mp hin.1
    have hsub' : sub.toNat ≤ lo.toNat := UInt8.le_iff_toNat_le.mp hsub
    rw [UInt8.toNat_sub_of_le _ _ (UInt8.le_iff_toNat_le.mpr (hsub'.trans hlo))]
    omega
  unfold hexValue at h
  split at h
  · rename_i hin
    cases h
    rw [hvalue hin (by decide)]
    exact hexDigit_of_between hin (by decide)
  · split at h
    · rename_i hin
      cases h
      rw [hvalue hin (by decide)]
      exact hexDigit_of_between hin (by decide)
    · split at h
      · rename_i hin
        cases h
        rw [hvalue hin (by decide)]
        exact hexDigit_of_between hin (by decide)
      · cases h
theorem hexValue_of_hexDigit {c : Char} {v : Nat} (h : HexDigit c v) :
    hexValue c.toUInt8 = some (UInt8.ofNat v) := by
  have hall : ∀ v < 16, hexValue v.digitChar.toUInt8 = some (UInt8.ofNat v) ∧
      hexValue v.digitChar.toUpper.toUInt8 = some (UInt8.ofNat v) := by
    decide
  rcases h with ⟨hv, rfl | rfl⟩
  · exact (hall v hv).1
  · exact (hall v hv).2

/-- The two nibbles of an escape. -/
theorem nibbles {h l : UInt8} (hh : h.toNat < 16) (hl : l.toNat < 16) :
    h <<< 4 ||| l = UInt8.ofNat (16 * h.toNat + l.toNat) := by
  have hall : ∀ m < 16, ∀ n < 16,
      UInt8.ofNat m <<< 4 ||| UInt8.ofNat n = UInt8.ofNat (16 * m + n) := by
    decide
  have hhl := hall h.toNat hh l.toNat hl
  rwa [UInt8.ofNat_toNat, UInt8.ofNat_toNat] at hhl

theorem isAsciiHexdigit_iff {b : UInt8} : isAsciiHexdigit b = true ↔ (hexValue b).isSome := by
  simp only [isAsciiHexdigit, Bool.or_eq_true, Bool.and_eq_true, decide_eq_true_eq, or_assoc]
  unfold hexValue
  by_cases hdigit : byteOf '0' ≤ b ∧ b ≤ byteOf '9'
  · simp [hdigit]
  rw [if_neg hdigit]
  by_cases hlower : byteOf 'a' ≤ b ∧ b ≤ byteOf 'f'
  · simp [hlower]
  rw [if_neg hlower]
  by_cases hupper : byteOf 'A' ≤ b ∧ b ≤ byteOf 'F'
  · simp [hupper]
  · simp [hdigit, hlower, hupper]

/-! ## Segments -/

/-- The loop accepts only what encodes bytes. -/
theorem encodes_of_decodeLoop {l out r : List UInt8} (h : decodeLoop l out = .ok r)
    {raw : List Char} (hl : bytes raw = l) : ∃ bs, Encodes raw bs ∧ r = out ++ bs := by
  fun_induction decodeLoop l out generalizing raw with
  | case1 out =>
    cases raw with
    | nil => exact ⟨[], .nil, by rw [← Except.ok.inj h, List.append_nil]⟩
    | cons c cs =>
      rcases encode_cons c with ⟨b, rest, hc⟩
      rw [bytes_cons, hc] at hl
      cases hl
  | case2 out hi lo rest v w hlo hhi ih =>
    rcases hexDigit_of_hexValue hhi with ⟨hhi, hv⟩
    rcases hexDigit_of_hexValue hlo with ⟨hlo, hw⟩
    rcases bytes_eq_cons hl (by decide) with ⟨c, cs, rfl, hc, hpercent, hcs⟩
    rcases bytes_eq_cons hcs hhi with ⟨d, ds, rfl, hd, rfl, hds⟩
    rcases bytes_eq_cons hds hlo with ⟨e, es, rfl, he, rfl, hes⟩
    rcases ih h hes with ⟨bs, hbs, hr⟩
    have hc' : c = '%' := by
      rw [← ofUInt8_toUInt8 hc, hpercent]
      decide
    rw [ofUInt8_toUInt8 hd] at hv
    rw [ofUInt8_toUInt8 he] at hw
    rw [hc']
    refine ⟨_, .escape hv hw hbs, ?_⟩
    rw [hr, nibbles hv.1 hw.1, List.append_assoc]
    rfl
  | case3 => cases h
  | case4 => cases h
  | case5 b rest out hpercent hpchar ih =>
    rcases isPchar_iff.mp hpchar with ⟨hsmall, hb⟩
    rcases bytes_eq_cons hl hsmall with ⟨c, cs, rfl, hc, rfl, hcs⟩
    rcases ih h hcs with ⟨bs, hbs, hr⟩
    rw [ofUInt8_toUInt8 hc] at hb
    refine ⟨_, .pchar hb hbs, ?_⟩
    rw [hr, List.append_assoc]
    rfl
  | case6 => cases h

theorem decodeLoop_pchar {b : UInt8} (hpercent : b ≠ byteOf '%') (hpchar : isPchar b = true)
    (rest out : List UInt8) : decodeLoop (b :: rest) out = decodeLoop rest (out ++ [b]) := by
  rw [decodeLoop.eq_def]
  dsimp only
  rw [if_neg hpercent, if_pos hpchar]

theorem decodeLoop_escape {hi lo v w : UInt8} (hhi : hexValue hi = some v)
    (hlo : hexValue lo = some w) (rest out : List UInt8) :
    decodeLoop (byteOf '%' :: hi :: lo :: rest) out = decodeLoop rest (out ++ [v <<< 4 ||| w]) := by
  rw [decodeLoop.eq_def]
  dsimp only
  rw [if_pos rfl, hhi, hlo]

/-- The loop decodes what encodes bytes. -/
theorem decodeLoop_of_encodes {raw : List Char} {bs : List UInt8} (h : Encodes raw bs)
    (out : List UInt8) : decodeLoop (bytes raw) out = .ok (out ++ bs) := by
  induction h generalizing out with
  | nil => rw [bytes_nil, decodeLoop, List.append_nil]
  | @pchar c cs bs hc _ ih =>
    have hpercent : c.toUInt8 ≠ byteOf '%' := by
      intro heq
      have hpchar := hc.isPchar
      rw [heq] at hpchar
      revert hpchar
      decide
    rw [bytes_cons_ascii hc.ascii, decodeLoop_pchar hpercent hc.isPchar, ih, List.append_assoc]
    rfl
  | @escape hi lo v w cs bs hhi hlo _ ih =>
    have hpercent : IsAscii '%' := by
      decide
    have hv : (UInt8.ofNat v).toNat = v := by
      rw [UInt8.toNat_ofNat']
      have := hhi.1
      omega
    have hw : (UInt8.ofNat w).toNat = w := by
      rw [UInt8.toNat_ofNat']
      have := hlo.1
      omega
    rw [bytes_cons_ascii hpercent, bytes_cons_ascii hhi.ascii, bytes_cons_ascii hlo.ascii,
      ← byteOf, decodeLoop_escape (hexValue_of_hexDigit hhi) (hexValue_of_hexDigit hlo),
      nibbles (by rw [hv]; exact hhi.1) (by rw [hw]; exact hlo.1), hv, hw, ih, List.append_assoc]
    rfl

theorem decodeSegment_eq_ok {raw : List Char} {text : String} :
    decodeSegment raw = .ok text ↔ Encodes raw (bytes text.toList) := by
  simp only [decodeSegment, bind_eq_ok]
  constructor
  · rintro ⟨out, hout, htext⟩
    split at htext
    · rename_i text' hdecoded
      rcases Except.ok.inj htext with rfl
      rcases encodes_of_decodeLoop hout rfl with ⟨bs, hbs, rfl⟩
      rw [fromUtf8_eq_some.mp hdecoded]
      exact hbs
    · cases htext
  · intro h
    refine ⟨_, decodeLoop_of_encodes h [], ?_⟩
    rw [List.nil_append, fromUtf8_eq_some.mpr rfl]

theorem decodeEntry_eq_ok {raw : List Char} {text : String} :
    decodeEntry raw = .ok text ↔ Segment raw text := by
  simp only [decodeEntry, bind_eq_ok, decodeSegment_eq_ok]
  constructor
  · rintro ⟨decoded, hencodes, h⟩
    split at h
    · cases h
    · rename_i hempty
      split at h
      · cases h
      · rename_i hdots
        split at h
        · cases h
        · rename_i hslash
          split at h
          · cases h
          · rename_i hnul
            rcases Except.ok.inj h with rfl
            rw [not_or] at hdots
            refine ⟨hencodes, ?_, hdots.1, hdots.2, hslash, hnul⟩
            rintro rfl
            exact hempty rfl
  · intro h
    have hempty : text.toList.isEmpty = false := by
      rw [List.isEmpty_eq_false_iff, ne_eq, String.toList_eq_nil_iff]
      exact h.nonempty
    refine ⟨text, h.encodes, ?_⟩
    rw [hempty, if_neg Bool.false_ne_true, if_neg (not_or.mpr ⟨h.notDot, h.notDotDot⟩),
      if_neg h.noSlash, if_neg h.noNul]

/-! ## Paths -/

theorem pchar_of_hexDigit {c : Char} {v : Nat} (h : HexDigit c v) : Pchar c := by
  have hall : ∀ v < 16, Pchar v.digitChar ∧ Pchar v.digitChar.toUpper := by
    decide
  rcases h with ⟨hv, rfl | rfl⟩
  · exact (hall v hv).1
  · exact (hall v hv).2

/-- The characters of a segment. -/
theorem Encodes.chars {raw : List Char} {bs : List UInt8} (h : Encodes raw bs) :
    ∀ c ∈ raw, Pchar c ∨ c = '%' := by
  induction h with
  | nil => exact fun c hc => absurd hc List.not_mem_nil
  | pchar hc _ ih =>
    intro d hd
    rcases List.mem_cons.mp hd with rfl | hd
    · exact .inl hc
    · exact ih d hd
  | escape hhi hlo _ ih =>
    intro d hd
    simp only [List.mem_cons] at hd
    rcases hd with rfl | rfl | rfl | hd
    · exact .inr rfl
    · exact .inl (pchar_of_hexDigit hhi)
    · exact .inl (pchar_of_hexDigit hlo)
    · exact ih d hd

theorem Encodes.noSlash {raw : List Char} {bs : List UInt8} (h : Encodes raw bs) :
    '/' ∉ raw := by
  intro hmem
  have hchar := h.chars '/' hmem
  revert hchar
  decide

theorem Segment.raw_ne_nil {raw : List Char} {text : String} (h : Segment raw text) :
    raw ≠ [] := by
  rintro rfl
  have hencodes := h.encodes
  generalize hbs : bytes text.toList = bs at hencodes
  cases hencodes
  cases htext : text.toList with
  | nil => exact h.nonempty (String.toList_eq_nil_iff.mp htext)
  | cons c cs =>
    rcases encode_cons c with ⟨b, rest, hc⟩
    rw [htext, bytes_cons, hc] at hbs
    cases hbs

theorem decodePath_eq_ok {raw : List Char} {path : String} :
    decodePath raw = .ok path ↔ ∃ raws texts, raws ≠ [] ∧ List.Forall₂ Segment raws texts ∧
      raw = ['/'].intercalate raws ∧ path = "/".intercalate texts := by
  simp only [decodePath, bind_eq_ok, pure_eq_ok, mapM_eq_ok, decodeEntry_eq_ok]
  constructor
  · rintro ⟨texts, hsegments, rfl⟩
    exact ⟨raw.splitOn '/', texts, List.splitOn_ne_nil _ _, hsegments,
      (List.intercalate_splitOn '/').symm, rfl⟩
  · rintro ⟨raws, texts, hne, hsegments, rfl, rfl⟩
    have hslash : ∀ raw ∈ raws, '/' ∉ raw := by
      have hboth := hsegments.imp fun _ _ h => And.intro h.encodes.noSlash h
      exact ((List.forall₂_and_left raws texts).mp hboth).1
    rw [List.splitOn_intercalate '/' hslash hne]
    exact ⟨texts, hsegments, rfl⟩

/-- The text of an optional part. -/
def part (sep : Char) : Option (List Char) → List Char
  | none => []
  | some text => sep :: text

theorem cut_eq {sep : Char} {text before : List Char} {after : Option (List Char)} :
    cut sep text = (before, after) ↔ text = before ++ part sep after ∧ sep ∉ before := by
  unfold cut
  cases hsplit : splitOnce sep text with
  | none =>
    rw [splitOnce_eq_none] at hsplit
    constructor
    · rintro h
      rcases Prod.mk.inj h with ⟨rfl, rfl⟩
      exact ⟨(List.append_nil _).symm, hsplit⟩
    · rintro ⟨htext, -⟩
      cases after with
      | none => rw [htext, part, List.append_nil]
      | some after =>
        refine absurd ?_ hsplit
        rw [htext]
        exact List.mem_append_right _ List.mem_cons_self
  | some parts =>
    rcases parts with ⟨before', after'⟩
    rcases splitOnce_eq_some.mp hsplit with ⟨htext, hbefore⟩
    constructor
    · rintro h
      rcases Prod.mk.inj h with ⟨rfl, rfl⟩
      exact ⟨htext, hbefore⟩
    · rintro ⟨htext', hmem⟩
      cases after with
      | none =>
        rw [part, List.append_nil] at htext'
        refine absurd ?_ hmem
        rw [← htext', htext]
        exact List.mem_append_right _ List.mem_cons_self
      | some after =>
        have hsplit' := splitOnce_append hmem after
        rw [part] at htext'
        rw [← htext', hsplit] at hsplit'
        rcases Prod.mk.inj (Option.some.inj hsplit') with ⟨rfl, rfl⟩
        rfl

theorem parseTarget_eq_ok {path : Option (List Char)} {target : UriTarget} :
    parseTarget path = .ok target ↔ Path (part '/' path) target := by
  constructor
  · intro h
    match path, h with
    | none, h =>
      rcases Except.ok.inj h with rfl
      exact .blob
    | some [], h =>
      rcases Except.ok.inj h with rfl
      exact .bundle
    | some (c :: cs), h =>
      simp only [parseTarget, bind_eq_ok, pure_eq_ok] at h
      rcases h with ⟨path, hpath, rfl⟩
      rcases decodePath_eq_ok.mp hpath with ⟨raws, texts, hne, hsegments, hraw, rfl⟩
      rw [part, hraw]
      exact .entry hne hsegments
  · intro h
    generalize htext : part '/' path = text at h
    cases h with
    | blob =>
      cases path with
      | none => rfl
      | some path => cases htext
    | bundle =>
      cases path with
      | none => cases htext
      | some path =>
        rcases (List.cons.inj htext).2 with rfl
        rfl
    | @entry raws texts hne hsegments =>
      cases path with
      | none => cases htext
      | some path =>
        rcases (List.cons.inj htext).2 with rfl
        have hdecode := decodePath_eq_ok.mpr ⟨raws, texts, hne, hsegments, rfl, rfl⟩
        -- A segment is not empty, so the path is not the bundle's.
        have hsome : ['/'].intercalate raws ≠ [] := by
          cases hsegments with
          | nil => exact absurd rfl hne
          | cons hsegment hrest =>
            intro hnil
            cases hrest with
            | nil =>
              simp only [List.intercalate_singleton] at hnil
              exact hsegment.raw_ne_nil hnil
            | cons _ _ =>
              rw [List.intercalate_cons_cons] at hnil
              simp at hnil
        cases hraw : ['/'].intercalate raws with
        | nil => exact absurd hraw hsome
        | cons c cs =>
          rw [hraw] at hdecode
          simp only [parseTarget, bind_eq_ok, pure_eq_ok]
          exact ⟨_, hdecode, rfl⟩

theorem mem_intercalate {c sep : Char} {raws : List (List Char)}
    (h : c ∈ [sep].intercalate raws) : c = sep ∨ ∃ raw ∈ raws, c ∈ raw := by
  induction raws with
  | nil => cases h
  | cons raw raws ih =>
    cases raws with
    | nil =>
      rw [List.intercalate_singleton] at h
      exact .inr ⟨raw, List.mem_cons_self, h⟩
    | cons raw' raws =>
      rw [List.intercalate_cons_cons, List.mem_append, List.mem_append, List.mem_singleton] at h
      rcases h with (hraw | hsep) | hrest
      · exact .inr ⟨raw, List.mem_cons_self, hraw⟩
      · exact .inl hsep
      · rcases ih hrest with hsep | ⟨raw'', hmem, hc⟩
        · exact .inl hsep
        · exact .inr ⟨raw'', List.mem_cons_of_mem _ hmem, hc⟩

theorem Path.noQuestion {path : List Char} {target : UriTarget} (h : Path path target) :
    '?' ∉ path := by
  cases h with
  | blob => exact List.not_mem_nil
  | bundle => decide
  | @entry raws texts hne hsegments =>
    have hchars := hsegments.imp fun _ _ h => And.intro h.encodes.chars h
    have hraws := ((List.forall₂_and_left raws texts).mp hchars).1
    rw [List.mem_cons, not_or]
    refine ⟨by decide, fun hmem => ?_⟩
    rcases mem_intercalate hmem with heq | ⟨raw, hraw, hmem⟩
    · revert heq
      decide
    · have hchar := hraws raw hraw '?' hmem
      revert hchar
      decide

/-- What follows the hash starts with its separator. -/
theorem Path.eq_part {path : List Char} {target : UriTarget} (h : Path path target) :
    ∃ rest, path = part '/' rest := by
  cases h with
  | blob => exact ⟨none, rfl⟩
  | bundle => exact ⟨some [], rfl⟩
  | entry _ _ => exact ⟨some _, rfl⟩

/-! ## Queries -/

theorem isAsciiDigit_iff {b : UInt8} :
    isAsciiDigit b = true ↔ b.toNat < 128 ∧ (Char.ofUInt8 b).isDigit = true := by
  have hval : (Char.ofUInt8 b).val.toNat = b.toNat := by simp [Char.ofUInt8]
  simp only [isAsciiDigit, Char.isDigit, Bool.and_eq_true, decide_eq_true_eq, ge_iff_le,
    UInt8.le_iff_toNat_le, UInt32.le_iff_toNat_le, hval]
  have h9 : (byteOf '9').toNat = 57 := rfl
  constructor
  · rintro ⟨hlow, hhigh⟩
    exact ⟨by omega, hlow, hhigh⟩
  · rintro ⟨-, hlow, hhigh⟩
    exact ⟨hlow, hhigh⟩

theorem ascii_of_isDigit {c : Char} (h : c.isDigit = true) : IsAscii c := by
  apply Pchar.ascii
  left
  left
  rw [Char.isAlphanum, h, Bool.or_true]

/-- A test on the bytes of a text that only ASCII passes is a test on its characters. -/
theorem all_bytes_iff {test : UInt8 → Bool} {P : Char → Prop} {text : List Char}
    (htest : ∀ b, test b = true ↔ b.toNat < 128 ∧ P (Char.ofUInt8 b))
    (hascii : ∀ c, P c → IsAscii c) :
    (bytes text).all test = true ↔ ∀ c ∈ text, P c := by
  rw [List.all_eq_true]
  constructor
  · intro h c hc
    have hall := ascii_of_bytes fun b hb => ((htest b).mp (h b hb)).1
    have hb : c.toUInt8 ∈ bytes text := by
      rw [bytes_ascii hall]
      exact List.mem_map_of_mem hc
    have hP := ((htest _).mp (h _ hb)).2
    rwa [ofUInt8_toUInt8 (hall c hc)] at hP
  · intro h b hb
    rw [bytes_ascii fun c hc => hascii c (h c hc)] at hb
    rcases List.mem_map.mp hb with ⟨c, hc, rfl⟩
    have hc' := hascii c (h c hc)
    rw [htest, ofUInt8_toUInt8 hc']
    exact ⟨toNat_toUInt8 hc', h c hc⟩

theorem all_isAsciiDigit {text : List Char} :
    (bytes text).all isAsciiDigit = true ↔ ∀ c ∈ text, c.isDigit = true :=
  all_bytes_iff (fun _ => isAsciiDigit_iff) fun _ => ascii_of_isDigit

theorem parseU64_eq_some {digits : List Char} {id : UInt64} :
    parseU64 digits = some id ↔ Nat.ofDigitChars 10 digits 0 = id.toNat := by
  unfold parseU64
  dsimp only
  constructor
  · intro h
    split at h
    · rename_i hlt
      rw [← Option.some.inj h, UInt64.toNat_ofNat']
      exact (Nat.mod_eq_of_lt hlt).symm
    · cases h
  · intro h
    rw [h, if_pos id.toNat_lt, UInt64.ofNat_toNat]

/-- The pair a query holds. -/
structure Pair (pair : List Char) (id : UInt64) (digits : List Char) : Prop where
  text : pair = "ns=".toList ++ digits
  nonempty : digits ≠ []
  digit : ∀ c ∈ digits, c.isDigit = true
  value : Nat.ofDigitChars 10 digits 0 = id.toNat
  pos : 1 ≤ id.toNat

theorem parsePair_eq_ok {found r : Option UInt64} {pair : List Char} :
    parsePair found pair = .ok r ↔ found = none ∧ ∃ id digits, Pair pair id digits ∧ r = some id := by
  unfold parsePair
  constructor
  · intro h
    split at h
    · cases h
    · rename_i key value hsplit
      rcases splitOnce_eq_some.mp hsplit with ⟨hpair, -⟩
      split at h
      · cases h
      · rename_i hkey
        split at h
        · cases h
        · rename_i hfound
          split at h
          · cases h
          · rename_i hvalue
            split at h
            · cases h
            · rename_i id hparse
              split at h
              · cases h
              · rename_i hzero
                rw [Bool.not_eq_true, Bool.or_eq_false_iff, Bool.not_eq_false'] at hvalue
                rw [Decidable.not_not.mp hkey] at hpair
                refine ⟨Option.not_isSome_iff_eq_none.mp hfound, id, value, ⟨hpair, ?_, ?_, ?_, ?_⟩,
                  (Except.ok.inj h).symm⟩
                · exact List.isEmpty_eq_false_iff.mp hvalue.1
                · exact all_isAsciiDigit.mp hvalue.2
                · exact parseU64_eq_some.mp hparse
                · apply Nat.one_le_iff_ne_zero.mpr
                  intro hid
                  exact hzero (UInt64.toNat_inj.mp hid)
  · rintro ⟨rfl, id, digits, ⟨htext, hne, hdigits, hvalue, hpos⟩, rfl⟩
    have hsplit : splitOnce '=' pair = some ("ns".toList, digits) := by
      have hkey : '=' ∉ "ns".toList := by
        decide
      rw [htext]
      exact splitOnce_append hkey digits
    have hzero : id ≠ 0 := by
      rintro rfl
      exact absurd hpos (by decide)
    have hall : (digits.isEmpty || !(bytes digits).all isAsciiDigit) = false := by
      rw [Bool.or_eq_false_iff, Bool.not_eq_false', all_isAsciiDigit, List.isEmpty_eq_false_iff]
      exact ⟨hne, hdigits⟩
    simp only [hsplit, parseU64_eq_some.mpr hvalue, hall]
    simp [hzero]

theorem parseQuery_eq_ok {query : List Char} {id : UInt64} :
    parseQuery query = .ok id ↔ ∃ digits, Pair query id digits := by
  simp only [parseQuery, bind_eq_ok]
  constructor
  · rintro ⟨found, hfold, h⟩
    split at h
    · rename_i id'
      rcases Except.ok.inj h with rfl
      have htext : ['&'].intercalate (query.splitOn '&') = query := List.intercalate_splitOn '&'
      cases hpairs : query.splitOn '&' with
      | nil => exact absurd hpairs (List.splitOn_ne_nil _ _)
      | cons pair pairs =>
        rw [hpairs] at hfold htext
        rw [List.foldlM_cons, bind_eq_ok] at hfold
        rcases hfold with ⟨r, hpair, hrest⟩
        rcases parsePair_eq_ok.mp hpair with ⟨-, id'', digits, hdigits, rfl⟩
        cases pairs with
        | nil =>
          rw [List.foldlM_nil, pure_eq_ok] at hrest
          rcases Option.some.inj hrest with rfl
          rw [List.intercalate_singleton] at htext
          rw [← htext]
          exact ⟨digits, hdigits⟩
        | cons pair' pairs =>
          -- A second pair is an error, whatever it is.
          rw [List.foldlM_cons, bind_eq_ok] at hrest
          rcases hrest with ⟨r', hpair', -⟩
          cases (parsePair_eq_ok.mp hpair').1
    · cases h
  · rintro ⟨digits, hpair⟩
    have hamp : '&' ∉ query := by
      rw [hpair.text, List.mem_append, not_or]
      refine ⟨by decide, fun hmem => ?_⟩
      have hdigit := hpair.digit '&' hmem
      revert hdigit
      decide
    refine ⟨some id, ?_, rfl⟩
    rw [List.splitOn_eq_singleton hamp, List.foldlM_cons, bind_eq_ok]
    exact ⟨some id, parsePair_eq_ok.mpr ⟨rfl, id, digits, hpair, rfl⟩, rfl⟩

theorem parseHint_eq_ok {query : Option (List Char)} {id : Option UInt64} :
    parseHint query = .ok id ↔ Query (part '?' query) id := by
  cases query with
  | none =>
    rw [parseHint, pure_eq_ok]
    constructor
    · rintro rfl
      exact .none
    · intro h
      cases h with
      | none => rfl
  | some query =>
    simp only [parseHint, bind_eq_ok, pure_eq_ok, parseQuery_eq_ok]
    constructor
    · rintro ⟨id, ⟨digits, hpair⟩, rfl⟩
      rw [part, hpair.text]
      exact .ns hpair.nonempty hpair.digit hpair.value hpair.pos
    · intro h
      generalize htext : part '?' (some query) = text at h
      cases h with
      | none => cases htext
      | @ns digits id hne hdigits hvalue hpos =>
        exact ⟨id, ⟨digits, (List.cons.inj htext).2, hne, hdigits, hvalue, hpos⟩, rfl⟩

theorem Query.eq_part {query : List Char} {id : Option UInt64} (h : Query query id) :
    ∃ rest, query = part '?' rest := by
  cases h with
  | none => exact ⟨Option.none, rfl⟩
  | ns _ _ _ _ => exact ⟨some _, rfl⟩

/-! ## The whole text -/

/-- What the hash library does with the text of a hash. -/
def DecodesHex (fromHex : List Char → Except String (Vector UInt8 32)) : Prop :=
  ∀ hash : Vector UInt8 32, fromHex (hash.toList.flatMap hexLower) = .ok hash

variable {fromHex : List Char → Except String (Vector UInt8 32)}

theorem isAsciiHexdigit_iff_hexDigit {b : UInt8} :
    isAsciiHexdigit b = true ↔ b.toNat < 128 ∧ ∃ v, HexDigit (Char.ofUInt8 b) v := by
  rw [isAsciiHexdigit_iff]
  constructor
  · intro h
    rcases Option.isSome_iff_exists.mp h with ⟨v, hv⟩
    rcases hexDigit_of_hexValue hv with ⟨hb, hdigit⟩
    exact ⟨hb, v.toNat, hdigit⟩
  · rintro ⟨hb, v, hdigit⟩
    have hvalue := hexValue_of_hexDigit hdigit
    rw [toUInt8_ofUInt8] at hvalue
    rw [hvalue]
    rfl

theorem all_isAsciiHexdigit {text : List Char} :
    (bytes text).all isAsciiHexdigit = true ↔ ∀ c ∈ text, ∃ v, HexDigit c v :=
  all_bytes_iff (fun _ => isAsciiHexdigit_iff_hexDigit) fun _ ⟨_, h⟩ => h.ascii

theorem length_bytes {text : List Char} (h : ∀ c ∈ text, ∃ v, HexDigit c v) :
    (bytes text).length = text.length := by
  rw [bytes_ascii fun c hc => (h c hc).choose_spec.ascii, List.length_map]

theorem parseHash_eq_ok (hhex : DecodesHex fromHex) {text : List Char} {hash : Vector UInt8 32} :
    parseHash fromHex text = .ok hash ↔ HashText text hash := by
  unfold parseHash
  constructor
  · intro h
    split at h
    · cases h
    · rename_i hlength
      split at h
      · cases h
      · rename_i hdigits
        rw [Bool.not_eq_true, Bool.not_eq_false', all_isAsciiHexdigit] at hdigits
        rw [ne_eq, Decidable.not_not, length_bytes hdigits] at hlength
        rcases lowercase_hex (n := 32) hlength hdigits with ⟨bs, hbs, htext⟩
        have hvec := hhex ⟨bs.toArray, by rw [List.size_toArray, hbs]⟩
        change fromHex (bs.flatMap hexLower) = _ at hvec
        rw [htext, hvec] at h
        rcases Except.ok.inj h with rfl
        exact ⟨hlength, hdigits, htext⟩
  · intro h
    rw [if_neg, if_neg, h.value, hhex hash]
    · rw [Bool.not_eq_true, Bool.not_eq_false', all_isAsciiHexdigit]
      exact h.digits
    · rw [length_bytes h.digits, ne_eq, Decidable.not_not]
      exact h.length

/-- The parser decides the grammar, and finds what a text names. -/
theorem fromStr_eq_ok (hhex : DecodesHex fromHex) {s : String} {u : DecdnUri} :
    fromStr fromHex s = .ok u ↔ Denotes s u := by
  unfold fromStr
  constructor
  · intro h
    split at h
    · cases h
    · rename_i rest hscheme
      rcases List.dropPrefix?_eq_some_iff.mp hscheme with ⟨p, htext, hp⟩
      rcases eq_of_beq hp with rfl
      split at h
      · cases h
      · rcases hquery : cut '?' rest with ⟨body, query⟩
        rcases hpath : cut '/' body with ⟨hash, path⟩
        simp only [hquery, hpath, bind_eq_ok, pure_eq_ok] at h
        rcases h with ⟨hashValue, hhash, target, htarget, id, hid, rfl⟩
        rw [cut_eq] at hquery hpath
        refine ⟨hash, part '/' path, part '?' query, ?_, (parseHash_eq_ok hhex).mp hhash,
          parseTarget_eq_ok.mp htarget, parseHint_eq_ok.mp hid⟩
        rw [htext, hquery.1, hpath.1]
  · rintro ⟨hash, path, query, htext, hhash, hpath, hquery⟩
    rcases hpath.eq_part with ⟨path, rfl⟩
    rcases hquery.eq_part with ⟨query, rfl⟩
    have hchars : ∀ c ∈ hash, Pchar c := fun c hc => pchar_of_hexDigit (hhash.digits c hc).choose_spec
    have hscheme : s.toList.dropPrefix? scheme =
        some (hash ++ part '/' path ++ part '?' query) := by
      rw [htext]
      exact List.dropPrefix?_append_of_beq _ (beq_self_eq_true _)
    have hauthority : ¬"//".toList.isPrefixOf (hash ++ part '/' path ++ part '?' query) := by
      have hlength := hhash.length
      cases hash with
      | nil => cases hlength
      | cons c cs =>
        have hc := hchars c List.mem_cons_self
        intro h
        rw [List.isPrefixOf_iff_prefix] at h
        rcases h with ⟨rest, hrest⟩
        rcases (List.cons.inj hrest).1 with rfl
        revert hc
        decide
    have hcut : cut '?' (hash ++ part '/' path ++ part '?' query) =
        (hash ++ part '/' path, query) := by
      rw [cut_eq, List.mem_append, not_or]
      refine ⟨rfl, fun hmem => ?_, hpath.noQuestion⟩
      have hchar := hchars '?' hmem
      revert hchar
      decide
    have hcut' : cut '/' (hash ++ part '/' path) = (hash, path) := by
      rw [cut_eq]
      refine ⟨rfl, fun hmem => ?_⟩
      have hchar := hchars '/' hmem
      revert hchar
      decide
    rw [hscheme]
    dsimp only
    rw [if_neg hauthority]
    simp only [hcut, hcut', bind_eq_ok, pure_eq_ok]
    exact ⟨_, (parseHash_eq_ok hhex).mpr hhash, _, parseTarget_eq_ok.mpr hpath, _,
      parseHint_eq_ok.mpr hquery, rfl⟩

/-! ## Printing -/

theorem encodes_display (bs : List UInt8) : Encodes (bs.flatMap displayByte) bs := by
  induction bs with
  | nil => exact .nil
  | cons b bs ih =>
    rw [List.flatMap_cons, displayByte]
    by_cases hpchar : isPchar b = true
    · have hencodes := Encodes.pchar (isPchar_iff.mp hpchar).2 ih
      rw [toUInt8_ofUInt8] at hencodes
      rw [if_pos hpchar]
      exact hencodes
    · have hb := b.toNat_lt
      have hhigh : HexDigit (b.toNat / 16).digitChar.toUpper (b.toNat / 16) :=
        ⟨by omega, .inr rfl⟩
      have hlow : HexDigit (b.toNat % 16).digitChar.toUpper (b.toNat % 16) :=
        ⟨by omega, .inr rfl⟩
      have hencodes := Encodes.escape hhigh hlow ih
      rw [if_neg hpchar]
      have hbyte : 16 * (b.toNat / 16) + b.toNat % 16 = b.toNat := by
        omega
      rw [hbyte, UInt8.ofNat_toNat] at hencodes
      exact hencodes

/-- A printed segment encodes its text. -/
theorem Segment.display {raw : List Char} {text : String} (h : Segment raw text) :
    Segment (displaySegment text.toList) text :=
  { h with encodes := encodes_display _ }

theorem flatMap_cons_eq_intercalate {raws : List (List Char)} (hne : raws ≠ []) (sep : Char) :
    raws.flatMap (sep :: ·) = sep :: [sep].intercalate raws := by
  induction raws with
  | nil => exact absurd rfl hne
  | cons raw raws ih =>
    cases raws with
    | nil => simp
    | cons raw' raws =>
      rw [List.flatMap_cons, ih (List.cons_ne_nil _ _), List.intercalate_cons_cons]
      simp

/-- A printed target names it. -/
theorem Path.display {path : List Char} {target : UriTarget} (h : Path path target) :
    Path (displayTarget target) target := by
  cases h with
  | blob => exact .blob
  | bundle => exact .bundle
  | @entry raws texts hne hsegments =>
    have hright := hsegments.flip
    have htexts : ∀ text ∈ texts, Segment (displaySegment text.toList) text := by
      have hboth := hright.imp fun _ _ h => And.intro h.display h
      exact ((List.forall₂_and_left texts raws).mp hboth).1
    have hne' : texts ≠ [] := by
      rintro rfl
      cases hsegments
      exact hne rfl
    have hslash : ∀ text ∈ texts.map String.toList, '/' ∉ text := by
      intro text hmem
      rcases List.mem_map.mp hmem with ⟨text', hmem', rfl⟩
      exact (htexts text' hmem').noSlash
    have hsplit : (("/".intercalate texts).toList.splitOn '/') = texts.map String.toList := by
      rw [String.toList_intercalate]
      exact List.splitOn_intercalate '/' hslash (by simpa using hne')
    have htext : displayTarget (.bundleEntry ("/".intercalate texts)) =
        '/' :: ['/'].intercalate (texts.map fun text => displaySegment text.toList) := by
      rw [displayTarget, hsplit, ← flatMap_cons_eq_intercalate (by simpa using hne'),
        List.flatMap_map, List.flatMap_map]
    rw [htext]
    refine .entry (by simpa using hne') ?_
    rw [List.forall₂_map_left_iff, List.forall₂_same]
    exact htexts

theorem Query.display {query : List Char} {id : Option UInt64} (h : Query query id) :
    Query (displayNamespace id) id := by
  cases h with
  | none => exact .none
  | @ns digits id hne hdigits hvalue hpos =>
    refine .ns Nat.toDigits_ne_nil ?_ Nat.ofDigitChars_ten_toDigits hpos
    intro c hc
    exact Nat.isDigit_of_mem_toDigits (by decide) (by decide) hc

theorem hashText_hexLower (hash : Vector UInt8 32) :
    HashText (hash.toList.flatMap hexLower) hash := by
  have hdigits : ∀ c ∈ hash.toList.flatMap hexLower, ∃ v, HexDigit c v := by
    intro c hc
    rcases List.mem_flatMap.mp hc with ⟨b, _, hb⟩
    exact hexDigit_hexLower hb
  refine ⟨by rw [length_flatMap_hexLower, Vector.length_toList], hdigits, ?_⟩
  rw [List.map_flatMap]
  congr 1
  funext b
  have hb := b.toNat_lt
  have hhigh : HexDigit (b.toNat / 16).digitChar (b.toNat / 16) := ⟨by omega, .inl rfl⟩
  have hlow : HexDigit (b.toNat % 16).digitChar (b.toNat % 16) := ⟨by omega, .inl rfl⟩
  simp only [hexLower, List.map_cons, List.map_nil, hhigh.toLower, hlow.toLower]

/-- What is printed denotes what was printed. -/
theorem Denotes.display {s : String} {u : DecdnUri} (h : Denotes s u) :
    Denotes (Uri.display u) u := by
  rcases h with ⟨hash, path, query, -, -, hpath, hquery⟩
  refine ⟨_, _, _, ?_, hashText_hexLower u.hash, hpath.display, hquery.display⟩
  rw [Uri.display, String.toList_ofList]
  simp only [List.append_assoc]

/-- The texts that denote something are those of the grammar. -/
theorem exists_denotes_iff {s : String} : (∃ u, Denotes s u) ↔ WellFormed s := by
  constructor
  · rintro ⟨u, hash, path, query, htext, hhash, hpath, hquery⟩
    exact ⟨hash, path, query, htext, ⟨hhash.length, hhash.digits⟩, ⟨_, hpath⟩, _, hquery⟩
  · rintro ⟨hash, path, query, htext, ⟨hlength, hdigits⟩, ⟨target, hpath⟩, id, hquery⟩
    rcases lowercase_hex (n := 32) hlength hdigits with ⟨bs, hbs, hlower⟩
    exact ⟨⟨⟨bs.toArray, by rw [List.size_toArray, hbs]⟩, target, id⟩, hash, path, query, htext,
      ⟨hlength, hdigits, hlower⟩, hpath, hquery⟩

/-- The language of `decdn:` URIs.  A text is accepted exactly when it is in the grammar; a parsed
value prints to a text that parses to it, and that text is its own printed form; equal values are
those with equal printed forms; and the printed form of an entry is not that of a blob or a
bundle. -/
theorem uri_language (hhex : DecodesHex fromHex) :
    (∀ s, (∃ u, fromStr fromHex s = .ok u) ↔ WellFormed s) ∧
    (∀ s u, fromStr fromHex s = .ok u → fromStr fromHex (display u) = .ok u ∧
      ∀ v, fromStr fromHex (display u) = .ok v → display v = display u) ∧
    (∀ s t u v, fromStr fromHex s = .ok u → fromStr fromHex t = .ok v →
      (u = v ↔ display u = display v) ∧
      ∀ path, u.target = .bundleEntry path → v.target = .blob ∨ v.target = .bundle →
        display u ≠ display v) := by
  have hround : ∀ s u, fromStr fromHex s = .ok u → fromStr fromHex (display u) = .ok u := by
    intro s u h
    rw [fromStr_eq_ok hhex] at h ⊢
    exact h.display
  have hinj : ∀ s t u v, fromStr fromHex s = .ok u → fromStr fromHex t = .ok v →
      display u = display v → u = v := by
    intro s t u v hu hv heq
    have hu' := hround s u hu
    rw [heq, hround t v hv] at hu'
    exact (Except.ok.inj hu').symm
  refine ⟨?_, ?_, ?_⟩
  · intro s
    simp only [fromStr_eq_ok hhex]
    exact exists_denotes_iff
  · intro s u h
    refine ⟨hround s u h, fun v hv => ?_⟩
    rw [hround s u h] at hv
    rw [Except.ok.inj hv]
  · intro s t u v hu hv
    refine ⟨⟨fun heq => by rw [heq], hinj s t u v hu hv⟩, ?_⟩
    intro path htarget hother heq
    rw [hinj s t u v hu hv heq] at htarget
    rcases hother with hblob | hbundle
    · rw [htarget] at hblob
      cases hblob
    · rw [htarget] at hbundle
      cases hbundle

/-- The bytes of a text of hexadecimal digits. -/
def hexBytes : List Char → Option (List UInt8)
  | [] => some []
  | [_] => none
  | hi :: lo :: rest => do
    let v ← hexValue hi.toUInt8
    let w ← hexValue lo.toUInt8
    return (v <<< 4 ||| w) :: (← hexBytes rest)

/-- A decoder for the hash text. -/
def sampleFromHex (text : List Char) : Except String (Vector UInt8 32) :=
  match hexBytes text with
  | none => .error "invalid hex"
  | some bs => if h : bs.toArray.size = 32 then .ok ⟨bs.toArray, h⟩ else .error "invalid length"

theorem hexBytes_hexLower (bs : List UInt8) : hexBytes (bs.flatMap hexLower) = some bs := by
  induction bs with
  | nil => rfl
  | cons b bs ih =>
    have hb := b.toNat_lt
    have hhigh : HexDigit (b.toNat / 16).digitChar (b.toNat / 16) := ⟨by omega, .inl rfl⟩
    have hlow : HexDigit (b.toNat % 16).digitChar (b.toNat % 16) := ⟨by omega, .inl rfl⟩
    have hv : (UInt8.ofNat (b.toNat / 16)).toNat = b.toNat / 16 := by
      rw [UInt8.toNat_ofNat']
      omega
    have hw : (UInt8.ofNat (b.toNat % 16)).toNat = b.toNat % 16 := by
      rw [UInt8.toNat_ofNat']
      omega
    have hbyte : 16 * (b.toNat / 16) + b.toNat % 16 = b.toNat := by
      omega
    simp only [List.flatMap_cons, hexLower, List.cons_append, List.nil_append, hexBytes,
      hexValue_of_hexDigit hhigh, hexValue_of_hexDigit hlow, ih, Option.bind_eq_bind,
      Option.bind_some, Option.pure_def]
    rw [nibbles (by rw [hv]; omega) (by rw [hw]; omega), hv, hw, hbyte, UInt8.ofNat_toNat]

theorem sampleFromHex_decodes : DecodesHex sampleFromHex := by
  intro hash
  unfold sampleFromHex
  rw [hexBytes_hexLower]
  dsimp only
  rw [dif_pos (by simp)]
  rfl

/-- `decdn:<64 zeros>/a%20b?ns=7` is accepted, and round-trips. -/
theorem uri_language_sample :
    ∃ u, fromStr sampleFromHex
        (String.ofList (scheme ++ (List.replicate 64 '0' ++ "/a%20b".toList ++ "?ns=7".toList))) =
          .ok u ∧ fromStr sampleFromHex (display u) = .ok u := by
  have hencodes : Encodes "a%20b".toList (bytes "a b".toList) :=
    .pchar (by decide)
      (.escape (h := 2) (l := 0) (by decide) (by decide) (.pchar (by decide) .nil))
  have hsegment : Segment "a%20b".toList "a b" :=
    ⟨hencodes, by decide, by decide, by decide, by decide, by decide⟩
  have hpath : Path "/a%20b".toList (.bundleEntry ("/".intercalate ["a b"])) :=
    .entry (List.cons_ne_nil _ _) (.cons hsegment .nil)
  have hdigit : ∀ c ∈ ['7'], c.isDigit = true := by
    intro c hc
    rw [List.mem_singleton.mp hc]
    decide
  have hquery : Query "?ns=7".toList (some 7) :=
    .ns (List.cons_ne_nil _ _) hdigit (by decide) (by decide)
  have hdigits : ∀ c ∈ List.replicate 64 '0', ∃ v, HexDigit c v := by
    intro c hc
    rw [List.eq_of_mem_replicate hc]
    exact ⟨0, by decide⟩
  have hlanguage := uri_language sampleFromHex_decodes
  rcases (hlanguage.1 _).mpr ⟨List.replicate 64 '0', _, _, String.toList_ofList,
    ⟨List.length_replicate, hdigits⟩, ⟨_, hpath⟩, _, hquery⟩ with ⟨u, hu⟩
  exact ⟨u, hu, (hlanguage.2.1 _ u hu).1⟩

end Decdn.Client.Uri
