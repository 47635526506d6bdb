import Decdn.Foundations.Fallible
import Decdn.Foundations.Incremental
import Decdn.Foundations.Words
import Mathlib.Data.Nat.Bitwise
import Mathlib.Tactic.Ring

/-!
# Wire framing

Every message is a varint length followed by that many bytes.  This file models
the framing helpers: the varint encoder and its three decoders (over a slice of
a decoded frame, over a growing buffer, and over an asynchronous reader), the
frame writer, the frame reader, and the locator that splits frames off a buffer.
A writer is the bytes it puts on the stream, and a reader is the bytes still to
come before the stream ends.

Main results:

- Theorem `decodeVarintPrefix_encode`: the decoders invert the encoder in front
  of any bytes.
- Theorem `readFrame_eq`: the reader and the locator agree on every buffer.
- Theorem `frameDecoder_stable`: no verdict of the locator is changed by bytes
  that arrive after it.
- Theorem `framing_sound`: frames cut into reads at any place come out whole and
  in order.
-/

namespace Decdn.Protocol

/-! ## Errors and streams -/

/-- The failures of a stream that framing can meet. -/
inductive StreamError where
  | unexpectedEof
  | other
  deriving DecidableEq, Repr

/-- `FrameError`, without the failure to decode a message. -/
inductive FrameError where
  | io (error : StreamError)
  | tooLarge (len : UInt64) (max : UInt32)
  | varint
  deriving DecidableEq, Repr

/-- `AsyncReadExt::read_exact`: the next `n` bytes of the stream and the bytes after them. -/
def readExact (n : Nat) (r : List UInt8) : Except FrameError (List UInt8 × List UInt8) :=
  if n ≤ r.length then .ok (r.take n, r.drop n) else .error (.io .unexpectedEof)

/-! ## Varints -/

/-- What the three decoding loops do with the byte at index `i`: nothing if it is malformed,
otherwise the value with its seven bits and whether the varint ends here. -/
def varintStep (i : Nat) (byte : UInt8) (result : UInt32) : Option (UInt32 × Bool) :=
  let data := (byte &&& 0x7F).toUInt32
  -- on the fifth byte only the low four bits are valid
  if i = 4 ∧ byte &&& 0x70 ≠ 0 then none
  else do
    let shift := U32.saturatingMul (← U32.tryFrom i) 7
    let shifted ← U32.checkedShl data shift
    some (result ||| shifted, byte &&& 0x80 = 0)

/-- The loop of `leading_varint_u32`. -/
def leadingVarintLoop (result : UInt32) : List (UInt8 × Nat) → Option UInt32
  | [] => none
  | (byte, i) :: rest =>
    match varintStep i byte result with
    | none => none
    | some (result, true) => some result
    | some (result, false) => leadingVarintLoop result rest

/-- `leading_varint_u32`. -/
def leadingVarintU32 (frame : List UInt8) : Option UInt32 :=
  leadingVarintLoop 0 (frame.take 5).zipIdx

/-- The loop of `decode_varint_prefix`, which finds nothing when it runs out of bytes. -/
def decodeVarintLoop (result : UInt32) :
    List (UInt8 × Nat) → Except FrameError (Option (UInt32 × Nat))
  | [] => .ok none
  | (byte, i) :: rest =>
    match varintStep i byte result with
    | none => .error .varint
    | some (result, true) => .ok (some (result, i + 1))
    | some (result, false) => decodeVarintLoop result rest

/-- `decode_varint_prefix`. -/
def decodeVarintPrefix (buf : List UInt8) : Except FrameError (Option (UInt32 × Nat)) :=
  match decodeVarintLoop 0 (buf.take 5).zipIdx with
  | .error e => .error e
  | .ok (some found) => .ok (some found)
  | .ok none => if 5 ≤ buf.length then .error .varint else .ok none

/-- The loop of `read_varint_u32` over the indices still to do. -/
def readVarintLoop (result : UInt32) :
    List Nat → List UInt8 → Except FrameError (UInt32 × List UInt8)
  | [], _ => .error .varint
  | i :: indices, r =>
    match readExact 1 r with
    | .error e => .error e
    | .ok (b, r) =>
      match varintStep i (b.getD 0 0) result with
      | none => .error .varint
      | some (result, true) => .ok (result, r)
      | some (result, false) => readVarintLoop result indices r

/-- `read_varint_u32`. -/
def readVarintU32 (r : List UInt8) : Except FrameError (UInt32 × List UInt8) :=
  readVarintLoop 0 (List.range 5) r

/-- `encode_varint_u32` over the slots of the buffer not yet written: the buffer after it, and
the number of bytes written.  The encode stops when no slot is left. -/
def encodeVarintU32 (value : UInt32) : List UInt8 → List UInt8 × Nat
  | [] => ([], 0)
  | _ :: out =>
    let byte := (value &&& 0x7F).toUInt8
    let value := value >>> 7
    if value = 0 then (byte :: out, 1)
    else
      let (out, idx) := encodeVarintU32 value out
      ((byte ||| 0x80) :: out, idx + 1)

/-- `write_varint_u32`. -/
def writeVarintU32 (value : UInt32) : Except FrameError (List UInt8) :=
  let (buf, idx) := encodeVarintU32 value (List.replicate 5 0)
  if idx ≤ buf.length then .ok (buf.take idx) else .error (.io .other)

/-! ## Frames -/

/-- `parse_frame`: the length of the header and of the payload. -/
def parseFrame (buf : List UInt8) (max : UInt32) : Except FrameError (Option (Nat × Nat)) := do
  match ← decodeVarintPrefix buf with
  | none => return none
  | some (len, headerLen) =>
    if max < len then throw (.tooLarge len.toUInt64 max)
    let payloadLen := len.toNat
    if buf.length - headerLen < payloadLen then return none
    return some (headerLen, payloadLen)

/-- `read_frame`: the payload and the bytes after it. -/
def readFrame (r : List UInt8) (max : UInt32) : Except FrameError (List UInt8 × List UInt8) := do
  let (len, r) ← readVarintU32 r
  if max < len then throw (.tooLarge len.toUInt64 max)
  readExact len.toNat r

/-- `write_frame`: the bytes put on the stream. -/
def writeFrame (payload : List UInt8) : Except FrameError (List UInt8) :=
  match U32.tryFrom payload.length with
  | none => .error (.tooLarge ((U64.tryFrom payload.length).getD (UInt64.ofNat u64Max)) U32.max)
  | some len => do
    let header ← writeVarintU32 len
    return header ++ payload

/-- What a caller of `parse_frame` takes off its buffer: the payload, together with the header
and payload bytes it drains. -/
def frameDecoder (max : UInt32) : Incremental.Decoder UInt8 FrameError (List UInt8) :=
  fun buf => do
    match ← parseFrame buf max with
    | none => return none
    | some (headerLen, payloadLen) =>
      return some ((buf.drop headerLen).take payloadLen, headerLen + payloadLen)

/-! ## Bits of a byte -/

theorem varintStep_eq {i : Nat} (hi : i < 5) (byte : UInt8) (result : UInt32) :
    varintStep i byte result =
      if i = 4 ∧ byte &&& 0x70 ≠ 0 then none
      else some (result ||| (byte &&& 0x7F).toUInt32 <<< UInt32.ofNat (7 * i),
        decide (byte &&& 0x80 = 0)) := by
  have hseven : (7 : UInt32).toNat = 7 := rfl
  have hwidth : (32 : UInt32).toNat = 32 := rfl
  have hindex : U32.tryFrom i = some (UInt32.ofNat i) := if_pos (by omega)
  have hmul : U32.saturatingMul (UInt32.ofNat i) 7 = UInt32.ofNat (7 * i) := by
    unfold U32.saturatingMul
    rw [U32.toNat_ofNat (by omega), hseven, Nat.mul_comm, min_eq_left (by omega)]
  have hfits : UInt32.ofNat (7 * i) < 32 := by
    rw [UInt32.lt_iff_toNat_lt, U32.toNat_ofNat (by omega), hwidth]
    omega
  unfold varintStep
  simp only [hindex, hmul, U32.checkedShl, if_pos hfits, Option.bind_eq_bind, Option.bind_some]

theorem toNat_low7 (b : UInt8) : (b &&& 0x7F).toNat = b.toNat % 128 := by
  rw [UInt8.toNat_and]
  exact Nat.and_two_pow_sub_one_eq_mod b.toNat 7

theorem last_iff (b : UInt8) : b &&& 0x80 = 0 ↔ b.toNat < 128 := by
  have hb := b.toNat_lt
  have hbit : (b &&& 0x80).toNat = (b.toNat.testBit 7).toNat * 2 ^ 7 := by
    rw [UInt8.toNat_and]
    exact Nat.and_two_pow b.toNat 7
  rw [← UInt8.toNat_inj, hbit, Nat.testBit_eq_decide_div_mod_eq]
  by_cases h : b.toNat < 128
  · simp [h, Nat.div_eq_of_lt h]
  · have hone : b.toNat / 128 % 2 = 1 := by omega
    simp [hone, h]

theorem fifth_fits {b : UInt8} (h : b.toNat < 16) : b &&& 0x70 = 0 := by
  have hlow : ∀ n < 16, n &&& 0x70 = 0 := by decide
  rw [← UInt8.toNat_inj, UInt8.toNat_and]
  exact hlow b.toNat h

theorem toNat_or_shift {result data : UInt32} {k : Nat} (hk : k < 32)
    (hresult : result.toNat < 2 ^ k)
    (hdata : data.toNat * 2 ^ k < 2 ^ 32) :
    (result ||| data <<< UInt32.ofNat k).toNat = result.toNat + data.toNat * 2 ^ k := by
  have hshift : (data <<< UInt32.ofNat k).toNat = data.toNat * 2 ^ k := by
    rw [UInt32.toNat_shiftLeft, U32.toNat_ofNat (by omega), Nat.mod_eq_of_lt hk, Nat.shiftLeft_eq,
      Nat.mod_eq_of_lt hdata]
  rw [UInt32.toNat_or, hshift, Nat.or_comm, Nat.mul_comm, ← Nat.two_pow_add_eq_or_of_lt hresult,
    Nat.add_comm]

theorem toNat_value_low7 (value : UInt32) : (value &&& 0x7F).toUInt8.toNat = value.toNat % 128 := by
  have hlow : (value &&& 0x7F).toNat = value.toNat % 128 := by
    rw [UInt32.toNat_and]
    exact Nat.and_two_pow_sub_one_eq_mod value.toNat 7
  rw [UInt32.toNat_toUInt8, hlow]
  omega

theorem toNat_shiftRight7 (value : UInt32) : (value >>> 7).toNat = value.toNat / 128 := by
  rw [UInt32.toNat_shiftRight]
  exact Nat.shiftRight_eq_div_pow value.toNat 7

theorem toNat_continued (byte : UInt8) (h : byte.toNat < 128) :
    (byte ||| 0x80).toNat = byte.toNat + 128 := by
  rw [UInt8.toNat_or, Nat.or_comm]
  exact (Nat.two_pow_add_eq_or_of_lt (i := 7) h 1).symm.trans (Nat.add_comm _ _)

/-! ## One step -/

/-- A byte with seven bits of the value and its continuation bit is read back. -/
theorem varintStep_byte {i : Nat} {result : UInt32} (byte : UInt8) (hi : i < 5)
    (hresult : result.toNat < 2 ^ (7 * i)) (hdata : byte.toNat % 128 * 2 ^ (7 * i) < 2 ^ 32)
    (hfifth : i = 4 → byte.toNat < 16) :
    ∃ next, varintStep i byte result = some (next, decide (byte.toNat < 128)) ∧
      next.toNat = result.toNat + byte.toNat % 128 * 2 ^ (7 * i) := by
  refine ⟨result ||| (byte &&& 0x7F).toUInt32 <<< UInt32.ofNat (7 * i), ?_, ?_⟩
  · rw [varintStep_eq hi, if_neg]
    · simp only [last_iff]
    · rintro ⟨rfl, hover⟩
      exact hover (fifth_fits (hfifth rfl))
  · have hlow : (byte &&& 0x7F).toUInt32.toNat = byte.toNat % 128 := by
      rw [UInt8.toNat_toUInt32, toNat_low7]
    rw [toNat_or_shift (by omega) hresult (by rwa [hlow]), hlow]

/-! ## The decoding loops -/

theorem decodeVarintLoop_error {result : UInt32} {bytes : List (UInt8 × Nat)} {e : FrameError}
    (h : decodeVarintLoop result bytes = .error e) : e = .varint := by
  induction bytes generalizing result with
  | nil => cases h
  | cons head rest ih =>
    rcases head with ⟨byte, i⟩
    unfold decodeVarintLoop at h
    split at h
    · cases h
      rfl
    · cases h
    · exact ih h

/-- What the loop found is behind its first byte and within its bytes. -/
theorem decodeVarintLoop_index {result value : UInt32} {bytes : List UInt8} {i n : Nat}
    (h : decodeVarintLoop result (bytes.zipIdx i) = .ok (some (value, n))) :
    i < n ∧ n ≤ i + bytes.length := by
  induction bytes generalizing result i with
  | nil => cases h
  | cons byte rest ih =>
    rw [List.zipIdx_cons, decodeVarintLoop] at h
    rw [List.length_cons]
    split at h
    · cases h
    · cases h
      omega
    · have hrest := ih h
      omega

theorem decodeVarintLoop_found {result : UInt32} {bytes : List (UInt8 × Nat)}
    {found : UInt32 × Nat} (h : decodeVarintLoop result bytes = .ok (some found))
    (more : List (UInt8 × Nat)) : decodeVarintLoop result (bytes ++ more) = .ok (some found) := by
  induction bytes generalizing result with
  | nil => cases h
  | cons head rest ih =>
    rcases head with ⟨byte, i⟩
    rw [List.cons_append]
    unfold decodeVarintLoop at h ⊢
    split at h
    · cases h
    · exact h
    · exact ih h

theorem decodeVarintLoop_refused {result : UInt32} {bytes : List (UInt8 × Nat)} {e : FrameError}
    (h : decodeVarintLoop result bytes = .error e) (more : List (UInt8 × Nat)) :
    decodeVarintLoop result (bytes ++ more) = .error e := by
  induction bytes generalizing result with
  | nil => cases h
  | cons head rest ih =>
    rcases head with ⟨byte, i⟩
    rw [List.cons_append]
    unfold decodeVarintLoop at h ⊢
    split at h
    · exact h
    · cases h
    · exact ih h

theorem leadingVarintLoop_eq (result : UInt32) (bytes : List (UInt8 × Nat)) :
    leadingVarintLoop result bytes =
      match decodeVarintLoop result bytes with
      | .ok (some (value, _)) => some value
      | .ok none => none
      | .error _ => none := by
  induction bytes generalizing result with
  | nil => rfl
  | cons head rest ih =>
    rcases head with ⟨byte, i⟩
    unfold leadingVarintLoop decodeVarintLoop
    split
    · rfl
    · rfl
    · exact ih _

theorem readExact_one (byte : UInt8) (rest : List UInt8) :
    readExact 1 (byte :: rest) = .ok ([byte], rest) :=
  rfl

theorem readVarintLoop_eq {k i : Nat} (result : UInt32) (r : List UInt8) :
    readVarintLoop result (List.range' i k) r =
      match decodeVarintLoop result ((r.take k).zipIdx i) with
      | .ok (some (value, n)) => .ok (value, r.drop (n - i))
      | .ok none => .error (if k ≤ r.length then .varint else .io .unexpectedEof)
      | .error e => .error e := by
  induction k generalizing i result r with
  | zero => rfl
  | succ k ih =>
    cases r with
    | nil => rfl
    | cons byte rest =>
      rw [List.range'_succ, List.take_succ_cons, List.zipIdx_cons]
      unfold readVarintLoop decodeVarintLoop
      simp only [readExact_one, List.getD_cons_zero]
      split
      · rfl
      · dsimp only
        rw [Nat.add_sub_cancel_left, List.drop_succ_cons, List.drop_zero]
      · rw [ih]
        split
        · rename_i value n hfound
          have hindex := decodeVarintLoop_index hfound
          obtain ⟨m, rfl⟩ := Nat.exists_eq_add_of_lt hindex.1
          rw [show i + 1 + m + 1 - (i + 1) = m + 1 by omega,
            show i + 1 + m + 1 - i = m + 1 + 1 by omega, List.drop_succ_cons]
        · rw [List.length_cons]
          simp only [Nat.add_le_add_iff_right]
        · rfl

/-! ## The three decoders -/

theorem leadingVarintU32_eq (frame : List UInt8) :
    leadingVarintU32 frame =
      match decodeVarintPrefix frame with
      | .ok (some (value, _)) => some value
      | .ok none => none
      | .error _ => none := by
  unfold leadingVarintU32 decodeVarintPrefix
  rw [leadingVarintLoop_eq]
  split
  · rename_i hloop
    rw [hloop]
  · rename_i hloop
    rw [hloop]
    by_cases hlong : 5 ≤ frame.length
    · simp only [if_pos hlong]
    · simp only [if_neg hlong]
  · rename_i hloop
    rw [hloop]

theorem readVarintU32_eq (r : List UInt8) :
    readVarintU32 r =
      match decodeVarintPrefix r with
      | .ok (some (value, n)) => .ok (value, r.drop n)
      | .ok none => .error (.io .unexpectedEof)
      | .error e => .error e := by
  unfold readVarintU32 decodeVarintPrefix
  rw [List.range_eq_range', readVarintLoop_eq]
  split
  · rename_i hloop
    rw [hloop]
    rfl
  · rename_i hloop
    rw [hloop]
    dsimp only
    split
    · rfl
    · rfl
  · rename_i hloop
    rw [hloop]

theorem decodeVarintPrefix_error {buf : List UInt8} {e : FrameError}
    (h : decodeVarintPrefix buf = .error e) : e = .varint := by
  unfold decodeVarintPrefix at h
  split at h
  · cases h
    exact decodeVarintLoop_error ‹_›
  · cases h
  · split at h
    · cases h
      rfl
    · cases h

theorem decodeVarintPrefix_index {buf : List UInt8} {value : UInt32} {n : Nat}
    (h : decodeVarintPrefix buf = .ok (some (value, n))) : 0 < n ∧ n ≤ buf.length := by
  unfold decodeVarintPrefix at h
  split at h
  · cases h
  · rename_i hloop
    cases h
    have hindex := decodeVarintLoop_index hloop
    rw [List.length_take] at hindex
    omega
  · split at h
    · cases h
    · cases h

/-- Bytes that arrive later stand behind the five the decoder looks at. -/
theorem zipIdx_take_append (buf more : List UInt8) :
    ((buf ++ more).take 5).zipIdx =
      (buf.take 5).zipIdx ++ (more.take (5 - buf.length)).zipIdx (buf.take 5).length := by
  rw [List.take_append, List.zipIdx_append, Nat.zero_add]

theorem decodeVarintPrefix_found {buf : List UInt8} {found : UInt32 × Nat}
    (h : decodeVarintPrefix buf = .ok (some found)) (more : List UInt8) :
    decodeVarintPrefix (buf ++ more) = .ok (some found) := by
  unfold decodeVarintPrefix at h ⊢
  split at h
  · cases h
  · rename_i hloop
    cases h
    rw [zipIdx_take_append, decodeVarintLoop_found hloop]
  · split at h
    · cases h
    · cases h

theorem decodeVarintPrefix_refused {buf : List UInt8} {e : FrameError}
    (h : decodeVarintPrefix buf = .error e) (more : List UInt8) :
    decodeVarintPrefix (buf ++ more) = .error e := by
  unfold decodeVarintPrefix at h ⊢
  split at h
  · rename_i hloop
    cases h
    rw [zipIdx_take_append, decodeVarintLoop_refused hloop]
  · cases h
  · rename_i hloop
    split at h
    · rename_i hlong
      have htake : (buf ++ more).take 5 = buf.take 5 := List.take_append_of_le_length hlong
      rw [htake, hloop]
      dsimp only
      rw [List.length_append, if_pos (by omega)]
      exact h
    · cases h

/-! ## The encoder -/

theorem length_encodeVarintU32 (value : UInt32) (out : List UInt8) :
    (encodeVarintU32 value out).1.length = out.length ∧
      (encodeVarintU32 value out).2 ≤ out.length := by
  induction out generalizing value with
  | nil => exact ⟨rfl, le_rfl⟩
  | cons slot out ih =>
    have hrest := ih (value >>> 7)
    unfold encodeVarintU32
    dsimp only
    split
    · simp
    · simp only [List.length_cons]
      omega

/-- The bytes `encode_varint_u32` writes. -/
def varintBytes (value : UInt32) (out : List UInt8) : List UInt8 :=
  (encodeVarintU32 value out).1.take (encodeVarintU32 value out).2

theorem varintBytes_cons (value : UInt32) (slot : UInt8) (out : List UInt8) :
    varintBytes value (slot :: out) =
      if value >>> 7 = 0 then [(value &&& 0x7F).toUInt8]
      else ((value &&& 0x7F).toUInt8 ||| 0x80) :: varintBytes (value >>> 7) out := by
  unfold varintBytes
  rw [encodeVarintU32]
  dsimp only
  split
  · rfl
  · rfl

theorem length_varintBytes (value : UInt32) (out : List UInt8) :
    (varintBytes value out).length = (encodeVarintU32 value out).2 := by
  have hlen := length_encodeVarintU32 value out
  rw [varintBytes, List.length_take]
  omega

/-- The loop reads back what the encoder wrote from any slot on.  The value read so far fills the
bits below the slot, and the value still to come fits above them. -/
theorem decodeVarintLoop_varintBytes {i : Nat} (value result : UInt32) (out : List UInt8)
    (hslots : i + out.length = 5) (hi : i < 5) (hresult : result.toNat < 2 ^ (7 * i))
    (hvalue : value.toNat * 2 ^ (7 * i) < 2 ^ 32) :
    ∃ all, decodeVarintLoop result ((varintBytes value out).zipIdx i) =
        .ok (some (all, i + (varintBytes value out).length)) ∧
      all.toNat = result.toNat + value.toNat * 2 ^ (7 * i) := by
  induction out generalizing i value result with
  | nil =>
    rw [List.length_nil] at hslots
    omega
  | cons slot out ih =>
    rw [List.length_cons] at hslots
    have hsplit : value.toNat * 2 ^ (7 * i) =
        value.toNat % 128 * 2 ^ (7 * i) + value.toNat / 128 * 2 ^ (7 * (i + 1)) := by
      conv_lhs => rw [← Nat.mod_add_div value.toNat 128]
      rw [Nat.mul_succ, pow_add]
      ring
    have hlow := toNat_value_low7 value
    have hzero : value >>> 7 = 0 ↔ value.toNat / 128 = 0 := by
      rw [← UInt32.toNat_inj, toNat_shiftRight7]
      rfl
    have hmod : value.toNat % 128 < 128 := Nat.mod_lt _ (by decide)
    -- a value with a fifth byte has only four bits left for it
    have hfour : i = 4 → value.toNat < 16 := by
      rintro rfl
      omega
    rw [varintBytes_cons]
    split
    · rename_i hlast
      rw [hzero] at hlast
      rw [List.zipIdx_singleton, List.length_singleton]
      unfold decodeVarintLoop
      have hbyte : (value &&& 0x7F).toUInt8.toNat % 128 = value.toNat % 128 := by
        rw [hlow, Nat.mod_mod]
      have hdata : (value &&& 0x7F).toUInt8.toNat % 128 * 2 ^ (7 * i) < 2 ^ 32 := by
        rw [hbyte]
        omega
      have hfifth : i = 4 → (value &&& 0x7F).toUInt8.toNat < 16 := by
        intro h
        have := hfour h
        omega
      rcases varintStep_byte _ hi hresult hdata hfifth with ⟨all, hstep, hall⟩
      rw [hstep, hlow, decide_eq_true hmod]
      refine ⟨all, rfl, ?_⟩
      rw [hall, hbyte, hsplit, hlast, Nat.zero_mul, Nat.add_zero]
    · rename_i hmore
      rw [hzero] at hmore
      have hcontinued := toNat_continued (value &&& 0x7F).toUInt8 (by omega)
      have hbyte : ((value &&& 0x7F).toUInt8 ||| 0x80).toNat % 128 = value.toNat % 128 := by
        rw [hcontinued, hlow]
        omega
      have hnotlast : ¬ ((value &&& 0x7F).toUInt8 ||| 0x80).toNat < 128 := by
        rw [hcontinued]
        omega
      have hdata : ((value &&& 0x7F).toUInt8 ||| 0x80).toNat % 128 * 2 ^ (7 * i) < 2 ^ 32 := by
        rw [hbyte]
        omega
      have hfifth : i = 4 → ((value &&& 0x7F).toUInt8 ||| 0x80).toNat < 16 := by
        intro h
        have := hfour h
        omega
      rcases varintStep_byte _ hi hresult hdata hfifth with ⟨next, hstep, hnext⟩
      rw [List.zipIdx_cons, decodeVarintLoop, hstep, decide_eq_false hnotlast, List.length_cons]
      dsimp only
      have hpow : 2 ^ (7 * (i + 1)) = 128 * 2 ^ (7 * i) := by
        rw [Nat.mul_succ, pow_add]
        ring
      have hroom : 1 * 2 ^ (7 * (i + 1)) ≤ value.toNat / 128 * 2 ^ (7 * (i + 1)) :=
        Nat.mul_le_mul_right _ (by omega)
      have hi' : i + 1 < 5 := by
        by_contra hfive
        have : i = 4 := by omega
        have := hfour this
        omega
      have hnextlt : next.toNat < 2 ^ (7 * (i + 1)) := by
        have := Nat.mul_le_mul_right (2 ^ (7 * i)) (Nat.le_of_lt_succ hmod)
        rw [hnext, hbyte]
        omega
      have hvalue' : (value >>> 7).toNat * 2 ^ (7 * (i + 1)) < 2 ^ 32 := by
        rw [toNat_shiftRight7]
        omega
      rcases ih (value >>> 7) next (by omega) hi' hnextlt hvalue' with ⟨all, hloop, hall⟩
      refine ⟨all, ?_, ?_⟩
      · rw [hloop]
        congr 3
        omega
      · rw [hall, hnext, hbyte, toNat_shiftRight7, hsplit]
        omega

/-- The header `write_varint_u32` puts on the stream. -/
def encoded (value : UInt32) : List UInt8 := varintBytes value (List.replicate 5 0)

theorem writeVarintU32_eq (value : UInt32) : writeVarintU32 value = .ok (encoded value) := by
  have hlen := length_encodeVarintU32 value (List.replicate 5 0)
  unfold writeVarintU32
  dsimp only
  rw [if_pos (by omega)]
  rfl

/-- Decoding what was encoded gives the value back, whatever follows. -/
theorem decodeVarintPrefix_encode (value : UInt32) (rest : List UInt8) :
    decodeVarintPrefix (encoded value ++ rest) = .ok (some (value, (encoded value).length)) := by
  have hlen : (encoded value).length ≤ 5 := by
    have hwritten := length_encodeVarintU32 value (List.replicate 5 0)
    rw [encoded, length_varintBytes]
    exact hwritten.2
  have hvalue := value.toNat_lt
  rcases decodeVarintLoop_varintBytes value 0 (List.replicate 5 0) (Nat.zero_add 5) (by decide)
    (by decide) (by omega) with ⟨all, hloop, hall⟩
  have hsame : all = value := by
    rw [← UInt32.toNat_inj, hall]
    exact (Nat.zero_add _).trans (Nat.mul_one _)
  subst hsame
  rw [Nat.zero_add, ← encoded] at hloop
  have htake : (encoded all).take 5 = encoded all := List.take_of_length_le hlen
  unfold decodeVarintPrefix
  rw [zipIdx_take_append, htake, decodeVarintLoop_found hloop]

/-! ## Frames -/

/-- The locator, with its early returns as branches. -/
theorem parseFrame_eq (buf : List UInt8) (max : UInt32) :
    parseFrame buf max =
      match decodeVarintPrefix buf with
      | .error e => .error e
      | .ok none => .ok none
      | .ok (some (len, headerLen)) =>
        if max < len then .error (.tooLarge len.toUInt64 max)
        else if buf.length - headerLen < len.toNat then .ok none
        else .ok (some (headerLen, len.toNat)) := by
  unfold parseFrame
  rcases decodeVarintPrefix buf with e | _ | ⟨len, headerLen⟩
  · rfl
  · rfl
  · dsimp only [bind, Except.bind]
    split
    · rfl
    · split
      · rfl
      · rfl

/-- The locator refuses a malformed prefix and a length above its ceiling, and nothing else. -/
theorem parseFrame_error {buf : List UInt8} {max : UInt32} {e : FrameError}
    (h : parseFrame buf max = .error e) : e = .varint ∨ ∃ len, e = .tooLarge len max := by
  rw [parseFrame_eq] at h
  split at h
  · cases h
    exact .inl (decodeVarintPrefix_error ‹_›)
  · cases h
  · split at h
    · cases h
      exact .inr ⟨_, rfl⟩
    · split at h
      · cases h
      · cases h

/-- A frame the locator finds is in the buffer. -/
theorem parseFrame_within {buf : List UInt8} {max : UInt32} {headerLen payloadLen : Nat}
    (h : parseFrame buf max = .ok (some (headerLen, payloadLen))) :
    0 < headerLen ∧ headerLen + payloadLen ≤ buf.length := by
  rw [parseFrame_eq] at h
  split at h
  · cases h
  · cases h
  · rename_i hprefix
    have hindex := decodeVarintPrefix_index hprefix
    split at h
    · cases h
    · split at h
      · cases h
      · cases h
        omega

theorem parseFrame_found {buf : List UInt8} {max : UInt32} {frame : Nat × Nat}
    (h : parseFrame buf max = .ok (some frame)) (more : List UInt8) :
    parseFrame (buf ++ more) max = .ok (some frame) := by
  rw [parseFrame_eq] at h ⊢
  split at h
  · cases h
  · cases h
  · rename_i hprefix
    rw [decodeVarintPrefix_found hprefix]
    dsimp only
    split at h
    · cases h
    · rename_i hceiling
      split at h
      · cases h
      · rename_i hroom
        rw [if_neg hceiling, List.length_append, if_neg (by omega)]
        exact h

theorem parseFrame_refused {buf : List UInt8} {max : UInt32} {e : FrameError}
    (h : parseFrame buf max = .error e) (more : List UInt8) :
    parseFrame (buf ++ more) max = .error e := by
  rw [parseFrame_eq] at h ⊢
  split at h
  · rename_i hprefix
    rw [decodeVarintPrefix_refused hprefix]
    exact h
  · cases h
  · rename_i hprefix
    rw [decodeVarintPrefix_found hprefix]
    dsimp only
    split at h
    · rename_i hceiling
      rw [if_pos hceiling]
      exact h
    · split at h
      · cases h
      · cases h

/-- The reader returns the payload the locator finds and leaves the bytes behind it, refuses
what the locator refuses, and meets the end of the stream where the locator asks for more. -/
theorem readFrame_eq (buf : List UInt8) (max : UInt32) :
    readFrame buf max =
      match parseFrame buf max with
      | .ok (some (headerLen, payloadLen)) =>
        .ok ((buf.drop headerLen).take payloadLen, buf.drop (headerLen + payloadLen))
      | .ok none => .error (.io .unexpectedEof)
      | .error e => .error e := by
  unfold readFrame
  rw [parseFrame_eq, readVarintU32_eq]
  rcases decodeVarintPrefix buf with e | _ | ⟨len, headerLen⟩
  · rfl
  · rfl
  · dsimp only [bind, Except.bind]
    split
    · rfl
    · unfold readExact
      rw [List.length_drop]
      by_cases hshort : buf.length - headerLen < len.toNat
      · rw [if_pos hshort, if_neg (by omega)]
      · rw [if_neg hshort, if_pos (by omega), List.drop_drop]

/-! ## Streams of frames -/

theorem frameDecoder_eq (buf : List UInt8) (max : UInt32) :
    frameDecoder max buf =
      match parseFrame buf max with
      | .error e => .error e
      | .ok none => .ok none
      | .ok (some (headerLen, payloadLen)) =>
        .ok (some ((buf.drop headerLen).take payloadLen, headerLen + payloadLen)) := by
  unfold frameDecoder
  rcases parseFrame buf max with e | _ | frame
  · rfl
  · rfl
  · rfl

/-- No verdict on a buffer is changed by bytes that arrive after it. -/
theorem frameDecoder_stable (max : UInt32) : Incremental.Stable (frameDecoder max) where
  empty := rfl
  found := by
    intro buf item h more
    rw [frameDecoder_eq] at h ⊢
    split at h
    · cases h
    · cases h
    · rename_i headerLen payloadLen hframe
      have hwithin := parseFrame_within hframe
      rw [parseFrame_found hframe]
      dsimp only
      rw [List.drop_append_of_le_length (by omega), List.take_append_of_le_length]
      · exact h
      · rw [List.length_drop]
        omega
  refused := by
    intro buf e h more
    rw [frameDecoder_eq] at h ⊢
    split at h
    · rename_i hframe
      rw [parseFrame_refused hframe]
      exact h
    · cases h
    · cases h
  taken := by
    intro buf item n h
    rw [frameDecoder_eq] at h
    split at h
    · cases h
    · cases h
    · rename_i hframe
      have hwithin := parseFrame_within hframe
      cases h
      omega

/-- A frame within the ceiling is written, and read back whatever follows it. -/
theorem writeFrame_encodes {payload : List UInt8} {max : UInt32}
    (h : payload.length ≤ max.toNat) :
    ∃ frame, writeFrame payload = .ok frame ∧
      Incremental.Encodes (frameDecoder max) payload frame := by
  have hmax := max.toNat_lt
  have hlen : (UInt32.ofNat payload.length).toNat = payload.length := U32.toNat_ofNat (by omega)
  refine ⟨encoded (UInt32.ofNat payload.length) ++ payload, ?_, ?_⟩
  · have hfits : U32.tryFrom payload.length = some (UInt32.ofNat payload.length) :=
      if_pos (by omega)
    unfold writeFrame
    rw [hfits]
    dsimp only
    rw [writeVarintU32_eq]
    rfl
  · intro rest
    have hceiling : ¬ max < UInt32.ofNat payload.length := by
      rw [UInt32.lt_iff_toNat_lt, hlen]
      omega
    rw [frameDecoder_eq, parseFrame_eq, List.append_assoc, decodeVarintPrefix_encode]
    dsimp only
    rw [if_neg hceiling, hlen, List.length_append, List.length_append, if_neg (by omega)]
    dsimp only
    rw [List.drop_left, List.take_left, List.length_append]

/-- The frames of a list of payloads, one for each. -/
theorem writeFrames_encode {payloads : List (List UInt8)} {max : UInt32}
    (h : ∀ payload ∈ payloads, payload.length ≤ max.toNat) :
    ∃ frames, payloads.mapM writeFrame = .ok frames ∧
      List.Forall₂ (Incremental.Encodes (frameDecoder max)) payloads frames := by
  induction payloads with
  | nil => exact ⟨[], rfl, .nil⟩
  | cons payload payloads ih =>
    rcases writeFrame_encodes (h payload List.mem_cons_self) with ⟨frame, hframe, hencodes⟩
    rcases ih fun p hp => h p (List.mem_cons_of_mem payload hp) with ⟨frames, hframes, hrest⟩
    refine ⟨frame :: frames, ?_, .cons hencodes hrest⟩
    rw [mapM_eq_ok] at hframes ⊢
    exact .cons hframe hframes

/-- Frames cut into reads at any place come out whole and in order; the buffered and the
asynchronous reader agree on every buffer; no verdict is changed by later bytes; and the three
varint decoders accept the same prefixes with the same value and invert the encoder. -/
theorem framing_sound :
    (∀ (max : UInt32) (payloads : List (List UInt8)),
      (∀ payload ∈ payloads, payload.length ≤ max.toNat) →
      ∃ frames, payloads.mapM writeFrame = .ok frames ∧
        ∀ reads : List (List UInt8), reads.flatten = frames.flatten →
          Incremental.receive (frameDecoder max) [] reads = (payloads, .ok [])) ∧
    (∀ (buf : List UInt8) (max : UInt32),
      readFrame buf max =
        match parseFrame buf max with
        | .ok (some (headerLen, payloadLen)) =>
          .ok ((buf.drop headerLen).take payloadLen, buf.drop (headerLen + payloadLen))
        | .ok none => .error (.io .unexpectedEof)
        | .error e => .error e) ∧
    (∀ (buf : List UInt8) (max : UInt32) (headerLen payloadLen : Nat),
      parseFrame buf max = .ok (some (headerLen, payloadLen)) →
      headerLen + payloadLen ≤ buf.length) ∧
    (∀ (buf : List UInt8) (max : UInt32) (e : FrameError), parseFrame buf max = .error e →
      e = .varint ∨ ∃ len, e = .tooLarge len max) ∧
    (∀ (buf more : List UInt8) (max : UInt32),
      (∀ frame, parseFrame buf max = .ok (some frame) →
        parseFrame (buf ++ more) max = .ok (some frame)) ∧
      ∀ e, parseFrame buf max = .error e → parseFrame (buf ++ more) max = .error e) ∧
    (∀ buf : List UInt8,
      leadingVarintU32 buf =
        match decodeVarintPrefix buf with
        | .ok (some (value, _)) => some value
        | .ok none => none
        | .error _ => none) ∧
    (∀ buf : List UInt8,
      readVarintU32 buf =
        match decodeVarintPrefix buf with
        | .ok (some (value, n)) => .ok (value, buf.drop n)
        | .ok none => .error (.io .unexpectedEof)
        | .error e => .error e) ∧
    ∀ (value : UInt32) (rest : List UInt8),
      decodeVarintPrefix (encoded value ++ rest) = .ok (some (value, (encoded value).length)) := by
  refine ⟨?_, readFrame_eq, fun _ _ _ _ h => (parseFrame_within h).2,
    fun _ _ _ h => parseFrame_error h,
    fun _ more _ => ⟨fun _ h => parseFrame_found h more, fun _ h => parseFrame_refused h more⟩,
    leadingVarintU32_eq, readVarintU32_eq, decodeVarintPrefix_encode⟩
  intro max payloads hceiling
  rcases writeFrames_encode hceiling with ⟨frames, hwrite, hencodes⟩
  refine ⟨frames, hwrite, ?_⟩
  intro reads hreads
  rw [Incremental.receive_eq_drain (frameDecoder_stable max) rfl, hreads, List.nil_append]
  exact Incremental.drain_encoded (frameDecoder_stable max) hencodes

end Decdn.Protocol
