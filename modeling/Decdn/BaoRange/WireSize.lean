import Decdn.Foundations.PreorderWalk
import Decdn.Foundations.Words
import Mathlib.Tactic.Ring

/-!
# The wire size of a verified range

How many bytes a verified range of a blob takes on the wire (`bao-range`).  The
encoding walks the left-full tree over the blob's chunk groups in pre-order and
writes 64 bytes for each parent it passes and the data of each group.  The code
counts the parents in closed form.

Main results:

- Theorem `intersectingParents_eq`: the closed form counts the parents of the walk.
- Theorem `aligned_shape`: what an aligned request asks for.
- Theorem `aligned_wire_size_walk`: the closed form is the size of the walk, capped
  at the 64-bit bound, and the walk of a longer range goes on from that of a shorter.
-/

namespace Decdn.BaoRange

open BinTree
open U64 (saturatingAdd)

/-! ## Aligning a request -/

/-- `CHUNK_GROUP_BYTES`. -/
def chunkGroupBytes : Nat := 16384

/-- Chunks of 1024 bytes in a group. -/
def groupChunks : Nat := 16

/-- `PARENT_WIRE_BYTES`. -/
def parentWireBytes : Nat := 64

/-- Division that rounds up. -/
def divCeil (a b : Nat) : Nat := (a + b - 1) / b

/-- Multiplication clamped at the largest 64-bit value. -/
def saturatingMul (a b : Nat) : Nat := min (a * b) u64Max

/-- A set of chunks, by its boundaries. -/
abbrev ChunkRanges := List Nat

/-- The chunks from `start` to `stop`. -/
def ChunkRanges.ofRange (start stop : Nat) : ChunkRanges :=
  if start < stop then [start, stop] else []

/-- `AlignedRange`. -/
structure AlignedRange where
  fetchStart : Nat
  fetchEnd : Nat
  chunkRanges : ChunkRanges
  blobSize : Nat
deriving DecidableEq, Repr

/-- `RangeVerifyError::RangeOutOfBounds`. -/
structure RangeOutOfBounds where
  offset : Nat
  len : Nat
  blobSize : Nat
deriving DecidableEq, Repr

/-- `build_aligned_range`. -/
def buildAlignedRange (byteOffset stop blobSize : Nat) : AlignedRange :=
  let fetchStart := byteOffset / chunkGroupBytes * chunkGroupBytes
  let fetchEnd := min (saturatingMul (divCeil stop chunkGroupBytes) chunkGroupBytes) blobSize
  ⟨fetchStart, fetchEnd, .ofRange (fetchStart / 1024) (divCeil fetchEnd 1024), blobSize⟩

/-- A request that starts outside the blob. -/
def startsOutside (byteOffset byteLen blobSize : Nat) : Bool :=
  if blobSize = 0 then byteOffset ≠ 0 ∨ byteLen ≠ 0 else blobSize ≤ byteOffset

/-- `align_range`. -/
def alignRange (byteOffset byteLen blobSize : Nat) : Except RangeOutOfBounds AlignedRange :=
  if startsOutside byteOffset byteLen blobSize then .error ⟨byteOffset, byteLen, blobSize⟩
  else if byteLen = 0 then .ok (buildAlignedRange byteOffset blobSize blobSize)
  else if u64Max < byteOffset + byteLen then .error ⟨byteOffset, byteLen, blobSize⟩
  else if blobSize < byteOffset + byteLen then .error ⟨byteOffset, byteLen, blobSize⟩
  else .ok (buildAlignedRange byteOffset (byteOffset + byteLen) blobSize)

/-- `align_range_clamped`. -/
def alignRangeClamped (byteOffset byteLen blobSize : Nat) :
    Except RangeOutOfBounds AlignedRange :=
  if startsOutside byteOffset byteLen blobSize then .error ⟨byteOffset, byteLen, blobSize⟩
  else if byteLen = 0 then .ok (buildAlignedRange byteOffset blobSize blobSize)
  else if u64Max < byteOffset + byteLen then .ok (buildAlignedRange byteOffset blobSize blobSize)
  else .ok (buildAlignedRange byteOffset (min (byteOffset + byteLen) blobSize) blobSize)

/-! ## The closed form -/

/-- `intersecting_parents`. -/
def intersectingParents (n base a b : Nat) : Nat :=
  if _ : n ≤ 1 ∨ b ≤ base ∨ saturatingAdd base n ≤ a then 0
  else if a ≤ base ∧ saturatingAdd base n ≤ b then n - 1
  else
    saturatingAdd (saturatingAdd 1 (intersectingParents (leftSize n) base a b))
      (intersectingParents (n - leftSize n) (saturatingAdd base (leftSize n)) a b)
termination_by n
decreasing_by
  · exact (leftSize_lt (by omega)).2
  · have hlt := leftSize_lt (n := n) (by omega)
    omega

/-- `aligned_wire_size`. -/
def alignedWireSize (totalBytes : Nat) : ChunkRanges → Option Nat
  | [start, stop] =>
    let totalChunks := divCeil totalBytes 1024
    if start % groupChunks ≠ 0 ∨ ¬(stop % groupChunks = 0 ∨ stop = totalChunks) ∨ stop ≤ start ∨
        totalChunks < stop then none
    else
      let groups := divCeil totalChunks groupChunks
      let firstGroup := start / groupChunks
      let endGroup := divCeil stop groupChunks
      let dataStart := saturatingMul start 1024
      let dataEnd := min (saturatingMul stop 1024) totalBytes
      let data := dataEnd - dataStart
      let parents := intersectingParents groups 0 firstGroup endGroup
      some (saturatingAdd data (saturatingMul parents parentWireBytes))
  | _ => none

/-- `bao_encoded_size`; `walked` is the encoder's walk over a range of another shape. -/
def baoEncodedSize (walked : Nat → ChunkRanges → Nat) (totalBytes : Nat)
    (chunkRanges : ChunkRanges) : Nat :=
  if totalBytes = 0 ∨ chunkRanges = [] then 0
  else (alignedWireSize totalBytes chunkRanges).getD (walked totalBytes chunkRanges)

/-! ## The walk -/

/-- The groups of a blob. -/
def groupCount (totalBytes : Nat) : Nat := divCeil totalBytes chunkGroupBytes

/-- Where a group starts; past the last group, where the blob ends. -/
def boundary (totalBytes i : Nat) : Nat := min (i * chunkGroupBytes) totalBytes

/-- The data of one group. -/
def groupBytes (totalBytes i : Nat) : Nat := boundary totalBytes (i + 1) - boundary totalBytes i

/-- What the encoder of the groups from `a` to `b` walks. -/
def encoded (totalBytes a b : Nat) : List Piece :=
  if a < b then (leftFull (groupCount totalBytes)).walk a b 0 else []

/-- The bytes a piece takes on the wire. -/
def pieceBytes (totalBytes : Nat) : Piece → Nat :=
  Piece.weight parentWireBytes (groupBytes totalBytes)

/-- The wire size of the groups from `a` to `b`, as long as it is. -/
def wireSize (totalBytes a b : Nat) : Nat :=
  ((encoded totalBytes a b).map (pieceBytes totalBytes)).sum

/-- `walked_wire_size` over the left-full tree: the sum of the pieces, clamped at each step. -/
def walkedWireSize (totalBytes a b : Nat) : Nat :=
  ((encoded totalBytes a b).map (pieceBytes totalBytes)).foldl saturatingAdd 0

variable {total a b c : Nat} {r : AlignedRange}

/-- The closed form counts the parents that the walk meets. -/
theorem intersectingParents_eq {n o : Nat} (hn : 0 < n) (hfits : o + n ≤ u64Max) :
    intersectingParents n o a b = ((leftFull n).walk a b o).countP Piece.isParent := by
  induction n using Nat.strong_induction_on generalizing o with
  | _ n ih =>
    have hend : saturatingAdd o n = o + n := Nat.min_eq_left hfits
    have hsize := size_leftFull hn
    rw [intersectingParents, hend]
    split
    · rename_i hnone
      by_cases hone : n ≤ 1
      · have hlt := parents_walk_lt (t := leftFull n) (a := a) (b := b) (o := o)
        omega
      · rw [walk_of_missed (by rw [hsize]; omega)]
        rfl
    · rename_i hsome
      rw [not_or, not_or] at hsome
      split
      · rename_i hcovered
        have hparents := parents_walk_of_covered (t := leftFull n) (b := b) hcovered.1
          (by rw [hsize]; exact hcovered.2)
        omega
      · -- the node straddles an end of the range: itself, and what both parts count
        have htwo : 2 ≤ n := by omega
        rcases leftSize_lt htwo with ⟨hpos, hlt⟩
        have hleft := size_leftFull hpos
        have hright := size_leftFull (n := n - leftSize n) (by omega)
        have hmid : saturatingAdd o (leftSize n) = o + leftSize n :=
          Nat.min_eq_left (by omega)
        have hl := ih _ hlt (o := o) hpos (by omega)
        have hr := ih (n - leftSize n) (by omega) (o := o + leftSize n) (by omega) (by omega)
        have hlefts := parents_walk_lt (t := leftFull (leftSize n)) (a := a) (b := b) (o := o)
        have hrights := parents_walk_lt (t := leftFull (n - leftSize n)) (a := a) (b := b)
          (o := o + leftSize n)
        rw [hmid, hl, hr, leftFull_of_two_le htwo, walk_node (by rw [hleft, hright]; omega),
          List.countP_cons_of_pos rfl, List.countP_append, hleft]
        unfold saturatingAdd
        omega

/-! ## What an aligned request asks for -/

/-- Items that fit whole bins need no more than these. -/
theorem divCeil_le {n g m : Nat} (hg : 0 < g) (h : n ≤ m * g) : divCeil n g ≤ m := by
  unfold divCeil
  apply Nat.le_of_lt_succ
  rw [Nat.div_lt_iff_lt_mul hg, Nat.succ_mul]
  omega

/-- The groups of a blob, by its chunks. -/
theorem groupCount_eq : divCeil (divCeil total 1024) groupChunks = groupCount total := by
  unfold groupCount divCeil groupChunks chunkGroupBytes
  omega

/-- A blob that is not empty has a group. -/
theorem groupCount_pos (h : 0 < total) : 0 < groupCount total := by
  unfold groupCount divCeil chunkGroupBytes
  omega

/-- The last group ends where the blob does. -/
theorem boundary_groupCount : boundary total (groupCount total) = total := by
  unfold boundary groupCount divCeil chunkGroupBytes
  omega

/-- A group of the blob starts inside it. -/
theorem boundary_of_lt (h : a < groupCount total) :
    boundary total a = a * chunkGroupBytes ∧ a * chunkGroupBytes < total := by
  unfold groupCount divCeil chunkGroupBytes at h
  unfold boundary chunkGroupBytes
  omega

/-- Boundaries follow each other. -/
theorem boundary_succ (i : Nat) : boundary total i ≤ boundary total (i + 1) := by
  unfold boundary chunkGroupBytes
  omega

/-- Boundaries keep the order. -/
theorem boundary_mono (h : a ≤ b) : boundary total a ≤ boundary total b :=
  min_le_min (Nat.mul_le_mul_right _ h) (Nat.le_refl total)

/-- A later boundary of a group of the blob is further on. -/
theorem boundary_lt (h : a < b) (ha : a < groupCount total) :
    boundary total a < boundary total b := by
  have hsucc : (a + 1) * chunkGroupBytes ≤ b * chunkGroupBytes := Nat.mul_le_mul_right _ h
  rcases boundary_of_lt ha with ⟨heq, hlt⟩
  rw [Nat.succ_mul] at hsucc
  rw [heq]
  unfold boundary
  unfold chunkGroupBytes at *
  omega

/-- A group of the blob has data, and no more than a full group has. -/
theorem groupBytes_bounds (h : a < groupCount total) :
    0 < groupBytes total a ∧ groupBytes total a ≤ chunkGroupBytes := by
  unfold groupCount divCeil chunkGroupBytes at h
  unfold groupBytes boundary chunkGroupBytes
  omega

/-- A range that asks for the groups from `a` to `b` of a blob. -/
structure AlignedRange.Covers (total a b : Nat) (r : AlignedRange) : Prop where
  nonempty : a < b
  within : b ≤ groupCount total
  fetchStart_eq : r.fetchStart = boundary total a
  fetchEnd_eq : r.fetchEnd = boundary total b
  chunkRanges_eq : r.chunkRanges = [groupChunks * a, divCeil (boundary total b) 1024]
  blobSize_eq : r.blobSize = total

/-- The chunks up to a boundary: whole groups, or all there are. -/
theorem chunks_boundary (hb : b ≤ groupCount total) :
    (divCeil (boundary total b) 1024 = groupChunks * b ∧ boundary total b = b * chunkGroupBytes ∧
        divCeil (boundary total b) 1024 ≤ divCeil total 1024) ∨
      (divCeil (boundary total b) 1024 = divCeil total 1024 ∧ boundary total b = total ∧
        b = groupCount total) := by
  unfold groupCount divCeil chunkGroupBytes at *
  unfold boundary groupChunks chunkGroupBytes
  by_cases hin : b * 16384 ≤ total
  · left
    rw [Nat.min_eq_left hin]
    omega
  · right
    rw [Nat.min_eq_right (by omega)]
    omega

/-- A group of the blob has chunks before the last. -/
theorem groupChunks_lt (h : a < groupCount total) : groupChunks * a < divCeil total 1024 := by
  unfold groupCount divCeil chunkGroupBytes at h
  unfold groupChunks divCeil
  omega

/-- The chunks before a group come before the chunks up to a later boundary. -/
theorem chunks_lt (hab : a < b) (hb : b ≤ groupCount total) :
    groupChunks * a < divCeil (boundary total b) 1024 := by
  rcases chunks_boundary hb with ⟨heq, -, -⟩ | ⟨heq, -, -⟩
  · rw [heq]
    exact Nat.mul_lt_mul_of_pos_left hab (by decide)
  · rw [heq]
    exact groupChunks_lt (Nat.lt_of_lt_of_le hab hb)

/-- What the alignment makes of a request inside the blob. -/
theorem buildAlignedRange_covers {offset stop : Nat} (htotal : total ≤ u64Max)
    (hstart : offset < stop) (hstop : stop ≤ total) :
    (buildAlignedRange offset stop total).Covers total (offset / chunkGroupBytes)
      (divCeil stop chunkGroupBytes) := by
  have hsat : min (saturatingMul (divCeil stop chunkGroupBytes) chunkGroupBytes) total =
      boundary total (divCeil stop chunkGroupBytes) := by
    unfold saturatingMul boundary
    omega
  have hmul : offset / chunkGroupBytes * chunkGroupBytes ≤ offset := Nat.div_mul_le_self _ _
  have hbefore : offset / chunkGroupBytes < divCeil stop chunkGroupBytes := by
    unfold divCeil chunkGroupBytes
    omega
  have hwithin : divCeil stop chunkGroupBytes ≤ groupCount total := by
    unfold groupCount divCeil
    exact Nat.div_le_div_right (by omega)
  refine ⟨hbefore, hwithin, ?_, hsat, ?_, rfl⟩
  · unfold buildAlignedRange boundary
    dsimp only
    exact (Nat.min_eq_left (by omega)).symm
  · have hchunks : offset / chunkGroupBytes * chunkGroupBytes / 1024 =
        groupChunks * (offset / chunkGroupBytes) := by
      unfold chunkGroupBytes groupChunks
      omega
    have hnonempty := chunks_lt hbefore hwithin
    unfold buildAlignedRange ChunkRanges.ofRange
    dsimp only
    rw [hsat, hchunks, if_pos hnonempty]

/-- Both ways to align a request inside a blob that is not empty ask for whole groups. -/
theorem aligned_shape {offset len : Nat} (htotal : 0 < total) (hfits : total ≤ u64Max)
    (h : alignRange offset len total = .ok r ∨ alignRangeClamped offset len total = .ok r) :
    r.Covers total (offset / chunkGroupBytes)
      (divCeil (if len = 0 then total else min (offset + len) total) chunkGroupBytes) := by
  have hinside : startsOutside offset len total = false → offset < total := by
    unfold startsOutside
    rw [if_neg (by omega), decide_eq_false_iff_not]
    exact Nat.lt_of_not_le
  rcases h with h | h
  · unfold alignRange at h
    split at h
    · cases h
    · rename_i hin
      rw [Bool.not_eq_true] at hin
      have hoffset := hinside hin
      split at h
      · rename_i hlen
        cases h
        rw [if_pos hlen]
        exact buildAlignedRange_covers hfits hoffset (Nat.le_refl _)
      · rename_i hlen
        split at h
        · cases h
        · split at h
          · cases h
          · rename_i hend
            cases h
            rw [if_neg hlen, Nat.min_eq_left (Nat.le_of_not_lt hend)]
            exact buildAlignedRange_covers hfits (by omega) (Nat.le_of_not_lt hend)
  · unfold alignRangeClamped at h
    split at h
    · cases h
    · rename_i hin
      rw [Bool.not_eq_true] at hin
      have hoffset := hinside hin
      split at h
      · rename_i hlen
        cases h
        rw [if_pos hlen]
        exact buildAlignedRange_covers hfits hoffset (Nat.le_refl _)
      · rename_i hlen
        rw [if_neg hlen]
        split at h
        · rename_i hover
          cases h
          rw [Nat.min_eq_right (by omega)]
          exact buildAlignedRange_covers hfits hoffset (Nat.le_refl _)
        · cases h
          exact buildAlignedRange_covers hfits (by omega) (Nat.min_le_right _ _)

/-- A request between two boundaries asks for the groups between them. -/
theorem alignRange_boundaries (hfits : total ≤ u64Max) (hab : a < b)
    (hb : b ≤ groupCount total) :
    ∃ r, alignRange (boundary total a) (boundary total b - boundary total a) total = .ok r ∧
      r.Covers total a b := by
  rcases boundary_of_lt (Nat.lt_of_lt_of_le hab hb) with ⟨hstart, hinside⟩
  have hlt := boundary_lt hab (Nat.lt_of_lt_of_le hab hb)
  have hstop : boundary total b ≤ total := Nat.min_le_right _ _
  have hlen : boundary total a + (boundary total b - boundary total a) = boundary total b :=
    Nat.add_sub_cancel' (Nat.le_of_lt hlt)
  have hin : startsOutside (boundary total a) (boundary total b - boundary total a) total =
      false := by
    unfold startsOutside
    rw [if_neg (by omega), decide_eq_false_iff_not]
    omega
  refine ⟨buildAlignedRange (boundary total a) (boundary total b) total, ?_, ?_⟩
  · unfold alignRange
    rw [hin, if_neg Bool.false_ne_true, if_neg (by omega), hlen, if_neg (by omega),
      if_neg (by omega)]
  · have hcovers := buildAlignedRange_covers hfits hlt hstop
    have hfirst : boundary total a / chunkGroupBytes = a := by
      rw [hstart]
      exact Nat.mul_div_cancel _ (by decide)
    have hlast : divCeil (boundary total b) chunkGroupBytes = b := by
      rcases chunks_boundary hb with ⟨-, heq, -⟩ | ⟨-, heq, hall⟩
      · rw [heq]
        unfold divCeil chunkGroupBytes
        omega
      · rw [heq, hall]
        rfl
    rwa [hfirst, hlast] at hcovers

/-! ## The size of the walk -/

/-- The pieces that deliver a range, in order. -/
theorem delivered_groups (htotal : 0 < total) (hb : b ≤ groupCount total) :
    (encoded total a b).filterMap Piece.leaf? = List.range' a (b - a) := by
  unfold encoded
  split
  · rw [leaves_walk, size_leftFull (groupCount_pos htotal)]
    congr 1
    · omega
    · omega
  · rw [Nat.sub_eq_zero_of_le (by omega)]
    rfl

/-- The size of a walk: its data, and 64 bytes for each parent. -/
theorem wireSize_eq (htotal : 0 < total) (hab : a ≤ b) (hb : b ≤ groupCount total) :
    wireSize total a b = boundary total b - boundary total a +
      parentWireBytes * (encoded total a b).countP Piece.isParent := by
  unfold wireSize pieceBytes
  rw [sum_weight, delivered_groups htotal hb]
  congr 1
  have hsum := (sum_leaves (boundary total) boundary_succ a (b - a)).1
  rwa [Nat.add_sub_cancel' hab] at hsum

/-- A range is encoded with fewer parents than the blob has groups. -/
theorem parents_lt (htotal : 0 < total) :
    (encoded total a b).countP Piece.isParent < groupCount total := by
  unfold encoded
  split
  · have hlt := parents_walk_lt (t := leftFull (groupCount total)) (a := a) (b := b) (o := 0)
    rwa [size_leftFull (groupCount_pos htotal)] at hlt
  · exact groupCount_pos htotal

/-- How many groups a blob of a 64-bit size has. -/
theorem groupCount_le (hfits : total ≤ u64Max) : groupCount total ≤ u64Max / chunkGroupBytes + 1 := by
  unfold groupCount divCeil chunkGroupBytes
  omega

/-- The last chunk before a boundary ends the last group before it, or the blob. -/
theorem lastChunk_spec (hfits : total ≤ u64Max) (hb : b ≤ groupCount total) :
    (divCeil (boundary total b) 1024 % groupChunks = 0 ∨
        divCeil (boundary total b) 1024 = divCeil total 1024) ∧
      divCeil (boundary total b) 1024 ≤ divCeil total 1024 ∧
      divCeil (divCeil (boundary total b) 1024) groupChunks = b ∧
      min (saturatingMul (divCeil (boundary total b) 1024) 1024) total = boundary total b := by
  rcases chunks_boundary hb with ⟨heq, hbound, hle⟩ | ⟨heq, hbound, hall⟩
  · have hbytes : groupChunks * b * 1024 = boundary total b := by
      rw [hbound]
      unfold groupChunks chunkGroupBytes
      omega
    have hin : boundary total b ≤ total := Nat.min_le_right _ _
    refine ⟨.inl ?_, hle, ?_, ?_⟩
    · rw [heq]
      exact Nat.mul_mod_right _ _
    · rw [heq]
      unfold divCeil groupChunks
      omega
    · rw [heq]
      unfold saturatingMul
      rw [hbytes, Nat.min_eq_left (hin.trans hfits), Nat.min_eq_left hin]
  · refine ⟨.inr heq, Nat.le_of_eq heq, ?_, ?_⟩
    · rw [heq, groupCount_eq, hall]
    · have hup : total ≤ divCeil total 1024 * 1024 := by
        unfold divCeil
        omega
      rw [heq, hbound]
      exact Nat.min_eq_right (Nat.le_min.mpr ⟨hup, hfits⟩)

/-- The closed form gives the size of the walk, capped at the 64-bit bound. -/
theorem alignedWireSize_eq (htotal : 0 < total) (hfits : total ≤ u64Max) (h : r.Covers total a b) :
    alignedWireSize total r.chunkRanges = some (min (wireSize total a b) u64Max) := by
  have hnonempty := h.nonempty
  have hwithin := h.within
  have hgroups : groupCount total ≤ u64Max / chunkGroupBytes + 1 := groupCount_le hfits
  have hcount : intersectingParents (groupCount total) 0 a b =
      (encoded total a b).countP Piece.isParent := by
    unfold encoded
    rw [if_pos hnonempty]
    apply intersectingParents_eq (groupCount_pos htotal)
    rw [Nat.zero_add]
    exact hgroups.trans (by decide)
  rcases boundary_of_lt (Nat.lt_of_lt_of_le hnonempty hwithin) with ⟨hstart, hinside⟩
  have hafter := chunks_lt hnonempty hwithin
  have hmod : groupChunks * a % groupChunks = 0 := Nat.mul_mod_right _ _
  have hfirst : groupChunks * a / groupChunks = a := Nat.mul_div_cancel_left _ (by decide)
  rcases lastChunk_spec hfits hwithin with ⟨hends, hle, hlast, hdataEnd⟩
  have haligned : ¬(groupChunks * a % groupChunks ≠ 0 ∨
      ¬(divCeil (boundary total b) 1024 % groupChunks = 0 ∨
        divCeil (boundary total b) 1024 = divCeil total 1024) ∨
      divCeil (boundary total b) 1024 ≤ groupChunks * a ∨
      divCeil total 1024 < divCeil (boundary total b) 1024) := by
    rintro (hbad | hbad | hbad | hbad)
    · exact hbad hmod
    · exact hbad hends
    · exact absurd hafter (Nat.not_lt.mpr hbad)
    · exact absurd hbad (Nat.not_lt.mpr hle)
  have hdataStart : saturatingMul (groupChunks * a) 1024 = boundary total a := by
    have hbytes : groupChunks * a * 1024 = a * chunkGroupBytes := by
      unfold groupChunks chunkGroupBytes
      omega
    unfold saturatingMul
    rw [hbytes, hstart]
    exact Nat.min_eq_left ((Nat.le_of_lt hinside).trans hfits)
  have hsat : saturatingMul ((encoded total a b).countP Piece.isParent) parentWireBytes =
      parentWireBytes * (encoded total a b).countP Piece.isParent := by
    have hparents : (encoded total a b).countP Piece.isParent ≤ u64Max / chunkGroupBytes :=
      Nat.le_of_lt_succ ((parents_lt htotal).trans_le hgroups)
    rw [Nat.mul_comm]
    exact Nat.min_eq_left ((Nat.mul_le_mul_right _ hparents).trans (by decide))
  unfold alignedWireSize
  rw [h.chunkRanges_eq]
  dsimp only
  rw [if_neg haligned, groupCount_eq, hfirst, hlast, hdataEnd, hdataStart, hcount]
  rw [hsat, wireSize_eq htotal (Nat.le_of_lt hnonempty) hwithin]
  rfl

/-- What `bao_encoded_size` gives for whole groups. -/
theorem baoEncodedSize_eq (htotal : 0 < total) (hfits : total ≤ u64Max) (h : r.Covers total a b)
    (walked : Nat → ChunkRanges → Nat) :
    baoEncodedSize walked total r.chunkRanges = min (wireSize total a b) u64Max := by
  have hsome : ¬(total = 0 ∨ r.chunkRanges = []) := by
    rw [h.chunkRanges_eq]
    rintro (hzero | hnil)
    · omega
    · cases hnil
  unfold baoEncodedSize
  rw [if_neg hsome, alignedWireSize_eq htotal hfits h, Option.getD_some]

/-- Clamping at each step clamps the sum. -/
theorem foldl_saturatingAdd (sizes : List Nat) {acc : Nat} (h : acc ≤ u64Max) :
    sizes.foldl saturatingAdd acc = min (acc + sizes.sum) u64Max := by
  induction sizes generalizing acc with
  | nil => exact (Nat.min_eq_left h).symm
  | cons size rest ih =>
    have hstep : saturatingAdd acc size ≤ u64Max := Nat.min_le_right _ _
    rw [List.foldl_cons, ih hstep, List.sum_cons]
    unfold saturatingAdd
    omega

/-- The walk clamped at each step. -/
theorem walkedWireSize_eq : walkedWireSize total a b = min (wireSize total a b) u64Max := by
  unfold walkedWireSize
  rw [foldl_saturatingAdd _ (Nat.zero_le _), Nat.zero_add]
  rfl

/-- The encoding of a longer range starts with that of a shorter one. -/
theorem encoded_prefix (h : c ≤ b) : encoded total a c <+: encoded total a b := by
  unfold encoded
  by_cases hac : a < c
  · rw [if_pos hac, if_pos (by omega)]
    exact walk_prefix h
  · rw [if_neg hac]
    exact List.nil_prefix

/-- More content takes at least as many bytes more. -/
theorem wireSize_add_le (htotal : 0 < total) (hac : a ≤ c) (hcb : c ≤ b)
    (hb : b ≤ groupCount total) :
    wireSize total a c + (boundary total b - boundary total c) ≤ wireSize total a b := by
  rw [wireSize_eq htotal hac (hcb.trans hb), wireSize_eq htotal (hac.trans hcb) hb]
  have hprefix : encoded total a c <+: encoded total a b := encoded_prefix hcb
  have hparents := hprefix.sublist.countP_le
    (p := Piece.isParent)
  have hmul := Nat.mul_le_mul_left parentWireBytes hparents
  have hfirst : boundary total a ≤ boundary total c := boundary_mono hac
  have hsecond : boundary total c ≤ boundary total b := boundary_mono hcb
  omega

/-- So the wire size grows with the end of the range. -/
theorem wireSize_strictMono (htotal : 0 < total) (hac : a ≤ c) (hcb : c < b)
    (hb : b ≤ groupCount total) : wireSize total a c < wireSize total a b := by
  have hadd := wireSize_add_le htotal hac (Nat.le_of_lt hcb) hb
  have hdata := boundary_lt hcb (Nat.lt_of_lt_of_le hcb hb)
  omega

/-- The bytes of an encoding start with those of the encoding of a shorter range. -/
theorem take_encoding {α : Type} (bytes : Piece → List α)
    (hbytes : ∀ p, (bytes p).length = pieceBytes total p) (hcb : c ≤ b) :
    ((encoded total a b).flatMap bytes).take (wireSize total a c) =
      (encoded total a c).flatMap bytes := by
  have hprefix : encoded total a c <+: encoded total a b := encoded_prefix hcb
  rcases hprefix with ⟨rest, hrest⟩
  have hlength : ((encoded total a c).flatMap bytes).length = wireSize total a c := by
    rw [List.length_flatMap]
    unfold wireSize
    simp only [hbytes]
  rw [← hrest, List.flatMap_append, ← hlength, List.take_left]

/-- The range of both aligners over whole groups: its closed-form size is that of the clamped walk,
which is the sum over the walk's parents and groups capped at the 64-bit bound; the sum grows with
the end of the range; and the encoding of a shorter range is the start of the encoding, delivers
the groups of that range, and is as long as its own sum says. -/
theorem aligned_wire_size_walk {offset len : Nat} (htotal : 0 < total) (hfits : total ≤ u64Max)
    (h : alignRange offset len total = .ok r ∨ alignRangeClamped offset len total = .ok r) :
    ∃ a b, r.Covers total a b ∧
      alignedWireSize total r.chunkRanges = some (walkedWireSize total a b) ∧
      walkedWireSize total a b = min (wireSize total a b) u64Max ∧
      wireSize total a b = r.fetchEnd - r.fetchStart +
        parentWireBytes * (encoded total a b).countP Piece.isParent ∧
      (∀ walked, baoEncodedSize walked total r.chunkRanges = min (wireSize total a b) u64Max) ∧
      ∀ c, a ≤ c → c ≤ b →
        (c < b → wireSize total a c < wireSize total a b) ∧
        encoded total a c <+: encoded total a b ∧
        (encoded total a c).filterMap Piece.leaf? = List.range' a (c - a) ∧
        ∀ (α : Type) (bytes : Piece → List α), (∀ p, (bytes p).length = pieceBytes total p) →
          ((encoded total a b).flatMap bytes).take (wireSize total a c) =
            (encoded total a c).flatMap bytes := by
  have hcovers := aligned_shape htotal hfits h
  generalize offset / chunkGroupBytes = a at hcovers
  generalize divCeil (if len = 0 then total else min (offset + len) total) chunkGroupBytes = b
    at hcovers
  have hclosed := alignedWireSize_eq htotal hfits hcovers
  have hab := Nat.le_of_lt hcovers.nonempty
  refine ⟨a, b, hcovers, ?_, walkedWireSize_eq, ?_, ?_, ?_⟩
  · rw [hclosed, walkedWireSize_eq]
  · rw [hcovers.fetchStart_eq, hcovers.fetchEnd_eq]
    exact wireSize_eq htotal hab hcovers.within
  · exact baoEncodedSize_eq htotal hfits hcovers
  · intro c hac hcb
    exact ⟨fun hlt => wireSize_strictMono htotal hac hlt hcovers.within, encoded_prefix hcb,
      delivered_groups htotal (hcb.trans hcovers.within),
      fun _ bytes hbytes => take_encoding bytes hbytes hcb⟩

/-- A whole blob: its data, and 64 bytes for each group but one. -/
theorem wireSize_whole (htotal : 0 < total) :
    wireSize total 0 (groupCount total) = total + parentWireBytes * (groupCount total - 1) := by
  have hsize := size_leftFull (groupCount_pos htotal)
  have hparents := parents_walk_of_covered (t := leftFull (groupCount total)) (a := 0)
    (b := groupCount total) (o := 0) (Nat.le_refl _) (by rw [hsize, Nat.zero_add])
  have hzero : boundary total 0 = 0 := by
    unfold boundary
    omega
  have hcount : (encoded total 0 (groupCount total)).countP Piece.isParent =
      groupCount total - 1 := by
    rw [hsize] at hparents
    unfold encoded
    rw [if_pos (groupCount_pos htotal)]
    exact Nat.eq_sub_of_add_eq hparents
  rw [wireSize_eq htotal (Nat.zero_le _) (Nat.le_refl _), boundary_groupCount, hzero, Nat.sub_zero,
    hcount]

/-- A request for a whole blob is granted. -/
theorem alignRange_whole (htotal : 0 < total) (hfits : total ≤ u64Max) :
    ∃ r, alignRange 0 0 total = .ok r ∧ r.Covers total 0 (groupCount total) := by
  have hinside : startsOutside 0 0 total = false := by
    unfold startsOutside
    rw [if_neg (by omega), decide_eq_false_iff_not]
    omega
  refine ⟨buildAlignedRange 0 total total, ?_, ?_⟩
  · unfold alignRange
    rw [hinside, if_neg Bool.false_ne_true, if_pos rfl]
  · have hcovers := buildAlignedRange_covers hfits htotal (Nat.le_refl _)
    rwa [Nat.zero_div] at hcovers

/-- The largest blob takes more bytes than the closed form can say. -/
theorem wire_size_capped : ∃ total r, total ≤ u64Max ∧ alignRange 0 0 total = .ok r ∧
    r.Covers total 0 (groupCount total) ∧
    alignedWireSize total r.chunkRanges ≠ some (wireSize total 0 (groupCount total)) := by
  have hexists : ∃ total, total = u64Max := ⟨_, rfl⟩
  rcases hexists with ⟨total, htotal⟩
  have hpos : 0 < total := by
    unfold u64Max at htotal
    omega
  rcases alignRange_whole hpos (Nat.le_of_eq htotal) with ⟨r, halign, hcovers⟩
  refine ⟨total, r, Nat.le_of_eq htotal, halign, hcovers, ?_⟩
  have hgroups : 2 ≤ groupCount total := by
    unfold u64Max at htotal
    unfold groupCount divCeil chunkGroupBytes
    omega
  rw [alignedWireSize_eq hpos (Nat.le_of_eq htotal) hcovers, wireSize_whole hpos, Ne,
    Option.some.injEq]
  unfold parentWireBytes
  omega

/-- A blob of two groups and one byte, asked for as a whole. -/
theorem aligned_wire_size_walk_sample : ∃ total r, total = 2 * chunkGroupBytes + 1 ∧
    alignRange 0 0 total = .ok r ∧ ∃ a b, r.Covers total a b ∧
      alignedWireSize total r.chunkRanges = some (walkedWireSize total a b) := by
  have hexists : ∃ total, total = 2 * chunkGroupBytes + 1 := ⟨_, rfl⟩
  rcases hexists with ⟨total, htotal⟩
  have hpos : 0 < total := by omega
  have hfits : total ≤ u64Max := by
    unfold chunkGroupBytes at htotal
    unfold u64Max
    omega
  rcases alignRange_whole hpos hfits with ⟨r, halign, -⟩
  rcases aligned_wire_size_walk hpos hfits (.inl halign) with ⟨a, b, hcovers, hclosed, -⟩
  exact ⟨total, r, htotal, halign, a, b, hcovers, hclosed⟩

end Decdn.BaoRange
