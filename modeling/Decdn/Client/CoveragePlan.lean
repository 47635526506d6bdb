import Decdn.BaoRange.WireSize
import Decdn.Dht.Records

/-!
# Coverage of a range

The discovery blocks of a blob that a source announces (`coverage_plan.rs`), and the suffix
of a byte range that they cover.

Main results:

- Theorem `coveredSuffixStart_spec`: a covered suffix starts with the range or with a
  group.
-/

namespace Decdn.Client

open BaoRange
open Dht (Coverage)
open U64 (saturatingAdd)

/-! ## Coverage -/

/-- `DISCOVERY_BLOCK_BYTES`. -/
def discoveryBlockBytes : Nat := 67108864

/-- `Coverage::covers`. -/
def covers (c : Coverage) (block : Nat) : Bool :=
  c.blocks[block / 8]?.any fun byte => (byte >>> (UInt8.ofNat (block % 8))) &&& 1 == 1

/-- `u32::try_from`, with the largest 32-bit value for what does not fit. -/
def blockIndex (block : Nat) : Nat := if block < 2 ^ 32 then block else 2 ^ 32 - 1

/-- The loop of `covered_suffix_start`: step down while the block before is covered. -/
def lowestCovered (c : Coverage) (firstBlock : Nat) : Nat → Nat
  | 0 => 0
  | block + 1 =>
    if firstBlock < block + 1 ∧ covers c block then lowestCovered c firstBlock block else block + 1

/-- `covered_suffix_start`. -/
def coveredSuffixStart (c : Coverage) (start len totalBytes : Nat) : Option Nat :=
  let stop := min (saturatingAdd start len) totalBytes
  if stop ≤ start then some start
  else
    let firstBlock := blockIndex (start / discoveryBlockBytes)
    let lastBlock := blockIndex ((stop - 1) / discoveryBlockBytes)
    if covers c lastBlock then
      some (max (saturatingMul (lowestCovered c firstBlock lastBlock) discoveryBlockBytes) start)
    else none

variable {total : Nat}

/-- The walk over the blocks stays below where it started. -/
theorem lowestCovered_le (c : Coverage) (firstBlock block : Nat) :
    lowestCovered c firstBlock block ≤ block := by
  induction block with
  | zero => exact Nat.le_refl _
  | succ block ih =>
    unfold lowestCovered
    split
    · exact Nat.le_succ_of_le ih
    · exact Nat.le_refl _

/-- A block index fits 32 bits. -/
theorem blockIndex_le (block : Nat) : blockIndex block ≤ 2 ^ 32 - 1 := by
  unfold blockIndex
  split
  · omega
  · exact Nat.le_refl _

/-- A covered suffix starts with the range or with a group. -/
theorem coveredSuffixStart_spec {c : Coverage} {start len from_ : Nat}
    (h : coveredSuffixStart c start len total = some from_) :
    start ≤ from_ ∧ (from_ = start ∨ from_ % chunkGroupBytes = 0) := by
  unfold coveredSuffixStart at h
  dsimp only at h
  split at h
  · rw [← Option.some.inj h]
    exact ⟨Nat.le_refl _, Or.inl rfl⟩
  · split at h
    · rw [← Option.some.inj h]
      refine ⟨Nat.le_max_right _ _, ?_⟩
      generalize hlast : blockIndex
        ((min (saturatingAdd start len) total - 1) / discoveryBlockBytes) = last
      generalize blockIndex (start / discoveryBlockBytes) = first
      have hle := lowestCovered_le c first last
      have hblock : last ≤ 2 ^ 32 - 1 := by
        rw [← hlast]
        exact blockIndex_le _
      have hexact : saturatingMul (lowestCovered c first last) discoveryBlockBytes =
          lowestCovered c first last * discoveryBlockBytes := by
        unfold saturatingMul discoveryBlockBytes u64Max
        omega
      rw [hexact]
      rcases Nat.le_total (lowestCovered c first last * discoveryBlockBytes) start with hlow | hlow
      · exact Or.inl (Nat.max_eq_right hlow)
      · right
        rw [Nat.max_eq_left hlow]
        unfold discoveryBlockBytes chunkGroupBytes
        omega
    · cases h

end Decdn.Client
