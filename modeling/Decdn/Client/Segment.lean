import Decdn.Client.CoveragePlan
import Decdn.Foundations.Fallible
import Decdn.Foundations.Guards
import Decdn.Foundations.Spans

/-!
# Splitting a range in flight

A source that is free takes the tail of a range that another source is fetching
(`segment.rs`).  The split point weighs the rates of the two, leaves each side enough
of the missing bytes, moves up to what the free source covers and down to a whole
chunk group.

Main results:

- Theorem `findSplit_spec`: the walk over the missing runs finds the split point.
- Theorem `stealTail_spec`: the split of one range is worth it on both sides.
- Theorem `steal_split_worthwhile`: a steal takes a worthwhile suffix of the range that
  has the most to take, and never fails.
-/

namespace Decdn.Client

open BaoRange Spans
open Dht (Coverage)
open U64 (saturatingAdd)

/-! ## Splitting a range in flight -/

/-- `MIN_SPLIT_SIZE`. -/
def minSplitSize : Nat := 16777216

/-- `MIN_VICTIM_KEEP`. -/
def minVictimKeep : Nat := 4194304

/-- `MIN_STOLEN`. -/
def minStolen : Nat := minSplitSize / 2

/-- How the split fails: a range out of bounds, or an operation past the bounds of its type. -/
inductive SplitError where
  | range (error : RangeOutOfBounds)
  | arithmetic
deriving DecidableEq, Repr

/-- A subtraction that must not go below zero. -/
def checkedSub : Nat → Nat → Except SplitError Nat := Guard.sub .arithmetic

/-- An addition that must fit 64 bits. -/
def checkedAdd : Nat → Nat → Except SplitError Nat := Guard.add u64Max .arithmetic

/-- `victim_keeps`; the products of 64-bit values are taken in 128 bits. -/
def victimKeeps (left : Nat) (stealer victim : Option Nat) : Option Nat :=
  match stealer, victim with
  | some stealer, some victim =>
    if 0 < stealer ∧ 0 < victim then
      let kept := left * victim / (stealer + victim)
      let kept := if kept ≤ u64Max then kept else left
      if minStolen ≤ left - kept then some kept else none
    else some (left / 2)
  | _, _ => some (left / 2)

/-- One span of `canonicalize_ranges`: nothing for an empty one. -/
def canonicalSpan (totalBytes : Nat) (span : Nat × Nat) :
    Except RangeOutOfBounds (Option (Nat × Nat)) :=
  let (start, len) := span
  if len = 0 then .ok none
  else if u64Max < start + len then .error ⟨start, len, totalBytes⟩
  else if totalBytes ≤ start ∨ totalBytes < start + len then .error ⟨start, len, totalBytes⟩
  else
    let canonStart := start / chunkGroupBytes * chunkGroupBytes
    let canonEnd :=
      min (saturatingMul (divCeil (start + len) chunkGroupBytes) chunkGroupBytes) totalBytes
    .ok (if canonStart < canonEnd then some (canonStart, canonEnd) else none)

/-- `canonicalize_ranges`: round each span out to whole groups, sort them, merge what touches. -/
def canonicalizeRanges (spans : List (Nat × Nat)) (totalBytes : Nat) :
    Except RangeOutOfBounds Spans := do
  let canon ← spans.mapM (canonicalSpan totalBytes)
  pure (merge ((canon.filterMap id).mergeSort fun p q => decide (p.1 ≤ q.1)))

/-- The spans of a list of runs. -/
def runSpans (runs : List (Nat × Nat)) : Spans := runs.map fun r => (r.1, saturatingAdd r.1 r.2)

/-- `missing_within`. -/
def missingWithin (missing : List (Nat × Nat)) (start stop : Nat) : Spans :=
  clip (runSpans missing) start stop

/-- The bytes of some spans, added with saturation. -/
def spanBytes (spans : Spans) : Nat := (spans.map fun p => p.2 - p.1).foldl saturatingAdd 0

/-- A range in flight that may be split: its place, the range, where the stealer's cover starts,
and what that part misses. -/
structure StealCandidate where
  index : Nat
  start : Nat
  len : Nat
  coveredFrom : Nat
  stealable : Nat
deriving DecidableEq, Repr

/-- The filter of `steal_split` on one range. -/
def stealCandidate (missing : List (Nat × Nat)) (coveredFrom : Nat → Nat → Option Nat)
    (item : (Nat × Nat) × Nat) : Option StealCandidate :=
  let ((start, len), index) := item
  match coveredFrom start len with
  | none => none
  | some from_ =>
    let stop := saturatingAdd start len
    let stealable := spanBytes (missingWithin missing from_ stop)
    if minSplitSize ≤ spanBytes (missingWithin missing start stop) ∧ minStolen ≤ stealable then
      some ⟨index, start, len, from_, stealable⟩
    else none

/-- `max_by_key`: the last candidate of the most stealable bytes. -/
def mostStealable (candidates : List StealCandidate) : Option StealCandidate :=
  candidates.foldl (fun best c =>
    match best with
    | none => some c
    | some b => if b.stealable ≤ c.stealable then some c else some b) none

/-- The walk over the missing runs: the offset with the kept bytes before it. -/
def findSplit (keep : Nat) : Nat → Spans → Except SplitError (Option Nat)
  | _, [] => .ok none
  | before, (s, e) :: rest => do
    let bytes ← checkedSub e s
    if keep < saturatingAdd before bytes then
      let inside ← checkedSub keep before
      let split ← checkedAdd s inside
      pure (some split)
    else findSplit keep (saturatingAdd before bytes) rest

/-- A range error of the split. -/
def liftRange {α : Type} (x : Except RangeOutOfBounds α) : Except SplitError α :=
  match x with
  | .ok a => .ok a
  | .error e => .error (.range e)

/-- The end of `steal_split`: the tail of the chosen range. -/
def stealTail (c : StealCandidate) (canonStart canonEnd : Nat) (missing : List (Nat × Nat))
    (totalBytes : Nat) (stealerRate victimRate : Option Nat) :
    Except SplitError (Option (Nat × AlignedRange)) := do
  let runs ← liftRange (canonicalizeRanges
    ((missingWithin missing canonStart canonEnd).map fun p => (p.1, p.2 - p.1)) totalBytes)
  match runs with
  | [] => pure none
  | (firstMissing, _) :: _ =>
    match victimKeeps (spanBytes runs) stealerRate victimRate with
    | none => pure none
    | some keep =>
      let keep := min (max keep minVictimKeep) (spanBytes runs - minStolen)
      match ← findSplit keep 0 runs with
      | none => pure none
      | some split =>
        let split := max split c.coveredFrom
        if canonEnd ≤ split then pure none
        else
          let len ← checkedSub canonEnd split
          let tail ← liftRange (alignRange split len totalBytes)
          if tail.fetchStart ≤ firstMissing ∨ canonEnd ≤ tail.fetchStart then pure none
          else pure (some (c.index, tail))

/-- `steal_split`. -/
def stealSplit (remaining missing : List (Nat × Nat)) (totalBytes : Nat)
    (coveredFrom : Nat → Nat → Option Nat) (stealerRate : Option Nat)
    (victimRate : Nat → Option Nat) : Except SplitError (Option (Nat × AlignedRange)) :=
  match mostStealable (remaining.zipIdx.filterMap (stealCandidate missing coveredFrom)) with
  | none => .ok none
  | some c => do
    let canon ← liftRange (canonicalizeRanges [(c.start, c.len)] totalBytes)
    match canon with
    | [] => pure none
    | (canonStart, canonEnd) :: _ =>
      stealTail c canonStart canonEnd missing totalBytes stealerRate (victimRate c.index)

/-! ## Whole groups -/

variable {total : Nat}

/-- A range of whole groups of a blob: it starts with a group, and ends with one or with the
blob. -/
structure GroupAligned (total : Nat) (r : Nat × Nat) : Prop where
  start_mod : r.1 % chunkGroupBytes = 0
  end_le : r.1 + r.2 ≤ total
  end_mod : (r.1 + r.2) % chunkGroupBytes = 0 ∨ r.1 + r.2 = total

/-- Runs of whole groups that are not empty and follow each other. -/
structure AlignedRuns (total : Nat) (runs : List (Nat × Nat)) : Prop where
  aligned : ∀ r ∈ runs, 0 < r.2 ∧ GroupAligned total r
  ordered : runs.Pairwise fun r t => r.1 + r.2 ≤ t.1

/-- The spans of whole groups of a blob. -/
structure AlignedSpans (total : Nat) (spans : Spans) : Prop where
  ascending : spans.Ascending
  aligned : ∀ p ∈ spans, p.1 % chunkGroupBytes = 0 ∧ p.2 ≤ total ∧
    (p.2 % chunkGroupBytes = 0 ∨ p.2 = total)

/-- The spans of runs of whole groups. -/
theorem AlignedRuns.spans {runs : List (Nat × Nat)} (h : AlignedRuns total runs)
    (hfits : total ≤ u64Max) :
    runSpans runs = runs.map (fun r => (r.1, r.1 + r.2)) ∧ AlignedSpans total (runSpans runs) := by
  have hspans : runSpans runs = runs.map fun r => (r.1, r.1 + r.2) := by
    unfold runSpans
    refine List.map_congr_left fun r hr => ?_
    have hend := (h.aligned r hr).2.end_le
    unfold saturatingAdd
    rw [Nat.min_eq_left (by omega)]
  refine ⟨hspans, ⟨?_, ?_⟩, ?_⟩
  · intro p hp
    rw [hspans] at hp
    rcases List.mem_map.mp hp with ⟨r, hr, rfl⟩
    exact Nat.lt_add_of_pos_right (h.aligned r hr).1
  · rw [hspans]
    exact List.pairwise_map.mpr h.ordered
  · intro p hp
    rw [hspans] at hp
    rcases List.mem_map.mp hp with ⟨r, hr, rfl⟩
    have hgroup := (h.aligned r hr).2
    exact ⟨hgroup.start_mod, hgroup.end_le, hgroup.end_mod⟩

/-- What aligned spans hold below a group of the blob is whole groups. -/
theorem AlignedSpans.below_mod {spans : Spans} (h : AlignedSpans total spans) {x : Nat}
    (hx : x % chunkGroupBytes = 0) (hle : x ≤ total) :
    below spans x % chunkGroupBytes = 0 := by
  have hsum : ∀ l : Spans, (∀ p ∈ l, p.1 % chunkGroupBytes = 0 ∧ p.2 ≤ total ∧
      (p.2 % chunkGroupBytes = 0 ∨ p.2 = total)) → below l x % chunkGroupBytes = 0 := by
    intro l
    induction l with
    | nil => exact fun _ => rfl
    | cons p l ih =>
      intro hall
      rcases List.forall_mem_cons.mp hall with ⟨⟨hstart, hend, hmod⟩, hrest⟩
      have hbelow := ih hrest
      have hterm : (min x p.2 - min x p.1) % chunkGroupBytes = 0 := by
        unfold chunkGroupBytes at *
        omega
      rw [below_cons, Nat.add_mod, hterm, hbelow]
      rfl
  exact hsum spans h.aligned

/-- The bytes of spans of a blob. -/
theorem AlignedSpans.spanBytes_eq {spans : Spans} (h : AlignedSpans total spans)
    (hfits : total ≤ u64Max) : spanBytes spans = size spans := by
  have hsize : size spans ≤ total := by
    rw [← below_of_ge (x := total) fun p hp =>
      ⟨Nat.le_of_lt (h.ascending.1 p hp), (h.aligned p hp).2.1⟩]
    exact below_le h.ascending total
  unfold spanBytes
  rw [foldl_saturatingAdd _ (Nat.zero_le _), Nat.zero_add]
  exact Nat.min_eq_left (Nat.le_trans hsize hfits)

/-- Clipping to whole groups leaves whole groups. -/
theorem AlignedSpans.clip {spans : Spans} (h : AlignedSpans total spans) {u v : Nat}
    (hu : u % chunkGroupBytes = 0) (hvmod : v % chunkGroupBytes = 0 ∨ v = total) :
    AlignedSpans total (Spans.clip spans u v) := by
  refine ⟨clip_ascending h.ascending u v, fun q hq => ?_⟩
  rcases mem_clip hq with ⟨-, p, hp, rfl⟩
  rcases h.aligned p hp with ⟨hstart, hend, hmod⟩
  have hfirst : max p.1 u % chunkGroupBytes = 0 := by
    rcases Nat.le_total p.1 u with hle | hle
    · rw [Nat.max_eq_right hle]
      exact hu
    · rw [Nat.max_eq_left hle]
      exact hstart
  refine ⟨hfirst, Nat.le_trans (Nat.min_le_left _ _) hend, ?_⟩
  rcases Nat.le_total p.2 v with hle | hle
  · rw [Nat.min_eq_left hle]
    exact hmod
  · rw [Nat.min_eq_right hle]
    exact hvmod

/-- What a blob misses between two points. -/
theorem missing_bytes {missing : List (Nat × Nat)} (h : AlignedRuns total missing)
    (hfits : total ≤ u64Max) {u v : Nat} (hu : u % chunkGroupBytes = 0) (huv : u ≤ v)
    (hvmod : v % chunkGroupBytes = 0 ∨ v = total) :
    spanBytes (missingWithin missing u v) =
      below (runSpans missing) v - below (runSpans missing) u := by
  have hspans := (h.spans hfits).2
  unfold missingWithin
  rw [(hspans.clip hu hvmod).spanBytes_eq hfits]
  exact sum_clip (fun p hp => Nat.le_of_lt (hspans.ascending.1 p hp)) huv

/-- Rounding out whole groups changes nothing. -/
theorem canonicalSpan_aligned (hfits : total ≤ u64Max) {r : Nat × Nat} (hlen : 0 < r.2)
    (h : GroupAligned total r) : canonicalSpan total r = .ok (some (r.1, r.1 + r.2)) := by
  rcases h with ⟨hstart, hend, hmod⟩
  have hfirst : r.1 / chunkGroupBytes * chunkGroupBytes = r.1 := by
    unfold chunkGroupBytes at *
    omega
  have hlast : min (saturatingMul (divCeil (r.1 + r.2) chunkGroupBytes) chunkGroupBytes) total =
      r.1 + r.2 := by
    unfold saturatingMul divCeil
    unfold chunkGroupBytes at *
    omega
  unfold canonicalSpan
  dsimp only
  rw [if_neg (by omega), if_neg (by omega), if_neg (by omega), hfirst, hlast, if_pos (by omega)]

/-- So canonical runs are the merged runs. -/
theorem canonicalizeRanges_aligned {runs : List (Nat × Nat)} (h : AlignedRuns total runs)
    (hfits : total ≤ u64Max) :
    canonicalizeRanges runs total = .ok (merge (runSpans runs)) := by
  rcases h.spans hfits with ⟨hspans, haligned⟩
  have hmap : runs.mapM (canonicalSpan total) = .ok ((runSpans runs).map some) := by
    rw [hspans, mapM_eq_ok, List.map_map]
    clear hspans haligned
    have hall := h.aligned
    induction runs with
    | nil => exact .nil
    | cons r runs ih =>
      rcases List.forall_mem_cons.mp hall with ⟨hr, hrest⟩
      exact .cons (canonicalSpan_aligned hfits hr.1 hr.2)
        (ih ⟨hrest, (List.pairwise_cons.mp h.ordered).2⟩ hrest)
  have hid : ((runSpans runs).map some).filterMap id = runSpans runs := by
    rw [List.filterMap_map]
    exact List.filterMap_some
  have hsorted : (runSpans runs).mergeSort (fun p q => decide (p.1 ≤ q.1)) = runSpans runs := by
    apply List.mergeSort_of_pairwise
    refine haligned.ascending.2.imp_of_mem fun hp _ hpq => ?_
    exact decide_eq_true (Nat.le_trans (Nat.le_of_lt (haligned.ascending.1 _ hp)) hpq)
  unfold canonicalizeRanges
  rw [hmap]
  change Except.ok (merge ((((runSpans runs).map some).filterMap id).mergeSort _)) = _
  rw [hid, hsorted]

/-- Spans of a blob, written as runs. -/
theorem AlignedSpans.runs {spans : Spans} (h : AlignedSpans total spans)
    (hfits : total ≤ u64Max) :
    AlignedRuns total (spans.map fun p => (p.1, p.2 - p.1)) ∧
      runSpans (spans.map fun p => (p.1, p.2 - p.1)) = spans := by
  have hends : ∀ p ∈ spans, p.1 + (p.2 - p.1) = p.2 := fun p hp =>
    Nat.add_sub_cancel' (Nat.le_of_lt (h.ascending.1 p hp))
  constructor
  · constructor
    · intro r hr
      rcases List.mem_map.mp hr with ⟨p, hp, rfl⟩
      rcases h.aligned p hp with ⟨hstart, hend, hmod⟩
      have hlt := h.ascending.1 p hp
      have heq := hends p hp
      refine ⟨show 0 < p.2 - p.1 by omega, hstart, ?_, ?_⟩
      · rw [heq]
        exact hend
      · rw [heq]
        exact hmod
    · refine List.pairwise_map.mpr (h.ascending.2.imp_of_mem fun hp _ hpq => ?_)
      rw [hends _ hp]
      exact hpq
  · unfold runSpans
    rw [List.map_map]
    conv_rhs => rw [← List.map_id spans]
    refine List.map_congr_left fun p hp => ?_
    have hle := (h.aligned p hp).2.1
    unfold saturatingAdd
    rw [Function.comp_apply, hends p hp, Nat.min_eq_left (Nat.le_trans hle hfits)]
    rfl

/-! ## The split point -/

/-- The walk ends inside a run, with the kept bytes before the split. -/
theorem findSplit_spec {keep before : Nat} {runs : Spans} (h : runs.Ascending)
    (hends : ∀ p ∈ runs, p.2 ≤ u64Max) (hfits : before + size runs ≤ u64Max)
    (hbefore : before ≤ keep) (hkeep : keep < before + size runs) :
    ∃ split, findSplit keep before runs = .ok (some split) ∧
      before + below runs split = keep ∧ ∃ p ∈ runs, p.1 ≤ split ∧ split < p.2 := by
  induction runs generalizing before with
  | nil => exact absurd hkeep (Nat.not_lt_of_le hbefore)
  | cons p rest ih =>
    rcases ascending_cons.mp h with ⟨hp, hafter, hrest⟩
    rw [size_cons] at hfits hkeep
    have hsub : checkedSub p.2 p.1 = .ok (p.2 - p.1) := if_pos (Nat.le_of_lt hp)
    have hsat : saturatingAdd before (p.2 - p.1) = before + (p.2 - p.1) :=
      Nat.min_eq_left (by omega)
    have hstop := hends p List.mem_cons_self
    unfold findSplit
    rw [hsub]
    change ∃ split, (if keep < saturatingAdd before (p.2 - p.1) then _ else _) = _ ∧ _
    rw [hsat]
    split
    · rename_i hinside
      have hpoint : p.1 + (keep - before) ≤ u64Max := by omega
      have hkept : checkedSub keep before = .ok (keep - before) := if_pos hbefore
      have hadd : checkedAdd p.1 (keep - before) = .ok (p.1 + (keep - before)) :=
        if_pos hpoint
      rw [hkept]
      change ∃ split, (checkedAdd p.1 (keep - before) >>= _) = _ ∧ _
      rw [hadd]
      refine ⟨p.1 + (keep - before), rfl, ?_, p, List.mem_cons_self, Nat.le_add_right _ _,
        by omega⟩
      have hnone : below rest (p.1 + (keep - before)) = 0 := below_of_le fun q hq =>
        ⟨Nat.le_trans (by omega) (hafter q hq), Nat.le_of_lt (hrest.1 q hq)⟩
      rw [below_cons, hnone]
      omega
    · rename_i hpast
      have hfits' : before + (p.2 - p.1) + size rest ≤ u64Max := by omega
      rcases ih hrest (fun q hq => hends q (List.mem_cons_of_mem _ hq)) hfits'
        (Nat.le_of_not_lt hpast) (by omega) with ⟨split, hfind, hbelow, q, hq, hlow, hhigh⟩
      have hnext := hafter q hq
      refine ⟨split, hfind, ?_, q, List.mem_cons_of_mem _ hq, hlow, hhigh⟩
      rw [below_cons]
      omega

/-! ## What is missing -/

/-- A byte that a list of runs misses. -/
def Missing (missing : List (Nat × Nat)) (b : Nat) : Prop := ∃ r ∈ missing, r.1 ≤ b ∧ b < r.1 + r.2

instance (missing : List (Nat × Nat)) : DecidablePred (Missing missing) :=
  fun b => inferInstanceAs (Decidable (∃ r ∈ missing, r.1 ≤ b ∧ b < r.1 + r.2))

/-- How many bytes the runs miss from one offset to another. -/
def missingBytes (missing : List (Nat × Nat)) (u v : Nat) : Nat :=
  Nat.count (Missing missing) v - Nat.count (Missing missing) u

/-- A window splits at a point. -/
theorem missingBytes_add (missing : List (Nat × Nat)) {u x v : Nat} (hux : u ≤ x) (hxv : x ≤ v) :
    missingBytes missing u x + missingBytes missing x v = missingBytes missing u v := by
  have hlow := Nat.count_monotone (Missing missing) hux
  have hhigh := Nat.count_monotone (Missing missing) hxv
  unfold missingBytes
  omega

/-- A window that starts later misses no more. -/
theorem missingBytes_anti (missing : List (Nat × Nat)) {x y : Nat} (hxy : x ≤ y) (v : Nat) :
    missingBytes missing y v ≤ missingBytes missing x v :=
  Nat.sub_le_sub_left (Nat.count_monotone (Missing missing) hxy) _

/-- A window that ends later misses no less. -/
theorem missingBytes_mono (missing : List (Nat × Nat)) (u : Nat) {x y : Nat} (hxy : x ≤ y) :
    missingBytes missing u x ≤ missingBytes missing u y :=
  Nat.sub_le_sub_right (Nat.count_monotone (Missing missing) hxy) _

/-- The measure of the missing spans counts the missing bytes. -/
theorem AlignedRuns.below_eq {missing : List (Nat × Nat)} (h : AlignedRuns total missing)
    (hfits : total ≤ u64Max) (x : Nat) :
    below (runSpans missing) x = Nat.count (Missing missing) x := by
  rcases h.spans hfits with ⟨hspans, haligned⟩
  have hheld : ∀ b, (runSpans missing).Held b ↔ Missing missing b := by
    intro b
    rw [hspans]
    unfold Held Missing
    constructor
    · rintro ⟨p, hp, hin⟩
      rcases List.mem_map.mp hp with ⟨r, hr, rfl⟩
      exact ⟨r, hr, hin⟩
    · rintro ⟨r, hr, hin⟩
      exact ⟨_, List.mem_map_of_mem hr, hin⟩
  rw [below_eq_count haligned.ascending, Nat.count_eq_card_filter_range,
    Nat.count_eq_card_filter_range]
  exact congrArg Finset.card (Finset.filter_congr fun b _ => hheld b)

/-- What `steal_split` adds up over a window of whole groups. -/
theorem spanBytes_missingWithin {missing : List (Nat × Nat)} (h : AlignedRuns total missing)
    (hfits : total ≤ u64Max) {u v : Nat} (hu : u % chunkGroupBytes = 0)
    (hvmod : v % chunkGroupBytes = 0 ∨ v = total) :
    spanBytes (missingWithin missing u v) = missingBytes missing u v := by
  unfold missingBytes
  rw [← h.below_eq hfits, ← h.below_eq hfits]
  rcases Nat.le_total u v with huv | hvu
  · exact missing_bytes h hfits hu huv hvmod
  · have hmono := below_mono (fun p hp => Nat.le_of_lt ((h.spans hfits).2.ascending.1 p hp)) hvu
    unfold missingWithin
    rw [clip_of_ge hvu, Nat.sub_eq_zero_of_le hmono]
    rfl

/-! ## The choice of the range -/

/-- The fold keeps a candidate of the most stealable bytes. -/
theorem foldl_mostStealable (l : List StealCandidate) (best : Option StealCandidate)
    {c : StealCandidate}
    (h : l.foldl (fun best c =>
      match best with
      | none => some c
      | some b => if b.stealable ≤ c.stealable then some c else some b) best = some c) :
    (best = some c ∨ c ∈ l) ∧ (∀ b, best = some b → b.stealable ≤ c.stealable) ∧
      ∀ d ∈ l, d.stealable ≤ c.stealable := by
  induction l generalizing best with
  | nil => exact ⟨Or.inl h, fun b hb => by rw [Option.some.inj (hb.symm.trans h)],
      fun d hd => absurd hd List.not_mem_nil⟩
  | cons d l ih =>
    rw [List.foldl_cons] at h
    rcases ih _ h with ⟨hmem, hbest, hrest⟩
    cases best with
    | none =>
      refine ⟨Or.inr ?_, fun b hb => (nomatch hb), List.forall_mem_cons.mpr ⟨hbest d rfl, hrest⟩⟩
      rcases hmem with heq | hin
      · exact Option.some.inj heq ▸ List.mem_cons_self
      · exact List.mem_cons_of_mem _ hin
    | some b =>
      dsimp only at hmem hbest
      split at hmem
      · rename_i hle
        rw [if_pos hle] at hbest
        have hd := hbest d rfl
        refine ⟨Or.inr ?_, ?_, List.forall_mem_cons.mpr ⟨hd, hrest⟩⟩
        · rcases hmem with heq | hin
          · exact Option.some.inj heq ▸ List.mem_cons_self
          · exact List.mem_cons_of_mem _ hin
        · intro b' hb'
          rw [← Option.some.inj hb']
          exact Nat.le_trans hle hd
      · rename_i hlt
        rw [if_neg hlt] at hbest
        have hb := hbest b rfl
        refine ⟨?_, ?_, List.forall_mem_cons.mpr ⟨?_, hrest⟩⟩
        · rcases hmem with heq | hin
          · exact Or.inl heq
          · exact Or.inr (List.mem_cons_of_mem _ hin)
        · intro b' hb'
          rw [← Option.some.inj hb']
          exact hb
        · omega

/-- The chosen candidate is one of them, and none has more stealable bytes. -/
theorem mostStealable_spec {l : List StealCandidate} {c : StealCandidate}
    (h : mostStealable l = some c) : c ∈ l ∧ ∀ d ∈ l, d.stealable ≤ c.stealable := by
  rcases foldl_mostStealable l none h with ⟨hmem, -, hall⟩
  rcases hmem with hnone | hmem
  · cases hnone
  · exact ⟨hmem, hall⟩

/-- A range in flight that may be split. -/
structure Eligible (missing : List (Nat × Nat)) (coveredFrom : Nat → Nat → Option Nat)
    (start len from_ : Nat) : Prop where
  covered : coveredFrom start len = some from_
  enough_missing : minSplitSize ≤ missingBytes missing start (start + len)
  enough_stealable : minStolen ≤ missingBytes missing from_ (start + len)

/-- The filter of `steal_split` lets the eligible ranges through. -/
theorem stealCandidate_eq_some {missing : List (Nat × Nat)} {coveredFrom : Nat → Nat → Option Nat}
    (hfits : total ≤ u64Max) (hmissing : AlignedRuns total missing)
    (hcover : ∀ start len from_, coveredFrom start len = some from_ →
      start ≤ from_ ∧ (from_ = start ∨ from_ % chunkGroupBytes = 0))
    {r : Nat × Nat} (hr : GroupAligned total r) {i : Nat} {c : StealCandidate} :
    stealCandidate missing coveredFrom (r, i) = some c ↔
      ∃ from_, Eligible missing coveredFrom r.1 r.2 from_ ∧
        c = ⟨i, r.1, r.2, from_, missingBytes missing from_ (r.1 + r.2)⟩ := by
  have hstop : saturatingAdd r.1 r.2 = r.1 + r.2 :=
    Nat.min_eq_left (Nat.le_trans hr.end_le hfits)
  unfold stealCandidate
  dsimp only
  cases hfrom : coveredFrom r.1 r.2 with
  | none =>
    constructor
    · intro h
      cases h
    · rintro ⟨from_, heligible, -⟩
      exact absurd (hfrom.symm.trans heligible.covered) (by simp)
  | some from_ =>
    have hmod : from_ % chunkGroupBytes = 0 := by
      rcases (hcover _ _ _ hfrom).2 with heq | hmod
      · rw [heq]
        exact hr.start_mod
      · exact hmod
    dsimp only
    rw [hstop, spanBytes_missingWithin hmissing hfits hr.start_mod hr.end_mod,
      spanBytes_missingWithin hmissing hfits hmod hr.end_mod]
    constructor
    · intro h
      split at h
      · rename_i hboth
        exact ⟨from_, ⟨hfrom, hboth.1, hboth.2⟩, (Option.some.inj h).symm⟩
      · cases h
    · rintro ⟨from', heligible, rfl⟩
      rw [Option.some.inj (hfrom.symm.trans heligible.covered)] at *
      rw [if_pos ⟨heligible.enough_missing, heligible.enough_stealable⟩]

/-! ## The stolen tail -/

/-- A tail of a range in flight that is worth a steal. -/
structure WorthwhileTail (missing : List (Nat × Nat)) (start len from_ : Nat)
    (tail : AlignedRange) : Prop where
  fetchStart_mod : tail.fetchStart % chunkGroupBytes = 0
  fetchEnd_eq : tail.fetchEnd = start + len
  proper : start < tail.fetchStart ∧ tail.fetchStart < tail.fetchEnd
  covered : from_ ≤ tail.fetchStart
  stolen : minStolen ≤ missingBytes missing tail.fetchStart tail.fetchEnd
  kept : minVictimKeep ≤ missingBytes missing start tail.fetchStart

/-- Rounding a point down to a group keeps the whole groups missing before it. -/
theorem missingBytes_floor {missing : List (Nat × Nat)} (hfits : total ≤ u64Max)
    (hmissing : AlignedRuns total missing) {start k x : Nat}
    (hstart : start % chunkGroupBytes = 0) (hk : k % chunkGroupBytes = 0) (hlow : start ≤ x)
    (hx : x ≤ total) (hle : k ≤ missingBytes missing start x) :
    k ≤ missingBytes missing start (x / chunkGroupBytes * chunkGroupBytes) := by
  have hspans := (hmissing.spans hfits).2
  have hfloor : x / chunkGroupBytes * chunkGroupBytes ≤ x := Nat.div_mul_le_self _ _
  have hmod := hspans.below_mod (Nat.mul_mod_left _ _) (Nat.le_trans hfloor hx)
  have hfirst := hspans.below_mod hstart (Nat.le_trans hlow hx)
  have hgain := below_le_add hspans.ascending hfloor
  unfold missingBytes at *
  rw [← hmissing.below_eq hfits, ← hmissing.below_eq hfits] at *
  generalize below (runSpans missing) (x / chunkGroupBytes * chunkGroupBytes) = b at hmod hgain ⊢
  generalize below (runSpans missing) x = m at hle hgain
  generalize below (runSpans missing) start = a at hfirst hle ⊢
  clear hmissing hspans
  unfold chunkGroupBytes at *
  omega

/-- Rounding down leaves a group. -/
theorem floor_eq {x : Nat} (hx : x % chunkGroupBytes = 0) :
    x / chunkGroupBytes * chunkGroupBytes = x := Nat.div_mul_cancel (Nat.dvd_of_mod_eq_zero hx)

/-- Rounding down does not pass a group. -/
theorem le_floor {x y : Nat} (hx : x % chunkGroupBytes = 0) (hxy : x ≤ y) :
    x ≤ y / chunkGroupBytes * chunkGroupBytes := by
  unfold chunkGroupBytes at *
  omega

/-- Aligning a tail moves its start down to a group and leaves its end. -/
theorem alignRange_tail {split stop : Nat} (hfits : total ≤ u64Max) (hsplit : split < stop)
    (hstop : stop ≤ total) (hmod : stop % chunkGroupBytes = 0 ∨ stop = total) :
    ∃ tail, alignRange split (stop - split) total = .ok tail ∧
      tail.fetchStart = split / chunkGroupBytes * chunkGroupBytes ∧ tail.fetchEnd = stop := by
  have hend : split + (stop - split) = stop := Nat.add_sub_cancel' (Nat.le_of_lt hsplit)
  have hout : startsOutside split (stop - split) total = false := by
    unfold startsOutside
    rw [if_neg (by omega)]
    exact decide_eq_false (by omega)
  refine ⟨buildAlignedRange split stop total, ?_, rfl, ?_⟩
  · unfold alignRange
    rw [hend, hout, if_neg (by simp), if_neg (by omega), if_neg (by omega), if_neg (by omega)]
  · unfold buildAlignedRange saturatingMul divCeil
    dsimp only
    unfold chunkGroupBytes at *
    omega

/-- The missing runs of a range of whole groups, made canonical. -/
structure MissingRuns (missing : List (Nat × Nat)) (start stop : Nat) (runs : Spans) : Prop where
  ascending : runs.Ascending
  inside : ∀ p ∈ runs, start ≤ p.1 ∧ p.2 ≤ stop
  below_eq : ∀ x, start ≤ x → x ≤ stop → below runs x = missingBytes missing start x
  bytes_eq : spanBytes runs = missingBytes missing start stop
  size_eq : size runs = missingBytes missing start stop

/-- A range that misses something has missing runs. -/
theorem canonicalize_missing {missing : List (Nat × Nat)} (hfits : total ≤ u64Max)
    (hmissing : AlignedRuns total missing) {start stop : Nat}
    (hstart : start % chunkGroupBytes = 0) (hle : start ≤ stop) (hend : stop ≤ total)
    (hmod : stop % chunkGroupBytes = 0 ∨ stop = total) (hpos : 0 < missingBytes missing start stop) :
    ∃ first later, canonicalizeRanges
        ((missingWithin missing start stop).map fun p => (p.1, p.2 - p.1)) total =
        .ok (first :: later) ∧ MissingRuns missing start stop (first :: later) := by
  have hspans := (hmissing.spans hfits).2
  have haligned : AlignedSpans total (missingWithin missing start stop) := hspans.clip hstart hmod
  rcases haligned.runs hfits with ⟨hruns, hback⟩
  have hcanon := canonicalizeRanges_aligned hruns hfits
  rw [hback] at hcanon
  have hinside : ∀ p ∈ missingWithin missing start stop, start ≤ p.1 ∧ p.2 ≤ stop := by
    intro q hq
    rcases mem_clip hq with ⟨-, p, -, rfl⟩
    exact ⟨Nat.le_max_right _ _, Nat.min_le_right _ _⟩
  have hbelow : ∀ x, start ≤ x → x ≤ stop →
      below (missingWithin missing start stop) x = missingBytes missing start x := by
    intro x hlow hhigh
    unfold missingBytes
    rw [← hmissing.below_eq hfits, ← hmissing.below_eq hfits]
    exact below_clip (fun p hp => Nat.le_of_lt (hspans.ascending.1 p hp)) hlow hhigh
  rw [hcanon]
  generalize missingWithin missing start stop = spans at haligned hinside hbelow
  rcases spans with - | ⟨head, rest⟩
  · rw [← hbelow stop hle (Nat.le_refl _)] at hpos
    exact absurd hpos (Nat.lt_irrefl 0)
  rcases mergeFrom_spec haligned.ascending with ⟨hasc, hmerged, firstEnd, later, hhead, -⟩
  have hwithin := mergeFrom_within hinside
  have hall : ∀ x, start ≤ x → x ≤ stop →
      below (mergeFrom head rest) x = missingBytes missing start x :=
    fun x hlow hhigh => (hmerged x).trans (hbelow x hlow hhigh)
  have hsize : size (mergeFrom head rest) = missingBytes missing start stop := by
    rw [← hall stop hle (Nat.le_refl _)]
    exact (below_of_ge fun p hp => ⟨Nat.le_of_lt (hasc.1 p hp), (hwithin p hp).2⟩).symm
  have hbytes : spanBytes (mergeFrom head rest) = missingBytes missing start stop := by
    have hstop : below (mergeFrom head rest) stop ≤ u64Max :=
      Nat.le_trans (below_le hasc stop) (Nat.le_trans hend hfits)
    rw [hall stop hle (Nat.le_refl _), ← hsize] at hstop
    unfold spanBytes
    rw [foldl_saturatingAdd _ (Nat.zero_le _), Nat.zero_add, ← hsize]
    exact Nat.min_eq_left hstop
  refine ⟨(head.1, firstEnd), later, congrArg Except.ok hhead, ?_⟩
  rw [← hhead]
  exact ⟨hasc, hwithin, hall, hbytes, hsize⟩

/-- The split of a range that may be split: nothing goes out of bounds, and a tail is worth it. -/
theorem stealTail_spec {missing : List (Nat × Nat)} (hfits : total ≤ u64Max)
    (hmissing : AlignedRuns total missing) {c : StealCandidate} {stop : Nat}
    (hstop : c.start + c.len = stop) (hrange : GroupAligned total (c.start, c.len))
    (hfrom : c.coveredFrom % chunkGroupBytes = 0)
    (henough : minSplitSize ≤ missingBytes missing c.start stop)
    (hstealable : minStolen ≤ missingBytes missing c.coveredFrom stop)
    (stealerRate victimRate : Option Nat) :
    ∃ out, stealTail c c.start stop missing total stealerRate victimRate = .ok out ∧
      ∀ victim tail, out = some (victim, tail) →
        victim = c.index ∧ WorthwhileTail missing c.start c.len c.coveredFrom tail := by
  rcases hrange with ⟨hstart, hend, hmod⟩
  dsimp only at hstart hend hmod
  rw [hstop] at hend hmod
  have hdeclined : ∃ out, (pure none : Except SplitError (Option (Nat × AlignedRange))) = .ok out ∧
      ∀ victim tail, out = some (victim, tail) →
        victim = c.index ∧ WorthwhileTail missing c.start c.len c.coveredFrom tail :=
    ⟨none, rfl, fun victim tail h => nomatch h⟩
  have hpos : 0 < missingBytes missing c.start stop := Nat.lt_of_lt_of_le (by decide) henough
  rcases canonicalize_missing hfits hmissing hstart (by omega) hend hmod hpos with
    ⟨⟨firstMissing, firstEnd⟩, later, hcanon, hruns⟩
  generalize hm : missingBytes missing c.start stop = m at henough hruns
  unfold stealTail
  rw [hcanon]
  dsimp only [liftRange, bind, Except.bind]
  rw [hruns.bytes_eq]
  cases hkeeps : victimKeeps (missingBytes missing c.start stop) stealerRate victimRate with
  | none => exact hdeclined
  | some kept =>
    dsimp only
    rw [hm]
    generalize hkeep : min (max kept minVictimKeep) (m - minStolen) = keep
    have hleast : minVictimKeep ≤ keep ∧ keep + minStolen ≤ m ∧ keep < m := by
      unfold minStolen minVictimKeep minSplitSize at *
      omega
    have hsize := hruns.size_eq
    have hbound : ∀ p ∈ (firstMissing, firstEnd) :: later, p.2 ≤ u64Max := fun p hp =>
      Nat.le_trans (hruns.inside p hp).2 (Nat.le_trans hend hfits)
    have hmfits : m ≤ u64Max := by
      rw [← hm, ← hruns.below_eq stop (by omega) (Nat.le_refl _)]
      exact Nat.le_trans (below_le hruns.ascending stop) (Nat.le_trans hend hfits)
    rcases findSplit_spec hruns.ascending hbound (by rw [hsize, hm]; omega) (Nat.zero_le keep)
      (by rw [hsize, hm]; omega) with ⟨split, hfind, hbefore, p, hp, hlow, hhigh⟩
    have hstartSplit : c.start ≤ split := Nat.le_trans (hruns.inside p hp).1 hlow
    have hsplitStop : split < stop := Nat.lt_of_lt_of_le hhigh (hruns.inside p hp).2
    rw [Nat.zero_add, hruns.below_eq split hstartSplit (Nat.le_of_lt hsplitStop)] at hbefore
    rw [hfind]
    dsimp only
    by_cases hpast : stop ≤ max split c.coveredFrom
    · rw [if_pos hpast]
      exact hdeclined
    rw [if_neg hpast]
    have hsub : checkedSub stop (max split c.coveredFrom) =
        .ok (stop - max split c.coveredFrom) := if_pos (by omega)
    rcases alignRange_tail hfits (Nat.lt_of_not_le hpast) hend hmod with
      ⟨tail, halign, htailStart, htailEnd⟩
    rw [hsub]
    dsimp only
    rw [halign]
    dsimp only
    by_cases hdecline : tail.fetchStart ≤ firstMissing ∨ stop ≤ tail.fetchStart
    · rw [if_pos hdecline]
      exact hdeclined
    rw [if_neg hdecline]
    refine ⟨_, rfl, fun victim tail' h => ?_⟩
    cases h
    have hfirst := (hruns.inside _ List.mem_cons_self).1
    refine ⟨rfl, ?_, htailEnd.trans hstop.symm, ⟨by omega, by omega⟩, ?_, ?_, ?_⟩
    · rw [htailStart]
      exact Nat.mul_mod_left _ _
    · rw [htailStart]
      exact le_floor hfrom (Nat.le_max_right _ _)
    · rw [htailEnd, htailStart]
      rcases Nat.le_total c.coveredFrom split with hle | hle
      · -- the split point stands: what is left past it only grows by rounding down
        rw [Nat.max_eq_left hle]
        have hparts := missingBytes_add missing hstartSplit (Nat.le_of_lt hsplitStop)
        have hgrows := missingBytes_anti missing (Nat.div_mul_le_self split chunkGroupBytes) stop
        omega
      · rw [Nat.max_eq_right hle, floor_eq hfrom]
        exact hstealable
    · rw [htailStart]
      rcases Nat.le_total c.coveredFrom split with hle | hle
      · rw [Nat.max_eq_left hle]
        exact missingBytes_floor hfits hmissing hstart (by decide) hstartSplit (by omega) (by omega)
      · -- the victim keeps what lies before the cover of the stealer as well
        rw [Nat.max_eq_right hle, floor_eq hfrom]
        have hgrows := missingBytes_mono missing c.start hle
        omega

/-- A range in flight: its place, the range, and where the cover of the stealer starts. -/
structure Stolen (missing remaining : List (Nat × Nat)) (coveredFrom : Nat → Nat → Option Nat)
    (victim start len from_ : Nat) : Prop where
  at_victim : remaining[victim]? = some (start, len)
  eligible : Eligible missing coveredFrom start len from_
  most : ∀ (i start' len' from' : Nat), remaining[i]? = some (start', len') →
    Eligible missing coveredFrom start' len' from' →
    missingBytes missing from' (start' + len') ≤ missingBytes missing from_ (start + len)

/-- What `steal_split` measures ends after it starts. -/
theorem canonicalizeRanges_lt {spans : List (Nat × Nat)} {runs : Spans}
    (h : canonicalizeRanges spans total = .ok runs) : ∀ p ∈ runs, p.1 < p.2 := by
  have hspan : ∀ span q, canonicalSpan total span = .ok (some q) → q.1 < q.2 := by
    intro span q hq
    unfold canonicalSpan at hq
    dsimp only at hq
    split at hq
    · cases hq
    · split at hq
      · cases hq
      · split at hq
        · cases hq
        · split at hq
          · rename_i hlt
            rw [← Option.some.inj (Except.ok.inj hq)]
            exact hlt
          · cases hq
  unfold canonicalizeRanges at h
  cases hmap : spans.mapM (canonicalSpan total) with
  | error e =>
    rw [hmap] at h
    cases h
  | ok canon =>
    rw [hmap] at h
    have hcanon : ∀ p ∈ canon.filterMap id, p.1 < p.2 := by
      intro p hp
      rcases List.mem_filterMap.mp hp with ⟨o, ho, hop⟩
      rcases exists_of_mapM_eq_ok hmap ho with ⟨span, -, hspan'⟩
      exact hspan span p (hop ▸ hspan')
    have hruns : merge ((canon.filterMap id).mergeSort fun p q => decide (p.1 ≤ q.1)) = runs :=
      Except.ok.inj h
    rw [← hruns]
    have hsorted : ∀ p ∈ (canon.filterMap id).mergeSort fun p q => decide (p.1 ≤ q.1),
        p.1 < p.2 := fun p hp => hcanon p (List.mem_mergeSort.mp hp)
    generalize (canon.filterMap id).mergeSort (fun p q => decide (p.1 ≤ q.1)) = sorted at hsorted
    cases sorted with
    | nil => exact fun p hp => absurd hp List.not_mem_nil
    | cons p rest =>
      rcases List.forall_mem_cons.mp hsorted with ⟨hp, hrest⟩
      exact mergeFrom_lt hp hrest

/-- A steal takes a worthwhile suffix of the range that has the most to take, and never fails. -/
theorem steal_split_worthwhile {remaining missing : List (Nat × Nat)} (hfits : total ≤ u64Max)
    (hremaining : ∀ r ∈ remaining, GroupAligned total r) (hmissing : AlignedRuns total missing)
    (coverage : Coverage) (stealerRate : Option Nat) (victimRate : Nat → Option Nat) :
    (∃ out, stealSplit remaining missing total
        (fun start len => coveredSuffixStart coverage start len total) stealerRate victimRate =
        .ok out ∧
      ∀ victim tail, out = some (victim, tail) → ∃ start len from_,
        Stolen missing remaining (fun start len => coveredSuffixStart coverage start len total)
          victim start len from_ ∧ WorthwhileTail missing start len from_ tail) ∧
      (∀ u v, ∀ p ∈ missingWithin missing u v, p.1 < p.2) ∧
      ∀ spans runs, canonicalizeRanges spans total = .ok runs → ∀ p ∈ runs, p.1 < p.2 := by
  refine ⟨?_, fun u v p hp => (mem_clip hp).1, fun spans runs h => canonicalizeRanges_lt h⟩
  generalize hcover : (fun start len => coveredSuffixStart coverage start len total) = coveredFrom
  have hcovered : ∀ start len from_, coveredFrom start len = some from_ →
      start ≤ from_ ∧ (from_ = start ∨ from_ % chunkGroupBytes = 0) := by
    intro start len from_ h
    rw [← hcover] at h
    exact coveredSuffixStart_spec h
  have hcandidate : ∀ c, c ∈ remaining.zipIdx.filterMap (stealCandidate missing coveredFrom) ↔
      ∃ start len from_, remaining[c.index]? = some (start, len) ∧
        Eligible missing coveredFrom start len from_ ∧
        c = ⟨c.index, start, len, from_, missingBytes missing from_ (start + len)⟩ := by
    intro c
    rw [List.mem_filterMap]
    constructor
    · rintro ⟨⟨⟨start, len⟩, i⟩, hmem, hsome⟩
      have hat := List.mem_zipIdx_iff_getElem?.mp hmem
      rcases (stealCandidate_eq_some hfits hmissing hcovered
        (hremaining _ (List.mem_of_getElem? hat))).mp hsome with ⟨from_, heligible, rfl⟩
      exact ⟨start, len, from_, hat, heligible, rfl⟩
    · rintro ⟨start, len, from_, hat, heligible, heq⟩
      refine ⟨((start, len), c.index), List.mem_zipIdx_iff_getElem?.mpr hat, ?_⟩
      exact (stealCandidate_eq_some hfits hmissing hcovered
        (hremaining _ (List.mem_of_getElem? hat))).mpr ⟨from_, heligible, heq⟩
  unfold stealSplit
  cases hmost : mostStealable (remaining.zipIdx.filterMap (stealCandidate missing coveredFrom)) with
  | none => exact ⟨none, rfl, fun victim tail h => nomatch h⟩
  | some c =>
    rcases mostStealable_spec hmost with ⟨hmem, hall⟩
    rcases (hcandidate c).mp hmem with ⟨start, len, from_, hat, heligible, heq⟩
    have hrange := hremaining _ (List.mem_of_getElem? hat)
    have hlen : 0 < len := by
      -- an empty range misses nothing
      by_contra hnone
      have hzero : missingBytes missing start (start + len) = 0 := by
        rw [Nat.eq_zero_of_not_pos hnone]
        exact Nat.sub_self _
      exact absurd heligible.enough_missing (by rw [hzero]; decide)
    have hfrom : from_ % chunkGroupBytes = 0 := by
      rcases (hcovered _ _ _ heligible.covered).2 with hsame | hmod
      · rw [hsame]
        exact hrange.start_mod
      · exact hmod
    have hstolen : Stolen missing remaining coveredFrom c.index start len from_ := by
      refine ⟨hat, heligible, fun i start' len' from' hat' heligible' => ?_⟩
      have hle := hall _ ((hcandidate ⟨i, start', len', from',
        missingBytes missing from' (start' + len')⟩).mpr
        ⟨start', len', from', hat', heligible', rfl⟩)
      rw [heq] at hle
      exact hle
    have hruns : AlignedRuns total [(start, len)] :=
      ⟨fun r hr => List.mem_singleton.mp hr ▸ ⟨hlen, hrange⟩, List.pairwise_singleton _ _⟩
    have hcanon := canonicalizeRanges_aligned hruns hfits
    rw [(hruns.spans hfits).1] at hcanon
    have hstop : c.start + c.len = start + len := by rw [heq]
    rcases stealTail_spec hfits hmissing hstop (by rw [heq]; exact hrange)
      (by rw [heq]; exact hfrom)
      (by rw [heq]; exact heligible.enough_missing) (by rw [heq]; exact heligible.enough_stealable)
      stealerRate (victimRate c.index) with ⟨out, hout, hworth⟩
    refine ⟨out, ?_, fun victim tail h => ?_⟩
    · dsimp only
      rw [show canonicalizeRanges [(c.start, c.len)] total = .ok [(start, start + len)] by
        rw [heq]; exact hcanon]
      rw [← hout]
      rw [heq]
      rfl
    · rcases hworth victim tail h with ⟨rfl, htail⟩
      rw [heq] at htail
      exact ⟨start, len, from_, hstolen, htail⟩

/-- A range of 32 MiB in flight that misses all of it, under a cover of its one block: the free
source takes half. -/
theorem steal_split_even :
    ∃ tail : AlignedRange, (tail.fetchStart, tail.fetchEnd) = (16777216, 33554432) ∧
      stealSplit [(0, 33554432)] [(0, 33554432)] 33554432
        (fun start len => coveredSuffixStart ⟨[1]⟩ start len 33554432) none (fun _ => none) =
        .ok (some (0, tail)) ∧
      ∃ start len from_, Stolen [(0, 33554432)] [(0, 33554432)]
          (fun start len => coveredSuffixStart ⟨[1]⟩ start len 33554432) 0 start len from_ ∧
        WorthwhileTail [(0, 33554432)] start len from_ tail := by
  have haligned : GroupAligned 33554432 (0, 33554432) :=
    ⟨by decide, by decide, Or.inr rfl⟩
  have hmissing : AlignedRuns 33554432 [(0, 33554432)] :=
    ⟨fun r hr => List.mem_singleton.mp hr ▸ ⟨by decide, haligned⟩, List.pairwise_singleton _ _⟩
  have hrun : stealSplit [(0, 33554432)] [(0, 33554432)] 33554432
      (fun start len => coveredSuffixStart ⟨[1]⟩ start len 33554432) none (fun _ => none) =
      .ok (some (0, ⟨16777216, 33554432, [16384, 32768], 33554432⟩)) := by
    decide +kernel
  rcases (steal_split_worthwhile (by unfold u64Max; omega)
    (fun r hr => List.mem_singleton.mp hr ▸ haligned) hmissing ⟨[1]⟩ none fun _ => none).1 with
    ⟨out, hout, hworth⟩
  refine ⟨_, rfl, hrun, hworth 0 _ ?_⟩
  exact Except.ok.inj (hout.symm.trans hrun)

end Decdn.Client
