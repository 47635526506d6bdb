import Decdn.Dht.Keyspace
import Decdn.Foundations.SpanSets
import Mathlib.Data.List.Find

/-!
# Delivered spans that are not paid for

A lane notes the spans it delivered and did not pay for, and takes them back to bill
them (`ledger.rs`).  One list under one lock holds the spans of every blob, so the
calls of all tasks happen one after another.

Main results:

- Theorem `mergeSpans_spec`: merging spans separates them and keeps their bytes.
- Theorem `unpaid_spans_kept`: a noted span is held, or one call took it.
-/

namespace Decdn.Client

open Dht (ContentHash)
open Spans

/-! ## Merging -/

/-- How `sort_unstable` orders pairs. -/
def pairLe (p q : Nat × Nat) : Bool := decide (p.1 < q.1 ∨ p.1 = q.1 ∧ p.2 ≤ q.2)

/-- One round of the loop of `merge_spans`. -/
def mergeRound (merged : Spans) (span : Nat × Nat) : Spans :=
  match merged.getLast? with
  | some last =>
    if span.1 ≤ last.2 then merged.dropLast ++ [(last.1, max last.2 span.2)] else merged ++ [span]
  | none => merged ++ [span]

/-- `merge_spans`: ranges by their start and their length. -/
def mergeSpans (spans : Spans) : List (Nat × Nat) :=
  let spans := (spans.filter fun p => decide (p.1 < p.2)).mergeSort pairLe
  (spans.foldl mergeRound []).map fun p => (p.1, p.2 - p.1)

/-- The spans of ranges. -/
def rangeSpans (ranges : List (Nat × Nat)) : Spans := ranges.map fun r => (r.1, r.1 + r.2)

variable {spans merged : Spans}

/-- The loop merges its spans from the left. -/
theorem foldl_mergeRound (merged : Spans) (last : Nat × Nat) (spans : Spans) :
    spans.foldl mergeRound (merged ++ [last]) = merged ++ mergeFrom last spans := by
  induction spans generalizing merged last with
  | nil => rfl
  | cons p rest ih =>
    rw [List.foldl_cons, mergeRound, List.getLast?_concat, mergeFrom]
    dsimp only
    split
    · rw [List.dropLast_concat, ih]
    · rw [ih, List.append_assoc, List.singleton_append]

theorem foldl_mergeRound_nil (spans : Spans) : spans.foldl mergeRound [] = merge spans := by
  cases spans with
  | nil => rfl
  | cons p rest => exact foldl_mergeRound [] p rest

/-- Pairs are sorted by their starts. -/
theorem mergeSort_pairLe (spans : Spans) :
    (spans.mergeSort pairLe).Pairwise fun p q => p.1 ≤ q.1 := by
  have htrans : ∀ p q r : Nat × Nat, pairLe p q = true → pairLe q r = true → pairLe p r = true := by
    intro p q r hpq hqr
    have hpq := of_decide_eq_true hpq
    have hqr := of_decide_eq_true hqr
    exact decide_eq_true (by omega)
  have htotal : ∀ p q : Nat × Nat, (pairLe p q || pairLe q p) = true := by
    intro p q
    rw [Bool.or_eq_true, pairLe, pairLe, decide_eq_true_iff, decide_eq_true_iff]
    omega
  refine (List.pairwise_mergeSort htrans htotal spans).imp fun {p q} hle => ?_
  have hle := of_decide_eq_true hle
  omega

/-- The ranges of spans that are not empty are the spans. -/
theorem rangeSpans_map (h : ∀ p ∈ spans, p.1 < p.2) :
    rangeSpans (spans.map fun p => (p.1, p.2 - p.1)) = spans := by
  unfold rangeSpans
  rw [List.map_map]
  refine (List.map_congr_left fun p hp => ?_).trans (List.map_id _)
  exact Prod.ext rfl (Nat.add_sub_cancel' (Nat.le_of_lt (h p hp)))

theorem mergeSpans_nil : mergeSpans [] = [] := by
  unfold mergeSpans
  rw [List.filter_nil, List.mergeSort_nil]
  rfl

/-- Merging separates the spans and keeps their points. -/
theorem mergeSpans_spec (spans : Spans) :
    (rangeSpans (mergeSpans spans)).Separated ∧
      ∀ x, Held (rangeSpans (mergeSpans spans)) x ↔ Held spans x := by
  let kept := (spans.filter fun p => decide (p.1 < p.2)).mergeSort pairLe
  have hmem : ∀ p, p ∈ kept ↔ p ∈ spans ∧ p.1 < p.2 := by
    intro p
    rw [List.mem_mergeSort, List.mem_filter, decide_eq_true_iff]
  rcases merge_sorted (fun p hp => ((hmem p).mp hp).2) (mergeSort_pairLe _) with ⟨hsep, hheld⟩
  have hranges : rangeSpans (mergeSpans spans) = merge kept := by
    rw [mergeSpans, foldl_mergeRound_nil]
    exact rangeSpans_map hsep.1
  rw [hranges]
  refine ⟨hsep, fun x => (hheld x).trans ⟨?_, ?_⟩⟩
  · rintro ⟨p, hp, hin⟩
    exact ⟨p, ((hmem p).mp hp).1, hin⟩
  · rintro ⟨p, hp, hlow, hhigh⟩
    exact ⟨p, (hmem p).mpr ⟨hp, Nat.lt_of_le_of_lt hlow hhigh⟩, hlow, hhigh⟩

/-- A merged span lies in one of the ranges. -/
theorem mergeSpans_contains {p : Nat × Nat} (hp : p ∈ spans) (hne : p.1 < p.2) :
    ∃ r ∈ mergeSpans spans, r.1 ≤ p.1 ∧ p.2 ≤ r.1 + r.2 := by
  rcases mergeSpans_spec spans with ⟨hsep, hheld⟩
  rcases hsep.contains hne fun x hlow hhigh => (hheld x).mpr ⟨p, hp, hlow, hhigh⟩ with
    ⟨q, hq, hin⟩
  rcases List.mem_map.mp hq with ⟨r, hr, rfl⟩
  exact ⟨r, hr, hin⟩

/-- Merged spans stay within the bounds of the spans. -/
theorem mergeSpans_within {u v : Nat} (h : ∀ p ∈ spans, u ≤ p.1 ∧ p.2 ≤ v) :
    ∀ r ∈ mergeSpans spans, u ≤ r.1 ∧ r.1 + r.2 ≤ v := by
  intro r hr
  rcases mergeSpans_spec spans with ⟨hsep, hheld⟩
  have hmem : (r.1, r.1 + r.2) ∈ rangeSpans (mergeSpans spans) := List.mem_map_of_mem hr
  have hne := hsep.1 _ hmem
  rcases (hheld r.1).mp ⟨_, hmem, Nat.le_refl _, hne⟩ with ⟨p, hp, hlow, -⟩
  rcases (hheld (r.1 + r.2 - 1)).mp ⟨_, hmem, by dsimp only at hne ⊢; omega,
    by dsimp only at hne ⊢; omega⟩ with ⟨q, hq, -, hhigh⟩
  have hp := h p hp
  have hq := h q hq
  dsimp only at hne
  omega

/-! ## The list of a lane -/

/-- An entry of `unpaid`. -/
structure UnpaidSpan where
  hash : ContentHash
  start : Nat
  stop : Nat
deriving DecidableEq

/-- The bytes of an entry. -/
def UnpaidSpan.span (s : UnpaidSpan) : Nat × Nat := (s.start, s.stop)

/-- `note_unpaid`. -/
def noteUnpaid (unpaid : List UnpaidSpan) (hash : ContentHash) (start stop : Nat) :
    List UnpaidSpan :=
  if stop ≤ start then unpaid else unpaid ++ [⟨hash, start, stop⟩]

/-- What both takes do: `retain` the other entries, and merge those it drops. -/
def drainUnpaid (unpaid : List UnpaidSpan) (takes : UnpaidSpan → Bool) :
    List UnpaidSpan × List (Nat × Nat) :=
  (unpaid.filter fun s => !takes s, mergeSpans ((unpaid.filter takes).map UnpaidSpan.span))

/-- `take_unpaid`. -/
def takeUnpaid (unpaid : List UnpaidSpan) (hash : ContentHash) :
    List UnpaidSpan × List (Nat × Nat) :=
  drainUnpaid unpaid fun s => s.hash = hash

/-- `take_unpaid_within`. -/
def takeUnpaidWithin (unpaid : List UnpaidSpan) (hash : ContentHash) (start stop : Nat) :
    List UnpaidSpan × List (Nat × Nat) :=
  drainUnpaid unpaid fun s => s.hash = hash ∧ start ≤ s.start ∧ s.stop ≤ stop

/-! ## Calls -/

/-- A call on the list. -/
inductive UnpaidCall where
  | note (hash : ContentHash) (start stop : Nat)
  | take (hash : ContentHash)
  | takeWithin (hash : ContentHash) (start stop : Nat)

namespace UnpaidCall

/-- The list after a call, and the ranges the call returns. -/
def apply (unpaid : List UnpaidSpan) : UnpaidCall → List UnpaidSpan × List (Nat × Nat)
  | note hash start stop => (noteUnpaid unpaid hash start stop, [])
  | take hash => takeUnpaid unpaid hash
  | takeWithin hash start stop => takeUnpaidWithin unpaid hash start stop

/-- The blob of a call. -/
def hash : UnpaidCall → ContentHash
  | note hash _ _ => hash
  | take hash => hash
  | takeWithin hash _ _ => hash

/-- The entry a call adds. -/
def noted : UnpaidCall → Option UnpaidSpan
  | note hash start stop => if start < stop then some ⟨hash, start, stop⟩ else none
  | _ => none

/-- The entries a call takes. -/
def takes : UnpaidCall → UnpaidSpan → Bool
  | note _ _ _, _ => false
  | take hash, s => s.hash = hash
  | takeWithin hash start stop, s => s.hash = hash ∧ start ≤ s.start ∧ s.stop ≤ stop

/-- What a call does to the list. -/
theorem apply_eq (unpaid : List UnpaidSpan) (c : UnpaidCall) :
    apply unpaid c = ((unpaid.filter fun s => !c.takes s) ++ c.noted.toList,
      mergeSpans ((unpaid.filter c.takes).map UnpaidSpan.span)) := by
  cases c with
  | note hash start stop =>
    refine Prod.ext ?_ ?_
    · show noteUnpaid unpaid hash start stop = _
      unfold noteUnpaid noted takes
      by_cases hempty : stop ≤ start
      · simp [hempty, Nat.not_lt_of_le hempty]
      · simp [hempty, Nat.lt_of_not_le hempty]
    · have hnone : unpaid.filter (UnpaidCall.note hash start stop).takes = [] :=
        List.filter_eq_nil_iff.mpr fun s _ => Bool.false_ne_true
      rw [hnone]
      exact mergeSpans_nil.symm
  | take hash => exact Prod.ext (List.append_nil _).symm rfl
  | takeWithin hash start stop => exact Prod.ext (List.append_nil _).symm rfl

/-- A call takes entries of its own blob. -/
theorem hash_of_takes {c : UnpaidCall} {s : UnpaidSpan} (h : c.takes s = true) :
    c.hash = s.hash := by
  cases c with
  | note hash start stop => cases h
  | take hash => exact (of_decide_eq_true h).symm
  | takeWithin hash start stop => exact (of_decide_eq_true h).1.symm

/-- A noted entry is not empty. -/
theorem lt_of_noted {c : UnpaidCall} {s : UnpaidSpan} (h : c.noted = some s) :
    s.start < s.stop := by
  cases c with
  | note hash start stop =>
    change (if start < stop then some _ else none) = some s at h
    split at h
    · rename_i hne
      rw [← Option.some.inj h]
      exact hne
    · cases h
  | take hash => cases h
  | takeWithin hash start stop => cases h

end UnpaidCall

open UnpaidCall

variable {calls : List UnpaidCall} {c : UnpaidCall}

/-- The list after calls. -/
def unpaidAfter (calls : List UnpaidCall) : List UnpaidSpan :=
  calls.foldl (fun unpaid c => (apply unpaid c).1) []

/-- What the call at an index returns. -/
def returned (calls : List UnpaidCall) (j : Nat) : List (Nat × Nat) :=
  (calls[j]?.map fun c => (apply (unpaidAfter (calls.take j)) c).2).getD []

/-- The entries that calls add, each with the index of its call. -/
def notedSpans (calls : List UnpaidCall) : List (UnpaidSpan × Nat) :=
  calls.zipIdx.filterMap fun item => item.1.noted.map fun s => (s, item.2)

/-- The first call that takes an entry. -/
def takenAt (calls : List UnpaidCall) (n : UnpaidSpan × Nat) : Option Nat :=
  (List.range calls.length).find? fun j => decide (n.2 < j) && calls[j]?.any fun c => c.takes n.1

/-! ## One more call -/

theorem notedSpans_concat (calls : List UnpaidCall) (c : UnpaidCall) :
    notedSpans (calls ++ [c]) =
      notedSpans calls ++ (c.noted.map fun s => (s, calls.length)).toList := by
  unfold notedSpans
  rw [List.zipIdx_append, List.filterMap_append]
  congr 1
  cases hnoted : c.noted with
  | none => simp [hnoted]
  | some s => simp [hnoted]

theorem mem_notedSpans {n : UnpaidSpan × Nat} (h : n ∈ notedSpans calls) :
    n.2 < calls.length ∧ n.1.start < n.1.stop := by
  rcases List.mem_filterMap.mp h with ⟨⟨c, i⟩, hitem, hsome⟩
  rcases Option.map_eq_some_iff.mp hsome with ⟨s, hs, rfl⟩
  have hlen := (List.mem_zipIdx hitem).2.1
  rw [Nat.zero_add] at hlen
  exact ⟨hlen, lt_of_noted hs⟩

/-- The new call takes what no earlier call took. -/
theorem takenAt_concat (calls : List UnpaidCall) (c : UnpaidCall) (n : UnpaidSpan × Nat) :
    takenAt (calls ++ [c]) n =
      (takenAt calls n).or
        (if n.2 < calls.length ∧ c.takes n.1 then some calls.length else none) := by
  unfold takenAt
  rw [List.length_append, List.length_singleton, List.range_succ, List.find?_append]
  have hold : (List.range calls.length).find? (fun j => decide (n.2 < j) &&
      (calls ++ [c])[j]?.any fun c => c.takes n.1) =
      (List.range calls.length).find? fun j => decide (n.2 < j) &&
        calls[j]?.any fun c => c.takes n.1 := by
    refine List.find?_congr fun j hj => ?_
    rw [List.getElem?_append_left (List.mem_range.mp hj)]
  rw [hold, List.find?_singleton, List.getElem?_concat_length]
  congr 1
  simp

theorem takenAt_lt {n : UnpaidSpan × Nat} {j : Nat} (h : takenAt calls n = some j) :
    j < calls.length := List.mem_range.mp (List.mem_of_find?_eq_some h)

/-- Who took an entry is a call that takes it. -/
theorem takes_of_takenAt {n : UnpaidSpan × Nat} {j : Nat} (h : takenAt calls n = some j) :
    ∃ c, calls[j]? = some c ∧ c.takes n.1 = true := by
  have hfound := List.find?_some h
  rcases Bool.and_eq_true_iff.mp hfound with ⟨-, hany⟩
  cases hget : calls[j]? with
  | none =>
    rw [hget] at hany
    cases hany
  | some c =>
    rw [hget] at hany
    exact ⟨c, rfl, hany⟩

theorem unpaidAfter_concat (calls : List UnpaidCall) (c : UnpaidCall) :
    unpaidAfter (calls ++ [c]) = (apply (unpaidAfter calls) c).1 := by
  unfold unpaidAfter
  rw [List.foldl_concat]

/-- No call so far takes the entry that the next one adds. -/
theorem takenAt_fresh (calls : List UnpaidCall) (c : UnpaidCall) (s : UnpaidSpan) :
    takenAt (calls ++ [c]) (s, calls.length) = none := by
  rw [takenAt_concat, if_neg fun h => Nat.lt_irrefl _ h.1, Option.or_none]
  refine List.find?_eq_none.mpr fun j hj => ?_
  have hj := List.mem_range.mp hj
  simp [Nat.le_of_lt hj]

/-- What the new call takes was held before. -/
theorem takenAt_concat_last {n : UnpaidSpan × Nat} (hn : n.2 < calls.length) :
    takenAt (calls ++ [c]) n = some calls.length ↔
      takenAt calls n = none ∧ c.takes n.1 = true := by
  rw [takenAt_concat]
  cases hold : takenAt calls n with
  | none => simp [hn]
  | some j =>
    have hj := takenAt_lt hold
    simp [Nat.ne_of_lt hj]

/-- What the earlier calls took stays taken by them. -/
theorem takenAt_concat_of_ne {n : UnpaidSpan × Nat} {j : Nat} (hj : j ≠ calls.length) :
    takenAt (calls ++ [c]) n = some j ↔ takenAt calls n = some j := by
  rw [takenAt_concat]
  cases takenAt calls n with
  | none =>
    rw [Option.none_or]
    split
    · simp [hj.symm]
    · exact Iff.rfl
  | some i => rw [Option.some_or]

/-- A later call does not change what an earlier one returns. -/
theorem returned_concat {j : Nat} (hj : j < calls.length) :
    returned (calls ++ [c]) j = returned calls j := by
  unfold returned
  rw [List.getElem?_append_left hj, List.take_append_of_le_length (Nat.le_of_lt hj)]

theorem returned_last (calls : List UnpaidCall) (c : UnpaidCall) :
    returned (calls ++ [c]) calls.length = (apply (unpaidAfter calls) c).2 := by
  unfold returned
  rw [List.getElem?_concat_length, List.take_left]
  rfl

/-- A call that was not made returns nothing. -/
theorem returned_of_ge {j : Nat} (hj : calls.length ≤ j) : returned calls j = [] := by
  unfold returned
  rw [List.getElem?_eq_none hj]
  rfl

/-! ## All calls -/

/-- The list holds the noted entries that no call took, in their order. -/
theorem unpaidAfter_eq (calls : List UnpaidCall) :
    unpaidAfter calls =
      ((notedSpans calls).filter fun n => (takenAt calls n).isNone).map Prod.fst := by
  induction calls using List.reverseRecOn with
  | nil => rfl
  | append_singleton calls c ih =>
    rw [unpaidAfter_concat, apply_eq, ih, notedSpans_concat, List.filter_append, List.map_append,
      List.filter_map, List.filter_filter]
    dsimp only
    congr 1
    · refine congrArg (List.map Prod.fst) (List.filter_congr fun n hn => ?_)
      rw [takenAt_concat, Function.comp_apply]
      cases takenAt calls n with
      | none => cases c.takes n.1 <;> simp [(mem_notedSpans hn).1]
      | some j => simp
    · cases hnoted : c.noted with
      | none => rfl
      | some s => simp [takenAt_fresh]

/-- A call returns the noted entries that it took, merged. -/
theorem returned_eq (calls : List UnpaidCall) (j : Nat) :
    returned calls j = mergeSpans
      (((notedSpans calls).filter fun n => takenAt calls n = some j).map fun n => n.1.span) := by
  induction calls using List.reverseRecOn with
  | nil => exact mergeSpans_nil.symm
  | append_singleton calls c ih =>
    have hnew : ((c.noted.map fun s => (s, calls.length)).toList.filter fun n =>
        decide (takenAt (calls ++ [c]) n = some j)) = [] := by
      cases hnoted : c.noted with
      | none => rfl
      | some s => simp [takenAt_fresh]
    rw [notedSpans_concat, List.filter_append, hnew, List.append_nil]
    by_cases hj : j = calls.length
    · -- the new call takes from what is held
      subst hj
      have hheld : ((unpaidAfter calls).filter c.takes).map UnpaidSpan.span =
          ((notedSpans calls).filter fun n =>
            (c.takes n.1 && (takenAt calls n).isNone)).map fun n => n.1.span := by
        rw [unpaidAfter_eq, List.filter_map, List.map_map, List.filter_filter]
        rfl
      rw [returned_last, apply_eq]
      dsimp only
      rw [hheld]
      refine congrArg (fun l : List (UnpaidSpan × Nat) => mergeSpans (l.map fun n => n.1.span))
        (List.filter_congr fun n hn => ?_)
      rw [Bool.eq_iff_iff, Bool.and_eq_true, decide_eq_true_iff, Option.isNone_iff_eq_none,
        takenAt_concat_last (mem_notedSpans hn).1]
      exact And.comm
    · have hold : returned (calls ++ [c]) j = returned calls j := by
        rcases Nat.lt_or_gt_of_ne hj with hlt | hgt
        · exact returned_concat hlt
        · rw [returned_of_ge (Nat.le_of_lt hgt), returned_of_ge]
          rw [List.length_append]
          exact hgt
      rw [hold, ih]
      refine congrArg (fun l : List (UnpaidSpan × Nat) => mergeSpans (l.map fun n => n.1.span))
        (List.filter_congr fun n _ => ?_)
      rw [decide_eq_decide]
      exact (takenAt_concat_of_ne hj).symm

/-- Merging gives separated ranges with the bytes of the spans.  After any calls, the list
holds the noted spans that no call took, and the ranges a call returns are those it took,
merged: each taken span lies in one range of a call on its own blob, and a take within a
range returns no byte outside it. -/
theorem unpaid_spans_kept :
    (∀ spans, (rangeSpans (mergeSpans spans)).Separated ∧
      ∀ x, Held (rangeSpans (mergeSpans spans)) x ↔ Held spans x) ∧
    ∀ calls,
      unpaidAfter calls =
        ((notedSpans calls).filter fun n => (takenAt calls n).isNone).map Prod.fst ∧
      (∀ j, returned calls j = mergeSpans
        (((notedSpans calls).filter fun n => takenAt calls n = some j).map fun n => n.1.span)) ∧
      (∀ n ∈ notedSpans calls, ∀ j, takenAt calls n = some j →
        (∃ c, calls[j]? = some c ∧ c.hash = n.1.hash) ∧
        ∃ r ∈ returned calls j, r.1 ≤ n.1.start ∧ n.1.stop ≤ r.1 + r.2) ∧
      ∀ j hash start stop, calls[j]? = some (.takeWithin hash start stop) →
        ∀ r ∈ returned calls j, start ≤ r.1 ∧ r.1 + r.2 ≤ stop := by
  refine ⟨mergeSpans_spec, fun calls => ⟨unpaidAfter_eq calls, returned_eq calls, ?_, ?_⟩⟩
  · intro n hn j htaken
    rcases takes_of_takenAt htaken with ⟨c, hc, htakes⟩
    refine ⟨⟨c, hc, hash_of_takes htakes⟩, ?_⟩
    rw [returned_eq]
    have hmem : n.1.span ∈ ((notedSpans calls).filter fun n =>
        decide (takenAt calls n = some j)).map fun n => n.1.span :=
      List.mem_map_of_mem (List.mem_filter.mpr ⟨hn, decide_eq_true htaken⟩)
    exact mergeSpans_contains hmem (mem_notedSpans hn).2
  · intro j hash start stop hcall
    rw [returned_eq]
    apply mergeSpans_within
    intro p hp
    rcases List.mem_map.mp hp with ⟨n, hn, rfl⟩
    have htaken := of_decide_eq_true (List.mem_filter.mp hn).2
    rcases takes_of_takenAt htaken with ⟨c, hc, htakes⟩
    rw [hcall] at hc
    cases hc
    exact (of_decide_eq_true htakes).2

end Decdn.Client
