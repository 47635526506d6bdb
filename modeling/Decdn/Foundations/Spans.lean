import Mathlib

/-!
# Spans of a line

Lists of half-open spans of numbers in ascending order, measured by how much of them
lies below a point.  The measure adds up over clipping and merging, grows with the
point, and never faster than it.

Main results:

- Theorem `below_le_add`: the measure grows no faster than the point.
- Theorem `below_eq_count`: it counts the points below that lie in a span.
- Theorem `sum_clip`: what is clipped to a window is what the measure gains over it.
- Theorem `mergeFrom_spec`: merging touching spans keeps the measure.
-/

namespace Decdn

/-- Spans of a line, each by its start and its end. -/
abbrev Spans := List (Nat × Nat)

namespace Spans

variable {spans rest : Spans} {x y u v : Nat}

/-- Spans that are not empty and follow each other. -/
def Ascending (spans : Spans) : Prop :=
  (∀ p ∈ spans, p.1 < p.2) ∧ spans.Pairwise fun p q => p.2 ≤ q.1

/-- How much the spans hold. -/
def size (spans : Spans) : Nat := (spans.map fun p => p.2 - p.1).sum

/-- How much the spans hold below a point. -/
def below (spans : Spans) (x : Nat) : Nat := (spans.map fun p => min x p.2 - min x p.1).sum

@[simp]
theorem below_cons (p : Nat × Nat) (spans : Spans) (x : Nat) :
    below (p :: spans) x = min x p.2 - min x p.1 + below spans x := by
  unfold below
  rw [List.map_cons, List.sum_cons]

@[simp]
theorem size_cons (p : Nat × Nat) (spans : Spans) :
    size (p :: spans) = p.2 - p.1 + size spans := by
  unfold size
  rw [List.map_cons, List.sum_cons]

/-- The first span, and the spans after it. -/
theorem ascending_cons {p : Nat × Nat} :
    Ascending (p :: spans) ↔ p.1 < p.2 ∧ (∀ q ∈ spans, p.2 ≤ q.1) ∧ Ascending spans := by
  unfold Ascending
  rw [List.forall_mem_cons, List.pairwise_cons]
  tauto

/-- Spans further on hold nothing below. -/
theorem below_of_le (h : ∀ p ∈ spans, x ≤ p.1 ∧ p.1 ≤ p.2) : below spans x = 0 := by
  induction spans with
  | nil => rfl
  | cons p spans ih =>
    rcases List.forall_mem_cons.mp h with ⟨hp, hrest⟩
    rw [below_cons, ih hrest]
    omega

/-- Below a point past the ends lies everything. -/
theorem below_of_ge (h : ∀ p ∈ spans, p.1 ≤ p.2 ∧ p.2 ≤ x) : below spans x = size spans := by
  induction spans with
  | nil => rfl
  | cons p spans ih =>
    rcases List.forall_mem_cons.mp h with ⟨hp, hrest⟩
    rw [below_cons, size_cons, ih hrest]
    omega

/-- More lies below a further point. -/
theorem below_mono (h : ∀ p ∈ spans, p.1 ≤ p.2) (hxy : x ≤ y) : below spans x ≤ below spans y := by
  induction spans with
  | nil => exact Nat.le_refl _
  | cons p spans ih =>
    rcases List.forall_mem_cons.mp h with ⟨hp, hrest⟩
    have hle := ih hrest
    rw [below_cons, below_cons]
    omega

/-- But no more than the point moved. -/
theorem below_le_add (h : spans.Ascending) (hxy : x ≤ y) :
    below spans y ≤ below spans x + (y - x) := by
  induction spans generalizing x with
  | nil => exact Nat.zero_le _
  | cons p spans ih =>
    rcases ascending_cons.mp h with ⟨hp, hafter, hrest⟩
    rw [below_cons, below_cons]
    have hnone : ∀ z, z ≤ p.2 → below spans z = 0 := fun z hz =>
      below_of_le fun q hq => ⟨Nat.le_trans hz (hafter q hq), Nat.le_of_lt (hrest.1 q hq)⟩
    -- the points lie before the end of the first span, after it, or on its two sides
    by_cases hy : y ≤ p.2
    · rw [hnone y hy, hnone x (Nat.le_trans hxy hy)]
      omega
    · by_cases hx : p.2 ≤ x
      · have hle := ih hrest hxy
        omega
      · have hle := ih hrest (show p.2 ≤ y by omega)
        rw [hnone p.2 (Nat.le_refl _)] at hle
        omega

/-- The spans below a point hold no more than the point is far. -/
theorem below_le (h : spans.Ascending) (x : Nat) : below spans x ≤ x := by
  have hnone : below spans 0 = 0 :=
    below_of_le fun p hp => ⟨Nat.zero_le _, Nat.le_of_lt (h.1 p hp)⟩
  have hle := below_le_add h (Nat.zero_le x)
  omega

/-- A point that lies in a span. -/
def Held (spans : Spans) (b : Nat) : Prop := ∃ p ∈ spans, p.1 ≤ b ∧ b < p.2

instance (spans : Spans) : DecidablePred spans.Held :=
  fun b => inferInstanceAs (Decidable (∃ p ∈ spans, p.1 ≤ b ∧ b < p.2))

/-- One point more holds one more where it lies in a span. -/
theorem below_succ (h : spans.Ascending) (x : Nat) :
    below spans (x + 1) = below spans x + if spans.Held x then 1 else 0 := by
  induction spans with
  | nil => rfl
  | cons p spans ih =>
    rcases ascending_cons.mp h with ⟨hp, hafter, hrest⟩
    have hheld : Held (p :: spans) x ↔ (p.1 ≤ x ∧ x < p.2) ∨ Held spans x := by
      unfold Held
      exact List.exists_mem_cons_iff _ _ _
    rw [below_cons, below_cons]
    by_cases hin : p.1 ≤ x ∧ x < p.2
    · rw [if_pos (hheld.mpr (Or.inl hin))]
      have hnone : ∀ z, z ≤ p.2 → below spans z = 0 := fun z hz =>
        below_of_le fun q hq => ⟨Nat.le_trans hz (hafter q hq), Nat.le_of_lt (hrest.1 q hq)⟩
      rw [hnone (x + 1) hin.2, hnone x (Nat.le_of_lt hin.2)]
      omega
    · have hsame : Held (p :: spans) x ↔ Held spans x := by
        rw [hheld]
        exact or_iff_right hin
      rw [ih hrest]
      simp only [hsame]
      omega

/-- The measure counts the points below that lie in a span. -/
theorem below_eq_count (h : spans.Ascending) (x : Nat) :
    below spans x = Nat.count spans.Held x := by
  induction x with
  | zero => exact Nat.eq_zero_of_le_zero (below_le h 0)
  | succ x ih => rw [below_succ h, ih, Nat.count_succ]

/-! ## Clipping -/

/-- The parts of the spans inside a window. -/
def clip (spans : Spans) (u v : Nat) : Spans :=
  (spans.map fun p => (max p.1 u, min p.2 v)).filter fun p => decide (p.1 < p.2)

/-- A clipped span is part of a span. -/
theorem mem_clip {q : Nat × Nat} (h : q ∈ clip spans u v) :
    q.1 < q.2 ∧ ∃ p ∈ spans, q = (max p.1 u, min p.2 v) := by
  rcases List.mem_filter.mp h with ⟨hmem, hlt⟩
  rcases List.mem_map.mp hmem with ⟨p, hp, rfl⟩
  exact ⟨of_decide_eq_true hlt, p, hp, rfl⟩

/-- Clipping keeps the order. -/
theorem clip_ascending (h : spans.Ascending) (u v : Nat) : (clip spans u v).Ascending := by
  refine ⟨fun q hq => (mem_clip hq).1, ?_⟩
  refine List.Pairwise.filter _ (List.pairwise_map.mpr (h.2.imp ?_))
  intro p q hpq
  dsimp only
  omega

/-- What a clipped span holds below a point of the window. -/
theorem part_clip {a b : Nat} (hab : a ≤ b) (hux : u ≤ x) (hxv : x ≤ v) :
    min x (min b v) - min x (max a u) = min x b - min x a - (min u b - min u a) := by
  have hstop : min x (min b v) = min x b := by
    rw [Nat.min_comm b v, ← Nat.min_assoc, Nat.min_eq_left hxv]
  rw [hstop]
  rcases Nat.le_total a u with h | h
  · rw [Nat.max_eq_right h, Nat.min_eq_right hux, Nat.min_eq_right h,
      Nat.min_eq_right (h.trans hux)]
    omega
  · rw [Nat.max_eq_left h, Nat.min_eq_left h, Nat.min_eq_left (h.trans hab), Nat.sub_self,
      Nat.sub_zero]

/-- What the clipped spans hold below a point of the window. -/
theorem below_clip (h : ∀ p ∈ spans, p.1 ≤ p.2) (hux : u ≤ x) (hxv : x ≤ v) :
    below (clip spans u v) x = below spans x - below spans u := by
  induction spans with
  | nil => rfl
  | cons p spans ih =>
    rcases List.forall_mem_cons.mp h with ⟨hp, hrest⟩
    have hmono := below_mono hrest hux
    have hpart : min u p.2 - min u p.1 ≤ min x p.2 - min x p.1 := by omega
    have hclip : clip (p :: spans) u v =
        if max p.1 u < min p.2 v then (max p.1 u, min p.2 v) :: clip spans u v
        else clip spans u v := by
      unfold clip
      rw [List.map_cons, List.filter_cons]
      simp only [decide_eq_true_eq]
    have hsum := part_clip hp hux hxv
    have hnone : ¬max p.1 u < min p.2 v → min x (min p.2 v) - min x (max p.1 u) = 0 := fun hle =>
      Nat.sub_eq_zero_of_le (min_le_min_left x (Nat.le_of_not_lt hle))
    rw [hsum] at hnone
    rw [hclip, below_cons, below_cons]
    split
    · rw [below_cons, ih hrest, hsum]
      generalize min x p.2 - min x p.1 = upto at hpart ⊢
      generalize min u p.2 - min u p.1 = before at hpart ⊢
      omega
    · rename_i hle
      have hzero := hnone hle
      rw [ih hrest]
      generalize min x p.2 - min x p.1 = upto at hpart hzero ⊢
      generalize min u p.2 - min u p.1 = before at hpart hzero ⊢
      omega

/-- A window without points clips everything away. -/
theorem clip_of_ge (huv : v ≤ u) : clip spans u v = [] := by
  apply List.eq_nil_iff_forall_not_mem.mpr
  intro q hq
  rcases mem_clip hq with ⟨hlt, p, -, rfl⟩
  have hlow : u ≤ max p.1 u := Nat.le_max_right _ _
  have hhigh : min p.2 v ≤ v := Nat.min_le_right _ _
  exact absurd hlt (by dsimp only; omega)

/-- What is clipped to a window is what the measure gains over it. -/
theorem sum_clip (h : ∀ p ∈ spans, p.1 ≤ p.2) (huv : u ≤ v) :
    size (clip spans u v) = below spans v - below spans u := by
  rw [← below_clip h huv (Nat.le_refl v)]
  symm
  apply below_of_ge
  intro q hq
  rcases mem_clip hq with ⟨hlt, p, -, rfl⟩
  exact ⟨Nat.le_of_lt hlt, Nat.min_le_right _ _⟩

/-! ## Merging -/

/-- Merge each span that touches the last one into it. -/
def mergeFrom : Nat × Nat → Spans → Spans
  | last, [] => [last]
  | last, p :: rest =>
    if p.1 ≤ last.2 then mergeFrom (last.1, max last.2 p.2) rest else last :: mergeFrom p rest

/-- Merge the spans that touch. -/
def merge : Spans → Spans
  | [] => []
  | p :: rest => mergeFrom p rest

/-- Merged spans are not empty. -/
theorem mergeFrom_lt {last : Nat × Nat} (hlast : last.1 < last.2) (h : ∀ p ∈ rest, p.1 < p.2) :
    ∀ q ∈ mergeFrom last rest, q.1 < q.2 := by
  induction rest generalizing last with
  | nil =>
    intro q hq
    rw [List.mem_singleton.mp hq]
    exact hlast
  | cons p rest ih =>
    rcases List.forall_mem_cons.mp h with ⟨hp, hrest⟩
    unfold mergeFrom
    split
    · exact ih (Nat.lt_of_lt_of_le hlast (Nat.le_max_left _ _)) hrest
    · exact List.forall_mem_cons.mpr ⟨hlast, ih hp hrest⟩

/-- Merged spans stay within the bounds of the spans. -/
theorem mergeFrom_within {last : Nat × Nat} (h : ∀ p ∈ last :: rest, u ≤ p.1 ∧ p.2 ≤ v) :
    ∀ q ∈ mergeFrom last rest, u ≤ q.1 ∧ q.2 ≤ v := by
  induction rest generalizing last with
  | nil => exact h
  | cons p rest ih =>
    rcases List.forall_mem_cons.mp h with ⟨hlast, hrest⟩
    unfold mergeFrom
    split
    · refine ih (List.forall_mem_cons.mpr ⟨⟨hlast.1, ?_⟩, (List.forall_mem_cons.mp hrest).2⟩)
      exact Nat.max_le.mpr ⟨hlast.2, (List.forall_mem_cons.mp hrest).1.2⟩
    · exact List.forall_mem_cons.mpr ⟨hlast, ih hrest⟩

/-- Merging spans that follow each other keeps the measure, the order and the first start. -/
theorem mergeFrom_spec {last : Nat × Nat} (h : Ascending (last :: rest)) :
    (mergeFrom last rest).Ascending ∧
      (∀ x, below (mergeFrom last rest) x = below (last :: rest) x) ∧
      ∃ stop tail, mergeFrom last rest = (last.1, stop) :: tail ∧ last.2 ≤ stop := by
  induction rest generalizing last with
  | nil => exact ⟨h, fun _ => rfl, last.2, [], rfl, Nat.le_refl _⟩
  | cons p rest ih =>
    rcases ascending_cons.mp h with ⟨hlast, hafter, hrest⟩
    rcases ascending_cons.mp hrest with ⟨hp, hafterp, hrest'⟩
    have hfirst := hafter p List.mem_cons_self
    unfold mergeFrom
    split
    · -- the span starts where the last one ends
      have hmax : max last.2 p.2 = p.2 := by omega
      rw [hmax]
      have hjoined : Ascending ((last.1, p.2) :: rest) :=
        ascending_cons.mpr ⟨show last.1 < p.2 by omega, hafterp, hrest'⟩
      rcases ih hjoined with ⟨hasc, hbelow, stop, tail, heq, hle⟩
      refine ⟨hasc, fun x => ?_, stop, tail, heq, by omega⟩
      have hmeet : p.1 = last.2 := by omega
      have hlow : min x last.1 ≤ min x last.2 := min_le_min_left x (Nat.le_of_lt hlast)
      have hhigh : min x last.2 ≤ min x p.2 := min_le_min_left x (hmeet ▸ Nat.le_of_lt hp)
      rw [hbelow, below_cons, below_cons, below_cons, hmeet]
      generalize min x last.1 = low at hlow ⊢
      omega
    · rcases ih hrest with ⟨hasc, hbelow, stop, tail, heq, -⟩
      refine ⟨ascending_cons.mpr ⟨hlast, ?_, hasc⟩, fun x => ?_, last.2, _, rfl, Nat.le_refl _⟩
      · rw [heq] at hasc ⊢
        rcases ascending_cons.mp hasc with ⟨hne, hlater, -⟩
        intro q hq
        rcases List.mem_cons.mp hq with rfl | hq
        · exact hfirst
        · have hnext := hlater q hq
          dsimp only at hne hnext
          omega
      · rw [below_cons, hbelow, below_cons last]

end Spans

end Decdn
