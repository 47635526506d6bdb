import Decdn.Foundations.Spans

/-!
# Sets as separated spans

A finite set of numbers written as spans that do not touch, and how a list of spans is
brought into that form.

Main results:

- Theorem `Separated.contains`: points in a row lie in one span.
- Theorem `merge_sorted`: merging keeps the points and separates the spans.
-/

namespace Decdn.Spans

variable {spans rest : Spans} {u v x : Nat}

/-- Spans that are not empty and do not touch. -/
def Separated (spans : Spans) : Prop :=
  (∀ p ∈ spans, p.1 < p.2) ∧ spans.Pairwise fun p q => p.2 < q.1

theorem separated_nil : Separated [] := ⟨fun _ hp => absurd hp List.not_mem_nil, .nil⟩

theorem separated_singleton {p : Nat × Nat} (h : p.1 < p.2) : Separated [p] :=
  ⟨fun _ hq => List.mem_singleton.mp hq ▸ h, List.pairwise_singleton _ _⟩

theorem held_cons {p : Nat × Nat} : Held (p :: spans) x ↔ (p.1 ≤ x ∧ x < p.2) ∨ Held spans x :=
  List.exists_mem_cons_iff _ _ _

/-- The point after a separated span lies in no span. -/
theorem Separated.not_held_end (h : spans.Separated) {p : Nat × Nat} (hp : p ∈ spans) :
    ¬ spans.Held p.2 := by
  have hapart : ∀ q ∈ spans, q = p ∨ q.2 < p.1 ∨ p.2 < q.1 := by
    intro q hq
    have hpairs : spans.Pairwise fun q p => q = p ∨ q.2 < p.1 ∨ p.2 < q.1 :=
      h.2.imp fun hlt => Or.inr (Or.inl hlt)
    have hflipped : spans.Pairwise (flip fun q p => q = p ∨ q.2 < p.1 ∨ p.2 < q.1) :=
      h.2.imp fun hlt => Or.inr (Or.inr hlt)
    have hself : ∀ q ∈ spans, q = q ∨ q.2 < q.1 ∨ q.2 < q.1 := fun _ _ => Or.inl rfl
    exact List.Pairwise.forall_of_forall_of_flip hself hpairs hflipped hq hp
  have hne := h.1 p hp
  rintro ⟨q, hq, hlow, hhigh⟩
  have hqne := h.1 q hq
  rcases hapart q hq with rfl | hbefore | hafter <;> omega

/-- Points in a row that separated spans hold lie in one of them. -/
theorem Separated.contains (h : spans.Separated) (huv : u < v)
    (hall : ∀ x, u ≤ x → x < v → Held spans x) : ∃ p ∈ spans, p.1 ≤ u ∧ v ≤ p.2 := by
  rcases hall u (Nat.le_refl _) huv with ⟨p, hp, hlow, hhigh⟩
  refine ⟨p, hp, hlow, ?_⟩
  by_contra hout
  exact h.not_held_end hp (hall p.2 (Nat.le_of_lt hhigh) (Nat.lt_of_not_le hout))

/-! ## Merging -/

/-- Merging spans in the order of their starts keeps the points, and separates them. -/
theorem mergeFrom_sorted {last : Nat × Nat} (hlast : last.1 < last.2)
    (hne : ∀ p ∈ rest, p.1 < p.2) (hsorted : (last :: rest).Pairwise fun p q => p.1 ≤ q.1) :
    (mergeFrom last rest).Separated ∧ (∀ q ∈ mergeFrom last rest, last.1 ≤ q.1) ∧
      ∀ x, Held (mergeFrom last rest) x ↔ Held (last :: rest) x := by
  induction rest generalizing last with
  | nil =>
    exact ⟨separated_singleton hlast,
      fun q hq => List.mem_singleton.mp hq ▸ Nat.le_refl _, fun _ => Iff.rfl⟩
  | cons p rest ih =>
    rcases List.pairwise_cons.mp hsorted with ⟨hstarts, hrest⟩
    rcases List.pairwise_cons.mp hrest with ⟨hstarts', hrest'⟩
    rcases List.forall_mem_cons.mp hne with ⟨hp, hne'⟩
    have hfirst := hstarts p List.mem_cons_self
    unfold mergeFrom
    split
    · -- the span touches the last one and becomes part of it
      rename_i htouch
      have hsorted' : ((last.1, max last.2 p.2) :: rest).Pairwise fun p q => p.1 ≤ q.1 :=
        List.pairwise_cons.mpr ⟨fun q hq => hstarts q (List.mem_cons_of_mem _ hq), hrest'⟩
      have hjoined : last.1 < max last.2 p.2 := Nat.lt_of_lt_of_le hlast (Nat.le_max_left _ _)
      rcases ih hjoined hne' hsorted' with ⟨hsep, hlow, hheld⟩
      refine ⟨hsep, hlow, fun x => ?_⟩
      rw [hheld, held_cons, held_cons, held_cons]
      dsimp only
      constructor
      · rintro (hin | hin)
        · by_cases hx : x < last.2
          · exact Or.inl ⟨hin.1, hx⟩
          · exact Or.inr (Or.inl ⟨by omega, by omega⟩)
        · exact Or.inr (Or.inr hin)
      · rintro (hin | hin | hin)
        · exact Or.inl ⟨hin.1, by omega⟩
        · exact Or.inl ⟨by omega, by omega⟩
        · exact Or.inr hin
    · rename_i hapart
      rcases ih hp hne' hrest with ⟨hsep, hlow, hheld⟩
      refine ⟨⟨?_, ?_⟩, ?_, fun x => ?_⟩
      · exact List.forall_mem_cons.mpr ⟨hlast, hsep.1⟩
      · exact List.pairwise_cons.mpr ⟨fun q hq => by have := hlow q hq; omega, hsep.2⟩
      · exact List.forall_mem_cons.mpr ⟨Nat.le_refl _, fun q hq => Nat.le_trans hfirst (hlow q hq)⟩
      · rw [held_cons, hheld, @held_cons (p :: rest)]

/-- Merging sorted spans that are not empty separates them and keeps the points. -/
theorem merge_sorted (hne : ∀ p ∈ spans, p.1 < p.2)
    (hsorted : spans.Pairwise fun p q => p.1 ≤ q.1) :
    (merge spans).Separated ∧ ∀ x, Held (merge spans) x ↔ Held spans x := by
  cases spans with
  | nil => exact ⟨separated_nil, fun _ => Iff.rfl⟩
  | cons p rest =>
    rcases List.forall_mem_cons.mp hne with ⟨hp, hrest⟩
    rcases mergeFrom_sorted hp hrest hsorted with ⟨hsep, -, hsame⟩
    exact ⟨hsep, hsame⟩

end Decdn.Spans
