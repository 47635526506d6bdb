import Mathlib.Data.List.Count
import Mathlib.Data.List.Nodup
import Mathlib.Data.List.Perm.Subperm

/-!
# Enumerable sets and their pages

A set kept as a list without repetition, so that it can be read a page at a time.
Where an insertion puts the new member, and which member fills the hole a removal
leaves, is up to the implementation: only membership and the absence of repetition
are fixed.

Main results:

- Theorem `page_eq`: a page is a slice of the list.
- Theorem `pages_eq`: consecutive pages give the whole list back.
- Theorem `count_pages`: consecutive pages show every member once.
-/

namespace Decdn

variable {α : Type*}

/-- An implementation of enumerable sets on their lists of members. -/
structure SetOps (α : Type*) where
  add : List α → α → List α
  remove : List α → α → List α
  nodup_add : ∀ {xs : List α} (x : α), xs.Nodup → (add xs x).Nodup
  nodup_remove : ∀ {xs : List α} (x : α), xs.Nodup → (remove xs x).Nodup
  mem_add : ∀ {xs : List α} (x y : α), xs.Nodup → (y ∈ add xs x ↔ y = x ∨ y ∈ xs)
  mem_remove : ∀ {xs : List α} (x y : α), xs.Nodup → (y ∈ remove xs x ↔ y ∈ xs ∧ y ≠ x)

/-- Appending at the end and erasing in place. -/
def SetOps.ofLists [DecidableEq α] : SetOps α where
  add := fun xs x => if x ∈ xs then xs else xs ++ [x]
  remove := fun xs x => xs.erase x
  nodup_add := by
    intro xs x h
    split
    · exact h
    · rename_i hx
      rw [List.nodup_append]
      refine ⟨h, List.nodup_singleton x, ?_⟩
      rintro a ha b hb rfl
      rw [List.mem_singleton.1 hb] at ha
      exact hx ha
  nodup_remove := fun x h => h.erase x
  mem_add := by
    intro xs x y h
    split
    · rename_i hx
      constructor
      · exact Or.inr
      · rintro (rfl | hy)
        · exact hx
        · exact hy
    · rw [List.mem_append, List.mem_singleton, or_comm]
  mem_remove := by
    intro xs x y h
    rw [h.mem_erase_iff, and_comm]

/-! ## Sizes -/

/-- Adding a new member makes the set one larger. -/
theorem SetOps.length_add (S : SetOps α) {xs : List α} {x : α} (hnodup : xs.Nodup) (hx : x ∉ xs) :
    (S.add xs x).length = xs.length + 1 := by
  have hperm : (S.add xs x).Perm (x :: xs) := by
    rw [List.perm_ext_iff_of_nodup (S.nodup_add x hnodup) (List.nodup_cons.mpr ⟨hx, hnodup⟩)]
    intro y
    rw [S.mem_add x y hnodup, List.mem_cons]
  exact hperm.length_eq

/-- Removing a member never makes the set larger. -/
theorem SetOps.length_remove_le (S : SetOps α) {xs : List α} (x : α) (hnodup : xs.Nodup) :
    (S.remove xs x).length ≤ xs.length := by
  have hsub : S.remove xs x ⊆ xs := fun y hy => ((S.mem_remove x y hnodup).mp hy).1
  exact (List.subperm_of_subset (S.nodup_remove x hnodup) hsub).length_le

/-! ## Pages -/

/-- At most `limit` members from `offset` on. -/
def page (xs : List α) (offset limit : Nat) : List α :=
  if xs.length ≤ offset then []
  else (List.range (min (xs.length - offset) limit)).filterMap fun i => xs[offset + i]?

/-- The pages at `k` consecutive offsets. -/
def pages (xs : List α) (limit k : Nat) : List α :=
  (List.range k).flatMap fun i => page xs (i * limit) limit

/-- Reading the first `n` positions of a list is taking them. -/
theorem filterMap_range_getElem? (xs : List α) {n : Nat} (h : n ≤ xs.length) :
    (List.range n).filterMap (fun i => xs[i]?) = xs.take n := by
  induction n with
  | zero => rfl
  | succ n ih =>
    have hlt : n < xs.length := h
    rw [List.range_succ, List.filterMap_append, ih (Nat.le_of_lt hlt), List.take_add_one]
    simp [List.getElem?_eq_getElem hlt]

/-- A page is a slice. -/
theorem page_eq (xs : List α) (offset limit : Nat) :
    page xs offset limit = (xs.drop offset).take limit := by
  unfold page
  split
  · rename_i hpast
    rw [List.drop_eq_nil_of_le hpast, List.take_nil]
  · have hshift : (fun i => xs[offset + i]?) = fun i => (xs.drop offset)[i]? := by
      funext i
      rw [List.getElem?_drop]
    rw [hshift, filterMap_range_getElem? _ (by rw [List.length_drop]; exact Nat.min_le_left _ _),
      ← List.length_drop, Nat.min_comm, ← List.take_eq_take_min]

/-- The first `k` pages are a slice from the start. -/
theorem pages_eq_take (xs : List α) (limit k : Nat) : pages xs limit k = xs.take (k * limit) := by
  unfold pages
  induction k with
  | zero => simp
  | succ k ih =>
    rw [List.range_succ, List.flatMap_append, ih, List.flatMap_singleton, page_eq,
      Nat.succ_mul, List.take_add]

/-- Consecutive pages that reach the end give the whole list back. -/
theorem pages_eq {xs : List α} {limit k : Nat} (h : xs.length ≤ k * limit) :
    pages xs limit k = xs := by
  rw [pages_eq_take, List.take_of_length_le h]

/-- Consecutive pages of a set show every member once, and nothing else. -/
theorem count_pages [DecidableEq α] {xs : List α} {limit k : Nat} (hnodup : xs.Nodup)
    (h : xs.length ≤ k * limit) (x : α) :
    (pages xs limit k).count x = if x ∈ xs then 1 else 0 := by
  rw [pages_eq h, hnodup.count]

end Decdn
