import Mathlib.Algebra.BigOperators.Fin
import Mathlib.Algebra.Order.BigOperators.Group.Finset
import Mathlib.Data.Fintype.BigOperators

/-!
# Totals over updated maps

Storage mappings are total functions that an operation changes at one key.
These lemmas say how a total over all keys moves under such a change, so that
conservation laws reduce to the arithmetic of the one entry that changed.

Main results:

- Theorem `sum_update_add`: the change of a total is the change of one entry.
- Theorem `sum_sum_update_add`: the same for a two-level map.
- Theorem `sum_change_on`, Theorem `sum_change` and Theorem `sum_sum_change`: the
  same for maps known to agree everywhere else.
-/

namespace Decdn

open Finset

variable {ι κ α : Type*} [DecidableEq ι] [DecidableEq κ] [Fintype ι] [Fintype κ]

/-- Replacing one entry moves a total by the difference of that entry. -/
theorem sum_update_add (f : ι → α) (w : α → Nat) (i : ι) (v : α) :
    ∑ j, w (Function.update f i v j) + w (f i) = ∑ j, w (f j) + w v := by
  have hrest : ∀ j ∈ univ.erase i, w (Function.update f i v j) = w (f j) := by
    intro j hj
    rw [Function.update_of_ne (ne_of_mem_erase hj)]
  rw [← add_sum_erase univ _ (mem_univ i), ← add_sum_erase univ (fun j => w (f j)) (mem_univ i),
    sum_congr rfl hrest, Function.update_self]
  omega

/-- Replacing one inner entry moves a two-level total by the difference of that
entry. -/
theorem sum_sum_update_add (f : ι → κ → α) (w : α → Nat) (i : ι) (k : κ) (v : α) :
    ∑ j, ∑ l, w (Function.update f i (Function.update (f i) k v) j l) + w (f i k) =
      ∑ j, ∑ l, w (f j l) + w v := by
  have houter := sum_update_add f (fun row => ∑ l, w (row l)) i (Function.update (f i) k v)
  have hinner := sum_update_add (f i) w k v
  omega

omit [Fintype ι] in
/-- Totals over some keys of two maps that agree off one of them. -/
theorem sum_change_on {f g : ι → Nat} {s : Finset ι} {i : ι} (hi : i ∈ s)
    (h : ∀ j ∈ s, j ≠ i → g j = f j) : ∑ j ∈ s, g j + f i = ∑ j ∈ s, f j + g i := by
  have hrest : ∑ j ∈ s.erase i, g j = ∑ j ∈ s.erase i, f j :=
    sum_congr rfl fun j hj => h j (mem_of_mem_erase hj) (ne_of_mem_erase hj)
  rw [← add_sum_erase s g hi, ← add_sum_erase s f hi, hrest]
  omega

/-- Totals of two maps that agree off one key. -/
theorem sum_change {f g : ι → Nat} (i : ι) (h : ∀ j, j ≠ i → g j = f j) :
    ∑ j, g j + f i = ∑ j, f j + g i :=
  sum_change_on (mem_univ i) fun j _ => h j

/-- Totals of two two-level maps that agree off one entry. -/
theorem sum_sum_change {f g : ι → κ → Nat} (i : ι) (k : κ)
    (h : ∀ j l, ¬ (j = i ∧ l = k) → g j l = f j l) :
    ∑ j, ∑ l, g j l + f i k = ∑ j, ∑ l, f j l + g i k := by
  have houter := sum_change (f := fun j => ∑ l, f j l) (g := fun j => ∑ l, g j l) i
    (fun j hj => Finset.sum_congr rfl fun l _ => h j l fun hjl => hj hjl.1)
  have hinner := sum_change (f := f i) (g := g i) k (fun l hl => h i l fun hil => hl hil.2)
  omega

end Decdn
