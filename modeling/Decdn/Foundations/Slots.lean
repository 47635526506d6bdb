import Mathlib.Data.List.Nodup
import Mathlib.Logic.Function.Basic

/-!
# Arrays with an index

A set kept as an array of its members with a map from each member to one past its
slot, zero for anything else.  A member leaves by taking the last member into its slot.

Main results:

- Theorem `Slots.nodup` and Theorem `Slots.mem_iff`: the array is a set, and the index its
  membership test.
- Theorem `Slots.push`, Theorem `Slots.pop` and Theorem `Slots.swapPop`: the three edits.
-/

namespace Decdn

variable {α : Type*} {xs : List α} {index : α → Nat} {a : α}

/-- The index points one past the slot of each member. -/
def Slots (xs : List α) (index : α → Nat) : Prop :=
  ∀ i a, xs[i]? = some a ↔ index a = i + 1

theorem Slots.empty : Slots ([] : List α) fun _ => 0 := by
  intro i a
  rw [List.getElem?_nil]
  constructor
  · intro h
    cases h
  · intro h
    exact absurd h (Nat.succ_ne_zero i).symm

/-- The members are those with a slot. -/
theorem Slots.mem_iff (h : Slots xs index) : a ∈ xs ↔ index a ≠ 0 := by
  constructor
  · intro hmem
    rcases List.mem_iff_getElem?.mp hmem with ⟨i, hi⟩
    rw [(h i a).mp hi]
    omega
  · intro hne
    have hi : index a = (index a - 1) + 1 := by omega
    exact List.mem_of_getElem? ((h _ a).mpr hi)

theorem Slots.not_mem_iff (h : Slots xs index) : a ∉ xs ↔ index a = 0 := by
  rw [h.mem_iff, not_not]

/-- No member has two slots. -/
theorem Slots.nodup (h : Slots xs index) : xs.Nodup := by
  rw [List.nodup_iff_getElem?_ne_getElem?]
  intro i j hij hj heq
  have hsome : xs[j]? = some xs[j] := List.getElem?_eq_getElem hj
  have hi := (h i xs[j]).mp (heq.trans hsome)
  have hj' := (h j xs[j]).mp hsome
  omega

section Edits

variable [DecidableEq α]

/-- A new member takes the slot after the last. -/
theorem Slots.push (h : Slots xs index) (ha : index a = 0) :
    Slots (xs ++ [a]) (Function.update index a (xs.length + 1)) := by
  intro i b
  rcases eq_or_ne b a with rfl | hne
  · rw [Function.update_self, List.getElem?_append]
    split
    · rename_i hlt
      constructor
      · intro hi
        exact absurd (List.mem_of_getElem? hi) (h.not_mem_iff.mpr ha)
      · intro heq
        omega
    · rename_i hge
      rw [List.getElem?_singleton]
      constructor
      · intro hi
        split at hi
        · omega
        · cases hi
      · intro heq
        rw [if_pos (by omega)]
  · rw [Function.update_of_ne hne, ← h i b, List.getElem?_append]
    split
    · rfl
    · rename_i hge
      rw [List.getElem?_singleton, List.getElem?_eq_none (Nat.not_lt.mp hge)]
      constructor
      · intro hi
        split at hi
        · exact absurd (Option.some.inj hi).symm hne
        · cases hi
      · intro hi
        cases hi

/-- The last member leaves. -/
theorem Slots.pop (h : Slots xs index) (ha : index a = xs.length) (hpos : 1 ≤ xs.length) :
    Slots xs.dropLast (Function.update index a 0) := by
  intro i b
  rw [List.getElem?_dropLast]
  rcases eq_or_ne b a with rfl | hne
  · rw [Function.update_self]
    constructor
    · intro hi
      split at hi
      · have heq := (h i b).mp hi
        omega
      · cases hi
    · intro heq
      omega
  · rw [Function.update_of_ne hne]
    split
    · exact h i b
    · rename_i hge
      constructor
      · intro hi
        cases hi
      · intro heq
        have hi := (h i b).mpr heq
        have hlt : i < xs.length := (List.getElem?_eq_some_iff.mp hi).1
        have hlast : xs[xs.length - 1]? = some a := (h _ a).mpr (by omega)
        have hii : i = xs.length - 1 := by omega
        rw [hii, hlast] at hi
        exact absurd (Option.some.inj hi).symm hne

/-- A member leaves and the last one takes its slot. -/
theorem Slots.swapPop (h : Slots xs index) {k : Nat} {last : α} (ha : index a = k + 1)
    (hk : k + 1 ≠ xs.length) (hlast : xs[xs.length - 1]? = some last) :
    Slots ((xs.set k last).dropLast)
      (Function.update (Function.update index last (k + 1)) a 0) := by
  have hslot : xs[k]? = some a := (h k a).mpr ha
  have hlt : k < xs.length := (List.getElem?_eq_some_iff.mp hslot).1
  have hend : index last = xs.length := by
    rw [(h _ last).mp hlast]
    omega
  have hne : last ≠ a := by
    rintro rfl
    omega
  intro i b
  rw [List.getElem?_dropLast, List.length_set, List.getElem?_set]
  rcases eq_or_ne b a with rfl | hba
  · -- The member that leaves has no slot.
    rw [Function.update_self]
    constructor
    · intro hi
      split at hi
      · split at hi
        · exact absurd (Option.some.inj hi) hne
        · have heq := (h i b).mp hi
          omega
      · cases hi
    · intro heq
      omega
  · rw [Function.update_of_ne hba]
    rcases eq_or_ne b last with rfl | hbl
    · rw [Function.update_self]
      constructor
      · intro hi
        split at hi
        · split at hi
          · omega
          · have heq := (h i b).mp hi
            omega
        · cases hi
      · intro heq
        have hik : k = i := by omega
        rw [if_pos (by omega), if_pos hik, if_pos hlt]
    · rw [Function.update_of_ne hbl, ← h i b]
      split
      · split
        · rename_i hik
          rw [← hik, hslot]
          constructor
          · intro hi
            exact absurd (Option.some.inj hi).symm hbl
          · intro hi
            exact absurd (Option.some.inj hi).symm hba
        · rfl
      · rename_i hge
        constructor
        · intro hi
          cases hi
        · intro hi
          have hlt' : i < xs.length := (List.getElem?_eq_some_iff.mp hi).1
          have hii : i = xs.length - 1 := by omega
          rw [hii, hlast] at hi
          exact absurd (Option.some.inj hi).symm hbl

end Edits

end Decdn
