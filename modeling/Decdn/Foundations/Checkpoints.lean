import Mathlib.Data.List.Basic
import Mathlib.Data.Option.Basic

/-!
# Checkpointed histories

A trace is the list of values a quantity took, each with the key it was written
at.  Keys never go back: a write at the last key replaces the last value, a
write at a later key appends, and a write at an earlier key is refused.  A
lookup returns the value of the last key at or below the one asked for, and
zero when there is none.  How a lookup finds it is up to the implementation.

Main results:

- Theorem `CheckpointOps.push_forall` and Theorem `CheckpointOps.upperLookup_le`: what holds of
  the values holds of lookups.
-/

namespace Decdn

/-- A history of values, oldest first, each under the key it was written at. -/
abbrev Trace := List (Nat × Nat)

/-- An implementation of histories on their lists of entries. -/
structure CheckpointOps where
  push : Trace → Nat → Nat → Option Trace
  upperLookup : Trace → Nat → Nat
  latest : Trace → Nat
  /-- A write keeps everything but a last entry under the same key. -/
  push_eq_some : ∀ {t t' : Trace} {key value : Nat}, push t key value = some t' →
    ∃ kept, t' = kept ++ [(key, value)] ∧ (t = kept ∨ ∃ old, t = kept ++ [(key, old)])
  latest_nil : latest [] = 0
  latest_concat : ∀ (t : Trace) (key value : Nat), latest (t ++ [(key, value)]) = value
  /-- In a history that pushes have built, a lookup finds the last key not above its own. -/
  upperLookup_eq : ∀ (t : Trace) (key : Nat), (t.Pairwise fun a b => a.1 < b.1) →
    upperLookup t key = latest (t.filter fun c => decide (c.1 ≤ key))
  upperLookup_mem : ∀ (t : Trace) (key : Nat),
    upperLookup t key = 0 ∨ ∃ c ∈ t, c.1 ≤ key ∧ upperLookup t key = c.2

namespace CheckpointOps

/-- Write `value` at `key`, or refuse a key below the last one. -/
def pushList (t : Trace) (key value : Nat) : Option Trace :=
  match t.getLast? with
  | none => some [(key, value)]
  | some last =>
    if key < last.1 then none
    else if last.1 = key then some (t.dropLast ++ [(key, value)])
    else some (t ++ [(key, value)])

/-- The value of the entry written last. -/
def latestOfList (t : Trace) : Nat := (t.getLast?.map Prod.snd).getD 0

/-- A walk from the end of the list. -/
def ofLists : CheckpointOps where
  push := pushList
  latest := latestOfList
  upperLookup := fun t key => latestOfList (t.filter fun c => decide (c.1 ≤ key))
  push_eq_some := by
    intro t t' key value h
    unfold pushList at h
    split at h
    · rename_i hempty
      refine ⟨[], by simpa using h.symm, .inl ?_⟩
      exact List.getLast?_eq_none_iff.mp hempty
    · rename_i last hlast
      split at h
      · cases h
      · split at h
        · rename_i hkey
          refine ⟨t.dropLast, by simpa using h.symm, .inr ⟨last.2, ?_⟩⟩
          rcases List.getLast?_eq_some_iff.mp hlast with ⟨front, rfl⟩
          rw [List.dropLast_concat, ← hkey]
        · exact ⟨t, by simpa using h.symm, .inl rfl⟩
  latest_nil := rfl
  latest_concat := by
    intro t key value
    unfold latestOfList
    rw [List.getLast?_concat]
    rfl
  upperLookup_eq := fun _ _ _ => rfl
  upperLookup_mem := by
    intro t key
    unfold latestOfList
    cases hlast : (t.filter fun c => decide (c.1 ≤ key)).getLast? with
    | none => exact .inl rfl
    | some c =>
      have hmem := List.mem_filter.mp (List.mem_of_getLast? hlast)
      exact .inr ⟨c, hmem.1, of_decide_eq_true hmem.2, rfl⟩

variable (K : CheckpointOps)

/-- A write keeps a property of the values that the new one has. -/
theorem push_forall {P : Nat → Prop} {t t' : Trace} {key value : Nat}
    (h : K.push t key value = some t') (hold : ∀ c ∈ t, P c.2) (hnew : P value) :
    ∀ c ∈ t', P c.2 := by
  rcases K.push_eq_some h with ⟨kept, rfl, hkept⟩
  intro c hc
  rcases List.mem_append.mp hc with hc | hc
  · rcases hkept with rfl | ⟨old, rfl⟩
    · exact hold c hc
    · exact hold c (List.mem_append_left _ hc)
  · rw [List.mem_singleton.mp hc]
    exact hnew

/-- The last value is one of the values, or zero. -/
theorem latest_le {t : Trace} {n : Nat} (h : ∀ c ∈ t, c.2 ≤ n) : K.latest t ≤ n := by
  rcases List.eq_nil_or_concat t with rfl | ⟨front, ⟨key, value⟩, rfl⟩
  · rw [K.latest_nil]
    exact Nat.zero_le n
  · rw [List.concat_eq_append, K.latest_concat]
    exact h (key, value) (by simp)

/-- A lookup finds one of the values, or zero. -/
theorem upperLookup_le {t : Trace} {n : Nat} (h : ∀ c ∈ t, c.2 ≤ n) (key : Nat) :
    K.upperLookup t key ≤ n := by
  rcases K.upperLookup_mem t key with hzero | ⟨c, hc, -, hvalue⟩
  · rw [hzero]
    exact Nat.zero_le n
  · rw [hvalue]
    exact h c hc

end CheckpointOps

end Decdn
