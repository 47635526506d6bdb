import Mathlib.Data.List.Nodup
import Mathlib.Data.List.TakeWhile
import Mathlib.Tactic.Cases

/-!
# Places in a waiting list

Who stands before whom in a list without repetitions.  Whoever still waits after others
left has, of those who stood before, only some before it; whoever joins at the end stands
before nobody.

Main results:

- Theorem `before_sublist`: leaving never puts anybody before one who waits.
- Theorem `before_append`: neither does joining at the end.
-/

namespace Decdn

variable {α : Type*} [DecidableEq α] {a : α} {l l' : List α}

/-- Those who stand before `a`; everybody, when `a` does not wait. -/
def before (a : α) (l : List α) : List α := l.takeWhile fun x => x ≠ a

/-- One who waits splits the list. -/
theorem mem_iff_split : a ∈ l ↔ ∃ rest, l = before a l ++ a :: rest := by
  constructor
  · intro h
    induction l with
    | nil => exact absurd h List.not_mem_nil
    | cons x l ih =>
      unfold before
      by_cases hx : x = a
      · subst hx
        exact ⟨l, by simp⟩
      · rcases ih (List.mem_of_ne_of_mem (Ne.symm hx) h) with ⟨rest, hrest⟩
        refine ⟨rest, ?_⟩
        rw [List.takeWhile_cons_of_pos (by simpa using hx), List.cons_append]
        exact congrArg (x :: ·) hrest
  · rintro ⟨rest, hrest⟩
    rw [hrest]
    exact List.mem_append_right _ List.mem_cons_self

/-- Nobody stands before itself. -/
theorem not_mem_before : a ∉ before a l := by
  intro h
  simpa using List.mem_takeWhile_imp h

/-- What stands before the first `a`. -/
theorem before_split {pre rest : List α} (h : a ∉ pre) : before a (pre ++ a :: rest) = pre := by
  unfold before
  rw [List.takeWhile_append_of_pos]
  · simp
  · intro x hx
    simpa using fun hxa : x = a => h (hxa ▸ hx)

/-- Joining at the end leaves the places as they are. -/
theorem before_append (h : a ∈ l) (more : List α) : before a (l ++ more) = before a l := by
  rcases mem_iff_split.mp h with ⟨rest, hrest⟩
  calc before a (l ++ more) = before a (before a l ++ a :: (rest ++ more)) := by
        conv_lhs => rw [hrest]
        rw [List.append_assoc, List.cons_append]
    _ = before a l := before_split not_mem_before

/-- Leaving keeps the order of those who stay. -/
theorem before_sublist (hsub : l'.Sublist l) (hnodup : l.Nodup) (h : a ∈ l') :
    (before a l').Sublist (before a l) := by
  rcases mem_iff_split.mp (hsub.subset h) with ⟨rest, hrest⟩
  rw [hrest] at hsub hnodup
  rcases List.sublist_append_iff.mp hsub with ⟨pre, post, rfl, hpre, hpost⟩
  have hout : a ∉ pre := fun hin => not_mem_before (hpre.subset hin)
  have hin : a ∈ post := (List.mem_append.mp h).resolve_left hout
  have hrestout : a ∉ rest := (List.nodup_cons.mp (List.nodup_append.mp hnodup).2.1).1
  rcases List.sublist_cons_iff.mp hpost with hpost | ⟨post', rfl, -⟩
  · exact absurd (hpost.subset hin) hrestout
  · rw [before_split hout]
    exact hpre

end Decdn
