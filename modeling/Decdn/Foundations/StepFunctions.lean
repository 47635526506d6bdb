import Mathlib.Algebra.BigOperators.Intervals
import Mathlib.Algebra.Group.Action.Defs
import Mathlib.Algebra.Order.BigOperators.Group.Finset
import Mathlib.Order.Interval.Finset.Nat

/-!
# Step functions

Samples of a value, each with the moment at which it was taken, are a step function: at a
moment the last sample taken by then is in force.  Moments are whole numbers, so the
integral between two of them is a finite sum.

Main results:

- Theorem `integral_append`: a sample changes no integral that ends where it is taken.
- Theorem `integral_tail`: after the last sample the function is constant.
- Theorem `average_mem`: an average rounded down lies between the bounds of the values.
- Theorem `integral_earlier`: an integral needs no sample taken at its end.
-/

namespace Decdn.StepFunction

open Finset

/-- The sample in force at a moment; nothing is in force before the first. -/
def valueAt (samples : List (Nat × Nat)) (moment : Nat) : Nat :=
  ((samples.filter fun e => e.1 ≤ moment).getLast?.map Prod.snd).getD 0

/-- The integral between two moments. -/
def integral (samples : List (Nat × Nat)) (start stop : Nat) : Nat :=
  ∑ moment ∈ Ico start stop, valueAt samples moment

variable {samples : List (Nat × Nat)} {a b c time value lo hi : Nat}

/-- A sample is not in force before it is taken. -/
theorem valueAt_append_of_lt (h : a < time) :
    valueAt (samples ++ [(time, value)]) a = valueAt samples a := by
  have hnone : [(time, value)].filter (fun e : Nat × Nat => e.1 ≤ a) = [] := by
    simp only [List.filter_eq_nil_iff, List.mem_singleton, forall_eq, decide_eq_true_eq]
    omega
  rw [valueAt, List.filter_append, hnone, List.append_nil, valueAt]

/-- The last sample is in force from when it is taken. -/
theorem valueAt_of_getLast (hlast : samples.getLast? = some (time, value)) (h : time ≤ a) :
    valueAt samples a = value := by
  rcases List.getLast?_eq_some_iff.mp hlast with ⟨init, rfl⟩
  have hself : [(time, value)].filter (fun e : Nat × Nat => e.1 ≤ a) = [(time, value)] := by
    simp only [List.filter_eq_self, List.mem_singleton, forall_eq, decide_eq_true_eq]
    exact h
  rw [valueAt, List.filter_append, hself, List.getLast?_append]
  rfl

/-- A sample changes no integral that ends where it is taken. -/
theorem integral_append (h : b ≤ time) :
    integral (samples ++ [(time, value)]) a b = integral samples a b := by
  refine sum_congr rfl fun moment hmoment => ?_
  exact valueAt_append_of_lt ((mem_Ico.mp hmoment).2.trans_le h)

/-- Two integrals in a row. -/
theorem integral_add (hab : a ≤ b) (hbc : b ≤ c) :
    integral samples a b + integral samples b c = integral samples a c :=
  sum_Ico_consecutive _ hab hbc

/-- After the last sample the function is constant. -/
theorem integral_tail (hlast : samples.getLast? = some (time, value)) (h : time ≤ a) :
    integral samples a b = value * (b - a) := by
  have hconst : ∀ moment ∈ Ico a b, valueAt samples moment = value := fun moment hmoment =>
    valueAt_of_getLast hlast (h.trans (mem_Ico.mp hmoment).1)
  rw [integral, sum_congr rfl hconst, sum_const, Nat.card_Ico, smul_eq_mul, Nat.mul_comm]

/-- An average rounded down lies between the bounds of the values. -/
theorem average_mem (hspan : a < b)
    (h : ∀ moment ∈ Ico a b, lo ≤ valueAt samples moment ∧ valueAt samples moment ≤ hi) :
    lo ≤ integral samples a b / (b - a) ∧ integral samples a b / (b - a) ≤ hi := by
  have hpos : 0 < b - a := Nat.sub_pos_of_lt hspan
  have hlow : (Ico a b).card • lo ≤ integral samples a b :=
    card_nsmul_le_sum _ _ _ fun moment hmoment => (h moment hmoment).1
  have hhigh : integral samples a b ≤ (Ico a b).card • hi :=
    sum_le_card_nsmul _ _ _ fun moment hmoment => (h moment hmoment).2
  rw [Nat.card_Ico, smul_eq_mul] at hlow hhigh
  exact ⟨(Nat.le_div_iff_mul_le hpos).mpr (by rwa [Nat.mul_comm]),
    Nat.div_le_of_le_mul hhigh⟩

/-- An integral needs no sample that is taken at its end or later. -/
theorem integral_earlier :
    integral (samples.filter fun e => e.1 < b) a b = integral samples a b := by
  refine sum_congr rfl fun moment hmoment => ?_
  have hlt := (mem_Ico.mp hmoment).2
  rw [valueAt, valueAt, List.filter_filter]
  have hsame : samples.filter (fun e => decide (e.1 ≤ moment) && decide (e.1 < b)) =
      samples.filter fun e => e.1 ≤ moment := by
    refine List.filter_congr fun e _ => ?_
    by_cases hle : e.1 ≤ moment
    · simp [hle, hle.trans_lt hlt]
    · simp [hle]
  rw [hsame]

end Decdn.StepFunction
