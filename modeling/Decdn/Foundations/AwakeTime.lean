import Mathlib.Data.Nat.Basic
import Mathlib.Order.Basic

/-!
# Time awake

A system with a clock that can be paused.  A run is measured in the time that passed while the
system was not paused.  A deadline that is put off by a credit for pauses leaves its whole
window awake, if the credit grows at least as fast as the clock while the system is paused.

Main definitions:

- Inductive type `Awake`: a run with the time it was awake.

Main results:

- Theorem `Awake.slept_credited`: what passed asleep was credited.
- Theorem `Awake.window_le`: a deadline put off by the credit leaves its window awake.
-/

namespace Decdn

universe u

variable {S : Type u}

/-- A run with the time that passed while the system was not asleep. -/
inductive Awake (step : S → S → Prop) (now : S → Nat) (asleep : S → Bool) (s : S) :
    S → Nat → Prop where
  | refl : Awake step now asleep s s 0
  | tail {t u : S} {n : Nat} (h : Awake step now asleep s t n) (hstep : step t u) :
      Awake step now asleep s u (n + if asleep t then 0 else now u - now t)

variable {step : S → S → Prop} {now credit : S → Nat} {asleep : S → Bool} {I : S → Prop}
  {s t : S} {n : Nat}

/-- What every step keeps holds after the run. -/
theorem Awake.invariant {P : S → Prop} (h : Awake step now asleep s t n) (hs : P s)
    (hkeep : ∀ a b, step a b → P a → P b) : P t := by
  induction h with
  | refl => exact hs
  | tail _ hstep ih => exact hkeep _ _ hstep ih

/-- If a step from an invariant state credits the time it sleeps, a run credits all that it
slept. -/
theorem Awake.slept_credited (h : Awake step now asleep s t n) (hs : I s)
    (hkeep : ∀ a b, step a b → I a → I b) (hnow : ∀ a b, step a b → now a ≤ now b)
    (hcredit : ∀ a b, step a b → I a →
      credit a + (if asleep a then now b - now a else 0) ≤ credit b) :
    now s ≤ now t ∧ credit s + (now t - now s) ≤ credit t + n := by
  induction h with
  | refl => exact ⟨le_rfl, by omega⟩
  | @tail a b m hrun hstep ih =>
    have hgain := hcredit a b hstep (hrun.invariant hs hkeep)
    have hle := hnow a b hstep
    refine ⟨ih.1.trans hle, ?_⟩
    split at hgain <;> rename_i hsleeps
    · rw [if_pos hsleeps]
      omega
    · rw [if_neg hsleeps]
      omega

/-- A window that starts with the run and is put off by the credit of its end is spent awake. -/
theorem Awake.window_le (window : Nat) {time : Nat} (h : Awake step now asleep s t n) (hs : I s)
    (hkeep : ∀ a b, step a b → I a → I b) (hnow : ∀ a b, step a b → now a ≤ now b)
    (hcredit : ∀ a b, step a b → I a →
      credit a + (if asleep a then now b - now a else 0) ≤ credit b)
    (htime : now t ≤ time) (hlate : now s + window + credit t ≤ time) :
    window ≤ n + (time - now t) := by
  rcases h.slept_credited hs hkeep hnow hcredit with ⟨hle, hslept⟩
  omega

end Decdn
