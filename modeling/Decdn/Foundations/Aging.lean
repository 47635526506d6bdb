import Mathlib

/-!
# Saturating counters that are halved once per epoch

A counter with a ceiling counts the events of each epoch and is halved, rounding
down, whenever an epoch ends.  `aged cap n e` is its value during epoch `e` when
`n i` events fell into epoch `i`.  Halving may be put off: skipping `k` empty epochs
is one division by `2 ^ k`.

Main results:

- Theorem `aged_skip`: epochs without events only halve.
- Theorem `aged_update_last`: an event in the current epoch counts one.
- Theorem `aged_update_le`: an event put into any epoch counts at most one.
- Theorem `aged_mono`: more events never lower the value.
-/

namespace Decdn

variable {cap : Nat} {n m : Nat → Nat}

/-- The counter during epoch `e` when `n i` events fell into epoch `i`. -/
def aged (cap : Nat) (n : Nat → Nat) : Nat → Nat
  | 0 => min (n 0) cap
  | e + 1 => min (aged cap n e / 2 + n (e + 1)) cap

/-- One saturating increment. -/
def bump (cap v : Nat) : Nat := min (v + 1) cap

/-- The counter never passes its ceiling. -/
theorem aged_le_cap (cap : Nat) (n : Nat → Nat) (e : Nat) : aged cap n e ≤ cap := by
  cases e <;> exact Nat.min_le_right _ _

/-- Only the events up to the epoch matter. -/
theorem aged_congr {e : Nat} (h : ∀ i ≤ e, n i = m i) : aged cap n e = aged cap m e := by
  induction e with
  | zero => simp [aged, h 0 (Nat.le_refl 0)]
  | succ e ih =>
    have hprev := ih fun i hi => h i (Nat.le_succ_of_le hi)
    simp [aged, hprev, h (e + 1) (Nat.le_refl _)]

/-- More events never lower the value. -/
theorem aged_mono {e : Nat} (h : ∀ i ≤ e, n i ≤ m i) : aged cap n e ≤ aged cap m e := by
  induction e with
  | zero =>
    have := h 0 (Nat.le_refl 0)
    simp only [aged]
    omega
  | succ e ih =>
    have hprev := ih fun i hi => h i (Nat.le_succ_of_le hi)
    have hlast := h (e + 1) (Nat.le_refl _)
    simp only [aged]
    omega

/-- Epochs without events only halve the counter. -/
theorem aged_skip {e k : Nat} (h : ∀ i, e < i → i ≤ e + k → n i = 0) :
    aged cap n (e + k) = aged cap n e / 2 ^ k := by
  induction k with
  | zero => simp
  | succ k ih =>
    have hprev := ih fun i hlo hhi => h i hlo (by omega)
    have hlast := h (e + (k + 1)) (by omega) (Nat.le_refl _)
    have hcap := aged_le_cap cap n e
    have hle : aged cap n e / 2 ^ k / 2 ≤ cap :=
      Nat.le_trans (Nat.div_le_self _ _) (Nat.le_trans (Nat.div_le_self _ _) hcap)
    rw [← Nat.add_assoc] at hlast ⊢
    simp only [aged, hlast, hprev, Nat.add_zero]
    rw [Nat.min_eq_left hle, Nat.div_div_eq_div_mul, Nat.pow_succ]

/-- An event of the current epoch counts one. -/
theorem aged_update_last (cap : Nat) (n : Nat → Nat) (e : Nat) :
    aged cap (Function.update n e (n e + 1)) e = bump cap (aged cap n e) := by
  cases e with
  | zero =>
    simp only [aged, bump, Function.update_self]
    omega
  | succ e =>
    have hprev : aged cap (Function.update n (e + 1) (n (e + 1) + 1)) e = aged cap n e := by
      apply aged_congr
      intro i hi
      exact Function.update_of_ne (by omega) _ _
    simp only [aged, bump, hprev, Function.update_self]
    omega

/-- An event put into any epoch, past ones included, counts at most one. -/
theorem aged_update_le (cap : Nat) (n : Nat → Nat) (d e : Nat) :
    aged cap (Function.update n d (n d + 1)) e ≤ bump cap (aged cap n e) := by
  induction e with
  | zero =>
    by_cases hd : d = 0
    · subst hd
      exact Nat.le_of_eq (aged_update_last cap n 0)
    · have hsame : Function.update n d (n d + 1) 0 = n 0 :=
        Function.update_of_ne (fun h => hd h.symm) _ _
      simp only [aged, bump, hsame]
      omega
  | succ e ih =>
    by_cases hd : d = e + 1
    · subst hd
      exact Nat.le_of_eq (aged_update_last cap n (e + 1))
    · have hsame : Function.update n d (n d + 1) (e + 1) = n (e + 1) :=
        Function.update_of_ne (fun h => hd h.symm) _ _
      simp only [aged, bump, hsame] at ih ⊢
      omega

end Decdn
