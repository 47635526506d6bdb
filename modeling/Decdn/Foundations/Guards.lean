import Decdn.Foundations.Fallible
import Decdn.Foundations.Words

/-!
# Guards

The checks that a call makes before it writes, each with the error it reverts with: a
requirement, a value within its bounds, arithmetic at a width, and a pause whose capability
expires.

Main results:

- Theorem `Guard.require_eq_ok`, Theorem `Guard.within_eq_ok` and Theorem `Guard.pausable_eq_ok`:
  a guard is passed exactly when its condition holds.
- Theorem `Guard.add_eq_ok` and Theorem `Guard.sub_eq_ok`: arithmetic that returns is exact.
-/

namespace Decdn.Guard

variable {ε : Type} {error : ε} {u : Unit} {a b r : Nat}

/-- A requirement of a call. -/
def require (cond : Bool) (error : ε) : Except ε Unit :=
  if cond then .ok () else .error error

/-- A value inside `[floor, ceiling]`. -/
def within (value floor ceiling : Nat) (error : ε) : Except ε Unit :=
  if value < floor ∨ ceiling < value then .error error else .ok ()

/-- Addition at a width. -/
def add (max : Nat) (error : ε) (a b : Nat) : Except ε Nat :=
  if a + b ≤ max then .ok (a + b) else .error error

/-- Subtraction. -/
def sub (error : ε) (a b : Nat) : Except ε Nat :=
  if b ≤ a then .ok (a - b) else .error error

/-- A cast to a width. -/
def cast (max : Nat) (error : ε) (a : Nat) : Except ε Nat :=
  if a ≤ max then .ok a else .error error

/-- A pause may begin: its capability has not expired, and no pause is on. -/
def pausable (now deadline : Nat) (paused : Bool) (expired enforced : ε) : Except ε Unit :=
  if deadline < now then .error expired
  else if paused then .error enforced
  else .ok ()

theorem require_eq_ok {cond : Bool} : require cond error = .ok u ↔ cond = true := by
  cases cond <;> simp [require]

theorem require_not_eq_ok {cond : Bool} : require (!cond) error = .ok u ↔ cond = false := by
  rw [require_eq_ok, Bool.not_eq_true']

theorem within_eq_ok {value floor ceiling : Nat} :
    within value floor ceiling error = .ok u ↔ floor ≤ value ∧ value ≤ ceiling := by
  unfold within
  split
  · rename_i h
    simp only [reduceCtorEq, false_iff]
    omega
  · rename_i h
    simp only [true_iff]
    omega

theorem add_eq_ok {max : Nat} : add max error a b = .ok r ↔ a + b ≤ max ∧ r = a + b := by
  unfold add
  split <;> simp_all [eq_comm]

theorem sub_eq_ok : sub error a b = .ok r ↔ b ≤ a ∧ r = a - b := by
  unfold sub
  split <;> simp_all [eq_comm]

theorem cast_eq_ok {max : Nat} : cast max error a = .ok r ↔ a ≤ max ∧ r = a := by
  unfold cast
  split <;> simp_all [eq_comm]

theorem pausable_eq_ok {now deadline : Nat} {paused : Bool} {expired enforced : ε} :
    pausable now deadline paused expired enforced = .ok u ↔ now ≤ deadline ∧ paused = false := by
  unfold pausable
  split
  · rename_i hlate
    simp only [reduceCtorEq, false_iff]
    exact fun h => Nat.not_lt.mpr h.1 hlate
  · rename_i hlate
    cases paused <;> simp [Nat.not_lt.mp hlate]

end Decdn.Guard
