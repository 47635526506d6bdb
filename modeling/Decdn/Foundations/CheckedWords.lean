import Decdn.Foundations.Fallible
import Decdn.Foundations.Words

/-!
# Checked arithmetic

Operations on words that revert instead of wrapping, each with the reason it reverts for, so
that a computation can be shown to revert for some reasons only.

Main results:

- Theorem `Checked.add_eq_ok` and its likes: an operation that returns is the operation on numbers.
- Theorem `Checked.foldlM_add_eq_ok`: a loop that adds up returns the sum.
- Theorem `Checked.FailsOnly.bind` and Theorem `Checked.FailsOnly.foldlM`: the reasons of a
  composed computation.
-/

namespace Decdn

/-- Why checked arithmetic reverts. -/
inductive ArithError where
  | overflow
  | underflow
  | divisionByZero
  | downcast
deriving DecidableEq, Repr

namespace Checked

/-- A value that must stay below a bound. -/
def bounded (bound : Nat) (error : ArithError) (n : Nat) : Except ArithError Nat :=
  if n < bound then .ok n else .error error

/-- Checked 256-bit addition. -/
def add (a b : Nat) : Except ArithError Nat := bounded U256.modulus .overflow (a + b)

/-- Checked subtraction. -/
def sub (a b : Nat) : Except ArithError Nat :=
  if b ≤ a then .ok (a - b) else .error .underflow

/-- Checked 256-bit multiplication. -/
def mul (a b : Nat) : Except ArithError Nat := bounded U256.modulus .overflow (a * b)

/-- Checked division. -/
def div (a b : Nat) : Except ArithError Nat :=
  if b = 0 then .error .divisionByZero else .ok (a / b)

variable {a b r bound : Nat} {error : ArithError}

theorem bounded_eq_ok : bounded bound error a = .ok r ↔ a < bound ∧ r = a := by
  unfold bounded
  split
  · rename_i hlt
    exact ⟨fun h => ⟨hlt, (Except.ok.inj h).symm⟩, fun h => congrArg _ h.2.symm⟩
  · rename_i hge
    exact ⟨nofun, fun h => absurd h.1 hge⟩

/-- A sum that returns is the sum. -/
theorem add_eq_ok : add a b = .ok r ↔ a + b < U256.modulus ∧ r = a + b :=
  bounded_eq_ok

/-- A difference that returns is the difference. -/
theorem sub_eq_ok : sub a b = .ok r ↔ b ≤ a ∧ r = a - b := by
  unfold sub
  split
  · rename_i hle
    exact ⟨fun h => ⟨hle, (Except.ok.inj h).symm⟩, fun h => congrArg _ h.2.symm⟩
  · rename_i hlt
    exact ⟨nofun, fun h => absurd h.1 hlt⟩

/-- A product that returns is the product. -/
theorem mul_eq_ok : mul a b = .ok r ↔ a * b < U256.modulus ∧ r = a * b :=
  bounded_eq_ok

/-- A quotient that returns is the quotient. -/
theorem div_eq_ok : div a b = .ok r ↔ b ≠ 0 ∧ r = a / b := by
  unfold div
  split
  · rename_i hzero
    exact ⟨nofun, fun h => absurd hzero h.1⟩
  · rename_i hpos
    exact ⟨fun h => ⟨hpos, (Except.ok.inj h).symm⟩, fun h => congrArg _ h.2.symm⟩

/-- A loop that adds up and returns has the sum. -/
theorem foldlM_add_eq_ok {f : Nat → Nat} {xs : List Nat} {start : Nat}
    (h : xs.foldlM (fun sum x => add sum (f x)) start = .ok r) :
    r = start + (xs.map f).sum := by
  induction xs generalizing start with
  | nil =>
    rw [List.foldlM_nil, pure_eq_ok] at h
    exact h.symm
  | cons x xs ih =>
    rw [List.foldlM_cons, bind_eq_ok] at h
    rcases h with ⟨next, hnext, hrest⟩
    rw [ih hrest, (add_eq_ok.mp hnext).2, List.map_cons, List.sum_cons, Nat.add_assoc]

/-! ## Reasons -/

section Reasons

variable {α β : Type} {P : ArithError → Prop}

/-- A computation that reverts for some reasons only. -/
def FailsOnly (P : ArithError → Prop) (x : Except ArithError α) : Prop :=
  ∀ e, x = .error e → P e

theorem FailsOnly.ok (v : α) : FailsOnly P (.ok v) := nofun

theorem FailsOnly.pure (v : α) : FailsOnly P (Pure.pure v) := nofun

/-- A computation that goes on from what another returns. -/
theorem FailsOnly.bind {x : Except ArithError α} {f : α → Except ArithError β}
    (hx : FailsOnly P x) (hf : ∀ v, x = .ok v → FailsOnly P (f v)) : FailsOnly P (x >>= f) := by
  cases x with
  | error e =>
    intro e' he
    cases he
    exact hx e rfl
  | ok v => exact hf v rfl

/-- A loop whose rounds fail for some reasons only. -/
theorem FailsOnly.foldlM {f : β → α → Except ArithError β} {xs : List α}
    (h : ∀ acc x, x ∈ xs → FailsOnly P (f acc x)) (acc : β) : FailsOnly P (xs.foldlM f acc) := by
  induction xs generalizing acc with
  | nil => exact .pure acc
  | cons x xs ih =>
    rw [List.foldlM_cons]
    exact (h acc x List.mem_cons_self).bind fun next _ =>
      ih (fun acc y hy => h acc y (List.mem_cons_of_mem x hy)) next

theorem FailsOnly.bounded (h : P error) (bound n : Nat) : FailsOnly P (bounded bound error n) := by
  intro e he
  unfold Checked.bounded at he
  split at he
  · cases he
  · cases he
    exact h

theorem FailsOnly.add (h : P .overflow) (a b : Nat) : FailsOnly P (add a b)  :=
  .bounded h _ _

theorem FailsOnly.mul (h : P .overflow) (a b : Nat) : FailsOnly P (mul a b)  :=
  .bounded h _ _

/-- A difference that does not underflow does not revert. -/
theorem FailsOnly.sub (h : b ≤ a) : FailsOnly P (sub a b) := by
  unfold Checked.sub
  rw [if_pos h]
  exact .ok _

/-- A quotient of a positive divisor does not revert. -/
theorem FailsOnly.div (h : b ≠ 0) (a : Nat) : FailsOnly P (div a b) := by
  unfold Checked.div
  rw [if_neg h]
  exact .ok _

end Reasons

end Checked

end Decdn
