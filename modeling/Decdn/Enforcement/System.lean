import Decdn.CapacityBond.SlashingSpec
import Decdn.ContentBlacklist.Spec
import Decdn.SlashJudge.Spec
import Decdn.Foundations.Runs

/-!
# The enforcement contracts together

CapacityBond, ContentBlacklist and SlashJudge as one transition system.  The three
contracts call each other inside a transaction: the judge slashes through
CapacityBond, the blacklist ejects operators there, and CapacityBond reads the
judge's evidence age.

Main definitions:

- Structure `System`: the storage of the three contracts and the chain's clock.
- Definition `System.apply`: one transaction, or `none` if it reverts.

Main results:

- Theorem `System.Step.bond_cases`: what a step does to CapacityBond is one of its calls.
- Theorem `System.Step.list_cases`: what it does to ContentBlacklist is one of its effects.
-/

namespace Decdn.Enforcement

/-- The fixed part of a deployment: the contracts' primitives and two of their addresses. -/
structure Protocol where
  H : CapacityBond.Wiring
  J : SlashJudge.Wiring
  L : ContentBlacklist.Sets
  judge : Address
  blacklist : Address

/-- The storage of the three contracts and the chain's clock. -/
structure System where
  now : Nat
  bond : CapacityBond.State
  list : ContentBlacklist.State
  judge : SlashJudge.State

/-- One event of a run.  A blacklist call comes with the environment of the CapacityBond call
it may make. -/
inductive Event where
  | bond (tx : CapacityBond.Tx) (c : CapacityBond.Call)
  | list (tx : ContentBlacklist.Tx) (inner : CapacityBond.Tx) (c : ContentBlacklist.Call)
  | judge (tx : SlashJudge.Tx) (c : SlashJudge.Call)
  | wait (later : Nat)

/-- A CapacityBond call: what it asks the judge, the judge answers. -/
def System.applyBond (P : Protocol) (w : System) (tx : CapacityBond.Tx) (c : CapacityBond.Call) :
    Option System :=
  if w.now ≤ tx.timestamp ∧ tx.maxEvidenceAgeUs P.judge = some w.judge.maxEvidenceAgeUs then
    match CapacityBond.exec P.H tx w.bond c with
    | .ok bond => some { w with now := tx.timestamp, bond := bond }
    | .error _ => none
  else none

/-- A ContentBlacklist call together with the CapacityBond call it makes. -/
def System.applyList (P : Protocol) (w : System) (tx : ContentBlacklist.Tx)
    (inner : CapacityBond.Tx) (c : ContentBlacklist.Call) : Option System :=
  if w.now ≤ tx.timestamp ∧ inner.sender = P.blacklist ∧ inner.timestamp = tx.timestamp then
    match ContentBlacklist.exec P.L tx w.list c with
    | .ok (list, none) => some { w with now := tx.timestamp, list := list }
    | .ok (list, some call) =>
      match CapacityBond.exec P.H inner w.bond call with
      | .ok bond => some { w with now := tx.timestamp, list := list, bond := bond }
      | .error _ => none
    | .error _ => none
  else none

/-- A SlashJudge call; its inner calls come from the judge's address. -/
def System.applyJudge (P : Protocol) (w : System) (tx : SlashJudge.Tx) (c : SlashJudge.Call) :
    Option System :=
  if w.now ≤ tx.timestamp ∧ tx.bond.sender = P.judge then
    match SlashJudge.exec P.J tx w.judge w.list w.bond c with
    | .ok (judge, bond) => some { w with now := tx.timestamp, judge := judge, bond := bond }
    | .error _ => none
  else none

/-- The passing of time. -/
def System.applyWait (w : System) (later : Nat) : Option System :=
  if w.now ≤ later then some { w with now := later } else none

/-- One transaction, or `none` if it is out of order or reverts. -/
def System.apply (P : Protocol) (w : System) : Event → Option System
  | .bond tx c => w.applyBond P tx c
  | .list tx inner c => w.applyList P tx inner c
  | .judge tx c => w.applyJudge P tx c
  | .wait later => w.applyWait later

/-- The step relation of the system. -/
def System.Step (P : Protocol) (w : System) (e : Event) (w' : System) : Prop :=
  w.apply P e = some w'

variable {P : Protocol} {w w' : System} {e : Event}

/-! ## Inversion -/

theorem applyBond_cases {tx : CapacityBond.Tx} {c : CapacityBond.Call}
    (h : w.applyBond P tx c = some w') :
    w.now ≤ tx.timestamp ∧ tx.maxEvidenceAgeUs P.judge = some w.judge.maxEvidenceAgeUs ∧
      ∃ bond, CapacityBond.exec P.H tx w.bond c = .ok bond ∧
        w' = { w with now := tx.timestamp, bond := bond } := by
  unfold System.applyBond at h
  split at h
  · rename_i hpre
    split at h
    · rename_i bond hexec
      exact ⟨hpre.1, hpre.2, bond, hexec, (Option.some.inj h).symm⟩
    · cases h
  · cases h

theorem applyList_cases {tx : ContentBlacklist.Tx} {inner : CapacityBond.Tx}
    {c : ContentBlacklist.Call} (h : w.applyList P tx inner c = some w') :
    w.now ≤ tx.timestamp ∧ inner.timestamp = tx.timestamp ∧
      ∃ list bond out, ContentBlacklist.exec P.L tx w.list c = .ok (list, out) ∧
        (bond = w.bond ∨ ∃ call, out = some call ∧
          CapacityBond.exec P.H inner w.bond call = .ok bond) ∧
        w' = { w with now := tx.timestamp, list := list, bond := bond } := by
  unfold System.applyList at h
  split at h
  · rename_i hpre
    split at h
    · rename_i list hexec
      exact ⟨hpre.1, hpre.2.2, list, w.bond, none, hexec, .inl rfl, (Option.some.inj h).symm⟩
    · rename_i list call hexec
      split at h
      · rename_i bond hcall
        exact ⟨hpre.1, hpre.2.2, list, bond, some call, hexec, .inr ⟨call, rfl, hcall⟩,
          (Option.some.inj h).symm⟩
      · cases h
    · cases h
  · cases h

theorem applyJudge_cases {tx : SlashJudge.Tx} {c : SlashJudge.Call}
    (h : w.applyJudge P tx c = some w') :
    w.now ≤ tx.timestamp ∧
      ∃ judge bond, SlashJudge.exec P.J tx w.judge w.list w.bond c = .ok (judge, bond) ∧
        w' = { w with now := tx.timestamp, judge := judge, bond := bond } := by
  unfold System.applyJudge at h
  split at h
  · rename_i hpre
    split at h
    · rename_i judge bond hexec
      exact ⟨hpre.1, judge, bond, hexec, (Option.some.inj h).symm⟩
    · cases h
  · cases h

theorem applyWait_cases {later : Nat} (h : w.applyWait later = some w') :
    w.now ≤ later ∧ w' = { w with now := later } := by
  unfold System.applyWait at h
  split at h
  · rename_i hnow
    exact ⟨hnow, (Option.some.inj h).symm⟩
  · cases h

/-- Time does not run back. -/
theorem System.Step.now_le (h : System.Step P w e w') : w.now ≤ w'.now := by
  cases e with
  | bond tx c =>
    rcases applyBond_cases h with ⟨hnow, -, bond, -, rfl⟩
    exact hnow
  | list tx inner c =>
    rcases applyList_cases h with ⟨hnow, -, list, bond, out, -, -, rfl⟩
    exact hnow
  | judge tx c =>
    rcases applyJudge_cases h with ⟨hnow, judge, bond, -, rfl⟩
    exact hnow
  | wait later =>
    rcases applyWait_cases h with ⟨hnow, rfl⟩
    exact hnow

/-- The calls that other contracts make on CapacityBond. -/
def InnerCall : CapacityBond.Call → Prop
  | .ejectNode _ | .unEjectNode _ | .slash .. => True
  | _ => False

/-- What a step does to CapacityBond: nothing, the call of its own event, or a call of
another contract. -/
theorem System.Step.bond_cases (h : System.Step P w e w') :
    w'.bond = w.bond ∨ ∃ tx c, tx.timestamp = w'.now ∧
      CapacityBond.exec P.H tx w.bond c = .ok w'.bond ∧ (e = .bond tx c ∨ InnerCall c) := by
  cases e with
  | bond tx c =>
    rcases applyBond_cases h with ⟨-, -, bond, hexec, rfl⟩
    exact .inr ⟨tx, c, rfl, hexec, .inl rfl⟩
  | list tx inner c =>
    rcases applyList_cases h with ⟨-, htime, list, bond, out, hexec, hbond, rfl⟩
    rcases hbond with rfl | ⟨call, rfl, hcall⟩
    · exact .inl rfl
    · refine .inr ⟨inner, call, htime, hcall, .inr ?_⟩
      rcases ContentBlacklist.exec_out hexec with ⟨operator, rfl | rfl⟩
      · trivial
      · trivial
  | judge tx c =>
    rcases applyJudge_cases h with ⟨-, judge, bond, hexec, rfl⟩
    rcases SlashJudge.exec_cases hexec with ⟨commitment, -, rfl, -⟩ |
      ⟨operator, offenseType, evidenceHash, salt, hrevealed, -⟩ | ⟨rfl, -⟩
    · exact .inl rfl
    · rcases hrevealed.slashed with ⟨slashId, amount, hslash, -⟩
      refine .inr ⟨tx.bond, .slash operator tx.sender offenseType.toUInt8 evidenceHash,
        tx.bond_timestamp, ?_, .inr trivial⟩
      change Prod.fst <$> CapacityBond.slash _ _ _ _ _ _ = _
      rw [hslash]
      rfl
    · exact .inl rfl
  | wait later =>
    rcases applyWait_cases h with ⟨-, rfl⟩
    exact .inl rfl

/-- What a step does to ContentBlacklist: nothing, or one of its effects. -/
theorem System.Step.list_cases (h : System.Step P w e w') :
    w'.list = w.list ∨ ∃ (tx : ContentBlacklist.Tx) (c : ContentBlacklist.Call),
      tx.timestamp = w'.now ∧ ContentBlacklist.Effect P.L tx w.list c w'.list := by
  cases e with
  | bond tx c =>
    rcases applyBond_cases h with ⟨-, -, bond, -, rfl⟩
    exact .inl rfl
  | list tx inner c =>
    rcases applyList_cases h with ⟨-, -, list, bond, out, hexec, -, rfl⟩
    exact .inr ⟨tx, c, rfl, ContentBlacklist.exec_effect hexec⟩
  | judge tx c =>
    rcases applyJudge_cases h with ⟨-, judge, bond, -, rfl⟩
    exact .inl rfl
  | wait later =>
    rcases applyWait_cases h with ⟨-, rfl⟩
    exact .inl rfl

end Decdn.Enforcement
