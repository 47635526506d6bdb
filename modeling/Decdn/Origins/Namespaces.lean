import Decdn.Foundations.Fallible
import Decdn.Foundations.Guards
import Decdn.Foundations.Words
import Mathlib.Logic.Function.Basic

/-!
# The PublisherRegistry contract

Namespaces are numbered from 1 and each has one owner.  Ownership moves in two steps: the
owner names a successor, and the successor claims the namespace once a time lock is over.
This file embeds `contracts/src/PublisherRegistry.sol`; what `AccessControl` answers during
one transaction is in `Tx`.

Main definitions:

- Structure `State`: the storage, and the events emitted with their block times.
- Definition `exec`: one external call.

Main results:

- Theorem `exec_move`: what a successful call can do.
-/

namespace Decdn.PublisherRegistry

/-! ## Data model -/

/-- A transfer that waits for its new owner. -/
structure PendingTransfer where
  newOwner : Address := 0
  readyAt : Nat := 0
deriving DecidableEq, Repr

/-- The events of the contract. -/
inductive Event where
  | namespaceCreated (namespaceId : Nat) (owner : Address)
  | namespaceTransferInitiated (namespaceId : Nat) (source target : Address) (readyAt : Nat)
  | namespaceTransferred (namespaceId : Nat) (source target : Address)
  | namespaceTransferCancelled (namespaceId : Nat) (owner : Address)
  | maxNamespacesPerPublisherUpdated (oldValue newValue : Nat)
  | namespaceTransferTimelockUpdated (oldValue newValue : Nat)
deriving DecidableEq, Repr

/-- Every way a call reverts. -/
inductive Error where
  | zeroAddress
  | namespaceCapReached (cap : Nat)
  | notNamespaceOwner (namespaceId : Nat) (caller : Address)
  | transferToZeroAddress
  | noPendingTransfer (namespaceId : Nat)
  | transferNotReady (readyAt : Nat)
  | notPendingOwner (namespaceId : Nat) (caller : Address)
  | paramOutOfBounds (value floor ceiling : Nat)
  | unauthorizedAccount (account : Address)
  | safeCastOverflowedUint
  | arithmeticPanic
deriving DecidableEq, Repr

/-- One transaction.  No transaction is sent from the zero address. -/
structure Tx where
  sender : Address
  sender_ne_zero : sender ≠ 0
  timestamp : Nat
  /-- Who holds `GOVERNANCE_ROLE`. -/
  isGovernance : Address → Bool

/-- `1 days`. -/
def transferTimelockFloor : Nat := 24 * 3600

/-- `30 days`. -/
def transferTimelockCeiling : Nat := 30 * 24 * 3600

/-- `7 days`. -/
def defaultTransferTimelock : Nat := 7 * 24 * 3600

def defaultMaxNamespaces : Nat := 100
def maxNamespacesFloor : Nat := 1
def maxNamespacesCeiling : Nat := 1000

/-- Contract storage and the events emitted so far, each with the time of its block. -/
structure State where
  ownerOf : Nat → Address := fun _ => 0
  namespaceCount : Address → Nat := fun _ => 0
  pendingTransfer : Nat → PendingTransfer := fun _ => {}
  maxNamespacesPerPublisher : Nat := defaultMaxNamespaces
  namespaceTransferTimelock : Nat := defaultTransferTimelock
  nextNamespaceId : Nat := 0
  log : List (Nat × Event) := []

/-- Append one event. -/
def State.emit (s : State) (tx : Tx) (e : Event) : State :=
  { s with log := s.log ++ [(tx.timestamp, e)] }

/-! ## Calls -/

/-- Checked addition at a width. -/
def checkedAdd (max : Nat) : Nat → Nat → Except Error Nat := Guard.add max .arithmeticPanic

/-- Checked subtraction. -/
def checkedSub : Nat → Nat → Except Error Nat := Guard.sub .arithmeticPanic

/-- `SafeCast.toUint64`. -/
def toUint64 : Nat → Except Error Nat := Guard.cast u64Max .safeCastOverflowedUint

/-- `onlyRole(GOVERNANCE_ROLE)`. -/
def onlyGovernance (tx : Tx) : Except Error Unit :=
  Guard.require (tx.isGovernance tx.sender) (.unauthorizedAccount tx.sender)

/-- `_requireOwner`. -/
def requireOwner (tx : Tx) (s : State) (namespaceId : Nat) : Except Error Unit :=
  if s.ownerOf namespaceId ≠ tx.sender then .error (.notNamespaceOwner namespaceId tx.sender)
  else .ok ()

/-- `createNamespace`: returns the new id. -/
def createNamespace (tx : Tx) (s : State) : Except Error (State × Nat) :=
  if s.maxNamespacesPerPublisher ≤ s.namespaceCount tx.sender then
    .error (.namespaceCapReached s.maxNamespacesPerPublisher)
  else do
    let namespaceId ← checkedAdd u64Max s.nextNamespaceId 1
    let count ← checkedAdd u256Max (s.namespaceCount tx.sender) 1
    let s := { s with
      nextNamespaceId := namespaceId
      ownerOf := Function.update s.ownerOf namespaceId tx.sender
      namespaceCount := Function.update s.namespaceCount tx.sender count }
    return (s.emit tx (.namespaceCreated namespaceId tx.sender), namespaceId)

/-- `initiateNamespaceTransfer`: a second call replaces the transfer that waits. -/
def initiateNamespaceTransfer (tx : Tx) (s : State) (namespaceId : Nat) (newOwner : Address) :
    Except Error State := do
  requireOwner tx s namespaceId
  if newOwner = 0 then .error .transferToZeroAddress
  else
    let sum ← checkedAdd u256Max tx.timestamp s.namespaceTransferTimelock
    let readyAt ← toUint64 sum
    let s := { s with
      pendingTransfer := Function.update s.pendingTransfer namespaceId ⟨newOwner, readyAt⟩ }
    return s.emit tx (.namespaceTransferInitiated namespaceId tx.sender newOwner readyAt)

/-- `finalizeNamespaceTransfer`: the new owner claims, and the cap binds unless it owns the
namespace already. -/
def finalizeNamespaceTransfer (tx : Tx) (s : State) (namespaceId : Nat) : Except Error State :=
  let pending := s.pendingTransfer namespaceId
  if pending.newOwner = 0 then .error (.noPendingTransfer namespaceId)
  else if tx.sender ≠ pending.newOwner then .error (.notPendingOwner namespaceId tx.sender)
  else if tx.timestamp < pending.readyAt then .error (.transferNotReady pending.readyAt)
  else
    let source := s.ownerOf namespaceId
    if source ≠ pending.newOwner ∧
        s.maxNamespacesPerPublisher ≤ s.namespaceCount pending.newOwner then
      .error (.namespaceCapReached s.maxNamespacesPerPublisher)
    else do
      let left ← checkedSub (s.namespaceCount source) 1
      let counts := Function.update s.namespaceCount source left
      let right ← checkedAdd u256Max (counts pending.newOwner) 1
      let s := { s with
        ownerOf := Function.update s.ownerOf namespaceId pending.newOwner
        namespaceCount := Function.update counts pending.newOwner right
        pendingTransfer := Function.update s.pendingTransfer namespaceId {} }
      return s.emit tx (.namespaceTransferred namespaceId source pending.newOwner)

/-- `cancelNamespaceTransfer`. -/
def cancelNamespaceTransfer (tx : Tx) (s : State) (namespaceId : Nat) : Except Error State := do
  requireOwner tx s namespaceId
  if (s.pendingTransfer namespaceId).newOwner = 0 then .error (.noPendingTransfer namespaceId)
  else
    let s := { s with pendingTransfer := Function.update s.pendingTransfer namespaceId {} }
    return s.emit tx (.namespaceTransferCancelled namespaceId tx.sender)

/-- A value inside `[floor, ceiling]`. -/
def enforceBounds (value floor ceiling : Nat) : Except Error Unit :=
  Guard.within value floor ceiling (.paramOutOfBounds value floor ceiling)

/-- `setMaxNamespacesPerPublisher`. -/
def setMaxNamespacesPerPublisher (tx : Tx) (s : State) (newMax : Nat) : Except Error State := do
  onlyGovernance tx
  enforceBounds newMax maxNamespacesFloor maxNamespacesCeiling
  let max ← toUint64 newMax
  return { s with maxNamespacesPerPublisher := max }.emit tx
    (.maxNamespacesPerPublisherUpdated s.maxNamespacesPerPublisher newMax)

/-- `setNamespaceTransferTimelock`. -/
def setNamespaceTransferTimelock (tx : Tx) (s : State) (newTimelock : Nat) :
    Except Error State := do
  onlyGovernance tx
  enforceBounds newTimelock transferTimelockFloor transferTimelockCeiling
  return { s with namespaceTransferTimelock := newTimelock }.emit tx
    (.namespaceTransferTimelockUpdated s.namespaceTransferTimelock newTimelock)

/-- The external state-changing functions. -/
inductive Call where
  | createNamespace
  | initiateNamespaceTransfer (namespaceId : Nat) (newOwner : Address)
  | finalizeNamespaceTransfer (namespaceId : Nat)
  | cancelNamespaceTransfer (namespaceId : Nat)
  | setMaxNamespacesPerPublisher (newMax : Nat)
  | setNamespaceTransferTimelock (newTimelock : Nat)
deriving DecidableEq, Repr

/-- Execute one external call. -/
def exec (tx : Tx) (s : State) : Call → Except Error State
  | .createNamespace => Prod.fst <$> createNamespace tx s
  | .initiateNamespaceTransfer namespaceId newOwner =>
    initiateNamespaceTransfer tx s namespaceId newOwner
  | .finalizeNamespaceTransfer namespaceId => finalizeNamespaceTransfer tx s namespaceId
  | .cancelNamespaceTransfer namespaceId => cancelNamespaceTransfer tx s namespaceId
  | .setMaxNamespacesPerPublisher newMax => setMaxNamespacesPerPublisher tx s newMax
  | .setNamespaceTransferTimelock newTimelock => setNamespaceTransferTimelock tx s newTimelock

/-! ## What a call can do -/

variable {tx : Tx} {s s' : State}

/-- One namespace fewer for `source`, then one more for `target`. -/
def moveCount (counts : Address → Nat) (source target : Address) : Address → Nat :=
  Function.update (Function.update counts source (counts source - 1)) target
    (Function.update counts source (counts source - 1) target + 1)

/-- The effect of one successful call. -/
inductive Move (tx : Tx) (s : State) : State → Prop where
  | created (hcap : s.namespaceCount tx.sender < s.maxNamespacesPerPublisher)
      (hfits : s.nextNamespaceId + 1 < 2 ^ 64) :
      Move tx s (State.emit { s with
        nextNamespaceId := s.nextNamespaceId + 1
        ownerOf := Function.update s.ownerOf (s.nextNamespaceId + 1) tx.sender
        namespaceCount :=
          Function.update s.namespaceCount tx.sender (s.namespaceCount tx.sender + 1) }
        tx (.namespaceCreated (s.nextNamespaceId + 1) tx.sender))
  | initiated {namespaceId : Nat} {newOwner : Address} (howner : s.ownerOf namespaceId = tx.sender)
      (htarget : newOwner ≠ 0) :
      Move tx s (State.emit { s with
        pendingTransfer := Function.update s.pendingTransfer namespaceId
          ⟨newOwner, tx.timestamp + s.namespaceTransferTimelock⟩ }
        tx (.namespaceTransferInitiated namespaceId tx.sender newOwner
          (tx.timestamp + s.namespaceTransferTimelock)))
  | transferred {namespaceId readyAt : Nat}
      (hpending : s.pendingTransfer namespaceId = ⟨tx.sender, readyAt⟩)
      (hready : readyAt ≤ tx.timestamp) (hpositive : 0 < s.namespaceCount (s.ownerOf namespaceId))
      (hcap : s.ownerOf namespaceId ≠ tx.sender →
        s.namespaceCount tx.sender < s.maxNamespacesPerPublisher) :
      Move tx s (State.emit { s with
        ownerOf := Function.update s.ownerOf namespaceId tx.sender
        namespaceCount := moveCount s.namespaceCount (s.ownerOf namespaceId) tx.sender
        pendingTransfer := Function.update s.pendingTransfer namespaceId {} }
        tx (.namespaceTransferred namespaceId (s.ownerOf namespaceId) tx.sender))
  | cancelled {namespaceId : Nat} (howner : s.ownerOf namespaceId = tx.sender) :
      Move tx s (State.emit { s with
        pendingTransfer := Function.update s.pendingTransfer namespaceId {} }
        tx (.namespaceTransferCancelled namespaceId tx.sender))
  | setMax {newMax : Nat} (hceiling : newMax ≤ maxNamespacesCeiling) :
      Move tx s (State.emit { s with maxNamespacesPerPublisher := newMax } tx
        (.maxNamespacesPerPublisherUpdated s.maxNamespacesPerPublisher newMax))
  | setTimelock {newTimelock : Nat} (hfloor : transferTimelockFloor ≤ newTimelock) :
      Move tx s (State.emit { s with namespaceTransferTimelock := newTimelock } tx
        (.namespaceTransferTimelockUpdated s.namespaceTransferTimelock newTimelock))

theorem checkedAdd_eq_ok {m a b r : Nat} :
    checkedAdd m a b = .ok r ↔ a + b ≤ m ∧ r = a + b :=
  Guard.add_eq_ok

theorem requireOwner_eq_ok {namespaceId : Nat} {u : Unit} :
    requireOwner tx s namespaceId = .ok u ↔ s.ownerOf namespaceId = tx.sender := by
  unfold requireOwner
  by_cases h : s.ownerOf namespaceId = tx.sender <;> simp [h]

theorem enforceBounds_eq_ok {value floor ceiling : Nat} {u : Unit} :
    enforceBounds value floor ceiling = .ok u ↔ floor ≤ value ∧ value ≤ ceiling :=
  Guard.within_eq_ok

theorem createNamespace_move {namespaceId : Nat}
    (h : createNamespace tx s = .ok (s', namespaceId)) : Move tx s s' := by
  unfold createNamespace at h
  split at h
  · cases h
  · rename_i hcap
    simp only [bind_eq_ok, pure_eq_ok, checkedAdd_eq_ok, Prod.mk.injEq] at h
    rcases h with ⟨_, ⟨hfits, rfl⟩, _, ⟨-, rfl⟩, rfl, -⟩
    have hword : s.nextNamespaceId + 1 < 2 ^ 64 := by
      unfold u64Max at hfits
      omega
    exact .created (not_le.mp hcap) hword

theorem initiateNamespaceTransfer_move {namespaceId : Nat} {newOwner : Address}
    (h : initiateNamespaceTransfer tx s namespaceId newOwner = .ok s') : Move tx s s' := by
  unfold initiateNamespaceTransfer at h
  rw [bind_eq_ok] at h
  rcases h with ⟨_, howner, h⟩
  split at h
  · cases h
  · rename_i htarget
    simp only [bind_eq_ok, pure_eq_ok, checkedAdd_eq_ok] at h
    rcases h with ⟨sum, ⟨-, rfl⟩, readyAt, hcast, rfl⟩
    rcases (Guard.cast_eq_ok.mp hcast).2 with rfl
    exact .initiated (requireOwner_eq_ok.mp howner) htarget

theorem finalizeNamespaceTransfer_move {namespaceId : Nat}
    (h : finalizeNamespaceTransfer tx s namespaceId = .ok s') : Move tx s s' := by
  unfold finalizeNamespaceTransfer at h
  dsimp only at h
  split at h
  · cases h
  split at h
  · cases h
  rename_i hnew
  split at h
  · cases h
  rename_i hready
  split at h
  · cases h
  rename_i hcap
  rw [ne_eq, not_not] at hnew
  simp only [bind_eq_ok, pure_eq_ok, checkedAdd_eq_ok] at h
  rcases h with ⟨left, hleft, right, ⟨-, rfl⟩, rfl⟩
  rcases Guard.sub_eq_ok.mp hleft with ⟨hpositive, rfl⟩
  have hpending : s.pendingTransfer namespaceId =
      ⟨tx.sender, (s.pendingTransfer namespaceId).readyAt⟩ := by
    rw [hnew]
  rw [← hnew] at hcap ⊢
  refine .transferred hpending (not_lt.mp hready) hpositive fun hne => ?_
  by_contra hfull
  exact hcap ⟨hne, not_lt.mp hfull⟩

theorem cancelNamespaceTransfer_move {namespaceId : Nat}
    (h : cancelNamespaceTransfer tx s namespaceId = .ok s') : Move tx s s' := by
  unfold cancelNamespaceTransfer at h
  rw [bind_eq_ok] at h
  rcases h with ⟨_, howner, h⟩
  split at h
  · cases h
  · rcases pure_eq_ok.mp h with rfl
    exact .cancelled (requireOwner_eq_ok.mp howner)

/-- Every successful call is one of the moves. -/
theorem exec_move {c : Call} (h : exec tx s c = .ok s') : Move tx s s' := by
  cases c with
  | createNamespace =>
    change Prod.fst <$> createNamespace tx s = .ok s' at h
    cases hcreate : createNamespace tx s with
    | error e =>
      rw [hcreate] at h
      cases h
    | ok result =>
      rw [hcreate] at h
      rcases result with ⟨t, namespaceId⟩
      rcases Except.ok.inj h with rfl
      exact createNamespace_move hcreate
  | initiateNamespaceTransfer namespaceId newOwner => exact initiateNamespaceTransfer_move h
  | finalizeNamespaceTransfer namespaceId => exact finalizeNamespaceTransfer_move h
  | cancelNamespaceTransfer namespaceId => exact cancelNamespaceTransfer_move h
  | setMaxNamespacesPerPublisher newMax =>
    simp only [exec, setMaxNamespacesPerPublisher, bind_eq_ok, pure_eq_ok,
      enforceBounds_eq_ok] at h
    rcases h with ⟨_, -, _, ⟨-, hceiling⟩, max, hcast, rfl⟩
    rcases (Guard.cast_eq_ok.mp hcast).2 with rfl
    exact .setMax hceiling
  | setNamespaceTransferTimelock newTimelock =>
    simp only [exec, setNamespaceTransferTimelock, bind_eq_ok, pure_eq_ok,
      enforceBounds_eq_ok] at h
    rcases h with ⟨_, -, _, ⟨hfloor, -⟩, rfl⟩
    exact .setTimelock hfloor

end Decdn.PublisherRegistry
