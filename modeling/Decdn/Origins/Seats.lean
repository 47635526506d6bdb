import Decdn.Foundations.EnumerableSets
import Decdn.Foundations.Guards
import Decdn.Foundations.Runs
import Decdn.Origins.Ownership

/-!
# The OriginAssignment contract

Vetted publishers seat operators as origins of their own namespaces.  The contract keeps one
set of operators for each namespace and the set of the namespaces that have any; both are
paged by consumers.  This file embeds `contracts/src/OriginAssignment.sol` and runs it
together with the registry that owns the namespaces.  All its external calls are views, so
what the vetting policy and CapacityBond answer during one transaction is in `Tx`.

Main definitions:

- Structure `State`: the storage and the events emitted.
- Definition `exec`: one external call.
- Definition `Reachable`: what the two contracts can reach.

Main results:

- Theorem `exec_move`: what a successful call can do.
-/

namespace Decdn.OriginAssignment

/-! ## Data model -/

/-- The events of the contract. -/
inductive Event where
  | originAdded (namespaceId : Nat) (operator caller : Address)
  | originRemoved (namespaceId : Nat) (operator caller : Address)
  | inactiveOriginPruned (namespaceId : Nat) (operator pruner : Address)
  | maxOriginsPerNamespaceUpdated (oldValue newValue : Nat)
  | vettingPolicyUpdated (oldPolicy newPolicy : Address)
deriving DecidableEq, Repr

/-- Every way a call reverts. -/
inductive Error where
  | zeroAddress
  | notNamespaceOwner (namespaceId : Nat) (caller : Address)
  | tooManyOrigins (count cap : Nat)
  | duplicateOperator (operator : Address)
  | operatorNotActive (operator : Address)
  | notAuthorizedOrigin (namespaceId : Nat) (operator : Address)
  | operatorStillActive (operator : Address)
  | paramOutOfBounds (value floor ceiling : Nat)
  | publisherNotVetted (publisher : Address)
  | vettingPolicyNotAContract (policy : Address)
  | unauthorizedAccount (account : Address)
  | externalCallReverted
deriving DecidableEq, Repr

/-- One transaction and what other contracts answer while it runs. -/
structure Tx where
  sender : Address
  sender_ne_zero : sender ≠ 0
  timestamp : Nat
  /-- Who holds `GOVERNANCE_ROLE`. -/
  isGovernance : Address → Bool
  /-- `IVettingPolicy.isVetted` of the policy at an address, or `none` if it reverts. -/
  isVetted : Address → Address → Option Bool
  /-- `CapacityBond.isActive`. -/
  isActive : Address → Bool
  /-- `address(_).code.length`. -/
  codeLength : Address → Nat

def maxOriginsFloor : Nat := 1
def maxOriginsCeiling : Nat := 50
def defaultMaxOrigins : Nat := 10

/-- Implementations of the two kinds of `EnumerableSet`. -/
structure Sets where
  addresses : SetOps Address
  ids : SetOps Nat

/-- Contract storage and the events emitted so far. -/
structure State where
  maxOriginsPerNamespace : Nat := defaultMaxOrigins
  vettingPolicy : Address
  origins : Nat → List Address := fun _ => []
  assignedNamespaces : List Nat := []
  log : List Event := []

/-- Append one event. -/
def State.emit (s : State) (e : Event) : State :=
  { s with log := s.log ++ [e] }

/-! ## Calls -/

/-- `onlyRole(GOVERNANCE_ROLE)`. -/
def onlyGovernance (tx : Tx) : Except Error Unit :=
  Guard.require (tx.isGovernance tx.sender) (.unauthorizedAccount tx.sender)

/-- `addOrigin`: vetting, ownership and activity first, then the duplicate, then the cap. -/
def addOrigin (L : Sets) (ownerOf : Nat → Address) (tx : Tx) (s : State) (namespaceId : Nat)
    (operator : Address) : Except Error State :=
  match tx.isVetted s.vettingPolicy tx.sender with
  | none => .error .externalCallReverted
  | some false => .error (.publisherNotVetted tx.sender)
  | some true =>
    if ownerOf namespaceId ≠ tx.sender then .error (.notNamespaceOwner namespaceId tx.sender)
    else if tx.isActive operator = false then .error (.operatorNotActive operator)
    else if operator ∈ s.origins namespaceId then .error (.duplicateOperator operator)
    else if s.maxOriginsPerNamespace ≤ (s.origins namespaceId).length then
      .error (.tooManyOrigins ((s.origins namespaceId).length + 1) s.maxOriginsPerNamespace)
    else
      .ok (State.emit { s with
        origins := Function.update s.origins namespaceId
          (L.addresses.add (s.origins namespaceId) operator)
        assignedNamespaces := L.ids.add s.assignedNamespaces namespaceId }
        (.originAdded namespaceId operator tx.sender))

/-- `_pruneEmptyNamespace`. -/
def pruneEmptyNamespace (L : Sets) (s : State) (namespaceId : Nat) : State :=
  if (s.origins namespaceId).length = 0 then
    { s with assignedNamespaces := L.ids.remove s.assignedNamespaces namespaceId }
  else s

/-- The removal that `removeOrigin` and `pruneInactiveOrigin` share. -/
def unseat (L : Sets) (s : State) (namespaceId : Nat) (operator : Address) (e : Event) :
    Except Error State :=
  if operator ∉ s.origins namespaceId then .error (.notAuthorizedOrigin namespaceId operator)
  else
    let s := { s with
      origins := Function.update s.origins namespaceId
        (L.addresses.remove (s.origins namespaceId) operator) }
    .ok ((pruneEmptyNamespace L s namespaceId).emit e)

/-- `removeOrigin`: by governance, or by the owner of the namespace. -/
def removeOrigin (L : Sets) (ownerOf : Nat → Address) (tx : Tx) (s : State) (namespaceId : Nat)
    (operator : Address) : Except Error State :=
  if tx.isGovernance tx.sender = false ∧ ownerOf namespaceId ≠ tx.sender then
    .error (.notNamespaceOwner namespaceId tx.sender)
  else unseat L s namespaceId operator (.originRemoved namespaceId operator tx.sender)

/-- `pruneInactiveOrigin`: by anybody, for an operator that is not active. -/
def pruneInactiveOrigin (L : Sets) (tx : Tx) (s : State) (namespaceId : Nat)
    (operator : Address) : Except Error State :=
  if tx.isActive operator then .error (.operatorStillActive operator)
  else unseat L s namespaceId operator (.inactiveOriginPruned namespaceId operator tx.sender)

/-- `setMaxOriginsPerNamespace`: sets that are larger than the new cap stay as they are. -/
def setMaxOriginsPerNamespace (tx : Tx) (s : State) (cap : Nat) : Except Error State := do
  onlyGovernance tx
  if cap < maxOriginsFloor ∨ maxOriginsCeiling < cap then
    .error (.paramOutOfBounds cap maxOriginsFloor maxOriginsCeiling)
  else
    return { s with maxOriginsPerNamespace := cap }.emit
      (.maxOriginsPerNamespaceUpdated s.maxOriginsPerNamespace cap)

/-- `setVettingPolicy`: any contract. -/
def setVettingPolicy (tx : Tx) (s : State) (newPolicy : Address) : Except Error State := do
  onlyGovernance tx
  if newPolicy = 0 then .error .zeroAddress
  else if tx.codeLength newPolicy = 0 then .error (.vettingPolicyNotAContract newPolicy)
  else
    return { s with vettingPolicy := newPolicy }.emit
      (.vettingPolicyUpdated s.vettingPolicy newPolicy)

/-- The constructor. -/
def deploy (tx : Tx) (capacityBond publisherRegistry vettingPolicy admin : Address) :
    Except Error State :=
  if capacityBond = 0 ∨ publisherRegistry = 0 ∨ vettingPolicy = 0 ∨ admin = 0 then
    .error .zeroAddress
  else if tx.codeLength vettingPolicy = 0 then .error (.vettingPolicyNotAContract vettingPolicy)
  else .ok { vettingPolicy := vettingPolicy }

/-- `assignedNamespaces`. -/
def State.assignedPage (s : State) (offset limit : Nat) : List Nat :=
  page s.assignedNamespaces offset limit

/-- The external state-changing functions. -/
inductive Call where
  | addOrigin (namespaceId : Nat) (operator : Address)
  | removeOrigin (namespaceId : Nat) (operator : Address)
  | pruneInactiveOrigin (namespaceId : Nat) (operator : Address)
  | setMaxOriginsPerNamespace (cap : Nat)
  | setVettingPolicy (newPolicy : Address)
deriving DecidableEq, Repr

/-- Execute one external call. -/
def exec (L : Sets) (ownerOf : Nat → Address) (tx : Tx) (s : State) : Call → Except Error State
  | .addOrigin namespaceId operator => addOrigin L ownerOf tx s namespaceId operator
  | .removeOrigin namespaceId operator => removeOrigin L ownerOf tx s namespaceId operator
  | .pruneInactiveOrigin namespaceId operator => pruneInactiveOrigin L tx s namespaceId operator
  | .setMaxOriginsPerNamespace cap => setMaxOriginsPerNamespace tx s cap
  | .setVettingPolicy newPolicy => setVettingPolicy tx s newPolicy

/-! ## Runs -/

/-- The registry, the seats and the chain's clock. -/
structure World where
  now : Nat
  registry : PublisherRegistry.State
  seats : State

/-- One successful transaction to either contract. -/
inductive Step (L : Sets) : World → World → Prop where
  | registry {w : World} {s : PublisherRegistry.State} (tx : PublisherRegistry.Tx)
      (c : PublisherRegistry.Call) (hnow : w.now ≤ tx.timestamp)
      (hexec : PublisherRegistry.exec tx w.registry c = .ok s) :
      Step L w { w with now := tx.timestamp, registry := s }
  | seats {w : World} {s : State} (tx : Tx) (c : Call) (hnow : w.now ≤ tx.timestamp)
      (hexec : exec L w.registry.ownerOf tx w.seats c = .ok s) :
      Step L w { w with now := tx.timestamp, seats := s }

/-- The worlds that a deployment of both contracts can reach. -/
inductive Reachable (L : Sets) : World → Prop where
  | deployed {s : State} (tx : Tx) (capacityBond publisherRegistry vettingPolicy admin : Address)
      (h : deploy tx capacityBond publisherRegistry vettingPolicy admin = .ok s) :
      Reachable L ⟨tx.timestamp, {}, s⟩
  | step {w w' : World} (h : Reachable L w) (hstep : Step L w w') : Reachable L w'

variable {L : Sets} {ownerOf : Nat → Address} {tx : Tx} {s s' : State}

/-! ## What a call can do -/

/-- What `addOrigin` checks. -/
structure Admits (ownerOf : Nat → Address) (tx : Tx) (s : State) (namespaceId : Nat)
    (operator : Address) : Prop where
  vetted : tx.isVetted s.vettingPolicy tx.sender = some true
  owner : ownerOf namespaceId = tx.sender
  active : tx.isActive operator = true
  fresh : operator ∉ s.origins namespaceId
  room : (s.origins namespaceId).length < s.maxOriginsPerNamespace

/-- The effect of one successful call. -/
inductive Move (L : Sets) (ownerOf : Nat → Address) (tx : Tx) (s : State) : State → Prop where
  | seated {namespaceId : Nat} {operator : Address}
      (hadmits : Admits ownerOf tx s namespaceId operator) :
      Move L ownerOf tx s (State.emit { s with
        origins := Function.update s.origins namespaceId
          (L.addresses.add (s.origins namespaceId) operator)
        assignedNamespaces := L.ids.add s.assignedNamespaces namespaceId }
        (.originAdded namespaceId operator tx.sender))
  | unseated {namespaceId : Nat} {operator : Address} {e : Event}
      (hseated : operator ∈ s.origins namespaceId)
      (hcause : (e = .originRemoved namespaceId operator tx.sender ∧
          (tx.isGovernance tx.sender = true ∨ ownerOf namespaceId = tx.sender)) ∨
        (e = .inactiveOriginPruned namespaceId operator tx.sender ∧
          tx.isActive operator = false)) :
      Move L ownerOf tx s (State.emit (pruneEmptyNamespace L { s with
        origins := Function.update s.origins namespaceId
          (L.addresses.remove (s.origins namespaceId) operator) } namespaceId) e)
  | setMax {cap : Nat} (hfloor : maxOriginsFloor ≤ cap) (hceiling : cap ≤ maxOriginsCeiling) :
      Move L ownerOf tx s (State.emit { s with maxOriginsPerNamespace := cap }
        (.maxOriginsPerNamespaceUpdated s.maxOriginsPerNamespace cap))
  | setPolicy {newPolicy : Address} (hzero : newPolicy ≠ 0) :
      Move L ownerOf tx s (State.emit { s with vettingPolicy := newPolicy }
        (.vettingPolicyUpdated s.vettingPolicy newPolicy))

theorem addOrigin_move {namespaceId : Nat} {operator : Address}
    (h : addOrigin L ownerOf tx s namespaceId operator = .ok s') : Move L ownerOf tx s s' := by
  unfold addOrigin at h
  split at h
  · cases h
  · cases h
  · rename_i hvetted
    split at h
    · cases h
    rename_i howner
    split at h
    · cases h
    rename_i hactive
    split at h
    · cases h
    rename_i hfresh
    split at h
    · cases h
    rename_i hroom
    rcases Except.ok.inj h with rfl
    exact .seated ⟨hvetted, not_not.mp howner, by simpa using hactive, hfresh, not_le.mp hroom⟩

theorem unseat_move {namespaceId : Nat} {operator : Address} {e : Event}
    (h : unseat L s namespaceId operator e = .ok s')
    (hcause : (e = .originRemoved namespaceId operator tx.sender ∧
        (tx.isGovernance tx.sender = true ∨ ownerOf namespaceId = tx.sender)) ∨
      (e = .inactiveOriginPruned namespaceId operator tx.sender ∧
        tx.isActive operator = false)) : Move L ownerOf tx s s' := by
  unfold unseat at h
  split at h
  · cases h
  · rename_i hseated
    rcases Except.ok.inj h with rfl
    exact .unseated (not_not.mp hseated) hcause

/-- Every successful call is one of the moves. -/
theorem exec_move {c : Call} (h : exec L ownerOf tx s c = .ok s') : Move L ownerOf tx s s' := by
  cases c with
  | addOrigin namespaceId operator => exact addOrigin_move h
  | removeOrigin namespaceId operator =>
    simp only [exec, removeOrigin] at h
    split at h
    · cases h
    · rename_i hallowed
      refine unseat_move h (.inl ⟨rfl, ?_⟩)
      by_cases hgovernance : tx.isGovernance tx.sender = true
      · exact .inl hgovernance
      · exact .inr (not_not.mp fun hne => hallowed ⟨by simpa using hgovernance, hne⟩)
  | pruneInactiveOrigin namespaceId operator =>
    simp only [exec, pruneInactiveOrigin] at h
    split at h
    · cases h
    · rename_i hinactive
      exact unseat_move h (.inr ⟨rfl, by simpa using hinactive⟩)
  | setMaxOriginsPerNamespace cap =>
    simp only [exec, setMaxOriginsPerNamespace, bind_eq_ok] at h
    rcases h with ⟨_, -, h⟩
    split at h
    · cases h
    · rename_i hbounds
      rcases pure_eq_ok.mp h with rfl
      rw [not_or, not_lt, not_lt] at hbounds
      exact .setMax hbounds.1 hbounds.2
  | setVettingPolicy newPolicy =>
    simp only [exec, setVettingPolicy, bind_eq_ok] at h
    rcases h with ⟨_, -, h⟩
    split at h
    · cases h
    · rename_i hzero
      split at h
      · cases h
      · rcases pure_eq_ok.mp h with rfl
        exact .setPolicy hzero

end Decdn.OriginAssignment
