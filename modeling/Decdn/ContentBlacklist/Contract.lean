import Decdn.ContentBlacklist.State
import Decdn.Foundations.Guards

/-!
# The ContentBlacklist contract

The external calls of `contracts/src/ContentBlacklist.sol` and one step of the
contract as a whole.  A call that goes on to eject or reinstate an operator
returns the CapacityBond call it makes.

Main definitions:

- Definition `addHash` and Definition `removeHash`: the two choke points of the entries.
- Definition `syncAddr`: the index of the two address lists, derived again.
- Definition `exec`: one external call, and Definition `Step`: one call of a run.
-/

namespace Decdn.ContentBlacklist

open CapacityBond (Bytes)

/-! ## Guards -/

/-- `onlyRole`. -/
def onlyRole (tx : Tx) (s : State) (role : Role) : Except Error Unit :=
  Guard.require (s.roles role tx.sender) (.unauthorizedAccount tx.sender role)

/-- `_enforceComplianceWindowBounds`. -/
def enforceComplianceWindowBounds (value : Nat) : Except Error Unit :=
  Guard.within value complianceWindowFloor complianceWindowCeiling
    (.paramOutOfBounds value complianceWindowFloor complianceWindowCeiling)

/-- Checked 64-bit addition. -/
def checkedAdd : Nat → Nat → Except Error Nat := Guard.add u64Max .arithmeticPanic

/-- `_toCategory`. -/
def toCategory (category : UInt8) : Except Error Category :=
  if category = 0 then .ok .general
  else if category = 1 then .ok .csam
  else if category = 2 then .ok .terrorist
  else .error (.invalidCategory category)

/-- The region of a regional call: neither empty nor the global one. -/
def checkRegion (region : Bytes32) : Except Error Unit :=
  if region = 0 ∨ region = globalRegion then .error .missingRegion else .ok ()

/-- `_requireRegisteredBody`. -/
def requireRegisteredBody (s : State) (region : Bytes32) : Except Error Address :=
  if (s.regionalBodies region).body = 0 then .error (.regionalBodyNotRegistered region)
  else .ok (s.regionalBodies region).body

/-- `_requireActiveBodyFor`: the caller is the body of the region, and not suspended. -/
def requireActiveBodyFor (tx : Tx) (s : State) (region : Bytes32) : Except Error Unit :=
  if (s.regionalBodies region).body ≠ tx.sender then
    .error (.notRegionalBodyFor region tx.sender)
  else if (s.regionalBodies region).suspended tx.timestamp then
    .error (.notRegionalBodyFor region tx.sender)
  else .ok ()

/-! ## Entries -/

/-- Write the entry of one region and hash. -/
def State.setEntry (s : State) (region hash : Bytes32) (e : HashEntry) : State :=
  { s with
    hashEntries := Function.update s.hashEntries region
      (Function.update (s.hashEntries region) hash e) }

/-- Write the reason of one region and hash. -/
def State.setReason (s : State) (region hash : Bytes32) (reason : Bytes) : State :=
  { s with
    hashReason := Function.update s.hashReason region
      (Function.update (s.hashReason region) hash reason) }

/-- The entry an add leaves: a live one keeps its times, any other is stamped anew. -/
def addedEntry (tx : Tx) (s : State) (region hash : Bytes32) (emergency : Bool)
    (category : Category) : Except Error HashEntry :=
  let e := s.hashEntries region hash
  if isLive s tx.timestamp region hash then
    if emergency = false then .ok { e with emergency := false }
    else if e.category < category.toUInt8 then .ok { e with category := category.toUInt8 }
    else .ok e
  else do
    let nowTs := tx.timestamp % 2 ^ 64
    let effectiveAt ← checkedAdd nowTs
      (if emergency then s.emergencyComplianceWindow else s.complianceWindow)
    return ⟨nowTs, effectiveAt, emergency, category.toUInt8⟩

/-- `_addHash`. -/
def addHash (E : SetOps Bytes32) (tx : Tx) (s : State) (region hash : Bytes32) (reason : Bytes)
    (emergency : Bool) (category : Category) : Except Error State :=
  if hash = 0 then .error .zeroHash
  else do
    let e ← addedEntry tx s region hash emergency category
    let s := (s.setEntry region hash e).setReason region hash reason
    let s := { s with
      regionHashes := Function.update s.regionHashes region (E.add (s.regionHashes region) hash) }
    return s.emit (.hashBlacklisted region hash reason)

/-- `_removeHashRegional`. -/
def removeHash (E : SetOps Bytes32) (s : State) (region hash : Bytes32) : Except Error State :=
  if (s.hashEntries region hash).addedAt = 0 then .error (.entryNotBlacklisted region hash)
  else
    let s := (s.setEntry region hash {}).setReason region hash []
    let s := { s with
      regionHashes := Function.update s.regionHashes region
        (E.remove (s.regionHashes region) hash) }
    .ok (s.emit (.hashRemoved region hash))

/-- `addHashGlobal`. -/
def addHashGlobal (E : SetOps Bytes32) (tx : Tx) (s : State) (hash : Bytes32) (reason : Bytes) :
    Except Error State := do
  onlyRole tx s .governance
  addHash E tx s globalRegion hash reason false .general

/-- `addHashRegional`. -/
def addHashRegional (E : SetOps Bytes32) (tx : Tx) (s : State) (region hash : Bytes32)
    (reason : Bytes) : Except Error State := do
  onlyRole tx s .regionalBody
  checkRegion region
  requireActiveBodyFor tx s region
  addHash E tx s region hash reason false .general

/-- `removeHashGlobal`. -/
def removeHashGlobal (E : SetOps Bytes32) (tx : Tx) (s : State) (hash : Bytes32) :
    Except Error State := do
  onlyRole tx s .governance
  removeHash E s globalRegion hash

/-- `removeHashRegional`. -/
def removeHashRegional (E : SetOps Bytes32) (tx : Tx) (s : State) (region hash : Bytes32) :
    Except Error State := do
  onlyRole tx s .regionalBody
  checkRegion region
  requireActiveBodyFor tx s region
  removeHash E s region hash

/-- `emergencyAdd`: never over a standing governance entry. -/
def emergencyAdd (E : SetOps Bytes32) (tx : Tx) (s : State) (hash : Bytes32) (category : UInt8)
    (reason : Bytes) : Except Error State := do
  onlyRole tx s .emergencyMultisig
  let existing := s.hashEntries globalRegion hash
  if existing.addedAt ≠ 0 ∧ existing.emergency = false then
    .error (.emergencyCannotOverrideGovernance hash)
  else
    let cat ← toCategory category
    addHash E tx s globalRegion hash reason true cat

/-- `expireEmergencyEntry`: anyone removes an emergency entry past its deadline. -/
def expireEmergencyEntry (E : SetOps Bytes32) (tx : Tx) (s : State) (region hash : Bytes32) :
    Except Error State :=
  let e := s.hashEntries region hash
  if e.addedAt = 0 then .error (.entryNotBlacklisted region hash)
  else if emergencyExpired tx.timestamp e.emergency e.addedAt e.category = false then
    .error .notExpired
  else removeHash E s region hash

/-! ## Addresses -/

/-- `_syncAddr`: derive the membership of `a` again from both lists. -/
def syncAddr (A : SetOps Address) (tx : Tx) (s : State) (a : Address) : State :=
  if isOriginBlacklisted s tx.timestamp a || s.isOperatorBlacklisted a then
    { s with blacklistedAddrs := A.add s.blacklistedAddrs a }
  else { s with blacklistedAddrs := A.remove s.blacklistedAddrs a }

/-- `emergencyAddOrigin`. -/
def emergencyAddOrigin (A : SetOps Address) (tx : Tx) (s : State) (operator : Address)
    (category : UInt8) (reason : Bytes) : Except Error State := do
  onlyRole tx s .emergencyMultisig
  if operator = 0 then .error .zeroAddress
  else if s.originBlacklisted operator = true ∧ (s.emergencyOrigins operator).addedAt = 0 then
    .error (.emergencyCannotOverrideGovernanceOrigin operator)
  else
    let cat ← toCategory category
    let s := { s with
      originBlacklisted := Function.update s.originBlacklisted operator true
      emergencyOrigins := Function.update s.emergencyOrigins operator
        ⟨tx.timestamp % 2 ^ 64, cat.toUInt8⟩ }
    return ((syncAddr A tx s operator).emit (.originBlacklistUpdated operator true)).emit
      (.emergencyOriginAdded operator cat.toUInt8 reason)

/-- `expireEmergencyOrigin`. -/
def expireEmergencyOrigin (A : SetOps Address) (tx : Tx) (s : State) (origin : Address) :
    Except Error State :=
  let eo := s.emergencyOrigins origin
  if emergencyExpired tx.timestamp (eo.addedAt != 0) eo.addedAt eo.category = false then
    .error .notExpired
  else
    let s := { s with
      emergencyOrigins := Function.update s.emergencyOrigins origin {}
      originBlacklisted := Function.update s.originBlacklisted origin false }
    .ok ((syncAddr A tx s origin).emit (.originBlacklistUpdated origin false))

/-- `setOriginBlacklist`: governance entries never expire. -/
def setOriginBlacklist (A : SetOps Address) (tx : Tx) (s : State) (origin : Address)
    (blacklisted : Bool) : Except Error State := do
  onlyRole tx s .governance
  if origin = 0 then .error .zeroAddress
  else
    let s := { s with
      originBlacklisted := Function.update s.originBlacklisted origin blacklisted
      emergencyOrigins := Function.update s.emergencyOrigins origin {} }
    return (syncAddr A tx s origin).emit (.originBlacklistUpdated origin blacklisted)

/-- `addOperator`: blacklist an operator and eject it from CapacityBond. -/
def addOperator (A : SetOps Address) (tx : Tx) (s : State) (operator : Address) :
    Except Error (State × Option CapacityBond.Call) := do
  onlyRole tx s .governance
  if operator = 0 then .error .zeroAddress
  else if s.isOperatorBlacklisted operator then return (s, none)
  else
    let s := { s with
      isOperatorBlacklisted := Function.update s.isOperatorBlacklisted operator true }
    return ((syncAddr A tx s operator).emit (.operatorBlacklisted operator),
      some (.ejectNode operator))

/-- `removeOperator`: the reinstatement is called whether or not the flag was set. -/
def removeOperator (A : SetOps Address) (tx : Tx) (s : State) (operator : Address) :
    Except Error (State × Option CapacityBond.Call) := do
  onlyRole tx s .governance
  if operator = 0 then .error .zeroAddress
  else if s.isOperatorBlacklisted operator then
    let s := { s with
      isOperatorBlacklisted := Function.update s.isOperatorBlacklisted operator false }
    return ((syncAddr A tx s operator).emit (.operatorBlacklistCleared operator),
      some (.unEjectNode operator))
  else return (s, some (.unEjectNode operator))

/-! ## Governance -/

/-- `setComplianceWindow`. -/
def setComplianceWindow (tx : Tx) (s : State) (newWindow : Nat) : Except Error State := do
  onlyRole tx s .governance
  enforceComplianceWindowBounds newWindow
  return { s with complianceWindow := newWindow }.emit
    (.complianceWindowUpdated s.complianceWindow newWindow)

/-- `setEmergencyComplianceWindow`. -/
def setEmergencyComplianceWindow (tx : Tx) (s : State) (newWindow : Nat) : Except Error State := do
  onlyRole tx s .governance
  enforceComplianceWindowBounds newWindow
  return { s with emergencyComplianceWindow := newWindow }.emit
    (.emergencyComplianceWindowUpdated s.emergencyComplianceWindow newWindow)

/-! ## Regional bodies -/

/-- `_tryGetOwners`: no signers when the account cannot be read or reports too many. -/
def tryGetOwners (tx : Tx) (account : Address) : List Address :=
  match tx.getOwners account with
  | none => []
  | some owners => if maxProbedSigners < owners.length then [] else owners

/-- `_probeSignerDisjointness`: whether disjointness could be verified; an overlap reverts. -/
def probeSignerDisjointness (tx : Tx) (s : State) (body emergencyMultisig : Address) :
    Except Error Bool :=
  let bodyOwners := tryGetOwners tx body
  if bodyOwners.length = 0 then .ok false
  else
    match bodyOwners.find? fun o => s.roles .emergencyMultisig o with
    | some o => .error (.signerOverlap o)
    | none =>
      let msigOwners := tryGetOwners tx emergencyMultisig
      if msigOwners.length = 0 then .ok false
      else
        match bodyOwners.find? fun o => decide (o ∈ msigOwners) with
        | some o => .error (.signerOverlap o)
        | none => .ok true

/-- Write the body record of one region. -/
def State.setBody (s : State) (region : Bytes32) (rb : RegionalBody) : State :=
  { s with regionalBodies := Function.update s.regionalBodies region rb }

/-- Write one role of one account. -/
def State.setRole (s : State) (role : Role) (account : Address) (granted : Bool) : State :=
  { s with
    roles := Function.update s.roles role (Function.update (s.roles role) account granted) }

/-- `registerRegionalBody`: one body a region, one region a body. -/
def registerRegionalBody (tx : Tx) (s : State) (region : Bytes32)
    (body emergencyMultisig : Address) : Except Error State := do
  onlyRole tx s .governance
  checkRegion region
  if body = 0 then .error .zeroAddress
  else if s.roles .emergencyMultisig emergencyMultisig = false then
    .error (.notEmergencyMultisig emergencyMultisig)
  else if body = emergencyMultisig then .error (.signerOverlap body)
  else
    let rb := s.regionalBodies region
    if rb.body ≠ 0 then .error (.regionalBodyAlreadyRegistered region rb.body)
    else if s.regionOfBody body ≠ 0 then
      .error (.bodyAlreadyServingRegion body (s.regionOfBody body))
    else
      let signersVerified ← probeSignerDisjointness tx s body emergencyMultisig
      let s := s.setBody region { rb with body := body }
      let s := { s with regionOfBody := Function.update s.regionOfBody body region }
      return (s.setRole .regionalBody body true).emit
        (.regionalBodyRegistered region body signersVerified)

/-- `deregisterRegionalBody`. -/
def deregisterRegionalBody (tx : Tx) (s : State) (region : Bytes32) : Except Error State := do
  onlyRole tx s .governance
  let body ← requireRegisteredBody s region
  let s := s.setBody region {}
  let s := { s with regionOfBody := Function.update s.regionOfBody body 0 }
  return (s.setRole .regionalBody body false).emit (.regionalBodyDeregistered region body)

/-- `suspendRegionalBody`. -/
def suspendRegionalBody (tx : Tx) (s : State) (region : Bytes32) : Except Error State := do
  onlyRole tx s .emergencyMultisig
  let body ← requireRegisteredBody s region
  if (s.regionalBodies region).suspended tx.timestamp then
    .error (.regionalBodyAlreadySuspended region)
  else
    return (s.setBody region ⟨body, tx.timestamp % 2 ^ 64, false⟩).emit
      (.regionalBodySuspended region body)

/-- `ratifyRegionalBodySuspension`: within the window, and again at any time. -/
def ratifyRegionalBodySuspension (tx : Tx) (s : State) (region : Bytes32) : Except Error State := do
  onlyRole tx s .governance
  let body ← requireRegisteredBody s region
  let rb := s.regionalBodies region
  if rb.suspendedAt = 0 then .error (.regionalBodySuspensionNotActive region)
  else
    let ratified := (s.setBody region { rb with suspensionRatified := true }).emit
      (.regionalBodySuspensionRatified region body)
    if rb.suspensionRatified then return ratified
    else
      let closesAt ← checkedAdd rb.suspendedAt bodySuspensionRatificationWindow
      if closesAt < tx.timestamp then .error (.suspensionWindowClosed closesAt)
      else return ratified

/-- `unsuspendRegionalBody`. -/
def unsuspendRegionalBody (tx : Tx) (s : State) (region : Bytes32) : Except Error State := do
  onlyRole tx s .governance
  let body ← requireRegisteredBody s region
  if (s.regionalBodies region).suspendedAt = 0 then
    .error (.regionalBodySuspensionNotActive region)
  else
    return (s.setBody region ⟨body, 0, false⟩).emit (.regionalBodyUnsuspended region body)

/-! ## AccessControl -/

/-- `grantRole` and `revokeRole`: by an account that holds the role's admin role. -/
def assignRole (tx : Tx) (s : State) (role : Role) (account : Address) (granted : Bool) :
    Except Error State := do
  onlyRole tx s role.admin
  return s.setRole role account granted

/-- `renounceRole`. -/
def renounceRole (tx : Tx) (s : State) (role : Role) (callerConfirmation : Address) :
    Except Error State :=
  if callerConfirmation ≠ tx.sender then .error .badConfirmation
  else .ok (s.setRole role callerConfirmation false)

/-! ## Calls and runs -/

/-- The constructor's state. -/
def deploy (capacityBond admin : Address) : Except Error State :=
  if capacityBond = 0 ∨ admin = 0 then .error .zeroAddress
  else .ok {
    complianceWindow := complianceWindowDefault
    emergencyComplianceWindow := emergencyComplianceWindowDefault
    roles := fun role account =>
      decide (account = admin ∧ (role = .defaultAdmin ∨ role = .governance)) }

/-- The external state-changing functions. -/
inductive Call where
  | addHashGlobal (hash : Bytes32) (reason : Bytes)
  | addHashRegional (region hash : Bytes32) (reason : Bytes)
  | removeHashGlobal (hash : Bytes32)
  | removeHashRegional (region hash : Bytes32)
  | emergencyAdd (hash : Bytes32) (category : UInt8) (reason : Bytes)
  | emergencyAddOrigin (operator : Address) (category : UInt8) (reason : Bytes)
  | expireEmergencyEntry (region hash : Bytes32)
  | expireEmergencyOrigin (origin : Address)
  | addOperator (operator : Address)
  | removeOperator (operator : Address)
  | setOriginBlacklist (origin : Address) (blacklisted : Bool)
  | setComplianceWindow (newWindow : Nat)
  | setEmergencyComplianceWindow (newWindow : Nat)
  | registerRegionalBody (region : Bytes32) (body emergencyMultisig : Address)
  | deregisterRegionalBody (region : Bytes32)
  | suspendRegionalBody (region : Bytes32)
  | ratifyRegionalBodySuspension (region : Bytes32)
  | unsuspendRegionalBody (region : Bytes32)
  | grantRole (role : Role) (account : Address)
  | revokeRole (role : Role) (account : Address)
  | renounceRole (role : Role) (callerConfirmation : Address)

/-- The implementations of the two kinds of enumerable sets. -/
structure Sets where
  hashes : SetOps Bytes32
  addrs : SetOps Address

/-- A call that makes no further call. -/
def quiet (r : Except Error State) : Except Error (State × Option CapacityBond.Call) := do
  let s ← r
  return (s, none)

/-- Execute one external call, and return the CapacityBond call it makes. -/
def exec (L : Sets) (tx : Tx) (s : State) : Call → Except Error (State × Option CapacityBond.Call)
  | .addHashGlobal hash reason => quiet (addHashGlobal L.hashes tx s hash reason)
  | .addHashRegional region hash reason => quiet (addHashRegional L.hashes tx s region hash reason)
  | .removeHashGlobal hash => quiet (removeHashGlobal L.hashes tx s hash)
  | .removeHashRegional region hash => quiet (removeHashRegional L.hashes tx s region hash)
  | .emergencyAdd hash category reason => quiet (emergencyAdd L.hashes tx s hash category reason)
  | .emergencyAddOrigin operator category reason =>
    quiet (emergencyAddOrigin L.addrs tx s operator category reason)
  | .expireEmergencyEntry region hash => quiet (expireEmergencyEntry L.hashes tx s region hash)
  | .expireEmergencyOrigin origin => quiet (expireEmergencyOrigin L.addrs tx s origin)
  | .addOperator operator => addOperator L.addrs tx s operator
  | .removeOperator operator => removeOperator L.addrs tx s operator
  | .setOriginBlacklist origin blacklisted =>
    quiet (setOriginBlacklist L.addrs tx s origin blacklisted)
  | .setComplianceWindow newWindow => quiet (setComplianceWindow tx s newWindow)
  | .setEmergencyComplianceWindow newWindow => quiet (setEmergencyComplianceWindow tx s newWindow)
  | .registerRegionalBody region body emergencyMultisig =>
    quiet (registerRegionalBody tx s region body emergencyMultisig)
  | .deregisterRegionalBody region => quiet (deregisterRegionalBody tx s region)
  | .suspendRegionalBody region => quiet (suspendRegionalBody tx s region)
  | .ratifyRegionalBodySuspension region => quiet (ratifyRegionalBodySuspension tx s region)
  | .unsuspendRegionalBody region => quiet (unsuspendRegionalBody tx s region)
  | .grantRole role account => quiet (assignRole tx s role account true)
  | .revokeRole role account => quiet (assignRole tx s role account false)
  | .renounceRole role callerConfirmation => quiet (renounceRole tx s role callerConfirmation)

/-- The contract together with the chain's clock. -/
structure World where
  now : Nat
  contract : State

/-- One event of a run: a call that returns, or the passing of time. -/
inductive Step (L : Sets) : World → World → Prop where
  | call {w : World} {s : State} {out : Option CapacityBond.Call} (tx : Tx) (c : Call)
      (hnow : w.now ≤ tx.timestamp) (hexec : exec L tx w.contract c = .ok (s, out)) :
      Step L w ⟨tx.timestamp, s⟩
  | wait {w : World} (later : Nat) (hnow : w.now ≤ later) : Step L w ⟨later, w.contract⟩

/-- The worlds a deployment can reach. -/
inductive Reachable (L : Sets) : World → Prop where
  | deployed {s : State} (now : Nat) (capacityBond admin : Address)
      (h : deploy capacityBond admin = .ok s) : Reachable L ⟨now, s⟩
  | step {w w' : World} (h : Reachable L w) (hstep : Step L w w') : Reachable L w'

/-! ## Runs by evaluation -/

/-- One call as an event of a run: `none` if it is out of order or reverts. -/
def World.apply (L : Sets) (w : World) (e : Tx × Call) : Option World :=
  if w.now ≤ e.1.timestamp then
    match exec L e.1 w.contract e.2 with
    | .ok (s, _) => some ⟨e.1.timestamp, s⟩
    | .error _ => none
  else none

theorem World.apply_step {L : Sets} {w w' : World} {e : Tx × Call}
    (h : w.apply L e = some w') : Step L w w' := by
  unfold World.apply at h
  split at h
  · rename_i hnow
    split at h
    · rename_i s out hexec
      rcases Option.some.inj h with rfl
      exact .call e.1 e.2 hnow hexec
    · cases h
  · cases h

/-- Calls that evaluate are a run. -/
theorem Reachable.of_runEvents {L : Sets} {w w' : World} {calls : List (Tx × Call)}
    (hw : Reachable L w) (h : runEvents (World.apply L) (fun _ _ => true) w calls = some w') :
    Reachable L w' :=
  runEvents_invariant (fun _ _ _ hw hstep => hw.step (World.apply_step hstep)) hw h

end Decdn.ContentBlacklist
