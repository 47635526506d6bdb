import Decdn.CapacityBond.State

/-!
# The node registry of CapacityBond

Binding node ids to addresses, joining and leaving the active set, and the
operator's self-attested region.  The active set is an array with a
one-plus-index map, edited by swap and pop.

Main definitions:

- Definition `registerNode` and Definition `deregisterNode`: entry and exit.
- Definition `bindNodeId` and Definition `reclaimNodeId`: rotation of a node id and
  its recovery by the holder of the ed25519 key.
- Definition `ejectNodeEffects`: what an ejection does to the registry.
-/

namespace Decdn.CapacityBond

/-! ## The active set -/

/-- `_addToRegisteredSet`. -/
def addToRegisteredSet (s : State) (operator : Address) : State :=
  if s.registeredIndex operator ≠ 0 then s
  else
    { s with
      registeredAddrs := s.registeredAddrs ++ [operator]
      registeredIndex :=
        Function.update s.registeredIndex operator (s.registeredAddrs.length + 1) }

/-- `_removeFromRegisteredSet`: the last entry takes the vacated slot. -/
def removeFromRegisteredSet (s : State) (operator : Address) : Except Error State :=
  let onePlusIdx := s.registeredIndex operator
  if onePlusIdx = 0 then .ok s
  else do
    let idx := onePlusIdx - 1
    let lastIdx ← checkedSub s.registeredAddrs.length 1
    if idx = lastIdx then
      return { s with
        registeredAddrs := s.registeredAddrs.dropLast
        registeredIndex := Function.update s.registeredIndex operator 0 }
    else
      match s.registeredAddrs[lastIdx]? with
      | none => .error .arithmeticPanic
      | some swapped =>
        if idx < s.registeredAddrs.length then
          return { s with
            registeredAddrs := (s.registeredAddrs.set idx swapped).dropLast
            registeredIndex :=
              Function.update (Function.update s.registeredIndex swapped (idx + 1)) operator 0 }
        else .error .arithmeticPanic

/-- `registrationNonce[nodeId] += 1`. -/
def bumpRegistrationNonce (s : State) (nodeId : Bytes32) : Except Error State := do
  let nonce ← checkedAdd u64Max (s.registrationNonce nodeId) 1
  return { s with registrationNonce := Function.update s.registrationNonce nodeId nonce }

/-- Mark an operator's node record inactive. -/
def State.deactivate (s : State) (operator : Address) : State :=
  { s with
    nodes := Function.update s.nodes operator { s.nodes operator with active := false } }

/-- `_ejectNodeEffects`: take an active node out of the registry and return its
id, or the zero id for a node that is not active. -/
def ejectNodeEffects (s : State) (operator : Address) : Except Error (State × Bytes32) :=
  let info := s.nodes operator
  if info.active = false then .ok (s, 0)
  else do
    let s ← bumpRegistrationNonce (s.deactivate operator) info.nodeId
    let s ← removeFromRegisteredSet s operator
    return (s, info.nodeId)

/-! ## Region self-attestation -/

/-- `_setRegion`: snapshot the old region on a change, and stamp every call. -/
def setRegion (H : Wiring) (tx : Tx) (s : State) (newRegion : Bytes) : State :=
  let oldRegion := (s.nodes tx.sender).regionHint
  let s :=
    if H.keccak256 oldRegion ≠ H.keccak256 newRegion then
      { s with
        regionPrev := Function.update s.regionPrev tx.sender oldRegion
        nodes := Function.update s.nodes tx.sender
          { s.nodes tx.sender with regionHint := newRegion } }
    else s
  { s with
    regionLastChanged :=
      Function.update s.regionLastChanged tx.sender (tx.timestamp % 2 ^ 64) }

/-- `updateRegion`: an active node changes its region once its current one has
ripened. -/
def updateRegion (H : Wiring) (tx : Tx) (s : State) (newRegion : Bytes) :
    Except Error State := do
  whenNotPaused s
  if maxRegionHintBytes < newRegion.length then
    .error (.regionHintTooLong newRegion.length maxRegionHintBytes)
  else
    let info := s.nodes tx.sender
    if info.active = false then .error .nodeNotActive
    else
      let readyAt ← checkedAdd u64Max (s.regionLastChanged tx.sender)
        (s.params.regionStabilityWindow % 2 ^ 64)
      if tx.timestamp < readyAt then .error (.regionCooldownActive readyAt)
      else
        return (setRegion H tx s newRegion).emit
          (.regionUpdated info.nodeId info.regionHint newRegion)

/-! ## Signatures -/

/-- `_verifyBindingSignature`. -/
def verifyBindingSignature (H : Wiring) (tx : Tx) (s : State) (nodeId : Bytes32) (sig : Bytes) :
    Except Error Nat :=
  let nonce := s.bindingNonce tx.sender
  if tx.isValidSignatureNow tx.sender (H.bindNodeDigest nodeId nonce) sig then .ok nonce
  else .error .invalidBindingSignature

/-- `_verifyRegistrationSignature`. -/
def verifyRegistrationSignature (H : Wiring) (tx : Tx) (s : State) (nodeId termsHash : Bytes32)
    (sig : Bytes) : Except Error Nat :=
  let nonce := s.bindingNonce tx.sender
  if tx.isValidSignatureNow tx.sender (H.registerNodeDigest nodeId nonce termsHash) sig then
    .ok nonce
  else .error .invalidBindingSignature

/-- `_verifyEd25519OwnershipSignature`. -/
def verifyEd25519OwnershipSignature (H : Wiring) (tx : Tx) (s : State) (nodeId : Bytes32)
    (sig : Bytes) : Except Error Nat :=
  let nonce := s.registrationNonce nodeId
  if H.verify nodeId (H.ownershipMessage nodeId tx.sender nonce) sig then .ok nonce
  else .error .invalidEd25519Signature

/-! ## Registration -/

/-- `_checkRegistrationPreconditions`. -/
def checkRegistrationPreconditions (H : Wiring) (tx : Tx) (s : State) (nodeId : Bytes32)
    (multiaddrsLength regionHintLength : Nat) : Except Error Unit :=
  let bond := s.activeBond tx.sender
  if nodeId = 0 then .error .zeroNodeId
  else if s.params.maxMultiaddrSize < multiaddrsLength then
    .error (.multiaddrsTooLarge multiaddrsLength s.params.maxMultiaddrSize)
  else if maxRegionHintBytes < regionHintLength then
    .error (.regionHintTooLong regionHintLength maxRegionHintBytes)
  else if bond < s.params.minBond then .error (.bondBelowMinimum bond s.params.minBond)
  else do
    let required ← s.bondRequired H (s.declaredMbps tx.sender)
    if bond < required then .error (.bondBelowCurve bond required)
    else if s.ejected tx.sender then .error .operatorEjected
    else if (s.nodes tx.sender).active then .error .nodeAlreadyRegistered
    else .ok ()

/-- `_checkBindingOneToOne`. -/
def checkBindingOneToOne (tx : Tx) (s : State) (nodeId : Bytes32) : Except Error Unit :=
  let nodeIdOwner := s.nodeIdToAddress nodeId
  let currentBinding := s.addressToNodeId tx.sender
  if nodeIdOwner ≠ 0 ∧ nodeIdOwner ≠ tx.sender then .error (.nodeIdAlreadyBound nodeIdOwner)
  else if currentBinding ≠ 0 ∧ currentBinding ≠ nodeId then
    .error (.addressAlreadyBound currentBinding)
  else .ok ()

/-- The two binding maps and the binding nonce after the sender takes `nodeId`. -/
def State.bind (s : State) (sender : Address) (nodeId : Bytes32) (nonce : Nat) : State :=
  { s with
    nodeIdToAddress := Function.update s.nodeIdToAddress nodeId sender
    addressToNodeId := Function.update s.addressToNodeId sender nodeId
    bindingNonce := Function.update s.bindingNonce sender nonce }

/-- `_writeNodeInfo`. -/
def writeNodeInfo (H : Wiring) (tx : Tx) (s : State) (nodeId : Bytes32)
    (multiaddrs regionHint : Bytes) : State :=
  let info := { s.nodes tx.sender with
    nodeId := nodeId
    ethAddress := tx.sender
    active := true
    lastMultiaddrUpdate := tx.timestamp % 2 ^ 64
    multiaddrs := multiaddrs }
  setRegion H tx { s with nodes := Function.update s.nodes tx.sender info } regionHint

/-- `registerNode`: bind the node id, record the live `minBond` as the entry
floor, and join the active set. -/
def registerNode (H : Wiring) (tx : Tx) (s : State) (nodeId : Bytes32)
    (multiaddrs regionHint : Bytes) (termsHash : Bytes32)
    (bindingSignature ed25519Signature : Bytes) : Except Error State := do
  whenNotPaused s
  if termsHash ≠ s.params.currentTermsHash then
    .error (.termsHashMismatch termsHash s.params.currentTermsHash)
  else
    checkRegistrationPreconditions H tx s nodeId multiaddrs.length regionHint.length
    checkBindingOneToOne tx s nodeId
    let usedBindingNonce ← verifyRegistrationSignature H tx s nodeId termsHash bindingSignature
    let usedRegistrationNonce ← verifyEd25519OwnershipSignature H tx s nodeId ed25519Signature
    let nextBindingNonce ← checkedAdd u64Max usedBindingNonce 1
    let s := s.bind tx.sender nodeId nextBindingNonce
    let s := { s with
      bondFloorAtActivation :=
        Function.update s.bondFloorAtActivation tx.sender s.params.minBond }
    let s := writeNodeInfo H tx s nodeId multiaddrs regionHint
    let s := addToRegisteredSet s tx.sender
    return ((s.emit (.nodeRegistered nodeId tx.sender multiaddrs regionHint usedBindingNonce
      usedRegistrationNonce)).emit (.nodeIdBound tx.sender nodeId usedBindingNonce)).emit
      (.termsAccepted nodeId termsHash tx.timestamp)

/-- `deregisterNode`: leave the active set and release the declared tier. -/
def deregisterNode (H : Wiring) (tx : Tx) (s : State) : Except Error State :=
  let info := s.nodes tx.sender
  if info.active = false then .error .nodeNotActive
  else do
    let s ← bumpRegistrationNonce (s.deactivate tx.sender) info.nodeId
    let s ← removeFromRegisteredSet s tx.sender
    let oldMbps := s.declaredMbps tx.sender
    if oldMbps = 0 then return s.emit (.nodeDeregistered info.nodeId)
    else
      let s ← record H tx { s with declaredMbps := Function.update s.declaredMbps tx.sender 0 }
        tx.sender 0
      return (s.emit (.mbpsDeclared tx.sender oldMbps 0)).emit (.nodeDeregistered info.nodeId)

/-- `bindNodeId`: rotate the caller's node id without touching its registration. -/
def bindNodeId (H : Wiring) (tx : Tx) (s : State) (nodeId : Bytes32)
    (bindingSignature ed25519Signature : Bytes) : Except Error State := do
  whenNotPaused s
  let nodeIdOwner := s.nodeIdToAddress nodeId
  if nodeId = 0 then .error .zeroNodeId
  else if nodeIdOwner ≠ 0 ∧ nodeIdOwner ≠ tx.sender then .error (.nodeIdAlreadyBound nodeIdOwner)
  else
    let usedBindingNonce ← verifyBindingSignature H tx s nodeId bindingSignature
    let _ ← verifyEd25519OwnershipSignature H tx s nodeId ed25519Signature
    let oldNodeId := s.addressToNodeId tx.sender
    let s ←
      if oldNodeId ≠ 0 ∧ oldNodeId ≠ nodeId then
        bumpRegistrationNonce
          { s with nodeIdToAddress := Function.update s.nodeIdToAddress oldNodeId 0 } oldNodeId
      else pure s
    let nextBindingNonce ← checkedAdd u64Max usedBindingNonce 1
    let s := s.bind tx.sender nodeId nextBindingNonce
    let s :=
      if (s.nodes tx.sender).active then
        { s with
          nodes := Function.update s.nodes tx.sender { s.nodes tx.sender with nodeId := nodeId } }
      else s
    return s.emit (.nodeIdBound tx.sender nodeId usedBindingNonce)

/-- `reclaimNodeId`: the holder of the ed25519 key takes the node id away from
whoever holds it. -/
def reclaimNodeId (H : Wiring) (tx : Tx) (s : State) (nodeId : Bytes32)
    (ed25519Signature : Bytes) : Except Error State := do
  whenNotPaused s
  let currentHolder := s.nodeIdToAddress nodeId
  if nodeId = 0 then .error .zeroNodeId
  else if currentHolder = 0 then .error (.nodeIdNotBound nodeId)
  else
    let _ ← verifyEd25519OwnershipSignature H tx s nodeId ed25519Signature
    let info := s.nodes currentHolder
    let s ←
      if info.nodeId = nodeId then do
        let s ←
          if info.active then do
            let s ← removeFromRegisteredSet (s.deactivate currentHolder) currentHolder
            pure (s.emit (.nodeDeregistered nodeId))
          else pure s
        pure { s with
          nodes := Function.update s.nodes currentHolder
            { s.nodes currentHolder with nodeId := 0 } }
      else pure s
    let s := { s with
      nodeIdToAddress := Function.update s.nodeIdToAddress nodeId 0
      addressToNodeId := Function.update s.addressToNodeId currentHolder 0 }
    let s ← bumpRegistrationNonce s nodeId
    return s.emit (.nodeIdReclaimed nodeId currentHolder)

/-- `updateMultiaddrs`. -/
def updateMultiaddrs (tx : Tx) (s : State) (multiaddrs : Bytes) : Except Error State := do
  whenNotPaused s
  let info := s.nodes tx.sender
  if info.active = false then .error .nodeNotActive
  else if s.params.maxMultiaddrSize < multiaddrs.length then
    .error (.multiaddrsTooLarge multiaddrs.length s.params.maxMultiaddrSize)
  else
    let readyAt ← checkedAdd u256Max info.lastMultiaddrUpdate s.params.multiaddrUpdateCooldown
    if tx.timestamp < readyAt then .error (.multiaddrCooldownActive readyAt)
    else
      return { s with
        nodes := Function.update s.nodes tx.sender { info with
          multiaddrs := multiaddrs, lastMultiaddrUpdate := tx.timestamp % 2 ^ 64 } }.emit
        (.nodeMultiaddrUpdated info.nodeId multiaddrs)

/-- `ejectNode`: latch the blacklist ejection and eject an operator that is not
ejected yet. -/
def ejectNode (tx : Tx) (s : State) (operator : Address) : Except Error State := do
  onlyRole tx .blacklist
  if operator = 0 then .error .zeroAddress
  else
    let s := { s with blacklistEjected := Function.update s.blacklistEjected operator true }
    if s.ejected operator then return s
    else
      let s := { s with ejected := Function.update s.ejected operator true }.emit
        (.ejectedByBlacklist operator)
      let (s, nodeId) ← ejectNodeEffects s operator
      if nodeId = 0 then return s
      else return s.emit (.nodeAutoEjected nodeId (s.activeBond operator))

/-- `unEjectNode`: release the blacklist latch, and nothing else. -/
def unEjectNode (tx : Tx) (s : State) (operator : Address) : Except Error State := do
  onlyRole tx .blacklist
  if operator = 0 then .error .zeroAddress
  else if s.blacklistEjected operator then
    return { s with
      blacklistEjected := Function.update s.blacklistEjected operator false }.emit
      (.blacklistEjectionCleared operator)
  else return s

end Decdn.CapacityBond
