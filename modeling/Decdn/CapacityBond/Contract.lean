import Decdn.CapacityBond.Slashing
import Decdn.Foundations.Runs

/-!
# The CapacityBond contract

The bonding calls, the governance setters and the pause of
`contracts/src/CapacityBond.sol`, and one step of the contract as a whole.

Main definitions:

- Definition `bond`, Definition `requestUnbond` and Definition `unbond`.
- Definition `declareMbps` and Definition `isActive`.
- Definition `exec`: one external call, and Definition `Step`: one call of a run.
-/

namespace Decdn.CapacityBond

/-! ## Bonding -/

/-- The bond crosses `minBond` from below. -/
def Crosses (s : State) (oldBalance newBalance : Nat) : Prop :=
  oldBalance < s.params.minBond ∧ s.params.minBond ≤ newBalance

instance (s : State) (oldBalance newBalance : Nat) : Decidable (Crosses s oldBalance newBalance) :=
  inferInstanceAs (Decidable (_ ∧ _))

/-- The entry floor and the tenure stamp, written when a bond crosses `minBond`. -/
def grandfather (tx : Tx) (s : State) (oldBalance newBalance : Nat) : State :=
  if Crosses s oldBalance newBalance then
    { s with
      bondFloorAtActivation :=
        Function.update s.bondFloorAtActivation tx.sender s.params.minBond
      firstBondedAt :=
        if s.firstBondedAt tx.sender = 0 then
          Function.update s.firstBondedAt tx.sender (tx.timestamp % 2 ^ 64)
        else s.firstBondedAt }
  else s

/-- The sender is slash-ejected, not blacklisted, and its bond reaches `minBond`. -/
def Reinstates (tx : Tx) (s : State) (newBalance : Nat) : Prop :=
  s.ejected tx.sender = true ∧ s.blacklistEjected tx.sender = false ∧
    s.params.minBond ≤ newBalance

instance (tx : Tx) (s : State) (newBalance : Nat) : Decidable (Reinstates tx s newBalance) :=
  inferInstanceAs (Decidable (_ ∧ _ ∧ _))

/-- Reinstatement of a slash-ejected operator. -/
def reinstate (tx : Tx) (s : State) (newBalance : Nat) : State :=
  if Reinstates tx s newBalance then
    { s with ejected := Function.update s.ejected tx.sender false }.emit (.reinstated tx.sender)
  else s

/-- `bond`. -/
def bond (tx : Tx) (s : State) (amount : Nat) : Except Error State := do
  whenNotPaused s
  if amount = 0 then .error .zeroAmount
  else if tx.transferFrom = false then .error .tokenTransferFailed
  else
    let oldBalance := s.activeBond tx.sender
    let newBalance ← checkedAdd u256Max oldBalance amount
    let s := { s with
      tokenBalance := s.tokenBalance + amount
      activeBond := Function.update s.activeBond tx.sender newBalance }
    return (reinstate tx (grandfather tx s oldBalance newBalance) newBalance).emit
      (.bonded tx.sender amount newBalance)

/-- `requestUnbond`: what stays active must still cover the declared tier. -/
def requestUnbond (H : Wiring) (tx : Tx) (s : State) (amount : Nat) : Except Error State :=
  let active := s.activeBond tx.sender
  if amount = 0 then .error .zeroAmount
  else if active < amount then .error (.insufficientBond amount active)
  else if (s.unbondingOf tx.sender).amount ≠ 0 then .error .unbondingInProgress
  else do
    let required ← s.bondRequired H (s.declaredMbps tx.sender)
    if active - amount < required then .error (.bondBelowCurve (active - amount) required)
    else
      let unlockAt ← checkedAdd u256Max tx.timestamp s.params.unbondingPeriod
      return { s with
        activeBond := Function.update s.activeBond tx.sender (active - amount)
        unbondingOf := Function.update s.unbondingOf tx.sender ⟨amount, unlockAt⟩ }.emit
        (.unbondingRequested tx.sender amount unlockAt (active - amount))

/-- `unbond`: withdraw bond whose unbonding period has elapsed. -/
def unbond (tx : Tx) (s : State) : Except Error State :=
  let req := s.unbondingOf tx.sender
  if req.amount = 0 then .error .noUnbondingRequest
  else if tx.timestamp < req.unlockAt then .error (.unbondingNotComplete req.unlockAt)
  else do
    let s := { s with unbondingOf := Function.update s.unbondingOf tx.sender {} }
    let s ← payOut tx s (.transfer tx.sender req.amount)
    return s.emit (.unbonded tx.sender req.amount)

/-- The gate of `declareMbps`: an inactive operator may release its tier; any other
declaration is in the band and covered by the bond. -/
def checkDeclaration (H : Wiring) (tx : Tx) (s : State) (mbps : Nat) : Except Error Unit :=
  if mbps = 0 ∧ (s.nodes tx.sender).active = false then .ok ()
  else do
    whenNotPaused s
    if mbps < s.params.minCapacityMbps ∨ s.params.maxCapacityMbps < mbps then
      .error (.declaredCapacityOutOfBand mbps s.params.minCapacityMbps s.params.maxCapacityMbps)
    else
      let required ← s.bondRequired H mbps
      if s.activeBond tx.sender < required then
        .error (.bondBelowCurve (s.activeBond tx.sender) required)
      else .ok ()

/-- `declareMbps`. -/
def declareMbps (H : Wiring) (tx : Tx) (s : State) (mbps : Nat) : Except Error State := do
  checkDeclaration H tx s mbps
  let old := s.declaredMbps tx.sender
  let s ← record H tx { s with declaredMbps := Function.update s.declaredMbps tx.sender mbps }
    tx.sender mbps
  return s.emit (.mbpsDeclared tx.sender old mbps)

/-- `isActive`: registered, at or above the entry floor, and not ejected. -/
def isActive (s : State) (operator : Address) : Prop :=
  (s.nodes operator).active = true ∧
    s.bondFloorAtActivation operator ≤ s.activeBond operator ∧ s.ejected operator = false

instance (s : State) (operator : Address) : Decidable (isActive s operator) := by
  unfold isActive
  infer_instance

/-- `nodeIdOf`: the bound node id and the operator's activity. -/
def nodeIdOf (s : State) (operator : Address) : Bytes32 × Bool :=
  (s.addressToNodeId operator, decide (isActive s operator))

/-! ## Governance -/

/-- A setter of one bounded parameter: role, bounds, write, event. -/
def setBounded (tx : Tx) (s : State) (value floor ceiling : Nat) (p : Params) (e : Event) :
    Except Error State := do
  onlyRole tx .governance
  enforceBounds value floor ceiling
  return { s with params := p }.emit e

/-- `setMinBond`. -/
def setMinBond (tx : Tx) (s : State) (n : Nat) : Except Error State :=
  setBounded tx s n minBondFloor minBondCeiling { s.params with minBond := n }
    (.minBondUpdated s.params.minBond n)

/-- `setMinCapacityMbps`. -/
def setMinCapacityMbps (tx : Tx) (s : State) (n : Nat) : Except Error State :=
  setBounded tx s n minCapacityFloorMbps minCapacityCeilingMbps
    { s.params with minCapacityMbps := n } (.minCapacityMbpsUpdated s.params.minCapacityMbps n)

/-- `setMaxCapacityMbps`. -/
def setMaxCapacityMbps (tx : Tx) (s : State) (n : Nat) : Except Error State :=
  setBounded tx s n maxCapacityFloorMbps maxCapacityCeilingMbps
    { s.params with maxCapacityMbps := n } (.maxCapacityMbpsUpdated s.params.maxCapacityMbps n)

/-- `setMultiaddrUpdateCooldown`. -/
def setMultiaddrUpdateCooldown (tx : Tx) (s : State) (n : Nat) : Except Error State :=
  setBounded tx s n 0 multiaddrCooldownCeiling { s.params with multiaddrUpdateCooldown := n }
    (.multiaddrUpdateCooldownUpdated s.params.multiaddrUpdateCooldown n)

/-- `setMaxMultiaddrSize`. -/
def setMaxMultiaddrSize (tx : Tx) (s : State) (n : Nat) : Except Error State :=
  setBounded tx s n maxMultiaddrSizeFloor maxMultiaddrSizeCeiling
    { s.params with maxMultiaddrSize := n } (.maxMultiaddrSizeUpdated s.params.maxMultiaddrSize n)

/-- `setRegionStabilityWindow`. -/
def setRegionStabilityWindow (tx : Tx) (s : State) (n : Nat) : Except Error State :=
  setBounded tx s n regionStabilityWindowFloor regionStabilityWindowCeiling
    { s.params with regionStabilityWindow := n }
    (.regionStabilityWindowUpdated s.params.regionStabilityWindow n)

/-- `setCurrentTermsHash`: any hash but zero. -/
def setCurrentTermsHash (tx : Tx) (s : State) (newHash : Bytes32) : Except Error State := do
  onlyRole tx .governance
  if newHash = 0 then .error .zeroTermsHash
  else
    return { s with params := { s.params with currentTermsHash := newHash } }.emit
      (.currentTermsHashUpdated s.params.currentTermsHash newHash)

/-- `_enforceOneGbpsTierBond`. -/
def enforceOneGbpsTierBond (H : Wiring) (s : State) : Except Error Unit := do
  let bondAt1G ← s.bondRequired H oneGbpsMbps
  enforceBounds bondAt1G oneGbpsBondFloor oneGbpsBondCeiling

/-- `setK`: the new value is written first and checked after. -/
def setK (H : Wiring) (tx : Tx) (s : State) (newK : Nat) : Except Error State := do
  onlyRole tx .governance
  let oldK := s.params.kConstant
  let s := { s with params := { s.params with kConstant := newK } }
  enforceOneGbpsTierBond H s
  return s.emit (.kUpdated oldK newK)

/-- `setAlpha`: the exponent has bounds of its own beside the tier check. -/
def setAlpha (H : Wiring) (tx : Tx) (s : State) (newAlphaWad : Nat) : Except Error State := do
  onlyRole tx .governance
  enforceBounds newAlphaWad alphaFloor alphaCeiling
  let oldAlpha := s.params.alphaWad
  let s := { s with params := { s.params with alphaWad := newAlphaWad } }
  enforceOneGbpsTierBond H s
  return s.emit (.alphaUpdated oldAlpha newAlphaWad)

/-- The paired evidence-age check of `setSlashJudge` and `setUnbondingPeriod`. -/
def enforceEvidenceAge (tx : Tx) (judge : Address) (unbondingPeriod : Nat) :
    Except Error Unit := do
  let unbondingUs ← checkedMul unbondingPeriod 1000000
  match tx.maxEvidenceAgeUs judge with
  | none => .error .externalCallReverted
  | some maxAgeUs =>
    if unbondingUs ≤ maxAgeUs then .error (.unbondingBelowEvidenceAge unbondingUs maxAgeUs)
    else .ok ()

/-- `setSlashJudge`: wired once, then fixed. -/
def setSlashJudge (tx : Tx) (s : State) (newSlashJudge : Address) : Except Error State := do
  onlyRole tx .governance
  if s.params.slashJudge ≠ 0 then .error .slashJudgeAlreadySet
  else if newSlashJudge = 0 then .error .zeroAddress
  else
    enforceEvidenceAge tx newSlashJudge s.params.unbondingPeriod
    return { s with params := { s.params with slashJudge := newSlashJudge } }.emit
      (.slashJudgeWired newSlashJudge)

/-- `setUnbondingPeriod`: checked against the judge once one is wired. -/
def setUnbondingPeriod (tx : Tx) (s : State) (newPeriod : Nat) : Except Error State := do
  onlyRole tx .governance
  enforceBounds newPeriod unbondingPeriodFloor unbondingPeriodCeiling
  if s.params.slashJudge = 0 then pure ()
  else enforceEvidenceAge tx s.params.slashJudge newPeriod
  return { s with params := { s.params with unbondingPeriod := newPeriod } }.emit
    (.unbondingPeriodUpdated s.params.unbondingPeriod newPeriod)

/-! ## Pause -/

/-- `pause`, until the sunset: stamps the pause start. -/
def pause (tx : Tx) (s : State) : Except Error State := do
  onlyRole tx .pauser
  Guard.pausable tx.timestamp s.pauseDeadline s.paused .pauseExpired .enforcedPause
  return { s with paused := true, pausedAt := tx.timestamp % 2 ^ 64 }

/-- `unpause`: adds the pause that ends to the paused total. -/
def unpause (tx : Tx) (s : State) : Except Error State := do
  onlyRole tx .pauser
  let elapsed ← checkedSub (tx.timestamp % 2 ^ 64) s.pausedAt
  let pausedTotal ← checkedAdd u64Max s.pausedTotal elapsed
  Guard.require s.paused .expectedPause
  return { s with paused := false, pausedTotal := pausedTotal, pausedAt := 0 }

/-! ## Calls and runs -/

/-- The constructor's state: bounded parameters and empty storage. -/
def deploy (tx : Tx) (minBond unbondingPeriod multiaddrUpdateCooldown maxMultiaddrSize
    regionStabilityWindow : Nat) (currentTermsHash : Bytes32) : Except Error State := do
  enforceBounds minBond minBondFloor minBondCeiling
  enforceBounds unbondingPeriod unbondingPeriodFloor unbondingPeriodCeiling
  enforceBounds multiaddrUpdateCooldown 0 multiaddrCooldownCeiling
  enforceBounds maxMultiaddrSize maxMultiaddrSizeFloor maxMultiaddrSizeCeiling
  enforceBounds regionStabilityWindow regionStabilityWindowFloor regionStabilityWindowCeiling
  if currentTermsHash = 0 then .error .zeroTermsHash
  else
    return {
      params := {
        minBond := minBond
        unbondingPeriod := unbondingPeriod
        regionStabilityWindow := regionStabilityWindow
        multiaddrUpdateCooldown := multiaddrUpdateCooldown
        maxMultiaddrSize := maxMultiaddrSize
        currentTermsHash := currentTermsHash }
      pauseDeadline := tx.timestamp + pauseSunsetPeriod }

/-- The external state-changing functions. -/
inductive Call where
  | bond (amount : Nat)
  | requestUnbond (amount : Nat)
  | unbond
  | declareMbps (mbps : Nat)
  | updateRegion (newRegion : Bytes)
  | registerNode (nodeId : Bytes32) (multiaddrs regionHint : Bytes) (termsHash : Bytes32)
      (bindingSignature ed25519Signature : Bytes)
  | deregisterNode
  | bindNodeId (nodeId : Bytes32) (bindingSignature ed25519Signature : Bytes)
  | reclaimNodeId (nodeId : Bytes32) (ed25519Signature : Bytes)
  | updateMultiaddrs (multiaddrs : Bytes)
  | slash (operator challenger : Address) (offenseType : UInt8) (evidenceHash : Bytes32)
  | finalizeUnappealedSlash (slashId : Nat)
  | markAppealOpen (slashId : Nat)
  | creditPauseTime (delta : Nat)
  | settleAppealUpheld (slashId : Nat)
  | settleAppealGranted (slashId : Nat)
  | ejectNode (operator : Address)
  | unEjectNode (operator : Address)
  | setMinBond (newMinBond : Nat)
  | setCurrentTermsHash (newHash : Bytes32)
  | setK (newK : Nat)
  | setAlpha (newAlphaWad : Nat)
  | setMinCapacityMbps (newMin : Nat)
  | setMaxCapacityMbps (newMax : Nat)
  | setSlashJudge (newSlashJudge : Address)
  | setUnbondingPeriod (newPeriod : Nat)
  | setMultiaddrUpdateCooldown (newCooldown : Nat)
  | setMaxMultiaddrSize (newSize : Nat)
  | setRegionStabilityWindow (newWindow : Nat)
  | pause
  | unpause

/-- Execute one external call. -/
def exec (H : Wiring) (tx : Tx) (s : State) : Call → Except Error State
  | .bond amount => bond tx s amount
  | .requestUnbond amount => requestUnbond H tx s amount
  | .unbond => unbond tx s
  | .declareMbps mbps => declareMbps H tx s mbps
  | .updateRegion newRegion => updateRegion H tx s newRegion
  | .registerNode nodeId multiaddrs regionHint termsHash bindingSignature ed25519Signature =>
    registerNode H tx s nodeId multiaddrs regionHint termsHash bindingSignature ed25519Signature
  | .deregisterNode => deregisterNode H tx s
  | .bindNodeId nodeId bindingSignature ed25519Signature =>
    bindNodeId H tx s nodeId bindingSignature ed25519Signature
  | .reclaimNodeId nodeId ed25519Signature => reclaimNodeId H tx s nodeId ed25519Signature
  | .updateMultiaddrs multiaddrs => updateMultiaddrs tx s multiaddrs
  | .slash operator challenger offenseType evidenceHash =>
    Prod.fst <$> slash tx s operator challenger offenseType evidenceHash
  | .finalizeUnappealedSlash slashId => finalizeUnappealedSlash tx s slashId
  | .markAppealOpen slashId => markAppealOpen tx s slashId
  | .creditPauseTime delta => creditPauseTime tx s delta
  | .settleAppealUpheld slashId => settleAppealUpheld tx s slashId
  | .settleAppealGranted slashId => settleAppealGranted tx s slashId
  | .ejectNode operator => ejectNode tx s operator
  | .unEjectNode operator => unEjectNode tx s operator
  | .setMinBond n => setMinBond tx s n
  | .setCurrentTermsHash newHash => setCurrentTermsHash tx s newHash
  | .setK n => setK H tx s n
  | .setAlpha n => setAlpha H tx s n
  | .setMinCapacityMbps n => setMinCapacityMbps tx s n
  | .setMaxCapacityMbps n => setMaxCapacityMbps tx s n
  | .setSlashJudge judge => setSlashJudge tx s judge
  | .setUnbondingPeriod n => setUnbondingPeriod tx s n
  | .setMultiaddrUpdateCooldown n => setMultiaddrUpdateCooldown tx s n
  | .setMaxMultiaddrSize n => setMaxMultiaddrSize tx s n
  | .setRegionStabilityWindow n => setRegionStabilityWindow tx s n
  | .pause => pause tx s
  | .unpause => unpause tx s

/-- The contract together with the chain's clock. -/
structure World where
  now : Nat
  contract : State

/-- One event of a run.  A reverted call changes nothing, so it is not a step of
its own; anybody may send TOKEN to the contract. -/
inductive Step (H : Wiring) : World → World → Prop where
  | call {w : World} {s : State} (tx : Tx) (c : Call) (hnow : w.now ≤ tx.timestamp)
      (hexec : exec H tx w.contract c = .ok s) : Step H w ⟨tx.timestamp, s⟩
  | donation {w : World} (amount : Nat) :
      Step H w ⟨w.now, { w.contract with tokenBalance := w.contract.tokenBalance + amount }⟩

/-- The worlds a deployment can reach. -/
inductive Reachable (H : Wiring) : World → Prop where
  | deployed {s : State} (tx : Tx) (minBond unbondingPeriod multiaddrUpdateCooldown
      maxMultiaddrSize regionStabilityWindow : Nat) (currentTermsHash : Bytes32)
      (h : deploy tx minBond unbondingPeriod multiaddrUpdateCooldown maxMultiaddrSize
        regionStabilityWindow currentTermsHash = .ok s) : Reachable H ⟨tx.timestamp, s⟩
  | step {w w' : World} (h : Reachable H w) (hstep : Step H w w') : Reachable H w'

/-! ## Runs by evaluation -/

/-- One call as an event of a run: `none` if it is out of order or reverts. -/
def World.apply (H : Wiring) (w : World) (e : Tx × Call) : Option World :=
  if w.now ≤ e.1.timestamp then
    match exec H e.1 w.contract e.2 with
    | .ok s => some ⟨e.1.timestamp, s⟩
    | .error _ => none
  else none

/-- Execute the listed calls in turn. -/
def runCalls (H : Wiring) : World → List (Tx × Call) → Option World :=
  runEvents (World.apply H) fun _ _ => true

theorem World.apply_step {H : Wiring} {w w' : World} {e : Tx × Call}
    (h : w.apply H e = some w') : Step H w w' := by
  unfold World.apply at h
  split at h
  · rename_i hnow
    split at h
    · rename_i s hexec
      rcases Option.some.inj h with rfl
      exact .call e.1 e.2 hnow hexec
    · cases h
  · cases h

/-- Calls that evaluate are a run. -/
theorem Reachable.of_runCalls {H : Wiring} {w w' : World} {calls : List (Tx × Call)}
    (hw : Reachable H w) (h : runCalls H w calls = some w') : Reachable H w' :=
  runEvents_invariant (fun _ _ _ hw hstep => hw.step (World.apply_step hstep)) hw h

/-- A wiring with a linear bond curve and a hash that reads the first bytes. -/
def sampleWiring : Wiring where
  powWad := fun x _ => some x
  keccak256 := fun bytes => bytes.foldl (fun acc b => acc * 256 + BitVec.ofNat 256 (b.toNat + 1)) 0
  bindNodeDigest := fun nodeId _ => nodeId
  registerNodeDigest := fun nodeId _ _ => nodeId
  ownershipMessage := fun nodeId _ _ => nodeId
  verify := fun _ _ _ => true
  checkpoints := .ofLists

/-- A transaction at `timestamp` whose external checks all pass. -/
def sampleTx (sender : Address) (timestamp : Nat)
    (hsender : decide (sender ≠ 0) = true := by exact Eq.refl true)
    (htime : decide (timestamp ≤ u64Max) = true := by exact Eq.refl true) : Tx where
  sender := sender
  sender_ne_zero := ne_zero_of_check hsender
  timestamp := timestamp
  timestamp_le := le_u64Max_of_check htime
  hasRole := fun _ _ => true
  transferFrom := true
  transferOut := true
  isValidSignatureNow := fun _ _ _ => true
  maxEvidenceAgeUs := fun _ => some 0

/-- A deployment at time 1: a bond floor of 10,000 TOKEN, 14 days of unbonding, a cooldown of an
hour and a region window of 7 days. -/
def sampleDeployed : World where
  now := 1
  contract := {
    params := {
      minBond := 10000000000000000000000
      unbondingPeriod := 1209600
      regionStabilityWindow := 604800
      multiaddrUpdateCooldown := 3600
      maxMultiaddrSize := 256
      currentTermsHash := 1 }
    pauseDeadline := 31536001 }

theorem sampleDeployed_reachable (H : Wiring) : Reachable H sampleDeployed :=
  .deployed (sampleTx 9 1) 10000000000000000000000 1209600 3600 256 604800 1 rfl

end Decdn.CapacityBond
