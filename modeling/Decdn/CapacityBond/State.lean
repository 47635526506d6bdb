import Decdn.Foundations.Checkpoints
import Decdn.Foundations.Guards
import Decdn.Foundations.Words
import Mathlib.Logic.Function.Basic

/-!
# Storage of the CapacityBond contract

The data model of `contracts/src/CapacityBond.sol` and of the libraries that run
in its storage: operator bonds, slash records in escrow, the registry that binds
node ids to addresses, and the governed parameters.  The parameters form one
record, because a governance setter writes one of them and nothing else.

The fixed-point power of the bond curve, the hashes and the ed25519 verifier are
the fields of `Wiring`.  What the token, the roles and the other contracts answer
during one transaction is `Tx`.

Main definitions:

- Structure `State`: the storage, the TOKEN balance, the payments made and the
  events emitted.
- Definition `bondRequired`: the capacity-bond curve.
- Definition `reduceAtTier`: what a slash takes from the two bond balances.
-/

namespace Decdn.CapacityBond

/-! ## Data model -/

/-- A byte string. -/
abbrev Bytes := List UInt8

/-- Bond on its way out, and when it may leave. -/
structure UnbondingRequest where
  amount : Nat := 0
  unlockAt : Nat := 0
deriving DecidableEq, Repr

/-- Escrow lifecycle of a slash record. -/
inductive SlashStatus where
  | none
  | escrowed
  | appealOpen
  | upheld
  | reversed
deriving DecidableEq, Repr

/-- One slash, with its TOKEN in escrow until it resolves. -/
structure SlashRecord where
  operator : Address := 0
  slashedAt : Nat := 0
  status : SlashStatus := .none
  offenseType : UInt8 := 0
  challenger : Address := 0
  appealWindowClose : Nat := 0
  slashAmount : Nat := 0
  evidenceHash : Bytes32 := 0
deriving DecidableEq, Repr

/-- One operator's registry entry. -/
structure NodeInfo where
  nodeId : Bytes32 := 0
  ethAddress : Address := 0
  active : Bool := false
  lastMultiaddrUpdate : Nat := 0
  multiaddrs : Bytes := []
  regionHint : Bytes := []
deriving DecidableEq, Repr

/-- The governed parameters. -/
structure Params where
  minBond : Nat
  unbondingPeriod : Nat
  /-- The zero address until a judge is wired. -/
  slashJudge : Address := 0
  minCapacityMbps : Nat := 10
  maxCapacityMbps : Nat := 200000
  kConstant : Nat := 12600000000000000000
  alphaWad : Nat := 1200000000000000000
  regionStabilityWindow : Nat
  multiaddrUpdateCooldown : Nat
  maxMultiaddrSize : Nat
  currentTermsHash : Bytes32
deriving DecidableEq, Repr

/-- One TOKEN movement out of the contract. -/
inductive Payment where
  | transfer (recipient : Address) (amount : Nat)
  | burn (amount : Nat)
deriving DecidableEq, Repr

/-- The amount a payment moves. -/
def Payment.amount : Payment → Nat
  | .transfer _ amount => amount
  | .burn amount => amount

/-- The events of the contract. -/
inductive Event where
  | bonded (operator : Address) (amount newActiveBond : Nat)
  | unbondingRequested (operator : Address) (amount unlockAt newActiveBond : Nat)
  | unbonded (operator : Address) (amount : Nat)
  | slashed (operator challenger : Address) (offenseType : UInt8)
      (lifetimeOffenseCount slashAmount : Nat)
  | autoEjected (operator : Address) (remainingBond : Nat)
  | ejectedByBlacklist (operator : Address)
  | blacklistEjectionCleared (operator : Address)
  | reinstated (operator : Address)
  | minBondUpdated (oldValue newValue : Nat)
  | kUpdated (oldValue newValue : Nat)
  | alphaUpdated (oldValue newValue : Nat)
  | unbondingPeriodUpdated (oldValue newValue : Nat)
  | slashJudgeWired (judge : Address)
  | multiaddrUpdateCooldownUpdated (oldValue newValue : Nat)
  | maxMultiaddrSizeUpdated (oldValue newValue : Nat)
  | regionStabilityWindowUpdated (oldValue newValue : Nat)
  | minCapacityMbpsUpdated (oldValue newValue : Nat)
  | maxCapacityMbpsUpdated (oldValue newValue : Nat)
  | nodeRegistered (nodeId : Bytes32) (ethAddress : Address) (multiaddrs regionHint : Bytes)
      (bindingNonce registrationNonce : Nat)
  | nodeIdBound (ethAddress : Address) (nodeId : Bytes32) (bindingNonce : Nat)
  | nodeMultiaddrUpdated (nodeId : Bytes32) (multiaddrs : Bytes)
  | termsAccepted (nodeId termsHash : Bytes32) (timestamp : Nat)
  | currentTermsHashUpdated (oldHash newHash : Bytes32)
  | nodeDeregistered (nodeId : Bytes32)
  | nodeAutoEjected (nodeId : Bytes32) (remainingBond : Nat)
  | nodeIdReclaimed (nodeId : Bytes32) (previousOwner : Address)
  | regionUpdated (nodeId : Bytes32) (oldRegion newRegion : Bytes)
  | slashedAtEpochStamped (operator : Address) (epoch : Nat)
  | mbpsDeclared (operator : Address) (oldMbps newMbps : Nat)
  | slashRecorded (slashId : Nat) (operator : Address) (slashedAt slashAmount : Nat)
  | slashEscrowed (slashId : Nat) (operator : Address) (amount appealWindowClose : Nat)
  | slashAppealOpened (slashId : Nat) (operator : Address)
  | slashUpheld (slashId : Nat) (viaAppeal : Bool) (challengerShare burnShare : Nat)
  | slashReversed (slashId : Nat) (operator : Address) (refund : Nat)
deriving DecidableEq, Repr

/-- Every way a call reverts, the inherited guards and checked arithmetic
included. -/
inductive Error where
  | zeroAddress
  | zeroAmount
  | zeroNodeId
  | insufficientBond (requested available : Nat)
  | unbondingInProgress
  | unbondingNotComplete (unlockAt : Nat)
  | noUnbondingRequest
  | paramOutOfBounds (value floor ceiling : Nat)
  | declaredCapacityOutOfBand (mbps floor ceiling : Nat)
  | bondBelowCurve (bond required : Nat)
  | nodeAlreadyRegistered
  | nodeIdAlreadyBound (currentOwner : Address)
  | addressAlreadyBound (currentNodeId : Bytes32)
  | invalidBindingSignature
  | invalidEd25519Signature
  | termsHashMismatch (provided expected : Bytes32)
  | zeroTermsHash
  | multiaddrsTooLarge (size ceiling : Nat)
  | multiaddrCooldownActive (readyAt : Nat)
  | nodeNotActive
  | bondBelowMinimum (bond required : Nat)
  | operatorEjected
  | nodeIdNotBound (nodeId : Bytes32)
  | regionHintTooLong (size ceiling : Nat)
  | unbondingBelowEvidenceAge (unbondingUs maxEvidenceAgeUs : Nat)
  | slashJudgeAlreadySet
  | regionCooldownActive (readyAt : Nat)
  | unknownSlash (slashId : Nat)
  | slashNotEscrowed (slashId : Nat)
  | slashAppealNotOpen (slashId : Nat)
  | filingWindowStillOpen (closeAt : Nat)
  | filingWindowClosed (closeAt : Nat)
  | enforcedPause
  | expectedPause
  | pauseExpired
  | unauthorizedAccount (account : Address)
  | safeCastOverflowedUint
  | checkpointUnorderedInsertion
  | fixedPointOverflow
  | tokenTransferFailed
  | externalCallReverted
  | arithmeticPanic
deriving DecidableEq, Repr

/-- The roles the contract gates on. -/
inductive Role where
  | governance
  | slash
  | blacklist
  | pauser
  | slashAppeal
deriving DecidableEq, Repr

/-- The curve's power function, the hashes and the ed25519 verifier. -/
structure Wiring where
  /-- `uint256(FixedPointMathLib.powWad(int256(x), int256(y)))`, or `none` if it
  reverts. -/
  powWad : Nat → Nat → Option Nat
  /-- `keccak256` of a byte string. -/
  keccak256 : Bytes → Bytes32
  /-- EIP-712 digest of `BindNodeId(nodeId, nonce)`. -/
  bindNodeDigest : Bytes32 → Nat → Bytes32
  /-- EIP-712 digest of `RegisterNode(nodeId, nonce, termsHash)`. -/
  registerNodeDigest : Bytes32 → Nat → Bytes32 → Bytes32
  /-- `keccak256(abi.encodePacked(nodeId, msg.sender, block.chainid, nonce))`. -/
  ownershipMessage : Bytes32 → Address → Nat → Bytes32
  /-- `IEd25519Verifier.verify`. -/
  verify : Bytes32 → Bytes32 → Bytes → Bool
  /-- `Checkpoints.Trace208`. -/
  checkpoints : CheckpointOps

/-- One transaction: its caller and block time, and what the other contracts
answer while it runs.  No transaction is sent from the zero address, and block
timestamps are 64-bit. -/
structure Tx where
  sender : Address
  sender_ne_zero : sender ≠ 0
  timestamp : Nat
  timestamp_le : timestamp ≤ u64Max
  /-- `AccessControl.hasRole`. -/
  hasRole : Role → Address → Bool
  /-- Whether the token performs `safeTransferFrom` of the stated amount. -/
  transferFrom : Bool
  /-- Whether the token performs `safeTransfer` and `burn` of the stated amount. -/
  transferOut : Bool
  /-- `SignatureChecker.isValidSignatureNow`. -/
  isValidSignatureNow : Address → Bytes32 → Bytes → Bool
  /-- `ISlashJudgeEvidenceView.maxEvidenceAgeUs`, or `none` if it reverts. -/
  maxEvidenceAgeUs : Address → Option Nat

/-- Contract storage, its TOKEN balance, the payments made and the events
emitted so far. -/
structure State where
  params : Params
  paused : Bool := false
  pauseDeadline : Nat
  pausedTotal : Nat := 0
  pausedAt : Nat := 0
  activeBond : Address → Nat := fun _ => 0
  unbondingOf : Address → UnbondingRequest := fun _ => {}
  lifetimeOffenseCount : Address → Nat := fun _ => 0
  ejected : Address → Bool := fun _ => false
  blacklistEjected : Address → Bool := fun _ => false
  firstBondedAt : Address → Nat := fun _ => 0
  slashedAtEpoch : Address → Nat := fun _ => 0
  declaredMbps : Address → Nat := fun _ => 0
  declaredMbpsHistory : Address → Trace := fun _ => []
  bondFloorAtActivation : Address → Nat := fun _ => 0
  regionPrev : Address → Bytes := fun _ => []
  regionLastChanged : Address → Nat := fun _ => 0
  slashCounter : Nat := 0
  slashRecords : Nat → SlashRecord := fun _ => {}
  operatorSlashIds : Address → List Nat := fun _ => []
  escrowedTotal : Nat := 0
  nodes : Address → NodeInfo := fun _ => {}
  nodeIdToAddress : Bytes32 → Address := fun _ => 0
  addressToNodeId : Address → Bytes32 := fun _ => 0
  bindingNonce : Address → Nat := fun _ => 0
  registrationNonce : Bytes32 → Nat := fun _ => 0
  registeredAddrs : List Address := []
  registeredIndex : Address → Nat := fun _ => 0
  tokenBalance : Nat := 0
  payments : List Payment := []
  log : List Event := []

/-- Append one event. -/
def State.emit (s : State) (e : Event) : State :=
  { s with log := s.log ++ [e] }

/-! ## Constants -/

def slashBpsTier1 : Nat := 500
def slashBpsTier2 : Nat := 1500
def slashBpsTier3 : Nat := 5000

/-- The challenger's share of an upheld slash. -/
def challengerBps : Nat := 5000

/-- Window after a slash in which an appeal may be filed: 30 days. -/
def appealFilingWindow : Nat := 30 * 24 * 3600

def minBondFloor : Nat := 10000 * wad
def minBondCeiling : Nat := 1000000 * wad
def minCapacityFloorMbps : Nat := 10
def minCapacityCeilingMbps : Nat := 1000
def maxCapacityFloorMbps : Nat := 50000
def maxCapacityCeilingMbps : Nat := 1000000
def alphaFloor : Nat := wad
def alphaCeiling : Nat := 1800000000000000000
def oneGbpsMbps : Nat := 1000
def oneGbpsBondFloor : Nat := 10000 * wad
def oneGbpsBondCeiling : Nat := 200000 * wad
def unbondingPeriodFloor : Nat := 7 * 24 * 3600
def unbondingPeriodCeiling : Nat := 60 * 24 * 3600
def multiaddrCooldownCeiling : Nat := 24 * 3600
def maxMultiaddrSizeFloor : Nat := 64
def maxMultiaddrSizeCeiling : Nat := 1024
def maxRegionHintBytes : Nat := 16
def regionStabilityWindowFloor : Nat := 3 * 24 * 3600
def regionStabilityWindowCeiling : Nat := 30 * 24 * 3600

/-- The epoch length shared with the fee router: 7 days. -/
def epochLength : Nat := 7 * 24 * 3600

/-- Lifetime of the pause capability: 365 days. -/
def pauseSunsetPeriod : Nat := 365 * 24 * 3600

/-! ## Checked arithmetic -/

/-- Checked addition at a width. -/
def checkedAdd (max : Nat) : Nat → Nat → Except Error Nat := Guard.add max .arithmeticPanic

/-- Checked 256-bit multiplication. -/
def checkedMul (a b : Nat) : Except Error Nat :=
  if a * b ≤ u256Max then .ok (a * b) else .error .arithmeticPanic

/-- Checked subtraction. -/
def checkedSub : Nat → Nat → Except Error Nat := Guard.sub .arithmeticPanic

/-- A value inside `[floor, ceiling]`, as the `_enforce…Bounds` helpers check. -/
def enforceBounds (value floor ceiling : Nat) : Except Error Unit :=
  Guard.within value floor ceiling (.paramOutOfBounds value floor ceiling)

/-! ## Guards -/

/-- `onlyRole`. -/
def onlyRole (tx : Tx) (role : Role) : Except Error Unit :=
  Guard.require (tx.hasRole role tx.sender) (.unauthorizedAccount tx.sender)

/-- `whenNotPaused`. -/
def whenNotPaused (s : State) : Except Error Unit :=
  Guard.require (!s.paused) .enforcedPause

/-! ## BondMath -/

/-- `FixedPointMathLib.mulWad`. -/
def mulWad (x y : Nat) : Except Error Nat :=
  if x * y ≤ u256Max then .ok (x * y / wad) else .error .fixedPointOverflow

/-- `BondMath.bondRequired`: the curve `k · Mbps^α`. -/
def bondRequired (H : Wiring) (mbps k alphaWad : Nat) : Except Error Nat :=
  if mbps = 0 then .ok 0
  else do
    let x ← checkedMul mbps wad
    match H.powWad x alphaWad with
    | none => .error .fixedPointOverflow
    | some mbpsPow => mulWad k mbpsPow

/-- The contract's `bondRequired` under the live curve. -/
def State.bondRequired (H : Wiring) (s : State) (mbps : Nat) : Except Error Nat :=
  CapacityBond.bondRequired H mbps s.params.kConstant s.params.alphaWad

/-- What `BondMath.reduceAtTier` returns. -/
structure Reduction where
  slashAmount : Nat
  newActive : Nat
  newUnbonding : Nat
deriving DecidableEq, Repr

/-- `BondMath.reduceAtTier`: active bond first, then unbonding bond. -/
def reduceAtTier (active unbonding tierBps : Nat) : Except Error Reduction := do
  let totalAtRisk ← checkedAdd u256Max active unbonding
  let scaled ← checkedMul totalAtRisk tierBps
  let slashAmount := scaled / bpsDenominator
  if slashAmount ≤ active then return ⟨slashAmount, active - slashAmount, unbonding⟩
  else
    let remainder := slashAmount - active
    -- The clip guards a tier above the whole bond at risk.
    if unbonding < remainder then return ⟨active + unbonding, 0, unbonding - unbonding⟩
    else return ⟨slashAmount, 0, unbonding - remainder⟩

/-! ## DeclaredMbpsHistoryLib -/

/-- `DeclaredMbpsHistoryLib.record`: a checkpoint at the block's timestamp. -/
def record (H : Wiring) (tx : Tx) (s : State) (operator : Address) (mbps : Nat) :
    Except Error State :=
  if 2 ^ 48 ≤ tx.timestamp ∨ 2 ^ 208 ≤ mbps then .error .safeCastOverflowedUint
  else
    match H.checkpoints.push (s.declaredMbpsHistory operator) tx.timestamp mbps with
    | none => .error .checkpointUnorderedInsertion
    | some history =>
      .ok { s with
        declaredMbpsHistory := Function.update s.declaredMbpsHistory operator history }

end Decdn.CapacityBond
