import Decdn.Foundations.Guards
import Decdn.Foundations.Words
import Mathlib.Logic.Function.Basic
import Mathlib.Logic.Function.Iterate

/-!
# The PaymentPool contract

A shallow embedding of `contracts/src/PaymentPool.sol`.  One funded USDC pool
backs payments from many capped signers to many nodes.  Every external function
is a function from a state and a transaction to either an error, which reverts
the whole call, or the next state.

The hash and signature primitives are the fields of `Crypto`.  What other
contracts answer during one transaction (roles, the USDC transfer, the operator
registry, the fee router, ERC-1271 wallets) is the rest of `Tx`, so nothing is
assumed about them beyond what the call itself checks.

Main definitions:

- Definition `resolveClaim`: `_resolveClaim`, the chain-extended claim.
- Definition `applyVoucher`: `_applyVoucher`, the cumulative-minimum core.
- Definition `redeemMany`: the nested batch and voucher loops.
- Definition `exec`: one external call, and Definition `Step`: one call of a run.
-/

namespace Decdn.PaymentPool

/-! ## Data model -/

/-- Pool lifecycle.  `opened` is the zero default of a pool nobody opened. -/
inductive Status where
  | opened
  | closing
  | closed
deriving DecidableEq, Repr

/-- One pool's storage record. -/
structure Pool where
  owner : Address := 0
  status : Status := .opened
  disputeDeadline : Nat := 0
  deposit : Nat := 0
  totalRedeemed : Nat := 0
deriving DecidableEq, Repr

/-- A registered signer's limits and what it has spent. -/
structure Authorization where
  cap : Nat := 0
  expiry : Nat := 0
  spent : Nat := 0
deriving DecidableEq, Repr

/-- One `(pool, signer, provider)` redemption lane. -/
structure Lane where
  amount : Nat := 0
  bytesDelivered : Nat := 0
deriving DecidableEq, Repr

/-- One signer registration inside a pool's batch. -/
structure CapabilityReg where
  signer : Address
  spendingCap : UInt64
  expiry : UInt64
  ownerSig : List UInt8
deriving DecidableEq, Repr

/-- One lane's voucher inside a pool's batch: eight calldata words. -/
structure LaneVoucher where
  signer : Address
  cumulative : UInt64
  bytesDelivered : UInt64
  r : Bytes32
  vs : Bytes32
  chainRoot : Bytes32
  preimage : Bytes32
  chainMeter : Bytes32
deriving DecidableEq, Repr

/-- Everything a node redeems against one pool. -/
structure PoolBatch where
  poolId : Bytes32
  capabilities : List CapabilityReg
  vouchers : List LaneVoucher
deriving DecidableEq, Repr

/-- One lane's outcome inside a `PoolRedeemed` event. -/
structure LaneSettled where
  signer : Address
  newPaidCumulative : Nat
  bytesPaid : Nat
deriving DecidableEq, Repr

/-- The events of the contract. -/
inductive Event where
  | poolOpened (poolId : Bytes32) (owner : Address) (deposit : Nat)
  | poolToppedUp (poolId : Bytes32) (additionalDeposit newDeposit : Nat)
  | poolRedeemed (poolId : Bytes32) (provider : Address) (lanes : List LaneSettled)
  | poolCloseInitiated (poolId : Bytes32) (owner : Address) (disputeDeadline : Nat)
  | poolReclaimed (poolId : Bytes32) (owner : Address) (ownerRefund : Nat)
  | disputeWindowUpdated (oldValue newValue : Nat)
  | rateBoundsUpdated (newDeliveryFloor : Nat)
  | minDepositUpdated (oldValue newValue : Nat)
deriving DecidableEq, Repr

/-- Every way a call reverts, the inherited guards and checked arithmetic
included. -/
inductive Error where
  | zeroAmount
  | belowMinDeposit (received minDeposit : Nat)
  | poolNotOpen
  | notPoolOwner
  | invalidVoucherSignature
  | invalidCapabilitySignature
  | providerNotBound (provider : Address)
  | poolClosed
  | poolNotClosing
  | graceWindowActive
  | badPreimage
  | chainMeterReservedNonZero
  | claimOverflow
  | paramOutOfBounds (value floor ceiling : Nat)
  | rateBoundsInvalid (deliveryFloor : Nat)
  | enforcedPause
  | expectedPause
  | pauseExpired
  | unauthorizedAccount (account : Address)
  | safeCastOverflowedUint
  | tokenTransferFailed
  | routerReverted
  | arithmeticPanic
deriving DecidableEq, Repr

/-- The two roles the contract gates on. -/
inductive Role where
  | governance
  | pauser
deriving DecidableEq, Repr

/-- Hashes and signature recovery.  `none` from a recovery is an error code
other than `NoError`. -/
structure Crypto where
  /-- `keccak256(abi.encodePacked(owner, nonce))`. -/
  poolIdOf : Address → Nat → Bytes32
  /-- `keccak256` of one 32-byte word. -/
  keccak256 : Bytes32 → Bytes32
  /-- EIP-712 digest of `Capability(signer, spendingCap, poolId, expiry)`. -/
  capabilityDigest : Address → Nat → Bytes32 → Nat → Bytes32
  /-- EIP-712 digest of
  `Voucher(poolId, signer, provider, amount, bytesDelivered, chainRoot, chunkPrice)`. -/
  voucherDigest : Bytes32 → Address → Address → Nat → Nat → Bytes32 → Nat → Bytes32
  /-- `ECDSA.tryRecover` over a byte-string signature. -/
  tryRecover : Bytes32 → List UInt8 → Option Address
  /-- `ECDSA.tryRecover` over an EIP-2098 compact pair. -/
  tryRecoverCompact : Bytes32 → Bytes32 → Bytes32 → Option Address

/-- One transaction: its caller and block time, and what the other contracts
answer while it runs.  No transaction is sent from the zero address. -/
structure Tx where
  sender : Address
  sender_ne_zero : sender ≠ 0
  timestamp : Nat
  /-- `AccessControl.hasRole`. -/
  hasRole : Role → Address → Bool
  /-- The balance delta of `safeTransferFrom`, or `none` if it reverts. -/
  transferIn : Option Nat
  /-- Whether the token performs `safeTransfer`. -/
  transferOut : Bool
  /-- `capacityBond.nodeIdOf`: node id and activity. -/
  nodeIdOf : Address → Bytes32 × Bool
  /-- What the router pulls in `routeSettlement(operator, bytesDelta, amountDelta)`,
  or `none` if it reverts. -/
  routerPull : Address → Nat → Nat → Option Nat
  /-- `SignatureChecker.isValidERC1271SignatureNow`. -/
  isValidERC1271 : Address → Bytes32 → List UInt8 → Bool

/-- One `routeSettlement` call made to the fee router. -/
structure Settlement where
  operator : Address
  bytesDelta : Nat
  amountDelta : Nat
deriving DecidableEq, Repr

/-- One USDC transfer the contract sends itself. -/
structure Transfer where
  recipient : Address
  amount : Nat
deriving DecidableEq, Repr

/-- Contract storage, its USDC balance, the settlements routed, the transfers
sent and the events emitted so far. -/
structure State where
  disputeWindow : Nat
  minDeposit : Nat
  deliveryFloor : Nat
  paused : Bool := false
  pauseDeadline : Nat
  ownerPoolNonce : Address → Nat := fun _ => 0
  pools : Bytes32 → Pool := fun _ => {}
  authorized : Bytes32 → Address → Authorization := fun _ _ => {}
  watermark : Bytes32 → Address → Address → Lane := fun _ _ _ => {}
  usdcBalance : Nat := 0
  settlements : List Settlement := []
  transfers : List Transfer := []
  log : List Event := []

/-! ## Safety bounds -/

/-- Lower bound of the grace window: 48 hours. -/
def disputeWindowFloor : Nat := 48 * 3600

/-- Upper bound of the grace window: 72 hours. -/
def disputeWindowCeiling : Nat := 72 * 3600

/-- Ceiling of the governed delivery-rate floor. -/
def maxRatePerMb : Nat := 1000

/-- Lower bound of the governed delivery-rate floor. -/
def minRateFloor : Nat := 1

/-- One binary megabyte. -/
def bytesPerMb : Nat := 1048576

/-- Ceiling of the governed minimum deposit. -/
def minDepositCeiling : Nat := 100000000

/-- The payment quantum: the bytes one hash-chain tick pays for. -/
def chunkBytes : Nat := bytesPerMb

/-- Lifetime of the pause capability: 365 days. -/
def pauseSunsetPeriod : Nat := 365 * 24 * 3600

/-! ## Checked arithmetic -/

/-- Checked `uint64` addition. -/
def checkedAdd64 : Nat → Nat → Except Error Nat := Guard.add u64Max .arithmeticPanic

/-- Checked subtraction. -/
def checkedSub : Nat → Nat → Except Error Nat := Guard.sub .arithmeticPanic

/-- `Math.mulDiv`, rounding down. -/
def mulDiv (x y denominator : Nat) : Except Error Nat :=
  if denominator = 0 then .error .arithmeticPanic else .ok (x * y / denominator)

/-- `SafeCast.toUint64`. -/
def toUint64 : Nat → Except Error Nat := Guard.cast u64Max .safeCastOverflowedUint

/-! ## Storage updates -/

/-- Write one pool record. -/
def State.setPool (s : State) (poolId : Bytes32) (p : Pool) : State :=
  { s with pools := Function.update s.pools poolId p }

/-- Write one signer's authorization. -/
def State.setAuthorized (s : State) (poolId : Bytes32) (signer : Address)
    (a : Authorization) : State :=
  { s with
    authorized :=
      Function.update s.authorized poolId (Function.update (s.authorized poolId) signer a) }

/-- Write one lane. -/
def State.setWatermark (s : State) (poolId : Bytes32) (signer provider : Address)
    (w : Lane) : State :=
  { s with
    watermark :=
      Function.update s.watermark poolId
        (Function.update (s.watermark poolId) signer
          (Function.update (s.watermark poolId signer) provider w)) }

/-- Append one event. -/
def State.emit (s : State) (e : Event) : State :=
  { s with log := s.log ++ [e] }

/-! ## Pool lifecycle -/

/-- The constructor's state: bounded parameters and empty storage. -/
def deploy (disputeWindow deliveryFloor minDeposit timestamp : Nat) : Except Error State :=
  if disputeWindow < disputeWindowFloor ∨ disputeWindowCeiling < disputeWindow then
    .error (.paramOutOfBounds disputeWindow disputeWindowFloor disputeWindowCeiling)
  else if deliveryFloor < minRateFloor ∨ maxRatePerMb < deliveryFloor then
    .error (.rateBoundsInvalid deliveryFloor)
  else if minDepositCeiling < minDeposit then
    .error (.paramOutOfBounds minDeposit 0 minDepositCeiling)
  else
    .ok
      { disputeWindow := disputeWindow
        minDeposit := minDeposit
        deliveryFloor := deliveryFloor
        pauseDeadline := timestamp + pauseSunsetPeriod }

/-- `openPool`: credit the measured balance delta to a fresh pool. -/
def openPool (H : Crypto) (tx : Tx) (s : State) (deposit : UInt64) : Except Error State :=
  if s.paused then .error .enforcedPause
  else if deposit = 0 then .error .zeroAmount
  else
    let nonce := s.ownerPoolNonce tx.sender
    let poolId := H.poolIdOf tx.sender nonce
    match tx.transferIn with
    | none => .error .tokenTransferFailed
    | some received =>
      if received = 0 then .error .zeroAmount
      else if received < s.minDeposit then .error (.belowMinDeposit received s.minDeposit)
      else do
        let credited ← toUint64 received
        let p := { s.pools poolId with
          owner := tx.sender, status := .opened, deposit := credited }
        let s := { s with
          ownerPoolNonce := Function.update s.ownerPoolNonce tx.sender (nonce + 1)
          usdcBalance := s.usdcBalance + received }
        return (s.setPool poolId p).emit (.poolOpened poolId tx.sender received)

/-- `topUp`: the owner adds funds to an open pool. -/
def topUp (tx : Tx) (s : State) (poolId : Bytes32) (additionalDeposit : UInt64) :
    Except Error State :=
  let p := s.pools poolId
  if s.paused then .error .enforcedPause
  else if p.status ≠ .opened then .error .poolNotOpen
  else if tx.sender ≠ p.owner then .error .notPoolOwner
  else if additionalDeposit = 0 then .error .zeroAmount
  else
    match tx.transferIn with
    | none => .error .tokenTransferFailed
    | some received =>
      if received = 0 then .error .zeroAmount
      else do
        let credited ← toUint64 received
        let newDeposit ← checkedAdd64 p.deposit credited
        let s := { s with usdcBalance := s.usdcBalance + received }
        return (s.setPool poolId { p with deposit := newDeposit }).emit
          (.poolToppedUp poolId received newDeposit)

/-- `closePool`: the owner starts the grace window.  The deadline is narrowed to
`uint64`. -/
def closePool (tx : Tx) (s : State) (poolId : Bytes32) : Except Error State :=
  let p := s.pools poolId
  if p.status ≠ .opened then .error .poolNotOpen
  else if tx.sender ≠ p.owner then .error .notPoolOwner
  else
    let deadline := (tx.timestamp + s.disputeWindow) % 2 ^ 64
    .ok ((s.setPool poolId { p with status := .closing, disputeDeadline := deadline }).emit
      (.poolCloseInitiated poolId p.owner deadline))

/-- `reclaim`: refund the residual once the grace window has elapsed. -/
def reclaim (tx : Tx) (s : State) (poolId : Bytes32) : Except Error State :=
  let p := s.pools poolId
  if p.status ≠ .closing then .error .poolNotClosing
  else if tx.timestamp < p.disputeDeadline then .error .graceWindowActive
  else do
    let ownerRefund ← checkedSub p.deposit p.totalRedeemed
    let s := s.setPool poolId { p with status := .closed }
    if ownerRefund = 0 then
      return s.emit (.poolReclaimed poolId p.owner ownerRefund)
    else if tx.transferOut = true ∧ ownerRefund ≤ s.usdcBalance then
      return { s with
        usdcBalance := s.usdcBalance - ownerRefund
        transfers := s.transfers ++ [Transfer.mk p.owner ownerRefund] }.emit
        (.poolReclaimed poolId p.owner ownerRefund)
    else .error .tokenTransferFailed

/-! ## Redemption -/

/-- `_registerCapability`: idempotent registration of one signer. -/
def registerCapability (H : Crypto) (tx : Tx) (poolId : Bytes32) (s : State)
    (c : CapabilityReg) : Except Error State :=
  let a := s.authorized poolId c.signer
  if a.cap ≠ 0 ∨ a.expiry ≠ 0 then .ok s
  -- A capability that can pay nothing never claims the registration slot.
  else if c.spendingCap = 0 ∨ c.expiry.toNat ≤ tx.timestamp then .ok s
  else
    let digest := H.capabilityDigest c.signer c.spendingCap.toNat poolId c.expiry.toNat
    let owner := (s.pools poolId).owner
    if H.tryRecover digest c.ownerSig = some owner ∨
        tx.isValidERC1271 owner digest c.ownerSig = true then
      .ok (s.setAuthorized poolId c.signer
        { a with cap := c.spendingCap.toNat, expiry := c.expiry.toNat })
    else .error .invalidCapabilitySignature

/-- The three values `_resolveClaim` returns. -/
structure ResolvedClaim where
  claimed : Nat
  claimedBytes : Nat
  chunkPrice : Nat
deriving DecidableEq, Repr

/-- `_resolveClaim`: unpack the meter word, walk the preimage, extend the
anchor. -/
def resolveClaim (H : Crypto) (v : LaneVoucher) : Except Error ResolvedClaim :=
  let meter := v.chainMeter.toNat
  if meter >>> 72 ≠ 0 then .error .chainMeterReservedNonZero
  else
    let chunkPrice := (meter >>> 8) % 2 ^ 64
    let chainIndex := meter % 2 ^ 8
    if H.keccak256^[chainIndex] v.preimage ≠ v.chainRoot then .error .badPreimage
    else
      let wideClaimed := v.cumulative.toNat + chainIndex * chunkPrice
      let wideBytes := v.bytesDelivered.toNat + chainIndex * chunkBytes
      if u64Max < wideClaimed ∨ u64Max < wideBytes then .error .claimOverflow
      else .ok ⟨wideClaimed, wideBytes, chunkPrice⟩

/-- `_verifyVoucher`: the compact signature recovers to the voucher's signer
over the digest that names the caller as provider. -/
def verifyVoucher (H : Crypto) (tx : Tx) (poolId : Bytes32) (v : LaneVoucher)
    (chunkPrice : Nat) : Except Error Unit :=
  let digest := H.voucherDigest poolId v.signer tx.sender v.cumulative.toNat
    v.bytesDelivered.toNat v.chainRoot chunkPrice
  if H.tryRecoverCompact digest v.r v.vs = some v.signer then .ok ()
  else .error .invalidVoucherSignature

/-- What `_applyVoucher` returns beside the state. -/
structure Payout where
  paid : Nat := 0
  bytesPaid : Nat := 0
  newCumulative : Nat := 0
deriving DecidableEq, Repr

/-- `_applyVoucher`: pay the least of the claim's advance, the signer's room and
the pool's remaining balance.  Every transient-empty voucher writes nothing. -/
def applyVoucher (H : Crypto) (tx : Tx) (poolId : Bytes32) (s : State) (v : LaneVoucher)
    (remaining : Nat) : Except Error (State × Payout) :=
  let a := s.authorized poolId v.signer
  if a.cap = 0 ∧ a.expiry = 0 then .ok (s, {})
  else do
    let claim ← resolveClaim H v
    verifyVoucher H tx poolId v claim.chunkPrice
    let w := s.watermark poolId v.signer tx.sender
    if a.expiry ≤ tx.timestamp then return (s, {})
    else if claim.claimed ≤ w.amount then return (s, {})
    else
      let desired := claim.claimed - w.amount
      let room ← checkedSub a.cap a.spent
      let paid := min desired (min room remaining)
      if paid = 0 then return (s, {})
      else
        let ceiling ← mulDiv claim.claimed bytesPerMb s.deliveryFloor
        let creditedBytes := min claim.claimedBytes ceiling
        let bytesDelta :=
          if w.bytesDelivered < creditedBytes then creditedBytes - w.bytesDelivered else 0
        let share ← mulDiv bytesDelta paid desired
        let floorShare ← mulDiv paid bytesPerMb s.deliveryFloor
        let bytesPaid := min share floorShare
        let amount ← checkedAdd64 w.amount paid
        let bytesDelivered ← checkedAdd64 w.bytesDelivered bytesPaid
        let spent ← checkedAdd64 a.spent paid
        let s := s.setWatermark poolId v.signer tx.sender ⟨amount, bytesDelivered⟩
        return (s.setAuthorized poolId v.signer { a with spent := spent },
          ⟨paid, bytesPaid, amount⟩)

/-- The locals of one pool group's voucher loop. -/
structure GroupAcc where
  state : State
  poolPaid : Nat := 0
  groupBytes : Nat := 0
  settled : List LaneSettled := []

/-- One iteration of a group's voucher loop. -/
def redeemVoucher (H : Crypto) (tx : Tx) (poolId : Bytes32) (remaining : Nat)
    (acc : GroupAcc) (v : LaneVoucher) : Except Error GroupAcc := do
  let left ← checkedSub remaining acc.poolPaid
  let (s, out) ← applyVoucher H tx poolId acc.state v left
  if out.paid = 0 then return { acc with state := s }
  else
    let poolPaid ← checkedAdd64 acc.poolPaid out.paid
    return {
      state := s
      poolPaid := poolPaid
      groupBytes := acc.groupBytes + out.bytesPaid
      settled := acc.settled ++ [⟨v.signer, out.newCumulative, out.bytesPaid⟩] }

/-- The locals of `redeemMany`'s batch loop. -/
structure CallAcc where
  state : State
  totalPaid : Nat := 0
  totalBytes : Nat := 0

/-- The group's status gate: open, or closing before the deadline. -/
def redeemable (tx : Tx) (p : Pool) : Prop :=
  p.status ≠ .closed ∧ ¬ (p.status = .closing ∧ p.disputeDeadline ≤ tx.timestamp)

instance (tx : Tx) (p : Pool) : Decidable (redeemable tx p) := by
  unfold redeemable
  infer_instance

/-- One iteration of the batch loop: gate, register, redeem, then one write of
`totalRedeemed`. -/
def redeemBatch (H : Crypto) (tx : Tx) (acc : CallAcc) (batch : PoolBatch) :
    Except Error CallAcc :=
  let poolId := batch.poolId
  if ¬ redeemable tx (acc.state.pools poolId) then .error .poolClosed
  else do
    let s ← batch.capabilities.foldlM (registerCapability H tx poolId) acc.state
    let remaining ← checkedSub (s.pools poolId).deposit (s.pools poolId).totalRedeemed
    let group ← batch.vouchers.foldlM (redeemVoucher H tx poolId remaining) { state := s }
    if group.poolPaid = 0 then
      return { acc with state := group.state, totalBytes := acc.totalBytes + group.groupBytes }
    else
      let s := group.state
      let p := s.pools poolId
      let totalRedeemed ← checkedAdd64 p.totalRedeemed group.poolPaid
      return {
        state := (s.setPool poolId { p with totalRedeemed := totalRedeemed }).emit
          (.poolRedeemed poolId tx.sender group.settled)
        totalPaid := acc.totalPaid + group.poolPaid
        totalBytes := acc.totalBytes + group.groupBytes }

/-- `_route`: the allowance is exactly `amountDelta`, so the router pulls at most
that, and the token pays at most the balance. -/
def route (tx : Tx) (s : State) (bytesDelta amountDelta : Nat) : Except Error State :=
  match tx.routerPull tx.sender bytesDelta amountDelta with
  | none => .error .routerReverted
  | some pulled =>
    if pulled ≤ amountDelta ∧ pulled ≤ s.usdcBalance then
      .ok { s with
        usdcBalance := s.usdcBalance - pulled
        settlements := s.settlements ++ [⟨tx.sender, bytesDelta, amountDelta⟩] }
    else .error .tokenTransferFailed

/-- `redeemMany`: every batch, then one settlement for the caller. -/
def redeemMany (H : Crypto) (tx : Tx) (s : State) (batches : List PoolBatch) :
    Except Error State := do
  let acc ← batches.foldlM (redeemBatch H tx) { state := s }
  if acc.totalPaid = 0 then return acc.state
  else
    let (nodeId, active) := tx.nodeIdOf tx.sender
    if nodeId = 0 then .error (.providerNotBound tx.sender)
    else route tx acc.state (if active then acc.totalBytes else 0) acc.totalPaid

/-! ## Governance -/

/-- `onlyRole`. -/
def onlyRole (tx : Tx) (role : Role) : Except Error Unit :=
  Guard.require (tx.hasRole role tx.sender) (.unauthorizedAccount tx.sender)

/-- `setDisputeWindow`. -/
def setDisputeWindow (tx : Tx) (s : State) (newWindow : Nat) : Except Error State := do
  onlyRole tx .governance
  if newWindow < disputeWindowFloor ∨ disputeWindowCeiling < newWindow then
    .error (.paramOutOfBounds newWindow disputeWindowFloor disputeWindowCeiling)
  else
    return { s with disputeWindow := newWindow }.emit
      (.disputeWindowUpdated s.disputeWindow newWindow)

/-- `setRateBounds`. -/
def setRateBounds (tx : Tx) (s : State) (newFloor : Nat) : Except Error State := do
  onlyRole tx .governance
  if newFloor < minRateFloor ∨ maxRatePerMb < newFloor then .error (.rateBoundsInvalid newFloor)
  else return { s with deliveryFloor := newFloor }.emit (.rateBoundsUpdated newFloor)

/-- `setMinDeposit`. -/
def setMinDeposit (tx : Tx) (s : State) (newMin : UInt64) : Except Error State := do
  onlyRole tx .governance
  if minDepositCeiling < newMin.toNat then
    .error (.paramOutOfBounds newMin.toNat 0 minDepositCeiling)
  else
    return { s with minDeposit := newMin.toNat }.emit
      (.minDepositUpdated s.minDeposit newMin.toNat)

/-- `pause`, until the sunset. -/
def pause (tx : Tx) (s : State) : Except Error State := do
  onlyRole tx .pauser
  Guard.pausable tx.timestamp s.pauseDeadline s.paused .pauseExpired .enforcedPause
  return { s with paused := true }

/-- `unpause`. -/
def unpause (tx : Tx) (s : State) : Except Error State := do
  onlyRole tx .pauser
  Guard.require s.paused .expectedPause
  return { s with paused := false }

/-! ## Calls and runs -/

/-- The external state-changing functions. -/
inductive Call where
  | openPool (deposit : UInt64)
  | topUp (poolId : Bytes32) (additionalDeposit : UInt64)
  | closePool (poolId : Bytes32)
  | reclaim (poolId : Bytes32)
  | redeemMany (batches : List PoolBatch)
  | setDisputeWindow (newWindow : Nat)
  | setRateBounds (newFloor : Nat)
  | setMinDeposit (newMin : UInt64)
  | pause
  | unpause

/-- Execute one external call. -/
def exec (H : Crypto) (tx : Tx) (s : State) : Call → Except Error State
  | .openPool deposit => openPool H tx s deposit
  | .topUp poolId additionalDeposit => topUp tx s poolId additionalDeposit
  | .closePool poolId => closePool tx s poolId
  | .reclaim poolId => reclaim tx s poolId
  | .redeemMany batches => redeemMany H tx s batches
  | .setDisputeWindow newWindow => setDisputeWindow tx s newWindow
  | .setRateBounds newFloor => setRateBounds tx s newFloor
  | .setMinDeposit newMin => setMinDeposit tx s newMin
  | .pause => pause tx s
  | .unpause => unpause tx s

/-- The contract together with the chain's clock. -/
structure World where
  now : Nat
  contract : State

/-- One event of a run.  A reverted call changes nothing, so it is not a step of
its own; anybody may send USDC to the contract. -/
inductive Step (H : Crypto) : World → World → Prop where
  | call {w : World} {s : State} (tx : Tx) (c : Call) (hnow : w.now ≤ tx.timestamp)
      (hexec : exec H tx w.contract c = .ok s) : Step H w ⟨tx.timestamp, s⟩
  | donation {w : World} (amount : Nat) :
      Step H w ⟨w.now, { w.contract with usdcBalance := w.contract.usdcBalance + amount }⟩

/-- The worlds a deployment can reach. -/
inductive Reachable (H : Crypto) : World → Prop where
  | deployed {s : State} (disputeWindow deliveryFloor minDeposit timestamp : Nat)
      (h : deploy disputeWindow deliveryFloor minDeposit timestamp = .ok s) :
      Reachable H ⟨timestamp, s⟩
  | step {w w' : World} (h : Reachable H w) (hstep : Step H w w') : Reachable H w'

end Decdn.PaymentPool
