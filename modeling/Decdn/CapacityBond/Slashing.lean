import Decdn.CapacityBond.Registry

/-!
# Slashing and escrow finality

`CapacityBond.slash` and the escrow state machine of
`contracts/src/SlashEscrowLib.sol`.  A slash moves TOKEN from an operator's bond
into the escrow of one record; the record then resolves once, by distribution to
the challenger and the burn or by refund to the operator.

Main definitions:

- Definition `slash`: reduce the bond, mint the record, stamp and auto-eject.
- Definition `finalizeUnappealedSlash`, Definition `settleAppealUpheld` and
  Definition `settleAppealGranted`: the three ways an escrow resolves.
-/

namespace Decdn.CapacityBond

/-! ## Payments -/

/-- Pay TOKEN out, if there is anything to pay.  The token pays at most the
balance. -/
def payOut (tx : Tx) (s : State) (p : Payment) : Except Error State :=
  if p.amount = 0 then .ok s
  else if tx.transferOut = true ∧ p.amount ≤ s.tokenBalance then
    .ok { s with
      tokenBalance := s.tokenBalance - p.amount
      payments := s.payments ++ [p] }
  else .error .tokenTransferFailed

/-! ## Minting a slash -/

/-- `_reduceBondAtTier`. -/
def reduceBondAtTier (s : State) (operator : Address) (tierBps : Nat) :
    Except Error (State × Nat) := do
  let r ← reduceAtTier (s.activeBond operator) (s.unbondingOf operator).amount tierBps
  return ({ s with
    activeBond := Function.update s.activeBond operator r.newActive
    unbondingOf := Function.update s.unbondingOf operator
      { s.unbondingOf operator with amount := r.newUnbonding } }, r.slashAmount)

/-- `_mintSlashRecord` and `SlashEscrowLib.mint`: take the next id, book the escrow
and write the record. -/
def mintSlashRecord (tx : Tx) (s : State) (operator challenger : Address)
    (totalSlashAmount : Nat) (offenseType : UInt8) (evidenceHash : Bytes32) :
    Except Error (State × Nat) := do
  let slashId := s.slashCounter
  let escrowedTotal ← checkedAdd u256Max s.escrowedTotal totalSlashAmount
  let nowTs := tx.timestamp % 2 ^ 64
  let windowClose ← checkedAdd u64Max nowTs appealFilingWindow
  let s := { s with
    -- The counter is incremented unchecked.
    slashCounter := (slashId + 1) % 2 ^ 256
    escrowedTotal := escrowedTotal
    slashRecords := Function.update s.slashRecords slashId
      { operator := operator
        slashedAt := nowTs
        status := .escrowed
        offenseType := offenseType
        challenger := challenger
        appealWindowClose := windowClose
        slashAmount := totalSlashAmount
        evidenceHash := evidenceHash }
    operatorSlashIds := Function.update s.operatorSlashIds operator
      (s.operatorSlashIds operator ++ [slashId]) }
  return ((s.emit (.slashRecorded slashId operator nowTs totalSlashAmount)).emit
    (.slashEscrowed slashId operator totalSlashAmount windowClose), slashId)

/-- `_maybeAutoEject`: eject below half the entry floor, or half the live
`minBond` for an operator that never crossed it. -/
def maybeAutoEject (s : State) (operator : Address) : Except Error State :=
  let entryFloor := s.bondFloorAtActivation operator
  let floor := if entryFloor = 0 then s.params.minBond else entryFloor
  if floor / 2 ≤ s.activeBond operator ∨ s.ejected operator = true then .ok s
  else do
    let s := { s with ejected := Function.update s.ejected operator true }
    let (s, nodeId) ← ejectNodeEffects s operator
    let s := s.emit (.autoEjected operator (s.activeBond operator))
    if nodeId = 0 then return s
    else return s.emit (.nodeAutoEjected nodeId (s.activeBond operator))

/-- `_stampSlash`. -/
def stampSlash (tx : Tx) (s : State) (operator challenger : Address) (offenseType : UInt8)
    (totalSlash newCount : Nat) : Except Error State := do
  let stamp ← checkedAdd u64Max (tx.timestamp / epochLength % 2 ^ 64) 1
  let s := { s with slashedAtEpoch := Function.update s.slashedAtEpoch operator stamp }.emit
    (.slashedAtEpochStamped operator stamp)
  let s ← maybeAutoEject s operator
  return s.emit (.slashed operator challenger offenseType newCount totalSlash)

/-- The slash tier of an operator's `count`-th offense. -/
def tierBps (count : Nat) : Nat :=
  if count = 1 then slashBpsTier1 else if count = 2 then slashBpsTier2 else slashBpsTier3

/-- `slash`: returns the new record's id and the amount taken. -/
def slash (tx : Tx) (s : State) (operator challenger : Address) (offenseType : UInt8)
    (evidenceHash : Bytes32) : Except Error (State × Nat × Nat) := do
  whenNotPaused s
  onlyRole tx .slash
  if operator = 0 ∨ challenger = 0 then .error .zeroAddress
  else
    let newCount ← checkedAdd u32Max (s.lifetimeOffenseCount operator) 1
    let s := { s with
      lifetimeOffenseCount := Function.update s.lifetimeOffenseCount operator newCount }
    let (s, totalSlash) ← reduceBondAtTier s operator (tierBps newCount)
    let (s, slashId) ← mintSlashRecord tx s operator challenger totalSlash offenseType evidenceHash
    let s ← stampSlash tx s operator challenger offenseType totalSlash newCount
    return (s, slashId, totalSlash)

/-! ## SlashEscrowLib -/

/-- Move a record to a new status. -/
def State.setSlashStatus (s : State) (slashId : Nat) (status : SlashStatus) : State :=
  { s with
    slashRecords := Function.update s.slashRecords slashId
      { s.slashRecords slashId with status := status } }

/-- `_distribute`: half to the challenger, the rest burned.  Returns the escrow
released. -/
def distribute (tx : Tx) (s : State) (slashId : Nat) (viaAppeal : Bool) :
    Except Error (State × Nat) := do
  let r := s.slashRecords slashId
  let s := s.setSlashStatus slashId .upheld
  let scaled ← checkedMul r.slashAmount challengerBps
  let challengerShare := scaled / bpsDenominator
  let burnShare ← checkedSub r.slashAmount challengerShare
  let s ← payOut tx s (.transfer r.challenger challengerShare)
  let s ← payOut tx s (.burn burnShare)
  return (s.emit (.slashUpheld slashId viaAppeal challengerShare burnShare), r.slashAmount)

/-- The filing deadline of a record, extended by the paused time. -/
def closeAt (s : State) (slashId : Nat) : Except Error Nat :=
  checkedAdd u64Max (s.slashRecords slashId).appealWindowClose s.pausedTotal

/-- `SlashEscrowLib.finalizeUnappealed`. -/
def finalizeUnappealed (tx : Tx) (s : State) (slashId : Nat) : Except Error (State × Nat) :=
  if s.slashCounter ≤ slashId then .error (.unknownSlash slashId)
  else if (s.slashRecords slashId).status ≠ .escrowed then .error (.slashNotEscrowed slashId)
  else do
    let closeAt ← closeAt s slashId
    if tx.timestamp ≤ closeAt then .error (.filingWindowStillOpen closeAt)
    else distribute tx s slashId false

/-- Release `amount` from `escrowedTotal`. -/
def releaseEscrow (s : State) (amount : Nat) : Except Error State := do
  let escrowedTotal ← checkedSub s.escrowedTotal amount
  return { s with escrowedTotal := escrowedTotal }

/-- `finalizeUnappealedSlash`: anyone distributes a slash whose filing window
lapsed. -/
def finalizeUnappealedSlash (tx : Tx) (s : State) (slashId : Nat) : Except Error State := do
  whenNotPaused s
  let (s, amount) ← finalizeUnappealed tx s slashId
  releaseEscrow s amount

/-- `markAppealOpen`: lock an escrowed record while its appeal runs. -/
def markAppealOpen (tx : Tx) (s : State) (slashId : Nat) : Except Error State := do
  whenNotPaused s
  onlyRole tx .slashAppeal
  if s.slashCounter ≤ slashId then .error (.unknownSlash slashId)
  else if (s.slashRecords slashId).status ≠ .escrowed then .error (.slashNotEscrowed slashId)
  else
    let closeAt ← closeAt s slashId
    if closeAt < tx.timestamp then .error (.filingWindowClosed closeAt)
    else
      return (s.setSlashStatus slashId .appealOpen).emit
        (.slashAppealOpened slashId (s.slashRecords slashId).operator)

/-- `creditPauseTime`. -/
def creditPauseTime (tx : Tx) (s : State) (delta : Nat) : Except Error State := do
  onlyRole tx .slashAppeal
  let pausedTotal ← checkedAdd u64Max s.pausedTotal delta
  return { s with pausedTotal := pausedTotal }

/-- `SlashEscrowLib.settleUpheld`. -/
def settleUpheld (tx : Tx) (s : State) (slashId : Nat) : Except Error (State × Nat) :=
  if s.slashCounter ≤ slashId then .error (.unknownSlash slashId)
  else if (s.slashRecords slashId).status ≠ .appealOpen then .error (.slashAppealNotOpen slashId)
  else distribute tx s slashId true

/-- `settleAppealUpheld`: distribute the escrow of an upheld appeal. -/
def settleAppealUpheld (tx : Tx) (s : State) (slashId : Nat) : Except Error State := do
  whenNotPaused s
  onlyRole tx .slashAppeal
  let (s, amount) ← settleUpheld tx s slashId
  releaseEscrow s amount

/-- `_recomputeSlashedAtEpoch`: the newest standing slash decides the stamp. -/
def recomputeSlashedAtEpoch (s : State) (operator : Address) : State :=
  let standing := (s.operatorSlashIds operator).reverse.find?
    fun id => (s.slashRecords id).status ≠ .reversed
  let newStamp := match standing with
    | none => 0
    | some id => (s.slashRecords id).slashedAt / epochLength % 2 ^ 64 + 1
  { s with slashedAtEpoch := Function.update s.slashedAtEpoch operator newStamp }.emit
    (.slashedAtEpochStamped operator newStamp)

/-- `SlashEscrowLib.settleGranted`: mark the record reversed and return the
operator and the refund. -/
def settleGranted (s : State) (slashId : Nat) : Except Error (State × Address × Nat) :=
  if s.slashCounter ≤ slashId then .error (.unknownSlash slashId)
  else if (s.slashRecords slashId).status ≠ .appealOpen then .error (.slashAppealNotOpen slashId)
  else
    let r := s.slashRecords slashId
    let s := recomputeSlashedAtEpoch (s.setSlashStatus slashId .reversed) r.operator
    .ok (s.emit (.slashReversed slashId r.operator r.slashAmount), r.operator, r.slashAmount)

/-- `settleAppealGranted`: refund the escrow of a granted appeal. -/
def settleAppealGranted (tx : Tx) (s : State) (slashId : Nat) : Except Error State := do
  whenNotPaused s
  onlyRole tx .slashAppeal
  let (s, operator, refund) ← settleGranted s slashId
  let s ← releaseEscrow s refund
  payOut tx s (.transfer operator refund)

end Decdn.CapacityBond
