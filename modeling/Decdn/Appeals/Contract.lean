import Decdn.CapacityBond.SlashingSpec
import Decdn.Foundations.Guards

/-!
# The SlashAppeal contract

An operator that was slashed may file an appeal with a bond in TOKEN.  The emergency multisig
forwards or rejects it, governance decides a forwarded one, and an appeal that nobody decides
in time lapses.  The escrow itself stays in CapacityBond, which this contract calls in the
same transaction.  This file embeds `contracts/src/SlashAppeal.sol`.

Main definitions:

- Structure `State`: the storage, the TOKEN balance, the payments made and the events emitted.
- Definition `exec`: one external call, with the storage of CapacityBond before and after it.

Main results:

- Theorem `exec_move`: what a successful call can do.
-/

namespace Decdn.SlashAppeal

open CapacityBond (Payment)

/-! ## Data model -/

/-- `AppealStatus`. -/
inductive AppealStatus where
  | none
  | opened
  | fastTracked
  | resolved
deriving DecidableEq, Repr

/-- One appeal. -/
structure Appeal where
  appellant : Address := 0
  operator : Address := 0
  bond : Nat := 0
  evidenceBundleHash : Bytes32 := 0
  openedAt : Nat := 0
  fastTrackedAt : Nat := 0
  status : AppealStatus := .none
deriving DecidableEq, Repr

/-- The events of the contract. -/
inductive Event where
  | appealOpened (slashId : Nat) (operator appellant : Address) (bond : Nat)
      (evidenceBundleHash : Bytes32)
  | appealFastTracked (slashId : Nat)
  | appealRejected (slashId bondBurned : Nat)
  | appealGranted (slashId : Nat) (operator : Address) (bondRefunded : Nat)
  | appealUpheld (slashId bondBurned : Nat)
  | appealLapsed (slashId : Nat) (reason : UInt8)
  | appealBondUpdated (oldValue newValue : Nat)
deriving DecidableEq, Repr

/-- Every way a call reverts. -/
inductive Error where
  | zeroAddress
  | unknownSlash (slashId : Nat)
  | callerNotOperator (operator : Address)
  | frequencyCapHit (nextAvailableAt : Nat)
  | appealAlreadyExists (slashId : Nat)
  | appealPending (operator : Address)
  | appealNotOpen (slashId : Nat)
  | appealNotFastTracked (slashId : Nat)
  | reviewWindowOpen (readyAt : Nat)
  | ratificationWindowOpen (readyAt : Nat)
  | paramOutOfBounds (value floor ceiling : Nat)
  | enforcedPause
  | expectedPause
  | pauseExpired
  | unauthorizedAccount (account : Address)
  | tokenTransferFailed
  | arithmeticPanic
  | capacityBond (e : CapacityBond.Error)
deriving DecidableEq, Repr

/-- The roles the contract gates on. -/
inductive Role where
  | governance
  | emergencyMultisig
  | pauser
deriving DecidableEq, Repr

/-- One transaction and what other contracts answer while it runs. -/
structure Tx where
  sender : Address
  sender_ne_zero : sender ≠ 0
  /-- The environment of the calls that the contract makes on CapacityBond. -/
  bond : CapacityBond.Tx
  /-- `AccessControl.hasRole`. -/
  hasRole : Role → Address → Bool
  /-- Whether the token performs `safeTransferFrom` of the stated amount. -/
  transferFrom : Bool
  /-- Whether the token performs `safeTransfer` and `burn` of the stated amount. -/
  transferOut : Bool

/-- `block.timestamp`. -/
def Tx.timestamp (tx : Tx) : Nat := tx.bond.timestamp

def appealReviewWindow : Nat := 14 * 24 * 3600
def appealRatificationWindow : Nat := 14 * 24 * 3600
def appealFrequencyWindow : Nat := 365 * 24 * 3600
def appealBondFloor : Nat := 100 * wad
def appealBondCeiling : Nat := 10000 * wad

/-- Contract storage, its TOKEN balance, the payments made and the events emitted so far. -/
structure State where
  appealBond : Nat
  appeals : Nat → Appeal := fun _ => {}
  lastAcceptedAppealAt : Address → Nat := fun _ => 0
  hasOpenAppeal : Address → Bool := fun _ => false
  paused : Bool := false
  pausedAt : Nat := 0
  pauseDeadline : Nat
  tokenBalance : Nat := 0
  payments : List Payment := []
  log : List Event := []

/-- Append one event. -/
def State.emit (s : State) (e : Event) : State :=
  { s with log := s.log ++ [e] }

/-! ## Guards -/

/-- `onlyRole`. -/
def onlyRole (tx : Tx) (role : Role) : Except Error Unit :=
  Guard.require (tx.hasRole role tx.sender) (.unauthorizedAccount tx.sender)

/-- `whenNotPaused`. -/
def whenNotPaused (s : State) : Except Error Unit :=
  Guard.require (!s.paused) .enforcedPause

/-- Checked 64-bit addition. -/
def checkedAdd : Nat → Nat → Except Error Nat := Guard.add u64Max .arithmeticPanic

/-- A call on CapacityBond: its revert is the caller's. -/
def onCapacityBond {α : Type} : Except CapacityBond.Error α → Except Error α
  | .ok a => .ok a
  | .error e => .error (.capacityBond e)

/-- Pay TOKEN out, if there is anything to pay. -/
def payOut (tx : Tx) (s : State) (p : Payment) : Except Error State :=
  if p.amount = 0 then .ok s
  else if tx.transferOut = true ∧ p.amount ≤ s.tokenBalance then
    .ok { s with tokenBalance := s.tokenBalance - p.amount, payments := s.payments ++ [p] }
  else .error .tokenTransferFailed

/-- `_enforceAppealBondBounds`. -/
def enforceAppealBondBounds (value : Nat) : Except Error Unit :=
  Guard.within value appealBondFloor appealBondCeiling
    (.paramOutOfBounds value appealBondFloor appealBondCeiling)

/-! ## The appeal lifecycle -/

/-- `CapacityBond.slashRecords`: the operator of a record. -/
def slashOperator (b : CapacityBond.State) (slashId : Nat) : Except Error Address :=
  if b.slashCounter ≤ slashId then .error (.capacityBond (.unknownSlash slashId))
  else .ok (b.slashRecords slashId).operator

/-- The frequency cap: a year from the last accepted appeal of the operator. -/
def checkFrequency (tx : Tx) (s : State) (operator : Address) : Except Error Unit :=
  let last := s.lastAcceptedAppealAt operator
  if last = 0 then .ok ()
  else do
    let nextAvailable ← checkedAdd last appealFrequencyWindow
    if tx.timestamp < nextAvailable then .error (.frequencyCapHit nextAvailable) else .ok ()

/-- `openSlashAppeal`, which has no pause guard. -/
def openSlashAppeal (tx : Tx) (b : CapacityBond.State) (s : State) (slashId : Nat)
    (evidenceBundleHash : Bytes32) : Except Error (State × CapacityBond.State) := do
  let operator ← slashOperator b slashId
  if operator = 0 then .error (.unknownSlash slashId)
  else if tx.sender ≠ operator then .error (.callerNotOperator operator)
  else if (s.appeals slashId).status ≠ .none then .error (.appealAlreadyExists slashId)
  else if s.hasOpenAppeal operator = true then .error (.appealPending operator)
  else
    checkFrequency tx s operator
    let bond := s.appealBond
    let s := { s with
      appeals := Function.update s.appeals slashId
        { appellant := tx.sender
          operator := operator
          bond := bond
          evidenceBundleHash := evidenceBundleHash
          openedAt := tx.timestamp % 2 ^ 64
          fastTrackedAt := 0
          status := .opened }
      hasOpenAppeal := Function.update s.hasOpenAppeal operator true }
    if tx.transferFrom = false then .error .tokenTransferFailed
    else
      let s := { s with tokenBalance := s.tokenBalance + bond }
      let b ← onCapacityBond (CapacityBond.markAppealOpen tx.bond b slashId)
      return (s.emit (.appealOpened slashId operator tx.sender bond evidenceBundleHash), b)

/-- `fastTrackAppeal`. -/
def fastTrackAppeal (tx : Tx) (s : State) (slashId : Nat) : Except Error State := do
  whenNotPaused s
  onlyRole tx .emergencyMultisig
  if (s.appeals slashId).status ≠ .opened then .error (.appealNotOpen slashId)
  else
    return { s with
      appeals := Function.update s.appeals slashId
        { s.appeals slashId with
          status := .fastTracked
          fastTrackedAt := tx.timestamp % 2 ^ 64 } }.emit (.appealFastTracked slashId)

/-- The bond leaves the appeal, and `_markResolved`. -/
def markResolved (s : State) (slashId : Nat) : State :=
  { s with
    appeals := Function.update s.appeals slashId
      { s.appeals slashId with bond := 0, status := .resolved }
    hasOpenAppeal := Function.update s.hasOpenAppeal (s.appeals slashId).operator false }

/-- The end of an appeal against the operator: the slash stands and the bond is burned. -/
def settleUpheld (tx : Tx) (b : CapacityBond.State) (s : State) (slashId : Nat) (e : Event) :
    Except Error (State × CapacityBond.State) := do
  let bondBurned := (s.appeals slashId).bond
  let s := markResolved s slashId
  let b ← onCapacityBond (CapacityBond.settleAppealUpheld tx.bond b slashId)
  let s ← payOut tx s (.burn bondBurned)
  return (s.emit e, b)

/-- The end of an appeal for the operator: the slash is reversed and the bond refunded. -/
def settleGranted (tx : Tx) (b : CapacityBond.State) (s : State) (slashId : Nat) (e : Event) :
    Except Error (State × CapacityBond.State) := do
  let bondRefund := (s.appeals slashId).bond
  let appellant := (s.appeals slashId).appellant
  let operator := (s.appeals slashId).operator
  let s := markResolved s slashId
  let s := { s with
    lastAcceptedAppealAt :=
      Function.update s.lastAcceptedAppealAt operator (tx.timestamp % 2 ^ 64) }
  let b ← onCapacityBond (CapacityBond.settleAppealGranted tx.bond b slashId)
  let s ← payOut tx s (.transfer appellant bondRefund)
  return (s.emit e, b)

/-- `rejectAppeal`. -/
def rejectAppeal (tx : Tx) (b : CapacityBond.State) (s : State) (slashId : Nat) :
    Except Error (State × CapacityBond.State) := do
  whenNotPaused s
  onlyRole tx .emergencyMultisig
  if (s.appeals slashId).status ≠ .opened then .error (.appealNotOpen slashId)
  else settleUpheld tx b s slashId (.appealRejected slashId (s.appeals slashId).bond)

/-- `grantAppeal`. -/
def grantAppeal (tx : Tx) (b : CapacityBond.State) (s : State) (slashId : Nat) :
    Except Error (State × CapacityBond.State) := do
  whenNotPaused s
  onlyRole tx .governance
  if (s.appeals slashId).status ≠ .fastTracked then .error (.appealNotFastTracked slashId)
  else
    settleGranted tx b s slashId
      (.appealGranted slashId (s.appeals slashId).operator (s.appeals slashId).bond)

/-- `upholdAppeal`. -/
def upholdAppeal (tx : Tx) (b : CapacityBond.State) (s : State) (slashId : Nat) :
    Except Error (State × CapacityBond.State) := do
  whenNotPaused s
  onlyRole tx .governance
  if (s.appeals slashId).status ≠ .fastTracked then .error (.appealNotFastTracked slashId)
  else settleUpheld tx b s slashId (.appealUpheld slashId (s.appeals slashId).bond)

/-- A window from a stamp, extended by the paused time. -/
def readyAt (b : CapacityBond.State) (stamp window : Nat) : Except Error Nat := do
  let closing ← checkedAdd stamp window
  checkedAdd closing b.pausedTotal

/-- `cleanupExpiredAppeal`: by anybody.  An appeal that was not forwarded lapses against the
operator, a forwarded one that was not decided for the operator. -/
def cleanupExpiredAppeal (tx : Tx) (b : CapacityBond.State) (s : State) (slashId : Nat) :
    Except Error (State × CapacityBond.State) := do
  whenNotPaused s
  match (s.appeals slashId).status with
  | .opened =>
    let ready ← readyAt b (s.appeals slashId).openedAt appealReviewWindow
    if tx.timestamp < ready then .error (.reviewWindowOpen ready)
    else settleUpheld tx b s slashId (.appealLapsed slashId 1)
  | .fastTracked =>
    let ready ← readyAt b (s.appeals slashId).fastTrackedAt appealRatificationWindow
    if tx.timestamp < ready then .error (.ratificationWindowOpen ready)
    else settleGranted tx b s slashId (.appealLapsed slashId 2)
  | .none | .resolved => .error (.appealNotOpen slashId)

/-! ## Governance and pause -/

/-- `setAppealBond`: appeals that are open keep the bond they were filed with. -/
def setAppealBond (tx : Tx) (s : State) (newBond : Nat) : Except Error State := do
  onlyRole tx .governance
  enforceAppealBondBounds newBond
  return { s with appealBond := newBond }.emit (.appealBondUpdated s.appealBond newBond)

/-- `pause`, until the sunset. -/
def pause (tx : Tx) (s : State) : Except Error State := do
  onlyRole tx .pauser
  Guard.pausable tx.timestamp s.pauseDeadline s.paused .pauseExpired .enforcedPause
  return { s with paused := true, pausedAt := tx.timestamp % 2 ^ 64 }

/-- `unpause`: credits the pause that ends to the paused time that CapacityBond keeps. -/
def unpause (tx : Tx) (b : CapacityBond.State) (s : State) :
    Except Error (State × CapacityBond.State) := do
  onlyRole tx .pauser
  let delta ← Guard.sub .arithmeticPanic (tx.timestamp % 2 ^ 64) s.pausedAt
  Guard.require s.paused .expectedPause
  let s := { s with paused := false, pausedAt := 0 }
  if delta = 0 then return (s, b)
  else
    let b ← onCapacityBond (CapacityBond.creditPauseTime tx.bond b delta)
    return (s, b)

/-- The constructor. -/
def deploy (tx : Tx) (token capacityBond admin : Address) (appealBond : Nat) :
    Except Error State :=
  if token = 0 ∨ capacityBond = 0 ∨ admin = 0 then .error .zeroAddress
  else do
    enforceAppealBondBounds appealBond
    return { appealBond := appealBond,
             pauseDeadline := tx.timestamp + CapacityBond.pauseSunsetPeriod }

/-- The external state-changing functions. -/
inductive Call where
  | openSlashAppeal (slashId : Nat) (evidenceBundleHash : Bytes32)
  | fastTrackAppeal (slashId : Nat)
  | rejectAppeal (slashId : Nat)
  | grantAppeal (slashId : Nat)
  | upholdAppeal (slashId : Nat)
  | cleanupExpiredAppeal (slashId : Nat)
  | setAppealBond (newBond : Nat)
  | pause
  | unpause
deriving DecidableEq, Repr

/-- Execute one external call. -/
def exec (tx : Tx) (b : CapacityBond.State) (s : State) :
    Call → Except Error (State × CapacityBond.State)
  | .openSlashAppeal slashId evidenceBundleHash => openSlashAppeal tx b s slashId evidenceBundleHash
  | .fastTrackAppeal slashId => (·, b) <$> fastTrackAppeal tx s slashId
  | .rejectAppeal slashId => rejectAppeal tx b s slashId
  | .grantAppeal slashId => grantAppeal tx b s slashId
  | .upholdAppeal slashId => upholdAppeal tx b s slashId
  | .cleanupExpiredAppeal slashId => cleanupExpiredAppeal tx b s slashId
  | .setAppealBond newBond => (·, b) <$> setAppealBond tx s newBond
  | .pause => (·, b) <$> pause tx s
  | .unpause => unpause tx b s

variable {tx : Tx} {b b' : CapacityBond.State} {s s' : State}

/-! ## Specifications -/

theorem Tx.timestamp_mod (tx : Tx) : tx.timestamp % 2 ^ 64 = tx.timestamp :=
  CapacityBond.timestamp_mod tx.bond

theorem onlyRole_eq_ok {role : Role} {u : Unit} :
    onlyRole tx role = .ok u ↔ tx.hasRole role tx.sender = true :=
  Guard.require_eq_ok

theorem whenNotPaused_eq_ok {u : Unit} : whenNotPaused s = .ok u ↔ s.paused = false :=
  Guard.require_not_eq_ok

theorem checkedAdd_eq_ok {m n r : Nat} :
    checkedAdd m n = .ok r ↔ m + n ≤ u64Max ∧ r = m + n :=
  Guard.add_eq_ok

theorem onCapacityBond_eq_ok {α : Type} {x : Except CapacityBond.Error α} {a : α} :
    onCapacityBond x = .ok a ↔ x = .ok a := by
  cases x <;> simp [onCapacityBond]

theorem payOut_cases {p : Payment} (h : payOut tx s p = .ok s') :
    p.amount ≤ s.tokenBalance ∧ s' = { s with
      tokenBalance := s.tokenBalance - p.amount
      payments := s.payments ++ CapacityBond.paid p } := by
  unfold payOut at h
  split at h
  · rename_i hzero
    rcases Except.ok.inj h with rfl
    simp [CapacityBond.paid, hzero]
  · rename_i hne
    split at h
    · rename_i hpays
      rcases Except.ok.inj h with rfl
      exact ⟨hpays.2, by simp [CapacityBond.paid, hne]⟩
    · cases h

theorem readyAt_eq_ok {stamp window ready : Nat} :
    readyAt b stamp window = .ok ready ↔
      stamp + window + b.pausedTotal ≤ u64Max ∧ ready = stamp + window + b.pausedTotal := by
  simp only [readyAt, bind_eq_ok, checkedAdd_eq_ok]
  constructor
  · rintro ⟨_, ⟨-, rfl⟩, hfits, rfl⟩
    exact ⟨hfits, rfl⟩
  · rintro ⟨hfits, rfl⟩
    exact ⟨_, ⟨by omega, rfl⟩, hfits, rfl⟩

/-- The last accepted appeal of the operator, if there is one, is a year back. -/
def Rested (s : State) (operator : Address) (time : Nat) : Prop :=
  s.lastAcceptedAppealAt operator = 0 ∨
    s.lastAcceptedAppealAt operator + appealFrequencyWindow ≤ time

theorem checkFrequency_cases {operator : Address} {u : Unit}
    (h : checkFrequency tx s operator = .ok u) : Rested s operator tx.timestamp := by
  unfold checkFrequency at h
  simp only at h
  split at h
  · rename_i hzero
    exact .inl hzero
  · simp only [bind_eq_ok, checkedAdd_eq_ok] at h
    rcases h with ⟨_, ⟨-, rfl⟩, h⟩
    split at h
    · cases h
    · rename_i hlate
      exact .inr (not_lt.mp hlate)

/-! ## What a call can do -/

/-- The storage after an appeal is filed. -/
def filedState (tx : Tx) (s : State) (slashId : Nat) (evidenceBundleHash : Bytes32) : State :=
  State.emit { s with
    appeals := Function.update s.appeals slashId
      { appellant := tx.sender
        operator := tx.sender
        bond := s.appealBond
        evidenceBundleHash := evidenceBundleHash
        openedAt := tx.timestamp
        fastTrackedAt := 0
        status := .opened }
    hasOpenAppeal := Function.update s.hasOpenAppeal tx.sender true
    tokenBalance := s.tokenBalance + s.appealBond }
    (.appealOpened slashId tx.sender tx.sender s.appealBond evidenceBundleHash)

/-- The storage after an appeal is forwarded. -/
def forwardedState (tx : Tx) (s : State) (slashId : Nat) : State :=
  State.emit { s with
    appeals := Function.update s.appeals slashId
      { s.appeals slashId with status := .fastTracked, fastTrackedAt := tx.timestamp } }
    (.appealFastTracked slashId)

/-- The storage after an appeal is closed against the operator. -/
def upheldState (s : State) (slashId : Nat) (e : Event) : State :=
  State.emit { markResolved s slashId with
    tokenBalance := s.tokenBalance - (s.appeals slashId).bond
    payments := s.payments ++ CapacityBond.paid (.burn (s.appeals slashId).bond) } e

/-- The storage after an appeal is closed for the operator. -/
def grantedState (tx : Tx) (s : State) (slashId : Nat) (e : Event) : State :=
  State.emit { markResolved s slashId with
    lastAcceptedAppealAt :=
      Function.update s.lastAcceptedAppealAt (s.appeals slashId).operator tx.timestamp
    tokenBalance := s.tokenBalance - (s.appeals slashId).bond
    payments := s.payments ++
      CapacityBond.paid (.transfer (s.appeals slashId).appellant (s.appeals slashId).bond) } e

/-- Why an appeal is closed against the operator, and the event that says so. -/
def UpheldBy (tx : Tx) (b : CapacityBond.State) (s : State) (slashId : Nat) (e : Event) : Prop :=
  ((s.appeals slashId).status = .opened ∧ tx.hasRole .emergencyMultisig tx.sender = true ∧
    e = .appealRejected slashId (s.appeals slashId).bond) ∨
  ((s.appeals slashId).status = .fastTracked ∧ tx.hasRole .governance tx.sender = true ∧
    e = .appealUpheld slashId (s.appeals slashId).bond) ∨
  ((s.appeals slashId).status = .opened ∧
    (s.appeals slashId).openedAt + appealReviewWindow + b.pausedTotal ≤ tx.timestamp ∧
    e = .appealLapsed slashId 1)

/-- Why an appeal is closed for the operator, and the event that says so. -/
def GrantedBy (tx : Tx) (b : CapacityBond.State) (s : State) (slashId : Nat) (e : Event) : Prop :=
  (s.appeals slashId).status = .fastTracked ∧
  ((tx.hasRole .governance tx.sender = true ∧
      e = .appealGranted slashId (s.appeals slashId).operator (s.appeals slashId).bond) ∨
    ((s.appeals slashId).fastTrackedAt + appealRatificationWindow + b.pausedTotal ≤ tx.timestamp ∧
      e = .appealLapsed slashId 2))

/-- The effect of one successful call on the storage of both contracts. -/
inductive Move (tx : Tx) (b : CapacityBond.State) (s : State) :
    State → CapacityBond.State → Prop where
  | filed {slashId : Nat} {hash : Bytes32} {b' : CapacityBond.State}
      (hoperator : (b.slashRecords slashId).operator = tx.sender)
      (hfresh : (s.appeals slashId).status = .none) (hfree : s.hasOpenAppeal tx.sender = false)
      (hrested : Rested s tx.sender tx.timestamp)
      (hmark : CapacityBond.markAppealOpen tx.bond b slashId = .ok b') :
      Move tx b s (filedState tx s slashId hash) b'
  | forwarded {slashId : Nat} (hlive : s.paused = false)
      (hopened : (s.appeals slashId).status = .opened) :
      Move tx b s (forwardedState tx s slashId) b
  | upheld {slashId : Nat} {e : Event} {b' : CapacityBond.State} (hlive : s.paused = false)
      (hcause : UpheldBy tx b s slashId e) (hbond : (s.appeals slashId).bond ≤ s.tokenBalance)
      (hsettle : CapacityBond.settleAppealUpheld tx.bond b slashId = .ok b') :
      Move tx b s (upheldState s slashId e) b'
  | granted {slashId : Nat} {e : Event} {b' : CapacityBond.State} (hlive : s.paused = false)
      (hcause : GrantedBy tx b s slashId e) (hbond : (s.appeals slashId).bond ≤ s.tokenBalance)
      (hsettle : CapacityBond.settleAppealGranted tx.bond b slashId = .ok b') :
      Move tx b s (grantedState tx s slashId e) b'
  | setBond {newBond : Nat} (hfloor : appealBondFloor ≤ newBond)
      (hceiling : newBond ≤ appealBondCeiling) :
      Move tx b s
        ({ s with appealBond := newBond }.emit (.appealBondUpdated s.appealBond newBond)) b
  | pause (hlive : s.paused = false) :
      Move tx b s { s with paused := true, pausedAt := tx.timestamp } b
  | unpause {b' : CapacityBond.State} (hpaused : s.paused = true)
      (hstamp : s.pausedAt ≤ tx.timestamp)
      (hcredit : b' = { b with pausedTotal := b.pausedTotal + (tx.timestamp - s.pausedAt) }) :
      Move tx b s { s with paused := false, pausedAt := 0 } b'

theorem settleUpheld_move {slashId : Nat} {e : Event} (hlive : s.paused = false)
    (hcause : UpheldBy tx b s slashId e) (h : settleUpheld tx b s slashId e = .ok (s', b')) :
    Move tx b s s' b' := by
  simp only [settleUpheld, bind_eq_ok, onCapacityBond_eq_ok, pure_eq_ok, Prod.mk.injEq] at h
  rcases h with ⟨_, hsettle, t, hpay, rfl, rfl⟩
  rcases payOut_cases hpay with ⟨hbond, rfl⟩
  exact .upheld hlive hcause hbond hsettle

theorem settleGranted_move {slashId : Nat} {e : Event} (hlive : s.paused = false)
    (hcause : GrantedBy tx b s slashId e) (h : settleGranted tx b s slashId e = .ok (s', b')) :
    Move tx b s s' b' := by
  simp only [settleGranted, bind_eq_ok, onCapacityBond_eq_ok, pure_eq_ok, Prod.mk.injEq,
    Tx.timestamp_mod] at h
  rcases h with ⟨_, hsettle, t, hpay, rfl, rfl⟩
  rcases payOut_cases hpay with ⟨hbond, rfl⟩
  exact .granted hlive hcause hbond hsettle

theorem openSlashAppeal_move {slashId : Nat} {hash : Bytes32}
    (h : openSlashAppeal tx b s slashId hash = .ok (s', b')) : Move tx b s s' b' := by
  simp only [openSlashAppeal, bind_eq_ok] at h
  rcases h with ⟨operator, hrecord, h⟩
  unfold slashOperator at hrecord
  split at hrecord
  · cases hrecord
  rcases Except.ok.inj hrecord with rfl
  split at h
  · cases h
  split at h
  · cases h
  rename_i hoperator
  split at h
  · cases h
  rename_i hfresh
  split at h
  · cases h
  rename_i hfree
  simp only [bind_eq_ok] at h
  rcases h with ⟨_, hfrequency, h⟩
  split at h
  · cases h
  simp only [bind_eq_ok, onCapacityBond_eq_ok, pure_eq_ok, Prod.mk.injEq, Tx.timestamp_mod] at h
  rcases h with ⟨_, hmark, rfl, rfl⟩
  rw [not_not] at hoperator
  rw [← hoperator] at hfree hfrequency ⊢
  exact .filed hoperator.symm (not_not.mp hfresh) (by simpa using hfree)
    (checkFrequency_cases hfrequency) hmark

theorem cleanupExpiredAppeal_move {slashId : Nat}
    (h : cleanupExpiredAppeal tx b s slashId = .ok (s', b')) : Move tx b s s' b' := by
  simp only [cleanupExpiredAppeal, bind_eq_ok, whenNotPaused_eq_ok] at h
  rcases h with ⟨_, hlive, h⟩
  split at h
  · rename_i hopened
    simp only [bind_eq_ok, readyAt_eq_ok] at h
    rcases h with ⟨_, ⟨-, rfl⟩, h⟩
    split at h
    · cases h
    · rename_i hlate
      exact settleUpheld_move hlive (.inr (.inr ⟨hopened, not_lt.mp hlate, rfl⟩)) h
  · rename_i hforwarded
    simp only [bind_eq_ok, readyAt_eq_ok] at h
    rcases h with ⟨_, ⟨-, rfl⟩, h⟩
    split at h
    · cases h
    · rename_i hlate
      exact settleGranted_move hlive ⟨hforwarded, .inr ⟨not_lt.mp hlate, rfl⟩⟩ h
  · cases h
  · cases h

theorem unpause_move (h : unpause tx b s = .ok (s', b')) : Move tx b s s' b' := by
  simp only [unpause, bind_eq_ok, Guard.sub_eq_ok, Guard.require_eq_ok, Tx.timestamp_mod] at h
  rcases h with ⟨_, -, _, ⟨hstamp, rfl⟩, _, hpaused, h⟩
  split at h
  · rename_i hzero
    rcases Prod.mk.inj (pure_eq_ok.mp h) with ⟨rfl, rfl⟩
    exact .unpause hpaused hstamp (by rw [hzero]; rfl)
  · simp only [bind_eq_ok, onCapacityBond_eq_ok, pure_eq_ok, Prod.mk.injEq] at h
    rcases h with ⟨_, hcredit, rfl, rfl⟩
    exact .unpause hpaused hstamp (CapacityBond.creditPauseTime_cases hcredit).2

/-- A call that does not reach CapacityBond. -/
theorem map_own_cases {x : Except Error State}
    (h : ((·, b) <$> x : Except Error (State × CapacityBond.State)) = .ok (s', b')) :
    x = .ok s' ∧ b' = b := by
  cases x with
  | error e => cases h
  | ok t =>
    rcases Prod.mk.inj (Except.ok.inj h) with ⟨rfl, rfl⟩
    exact ⟨rfl, rfl⟩

/-- Every successful call is one of the moves. -/
theorem exec_move {c : Call} (h : exec tx b s c = .ok (s', b')) : Move tx b s s' b' := by
  cases c with
  | openSlashAppeal slashId hash => exact openSlashAppeal_move h
  | fastTrackAppeal slashId =>
    rcases map_own_cases (x := fastTrackAppeal tx s slashId) h with ⟨hown, rfl⟩
    simp only [fastTrackAppeal, bind_eq_ok, whenNotPaused_eq_ok, Tx.timestamp_mod] at hown
    rcases hown with ⟨_, hlive, _, -, hown⟩
    split at hown
    · cases hown
    · rename_i hopened
      rcases pure_eq_ok.mp hown with rfl
      exact .forwarded hlive (not_not.mp hopened)
  | rejectAppeal slashId =>
    simp only [exec, rejectAppeal, bind_eq_ok, whenNotPaused_eq_ok, onlyRole_eq_ok] at h
    rcases h with ⟨_, hlive, _, hrole, h⟩
    split at h
    · cases h
    · rename_i hopened
      exact settleUpheld_move hlive (.inl ⟨not_not.mp hopened, hrole, rfl⟩) h
  | grantAppeal slashId =>
    simp only [exec, grantAppeal, bind_eq_ok, whenNotPaused_eq_ok, onlyRole_eq_ok] at h
    rcases h with ⟨_, hlive, _, hrole, h⟩
    split at h
    · cases h
    · rename_i hforwarded
      exact settleGranted_move hlive ⟨not_not.mp hforwarded, .inl ⟨hrole, rfl⟩⟩ h
  | upholdAppeal slashId =>
    simp only [exec, upholdAppeal, bind_eq_ok, whenNotPaused_eq_ok, onlyRole_eq_ok] at h
    rcases h with ⟨_, hlive, _, hrole, h⟩
    split at h
    · cases h
    · rename_i hforwarded
      exact settleUpheld_move hlive (.inr (.inl ⟨not_not.mp hforwarded, hrole, rfl⟩)) h
  | cleanupExpiredAppeal slashId => exact cleanupExpiredAppeal_move h
  | setAppealBond newBond =>
    rcases map_own_cases (x := setAppealBond tx s newBond) h with ⟨hown, rfl⟩
    simp only [setAppealBond, bind_eq_ok, pure_eq_ok, enforceAppealBondBounds,
      Guard.within_eq_ok] at hown
    rcases hown with ⟨_, -, _, ⟨hfloor, hceiling⟩, rfl⟩
    exact .setBond hfloor hceiling
  | pause =>
    rcases map_own_cases (x := pause tx s) h with ⟨hown, rfl⟩
    simp only [pause, bind_eq_ok, pure_eq_ok, Guard.pausable_eq_ok, Tx.timestamp_mod] at hown
    rcases hown with ⟨_, -, _, ⟨-, hlive⟩, rfl⟩
    exact .pause hlive
  | unpause => exact unpause_move h

end Decdn.SlashAppeal
