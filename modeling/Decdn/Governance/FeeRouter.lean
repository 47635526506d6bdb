import Decdn.Foundations.CheckedWords
import Decdn.Foundations.Checkpoints
import Decdn.Foundations.FiniteMaps
import Decdn.Foundations.Guards
import Decdn.Foundations.Runs

/-!
# The FeeRouter contract

`contracts/src/FeeRouter.sol`: settlements are split into three legs and their bytes counted for
each operator and epoch, beside the total of each epoch.  The token is what a transaction's
`transfer` answers.

Main results:

- Theorem `Router.Inv.exec`: every call keeps the totals, and the window within its bounds.
- Theorem `Router.Reachable.inv`: they hold after every run.
-/

namespace Decdn.Governance

open Finset

/-! ## Constants -/

def operatorBpsFloor : Nat := 4000
def operatorBpsCeiling : Nat := 9000
def buybackBpsFloor : Nat := 500
def buybackBpsCeiling : Nat := 5000
def treasuryBpsCeiling : Nat := 3000
def windowEpochsFloor : Nat := 4
def windowEpochsCeiling : Nat := 26
def pauseSunsetPeriod : Nat := 365 * 24 * 3600

/-! ## Data model -/

/-- A bucket of a settlement. -/
inductive Bucket where
  | operator
  | buyback
  | treasury
deriving DecidableEq, Repr

/-- The shares of the buckets, in bps. -/
structure Shares where
  operator : Nat
  buyback : Nat
  treasury : Nat
deriving DecidableEq, Repr

/-- The roles of the contract. -/
inductive RouterRole where
  | defaultAdmin
  | governance
  | routerCaller
  | pauser
deriving DecidableEq, Repr

/-- The role that grants and revokes a role. -/
def RouterRole.admin : RouterRole → RouterRole
  | .pauser => .governance
  | _ => .defaultAdmin

/-- Every way a call reverts. -/
inductive RouterError where
  | zeroAddress
  | zeroAmount
  | sharesDoNotSum (sum : Nat)
  | shareOutOfBounds (bucket : Bucket) (value floor ceiling : Nat)
  | nonZeroShareNeedsDestination (bucket : Bucket)
  | windowOutOfBounds (value floor ceiling : Nat)
  | zeroEpochLength
  | epochLengthMismatch (capacityBondEpoch routerEpoch : Nat)
  | unauthorizedAccount (account : Address) (neededRole : RouterRole)
  | badConfirmation
  | enforcedPause
  | expectedPause
  | pauseExpired
  | unorderedInsertion
  | tokenFailed
  | arith (error : ArithError)
deriving DecidableEq, Repr

/-- The events of the contract. -/
inductive RouterEvent where
  | settled (operator : Address) (bytesDelivered amount epoch : Nat)
  | sharesUpdated (newShares : Shares)
  | buybackBurnerUpdated (oldAddr newAddr : Address)
  | treasuryUpdated (oldAddr newAddr : Address)
  | windowEpochsUpdated (oldValue newValue : Nat)
  | paused (account : Address)
  | unpaused (account : Address)
deriving DecidableEq, Repr

/-- One transaction: its caller, its block time, and whether the token moves an amount between two
accounts. -/
structure RouterTx where
  sender : Address
  timestamp : Nat
  transfer : Address → Address → Nat → Bool

/-- Contract storage, its immutables, and the events emitted so far. -/
structure Router where
  this : Address
  epochLength : Nat
  pauseDeadline : Nat
  shares : Shares
  buybackBurner : Address
  treasury : Address
  bytesPerEpoch : Address → Nat → Nat := fun _ _ => 0
  totalBytesPerEpoch : Nat → Nat := fun _ => 0
  windowEpochsHistory : Trace := []
  paused : Bool := false
  roles : RouterRole → Address → Bool := fun _ _ => false
  log : List RouterEvent := []

namespace Router

/-! ## Guards -/

/-- Checked arithmetic inside a call. -/
def arith {α : Type} : Except ArithError α → Except RouterError α
  | .ok a => .ok a
  | .error e => .error (.arith e)

/-- `onlyRole`. -/
def onlyRole (tx : RouterTx) (s : Router) (role : RouterRole) : Except RouterError Unit :=
  Guard.require (s.roles role tx.sender) (.unauthorizedAccount tx.sender role)

/-- `whenNotPaused`. -/
def whenNotPaused (s : Router) : Except RouterError Unit :=
  Guard.require (!s.paused) .enforcedPause

/-- `_enforceWindowBounds`. -/
def enforceWindowBounds (value : Nat) : Except RouterError Unit :=
  Guard.within value windowEpochsFloor windowEpochsCeiling
    (.windowOutOfBounds value windowEpochsFloor windowEpochsCeiling)

/-- `_clock`: the block time as 48 bits. -/
def clock (timestamp : Nat) : Except ArithError Nat := Checked.bounded (2 ^ 48) .downcast timestamp

/-- A checkpoint pushed at the clock. -/
def pushAt (K : CheckpointOps) (history : Trace) (timestamp value : Nat) :
    Except RouterError Trace := do
  let key ← arith (clock timestamp)
  match K.push history key value with
  | some history => return history
  | none => .error .unorderedInsertion

/-- A token call that must succeed. -/
def safeTransfer (tx : RouterTx) (source target : Address) (amount : Nat) :
    Except RouterError Unit :=
  if tx.transfer source target amount then .ok () else .error .tokenFailed

/-- A leg of a settlement, if it is not empty. -/
def payLeg (tx : RouterTx) (s : Router) (target : Address) (amount : Nat) :
    Except RouterError Unit :=
  if amount ≠ 0 then safeTransfer tx s.this target amount else .ok ()

/-- Append one event. -/
def emit (s : Router) (e : RouterEvent) : Router := { s with log := s.log ++ [e] }

/-! ## Settlement -/

/-- The bytes of a settlement, counted for its operator and its epoch. -/
def countBytes (s : Router) (operator : Address) (epoch bytesDelivered : Nat) :
    Except RouterError Router :=
  if bytesDelivered ≠ 0 then do
    let own ← arith (Checked.add (s.bytesPerEpoch operator epoch) bytesDelivered)
    let total ← arith (Checked.add (s.totalBytesPerEpoch epoch) bytesDelivered)
    return { s with
      bytesPerEpoch := Function.update s.bytesPerEpoch operator
        (Function.update (s.bytesPerEpoch operator) epoch own)
      totalBytesPerEpoch := Function.update s.totalBytesPerEpoch epoch total }
  else .ok s

/-- `routeSettlement`. -/
def routeSettlement (tx : RouterTx) (s : Router) (operator : Address)
    (bytesDelivered amount : Nat) : Except RouterError Router := do
  whenNotPaused s
  onlyRole tx s .routerCaller
  if operator = 0 then .error .zeroAddress
  else if amount = 0 then .error .zeroAmount
  else
    safeTransfer tx tx.sender s.this amount
    let quotient ← arith (Checked.div tx.timestamp s.epochLength)
    let epoch := quotient % 2 ^ 64
    let s ← countBytes s operator epoch bytesDelivered
    let buyback ← arith (Checked.mul amount s.shares.buyback)
    let treasury ← arith (Checked.mul amount s.shares.treasury)
    let buybackShare := buyback / bpsDenominator
    let treasuryShare := treasury / bpsDenominator
    let rest ← arith (Checked.sub amount buybackShare)
    let opShare ← arith (Checked.sub rest treasuryShare)
    payLeg tx s operator opShare
    payLeg tx s s.buybackBurner buybackShare
    payLeg tx s s.treasury treasuryShare
    return s.emit (.settled operator bytesDelivered amount epoch)

/-! ## Governance -/

/-- `_setShares`. -/
def setSharesInternal (s : Router) (newShares : Shares) : Except RouterError Router := do
  let two ← arith (Checked.add newShares.operator newShares.buyback)
  let sum ← arith (Checked.add two newShares.treasury)
  if sum ≠ bpsDenominator then .error (.sharesDoNotSum sum)
  else if newShares.operator < operatorBpsFloor ∨ operatorBpsCeiling < newShares.operator then
    .error (.shareOutOfBounds .operator newShares.operator operatorBpsFloor operatorBpsCeiling)
  else if newShares.buyback ≠ 0 ∧
      (newShares.buyback < buybackBpsFloor ∨ buybackBpsCeiling < newShares.buyback) then
    .error (.shareOutOfBounds .buyback newShares.buyback buybackBpsFloor buybackBpsCeiling)
  else if treasuryBpsCeiling < newShares.treasury then
    .error (.shareOutOfBounds .treasury newShares.treasury 0 treasuryBpsCeiling)
  else if newShares.buyback ≠ 0 ∧ s.buybackBurner = 0 then
    .error (.nonZeroShareNeedsDestination .buyback)
  else if newShares.treasury ≠ 0 ∧ s.treasury = 0 then
    .error (.nonZeroShareNeedsDestination .treasury)
  else return { s with shares := newShares }.emit (.sharesUpdated newShares)

/-- `_setBuybackBurner`. -/
def setBuybackBurnerInternal (s : Router) (newAddr : Address) : Router :=
  { s with buybackBurner := newAddr }.emit (.buybackBurnerUpdated s.buybackBurner newAddr)

/-- `_setTreasury`. -/
def setTreasuryInternal (s : Router) (newAddr : Address) : Router :=
  { s with treasury := newAddr }.emit (.treasuryUpdated s.treasury newAddr)

/-- `windowEpochs`. -/
def windowEpochs (K : CheckpointOps) (s : Router) : Nat :=
  K.latest s.windowEpochsHistory % 2 ^ 64

/-- The external state-changing functions. -/
inductive Call where
  | routeSettlement (operator : Address) (bytesDelivered amount : Nat)
  | setShares (newShares : Shares)
  | setSharesAndDestinations (newShares : Shares) (buybackBurner treasury : Address)
  | setBuybackBurner (newAddr : Address)
  | setTreasury (newAddr : Address)
  | setWindowEpochs (newWindow : Nat)
  | pause
  | unpause
  | grantRole (role : RouterRole) (account : Address)
  | revokeRole (role : RouterRole) (account : Address)
  | renounceRole (role : RouterRole) (callerConfirmation : Address)

/-- Write one role of one account. -/
def setRole (s : Router) (role : RouterRole) (account : Address) (granted : Bool) : Router :=
  { s with
    roles := Function.update s.roles role (Function.update (s.roles role) account granted) }

/-- Execute one external call. -/
def exec (K : CheckpointOps) (tx : RouterTx) (s : Router) : Call → Except RouterError Router
  | .routeSettlement operator bytesDelivered amount =>
    routeSettlement tx s operator bytesDelivered amount
  | .setShares newShares => do
    onlyRole tx s .governance
    setSharesInternal s newShares
  | .setSharesAndDestinations newShares buybackBurner treasury => do
    onlyRole tx s .governance
    if treasury = 0 then .error .zeroAddress
    else
      setSharesInternal ((setBuybackBurnerInternal s buybackBurner).setTreasuryInternal treasury)
        newShares
  | .setBuybackBurner newAddr => do
    onlyRole tx s .governance
    if newAddr = 0 ∧ s.shares.buyback ≠ 0 then .error (.nonZeroShareNeedsDestination .buyback)
    else return setBuybackBurnerInternal s newAddr
  | .setTreasury newAddr => do
    onlyRole tx s .governance
    if newAddr = 0 then .error .zeroAddress else return setTreasuryInternal s newAddr
  | .setWindowEpochs newWindow => do
    onlyRole tx s .governance
    enforceWindowBounds newWindow
    let history ← pushAt K s.windowEpochsHistory tx.timestamp newWindow
    return { s with windowEpochsHistory := history }.emit
      (.windowEpochsUpdated (s.windowEpochs K) newWindow)
  | .pause => do
    onlyRole tx s .pauser
    Guard.pausable tx.timestamp s.pauseDeadline s.paused .pauseExpired .enforcedPause
    return { s with paused := true }.emit (.paused tx.sender)
  | .unpause => do
    onlyRole tx s .pauser
    Guard.require s.paused .expectedPause
    return { s with paused := false }.emit (.unpaused tx.sender)
  | .grantRole role account => do
    onlyRole tx s role.admin
    return s.setRole role account true
  | .revokeRole role account => do
    onlyRole tx s role.admin
    return s.setRole role account false
  | .renounceRole role callerConfirmation =>
    if callerConfirmation ≠ tx.sender then .error .badConfirmation
    else .ok (s.setRole role callerConfirmation false)

/-- What the constructor is given. -/
structure Deployment where
  this : Address
  usdc : Address
  capacityBond : Address
  /-- `epochLength` of CapacityBond. -/
  bondEpoch : Nat
  treasury : Address
  epochLength : Nat
  windowEpochs : Nat
  admin : Address
  initialShares : Shares
  buybackBurner : Address

/-- The constructor. -/
def deploy (K : CheckpointOps) (d : Deployment) (timestamp : Nat) : Except RouterError Router := do
  if d.usdc = 0 ∨ d.capacityBond = 0 ∨ d.treasury = 0 then .error .zeroAddress
  else if d.admin = 0 then .error .zeroAddress
  else if d.epochLength = 0 then .error .zeroEpochLength
  else if d.bondEpoch ≠ d.epochLength then
    .error (.epochLengthMismatch d.bondEpoch d.epochLength)
  else
    enforceWindowBounds d.windowEpochs
    let history ← pushAt K [] timestamp d.windowEpochs
    setSharesInternal
      { this := d.this
        epochLength := d.epochLength
        pauseDeadline := timestamp + pauseSunsetPeriod
        shares := ⟨0, 0, 0⟩
        buybackBurner := d.buybackBurner
        treasury := d.treasury
        windowEpochsHistory := history
        roles := fun role account =>
          decide (account = d.admin ∧ (role = .defaultAdmin ∨ role = .governance)) }
      d.initialShares

/-! ## Views -/

/-- The first epoch of a window of `n` epochs. -/
def windowStart (endEpoch n : Nat) : Except ArithError Nat := do
  let next ← Checked.bounded (2 ^ 64) .overflow (endEpoch + 1)
  if n < next then Checked.sub next n else return 0

/-- The sum of a quantity over the window of `n` epochs that ends with `endEpoch`. -/
def sumInWindow (f : Nat → Nat) (endEpoch n : Nat) : Except ArithError Nat :=
  if n = 0 then .ok 0
  else do
    let startEpoch ← windowStart endEpoch (min n windowEpochsCeiling)
    (List.range' startEpoch (endEpoch + 1 - startEpoch)).foldlM
      (fun sum e => Checked.add sum (f e)) 0

/-- `bytesInWindow`. -/
def bytesInWindow (s : Router) (operator : Address) (endEpoch n : Nat) : Except ArithError Nat :=
  sumInWindow (s.bytesPerEpoch operator) endEpoch n

/-- `totalBytesInWindow`. -/
def totalBytesInWindow (s : Router) (endEpoch n : Nat) : Except ArithError Nat :=
  sumInWindow s.totalBytesPerEpoch endEpoch n

/-- `windowEpochsAt`. -/
def windowEpochsAt (K : CheckpointOps) (s : Router) (timepoint : Nat) : Nat :=
  K.upperLookup s.windowEpochsHistory timepoint % 2 ^ 64

/-- The epochs of a window, of which there are at most the ceiling. -/
def windowOf (endEpoch n : Nat) : List Nat :=
  if n = 0 then []
  else
    let startEpoch := endEpoch + 1 - min n windowEpochsCeiling
    List.range' startEpoch (endEpoch + 1 - startEpoch)

variable {K : CheckpointOps} {tx : RouterTx} {s s' : Router}

/-- The start of a window that can be computed. -/
theorem windowStart_eq_ok {endEpoch n start : Nat} (h : windowStart endEpoch n = .ok start) :
    start = endEpoch + 1 - n := by
  unfold windowStart at h
  simp only [bind_eq_ok, Checked.bounded_eq_ok] at h
  rcases h with ⟨next, ⟨-, rfl⟩, h⟩
  split at h
  · exact (Checked.sub_eq_ok.mp h).2
  · rename_i hle
    rw [pure_eq_ok] at h
    omega

/-- A sum over a window that can be computed is the sum. -/
theorem sumInWindow_eq_ok {f : Nat → Nat} {endEpoch n sum : Nat}
    (h : sumInWindow f endEpoch n = .ok sum) : sum = ((windowOf endEpoch n).map f).sum := by
  unfold sumInWindow at h
  unfold windowOf
  split at h
  · rename_i hzero
    cases h
    rw [if_pos hzero]
    rfl
  · rename_i hpos
    rcases bind_eq_ok.mp h with ⟨start, hstart, hfold⟩
    rw [if_neg hpos, Checked.foldlM_add_eq_ok hfold, windowStart_eq_ok hstart, Nat.zero_add]

/-- A window is only summed up in vain when it overflows. -/
theorem sumInWindow_failsOnly {P : ArithError → Prop} (hoverflow : P .overflow) (f : Nat → Nat)
    (endEpoch n : Nat) : Checked.FailsOnly P (sumInWindow f endEpoch n) := by
  unfold sumInWindow
  split
  · exact .ok 0
  · refine .bind ?_ fun start _ => .foldlM (fun sum e _ => .add hoverflow sum (f e)) 0
    unfold windowStart
    refine .bind (.bounded hoverflow _ _) fun next _ => ?_
    split
    · rename_i hlt
      exact .sub (Nat.le_of_lt hlt)
    · exact .pure 0

/-! ## The invariant -/

/-- The total of each epoch is the sum of the operators' bytes, and the window keeps its bounds. -/
structure Inv (s : Router) : Prop where
  epoch_pos : s.epochLength ≠ 0
  tally : ∀ e, s.totalBytesPerEpoch e = ∑ a, s.bytesPerEpoch a e
  window : ∀ c ∈ s.windowEpochsHistory, windowEpochsFloor ≤ c.2 ∧ c.2 ≤ windowEpochsCeiling

/-- The parts of the storage the invariant is about. -/
structure SameBooks (s s' : Router) : Prop where
  epochLength : s'.epochLength = s.epochLength
  bytes : s'.bytesPerEpoch = s.bytesPerEpoch
  total : s'.totalBytesPerEpoch = s.totalBytesPerEpoch
  history : s'.windowEpochsHistory = s.windowEpochsHistory

/-- The invariant is about those parts. -/
theorem Inv.congr (h : s.Inv) (hsame : s.SameBooks s') : s'.Inv where
  epoch_pos := hsame.epochLength ▸ h.epoch_pos
  tally e := by
    rw [hsame.bytes, hsame.total]
    exact h.tally e
  window := hsame.history ▸ h.window

@[simp]
theorem arith_eq_ok {α : Type} {x : Except ArithError α} {a : α} :
    arith x = .ok a ↔ x = .ok a := by
  cases x with
  | error e => exact ⟨nofun, nofun⟩
  | ok b => exact ⟨fun h => congrArg _ (Except.ok.inj h), fun h => congrArg _ (Except.ok.inj h)⟩

/-- Counted bytes go to their operator and to the total alike. -/
theorem Inv.countBytes (h : s.Inv) {operator : Address} {epoch bytesDelivered : Nat}
    (hcount : s.countBytes operator epoch bytesDelivered = .ok s') : s'.Inv := by
  unfold Router.countBytes at hcount
  split at hcount
  · simp only [bind_eq_ok, pure_eq_ok, arith_eq_ok, Checked.add_eq_ok] at hcount
    rcases hcount with ⟨own, ⟨-, hown⟩, total, ⟨-, htotal⟩, rfl⟩
    refine ⟨h.epoch_pos, fun e => ?_, h.window⟩
    have hsum := sum_update_add s.bytesPerEpoch (fun f => f e) operator
      (Function.update (s.bytesPerEpoch operator) epoch own)
    have htally := h.tally e
    dsimp only
    rcases eq_or_ne e epoch with rfl | hne
    · rw [Function.update_self] at hsum ⊢
      omega
    · rw [Function.update_of_ne hne] at hsum ⊢
      omega
  · cases hcount
    exact h

/-- A checkpoint pushed within the bounds. -/
theorem pushAt_forall {history history' : Trace} {timestamp value : Nat}
    (hpush : pushAt K history timestamp value = .ok history') {P : Nat → Prop}
    (h : ∀ c ∈ history, P c.2) (hvalue : P value) : ∀ c ∈ history', P c.2 := by
  unfold pushAt at hpush
  simp only [bind_eq_ok] at hpush
  rcases hpush with ⟨key, -, hpush⟩
  split at hpush
  · rename_i t ht
    cases hpush
    exact K.push_forall ht h hvalue
  · cases hpush

theorem enforceWindowBounds_eq_ok {value : Nat} {u : Unit} :
    enforceWindowBounds value = .ok u ↔
      windowEpochsFloor ≤ value ∧ value ≤ windowEpochsCeiling :=
  Guard.within_eq_ok

/-- New shares touch no books. -/
theorem setSharesInternal_sameBooks {newShares : Shares}
    (h : setSharesInternal s newShares = .ok s') : s.SameBooks s' := by
  unfold setSharesInternal at h
  simp only [bind_eq_ok] at h
  rcases h with ⟨_, -, _, -, h⟩
  split at h
  · cases h
  split at h
  · cases h
  split at h
  · cases h
  split at h
  · cases h
  split at h
  · cases h
  split at h
  · cases h
  cases h
  exact ⟨rfl, rfl, rfl, rfl⟩

/-- A settlement counts its bytes. -/
theorem routeSettlement_cases {operator : Address} {bytesDelivered amount : Nat}
    (h : routeSettlement tx s operator bytesDelivered amount = .ok s') :
    ∃ epoch t, s.countBytes operator epoch bytesDelivered = .ok t ∧ t.SameBooks s' := by
  unfold routeSettlement at h
  simp only [bind_eq_ok] at h
  rcases h with ⟨_, -, _, -, h⟩
  split at h
  · cases h
  split at h
  · cases h
  simp only [bind_eq_ok, pure_eq_ok] at h
  rcases h with ⟨_, -, quotient, -, t, ht, _, -, _, -, _, -, _, -, _, -, _, -, _, -, rfl⟩
  exact ⟨_, t, ht, ⟨rfl, rfl, rfl, rfl⟩⟩

/-- Every call keeps the invariant. -/
theorem Inv.exec (h : s.Inv) {c : Call} (hexec : exec K tx s c = .ok s') : s'.Inv := by
  cases c with
  | routeSettlement operator bytesDelivered amount =>
    rcases routeSettlement_cases hexec with ⟨epoch, t, hcount, hsame⟩
    exact (h.countBytes hcount).congr hsame
  | setShares newShares =>
    simp only [Router.exec, bind_eq_ok] at hexec
    rcases hexec with ⟨_, -, hset⟩
    exact h.congr (setSharesInternal_sameBooks hset)
  | setSharesAndDestinations newShares buybackBurner treasury =>
    simp only [Router.exec, bind_eq_ok] at hexec
    rcases hexec with ⟨_, -, hset⟩
    split at hset
    · cases hset
    · have hsame := setSharesInternal_sameBooks hset
      exact h.congr ⟨hsame.epochLength, hsame.bytes, hsame.total, hsame.history⟩
  | setBuybackBurner newAddr =>
    simp only [Router.exec, bind_eq_ok] at hexec
    rcases hexec with ⟨_, -, hset⟩
    split at hset
    · cases hset
    · cases hset
      exact h.congr ⟨rfl, rfl, rfl, rfl⟩
  | setTreasury newAddr =>
    simp only [Router.exec, bind_eq_ok] at hexec
    rcases hexec with ⟨_, -, hset⟩
    split at hset
    · cases hset
    · cases hset
      exact h.congr ⟨rfl, rfl, rfl, rfl⟩
  | setWindowEpochs newWindow =>
    simp only [Router.exec, bind_eq_ok, pure_eq_ok] at hexec
    rcases hexec with ⟨_, -, _, hbounds, history, hpush, rfl⟩
    have hwindow := pushAt_forall (P := fun n => windowEpochsFloor ≤ n ∧ n ≤ windowEpochsCeiling)
      hpush h.window (enforceWindowBounds_eq_ok.mp hbounds)
    exact ⟨h.epoch_pos, h.tally, hwindow⟩
  | pause =>
    simp only [Router.exec, bind_eq_ok, pure_eq_ok] at hexec
    rcases hexec with ⟨_, -, _, -, rfl⟩
    exact h.congr ⟨rfl, rfl, rfl, rfl⟩
  | unpause =>
    simp only [Router.exec, bind_eq_ok, pure_eq_ok] at hexec
    rcases hexec with ⟨_, -, _, -, rfl⟩
    exact h.congr ⟨rfl, rfl, rfl, rfl⟩
  | grantRole role account =>
    simp only [Router.exec, bind_eq_ok, pure_eq_ok] at hexec
    rcases hexec with ⟨_, -, rfl⟩
    exact h.congr ⟨rfl, rfl, rfl, rfl⟩
  | revokeRole role account =>
    simp only [Router.exec, bind_eq_ok, pure_eq_ok] at hexec
    rcases hexec with ⟨_, -, rfl⟩
    exact h.congr ⟨rfl, rfl, rfl, rfl⟩
  | renounceRole role callerConfirmation =>
    simp only [Router.exec] at hexec
    split at hexec
    · cases hexec
    · cases hexec
      exact h.congr ⟨rfl, rfl, rfl, rfl⟩

/-- A deployment starts with nothing counted. -/
theorem Inv.deployed {d : Deployment} {timestamp : Nat} (h : deploy K d timestamp = .ok s) :
    s.Inv := by
  unfold deploy at h
  split at h
  · cases h
  split at h
  · cases h
  split at h
  · cases h
  rename_i hepoch
  split at h
  · cases h
  simp only [bind_eq_ok] at h
  rcases h with ⟨_, hbounds, history, hpush, hset⟩
  have hsame := setSharesInternal_sameBooks hset
  refine Inv.congr ⟨hepoch, fun e => ?_, ?_⟩ hsame
  · exact (sum_eq_zero fun _ _ => rfl).symm
  · exact pushAt_forall (P := fun n => windowEpochsFloor ≤ n ∧ n ≤ windowEpochsCeiling) hpush
      (fun _ hc => absurd hc List.not_mem_nil) (enforceWindowBounds_eq_ok.mp hbounds)

/-- The contracts a deployment can become, by calls at times that do not go back. -/
inductive Reachable (K : CheckpointOps) : Nat → Router → Prop where
  | deployed {s : Router} (d : Deployment) (timestamp : Nat) (h : deploy K d timestamp = .ok s) :
      Reachable K timestamp s
  | call {now : Nat} {s s' : Router} (h : Reachable K now s) (tx : RouterTx) (c : Call)
      (hnow : now ≤ tx.timestamp) (hexec : exec K tx s c = .ok s') : Reachable K tx.timestamp s'

/-- The invariant holds after every run. -/
theorem Reachable.inv {now : Nat} (h : Reachable K now s) : s.Inv := by
  induction h with
  | deployed d timestamp h => exact .deployed h
  | call h tx c hnow hexec ih => exact ih.exec hexec

/-- One call as an event of a run: `none` if it is out of order or reverts. -/
def applyCall (K : CheckpointOps) (w : Nat × Router) (e : RouterTx × Call) :
    Option (Nat × Router) :=
  if w.1 ≤ e.1.timestamp then
    match exec K e.1 w.2 e.2 with
    | .ok s => some (e.1.timestamp, s)
    | .error _ => none
  else none

/-- Calls that evaluate are a run. -/
theorem Reachable.of_runEvents {w w' : Nat × Router} {calls : List (RouterTx × Call)}
    (hw : Reachable K w.1 w.2)
    (h : runEvents (applyCall K) (fun _ _ => true) w calls = some w') :
    Reachable K w'.1 w'.2 := by
  refine runEvents_invariant (P := fun w => Reachable K w.1 w.2) (fun a e b ha hstep => ?_) hw h
  unfold applyCall at hstep
  split at hstep
  · rename_i hnow
    split at hstep
    · rename_i s hexec
      cases hstep
      exact ha.call e.1 e.2 hnow hexec
    · cases hstep
  · cases hstep

end Router

end Decdn.Governance
