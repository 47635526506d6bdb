import Decdn.Foundations.Words
import Mathlib.Logic.Function.Basic

/-!
# Unproved-credit floor accounting

A stream is served ahead of payment up to a floor.  The node reserves that floor
against the pool and the capability signer when it admits the stream
(`node/src/handlers/client/mod.rs`), releases it once the stream has paid it back,
and books what an abandoned stream left unpaid as floor debt.

Every function below is one hold of the accumulator's lock, so an interleaving of
streams is a sequence of them.  A reservation is a guard with its own identity; the
pool entry it was charged to carries a generation stamp that the guard copies.

Main definitions:

- Definition `tryReserveFloor`: the two admission gates and the charge.
- Definition `settle`: release the live part and book the debt, on the guard's own
  generation only.
- Definition `Action` and Definition `apply`: one lock hold of a run.
-/

namespace Decdn.Node.FloorCredit

/-! ## Prices -/

/-- Bytes per binary megabyte. -/
def bytesPerMb : Nat := 1048576

/-- Bytes one chunk pays for. -/
def chunkBytes : Nat := 1048576

/-- Bytes a verified chunk may lag behind: one bao chunk group. -/
def verifyLagBytes : Nat := 16384

/-- `min_payment`: the price of `bytes`, rounded up. -/
def minPayment (bytes ratePerMb : Nat) : Nat :=
  (U256.saturatingMul bytes ratePerMb + (bytesPerMb - 1)) / bytesPerMb

/-- `ramped_credit_window`. -/
def rampedCreditWindow (divisor floor creditMax paid : Nat) : Nat :=
  let ceiling := max creditMax floor
  if divisor = 0 then ceiling else max floor (min (paid / divisor) ceiling)

/-- `pool_budget_covers`: what remains above the refundable floor `m` covers what is
committed and the new reserve. -/
def poolBudgetCovers (remaining m committed newReserve : Nat) : Bool :=
  decide (U256.saturatingAdd committed newReserve ≤ remaining - m)

/-! ## Data model -/

/-- One signer's slice of a pool's floor accounting. -/
structure SignerFloorState where
  liveReservation : Nat := 0
  debt : Nat := 0
deriving DecidableEq, Repr

/-- A row that carries no information. -/
def SignerFloorState.isEmpty (r : SignerFloorState) : Bool :=
  r.liveReservation == 0 && r.debt == 0

/-- The floor credit a signer holds against its cap. -/
def SignerFloorState.floorHeld (r : SignerFloorState) : Nat :=
  U256.saturatingAdd r.liveReservation r.debt

/-- One pool's floor accounting.  `epoch` is its generation stamp. -/
structure PoolFloorState where
  liveReservation : Nat := 0
  debt : Nat := 0
  signers : Address → Option SignerFloorState := fun _ => none
  epoch : Nat

namespace PoolFloorState

variable (p : PoolFloorState) (signer : Address) (amount : Nat)

/-- A signer's row, empty when there is none. -/
def row : SignerFloorState :=
  (p.signers signer).getD {}

/-- The floor credit held against the pool at admission. -/
def floorHeld : Nat :=
  U256.saturatingAdd p.liveReservation p.debt

/-- `charge_live`. -/
def chargeLive : PoolFloorState :=
  { p with
    liveReservation := U256.saturatingAdd p.liveReservation amount
    signers := Function.update p.signers signer (some
      { p.row signer with
        liveReservation := U256.saturatingAdd (p.row signer).liveReservation amount }) }

/-- `release_live`: a missing row is not created. -/
def releaseLive : PoolFloorState :=
  { p with
    liveReservation := p.liveReservation - amount
    signers := Function.update p.signers signer
      ((p.signers signer).map fun row =>
        { row with liveReservation := row.liveReservation - amount }) }

/-- `charge_debt`. -/
def chargeDebt : PoolFloorState :=
  { p with
    debt := U256.saturatingAdd p.debt amount
    signers := Function.update p.signers signer (some
      { p.row signer with debt := U256.saturatingAdd (p.row signer).debt amount }) }

/-- `prune_spent`: drop a row that carries no information. -/
def pruneSpent : PoolFloorState :=
  match p.signers signer with
  | some row =>
    if row.isEmpty then { p with signers := Function.update p.signers signer none } else p
  | none => p

/-- `clear_debt`: clear up to `amount` of the signer's debt. -/
def clearDebt : PoolFloorState :=
  match p.signers signer with
  | none => p
  | some row =>
    let cleared := min row.debt amount
    pruneSpent
      { p with
        debt := p.debt - cleared
        signers := Function.update p.signers signer
          (some { row with debt := row.debt - cleared }) }
      signer

end PoolFloorState

/-- One stream's hold on a pool's budget. -/
structure FloorReservation where
  poolId : Bytes32
  epoch : Nat
  signer : Address
  reserved : Nat
  ratePerMb : Nat
  liveReleased : Bool := false
  unpaidBytes : Nat := 0
  debtCleared : Nat := 0
deriving DecidableEq, Repr

/-- The locked accumulator. -/
abbrev FloorMap := Bytes32 → Option PoolFloorState

/-- `own_entry`: the guard's pool entry, if it is still the guard's generation. -/
def ownEntry (g : FloorReservation) (pools : FloorMap) : Option PoolFloorState :=
  (pools g.poolId).filter fun entry => entry.epoch == g.epoch

/-- `settle`: release the live part and charge the debt under one lock hold. -/
def settle (g : FloorReservation) (releaseLive : Bool) (debt : Nat) (pools : FloorMap) :
    FloorMap :=
  match ownEntry g pools with
  | none => pools
  | some entry =>
    let entry := if releaseLive then entry.releaseLive g.signer g.reserved else entry
    let entry := if debt ≠ 0 then entry.chargeDebt g.signer debt else entry
    Function.update pools g.poolId (some (entry.pruneSpent g.signer))

/-- `abandon_debt`: the unpaid bytes at the stream's price, capped at its
reservation. -/
def abandonDebt (g : FloorReservation) : Nat :=
  if g.unpaidBytes = 0 then 0 else min (minPayment g.unpaidBytes g.ratePerMb) g.reserved

/-! ## How a serve ends -/

/-- Why a serve stopped after delivery began. -/
inductive ServeStop where
  | voucherRejected
  | poolExhausted
  | poolClosed
  | signerCapExhausted
  | takedown
  | proofBudgetExhausted
  | blobTooLarge
deriving DecidableEq, Repr

/-- How a serve ended.  An error is the peer's or it is not. -/
inductive ServeEnd where
  | error (peerAttributable : Bool)
  | stopped (stop : ServeStop)
  | completed
  | refused
  | reset
deriving DecidableEq, Repr

/-- `owes_floor_debt`: whether the end is the client's own conduct. -/
def owesFloorDebt : ServeEnd → Bool
  | .error peerAttributable => peerAttributable
  | .stopped .voucherRejected => true
  | .stopped .proofBudgetExhausted => true
  | .stopped _ => false
  | .completed => false
  | .refused => false
  | .reset => false

/-! ## The handler -/

/-- What the operator configured. -/
structure Handler where
  creditRampDivisor : UInt64
  creditMax : UInt64
  poolFloorSignerLiveWindows : UInt64
  poolMinRemainingDeposit : Nat

/-- `credit_window`. -/
def Handler.creditWindow (h : Handler) (intervalBytes paid : Nat) : Nat :=
  rampedCreditWindow h.creditRampDivisor.toNat (U64.saturatingAdd intervalBytes verifyLagBytes)
    h.creditMax.toNat paid

/-- `one_window`: what a fresh stream reserves. -/
def Handler.oneWindow (h : Handler) (ratePerMb : UInt64) : Nat :=
  minPayment (h.creditWindow chunkBytes 0) ratePerMb.toNat

/-- `signer_floor_cap`: `k` windows, at least one. -/
def Handler.signerFloorCap (h : Handler) (ratePerMb : UInt64) : Nat :=
  U256.saturatingMul (h.oneWindow ratePerMb) (max h.poolFloorSignerLiveWindows.toNat 1)

/-- Which floor gate refused an admission. -/
inductive FloorRefusal where
  | poolExhausted
  | signerAtCap (signerCap : Nat)
deriving DecidableEq, Repr

/-- The accumulator, the process-wide generation counter, and the guards.  `epochs`
counts the entries created, and the `AtomicU64` holds it modulo `2 ^ 64`.  Guard
`i` is the `i`-th reservation made; it is `none` once it has been dropped. -/
@[ext]
structure Floor where
  pools : FloorMap := fun _ => none
  epochs : Nat := 0
  guards : Nat → Option FloorReservation := fun _ => none
  issued : Nat := 0

variable (h : Handler) (s : Floor)

/-- The stamp the next entry gets. -/
def Floor.nextEpoch : Nat :=
  s.epochs % 2 ^ 64

/-- The floor credit held against a pool and a signer, read without creating a
row. -/
def Floor.held (poolId : Bytes32) (signer : Address) : Nat × Nat :=
  match s.pools poolId with
  | some entry => (entry.floorHeld, (entry.row signer).floorHeld)
  | none => (0, 0)

/-- `try_reserve_floor`: both gates, then the charge, under one lock hold.  A refused
admission creates no row. -/
def tryReserveFloor (poolId : Bytes32) (signer : Address) (remaining : Nat)
    (ratePerMb : UInt64) (reserved : Nat) : Except FloorRefusal Floor :=
  let signerCap := h.signerFloorCap ratePerMb
  let held := s.held poolId signer
  if ¬ poolBudgetCovers remaining h.poolMinRemainingDeposit held.1 reserved then
    .error .poolExhausted
  else if signerCap < U256.saturatingAdd held.2 reserved then .error (.signerAtCap signerCap)
  else
    let entry := (s.pools poolId).getD { epoch := s.nextEpoch }
    let epochs := if (s.pools poolId).isSome then s.epochs else s.epochs + 1
    .ok
      { pools := Function.update s.pools poolId (some (entry.chargeLive signer reserved))
        epochs := epochs
        guards := Function.update s.guards s.issued (some
          { poolId := poolId
            epoch := entry.epoch
            signer := signer
            reserved := reserved
            ratePerMb := ratePerMb.toNat })
        issued := s.issued + 1 }

/-- `forget_pool_floor`. -/
def forgetPoolFloor (poolId : Bytes32) : Floor :=
  { s with pools := Function.update s.pools poolId none }

/-- Replace a guard's own fields. -/
def Floor.setGuard (i : Nat) (g : Option FloorReservation) : Floor :=
  { s with guards := Function.update s.guards i g }

/-- `track_unpaid`. -/
def trackUnpaid (i : Nat) (g : FloorReservation) (unpaidBytes : Nat) : Floor :=
  s.setGuard i (some { g with unpaidBytes := unpaidBytes })

/-- `settle_end`: forgive the unpaid bytes unless the end is the client's conduct. -/
def settleEnd (i : Nat) (g : FloorReservation) (finish : ServeEnd) : Floor :=
  if owesFloorDebt finish then s else s.setGuard i (some { g with unpaidBytes := 0 })

/-- `release_live_repaid`, also `release_unspent`: only the first call moves the live
counters. -/
def releaseLiveRepaid (i : Nat) (g : FloorReservation) : Floor :=
  if g.liveReleased then s
  else
    { s with
      pools := settle g true 0 s.pools
      guards := Function.update s.guards i (some { g with liveReleased := true }) }

/-- `clear_debt` of a guard: offer the surplus not offered yet. -/
def offerSurplus (i : Nat) (g : FloorReservation) (surplus : Nat) : Floor :=
  let surplus := U64.ofNatSaturating surplus
  if surplus ≤ g.debtCleared then s
  else
    { s with
      pools :=
        match ownEntry g s.pools with
        | none => s.pools
        | some entry =>
          Function.update s.pools g.poolId
            (some (entry.clearDebt g.signer (surplus - g.debtCleared)))
      guards := Function.update s.guards i (some { g with debtCleared := surplus }) }

/-- The guard's `Drop`. -/
def dropGuard (i : Nat) (g : FloorReservation) : Floor :=
  let releaseLive := !g.liveReleased
  let debt := abandonDebt g
  { s with
    pools := if releaseLive || debt ≠ 0 then settle g releaseLive debt s.pools else s.pools
    guards := Function.update s.guards i none }

/-! ## Runs -/

/-- What one guard can do. -/
inductive GuardAction where
  | trackUnpaid (unpaidBytes : Nat)
  | releaseLiveRepaid
  | offerSurplus (surplus : Nat)
  | settleEnd (finish : ServeEnd)
  | drop

/-- One lock hold. -/
inductive Action where
  | tryReserveFloor (poolId : Bytes32) (signer : Address) (remaining : Nat)
      (ratePerMb : UInt64) (reserved : Nat)
  | guarded (i : Nat) (a : GuardAction)
  | forgetPoolFloor (poolId : Bytes32)

/-- What a guard's action does. -/
def GuardAction.apply (s : Floor) (i : Nat) (g : FloorReservation) : GuardAction → Floor
  | .trackUnpaid unpaidBytes => FloorCredit.trackUnpaid s i g unpaidBytes
  | .releaseLiveRepaid => FloorCredit.releaseLiveRepaid s i g
  | .offerSurplus surplus => FloorCredit.offerSurplus s i g surplus
  | .settleEnd finish => FloorCredit.settleEnd s i g finish
  | .drop => dropGuard s i g

/-- Take one action.  A refused admission changes nothing. -/
def apply : Action → Option Floor
  | .tryReserveFloor poolId signer remaining ratePerMb reserved =>
    match tryReserveFloor h s poolId signer remaining ratePerMb reserved with
    | .ok s' => some s'
    | .error _ => some s
  | .guarded i a => (s.guards i).map fun g => a.apply s i g
  | .forgetPoolFloor poolId => some (forgetPoolFloor s poolId)

/-- One step of a run. -/
def Step (s : Floor) (a : Action) (t : Floor) : Prop :=
  apply h s a = some t

/-! ## Reconciling a payment -/

/-- `release_if_repaid`: release once the reserved amount is paid, then offer what is
paid beyond it. -/
def releaseIfRepaid (i : Nat) (g : FloorReservation) (paidMicro : Nat) : Floor :=
  if g.reserved ≤ paidMicro then
    offerSurplus (releaseLiveRepaid s i g) i { g with liveReleased := true }
      (paidMicro - g.reserved)
  else s

/-- `reconcile_paid`: a voucher credited. -/
def reconcilePaid (i : Nat) (g : FloorReservation) (delivered paid : Nat) : Floor :=
  releaseIfRepaid (trackUnpaid s i g (delivered - paid)) i
    { g with unpaidBytes := delivered - paid } (minPayment paid g.ratePerMb)

end Decdn.Node.FloorCredit
