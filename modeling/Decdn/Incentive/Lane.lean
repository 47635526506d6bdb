import Decdn.Foundations.Fallible
import Decdn.Foundations.Runs
import Decdn.Incentive.Voucher

/-!
# Seller lanes

The delivering node's per-lane state, `lane.rs`.  A lane holds the latest
accepted voucher as its signed anchor and the deepest preimage verified under
that voucher's chain root as its frontier; together they are the claim the node
can redeem.

The advance methods are pure: they return the successor, and the caller records
and swaps it in.

Main definitions:

- Definition `LaneState.advancePresigned`: a voucher that advances the money.
- Definition `LaneState.adoptChain`: a voucher that re-asserts the watermark.
- Definition `LaneState.advancePreimageVerified`: a released preimage.
- Definition `LaneState.step`: one accepted event of a lane.
-/

namespace Decdn.Incentive

open PaymentPool (Crypto)

variable {H : Crypto}

/-! ## State -/

/-- `LaneKey`: one signer spending one pool against one provider. -/
structure LaneKey where
  poolId : Bytes32
  signer : Address
  provider : Address
deriving DecidableEq, Repr

/-- `LaneChain`: one metering epoch. -/
structure LaneChain where
  chainRoot : Bytes32
  chunkPrice : Nat
  verifiedIndex : Nat
  tip : Bytes32
deriving DecidableEq, Repr

/-- `LaneChain::NONE`. -/
def LaneChain.none : LaneChain := ⟨0, 0, 0, 0⟩

/-- `LaneChain::opened`: the root is its own tip at index `0`. -/
def LaneChain.opened (chainRoot : Bytes32) (chunkPrice : Nat) : LaneChain :=
  ⟨chainRoot, chunkPrice, 0, chainRoot⟩

/-- `LaneChain::accrued`. -/
def LaneChain.accrued (c : LaneChain) : Nat :=
  U256.wrappingMul c.chunkPrice c.verifiedIndex

/-- `LaneChain::accrued_bytes`. -/
def LaneChain.accruedBytes (c : LaneChain) : Nat :=
  U256.wrappingMul chunkBytes c.verifiedIndex

/-- `RedeemClaim`: a signed anchor and the frontier that extends it. -/
structure RedeemClaim where
  amount : Nat
  bytesDelivered : Nat
  signature : Signature
  chain : LaneChain
deriving DecidableEq, Repr

/-- `RedeemClaim::value`. -/
def RedeemClaim.value (c : RedeemClaim) : Nat :=
  U256.wrappingAdd c.amount c.chain.accrued

/-- `RedeemClaim::bytes_value`. -/
def RedeemClaim.bytesValue (c : RedeemClaim) : Nat :=
  U256.wrappingAdd c.bytesDelivered c.chain.accruedBytes

/-- `RedeemClaim::chain_meter`. -/
def RedeemClaim.chainMeter (c : RedeemClaim) : Except WidthError Nat :=
  packChainMeter c.chain.chunkPrice c.chain.verifiedIndex

/-- `LaneState`. -/
structure LaneState where
  poolId : Bytes32
  signer : Address
  provider : Address
  cap : Nat
  expiry : Nat
  registeredUntil : Nat := 0
  ownerSig : Option (List UInt8) := none
  paidCumulative : Nat := 0
  lastAmount : Nat := 0
  lastBytesDelivered : Nat := 0
  lastSignature : Option Signature := none
  chain : LaneChain := LaneChain.none
deriving DecidableEq, Repr

/-- `StoreError`, the variants of a record that cannot be read. -/
inductive StoreError where
  | unsupportedSchema (found supported : UInt32)
  | corrupt (poolId : Option Bytes32) (detail : String)
deriving DecidableEq

/-- `FoldAxis`. -/
inductive FoldAxis where
  | amount
  | bytes
deriving DecidableEq, Repr

/-- `PoolError`. -/
inductive PoolError where
  | wrongPool (expected got : Bytes32)
  | wrongProvider (expected got : Address)
  | amountRegression (last got : Nat)
  | underFold (axis : FoldAxis) (owed got : Nat)
  | bytesRegression (last got : Nat)
  | capExceeded (cap got : Nat)
  | badPreimage (index verified : Nat)
  | signature (error : VoucherError)
  | store
deriving DecidableEq, Repr

/-- `VoucherApplied` and `PreimageApplied`: what a proof added on the two axes. -/
structure Applied where
  amountDelta : Nat := 0
  bytesDelta : Nat := 0
deriving DecidableEq, Repr

/-- `PreimageApplied::advanced`. -/
def Applied.advanced (a : Applied) : Bool :=
  a.amountDelta ≠ 0 || a.bytesDelta ≠ 0

namespace LaneState

/-- `LaneState::key`. -/
def key (s : LaneState) : LaneKey := ⟨s.poolId, s.signer, s.provider⟩

/-- A lane that has accepted nothing yet. -/
structure Fresh (s : LaneState) : Prop where
  lastAmount : s.lastAmount = 0
  lastBytesDelivered : s.lastBytesDelivered = 0
  lastSignature : s.lastSignature = none
  chain : s.chain = LaneChain.none

/-- `LaneState::live_claim`. -/
def liveClaim (s : LaneState) : Option RedeemClaim :=
  s.lastSignature.map fun signature =>
    { amount := s.lastAmount
      bytesDelivered := s.lastBytesDelivered
      signature := signature
      chain := s.chain }

/-- `LaneState::owed`. -/
def owed (s : LaneState) : Nat :=
  match s.liveClaim with
  | some c => c.value
  | none => 0

/-- `LaneState::owed_bytes`. -/
def owedBytes (s : LaneState) : Nat :=
  match s.liveClaim with
  | some c => c.bytesValue
  | none => 0

/-! ## Operations -/

/-- `LaneState::clamp_to_registration`: the lower of the held and the registered
terms. -/
def clampToRegistration (s : LaneState) (cap expiry : UInt64) : LaneState :=
  let heldExpiry := max expiry.toNat 1
  { s with
    cap := min s.cap cap.toNat
    expiry := if s.expiry = 0 then heldExpiry else min s.expiry heldExpiry
    registeredUntil := max s.registeredUntil expiry.toNat }

/-- `LaneState::adopt_chain`: take the chain of a voucher that advances no
money, or `none` when nothing changes. -/
def adoptChain (s : LaneState) (sv : SignedVoucher) : Option LaneState :=
  let v := sv.voucher
  if v.chainRoot = 0 then none
  else if s.chain.chainRoot = v.chainRoot then
    -- The same epoch: only a lane without a signature takes the anchor.
    if s.lastSignature.isSome then none
    else
      some { s with
        chain := { s.chain with chunkPrice := v.chunkPrice }
        lastAmount := v.amount
        lastBytesDelivered := v.bytesDelivered
        lastSignature := some sv.signature }
  else if 0 < s.chain.verifiedIndex then none
  else if v.amount ≠ s.lastAmount ∨ v.bytesDelivered ≠ s.lastBytesDelivered then none
  else
    some { s with
      chain := LaneChain.opened v.chainRoot v.chunkPrice
      lastSignature := some sv.signature }

/-- `LaneState::chain_slot`: the tracked epoch `root` names. -/
def chainSlot (s : LaneState) (root : Bytes32) : Option LaneChain :=
  if root ≠ 0 ∧ root = s.chain.chainRoot then some s.chain else none

/-- `LaneState::preimage_frontier`: what a reveal must hash forward to. -/
def preimageFrontier (s : LaneState) (root : Bytes32) (index : UInt8) : Option (Nat × Bytes32) :=
  match s.chainSlot root with
  | none => none
  | some target =>
    if target.verifiedIndex < index.toNat then some (target.verifiedIndex, target.tip) else none

/-- `LaneState::advance_preimage_verified`: fold a preimage whose walk the caller
ran against `walked`. -/
def advancePreimageVerified (H : Crypto) (s : LaneState) (root : Bytes32) (index : UInt8)
    (preimage : Bytes32) (walked : Option (Nat × Bytes32)) (walkedOk : Bool) :
    Except PoolError (LaneState × Applied) :=
  match s.chainSlot root with
  | none => .ok (s, {})
  | some target =>
    if index.toNat ≤ target.verifiedIndex then .ok (s, {})
    else
      -- The caller's walk counts only while its snapshot is the live frontier.
      let verified :=
        if walked = some (target.verifiedIndex, target.tip) then walkedOk
        else verifyForward H preimage (index.toNat - target.verifiedIndex) target.tip
      if verified = false then .error (.badPreimage index.toNat target.verifiedIndex)
      else
        let steps := index.toNat - target.verifiedIndex
        let applied : Applied :=
          { amountDelta := U256.wrappingMul target.chunkPrice steps
            bytesDelta := U256.wrappingMul chunkBytes steps }
        let chain := { s.chain with verifiedIndex := index.toNat, tip := preimage }
        let claimed := U256.saturatingAdd s.lastAmount chain.accrued
        if s.cap < claimed then .error (.capExceeded s.cap claimed)
        else .ok ({ s with chain := chain }, applied)

/-- What the caller's walk against its snapshot answers. -/
def walk (H : Crypto) (index : UInt8) (preimage : Bytes32) : Option (Nat × Bytes32) → Bool
  | some (verifiedIndex, tip) => verifyForward H preimage (index.toNat - verifiedIndex) tip
  | none => false

/-- `LaneState::advance_preimage`: snapshot, walk and fold in one go. -/
def advancePreimage (H : Crypto) (s : LaneState) (root : Bytes32) (index : UInt8)
    (preimage : Bytes32) : Except PoolError (LaneState × Applied) :=
  let walked := s.preimageFrontier root index
  s.advancePreimageVerified H root index preimage walked (walk H index preimage walked)

/-- `LaneState::advance_presigned`: the watermark-dependent half of accepting a
voucher. -/
def advancePresigned (s : LaneState) (sv : SignedVoucher) :
    Except PoolError (LaneState × Applied) :=
  let v := sv.voucher
  if v.amount ≤ s.lastAmount then
    -- At the anchor, a voucher that opens another chain under-folds whatever
    -- the live chain has proved.
    if v.amount = s.lastAmount ∧ v.chainRoot ≠ 0 ∧ v.chainRoot ≠ s.chain.chainRoot ∧
        s.liveClaim.any (fun live => decide (v.amount < live.value)) = true then
      .error (.underFold .amount s.owed v.amount)
    else .error (.amountRegression s.lastAmount v.amount)
  else if v.bytesDelivered < s.lastBytesDelivered then
    .error (.bytesRegression s.lastBytesDelivered v.bytesDelivered)
  else if s.cap < v.amount then .error (.capExceeded s.cap v.amount)
  else
    let applied : Applied :=
      { amountDelta := v.amount - s.lastAmount
        bytesDelta := v.bytesDelivered - s.lastBytesDelivered }
    if v.chainRoot = s.chain.chainRoot then
      -- The same epoch keeps its frontier and takes the voucher's price.
      let chain := { s.chain with chunkPrice := v.chunkPrice }
      let claimed := U256.saturatingAdd v.amount chain.accrued
      if s.cap < claimed then .error (.capExceeded s.cap claimed)
      else
        .ok ({ s with
          chain := chain
          lastAmount := v.amount
          lastBytesDelivered := v.bytesDelivered
          lastSignature := some sv.signature }, applied)
    else if s.liveClaim.any (fun live => decide (v.amount < live.value)) = true then
      .error (.underFold .amount s.owed v.amount)
    else if s.liveClaim.any (fun live => decide (v.bytesDelivered < live.bytesValue)) = true then
      .error (.underFold .bytes s.owedBytes v.bytesDelivered)
    else
      .ok ({ s with
        chain := LaneChain.opened v.chainRoot v.chunkPrice
        lastAmount := v.amount
        lastBytesDelivered := v.bytesDelivered
        lastSignature := some sv.signature }, applied)

/-- `LaneState::stage_voucher`: identity and signature, then the advance. -/
def stageVoucher (H : Crypto) (K : Ecdsa) (s : LaneState) (sv : SignedVoucher) :
    Except PoolError (LaneState × Applied) :=
  if sv.voucher.poolId ≠ s.poolId then .error (.wrongPool s.poolId sv.voucher.poolId)
  else if sv.voucher.provider ≠ s.provider then
    .error (.wrongProvider s.provider sv.voucher.provider)
  else
    match sv.verifySigner H K s.signer with
    | .error e => .error (.signature e)
    | .ok () => s.advancePresigned sv

end LaneState

/-! ## Events -/

/-- What a lane is asked to do.  A reveal may carry any earlier snapshot the
caller walked against. -/
inductive LaneEvent where
  | presigned (sv : SignedVoucher)
  | adopt (sv : SignedVoucher)
  | preimage (root : Bytes32) (index : UInt8) (preimage : Bytes32)
  | preimageVerified (root : Bytes32) (index : UInt8) (preimage : Bytes32)
      (walked : Option (Nat × Bytes32))
  | clamp (cap expiry : UInt64)
deriving DecidableEq, Repr

/-- The successor an accepted event leads to; `none` if it is refused or changes
nothing. -/
def LaneState.apply (H : Crypto) (s : LaneState) : LaneEvent → Option LaneState
  | .presigned sv => (s.advancePresigned sv).toOption.map Prod.fst
  | .adopt sv => s.adoptChain sv
  | .preimage root index preimage =>
    (s.advancePreimage H root index preimage).toOption.map Prod.fst
  | .preimageVerified root index preimage walked =>
    (s.advancePreimageVerified H root index preimage walked
      (LaneState.walk H index preimage walked)).toOption.map Prod.fst
  | .clamp cap expiry => some (s.clampToRegistration cap expiry)

/-- One accepted event of a lane. -/
def LaneState.step (H : Crypto) (s : LaneState) (e : LaneEvent) (s' : LaneState) : Prop :=
  s.apply H e = some s'

end Decdn.Incentive
