import Decdn.Incentive.LaneClaim

/-!
# Committing payment proofs

The node's per-lane intake, `handlers/client/voucher.rs`: a voucher or a
released preimage arrives on one stream, is checked against the lane the streams
share, advances it, and credits the stream for the chunk it answers.

A commit runs under the lane's lock, so it is one step on the lane.  The one
part that runs before the lock is the preimage walk; it enters as the snapshot
`walked` of some earlier frontier.

Main definitions:

- Definition `verifyVoucher`: the watermark-dependent half of a voucher.
- Definition `commitVoucher` and Definition `commitOnePreimage`: one proof.
- Definition `commitOneProof`: the dispatch between them.
-/

namespace Decdn.Node

open PaymentPool (Crypto)
open Incentive

/-! ## Rates -/

/-- `RateError`. -/
inductive RateError where
  | zeroBytes
  | underpayment
  | overflow
deriving DecidableEq, Repr

/-- `BYTES_PER_MB`. -/
def bytesPerMb : Nat := 1048576

/-- `BPS_SCALE`. -/
def bpsScale : Nat := 10000

/-- `DEFAULT_TOLERANCE_BPS`. -/
def defaultToleranceBps : Nat := 100

/-- `verify_rate`: `amount_delta` pays for `bytes_delta` at the rate, within the
tolerance. -/
def verifyRate (amountDelta bytesDelta ratePerMb toleranceBps : Nat) : Except RateError Unit :=
  if bytesDelta = 0 then .error .zeroBytes
  else
    let tolerance := min toleranceBps bpsScale
    let allowedBps := bpsScale - tolerance
    let lhs := (U256.checkedMul amountDelta bytesPerMb).bind fun v => U256.checkedMul v bpsScale
    let rhs := (U256.checkedMul bytesDelta ratePerMb).bind fun v => U256.checkedMul v allowedBps
    match lhs, rhs with
    | some lhs, some rhs => if rhs ≤ lhs then .ok () else .error .underpayment
    | _, _ => .error .overflow

/-! ## Rejections -/

/-- The wire reasons a proof is refused with. -/
inductive RejectReason where
  | badSignature
  | wrongSigner
  | wrongPool
  | wrongProvider
  | amountRegression
  | bytesRegression
  | spendingCapExhausted
  | capabilityExpired
  | badPreimage
  | chainIndexZero
  | unanchoredPreimage
  | chunkPriceMismatch
  | underpaid
  | underFold
deriving DecidableEq, Repr

/-- `VoucherRejectReason::is_watermark_gated`. -/
def RejectReason.isWatermarkGated : RejectReason → Bool
  | .spendingCapExhausted | .amountRegression | .bytesRegression | .underpaid | .underFold => true
  | _ => false

/-- `voucher_reject_reason`; `none` is the retry signal of a store failure. -/
def voucherRejectReason : PoolError → Option RejectReason
  | .wrongPool _ _ => some .wrongPool
  | .wrongProvider _ _ => some .wrongProvider
  | .amountRegression _ _ => some .amountRegression
  | .underFold _ _ _ => some .underFold
  | .bytesRegression _ _ => some .bytesRegression
  | .capExceeded _ _ => some .spendingCapExhausted
  | .badPreimage _ _ => some .badPreimage
  | .signature .invalidSignature => some .badSignature
  | .signature (.wrongSigner _ _) => some .wrongSigner
  | .store => none

/-- `WatermarkBundle`: what a rejected payer may resume from. -/
structure WatermarkBundle where
  amount : Nat
  bytesDelivered : Nat
  chainRoot : Bytes32
  verifiedIndex : Nat
  tip : Bytes32
  chunkPrice : Nat
  lastSignature : Signature
deriving DecidableEq, Repr

/-- `watermark_bundle_for_reject`. -/
def watermarkBundleForReject (reason : RejectReason) (s : LaneState) : Option WatermarkBundle :=
  if reason.isWatermarkGated then
    match s.lastSignature with
    | none => none
    | some lastSignature =>
      if s.lastAmount ≤ u64Max ∧ s.lastBytesDelivered ≤ u64Max ∧ s.chain.chunkPrice ≤ u64Max then
        some
          { amount := s.lastAmount
            bytesDelivered := s.lastBytesDelivered
            chainRoot := s.chain.chainRoot
            verifiedIndex := s.chain.verifiedIndex
            tip := s.chain.tip
            chunkPrice := s.chain.chunkPrice
            lastSignature := lastSignature }
      else none
  else none

/-! ## Delivery state -/

/-- `LaneDeliveryState`: the lane with the bytes its claim covers and the bytes
credited to streams. -/
structure LaneDeliveryState where
  state : LaneState
  bytesDeliveredCumulative : Nat
  paidCredited : Nat
deriving DecidableEq, Repr

/-- `LaneDeliveryState::hydrated`: the whole claim counts as credited. -/
def LaneDeliveryState.hydrated (state : LaneState) : LaneDeliveryState where
  state := state
  bytesDeliveredCumulative := state.owedBytes
  paidCredited := state.owedBytes

/-- `StreamAnchor`: the root the stream last carried a voucher for. -/
structure StreamAnchor where
  root : Option Bytes32 := none
deriving DecidableEq, Repr

/-- `StreamAnchor::adopt`: a sealed voucher clears the anchor. -/
def StreamAnchor.adopt (chainRoot : Bytes32) : StreamAnchor where
  root := if chainRoot = 0 then none else some chainRoot

/-- `OwedChunk`: a delivered chunk and the part of it nobody has paid. -/
structure OwedChunk where
  len : Nat
  remaining : Nat
  len_pos : 0 < len
  len_le : len ≤ u64Max
  remaining_le : remaining ≤ len
deriving DecidableEq, Repr

/-- `OwedChunk::new`. -/
def OwedChunk.new (len : Nat) (hpos : 0 < len) (hle : len ≤ u64Max) : OwedChunk :=
  ⟨len, len, hpos, hle, le_rfl⟩

/-- `OwedChunk::settle`: the chunk after a credit and whether it is now paid, or
`none` for a credit larger than what remains. -/
def OwedChunk.settle (owed : OwedChunk) (credited : Nat) : Option (OwedChunk × Bool) :=
  if credited ≤ owed.remaining then
    some (⟨owed.len, owed.remaining - credited, owed.len_pos, owed.len_le,
      le_trans (Nat.sub_le _ _) owed.remaining_le⟩, decide (owed.remaining - credited = 0))
  else none

/-! ## Credit -/

/-- `credit_advance`: the new credited total and the bytes it added; `none` when
they exceed 64 bits. -/
def creditAdvance (paidCredited deltaBytes watermark : Nat) : Option (Nat × Nat) :=
  let newCredited := min (U256.wrappingAdd paidCredited deltaBytes) watermark
  let credited := newCredited - paidCredited
  if credited ≤ u64Max then some (newCredited, credited) else none

/-- What a stale proof's credit comes to. -/
inductive StaleCredit where
  | paid (newCredited creditedBytes : Nat)
  | short
  | fault
deriving DecidableEq, Repr

/-- `credit_stale`: the headroom pays the whole chunk or nothing. -/
def creditStale (paidCredited due watermark : Nat) : StaleCredit :=
  match creditAdvance paidCredited due watermark with
  | none => .fault
  | some (newCredited, creditedBytes) =>
    if creditedBytes = due then .paid newCredited creditedBytes else .short

/-- `voucher_credit_delta`: a metering voucher takes no whole chunk. -/
def voucherCreditDelta (wire : WireVoucher) (owed : OwedChunk) : Nat :=
  if wire.chainRoot ≠ 0 ∧ chunkBytes ≤ owed.len then 0 else owed.remaining

/-- `chunk_price_matches_quote`. -/
def chunkPriceMatchesQuote (wire : WireVoucher) (ratePerMb : UInt64) : Bool :=
  decide (wire.chunkPrice = if wire.chainRoot = 0 then 0 else ratePerMb)

/-! ## Verification under the lock -/

/-- `VerifiedVoucher`. -/
structure VerifiedVoucher where
  nextState : LaneState
  newBytes : Nat
  amount : UInt64

/-- `VerifyStop`. -/
inductive VerifyStop where
  | reject (reason : RejectReason) (bundle : Option WatermarkBundle)
  | bail

/-- `verify_voucher`: advance and rate-check, or treat an already-satisfied
voucher as benign. -/
def verifyVoucher (s : LaneState) (cumulativeBytes : Nat) (sv : SignedVoucher)
    (wire : WireVoucher) (ratePerMb : UInt64) : Except VerifyStop VerifiedVoucher :=
  match s.advancePresigned sv with
  | .ok (nextState, applied) =>
    match verifyRate applied.amountDelta applied.bytesDelta ratePerMb.toNat
        defaultToleranceBps with
    | .ok () => .ok ⟨nextState, max nextState.owedBytes wire.bytesDelivered.toNat, wire.amount⟩
    | .error .underpayment =>
      .error (.reject .underpaid (watermarkBundleForReject .underpaid s))
    | .error _ => .error .bail
  | .error (.amountRegression last _) =>
    -- The same money for other bytes is a fault of the signer.
    if wire.amount.toNat = last ∧ wire.bytesDelivered.toNat ≠ s.lastBytesDelivered then
      .error (.reject .bytesRegression none)
    else
      .ok ⟨(s.adoptChain sv).getD s, cumulativeBytes, wire.amount⟩
  | .error e =>
    match voucherRejectReason e with
    | some reason => .error (.reject reason (watermarkBundleForReject reason s))
    | none => .error .bail

/-! ## The two commits -/

/-- `VoucherStop`, with the failures that end the stream without a frame. -/
inductive VoucherStop where
  | continued (creditedBytes : Nat)
  | rejected (reason : RejectReason) (bundle : Option WatermarkBundle)
  | failed
deriving DecidableEq, Repr

/-- What a commit reads beside the lane and the stream: the primitives, the
expiry margin and clock, and whether `pool_state_store.record` succeeds. -/
structure NodeEnv where
  H : Crypto
  K : Ecdsa
  marginSecs : Nat
  now : Nat
  record : LaneState → Bool

/-- `inside_capability_expiry_margin`. -/
def NodeEnv.insideExpiryMargin (env : NodeEnv) (expiry : Nat) : Bool :=
  decide (expiry = 0 ∨ expiry ≤ min (env.now + env.marginSecs) u64Max)

/-- The lane, the stream's anchor and the outcome after one proof. -/
structure CommitResult where
  lane : LaneDeliveryState
  anchor : StreamAnchor
  stop : VoucherStop

/-- The voucher half of `commit_one_proof`. -/
def commitVoucher (env : NodeEnv) (lane : LaneDeliveryState) (anchor : StreamAnchor)
    (wire : WireVoucher) (ratePerMb : UInt64) (owed : OwedChunk) : CommitResult :=
  let reject (reason : RejectReason) (bundle : Option WatermarkBundle) : CommitResult :=
    ⟨lane, anchor, .rejected reason bundle⟩
  if chunkPriceMatchesQuote wire ratePerMb = false then reject .chunkPriceMismatch none
  else
    match wireVoucherToSigned wire lane.state.poolId lane.state.signer lane.state.provider with
    | none => reject .badSignature none
    | some sv =>
      match sv.verifySigner env.H env.K lane.state.signer with
      | .error .invalidSignature => reject .badSignature none
      | .error (.wrongSigner _ _) => reject .wrongSigner none
      | .ok () =>
        if env.insideExpiryMargin lane.state.expiry then reject .capabilityExpired none
        else
          match verifyVoucher lane.state lane.bytesDeliveredCumulative sv wire ratePerMb with
          | .error (.reject reason bundle) => reject reason bundle
          | .error .bail => ⟨lane, anchor, .failed⟩
          | .ok verified =>
            let due := voucherCreditDelta wire owed
            let credit :=
              if wire.amount.toNat ≤ lane.state.lastAmount ∧ 0 < due then
                creditStale lane.paidCredited due verified.newBytes
              else
                match creditAdvance lane.paidCredited due verified.newBytes with
                | none => .fault
                | some (newCredited, creditedBytes) => .paid newCredited creditedBytes
            match credit with
            | .fault => ⟨lane, anchor, .failed⟩
            | .short =>
              reject .amountRegression (watermarkBundleForReject .amountRegression lane.state)
            | .paid newCredited creditedBytes =>
              let lane' : LaneDeliveryState :=
                { state := verified.nextState
                  bytesDeliveredCumulative := verified.newBytes
                  paidCredited := newCredited }
              -- The lane and the anchor have moved before the store answers.
              ⟨lane', .adopt wire.chainRoot,
                if env.record lane'.state then .continued creditedBytes else .failed⟩

/-- `commit_one_preimage`: fold a reveal under the stream's anchor and credit the
chunk. -/
def commitOnePreimage (env : NodeEnv) (lane : LaneDeliveryState) (anchor : StreamAnchor)
    (index : UInt8) (preimage : Bytes32) (walked : Option (Nat × Bytes32)) (owed : OwedChunk) :
    CommitResult :=
  let reject (reason : RejectReason) (bundle : Option WatermarkBundle) : CommitResult :=
    ⟨lane, anchor, .rejected reason bundle⟩
  if index = 0 then reject .chainIndexZero none
  else
    match anchor.root with
    | none => reject .unanchoredPreimage none
    | some root =>
      if env.insideExpiryMargin lane.state.expiry then reject .capabilityExpired none
      else
        match lane.state.advancePreimageVerified env.H root index preimage walked
            (LaneState.walk env.H index preimage walked) with
        | .error e =>
          match voucherRejectReason e with
          | some reason => reject reason (watermarkBundleForReject reason lane.state)
          | none => ⟨lane, anchor, .failed⟩
        | .ok (nextState, applied) =>
          if applied.advanced = false then
            -- Nothing moved: the headroom a sibling opened pays, or nothing does.
            match creditStale lane.paidCredited owed.remaining lane.state.owedBytes with
            | .fault => ⟨lane, anchor, .failed⟩
            | .short =>
              reject .amountRegression (watermarkBundleForReject .amountRegression lane.state)
            | .paid newCredited creditedBytes =>
              ⟨{ lane with paidCredited := newCredited }, anchor, .continued creditedBytes⟩
          else
            let lane' : LaneDeliveryState :=
              { lane with
                state := nextState
                bytesDeliveredCumulative := nextState.owedBytes }
            match creditAdvance lane.paidCredited owed.remaining nextState.owedBytes with
            | none => ⟨lane', anchor, .failed⟩
            | some (newCredited, creditedBytes) =>
              ⟨{ lane' with paidCredited := newCredited }, anchor,
                if env.record nextState then .continued creditedBytes else .failed⟩

/-- A payment proof as the stream reads it.  A preimage carries the frontier its
walk was run against. -/
inductive Proof where
  | voucher (wire : WireVoucher)
  | preimage (index : UInt8) (preimage : Bytes32) (walked : Option (Nat × Bytes32))

/-- `commit_one_proof`. -/
def commitOneProof (env : NodeEnv) (lane : LaneDeliveryState) (anchor : StreamAnchor)
    (proof : Proof) (ratePerMb : UInt64) (owed : OwedChunk) : CommitResult :=
  match proof with
  | .voucher wire => commitVoucher env lane anchor wire ratePerMb owed
  | .preimage index preimage walked =>
    commitOnePreimage env lane anchor index preimage walked owed

end Decdn.Node
