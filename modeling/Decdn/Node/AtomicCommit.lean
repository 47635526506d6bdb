import Decdn.Node.Credit

/-!
# Atomicity of a commit

A proof that does not continue its stream should leave the lane and the stream's anchor as
they were: `PoolStateStore::record` asks its callers not to advance their state when it
fails, and `LaneState::apply_voucher` records before it swaps.  `commit_one_proof` and
`commit_one_preimage` swap before they record.

Main results:

- Theorem `applyVoucher_atomic`: recording first is atomic.
- Theorem `commitOneProof_moves`: a proof moves the lane only by passing every check.
- Theorem `commit_atomic_iff`: the commits are atomic exactly when the store takes every
  state it is handed that moves something.
-/

namespace Decdn.Node

open PaymentPool (Crypto)
open Incentive

/-! ## Record, then swap -/

/-- `LaneState::apply_voucher`: the state after it and its answer. -/
def applyVoucher (H : Crypto) (K : Ecdsa) (record : LaneState → Bool) (s : LaneState)
    (sv : SignedVoucher) : LaneState × Except PoolError Applied :=
  match s.stageVoucher H K sv with
  | .error e => (s, .error e)
  | .ok (next, applied) => if record next then (next, .ok applied) else (s, .error .store)

/-- A voucher that is not applied leaves the state alone. -/
theorem applyVoucher_atomic (H : Crypto) (K : Ecdsa) (record : LaneState → Bool) (s : LaneState)
    (sv : SignedVoucher) {e : PoolError} (h : (applyVoucher H K record s sv).2 = .error e) :
    (applyVoucher H K record s sv).1 = s := by
  unfold applyVoucher at h ⊢
  split
  · rfl
  · rename_i next applied hstage
    rw [hstage] at h
    dsimp only at h
    split at h
    · cases h
    · rename_i hrefused
      rw [if_neg hrefused]

/-! ## Swap, then record -/

variable {env : NodeEnv} {lane lane' : LaneDeliveryState} {anchor anchor' : StreamAnchor}
  {ratePerMb : UInt64} {owed : OwedChunk} {proof : Proof}

/-- The credit of a verified voucher: a stale one that pays its chunk finds all of it in
headroom or is refused. -/
def voucherCredit (lane : LaneDeliveryState) (wire : WireVoucher) (owed : OwedChunk)
    (newBytes : Nat) : StaleCredit :=
  let due := voucherCreditDelta wire owed
  if wire.amount.toNat ≤ lane.state.lastAmount ∧ 0 < due then
    creditStale lane.paidCredited due newBytes
  else
    match creditAdvance lane.paidCredited due newBytes with
    | none => .fault
    | some (newCredited, creditedBytes) => .paid newCredited creditedBytes

/-- The proof passes every check, and the store is handed the state of the lane it moves
to. -/
inductive Passes (env : NodeEnv) (lane : LaneDeliveryState) (anchor : StreamAnchor)
    (ratePerMb : UInt64) (owed : OwedChunk) : Proof → LaneDeliveryState → StreamAnchor → Prop where
  | voucher {wire : WireVoucher} {sv : SignedVoucher} {verified : VerifiedVoucher}
      {newCredited creditedBytes : Nat}
      (hprice : chunkPriceMatchesQuote wire ratePerMb = true)
      (hsigned : wireVoucherToSigned wire lane.state.poolId lane.state.signer
        lane.state.provider = some sv)
      (hsigner : sv.verifySigner env.H env.K lane.state.signer = .ok ())
      (hexpiry : env.insideExpiryMargin lane.state.expiry = false)
      (hverified : verifyVoucher lane.state lane.bytesDeliveredCumulative sv wire ratePerMb =
        .ok verified)
      (hcredit : voucherCredit lane wire owed verified.newBytes = .paid newCredited creditedBytes) :
      Passes env lane anchor ratePerMb owed (.voucher wire)
        ⟨verified.nextState, verified.newBytes, newCredited⟩ (.adopt wire.chainRoot)
  | preimage {index : UInt8} {preimage root : Bytes32} {walked : Option (Nat × Bytes32)}
      {nextState : LaneState} {applied : Applied} {newCredited creditedBytes : Nat}
      (hindex : index ≠ 0) (hanchor : anchor.root = some root)
      (hexpiry : env.insideExpiryMargin lane.state.expiry = false)
      (hadvance : lane.state.advancePreimageVerified env.H root index preimage walked
        (LaneState.walk env.H index preimage walked) = .ok (nextState, applied))
      (hadvanced : applied.advanced = true)
      (hcredit : creditAdvance lane.paidCredited owed.remaining nextState.owedBytes =
        some (newCredited, creditedBytes)) :
      Passes env lane anchor ratePerMb owed (.preimage index preimage walked)
        ⟨nextState, nextState.owedBytes, newCredited⟩ anchor

/-- Past the checks the lane and the anchor have moved, and the store decides how the stream
goes on. -/
theorem commitOneProof_moves (h : Passes env lane anchor ratePerMb owed proof lane' anchor') :
    ∃ creditedBytes, commitOneProof env lane anchor proof ratePerMb owed =
      ⟨lane', anchor', if env.record lane'.state then .continued creditedBytes else .failed⟩ := by
  cases h with
  | @voucher wire sv verified newCredited creditedBytes hprice hsigned hsigner hexpiry hverified
      hcredit =>
    refine ⟨creditedBytes, ?_⟩
    unfold voucherCredit at hcredit
    unfold commitOneProof commitVoucher
    simp only [hprice, hsigned, hsigner, hexpiry, hverified, Bool.true_eq_false,
      Bool.false_eq_true, if_false]
    dsimp only at hcredit
    split at hcredit
    · rename_i hstale
      simp only [if_pos hstale, hcredit]
    · rename_i hfresh
      split at hcredit
      · cases hcredit
      · rename_i hadvance
        cases hcredit
        simp only [if_neg hfresh, hadvance]
  | @preimage index preimage root walked nextState applied newCredited creditedBytes hindex hanchor
      hexpiry hadvance hadvanced hcredit =>
    refine ⟨creditedBytes, ?_⟩
    unfold commitOneProof commitOnePreimage
    simp only [hindex, hanchor, hexpiry, hadvance, hadvanced, hcredit, Bool.true_eq_false,
      Bool.false_eq_true, if_false]

/-- A proof that fails a check leaves the lane and the anchor alone, unless it is a reveal
the lane has covered, which continues the stream. -/
theorem commitOneProof_checked :
    ((commitOneProof env lane anchor proof ratePerMb owed).lane = lane ∧
      (commitOneProof env lane anchor proof ratePerMb owed).anchor = anchor) ∨
    (∃ n, (commitOneProof env lane anchor proof ratePerMb owed).stop = .continued n) ∨
    ∃ lane' anchor', Passes env lane anchor ratePerMb owed proof lane' anchor' := by
  cases proof with
  | voucher wire =>
    unfold commitOneProof commitVoucher
    dsimp only
    split
    · exact .inl ⟨rfl, rfl⟩
    rename_i hprice
    split
    · exact .inl ⟨rfl, rfl⟩
    rename_i sv hsigned
    split
    · exact .inl ⟨rfl, rfl⟩
    · exact .inl ⟨rfl, rfl⟩
    rename_i hsigner
    split
    · exact .inl ⟨rfl, rfl⟩
    rename_i hexpiry
    split
    · exact .inl ⟨rfl, rfl⟩
    · exact .inl ⟨rfl, rfl⟩
    rename_i verified hverified
    split
    · exact .inl ⟨rfl, rfl⟩
    · exact .inl ⟨rfl, rfl⟩
    rename_i newCredited creditedBytes hcredit
    exact .inr (.inr ⟨_, _, .voucher (Bool.eq_true_of_not_eq_false hprice) hsigned hsigner
      (Bool.eq_false_of_not_eq_true hexpiry) hverified hcredit⟩)
  | preimage index preimage walked =>
    unfold commitOneProof commitOnePreimage
    dsimp only
    split
    · exact .inl ⟨rfl, rfl⟩
    rename_i hindex
    split
    · exact .inl ⟨rfl, rfl⟩
    rename_i root hanchor
    split
    · exact .inl ⟨rfl, rfl⟩
    rename_i hexpiry
    split
    · split
      · exact .inl ⟨rfl, rfl⟩
      · exact .inl ⟨rfl, rfl⟩
    rename_i nextState applied hadvance
    split
    · split
      · exact .inl ⟨rfl, rfl⟩
      · exact .inl ⟨rfl, rfl⟩
      · exact .inr (.inl ⟨_, rfl⟩)
    rename_i hadvanced
    split
    · rename_i hnone
      exact absurd hnone (creditAdvance_ne_none (le_trans owed.remaining_le owed.len_le))
    · rename_i newCredited creditedBytes hcredit
      exact .inr (.inr ⟨_, _, .preimage hindex hanchor (Bool.eq_false_of_not_eq_true hexpiry)
        hadvance (Bool.eq_true_of_not_eq_false hadvanced) hcredit⟩)

/-- A commit that does not continue its stream leaves the lane and the anchor as they were
exactly when every state that a passing proof hands the store is taken or is where the lane
and the anchor stood already. -/
theorem commit_atomic_iff (env : NodeEnv) (lane : LaneDeliveryState) (anchor : StreamAnchor)
    (proof : Proof) (ratePerMb : UInt64) (owed : OwedChunk) :
    ((∀ n, (commitOneProof env lane anchor proof ratePerMb owed).stop ≠ .continued n) →
      (commitOneProof env lane anchor proof ratePerMb owed).lane = lane ∧
        (commitOneProof env lane anchor proof ratePerMb owed).anchor = anchor) ↔
    ∀ lane' anchor', Passes env lane anchor ratePerMb owed proof lane' anchor' →
      env.record lane'.state = true ∨ (lane' = lane ∧ anchor' = anchor) := by
  constructor
  · intro hatomic lane' anchor' hpasses
    rcases commitOneProof_moves hpasses with ⟨creditedBytes, heq⟩
    rw [heq] at hatomic
    cases hrecord : env.record lane'.state with
    | true => exact .inl rfl
    | false =>
      refine .inr (hatomic ?_)
      intro n
      rw [hrecord, if_neg Bool.false_ne_true]
      exact VoucherStop.noConfusion
  · intro htaken hstop
    have hchecked : ((commitOneProof env lane anchor proof ratePerMb owed).lane = lane ∧
        (commitOneProof env lane anchor proof ratePerMb owed).anchor = anchor) ∨
      (∃ n, (commitOneProof env lane anchor proof ratePerMb owed).stop = .continued n) ∨
      ∃ lane' anchor', Passes env lane anchor ratePerMb owed proof lane' anchor' :=
        commitOneProof_checked
    rcases hchecked with hkept | ⟨n, hcontinued⟩ | ⟨lane', anchor', hpasses⟩
    · exact hkept
    · exact absurd hcontinued (hstop n)
    · rcases commitOneProof_moves hpasses with ⟨creditedBytes, heq⟩
      rcases htaken lane' anchor' hpasses with hrecord | hsame
      · rw [heq, if_pos hrecord] at hstop
        exact absurd rfl (hstop creditedBytes)
      · rw [heq]
        exact hsame

/-- A store that refuses every state. -/
def refusingEnv : NodeEnv := { sampleEnv with record := fun _ => false }

/-- The sample lane after its opening voucher. -/
def sampleOpenedLane : LaneDeliveryState := LaneDeliveryState.hydrated sampleOpened

/-- A refused record bails with the reveal folded into the lane. -/
theorem refused_record_keeps_reveal :
    let r := commitOneProof refusingEnv sampleOpenedLane ⟨some sampleRoot⟩
      (.preimage 1 0 (some (0, sampleRoot))) 10 (.new chunkBytes (by decide) (by decide))
    r.stop = .failed ∧ sampleOpenedLane.state.chain.verifiedIndex = 0 ∧
      r.lane.state.chain.verifiedIndex = 1 := by
  refine ⟨rfl, rfl, rfl⟩

end Decdn.Node
