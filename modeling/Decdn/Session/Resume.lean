import Decdn.Session.Reopening

/-!
# Resume converges

A payer that starts from a stale watermark draws a rejection, heals from the
bundle it carries, and opens again.  By then it may have sent more proofs behind
the refused one, so the heal can find a ledger that covers the claim and still
meters a chain that the node never took.  The node takes the next opening exactly
when it opens a chain over the claim which the healed ledger states.

Main results:

- Theorem `commitVoucher_rejected`, Theorem `commitOnePreimage_rejected`: why the
  node rejects a first proof with a bundle.
- Theorem `oneRound`: which rejections one heal answers.
- Theorem `resume_converges`: where the first rejection of a stream leads.
-/

namespace Decdn.Session

open PaymentPool (Crypto)
open Incentive Client Node
open PoolLedger (Issue)

variable {H : Crypto} {K : Ecdsa} {s : LaneState} {l : PoolLedger} {c : Cumulative}
  {ratePerMb : UInt64}

/-! ## What the node refuses -/

variable {env : NodeEnv} {lane : LaneDeliveryState} {anchor : StreamAnchor} {wire : WireVoucher}
  {owed : OwedChunk} {reason : RejectReason} {bundle : Option WatermarkBundle}

/-- Why a lane does not advance over a voucher. -/
inductive Refused (s : LaneState) (sv : SignedVoucher) : PoolError → Prop where
  | amountRegression (hbelow : sv.voucher.amount ≤ s.lastAmount) :
      Refused s sv (.amountRegression s.lastAmount sv.voucher.amount)
  | underFoldAmount (hbelow : sv.voucher.amount < s.owed) :
      Refused s sv (.underFold .amount s.owed sv.voucher.amount)
  | underFoldBytes (hbelow : sv.voucher.bytesDelivered < s.owedBytes) :
      Refused s sv (.underFold .bytes s.owedBytes sv.voucher.bytesDelivered)
  | bytesRegression (hbelow : sv.voucher.bytesDelivered < s.lastBytesDelivered) :
      Refused s sv (.bytesRegression s.lastBytesDelivered sv.voucher.bytesDelivered)
  | capExceeded (claimed : Nat) : Refused s sv (.capExceeded s.cap claimed)

theorem advancePresigned_refused {sv : SignedVoucher} {e : PoolError}
    (h : s.advancePresigned sv = .error e) : Refused s sv e := by
  have hamount : s.liveClaim.any (fun live => decide (sv.voucher.amount < live.value)) = true →
      sv.voucher.amount < s.owed := by
    intro hany
    by_contra hle
    exact not_any_of_owed_le (Nat.le_of_not_lt hle) hany
  have hbytes : s.liveClaim.any
      (fun live => decide (sv.voucher.bytesDelivered < live.bytesValue)) = true →
      sv.voucher.bytesDelivered < s.owedBytes := by
    intro hany
    by_contra hle
    exact not_any_of_owedBytes_le (Nat.le_of_not_lt hle) hany
  unfold LaneState.advancePresigned at h
  dsimp only at h
  split at h
  · rename_i hbelow
    split at h
    · rename_i hopens
      cases h
      exact .underFoldAmount (hamount hopens.2.2.2)
    · cases h
      exact .amountRegression hbelow
  split at h
  · rename_i hbelow
    cases h
    exact .bytesRegression hbelow
  split at h
  · cases h
    exact .capExceeded _
  split at h
  · split at h
    · cases h
      exact .capExceeded _
    · cases h
  · split at h
    · rename_i hany
      cases h
      exact .underFoldAmount (hamount hany)
    · split at h
      · rename_i hany
        cases h
        exact .underFoldBytes (hbytes hany)
      · cases h

/-- Why a lane rejects a voucher with its bundle, the cap apart. -/
inductive Rejects (s : LaneState) (ratePerMb : UInt64) (v : Cumulative) : RejectReason → Prop where
  | underFoldAmount (hbelow : v.amount < s.owed) : Rejects s ratePerMb v .underFold
  | underFoldBytes (hbelow : v.bytes < s.owedBytes) : Rejects s ratePerMb v .underFold
  | bytesRegression (hbelow : v.bytes < s.lastBytesDelivered) :
      Rejects s ratePerMb v .bytesRegression
  | underpaid (hamount : s.lastAmount < v.amount) (hbytes : s.lastBytesDelivered ≤ v.bytes)
      (hrate : verifyRate (v.amount - s.lastAmount) (v.bytes - s.lastBytesDelivered)
        ratePerMb.toNat defaultToleranceBps = .error .underpayment) :
      Rejects s ratePerMb v .underpaid
  | stale (hamount : v.amount ≤ s.lastAmount)
      (hbytes : v.amount = s.lastAmount → v.bytes = s.lastBytesDelivered) :
      Rejects s ratePerMb v .amountRegression

/-- The claim a wire voucher signs. -/
def claimOf (wire : WireVoucher) : Cumulative :=
  ⟨wire.bytesDelivered.toNat, wire.amount.toNat⟩

/-- The fault of a signer that pays the same money for other bytes. -/
structure SignerFault (s : LaneState) (v : Cumulative) : Prop where
  amount : v.amount = s.lastAmount
  bytes : v.bytes ≠ s.lastBytesDelivered

/-- The signed voucher is the wire's claim and root. -/
theorem signed_claim {sv : SignedVoucher}
    (h : wireVoucherToSigned wire s.poolId s.signer s.provider = some sv) :
    sv.voucher.amount = (claimOf wire).amount ∧
      sv.voucher.bytesDelivered = (claimOf wire).bytes ∧ sv.voucher.chainRoot = wire.chainRoot := by
  unfold wireVoucherToSigned at h
  rcases Option.map_eq_some_iff.mp h with ⟨signature, -, rfl⟩
  exact ⟨rfl, rfl, rfl⟩

/-- A verified voucher is rejected with the lane's bundle, or as a fault of its signer. -/
theorem verifyVoucher_rejected {sv : SignedVoucher} {cumulativeBytes : Nat}
    (hsv : wireVoucherToSigned wire s.poolId s.signer s.provider = some sv)
    (h : verifyVoucher s cumulativeBytes sv wire ratePerMb = .error (.reject reason bundle)) :
    (reason = .bytesRegression ∧ bundle = none ∧ SignerFault s (claimOf wire)) ∨
      (bundle = watermarkBundleForReject reason s ∧
        (reason = .spendingCapExhausted ∨ Rejects s ratePerMb (claimOf wire) reason)) := by
  rcases signed_claim hsv with ⟨hamount, hbytes, -⟩
  unfold verifyVoucher at h
  split at h
  · rename_i next applied hadvance
    split at h
    · cases h
    · rename_i hrate
      cases h
      rcases advancePresigned_cases hadvance with ⟨rfl, hbump | hroll⟩
      · rw [hamount, hbytes] at hrate
        exact .inr ⟨rfl, .inr (.underpaid (hamount ▸ hbump.amount_lt) (hbytes ▸ hbump.bytes_le)
          hrate)⟩
      · rw [hamount, hbytes] at hrate
        exact .inr ⟨rfl, .inr (.underpaid (hamount ▸ hroll.amount_lt) (hbytes ▸ hroll.bytes_le)
          hrate)⟩
    · cases h
  · rename_i last got hregress
    split at h
    · rename_i hsame
      cases h
      cases advancePresigned_refused hregress
      exact .inl ⟨rfl, rfl, hsame.1, hsame.2⟩
    · cases h
  · rename_i e hnot hrefused
    split at h
    · rename_i found hreason
      cases h
      refine .inr ⟨rfl, ?_⟩
      cases advancePresigned_refused hrefused with
      | amountRegression hbelow => exact absurd rfl (hnot _ _)
      | underFoldAmount hbelow =>
        cases hreason
        exact .inr (.underFoldAmount (hamount ▸ hbelow))
      | underFoldBytes hbelow =>
        cases hreason
        exact .inr (.underFoldBytes (hbytes ▸ hbelow))
      | bytesRegression hbelow =>
        cases hreason
        exact .inr (.bytesRegression (hbytes ▸ hbelow))
      | capExceeded claimed =>
        cases hreason
        exact .inl rfl
    · cases h

/-- A voucher is taken as an advance, or because the anchor is not below it. -/
theorem verifyVoucher_taken {sv : SignedVoucher} {cumulativeBytes : Nat}
    {verified : VerifiedVoucher}
    (hsv : wireVoucherToSigned wire s.poolId s.signer s.provider = some sv)
    (h : verifyVoucher s cumulativeBytes sv wire ratePerMb = .ok verified) :
    (Bump s sv verified.nextState ∨ Roll s sv verified.nextState) ∨
      ((claimOf wire).amount ≤ s.lastAmount ∧
        ((claimOf wire).amount = s.lastAmount → (claimOf wire).bytes = s.lastBytesDelivered) ∧
        verified.nextState = (s.adoptChain sv).getD s) := by
  rcases signed_claim hsv with ⟨hamount, -, -⟩
  unfold verifyVoucher at h
  split at h
  · rename_i next applied hadvance
    split at h
    · cases h
      exact .inl (advancePresigned_cases hadvance).2
    · cases h
    · cases h
  · rename_i last got hregress
    split at h
    · cases h
    · rename_i hsame
      cases h
      cases advancePresigned_refused hregress with
      | amountRegression hbelow =>
        refine .inr ⟨hamount ▸ hbelow, fun heq => ?_, rfl⟩
        by_contra hne
        exact hsame ⟨heq, hne⟩
  · split at h <;> cases h

/-- A chain that is not adopted at the anchor seals, is live already, or follows one that has
proved something. -/
theorem adoptChain_refused {sv : SignedVoucher} (h : s.adoptChain sv = none)
    (hamount : sv.voucher.amount = s.lastAmount)
    (hbytes : sv.voucher.bytesDelivered = s.lastBytesDelivered) :
    sv.voucher.chainRoot = 0 ∨ sv.voucher.chainRoot = s.chain.chainRoot ∨
      0 < s.chain.verifiedIndex := by
  unfold LaneState.adoptChain at h
  dsimp only at h
  split at h
  · rename_i hzero
    exact .inl hzero
  split at h
  · rename_i hlive
    exact .inr (.inl hlive.symm)
  split at h
  · rename_i hproved
    exact .inr (.inr hproved)
  · rw [if_neg (by rw [hamount, hbytes]; simp)] at h
    cases h

/-- The lane a voucher was taken on claims at least the voucher.  At its own anchor it holds the
voucher's bytes, and its chain is the voucher's unless that seals or something is proved. -/
structure Holds (s : LaneState) (wire : WireVoucher) : Prop where
  amount_le : (claimOf wire).amount ≤ s.lastAmount
  bytes : (claimOf wire).amount = s.lastAmount → (claimOf wire).bytes = s.lastBytesDelivered
  chain : (claimOf wire).amount = s.lastAmount → wire.chainRoot = 0 ∨
    wire.chainRoot = s.chain.chainRoot ∨ 0 < s.chain.verifiedIndex

theorem verifyVoucher_holds {sv : SignedVoucher} {cumulativeBytes : Nat}
    {verified : VerifiedVoucher}
    (hsv : wireVoucherToSigned wire s.poolId s.signer s.provider = some sv)
    (h : verifyVoucher s cumulativeBytes sv wire ratePerMb = .ok verified) :
    Holds verified.nextState wire := by
  rcases signed_claim hsv with ⟨hamount, hbytes, hroot⟩
  rcases verifyVoucher_taken hsv h with (hbump | hroll) | ⟨hbelow, hsame, hnext⟩
  · rw [hbump.state_eq]
    exact ⟨le_of_eq hamount.symm, fun _ => hbytes.symm,
      fun _ => .inr (.inl (hroot.symm.trans hbump.root_eq))⟩
  · rw [hroll.state_eq]
    exact ⟨le_of_eq hamount.symm, fun _ => hbytes.symm, fun _ => .inr (.inl hroot.symm)⟩
  · rw [hnext]
    cases hadopt : s.adoptChain sv with
    | none =>
      refine ⟨hbelow, hsame, fun heq => ?_⟩
      rw [← hroot]
      exact adoptChain_refused hadopt (hamount.trans heq) (hbytes.trans (hsame heq))
    | some s' =>
      rcases adoptChain_cases hadopt with hanchor | hreopen
      · rw [Option.getD_some, hanchor.state_eq]
        exact ⟨le_of_eq hamount.symm, fun _ => hbytes.symm,
          fun _ => .inr (.inl (hroot.symm.trans hanchor.root_eq.symm))⟩
      · rw [Option.getD_some, hreopen.state_eq]
        exact ⟨hbelow, hsame, fun _ => .inr (.inl hroot.symm)⟩

/-- So is one that reaches the credit: a stale proof that pays its chunk must find all of it. -/
theorem commitVoucher_rejected (hgated : reason.isWatermarkGated = true)
    (h : (commitVoucher env lane anchor wire ratePerMb owed).stop = .rejected reason bundle) :
    (reason = .bytesRegression ∧ bundle = none ∧ SignerFault lane.state (claimOf wire)) ∨
      (bundle = watermarkBundleForReject reason lane.state ∧
        (reason = .spendingCapExhausted ∨ Rejects lane.state ratePerMb (claimOf wire) reason)) := by
  unfold commitVoucher at h
  dsimp only at h
  split at h
  · cases h
    cases hgated
  split at h
  · cases h
    cases hgated
  rename_i sv hsv
  split at h
  · cases h
    cases hgated
  · cases h
    cases hgated
  split at h
  · cases h
    cases hgated
  split at h
  · rename_i found offered hreject
    cases h
    exact verifyVoucher_rejected hsv hreject
  · cases h
  rename_i verified hverified
  split at h
  · cases h
  · rename_i hcredit
    cases h
    refine .inr ⟨rfl, .inr ?_⟩
    split at hcredit
    · rename_i hstale
      rcases signed_claim hsv with ⟨hamount, -, -⟩
      rcases verifyVoucher_taken hsv hverified with (hbump | hroll) | ⟨hbelow, hsame, -⟩
      · have hlt := hbump.amount_lt
        rw [hamount] at hlt
        exact absurd hstale.1 (Nat.not_le.mpr hlt)
      · have hlt := hroll.amount_lt
        rw [hamount] at hlt
        exact absurd hstale.1 (Nat.not_le.mpr hlt)
      · exact .stale hbelow hsame
    · split at hcredit <;> cases hcredit
  · split at h <;> cases h

/-- A voucher that goes on leaves the lane holding it, and its root as the stream's anchor. -/
theorem commitVoucher_continued {lane' : LaneDeliveryState} {anchor' : StreamAnchor}
    {creditedBytes : Nat}
    (h : commitVoucher env lane anchor wire ratePerMb owed =
      ⟨lane', anchor', .continued creditedBytes⟩) :
    Holds lane'.state wire ∧ anchor' = .adopt wire.chainRoot := by
  unfold commitVoucher at h
  dsimp only at h
  split at h
  · cases h
  split at h
  · cases h
  rename_i sv hsv
  split at h
  · cases h
  · cases h
  split at h
  · cases h
  split at h
  · cases h
  · cases h
  rename_i verified hverified
  split at h
  · cases h
  · cases h
  · injection h with hlane hanchor hstop
    rw [← hlane, ← hanchor]
    exact ⟨verifyVoucher_holds hsv hverified, rfl⟩

/-- What a reveal does: nothing, for want of a live chain or an index past its frontier; a refusal
on its walk or at the cap; or an advance. -/
inductive Revealed (s : LaneState) (root : Bytes32) (index : UInt8) :
    Except PoolError (LaneState × Applied) → Prop where
  | still (hcovered : root = 0 ∨ root ≠ s.chain.chainRoot ∨
      index.toNat ≤ s.chain.verifiedIndex) : Revealed s root index (.ok (s, {}))
  | badPreimage : Revealed s root index (.error (.badPreimage index.toNat s.chain.verifiedIndex))
  | capExceeded (claimed : Nat) : Revealed s root index (.error (.capExceeded s.cap claimed))
  | advanced {s' : LaneState} {applied : Applied} (hadvanced : applied.advanced = true) :
      Revealed s root index (.ok (s', applied))

theorem advancePreimageVerified_revealed (root preimage : Bytes32) (index : UInt8)
    (walked : Option (Nat × Bytes32)) (walkedOk : Bool) :
    Revealed s root index (s.advancePreimageVerified H root index preimage walked walkedOk) := by
  unfold LaneState.advancePreimageVerified
  split
  · rename_i hslot
    refine .still ?_
    unfold LaneState.chainSlot at hslot
    split at hslot
    · cases hslot
    · rename_i hforeign
      by_cases hzero : root = 0
      · exact .inl hzero
      · exact .inr (.inl fun heq => hforeign ⟨hzero, heq⟩)
  · rename_i target hslot
    rcases chainSlot_eq_some hslot with ⟨-, -, rfl⟩
    by_cases hbelow : index.toNat ≤ s.chain.verifiedIndex
    · rw [if_pos hbelow]
      exact .still (.inr (.inr hbelow))
    · rw [if_neg hbelow]
      dsimp only
      generalize (if walked = some (s.chain.verifiedIndex, s.chain.tip) then walkedOk
        else verifyForward H preimage (index.toNat - s.chain.verifiedIndex) s.chain.tip) = verified
      cases verified with
      | false => exact .badPreimage
      | true =>
        rw [if_neg (by decide)]
        split
        · exact .capExceeded _
        · refine .advanced ?_
          have hindex := index.toNat_lt
          have hbytes : U256.wrappingMul chunkBytes (index.toNat - s.chain.verifiedIndex) ≠ 0 := by
            unfold U256.wrappingMul U256.modulus chunkBytes
            omega
          unfold Applied.advanced
          rw [Bool.or_eq_true, decide_eq_true_eq, decide_eq_true_eq]
          exact .inr hbytes

/-- A reveal is rejected with a bundle at the cap, or because it moves nothing and finds no
credit. -/
theorem commitOnePreimage_rejected {index : UInt8} {preimage : Bytes32}
    {walked : Option (Nat × Bytes32)} (hgated : reason.isWatermarkGated = true)
    (h : (commitOnePreimage env lane anchor index preimage walked owed).stop =
      .rejected reason bundle) :
    bundle = watermarkBundleForReject reason lane.state ∧
      (reason = .spendingCapExhausted ∨ (reason = .amountRegression ∧
        ∃ root, anchor.root = some root ∧
          (root = 0 ∨ root ≠ lane.state.chain.chainRoot ∨
            index.toNat ≤ lane.state.chain.verifiedIndex))) := by
  unfold commitOnePreimage at h
  dsimp only at h
  split at h
  · cases h
    cases hgated
  split at h
  · cases h
    cases hgated
  rename_i root hroot
  split at h
  · cases h
    cases hgated
  split at h
  · rename_i e hrefused
    have hrevealed := advancePreimageVerified_revealed (H := env.H) (s := lane.state) root preimage
      index walked (LaneState.walk env.H index preimage walked)
    rw [hrefused] at hrevealed
    split at h
    · rename_i found hreason
      cases h
      refine ⟨rfl, .inl ?_⟩
      cases hrevealed with
      | badPreimage =>
        cases hreason
        cases hgated
      | capExceeded claimed =>
        cases hreason
        rfl
    · cases h
  rename_i next applied hadvance
  have hrevealed := advancePreimageVerified_revealed (H := env.H) (s := lane.state) root preimage
    index walked (LaneState.walk env.H index preimage walked)
  rw [hadvance] at hrevealed
  split at h
  · rename_i hstill
    split at h
    · cases h
    · cases h
      refine ⟨rfl, .inr ⟨rfl, root, hroot, ?_⟩⟩
      cases hrevealed with
      | still hcovered => exact hcovered
      | advanced hadvanced =>
        rw [hstill] at hadvanced
        cases hadvanced
    · cases h
  · split at h
    · cases h
    · split at h <;> cases h

/-! ## One round -/

/-- What the lane is owed, as the payer's ledger counts it. -/
def claimed (s : LaneState) : Cumulative := ⟨s.owedBytes, s.owed⟩

/-- The live chain pays the rate for whatever it has proved. -/
def ChainPays (s : LaneState) (ratePerMb : UInt64) : Prop :=
  s.chain.verifiedIndex = 0 ∨
    (0 < s.chain.chunkPrice ∧ ratePerMb.toNat ≤ s.chain.chunkPrice)

/-- The ledger covers the lane's claim on the amount and not on the bytes. -/
def Overpaid (s : LaneState) (left : Cumulative) : Prop :=
  s.owed ≤ left.amount ∧ left.bytes < s.owedBytes

/-- What a payer adds for some bytes at the rate. -/
def spanCost (delta : Nat) (ratePerMb : UInt64) : Nat :=
  (delta * ratePerMb.toNat + (mbBytes - 1)) / mbBytes

theorem le_spanCost (delta : Nat) (ratePerMb : UInt64) :
    delta * ratePerMb.toNat ≤ spanCost delta ratePerMb * mbBytes := by
  unfold spanCost mbBytes
  omega

/-- A chain that pays the rate pays for its own bytes and for any span priced at the rate. -/
theorem ChainPays.paid (h : ChainPays s ratePerMb) (delta : Nat) :
    (chunkBytes * s.chain.verifiedIndex + delta) * ratePerMb.toNat ≤
      (s.chain.chunkPrice * s.chain.verifiedIndex + spanCost delta ratePerMb) *
        Node.bytesPerMb := by
  have hspan := le_spanCost delta ratePerMb
  have hproved : s.chain.verifiedIndex * ratePerMb.toNat ≤
      s.chain.chunkPrice * s.chain.verifiedIndex := by
    rcases h with hnone | ⟨-, hprice⟩
    · rw [hnone, Nat.zero_mul]
      exact Nat.zero_le _
    · rw [Nat.mul_comm]
      exact Nat.mul_le_mul_right _ hprice
  rw [Nat.add_mul, Nat.mul_assoc]
  generalize delta * ratePerMb.toNat = span at hspan ⊢
  generalize s.chain.verifiedIndex * ratePerMb.toNat = due at hproved ⊢
  generalize s.chain.chunkPrice * s.chain.verifiedIndex = accrued at hproved ⊢
  unfold mbBytes at hspan
  unfold chunkBytes Node.bytesPerMb
  omega

/-- What a chain accrues fits the rate check. -/
theorem WireLane.accrued_le (hwire : WireLane s) :
    s.chain.chunkPrice * s.chain.verifiedIndex ≤ 255 * u64Max := by
  rw [Nat.mul_comm]
  exact Nat.mul_le_mul hwire.index_le hwire.price_le

/-- The lane's own claim opens again. -/
theorem claimed_opens (hwire : WireLane s) (hprice : ChainPays s ratePerMb) :
    Reopens s ratePerMb (claimed s) := by
  rcases hwire.owed_eq with ⟨howed, howedBytes⟩
  rcases Nat.eq_zero_or_pos s.chain.verifiedIndex with hnone | hproved
  · refine .inl ⟨?_, ?_, hnone⟩
    · change s.owed = s.lastAmount
      rw [howed, hnone, Nat.mul_zero, Nat.add_zero]
    · change s.owedBytes = s.lastBytesDelivered
      rw [howedBytes, hnone, Nat.mul_zero, Nat.add_zero]
  · have hpositive : 0 < s.chain.chunkPrice * s.chain.verifiedIndex := by
      rcases hprice with hnone | ⟨hpos, -⟩
      · omega
      · exact Nat.mul_pos hpos hproved
    refine .inr ⟨?_, ?_, le_rfl, le_rfl, ?_⟩
    · change s.lastAmount < s.owed
      omega
    · change s.lastBytesDelivered ≤ s.owedBytes
      omega
    · have hpaid := hprice.paid 0
      change verifyRate (s.owed - s.lastAmount) (s.owedBytes - s.lastBytesDelivered) _ _ = _
      rw [howed, howedBytes, Nat.add_sub_cancel_left, Nat.add_sub_cancel_left]
      rw [show spanCost 0 ratePerMb = 0 by unfold spanCost mbBytes; omega, Nat.add_zero,
        Nat.add_zero] at hpaid
      have hindex := hwire.index_le
      have haccrued := WireLane.accrued_le hwire
      exact verifyRate_ok (by unfold chunkBytes; omega) (by omega)
        (by unfold chunkBytes u64Max; omega) (toNat_le_u64Max ratePerMb) hpaid

/-- Where a ledger stands towards the lane's claim when its first voucher is refused and nothing
behind it is left: the heal moves it, no heal takes the rejection, or it stands there already. -/
theorem rejects_first (hwire : WireLane s) (hprice : ChainPays s ratePerMb) {seed v : Cumulative}
    {delta : Nat} (hbytes : v.bytes = seed.bytes + delta)
    (hamount : v.amount = seed.amount + spanCost delta ratePerMb)
    (hbytesLe : v.bytes ≤ u64Max) (hamountLe : v.amount ≤ u64Max)
    (h : Rejects s ratePerMb v reason) :
    Moves reason (claimed s) seed ∨
      ((reason = .underFold ∨ reason = .amountRegression) ∧ Overpaid s seed) ∨
      (reason = .amountRegression ∧ seed = claimed s) := by
  rcases hwire.owed_eq with ⟨howed, howedBytes⟩
  rcases Nat.lt_or_ge seed.amount s.owed with hbehind | hahead
  · exact .inl (.inl hbehind)
  cases h with
  | underFoldAmount hbelow => omega
  | underFoldBytes hbelow =>
    have hshort : seed.bytes < s.owedBytes := by omega
    exact .inr (.inl ⟨.inl rfl, hahead, hshort⟩)
  | bytesRegression hbelow =>
    have hshort : seed.bytes < s.owedBytes := by omega
    exact .inl (.inr (.inr ⟨rfl, hshort⟩))
  | underpaid hpast hpastBytes hunderpaid =>
    -- A ledger at the lane's claim folds the chain at its price, which pays.
    refine .inl (.inr (.inl ⟨rfl, ?_⟩))
    rintro rfl
    change v.bytes = s.owedBytes + delta at hbytes
    change v.amount = s.owed + spanCost delta ratePerMb at hamount
    have hpaid := hprice.paid delta
    have hspan : v.bytes - s.lastBytesDelivered =
        chunkBytes * s.chain.verifiedIndex + delta := by omega
    have hmoney : v.amount - s.lastAmount =
        s.chain.chunkPrice * s.chain.verifiedIndex + spanCost delta ratePerMb := by omega
    rw [← hspan, ← hmoney] at hpaid
    rcases Nat.eq_zero_or_pos (v.bytes - s.lastBytesDelivered) with hnone | hsome
    · unfold verifyRate at hunderpaid
      rw [if_pos hnone] at hunderpaid
      cases hunderpaid
    · rw [verifyRate_ok (by omega) (by omega) (by omega) (toNat_le_u64Max ratePerMb) hpaid]
        at hunderpaid
      cases hunderpaid
  | stale hbelow hsame =>
    have hsameBytes := hsame (by omega)
    by_cases hstands : s.chain.verifiedIndex = 0 ∧ delta = 0
    · rw [hstands.1, Nat.mul_zero] at howed howedBytes
      refine .inr (.inr ⟨rfl, ?_⟩)
      cases seed with
      | mk bytes amount =>
        unfold claimed
        dsimp only at *
        congr 1
        · omega
        · omega
    · have hshort : seed.bytes < s.owedBytes := by
        unfold chunkBytes at howedBytes
        omega
      exact .inr (.inl ⟨.inr rfl, hahead, hshort⟩)

/-- The heal takes the rejection, and the lane takes whatever the ledger opens next. -/
def Converges (H : Crypto) (s : LaneState) (ratePerMb : UInt64) (reason : RejectReason)
    (proofGeneration : Option Nat) (l : PoolLedger) : Prop :=
  (healWatermarkDesync reason proofGeneration (claimed s) l).2.isSome = true ∧
    ∀ (chainSeed : Bytes32) (wire : WireVoucher) (sv : SignedVoucher) (cumulativeBytes : Nat)
      (walked : Option (Nat × Bytes32)),
      NextOpening H s ratePerMb (healWatermarkDesync reason proofGeneration (claimed s) l).1
        chainSeed wire sv →
      Taken H s ratePerMb (healWatermarkDesync reason proofGeneration (claimed s) l).1 chainSeed
        wire sv cumulativeBytes walked

/-- No heal takes the rejection, or the lane takes nothing that the ledger opens next. -/
def Wedges (H : Crypto) (s : LaneState) (ratePerMb : UInt64) (reason : RejectReason)
    (proofGeneration : Option Nat) (l : PoolLedger) : Prop :=
  healWatermarkDesync reason proofGeneration (claimed s) l = (l, none) ∨
    ∀ (chainSeed : Bytes32) (wire : WireVoucher) (sv : SignedVoucher) (cumulativeBytes : Nat)
      (walked : Option (Nat × Bytes32)),
      NextOpening H s ratePerMb (healWatermarkDesync reason proofGeneration (claimed s) l).1
        chainSeed wire sv →
      ¬ Taken H s ratePerMb (healWatermarkDesync reason proofGeneration (claimed s) l).1 chainSeed
        wire sv cumulativeBytes walked

/-- The rejections that one heal answers: the ledger moves to the lane's claim, an under-fold
folds a ledger that covers it, or the ledger is left where it stands, and the lane opens a chain
over what the ledger then claims. -/
inductive Healable (s : LaneState) (ratePerMb : UInt64) (reason : RejectReason) (l : PoolLedger) :
    Prop where
  | moved (hmoves : Moves reason (claimed s) l.pipeline.owed)
      (hopens : Reopens s ratePerMb (claimed s)) : Healable s ratePerMb reason l
  | folded (hreason : reason = .underFold) (hcovers : Covers (claimed s) l.pipeline.owed)
      (hopens : Reopens s ratePerMb l.pipeline.owed) : Healable s ratePerMb reason l
  | kept (hreason : reason = .amountRegression ∨ reason = .bytesRegression)
      (hcovers : Covers (claimed s) l.pipeline.owed)
      (hopens : Reopens s ratePerMb l.pipeline.committed) : Healable s ratePerMb reason l

/-- No heal takes the rejection: the ledger paid for the claim with fewer bytes. -/
def Terminal (s : LaneState) (reason : RejectReason) (proofGeneration : Option Nat)
    (l : PoolLedger) : Prop :=
  healWatermarkDesync reason proofGeneration (claimed s) l = (l, none) ∧
    Overpaid s l.pipeline.owed

variable {proofGeneration : Option Nat} {seed : Cumulative}

/-- Where a payer's ledger stands when it reads its first rejection. -/
inductive Resting (H : Crypto) (ratePerMb : UInt64) (seed : Cumulative) (l : PoolLedger) :
    Prop where
  | idle (huntouched : Untouched l) (hstands : StandsAt l seed) : Resting H ratePerMb seed l
  | meters {chainSeed : Bytes32} {depth : Nat}
      (hmeters : MetersChain H ratePerMb seed chainSeed depth l) : Resting H ratePerMb seed l

theorem Resting.untouched (h : Resting H ratePerMb seed l) : Untouched l := by
  cases h with
  | idle huntouched hstands => exact huntouched
  | meters hmeters => exact hmeters.untouched

/-- As it is, such a ledger opens over its anchor. -/
theorem Resting.opensOver (h : Resting H ratePerMb seed l) (hwire : WireLane s) :
    OpensOver H s ratePerMb l l.pipeline.committed := by
  cases h with
  | idle huntouched hstands =>
    rw [hstands.committed]
    exact opensOver_stands hwire hstands
  | meters hmeters => exact opensOver_meters hwire hmeters

/-- One heal answers the rejection exactly when it is healable, and otherwise leaves the lane
wedged. -/
def OneRound (H : Crypto) (s : LaneState) (ratePerMb : UInt64) (reason : RejectReason)
    (proofGeneration : Option Nat) (l : PoolLedger) : Prop :=
  (Healable s ratePerMb reason l → Converges H s ratePerMb reason proofGeneration l) ∧
    (¬ Healable s ratePerMb reason l → Wedges H s ratePerMb reason proofGeneration l)

/-- So it is when a heal takes the rejection, and healable is what the lane opens a chain over. -/
theorem oneRound_of_iff (hopens : OpensOver H s ratePerMb
      (healWatermarkDesync reason proofGeneration (claimed s) l).1 c)
    (htaken : (healWatermarkDesync reason proofGeneration (claimed s) l).2.isSome = true)
    (hiff : Healable s ratePerMb reason l ↔ Reopens s ratePerMb c) :
    OneRound H s ratePerMb reason proofGeneration l := by
  constructor
  · intro hhealable
    refine ⟨htaken, ?_⟩
    intro chainSeed wire sv cumulativeBytes walked hnext
    exact (hopens chainSeed wire sv cumulativeBytes walked hnext).mpr (hiff.mp hhealable)
  · intro hnot
    refine .inr ?_
    intro chainSeed wire sv cumulativeBytes walked hnext htaken
    exact hnot (hiff.mpr ((hopens chainSeed wire sv cumulativeBytes walked hnext).mp htaken))

/-- And when none takes it, and it is not healable. -/
theorem oneRound_of_none
    (hnone : healWatermarkDesync reason proofGeneration (claimed s) l = (l, none))
    (hnot : ¬ Healable s ratePerMb reason l) :
    OneRound H s ratePerMb reason proofGeneration l :=
  ⟨fun hhealable => absurd hhealable hnot, fun _ => .inl hnone⟩

/-- A ledger that an under-fold or a regression moves does not cover the claim. -/
theorem not_covers_of_moves (hmoves : Moves reason (claimed s) l.pipeline.owed)
    (hreason : reason = .underFold ∨ reason = .amountRegression ∨ reason = .bytesRegression) :
    ¬ Covers (claimed s) l.pipeline.owed := by
  intro hcovers
  rcases hmoves with hbehind | ⟨rfl, -⟩ | ⟨-, hshort⟩
  · exact absurd hcovers.amount (Nat.not_le.mpr hbehind)
  · rcases hreason with heq | heq | heq
    · cases heq
    · cases heq
    · cases heq
  · exact absurd hcovers.bytes (Nat.not_le.mpr hshort)

/-- A ledger that the heal moves stands at the lane's claim. -/
theorem oneRound_moved (hwire : WireLane s) (huntouched : Untouched l)
    (hmoves : Moves reason (claimed s) l.pipeline.owed) :
    OneRound H s ratePerMb reason proofGeneration l := by
  have hheal : ∃ healed,
      (healWatermarkDesync reason proofGeneration (claimed s) l).2 = some healed ∧
        StandsAt (healWatermarkDesync reason proofGeneration (claimed s) l).1 (claimed s) :=
    heal_stands huntouched.current hmoves
  rcases hheal with ⟨healed, houtcome, hstands⟩
  refine oneRound_of_iff (opensOver_stands hwire hstands) (by rw [houtcome]; rfl)
    ⟨?_, fun hopens => .moved hmoves hopens⟩
  intro hhealable
  cases hhealable with
  | moved _ hopens => exact hopens
  | folded hreason hcovers hopens =>
    exact absurd hcovers (not_covers_of_moves hmoves (.inl hreason))
  | kept hreason hcovers hopens =>
    exact absurd hcovers (not_covers_of_moves hmoves (.inr hreason))

/-- No heal takes a trailing proof of a ledger that paid for the claim with fewer bytes. -/
theorem oneRound_overpaid (hreason : reason = .underFold ∨ reason = .amountRegression)
    (hover : Overpaid s l.pipeline.owed) :
    OneRound H s ratePerMb reason proofGeneration l := by
  refine oneRound_of_none (heal_terminal hreason hover.1 hover.2) ?_
  intro hhealable
  cases hhealable with
  | moved hmoves hopens =>
    rcases hmoves with hbehind | ⟨rfl, -⟩ | ⟨rfl, -⟩
    · exact absurd hover.1 (Nat.not_le.mpr hbehind)
    · rcases hreason with heq | heq
      · cases heq
      · cases heq
    · rcases hreason with heq | heq
      · cases heq
      · cases heq
  | folded _ hcovers hopens => exact absurd hcovers.bytes (Nat.not_le.mpr hover.2)
  | kept _ hcovers hopens => exact absurd hcovers.bytes (Nat.not_le.mpr hover.2)

/-- An under-fold that the ledger covers leaves it at its own claim. -/
theorem oneRound_folded (hwire : WireLane s) (hrest : Resting H ratePerMb seed l)
    (hseed : seed.plus .zero = seed) (hcovers : Covers (claimed s) l.pipeline.owed) :
    OneRound H s ratePerMb .underFold proofGeneration l := by
  have hiff : Healable s ratePerMb .underFold l ↔ Reopens s ratePerMb l.pipeline.owed := by
    refine ⟨?_, fun hopens => .folded rfl hcovers hopens⟩
    intro hhealable
    cases hhealable with
    | moved hmoves hopens => exact absurd hcovers (not_covers_of_moves hmoves (.inl rfl))
    | folded _ _ hopens => exact hopens
    | kept hreason _ hopens =>
      rcases hreason with heq | heq
      · cases heq
      · cases heq
  cases hrest with
  | idle _ hstands =>
    have hheal : healWatermarkDesync .underFold proofGeneration (claimed s) l =
        (l, some .stale) := heal_idle hcovers hstands.epoch
    have howed : l.pipeline.owed = seed := by
      unfold Pipeline.owed
      rw [hstands.committed, hstands.accrued, hseed]
    rw [howed] at hiff
    refine oneRound_of_iff ?_ (by rw [hheal]; rfl) hiff
    rw [hheal]
    exact opensOver_stands hwire hstands
  | meters hmeters =>
    have hheal : (healWatermarkDesync .underFold proofGeneration (claimed s) l).2 =
          some .stale ∧
        StandsAt (healWatermarkDesync .underFold proofGeneration (claimed s) l).1
          l.pipeline.owed :=
      heal_folds hcovers hmeters.untouched.armed hmeters.untouched.healedFrom
        (by rw [hmeters.epoch]; rfl)
    exact oneRound_of_iff (opensOver_stands hwire hheal.2) (by rw [hheal.1]; rfl) hiff

/-- A regression that the ledger covers leaves it where it stands, with the chain it meters. -/
theorem oneRound_kept (hwire : WireLane s) (hrest : Resting H ratePerMb seed l)
    (hreason : reason = .amountRegression ∨ reason = .bytesRegression)
    (hcovers : Covers (claimed s) l.pipeline.owed) :
    OneRound H s ratePerMb reason proofGeneration l := by
  have hheal : healWatermarkDesync reason proofGeneration (claimed s) l = (l, some .stale) :=
    heal_kept hreason hcovers
  have hopens : OpensOver H s ratePerMb
      (healWatermarkDesync reason proofGeneration (claimed s) l).1 l.pipeline.committed := by
    rw [hheal]
    exact hrest.opensOver hwire
  refine oneRound_of_iff hopens (by rw [hheal]; rfl)
    ⟨?_, fun hopens => .kept hreason hcovers hopens⟩
  intro hhealable
  cases hhealable with
  | moved hmoves _ => exact absurd hcovers (not_covers_of_moves hmoves (.inr hreason))
  | folded hunderFold _ _ =>
    subst hunderFold
    rcases hreason with heq | heq
    · cases heq
    · cases heq
  | kept _ _ hopens => exact hopens

/-- An underpayment that echoes the ledger's claim is taken by no heal. -/
theorem oneRound_echoed (huntouched : Untouched l) (hsame : claimed s = l.pipeline.owed) :
    OneRound H s ratePerMb .underpaid proofGeneration l := by
  refine oneRound_of_none (heal_echoed huntouched.current hsame) ?_
  intro hhealable
  cases hhealable with
  | moved hmoves hopens =>
    rcases hmoves with hbehind | ⟨-, hne⟩ | ⟨heq, -⟩
    · rw [hsame] at hbehind
      exact Nat.lt_irrefl _ hbehind
    · exact hne hsame
    · cases heq
  | folded heq _ _ => cases heq
  | kept hreason _ _ =>
    rcases hreason with heq | heq
    · cases heq
    · cases heq

/-- One heal answers a rejection of the lane's watermark exactly when it is healable. -/
theorem oneRound (hwire : WireLane s) (hrest : Resting H ratePerMb seed l)
    (hseed : seed.plus .zero = seed)
    (hreason : reason = .underFold ∨ reason = .amountRegression ∨ reason = .bytesRegression ∨
      reason = .underpaid) :
    OneRound H s ratePerMb reason proofGeneration l := by
  by_cases hmoves : Moves reason (claimed s) l.pipeline.owed
  · exact oneRound_moved hwire hrest.untouched hmoves
  have hahead : s.owed ≤ l.pipeline.owed.amount := by
    by_contra hbehind
    exact hmoves (.inl (Nat.not_le.mp hbehind))
  rcases hreason with rfl | rfl | rfl | rfl
  · rcases Nat.lt_or_ge l.pipeline.owed.bytes s.owedBytes with hshort | hcovered
    · exact oneRound_overpaid (.inl rfl) ⟨hahead, hshort⟩
    · exact oneRound_folded hwire hrest hseed ⟨hahead, hcovered⟩
  · rcases Nat.lt_or_ge l.pipeline.owed.bytes s.owedBytes with hshort | hcovered
    · exact oneRound_overpaid (.inr rfl) ⟨hahead, hshort⟩
    · exact oneRound_kept hwire hrest (.inl rfl) ⟨hahead, hcovered⟩
  · refine oneRound_kept hwire hrest (.inr rfl) ⟨hahead, ?_⟩
    by_contra hshort
    exact hmoves (.inr (.inr ⟨rfl, Nat.not_le.mp hshort⟩))
  · refine oneRound_echoed hrest.untouched ?_
    by_contra hne
    exact hmoves (.inr (.inl ⟨rfl, hne⟩))

/-! ## The first rejection -/

/-- A payer's first stream on a lane, up to the rejection it reads of its first voucher or of its
first reveal: what the voucher signed, and the lane, the reason, the bundle, the generation and the
ledger that the heal is given. -/
inductive FirstRejection (env : NodeEnv) (ratePerMb : UInt64) (seed : Cumulative) :
    Cumulative → LaneState → RejectReason → Option WatermarkBundle → Option Nat → PoolLedger →
      Prop where
  /-- The voucher is the stream's only proof. -/
  | voucher {lane : LaneDeliveryState} {anchor : StreamAnchor} {wire : WireVoucher}
      {owed : OwedChunk} {reason : RejectReason} {bundle : Option WatermarkBundle}
      (deltaBytes : UInt64) (action : EpochAction) (preimages : Nat → Bytes32)
      (hwrites : Writes wire
        ((PoolLedger.new seed).issue deltaBytes.toNat ratePerMb.toNat action preimages).2)
      (hrejected : (commitVoucher env lane anchor wire ratePerMb owed).stop =
        .rejected reason bundle) :
      FirstRejection env ratePerMb seed (claimOf wire) lane.state reason bundle (some 0)
        ((PoolLedger.new seed).refused deltaBytes.toNat ratePerMb.toNat action preimages true 0)
  /-- Reveals, and perhaps the closing voucher, are out behind it. -/
  | opening {lane : LaneDeliveryState} {anchor : StreamAnchor} {wire : WireVoucher}
      {owed : OwedChunk} {reason : RejectReason} {bundle : Option WatermarkBundle}
      {proofGeneration : Option Nat} {l : PoolLedger} (chainSeed : Bytes32)
      (hwrites : Writes wire ((PoolLedger.new seed).issue 0 ratePerMb.toNat .opened
        (preimageAt env.H chainSeed)).2)
      (hrejected : (commitVoucher env lane anchor wire ratePerMb owed).stop =
        .rejected reason bundle)
      (hbehind : Behind env.H ratePerMb seed chainSeed proofGeneration l) :
      FirstRejection env ratePerMb seed (claimOf wire) lane.state reason bundle proofGeneration l
  /-- The voucher is taken, and its first reveal is not. -/
  | reveal {before lane : LaneDeliveryState} {anchor anchor' : StreamAnchor} {wire : WireVoucher}
      {owed owed' : OwedChunk} {creditedBytes : Nat} {walked : Option (Nat × Bytes32)}
      {reason : RejectReason} {bundle : Option WatermarkBundle} {proofGeneration : Option Nat}
      {l : PoolLedger} (chainSeed : Bytes32)
      (hwrites : Writes wire ((PoolLedger.new seed).issue 0 ratePerMb.toNat .opened
        (preimageAt env.H chainSeed)).2)
      (hvoucher : commitVoucher env before anchor wire ratePerMb owed =
        ⟨lane, anchor', .continued creditedBytes⟩)
      (hrejected : (commitOnePreimage env lane anchor' 1 (preimageAt env.H chainSeed 1) walked
        owed').stop = .rejected reason bundle)
      (hbehind : Behind env.H ratePerMb seed chainSeed proofGeneration l) :
      FirstRejection env ratePerMb seed (claimOf wire) lane.state reason bundle proofGeneration l

/-- What the first voucher of a fresh ledger signs. -/
theorem writes_first {deltaBytes : UInt64} {action : EpochAction} {preimages : Nat → Bytes32}
    (h : Writes wire
      ((PoolLedger.new seed).issue deltaBytes.toNat ratePerMb.toNat action preimages).2) :
    (claimOf wire).bytes = seed.bytes + deltaBytes.toNat ∧
      (claimOf wire).amount = seed.amount + spanCost deltaBytes.toNat ratePerMb ∧
      seed.plus .zero = seed := by
  have hamount : wire.amount.toNat =
      (nextVoucher (seed.plus .zero) deltaBytes.toNat ratePerMb.toNat).amount := h.amount
  have hbytes : wire.bytesDelivered.toNat =
      (nextVoucher (seed.plus .zero) deltaBytes.toNat ratePerMb.toNat).bytes := h.bytes
  rcases nextVoucher_first (by rw [← hamount]; exact toNat_le_u64Max _)
    (by rw [← hbytes]; exact toNat_le_u64Max _) with ⟨hnext, hseed⟩
  refine ⟨?_, ?_, hseed⟩
  · rw [hnext] at hbytes
    exact hbytes
  · rw [hnext] at hamount
    exact hamount

/-- An opening voucher signs the seed, and whatever is behind it, the ledger meters one chain. -/
theorem writes_opening {chainSeed : Bytes32} (h : Writes wire
      ((PoolLedger.new seed).issue 0 ratePerMb.toNat .opened (preimageAt H chainSeed)).2)
    (hbehind : Behind H ratePerMb seed chainSeed proofGeneration l) :
    claimOf wire = seed ∧ Resting H ratePerMb seed l := by
  have hamount : wire.amount.toNat = (nextVoucher (seed.plus .zero) 0 ratePerMb.toNat).amount :=
    h.amount
  have hbytes : wire.bytesDelivered.toNat =
      (nextVoucher (seed.plus .zero) 0 ratePerMb.toNat).bytes := h.bytes
  rcases opened_next (by rw [← hamount]; exact toNat_le_u64Max _)
    (by rw [← hbytes]; exact toNat_le_u64Max _) with ⟨hnext, -⟩
  rw [hnext] at hamount hbytes
  have hseedBytes : seed.bytes ≤ u64Max := by
    rw [← hbytes]
    exact toNat_le_u64Max _
  rcases hbehind.meters hseedBytes hnext with ⟨chainSeed', depth, hmeters⟩
  refine ⟨?_, .meters hmeters⟩
  unfold claimOf
  rw [hamount, hbytes]

/-- A ledger that claims its seed is anchored there. -/
theorem Resting.committed_eq (h : Resting H ratePerMb seed l) (hseed : seed.bytes ≤ u64Max)
    (howed : l.pipeline.owed = seed) : l.pipeline.committed = seed := by
  cases h with
  | idle _ hstands => exact hstands.committed
  | meters hmeters =>
    rcases hmeters.committed with heq | hpast
    · exact heq
    · have hbytes := hmeters.owed_bytes.1
      rw [howed] at hbytes
      unfold u64Max at hseed
      unfold U256.modulus at hbytes
      omega

/-- A ledger that does not cover the claim is healable under a chain that pays, unless it is at
the dead end. -/
theorem healable_of_not_covers (hwire : WireLane s) (hprice : ChainPays s ratePerMb)
    (hreason : reason = .underFold ∨ reason = .amountRegression ∨ reason = .bytesRegression ∨
      reason = .underpaid)
    (h : ¬ Covers (claimed s) l.pipeline.owed) :
    Healable s ratePerMb reason l ∨ Terminal s reason proofGeneration l := by
  have hopens := claimed_opens hwire hprice
  rcases Nat.lt_or_ge l.pipeline.owed.amount s.owed with hbehind | hahead
  · exact .inl (.moved (.inl hbehind) hopens)
  have hshort : l.pipeline.owed.bytes < s.owedBytes := by
    by_contra hcovered
    exact h ⟨hahead, Nat.not_lt.mp hcovered⟩
  rcases hreason with rfl | rfl | rfl | rfl
  · exact .inr ⟨heal_terminal (.inl rfl) hahead hshort, hahead, hshort⟩
  · exact .inr ⟨heal_terminal (.inr rfl) hahead hshort, hahead, hshort⟩
  · exact .inl (.moved (.inr (.inr ⟨rfl, hshort⟩)) hopens)
  · refine .inl (.moved (.inr (.inl ⟨rfl, ?_⟩)) hopens)
    intro heq
    rw [← heq] at hshort
    exact Nat.lt_irrefl _ hshort

/-- So is one that the first voucher's rejection leaves at its seed. -/
theorem healable_of_rejects (hwire : WireLane s) (hprice : ChainPays s ratePerMb)
    (hrest : Resting H ratePerMb seed l) {delta : Nat}
    (hbytes : (claimOf wire).bytes = seed.bytes + delta)
    (hamount : (claimOf wire).amount = seed.amount + spanCost delta ratePerMb)
    (howed : l.pipeline.owed = seed) (h : Rejects s ratePerMb (claimOf wire) reason) :
    Healable s ratePerMb reason l ∨ Terminal s reason proofGeneration l := by
  have hbytesLe : (claimOf wire).bytes ≤ u64Max := toNat_le_u64Max _
  have hopens := claimed_opens hwire hprice
  rcases rejects_first hwire hprice hbytes hamount hbytesLe (toNat_le_u64Max _) h with
    hmoves | ⟨hreason, hover⟩ | ⟨rfl, hstands⟩
  · rw [← howed] at hmoves
    exact .inl (.moved hmoves hopens)
  · rw [← howed] at hover
    exact .inr ⟨heal_terminal hreason hover.1 hover.2, hover⟩
  · have hcommitted := hrest.committed_eq (by omega) howed
    refine .inl (.kept (.inl rfl) ?_ ?_)
    · rw [howed, hstands]
      exact ⟨le_rfl, le_rfl⟩
    · rw [hcommitted, hstands]
      exact hopens

/-- A reveal that finds no credit trails the claim of the lane that took its voucher. -/
theorem revealed_behind (hwire : WireLane s) (hholds : Holds s wire)
    (hanchor : (StreamAnchor.adopt wire.chainRoot).root = some root)
    (hcovered : root = 0 ∨ root ≠ s.chain.chainRoot ∨ 1 ≤ s.chain.verifiedIndex) :
    (claimOf wire).amount < s.owed ∨ Overpaid s (claimOf wire) := by
  rcases hwire.owed_eq with ⟨howed, howedBytes⟩
  have hroot : wire.chainRoot ≠ 0 ∧ wire.chainRoot = root := by
    unfold StreamAnchor.adopt at hanchor
    dsimp only at hanchor
    split at hanchor
    · cases hanchor
    · rename_i hnonzero
      exact ⟨hnonzero, Option.some.inj hanchor⟩
  rcases Nat.lt_or_ge (claimOf wire).amount s.owed with hbehind | hahead
  · exact .inl hbehind
  have hanchored := hholds.amount_le
  have hsame : (claimOf wire).amount = s.lastAmount := by omega
  have hsameBytes := hholds.bytes hsame
  have hproved : 0 < s.chain.verifiedIndex := by
    rcases hholds.chain hsame with hzero | hlive | hproved
    · exact absurd hzero hroot.1
    · rcases hcovered with hzero | hforeign | hproved
      · exact absurd (hroot.2.trans hzero) hroot.1
      · exact absurd (hroot.2.symm.trans hlive) hforeign
      · exact hproved
    · exact hproved
  have hshort : (claimOf wire).bytes < s.owedBytes := by
    unfold chunkBytes at howedBytes
    omega
  exact .inr ⟨hahead, hshort⟩

/-- The reasons a verified voucher is rejected for, the cap apart. -/
theorem rejects_reason {v : Cumulative} (h : Rejects s ratePerMb v reason) :
    reason = .underFold ∨ reason = .amountRegression ∨ reason = .bytesRegression ∨
      reason = .underpaid := by
  cases h with
  | underFoldAmount _ => exact .inl rfl
  | underFoldBytes _ => exact .inl rfl
  | bytesRegression _ => exact .inr (.inr (.inl rfl))
  | underpaid _ _ _ => exact .inr (.inr (.inr rfl))
  | stale _ _ => exact .inr (.inl rfl)

/-- Where the rejection of a first voucher leads. -/
theorem voucher_leads (hwire : WireLane s) (hrest : Resting H ratePerMb seed l) (delta : Nat)
    (hbytes : (claimOf wire).bytes = seed.bytes + delta)
    (hamount : (claimOf wire).amount = seed.amount + spanCost delta ratePerMb)
    (hseed : seed.plus .zero = seed) (h : Rejects s ratePerMb (claimOf wire) reason) :
    OneRound H s ratePerMb reason proofGeneration l ∧
      (ChainPays s ratePerMb → ¬ Covers (claimed s) l.pipeline.owed ∨ l.pipeline.owed = seed →
        Healable s ratePerMb reason l ∨ Terminal s reason proofGeneration l) := by
  refine ⟨oneRound hwire hrest hseed (rejects_reason h), ?_⟩
  intro hprice hstands
  rcases hstands with hshort | howed
  · exact healable_of_not_covers hwire hprice (rejects_reason h) hshort
  · exact healable_of_rejects hwire hprice hrest hbytes hamount howed h

/-- A payer's first stream on a lane that holds a signature, once its first voucher or its first
reveal is rejected for a reason that a watermark answers, however many proofs it has sent behind
it.  Either the voucher pays the lane's own money for other bytes, and no bundle answers; or the
bundle is the lane's, passes for the payer's own key and folds to what the lane is owed.  Then,
unless the cap is exhausted, one heal answers the rejection exactly when it is healable.  Under a
chain that pays the rate it is, unless the ledger paid for the claim with fewer bytes, or covers the
claim with proofs that it sent behind the refused one. -/
theorem resume_converges {s₀ : LaneState} (hfresh : s₀.Fresh)
    (hrun : Reaches (LaneState.step env.H)
      (fun s e => Node.Verified env.H env.K s e ∧ e.FitsWire s) s₀ s)
    {signature : Signature} (hsigned : s.lastSignature = some signature) {v : Cumulative}
    (hfirst : FirstRejection env ratePerMb seed v s reason bundle proofGeneration l)
    (hgated : reason.isWatermarkGated = true) :
    (reason = .bytesRegression ∧ bundle = none ∧ SignerFault s v) ∨
      (bundle = some (reported s signature) ∧
        resumableWatermark env.H env.K (.ofLane s) reason bundle = some (reported s signature) ∧
        Cumulative.ofBundle (reported s signature) = ⟨s.owedBytes, s.owed⟩ ∧
        (reason = .spendingCapExhausted ∨
          (OneRound env.H s ratePerMb reason proofGeneration l ∧
            (ChainPays s ratePerMb →
              ¬ Covers (claimed s) l.pipeline.owed ∨ l.pipeline.owed = seed →
              Healable s ratePerMb reason l ∨ Terminal s reason proofGeneration l)))) := by
  have hwire : WireLane s := WireLane.of_reaches hfresh (hrun.weaken fun _ _ h => h.2)
  have hbacked : Node.Backed env.H env.K s :=
    Node.Backed.of_reaches hfresh (hrun.weaken fun _ _ h => h.1)
  rcases bundle_resumes hwire hbacked hsigned hgated with ⟨hbundle, hresumes, hfolds⟩
  have hfree : spanCost 0 ratePerMb = 0 := by
    unfold spanCost mbBytes
    omega
  cases hfirst with
  | voucher deltaBytes action preimages hwrites hrejected =>
    rcases commitVoucher_rejected hgated hrejected with hfault | ⟨rfl, hcap | hrejects⟩
    · exact .inl hfault
    · rw [hbundle]
      exact .inr ⟨rfl, hresumes, hfolds, .inl hcap⟩
    · rcases writes_first hwrites with ⟨hbytes, hamount, hseed⟩
      rcases refused_new with ⟨hstands, huntouched⟩
      rw [hbundle]
      exact .inr ⟨rfl, hresumes, hfolds,
        .inr (voucher_leads hwire (.idle huntouched hstands) _ hbytes hamount hseed hrejects)⟩
  | opening chainSeed hwrites hrejected hbehind =>
    rcases commitVoucher_rejected hgated hrejected with hfault | ⟨rfl, hcap | hrejects⟩
    · exact .inl hfault
    · rw [hbundle]
      exact .inr ⟨rfl, hresumes, hfolds, .inl hcap⟩
    · rcases writes_opening hwrites hbehind with ⟨hclaim, hrest⟩
      rw [hbundle]
      refine .inr ⟨rfl, hresumes, hfolds, .inr (voucher_leads hwire hrest 0 ?_ ?_ ?_
        hrejects)⟩
      · rw [hclaim, Nat.add_zero]
      · rw [hclaim, hfree, Nat.add_zero]
      · rw [← hclaim]
        exact plus_zero (toNat_le_u64Max _) (toNat_le_u64Max _)
  | reveal chainSeed hwrites hvoucher hrejected hbehind =>
    rcases commitVoucher_continued hvoucher with ⟨hholds, rfl⟩
    rcases writes_opening hwrites hbehind with ⟨hclaim, hrest⟩
    rcases commitOnePreimage_rejected hgated hrejected with
      ⟨rfl, hcap | ⟨rfl, root, hroot, hcovered⟩⟩
    · rw [hbundle]
      exact .inr ⟨rfl, hresumes, hfolds, .inl hcap⟩
    · rw [hbundle]
      refine .inr ⟨rfl, hresumes, hfolds, .inr ⟨oneRound hwire hrest ?_ (.inr (.inl rfl)), ?_⟩⟩
      · rw [← hclaim]
        exact plus_zero (toNat_le_u64Max _) (toNat_le_u64Max _)
      · intro hprice hstands
        refine healable_of_not_covers hwire hprice (.inr (.inl rfl)) ?_
        rcases hstands with hshort | howed
        · exact hshort
        · -- The reveal trails the claim of the lane that took its voucher, which signs the seed.
          rw [howed, ← hclaim]
          intro hcovers
          rcases revealed_behind hwire hholds hroot hcovered with hbehind | hover
          · exact absurd hcovers.amount (Nat.not_le.mpr hbehind)
          · exact absurd hcovers.bytes (Nat.not_le.mpr hover.2)

/-! ## A sample lane

The sample lane has proved one chunk at 10 units past an anchor of one: it is owed 11 units and
one chunk. -/

/-- The sample node, where every signature recovers the sample signer and every word but zero is
its own hash. -/
def sampleVerifier : NodeEnv :=
  { sampleEnv with
    H := { sampleEnv.H with keccak256 := fun x => if x = 0 then sampleRoot else x }
    K := { recoverAddress := fun _ _ => some 2 } }

/-- Verified proofs lead the sample lane there. -/
theorem sampleVerifier_reaches :
    Reaches (LaneState.step sampleVerifier.H)
      (fun s e => Node.Verified sampleVerifier.H sampleVerifier.K s e ∧ e.FitsWire s)
      sampleLane sampleRevealed := by
  have hopen : sampleLane.step sampleVerifier.H (.presigned (sampleSigned 1 0 10))
      sampleOpened := rfl
  have hreveal : sampleOpened.step sampleVerifier.H (.preimage sampleRoot 1 0)
      sampleRevealed := rfl
  have hverified : Node.Verified sampleVerifier.H sampleVerifier.K sampleLane
      (.presigned (sampleSigned 1 0 10)) := ⟨rfl, rfl, rfl, rfl⟩
  have hfits : LaneEvent.FitsWire sampleLane (.presigned (sampleSigned 1 0 10)) :=
    ⟨by decide, by decide, by decide⟩
  have hguard : Node.Verified sampleVerifier.H sampleVerifier.K sampleOpened
      (.preimage sampleRoot 1 0) := trivial
  exact ((Reaches.refl _).tail ⟨hverified, hfits⟩ hopen).tail ⟨hguard, trivial⟩ hreveal

/-- The sample lane's bundle. -/
def sampleBundle : WatermarkBundle := reported sampleRevealed ⟨1, 1, false⟩

/-- An opening voucher of the sample payer, under a chain of the seed one. -/
def sampleOpening (amount bytes : UInt64) : WireVoucher :=
  ⟨some ⟨1, 1, false⟩, amount, bytes, 1, 10⟩

/-- The whole ladder of that seed is the seed. -/
theorem sampleLadder_eq (n : Nat) : preimageAt sampleVerifier.H 1 n = 1 :=
  Function.iterate_fixed (show sampleVerifier.H.keccak256 1 = 1 by decide) _

/-- A fresh ledger writes it. -/
theorem sampleOpening_writes (amount bytes : UInt64) {seed : Cumulative}
    (hseed : seed = ⟨bytes.toNat, amount.toNat⟩)
    (hnext : nextVoucher (seed.plus .zero) 0 (10 : UInt64).toNat = seed) :
    Writes (sampleOpening amount bytes) ((PoolLedger.new seed).issue 0 (10 : UInt64).toNat .opened
      (preimageAt sampleVerifier.H 1)).2 := by
  have hroot : (ChainCommit.ofSlot (some
      (ChainEpoch.opened (preimageAt sampleVerifier.H 1) (10 : UInt64).toNat))).chainRoot = 1 := by
    simp only [ChainCommit.ofSlot, ChainEpoch.opened, root_mk, sampleLadder_eq]
  refine ⟨?_, ?_, hroot.symm, rfl⟩
  · change amount.toNat = (nextVoucher (seed.plus .zero) 0 (10 : UInt64).toNat).amount
    rw [hnext, hseed]
  · change bytes.toNat = (nextVoucher (seed.plus .zero) 0 (10 : UInt64).toNat).bytes
    rw [hnext, hseed]

/-- Once some reveals are out behind it, the ledger meters one fewer over the seed. -/
theorem sampleOpening_behind {seed : Cumulative} (depth : Nat)
    (hnext : nextVoucher (seed.plus .zero) 0 (10 : UInt64).toNat = seed)
    (hdepth : depth < maxChainLength) :
    ∃ l, Behind sampleVerifier.H 10 seed 1 none l ∧
      MetersChain sampleVerifier.H 10 seed 1 depth l ∧ l.pipeline.committed = seed ∧
      l.pipeline.owed = seed.plus ⟨depth * chunkBytes, depth * (10 : UInt64).toNat⟩ := by
  rcases behind_revealed sampleVerifier.H 1 hnext hdepth with
    ⟨l, hbehind, hmeters, hcommitted⟩
  refine ⟨l, hbehind, hmeters, hcommitted, ?_⟩
  unfold Pipeline.owed
  rw [hcommitted, hmeters.accrued]

/-- A ledger that has paid for the claim with fewer bytes draws a rejection that no heal takes,
and its next opening draws it again. -/
theorem overpaid_wedged :
    Reaches (LaneState.step sampleVerifier.H)
        (fun s e => Node.Verified sampleVerifier.H sampleVerifier.K s e ∧ e.FitsWire s)
        sampleLane sampleRevealed ∧
      ∃ l, FirstRejection sampleVerifier 10 ⟨5, 11⟩ (claimOf (sampleOpening 11 5)) sampleRevealed
          .underFold (some sampleBundle) none l ∧
        healWatermarkDesync .underFold none ⟨sampleRevealed.owedBytes, sampleRevealed.owed⟩ l =
          (l, none) ∧
        Writes (sampleOpening 11 5) (l.opening 10 (preimageAt sampleVerifier.H 1)).2 ∧
        ∀ sv cumulativeBytes, wireVoucherToSigned (sampleOpening 11 5) 1 2 3 = some sv →
          verifyVoucher sampleRevealed cumulativeBytes sv (sampleOpening 11 5) 10 =
            .error (.reject .underFold (some sampleBundle)) := by
  have hnext : nextVoucher (.plus ⟨5, 11⟩ .zero) 0 (10 : UInt64).toNat = ⟨5, 11⟩ := by
    decide +kernel
  have hrejected : (commitVoucher sampleVerifier (.hydrated sampleRevealed) {} (sampleOpening 11 5)
      10 (.new chunkBytes (by decide) (by decide))).stop =
        .rejected .underFold (some sampleBundle) := by decide +kernel
  rcases sampleOpening_behind 0 hnext (by decide) with
    ⟨l, hbehind, hmeters, hcommitted, howed⟩
  have howed : l.pipeline.owed = ⟨5, 11⟩ := by
    rw [howed]
    decide +kernel
  refine ⟨sampleVerifier_reaches, l,
    .opening 1 (sampleOpening_writes 11 5 rfl hnext) hrejected hbehind,
    heal_terminal (.inl rfl) ?_ ?_, ?_, ?_⟩
  · rw [howed]
    decide
  · rw [howed]
    decide
  · have hopening := opening_meters hmeters (preimageAt sampleVerifier.H 1)
    change l.opening 10 _ = _ at hopening
    rw [hopening, hcommitted, sampleLadder_eq]
    exact ⟨rfl, rfl, rfl, rfl⟩
  · intro sv cumulativeBytes hsv
    cases hsv
    rfl

/-- The sample payer converges when it trails the lane, and when the reveals behind a refused
opening cover the claim.  When they cover it behind an opening that the node took for a stale one,
the ledger is left metering a chain that the lane does not hold. -/
theorem resume_converges_sample :
    (∃ l, FirstRejection sampleVerifier 10 ⟨5, 5⟩ (claimOf (sampleOpening 5 5)) sampleRevealed
        .underFold (some sampleBundle) none l ∧
      Converges sampleVerifier.H sampleRevealed 10 .underFold none l) ∧
    (∃ l, FirstRejection sampleVerifier 10 ⟨0, 1⟩ (claimOf (sampleOpening 1 0)) sampleRevealed
        .underFold (some sampleBundle) none l ∧
      Covers (claimed sampleRevealed) l.pipeline.owed ∧
      Converges sampleVerifier.H sampleRevealed 10 .underFold none l) ∧
    (∃ l, FirstRejection sampleVerifier 10 ⟨0, 0⟩ (claimOf (sampleOpening 0 0)) sampleRevealed
        .amountRegression (some sampleBundle) none l ∧
      Covers (claimed sampleRevealed) l.pipeline.owed ∧
      Wedges sampleVerifier.H sampleRevealed 10 .amountRegression none l) := by
  refine ⟨?_, ?_, ?_⟩
  · have hnext : nextVoucher (.plus ⟨5, 5⟩ .zero) 0 (10 : UInt64).toNat = ⟨5, 5⟩ := by
      decide +kernel
    have hrejected : (commitVoucher sampleVerifier (.hydrated sampleRevealed) {}
        (sampleOpening 5 5) 10 (.new chunkBytes (by decide) (by decide))).stop =
          .rejected .underFold (some sampleBundle) := by decide +kernel
    rcases sampleOpening_behind 0 hnext (by decide) with
      ⟨l, hbehind, hmeters, hcommitted, howed⟩
    have hfirst : FirstRejection sampleVerifier 10 ⟨5, 5⟩ (claimOf (sampleOpening 5 5))
        sampleRevealed .underFold (some sampleBundle) none l :=
      .opening 1 (sampleOpening_writes 5 5 rfl hnext) hrejected hbehind
    refine ⟨l, hfirst, ?_⟩
    rcases resume_converges ⟨rfl, rfl, rfl, rfl⟩ sampleVerifier_reaches rfl hfirst rfl with
      ⟨hreason, -⟩ | ⟨-, -, -, hcap | ⟨hround, hpays⟩⟩
    · cases hreason
    · cases hcap
    · have hseed : l.pipeline.owed = ⟨5, 5⟩ := by
        rw [howed]
        decide +kernel
      rcases hpays (.inr ⟨by decide, by decide⟩) (.inr hseed) with hhealable | hterminal
      · exact hround.1 hhealable
      · have hover := hterminal.2.1
        rw [hseed] at hover
        exact absurd hover (by decide +kernel)
  · have hnext : nextVoucher (.plus ⟨0, 1⟩ .zero) 0 (10 : UInt64).toNat = ⟨0, 1⟩ := by
      decide +kernel
    have hrejected : (commitVoucher sampleVerifier (.hydrated sampleRevealed) {}
        (sampleOpening 1 0) 10 (.new chunkBytes (by decide) (by decide))).stop =
          .rejected .underFold (some sampleBundle) := by decide +kernel
    rcases sampleOpening_behind 2 hnext (by decide) with
      ⟨l, hbehind, hmeters, hcommitted, howed⟩
    have howed : l.pipeline.owed = ⟨2097152, 21⟩ := by
      rw [howed]
      decide +kernel
    have hfirst : FirstRejection sampleVerifier 10 ⟨0, 1⟩ (claimOf (sampleOpening 1 0))
        sampleRevealed .underFold (some sampleBundle) none l :=
      .opening 1 (sampleOpening_writes 1 0 rfl hnext) hrejected hbehind
    have hcovers : Covers (claimed sampleRevealed) l.pipeline.owed := by
      rw [howed]
      exact ⟨by decide, by decide⟩
    refine ⟨l, hfirst, hcovers, ?_⟩
    rcases resume_converges ⟨rfl, rfl, rfl, rfl⟩ sampleVerifier_reaches rfl hfirst rfl with
      ⟨hreason, -⟩ | ⟨-, -, -, hcap | ⟨hround, -⟩⟩
    · cases hreason
    · cases hcap
    · refine hround.1 (.folded rfl hcovers (.inr ?_))
      rw [howed]
      exact ⟨by decide, by decide, by decide, by decide, by decide +kernel⟩
  · have hnext : nextVoucher (.plus ⟨0, 0⟩ .zero) 0 (10 : UInt64).toNat = ⟨0, 0⟩ := by
      decide +kernel
    rcases sampleOpening_behind 2 hnext (by decide) with
      ⟨l, hbehind, hmeters, hcommitted, howed⟩
    have howed : l.pipeline.owed = ⟨2097152, 20⟩ := by
      rw [howed]
      decide +kernel
    have hvoucher : commitVoucher sampleVerifier (.hydrated sampleRevealed) {} (sampleOpening 0 0)
        10 (.new chunkBytes (by decide) (by decide)) =
          ⟨.hydrated sampleRevealed, .adopt 1, .continued 0⟩ := rfl
    have hrejected : (commitOnePreimage sampleVerifier (.hydrated sampleRevealed) (.adopt 1) 1
        (preimageAt sampleVerifier.H 1 1) none (.new chunkBytes (by decide) (by decide))).stop =
          .rejected .amountRegression (some sampleBundle) := by
      rw [sampleLadder_eq]
      decide +kernel
    have hfirst : FirstRejection sampleVerifier 10 ⟨0, 0⟩ (claimOf (sampleOpening 0 0))
        sampleRevealed .amountRegression (some sampleBundle) none l :=
      .reveal 1 (sampleOpening_writes 0 0 rfl hnext) hvoucher hrejected hbehind
    have hcovers : Covers (claimed sampleRevealed) l.pipeline.owed := by
      rw [howed]
      exact ⟨by decide, by decide⟩
    refine ⟨l, hfirst, hcovers, ?_⟩
    rcases resume_converges ⟨rfl, rfl, rfl, rfl⟩ sampleVerifier_reaches rfl hfirst rfl with
      ⟨hreason, -⟩ | ⟨-, -, -, hcap | ⟨hround, -⟩⟩
    · cases hreason
    · cases hcap
    · refine hround.2 fun hhealable => ?_
      cases hhealable with
      | moved hmoves _ => exact not_covers_of_moves hmoves (.inr (.inl rfl)) hcovers
      | folded hreason _ _ => cases hreason
      | kept _ _ hopens =>
        rw [hcommitted] at hopens
        rcases hopens with hrestates | hfolds
        · exact absurd hrestates.amount (by decide)
        · exact absurd hfolds.amount_lt (by decide)

end Decdn.Session
