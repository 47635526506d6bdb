import Decdn.Incentive.LaneClaim
import Decdn.PaymentPool.Spec

/-!
# Planning a lane for redemption

How the node turns a lane into the words it submits on-chain (`plan_lane` of
`payment_settlement.rs`), and what the contract makes of them.  The lane keeps
one signed voucher and the deepest verified preimage of its chain; the contract
rebuilds the claim from the packed meter word and the preimage.

Main results:

- Theorem `Backed.step`: a lane's claim is always carried by one signed voucher.
- Theorem `liveClaim_redeemable`: the contract resolves the submitted words to
  the lane's own claim.
- Theorem `planned_accepted_iff`: exactly when a planned lane is accepted.
-/

namespace Decdn.Node

open PaymentPool (Crypto LaneVoucher CapabilityReg ResolvedClaim resolveClaim)
open Incentive

variable {H : Crypto} {K : Ecdsa} {s s₀ s' : LaneState} {e : LaneEvent}

/-! ## The planner -/

/-- Why a lane could not be planned. -/
inductive PlanError where
  | width (error : WidthError)
  | highS
deriving DecidableEq, Repr

/-- `to_pool_u64`. -/
def toPoolU64 (value : Nat) (what : String) : Except PlanError UInt64 :=
  if value ≤ u64Max then .ok (UInt64.ofNat value)
  else .error (.width (.poolField what value))

/-- `compact_voucher_signature`: the recovery bit goes into the top bit of `s`. -/
def compactVoucherSignature (sig : Signature) : Except PlanError (Bytes32 × Bytes32) :=
  if isHighS sig then .error .highS
  else .ok (sig.r, if sig.v then sig.s ||| BitVec.ofNat 256 (2 ^ 255) else sig.s)

/-- `RegistrationStatus`. -/
inductive RegistrationStatus where
  | registered
  | unregistered
deriving DecidableEq, Repr

/-- `PlannedLane`. -/
structure PlannedLane where
  poolId : Bytes32
  key : LaneKey
  owed : Nat
  unredeemed : Nat
  voucher : LaneVoucher
  register : Option CapabilityReg
deriving DecidableEq, Repr

/-- The words a claim submits: the signed anchor, its compact signature, and the
chain fields. -/
def claimVoucher (signer : Address) (claim : RedeemClaim) : Except PlanError LaneVoucher := do
  let (r, vs) ← compactVoucherSignature claim.signature
  let cumulative ← toPoolU64 claim.amount "voucher cumulative"
  let bytesDelivered ← toPoolU64 claim.bytesDelivered "voucher bytes delivered"
  let meter ← claim.chainMeter.mapError .width
  return {
    signer := signer
    cumulative := cumulative
    bytesDelivered := bytesDelivered
    r := r
    vs := vs
    chainRoot := claim.chain.chainRoot
    preimage := claim.chain.tip
    chainMeter := BitVec.ofNat 256 meter }

/-- `plan_lane`. -/
def planLane (s : LaneState) (paid : LaneKey → Nat) (selfAddress : Address)
    (status : RegistrationStatus) : Except PlanError (Option PlannedLane) :=
  if s.provider ≠ selfAddress then .ok none
  else
    match s.liveClaim with
    | none => .ok none
    | some claim =>
      let owed := claim.value
      let unredeemed := owed - paid s.key
      if owed = 0 then .ok none
      else if unredeemed = 0 then .ok none
      else
        let planned (register : Option CapabilityReg) : Except PlanError (Option PlannedLane) := do
          let voucher ← claimVoucher s.signer claim
          return some {
            poolId := s.poolId
            key := s.key
            owed := owed
            unredeemed := unredeemed
            voucher := voucher
            register := register }
        match status with
        | .registered => planned none
        | .unregistered =>
          match s.ownerSig with
          | none => .ok none
          | some ownerSig => do
            let spendingCap ← toPoolU64 s.cap "capability spending cap"
            planned (some
              { signer := s.signer
                spendingCap := spendingCap
                expiry := UInt64.ofNat s.expiry
                ownerSig := ownerSig })

/-- A planned lane submits the words of its live claim. -/
theorem planLane_voucher {paid : LaneKey → Nat} {selfAddress : Address}
    {status : RegistrationStatus} {planned : PlannedLane}
    (h : planLane s paid selfAddress status = .ok (some planned)) :
    ∃ claim, s.liveClaim = some claim ∧ claimVoucher s.signer claim = .ok planned.voucher := by
  unfold planLane at h
  split at h
  · cases h
  split at h
  · cases h
  rename_i claim hclaim
  dsimp only at h
  split at h
  · cases h
  split at h
  · cases h
  refine ⟨claim, hclaim, ?_⟩
  split at h
  · simp only [bind_eq_ok, pure_eq_ok, Option.some.injEq] at h
    rcases h with ⟨voucher, hvoucher, rfl⟩
    exact hvoucher
  · split at h
    · cases h
    · simp only [bind_eq_ok, pure_eq_ok, Option.some.injEq] at h
      rcases h with ⟨-, -, voucher, hvoucher, rfl⟩
      exact hvoucher

/-- The submitted words carry the anchor, the chain fields and a price that fits
its 64 bits. -/
theorem claimVoucher_eq_ok {signer : Address} {claim : RedeemClaim} {v : LaneVoucher}
    (hindex : claim.chain.verifiedIndex < 256) (h : claimVoucher signer claim = .ok v) :
    v.cumulative.toNat = claim.amount ∧ v.bytesDelivered.toNat = claim.bytesDelivered ∧
      v.chainRoot = claim.chain.chainRoot ∧ v.preimage = claim.chain.tip ∧
      claim.chain.chunkPrice ≤ u64Max ∧ v.chainMeter.toNat >>> 72 = 0 ∧
      (v.chainMeter.toNat >>> 8) % 2 ^ 64 = claim.chain.chunkPrice ∧
      v.chainMeter.toNat % 2 ^ 8 = claim.chain.verifiedIndex := by
  unfold claimVoucher at h
  simp only [bind_eq_ok, pure_eq_ok] at h
  rcases h with ⟨⟨r, vs⟩, -, cumulative, hcumulative, bytesDelivered, hbytes, meter, hmeter, rfl⟩
  have hu64 : ∀ {value : Nat} {what : String} {x : UInt64},
      toPoolU64 value what = .ok x → x.toNat = value := by
    intro value what x hx
    unfold toPoolU64 at hx
    split at hx
    · rename_i hle
      obtain rfl := Except.ok.inj hx
      rw [UInt64.toNat_ofNat']
      unfold u64Max at hle
      omega
    · cases hx
  have hpack : packChainMeter claim.chain.chunkPrice claim.chain.verifiedIndex = .ok meter := by
    unfold RedeemClaim.chainMeter at hmeter
    cases hres : packChainMeter claim.chain.chunkPrice claim.chain.verifiedIndex with
    | error e => simp [hres, Except.mapError] at hmeter
    | ok m => simpa [hres, Except.mapError] using hmeter
  rcases packChainMeter_eq_ok hindex hpack with ⟨hprice, hsmall, hreserved, hfield, hlow⟩
  have hword : (BitVec.ofNat 256 meter).toNat = meter := by
    rw [BitVec.toNat_ofNat]
    omega
  dsimp only
  rw [hword]
  exact ⟨hu64 hcumulative, hu64 hbytes, rfl, rfl, hprice, hreserved, hfield, hlow⟩

/-! ## Lanes backed by one signature -/

/-- The vouchers of an event were built for this lane and their signatures
verified. -/
def Verified (H : Crypto) (K : Ecdsa) (s : LaneState) : LaneEvent → Prop
  | .presigned sv | .adopt sv =>
    sv.voucher.poolId = s.poolId ∧ sv.voucher.signer = s.signer ∧
      sv.voucher.provider = s.provider ∧ sv.verifySigner H K s.signer = .ok ()
  | _ => True

/-- One verified voucher carries the lane's anchor and its chain fields. -/
def Carries (H : Crypto) (K : Ecdsa) (s : LaneState) (sv : SignedVoucher) : Prop :=
  sv.voucher = ⟨s.poolId, s.signer, s.provider, s.lastAmount, s.lastBytesDelivered,
    s.chain.chainRoot, s.chain.chunkPrice⟩ ∧ sv.verifySigner H K s.signer = .ok ()

/-- The lane's claim is one signed voucher and a frontier that walks to its root. -/
structure Backed (H : Crypto) (K : Ecdsa) (s : LaneState) : Prop where
  unsigned : s.lastSignature = none → s.Fresh
  signed : ∀ signature, s.lastSignature = some signature →
    ∃ sv, sv.signature = signature ∧ Carries H K s sv
  walks : hashForward H s.chain.tip s.chain.verifiedIndex = s.chain.chainRoot
  index_lt : s.chain.verifiedIndex < 256

/-- A fresh lane holds no claim to back. -/
theorem Backed.of_fresh (h : s.Fresh) : Backed H K s where
  unsigned _ := h
  signed signature hsig := by
    rw [h.lastSignature] at hsig
    cases hsig
  walks := by rw [h.chain]; rfl
  index_lt := by rw [h.chain]; decide

/-- A lane whose anchor and chain fields are a verified voucher's is backed by
it. -/
theorem Backed.of_voucher {sv : SignedVoucher} (hverified : Verified H K s (.presigned sv))
    (hid : s'.poolId = s.poolId ∧ s'.signer = s.signer ∧ s'.provider = s.provider)
    (hsig : s'.lastSignature = some sv.signature) (hamount : s'.lastAmount = sv.voucher.amount)
    (hbytes : s'.lastBytesDelivered = sv.voucher.bytesDelivered)
    (hroot : s'.chain.chainRoot = sv.voucher.chainRoot)
    (hprice : s'.chain.chunkPrice = sv.voucher.chunkPrice)
    (hwalks : hashForward H s'.chain.tip s'.chain.verifiedIndex = s'.chain.chainRoot)
    (hindex : s'.chain.verifiedIndex < 256) : Backed H K s' where
  unsigned hnone := by
    rw [hsig] at hnone
    cases hnone
  signed signature hs := by
    rw [hsig] at hs
    rcases hverified with ⟨hpool, hsigner, hprovider, hok⟩
    refine ⟨sv, Option.some.inj hs, ?_, ?_⟩
    · rw [hid.1, hid.2.1, hid.2.2, hamount, hbytes, hroot, hprice, ← hpool, ← hsigner,
        ← hprovider]
    · rw [hid.2.1]
      exact hok
  walks := hwalks
  index_lt := hindex

/-- Every accepted event keeps the lane backed. -/
theorem Backed.step (h : Backed H K s) (hverified : Verified H K s e) (hstep : s.step H e s') :
    Backed H K s' := by
  cases LaneState.step_cases hstep with
  | covered => exact h
  | bump hb =>
    refine .of_voucher hverified ?_ ?_ ?_ ?_ ?_ ?_ ?_ ?_ <;> rw [hb.state_eq]
    · exact ⟨rfl, rfl, rfl⟩
    · exact hb.root_eq.symm
    · exact h.walks
    · exact h.index_lt
  | roll hr =>
    refine .of_voucher hverified ?_ ?_ ?_ ?_ ?_ ?_ ?_ ?_ <;> rw [hr.state_eq]
    · exact ⟨rfl, rfl, rfl⟩
    · rfl
    · rfl
    · rfl
    · exact Nat.zero_lt_succ 255
  | anchor ha =>
    refine .of_voucher hverified ?_ ?_ ?_ ?_ ?_ ?_ ?_ ?_ <;> rw [ha.state_eq]
    · exact ⟨rfl, rfl, rfl⟩
    · exact ha.root_eq
    · exact h.walks
    · exact h.index_lt
  | reopen hr =>
    refine .of_voucher hverified ?_ ?_ ?_ ?_ ?_ ?_ ?_ ?_ <;> rw [hr.state_eq]
    · exact ⟨rfl, rfl, rfl⟩
    · exact hr.amount_eq.symm
    · exact hr.bytes_eq.symm
    · rfl
    · rfl
    · rfl
    · exact Nat.zero_lt_succ 255
  | @reveal _ root preimage index _ _ hr =>
    rw [hr.state_eq]
    refine ⟨fun hsig => ?_, h.signed, ?_, index.toNat_lt⟩
    · have hroot := hr.root_eq
      rw [(h.unsigned hsig).chain] at hroot
      exact absurd hroot hr.root_ne_zero
    · -- The walk to the old tip continues from it to the root.
      have hwalk : verifyForward H preimage (index.toNat - s.chain.verifiedIndex) s.chain.tip =
          true := by
        simpa [verifyForward] using hr.walks
      have hdeeper := hr.deeper
      have hjoin := verifyForward_trans hwalk h.walks
      rw [show s.chain.verifiedIndex + (index.toNat - s.chain.verifiedIndex) = index.toNat by
        omega] at hjoin
      exact hjoin
  | clamp =>
    refine ⟨fun hsig => ?_, h.signed, h.walks, h.index_lt⟩
    have hfresh := h.unsigned hsig
    exact ⟨hfresh.lastAmount, hfresh.lastBytesDelivered, hfresh.lastSignature, hfresh.chain⟩

/-- A lane reached from a fresh one by verified vouchers and reveals is backed. -/
theorem Backed.of_reaches (hfresh : s₀.Fresh)
    (hrun : Reaches (LaneState.step H) (Verified H K) s₀ s) : Backed H K s :=
  hrun.invariant (Backed.of_fresh hfresh) fun _ _ _ hverified hstep h => h.step hverified hstep

/-! ## The contract resolves the claim -/

/-- What the contract computes from submitted words whose preimage walks to the
root. -/
theorem resolveClaim_claimVoucher {signer : Address} {claim : RedeemClaim} {v : LaneVoucher}
    (hindex : claim.chain.verifiedIndex < 256)
    (hwalks : hashForward H claim.chain.tip claim.chain.verifiedIndex = claim.chain.chainRoot)
    (h : claimVoucher signer claim = .ok v) :
    claim.chain.chunkPrice ≤ u64Max ∧
      resolveClaim H v =
        if u64Max < claim.amount + claim.chain.verifiedIndex * claim.chain.chunkPrice ∨
            u64Max < claim.bytesDelivered + claim.chain.verifiedIndex * chunkBytes then
          .error .claimOverflow
        else
          .ok ⟨claim.amount + claim.chain.verifiedIndex * claim.chain.chunkPrice,
            claim.bytesDelivered + claim.chain.verifiedIndex * chunkBytes,
            claim.chain.chunkPrice⟩ := by
  rcases claimVoucher_eq_ok hindex h with
    ⟨hamount, hbytes, hroot, htip, hprice, hreserved, hfield, hlow⟩
  refine ⟨hprice, ?_⟩
  have hwalk : H.keccak256^[claim.chain.verifiedIndex] claim.chain.tip = claim.chain.chainRoot :=
    hwalks
  unfold resolveClaim
  dsimp only
  rw [if_neg (not_not.mpr hreserved), hfield, hlow, hroot, htip, if_neg (not_not.mpr hwalk),
    hamount, hbytes]
  rfl

/-- A claim whose parts fit 64 bits is worth its anchor plus its frontier, with
no wrap-around. -/
theorem value_eq {claim : RedeemClaim} (hindex : claim.chain.verifiedIndex < 256)
    (hamount : claim.amount ≤ u64Max) (hbytes : claim.bytesDelivered ≤ u64Max)
    (hprice : claim.chain.chunkPrice ≤ u64Max) :
    claim.value = claim.amount + claim.chain.verifiedIndex * claim.chain.chunkPrice ∧
      claim.bytesValue = claim.bytesDelivered + claim.chain.verifiedIndex * chunkBytes := by
  have hproduct : claim.chain.chunkPrice * claim.chain.verifiedIndex ≤ u64Max * 255 :=
    Nat.mul_le_mul hprice (by omega)
  unfold u64Max at hamount hbytes hproduct
  have hmoney : claim.chain.chunkPrice * claim.chain.verifiedIndex < U256.modulus := by
    unfold U256.modulus
    omega
  have hchunk : chunkBytes * claim.chain.verifiedIndex < U256.modulus := by
    unfold chunkBytes U256.modulus
    omega
  unfold RedeemClaim.value RedeemClaim.bytesValue LaneChain.accrued LaneChain.accruedBytes
  rw [U256.wrappingMul_eq hmoney, U256.wrappingMul_eq hchunk,
    Nat.mul_comm claim.chain.verifiedIndex, Nat.mul_comm claim.chain.verifiedIndex]
  constructor
  · apply U256.wrappingAdd_eq
    unfold U256.modulus
    omega
  · apply U256.wrappingAdd_eq
    unfold chunkBytes U256.modulus
    omega

/-- Every claim a lane holds is redeemable as a whole: one verified voucher
carries it, its tip walks to its root, its words can be submitted when its parts
fit 64 bits, and the contract resolves submitted words to the lane's own value
on both axes. -/
theorem liveClaim_redeemable {signature : Signature} (hfresh : s₀.Fresh)
    (hrun : Reaches (LaneState.step H) (Verified H K) s₀ s)
    (hsig : s.lastSignature = some signature) :
    (∃ sv, sv.signature = signature ∧ Carries H K s sv) ∧
      hashForward H s.chain.tip s.chain.verifiedIndex = s.chain.chainRoot ∧
      ∃ claim, s.liveClaim = some claim ∧
        (claim.amount ≤ u64Max → claim.bytesDelivered ≤ u64Max →
          claim.chain.chunkPrice ≤ u64Max → ∃ v, claimVoucher s.signer claim = .ok v) ∧
        ∀ v, claimVoucher s.signer claim = .ok v →
          resolveClaim H v ≠ .error .badPreimage ∧
          resolveClaim H v ≠ .error .chainMeterReservedNonZero ∧
          (claim.value ≤ u64Max → claim.bytesValue ≤ u64Max →
            resolveClaim H v =
              .ok ⟨claim.value, claim.bytesValue, claim.chain.chunkPrice⟩) := by
  have hbacked : Backed H K s := Backed.of_reaches hfresh hrun
  have hcarry := hbacked.signed signature hsig
  refine ⟨hcarry, hbacked.walks,
    ⟨s.lastAmount, s.lastBytesDelivered, signature, s.chain⟩, ?_, ?_, ?_⟩
  · unfold LaneState.liveClaim
    rw [hsig]
    rfl
  · intro hamount hbytes hprice
    rcases hcarry with ⟨sv, rfl, -, hverified⟩
    -- A verified signature is canonical, so it compacts.
    have hlow : isHighS sv.signature = false := by
      unfold SignedVoucher.verifySigner SignedVoucher.recoverSigner at hverified
      cases hhigh : isHighS sv.signature with
      | false => rfl
      | true => simp [hhigh, bind, Except.bind] at hverified
    dsimp only at hamount hbytes hprice
    unfold claimVoucher compactVoucherSignature toPoolU64 RedeemClaim.chainMeter packChainMeter
    simp only [hlow, if_pos hamount, if_pos hbytes, if_pos hprice, bind, Except.bind,
      Except.mapError]
    exact ⟨_, rfl⟩
  · intro v hv
    rcases resolveClaim_claimVoucher hbacked.index_lt hbacked.walks hv with ⟨hprice, hresolve⟩
    rcases claimVoucher_eq_ok hbacked.index_lt hv with ⟨hamount, hbytes, -⟩
    rcases value_eq hbacked.index_lt (hamount ▸ toNat_le_u64Max _) (hbytes ▸ toNat_le_u64Max _)
      hprice with ⟨hvalue, hbytesValue⟩
    rw [hresolve, hvalue, hbytesValue]
    refine ⟨?_, ?_, fun hv64 hb64 => ?_⟩
    · split <;> simp
    · split <;> simp
    · rw [if_neg]
      omega

/-- The claim of the sample lane resolves on-chain to its 11 units. -/
theorem liveClaim_redeemable_sample : ∃ claim v,
    sampleRevealed.liveClaim = some claim ∧ claimVoucher 2 claim = .ok v ∧
      resolveClaim PaymentPool.sampleCrypto v = .ok ⟨11, 1048576, 10⟩ := by
  have hrun : Reaches (LaneState.step PaymentPool.sampleCrypto)
      (Verified PaymentPool.sampleCrypto sampleEcdsa) sampleLane sampleRevealed :=
    sampleRevealed_reaches ⟨rfl, rfl, rfl, rfl⟩ trivial
  rcases (liveClaim_redeemable ⟨rfl, rfl, rfl, rfl⟩ hrun rfl).2.2 with
    ⟨claim, hclaim, hwords, hresolve⟩
  obtain rfl := Option.some.inj hclaim
  rcases hwords (by decide) (by decide) (by decide) with ⟨v, hv⟩
  exact ⟨_, v, rfl, hv, (hresolve v hv).2.2 (by decide) (by decide)⟩

/-! ## Which planned lanes the contract accepts -/

/-- The money axis of a lane within a 64-bit cap. -/
structure Capped (s : LaneState) : Prop where
  cap_le : s.cap ≤ u64Max
  claim_le : U256.saturatingAdd s.lastAmount s.chain.accrued ≤ u64Max

/-- The anchor alone is within the cap's width. -/
theorem Capped.amount_le (h : Capped s) : s.lastAmount ≤ u64Max := by
  have hclaim := h.claim_le
  unfold U256.saturatingAdd U256.modulus at hclaim
  unfold u64Max at hclaim ⊢
  omega

/-- An unextended anchor is its own claim. -/
theorem saturatingAdd_opened {amount chunkPrice : Nat} {root : Bytes32} (h : amount ≤ u64Max) :
    U256.saturatingAdd amount (LaneChain.opened root chunkPrice).accrued ≤ u64Max := by
  refine le_trans (U256.saturatingAdd_le _ _) ?_
  simpa [LaneChain.accrued, LaneChain.opened, U256.wrappingMul] using h

/-- Every event that raises the claim is checked against the cap. -/
theorem Capped.step (hbacked : Backed H K s) (h : Capped s) (hstep : s.step H e s') :
    Capped s' := by
  have hcap := h.cap_le
  cases LaneState.step_cases hstep with
  | covered => exact h
  | bump hb =>
    rw [hb.state_eq]
    exact ⟨hcap, le_trans hb.within_cap hcap⟩
  | roll hr =>
    rw [hr.state_eq]
    exact ⟨hcap, saturatingAdd_opened (le_trans hr.within_cap hcap)⟩
  | anchor ha =>
    -- Without a signature the lane tracks no root a voucher could re-assert.
    have hroot := ha.root_eq
    rw [(hbacked.unsigned ha.unsigned).chain] at hroot
    exact absurd hroot.symm ha.root_ne_zero
  | reopen hr =>
    rw [hr.state_eq]
    exact ⟨hcap, saturatingAdd_opened h.amount_le⟩
  | reveal _ hr =>
    rw [hr.state_eq]
    exact ⟨hcap, le_trans hr.within_cap hcap⟩
  | clamp =>
    exact ⟨le_trans (min_le_left _ _) hcap, h.claim_le⟩

/-- The event does not push the byte frontier past 64 bits. -/
def KeepsBytes (s : LaneState) : LaneEvent → Prop
  | .presigned sv =>
    sv.voucher.chainRoot = s.chain.chainRoot →
      sv.voucher.bytesDelivered + s.chain.verifiedIndex * chunkBytes ≤ u64Max
  | .preimage root index _ | .preimageVerified root index _ _ =>
    root = s.chain.chainRoot → s.chain.verifiedIndex < index.toNat →
      s.lastBytesDelivered + index.toNat * chunkBytes ≤ u64Max
  | _ => True

/-- The byte frontier of a lane fits 64 bits, or the chain has proved nothing. -/
def BytesFit (s : LaneState) : Prop :=
  s.chain.verifiedIndex = 0 ∨ s.lastBytesDelivered + s.chain.verifiedIndex * chunkBytes ≤ u64Max

/-- Events that keep the byte frontier within 64 bits keep the lane within them. -/
theorem BytesFit.step (hbacked : Backed H K s) (h : BytesFit s) (hkeep : KeepsBytes s e)
    (hstep : s.step H e s') : BytesFit s' := by
  unfold BytesFit
  cases LaneState.step_cases hstep with
  | covered => exact h
  | bump hb =>
    rw [hb.state_eq]
    exact .inr (hkeep hb.root_eq)
  | roll hr =>
    rw [hr.state_eq]
    exact .inl rfl
  | anchor ha =>
    have hroot := ha.root_eq
    rw [(hbacked.unsigned ha.unsigned).chain] at hroot
    exact absurd hroot.symm ha.root_ne_zero
  | reopen hr =>
    rw [hr.state_eq]
    exact .inl rfl
  | reveal he hr =>
    rw [hr.state_eq]
    cases he with
    | locked => exact .inr (hkeep hr.root_eq hr.deeper)
    | walked => exact .inr (hkeep hr.root_eq hr.deeper)
  | clamp => exact h

/-- A planned lane within its cap is accepted exactly when its byte frontier fits
64 bits; its money always does. -/
theorem accepted_iff (hbacked : Backed H K s) (hcapped : Capped s) {paid : LaneKey → Nat}
    {selfAddress : Address} {status : RegistrationStatus} {planned : PlannedLane}
    (hplan : planLane s paid selfAddress status = .ok (some planned)) :
    s.lastAmount + s.chain.verifiedIndex * s.chain.chunkPrice ≤ u64Max ∧
      s.lastBytesDelivered ≤ u64Max ∧
      ((∃ c, resolveClaim H planned.voucher = .ok c) ↔
        s.lastBytesDelivered + s.chain.verifiedIndex * chunkBytes ≤ u64Max) := by
  rcases planLane_voucher hplan with ⟨claim, hclaim, hvoucher⟩
  have hparts : claim.amount = s.lastAmount ∧ claim.bytesDelivered = s.lastBytesDelivered ∧
      claim.chain = s.chain := by
    unfold LaneState.liveClaim at hclaim
    rcases Option.map_eq_some_iff.mp hclaim with ⟨signature, -, rfl⟩
    exact ⟨rfl, rfl, rfl⟩
  have hindex : claim.chain.verifiedIndex < 256 := by rw [hparts.2.2]; exact hbacked.index_lt
  have hwalks : hashForward H claim.chain.tip claim.chain.verifiedIndex =
      claim.chain.chainRoot := by
    rw [hparts.2.2]
    exact hbacked.walks
  rcases resolveClaim_claimVoucher hindex hwalks hvoucher with ⟨hprice, hresolve⟩
  rcases claimVoucher_eq_ok hindex hvoucher with ⟨-, hbytes, -⟩
  rw [hparts.1, hparts.2.1, hparts.2.2] at hresolve
  rw [hparts.2.2] at hprice
  -- With a 64-bit price the saturated claim is the true sum.
  have hmoney : s.lastAmount + s.chain.verifiedIndex * s.chain.chunkPrice ≤ u64Max := by
    have hclaim := hcapped.claim_le
    have hproduct : s.chain.chunkPrice * s.chain.verifiedIndex ≤ u64Max * 255 :=
      Nat.mul_le_mul hprice (by have := hbacked.index_lt; omega)
    unfold u64Max at hclaim hproduct ⊢
    unfold LaneChain.accrued at hclaim
    rw [U256.wrappingMul_eq (by unfold U256.modulus; omega)] at hclaim
    unfold U256.saturatingAdd U256.modulus at hclaim
    rw [Nat.mul_comm]
    omega
  refine ⟨hmoney, ?_, ?_⟩
  · rw [← hparts.2.1, ← hbytes]
    exact toNat_le_u64Max _
  · rw [hresolve]
    constructor
    · rintro ⟨c, hc⟩
      split at hc
      · cases hc
      · omega
    · intro hfits
      rw [if_neg (by omega)]
      exact ⟨_, rfl⟩

/-- In every lane reached from a fresh one with a 64-bit cap, a planned lane is
accepted by the contract exactly when its byte frontier fits 64 bits; runs whose
events all keep the byte frontier within 64 bits only plan accepted lanes. -/
theorem planned_accepted_iff (hfresh : s₀.Fresh) (hcap : s₀.cap ≤ u64Max)
    (hrun : Reaches (LaneState.step H) (Verified H K) s₀ s) (paid : LaneKey → Nat)
    (selfAddress : Address) (status : RegistrationStatus) (planned : PlannedLane)
    (hplan : planLane s paid selfAddress status = .ok (some planned)) :
    s.lastAmount + s.chain.verifiedIndex * s.chain.chunkPrice ≤ u64Max ∧
      ((∃ c, resolveClaim H planned.voucher = .ok c) ↔
        s.lastBytesDelivered + s.chain.verifiedIndex * chunkBytes ≤ u64Max) ∧
      (Reaches (LaneState.step H) (fun s e => Verified H K s e ∧ KeepsBytes s e) s₀ s →
        ∃ c, resolveClaim H planned.voucher = .ok c) := by
  have hbacked : Backed H K s := Backed.of_reaches hfresh hrun
  have hzero : U256.saturatingAdd s₀.lastAmount s₀.chain.accrued ≤ u64Max := by
    rw [hfresh.lastAmount, hfresh.chain]
    exact saturatingAdd_opened (Nat.zero_le _)
  have hcapped : Backed H K s ∧ Capped s := by
    refine hrun.invariant (I := fun s => Backed H K s ∧ Capped s)
      ⟨Backed.of_fresh hfresh, hcap, hzero⟩ ?_
    rintro a e b hverified hstep ⟨ha, hc⟩
    exact ⟨ha.step hverified hstep, hc.step ha hstep⟩
  rcases accepted_iff hbacked hcapped.2 hplan with ⟨hmoney, hbytes, hiff⟩
  refine ⟨hmoney, hiff, fun hkept => hiff.mpr ?_⟩
  have hfit : Backed H K s ∧ BytesFit s := by
    refine hkept.invariant (I := fun s => Backed H K s ∧ BytesFit s)
      ⟨Backed.of_fresh hfresh, .inl (by rw [hfresh.chain]; rfl)⟩ ?_
    rintro a e b ⟨hverified, hkeep⟩ hstep ⟨ha, hb⟩
    exact ⟨ha.step hverified hstep, hb.step ha hkeep hstep⟩
  rcases hfit.2 with hnone | hle
  · rw [hnone, Nat.zero_mul, Nat.add_zero]
    exact hbytes
  · exact hle

/-- The sample lane with a cap that pays for `2 ^ 64` bytes at one unit per
megabyte. -/
def sampleWideLane : LaneState :=
  { sampleLane with cap := 2 ^ 45 }

/-- The wide lane after a voucher that signs `2 ^ 64 - 1` bytes at that rate. -/
def sampleWideOpened : LaneState :=
  { sampleWideLane with
    lastAmount := 2 ^ 44
    lastBytesDelivered := 2 ^ 64 - 1
    lastSignature := some ⟨1, 1, false⟩
    chain := LaneChain.opened sampleRoot 1 }

/-- The wide lane after one reveal on top. -/
def sampleWideRevealed : LaneState :=
  { sampleWideOpened with chain := ⟨sampleRoot, 1, 1, 0⟩ }

/-- Verified proofs lead the wide lane there. -/
theorem sampleWideRevealed_reaches :
    Reaches (LaneState.step PaymentPool.sampleCrypto)
      (Verified PaymentPool.sampleCrypto sampleEcdsa) sampleWideLane sampleWideRevealed := by
  have hfirst : sampleWideLane.step PaymentPool.sampleCrypto
      (.presigned (sampleSigned (2 ^ 44) (2 ^ 64 - 1) 1)) sampleWideOpened := rfl
  have hsecond : sampleWideOpened.step PaymentPool.sampleCrypto (.preimage sampleRoot 1 0)
      sampleWideRevealed := rfl
  have hopen : Verified PaymentPool.sampleCrypto sampleEcdsa sampleWideLane
      (.presigned (sampleSigned (2 ^ 44) (2 ^ 64 - 1) 1)) := ⟨rfl, rfl, rfl, rfl⟩
  have hreveal : Verified PaymentPool.sampleCrypto sampleEcdsa sampleWideOpened
      (.preimage sampleRoot 1 0) := trivial
  exact ((Reaches.refl _).tail hopen hfirst).tail hreveal hsecond

/-- The wide lane is planned although the contract reverts on its byte count, and
with it every other lane of the call. -/
theorem planned_lane_reverts :
    Reaches (LaneState.step PaymentPool.sampleCrypto)
        (Verified PaymentPool.sampleCrypto sampleEcdsa) sampleWideLane sampleWideRevealed ∧
      sampleWideLane.Fresh ∧ sampleWideLane.cap ≤ u64Max ∧
      ∃ planned, planLane sampleWideRevealed (fun _ => 0) 3 .registered = .ok (some planned) ∧
        resolveClaim PaymentPool.sampleCrypto planned.voucher = .error .claimOverflow := by
  refine ⟨sampleWideRevealed_reaches, ⟨rfl, rfl, rfl, rfl⟩, by decide, ?_⟩
  exact ⟨_, rfl, rfl⟩

/-- The sample lane is planned and accepted. -/
theorem planned_accepted_iff_sample : ∃ planned,
    planLane sampleRevealed (fun _ => 0) 3 .registered = .ok (some planned) ∧
      ∃ c, resolveClaim PaymentPool.sampleCrypto planned.voucher = .ok c := by
  have hrun : Reaches (LaneState.step PaymentPool.sampleCrypto)
      (Verified PaymentPool.sampleCrypto sampleEcdsa) sampleLane sampleRevealed :=
    sampleRevealed_reaches ⟨rfl, rfl, rfl, rfl⟩ trivial
  have hplan : ∃ planned,
      planLane sampleRevealed (fun _ => 0) 3 .registered = .ok (some planned) := ⟨_, rfl⟩
  rcases hplan with ⟨planned, hplan⟩
  refine ⟨planned, hplan, ?_⟩
  exact (planned_accepted_iff ⟨rfl, rfl, rfl, rfl⟩ (by decide) hrun _ _ _ _ hplan).2.1.mpr
    (by decide)

end Decdn.Node
