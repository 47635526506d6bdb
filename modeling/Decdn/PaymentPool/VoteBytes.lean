import Decdn.PaymentPool.Lifecycle
import Decdn.PaymentPool.Widths
import Mathlib.Algebra.Order.BigOperators.Group.List

/-!
# Vote bytes

A lane's `bytesDelivered` is the weight its provider may vote with.  It advances with the
money a voucher is paid, clamped by the bytes the voucher claims, by the delivery floor on
the whole claim and by the floor on the payment itself; the pool or the cap may cut the
payment, and governance may move the floor between two payments.

Main results:

- Theorem `narrowedApplyVoucher_eq`: no narrowing cast of `_applyVoucher` truncates.
- Theorem `LaneCredits.run`: every run of the contract applies a sequence of vouchers to each
  lane.
- Theorem `vote_bytes_earned`: the bytes of a lane are paid for, each unit once.
-/

namespace Decdn.PaymentPool

open Relation

variable {H : Crypto} {tx : Tx} {s s' : State} {poolId : Bytes32} {signer provider : Address}

/-! ## Narrowing casts -/

/-- `uint64(x)`. -/
def narrow (x : Nat) : Nat := x % 2 ^ 64

theorem narrow_eq {x : Nat} (h : x ≤ u64Max) : narrow x = x := by
  unfold narrow
  unfold u64Max at h
  omega

/-- `_resolveClaim` with its casts. -/
def narrowedResolveClaim (H : Crypto) (v : LaneVoucher) : Except Error ResolvedClaim :=
  let meter := v.chainMeter.toNat
  if meter >>> 72 ≠ 0 then .error .chainMeterReservedNonZero
  else
    let chunkPrice := narrow (meter >>> 8)
    let chainIndex := meter % 2 ^ 8
    if H.keccak256^[chainIndex] v.preimage ≠ v.chainRoot then .error .badPreimage
    else
      let wideClaimed := v.cumulative.toNat + chainIndex * chunkPrice
      let wideBytes := v.bytesDelivered.toNat + chainIndex * chunkBytes
      if u64Max < wideClaimed ∨ u64Max < wideBytes then .error .claimOverflow
      else .ok ⟨narrow wideClaimed, narrow wideBytes, chunkPrice⟩

/-- `_applyVoucher` with its casts. -/
def narrowedApplyVoucher (H : Crypto) (tx : Tx) (poolId : Bytes32) (s : State) (v : LaneVoucher)
    (remaining : Nat) : Except Error (State × Payout) :=
  let a := s.authorized poolId v.signer
  if a.cap = 0 ∧ a.expiry = 0 then .ok (s, {})
  else do
    let claim ← narrowedResolveClaim H v
    verifyVoucher H tx poolId v claim.chunkPrice
    let w := s.watermark poolId v.signer tx.sender
    if a.expiry ≤ tx.timestamp then return (s, {})
    else if claim.claimed ≤ w.amount then return (s, {})
    else
      let desired := claim.claimed - w.amount
      let room ← checkedSub a.cap a.spent
      let paid := narrow (min desired (min room remaining))
      if paid = 0 then return (s, {})
      else
        let ceiling ← mulDiv claim.claimed bytesPerMb s.deliveryFloor
        let creditedBytes := narrow (min claim.claimedBytes ceiling)
        let bytesDelta :=
          if w.bytesDelivered < creditedBytes then creditedBytes - w.bytesDelivered else 0
        let share ← mulDiv bytesDelta paid desired
        let floorShare ← mulDiv paid bytesPerMb s.deliveryFloor
        let bytesPaid := narrow (min share floorShare)
        let amount ← checkedAdd64 w.amount paid
        let bytesDelivered ← checkedAdd64 w.bytesDelivered bytesPaid
        let spent ← checkedAdd64 a.spent paid
        let s := s.setWatermark poolId v.signer tx.sender ⟨amount, bytesDelivered⟩
        return (s.setAuthorized poolId v.signer { a with spent := spent },
          ⟨paid, bytesPaid, amount⟩)

theorem narrowedResolveClaim_eq (v : LaneVoucher) :
    narrowedResolveClaim H v = resolveClaim H v := by
  unfold narrowedResolveClaim resolveClaim
  dsimp only
  split
  · rfl
  split
  · rfl
  split
  · rename_i hwide
    unfold narrow at hwide
    rw [if_pos hwide]
  · rename_i hfits
    unfold narrow at hfits
    rw [if_neg hfits]
    rw [not_or, not_lt, not_lt] at hfits
    have hclaimed := narrow_eq hfits.1
    have hbytes := narrow_eq hfits.2
    rw [show narrow (v.chainMeter.toNat >>> 8) = (v.chainMeter.toNat >>> 8) % 2 ^ 64 from rfl,
      hclaimed, hbytes]

/-- A share of an advance for part of its price is at most the advance. -/
theorem mulDiv_le_of_le {delta paid desired share : Nat} (hle : paid ≤ desired)
    (h : mulDiv delta paid desired = .ok share) : share ≤ delta := by
  rcases mulDiv_eq_ok.mp h with ⟨-, rfl⟩
  apply Nat.div_le_of_le_mul
  rw [Nat.mul_comm desired]
  exact Nat.mul_le_mul_left delta hle

/-- Every cast of `_applyVoucher` keeps its value. -/
theorem narrowedApplyVoucher_eq (H : Crypto) (tx : Tx) (poolId : Bytes32) (s : State)
    (v : LaneVoucher) (remaining : Nat) :
    narrowedApplyVoucher H tx poolId s v remaining = applyVoucher H tx poolId s v remaining := by
  unfold narrowedApplyVoucher applyVoucher
  dsimp only
  split
  · rfl
  rw [narrowedResolveClaim_eq]
  refine bind_congr_ok fun c hc => ?_
  have hbounds := resolveClaim_claimed_le hc
  refine bind_congr_ok fun _ _ => ?_
  split
  · rfl
  split
  · rfl
  refine bind_congr_ok fun room _ => ?_
  rw [narrow_eq (x := min _ (min room remaining)) (by omega)]
  split
  · rfl
  refine bind_congr_ok fun ceiling _ => ?_
  rw [narrow_eq (x := min c.claimedBytes ceiling) (by omega)]
  refine bind_congr_ok fun share hshare => ?_
  refine bind_congr_ok fun floorShare _ => ?_
  have hle := mulDiv_le_of_le (min_le_left _ _) hshare
  have hdelta : (if (s.watermark poolId v.signer tx.sender).bytesDelivered <
      min c.claimedBytes ceiling then
        min c.claimedBytes ceiling - (s.watermark poolId v.signer tx.sender).bytesDelivered
      else 0) ≤ u64Max := by
    split <;> omega
  rw [narrow_eq (x := min share floorShare) (by omega)]

/-! ## One application -/

/-- What one application of a voucher presented, under which floor, and what it paid and
credited. -/
structure Credit where
  claimedBytes : Nat
  floor : Nat
  paid : Nat
  bytesPaid : Nat

/-- The bytes of one application are within its payment at the floor in force, and take the
lane to no more than the bytes it claims. -/
theorem applyVoucher_credit {v : LaneVoucher} {remaining : Nat} {out : Payout} {c : ResolvedClaim}
    (h : applyVoucher H tx poolId s v remaining = .ok (s', out)) (hc : resolveClaim H v = .ok c) :
    out.bytesPaid * s.deliveryFloor ≤ out.paid * bytesPerMb ∧
      (s.watermark poolId v.signer tx.sender).bytesDelivered + out.bytesPaid ≤
        max (s.watermark poolId v.signer tx.sender).bytesDelivered c.claimedBytes ∧
      (s'.watermark poolId v.signer tx.sender).amount =
        (s.watermark poolId v.signer tx.sender).amount + out.paid ∧
      (s'.watermark poolId v.signer tx.sender).bytesDelivered =
        (s.watermark poolId v.signer tx.sender).bytesDelivered + out.bytesPaid := by
  have hempty : ∀ t : State, t = s → ({} : Payout) = out →
      out.bytesPaid * s.deliveryFloor ≤ out.paid * bytesPerMb ∧
      (s.watermark poolId v.signer tx.sender).bytesDelivered + out.bytesPaid ≤
        max (s.watermark poolId v.signer tx.sender).bytesDelivered c.claimedBytes ∧
      (t.watermark poolId v.signer tx.sender).amount =
        (s.watermark poolId v.signer tx.sender).amount + out.paid ∧
      (t.watermark poolId v.signer tx.sender).bytesDelivered =
        (s.watermark poolId v.signer tx.sender).bytesDelivered + out.bytesPaid := by
    rintro t rfl rfl
    exact ⟨by simp, le_max_left _ _, rfl, rfl⟩
  unfold applyVoucher at h
  dsimp only at h
  split at h
  · rcases Prod.mk.inj (Except.ok.inj h) with ⟨hs, hout⟩
    exact hempty s' hs.symm hout
  rw [hc] at h
  simp only [bind_eq_ok] at h
  rcases h with ⟨c', hc', -, -, h⟩
  rcases Except.ok.inj hc' with rfl
  split at h
  · rcases Prod.mk.inj (pure_eq_ok.mp h) with ⟨hs, hout⟩
    exact hempty s' hs.symm hout
  split at h
  · rcases Prod.mk.inj (pure_eq_ok.mp h) with ⟨hs, hout⟩
    exact hempty s' hs.symm hout
  rename_i hfresh
  simp only [bind_eq_ok] at h
  rcases h with ⟨room, -, h⟩
  split at h
  · rcases Prod.mk.inj (pure_eq_ok.mp h) with ⟨hs, hout⟩
    exact hempty s' hs.symm hout
  simp only [bind_eq_ok, pure_eq_ok] at h
  rcases h with ⟨ceiling, -, share, hshare, floorShare, hfloorShare, amount, hamount, bytes, hbytes,
    spent, -, h⟩
  rcases checkedAdd64_eq_ok.mp hamount with ⟨-, rfl⟩
  rcases checkedAdd64_eq_ok.mp hbytes with ⟨-, rfl⟩
  rcases Prod.mk.inj h with ⟨rfl, rfl⟩
  have hle := mulDiv_le_of_le (min_le_left _ _) hshare
  rcases mulDiv_eq_ok.mp hfloorShare with ⟨-, hfloor⟩
  refine ⟨?_, ?_, ?_, ?_⟩
  · dsimp only
    calc min share floorShare * s.deliveryFloor
        ≤ floorShare * s.deliveryFloor := Nat.mul_le_mul_right _ (min_le_right _ _)
      _ ≤ _ := by
        rw [hfloor]
        exact Nat.div_mul_le_self _ _
  · have hdelta : (if (s.watermark poolId v.signer tx.sender).bytesDelivered <
        min c.claimedBytes ceiling then
          min c.claimedBytes ceiling - (s.watermark poolId v.signer tx.sender).bytesDelivered
        else 0) + (s.watermark poolId v.signer tx.sender).bytesDelivered ≤
          max (s.watermark poolId v.signer tx.sender).bytesDelivered c.claimedBytes := by
      split <;> omega
    dsimp only
    omega
  · simp [State.setAuthorized, State.setWatermark]
  · simp [State.setAuthorized, State.setWatermark]

/-! ## Sequences of applications -/

/-- The vouchers applied to a lane between two states.  Whatever else happens between two of
them, other lanes, caps, deposits or the floor, leaves the lane's watermark alone. -/
inductive LaneCredits (H : Crypto) (poolId : Bytes32) (signer provider : Address) (s : State) :
    List Credit → State → Prop where
  | start : LaneCredits H poolId signer provider s [] s
  | elsewhere {credits : List Credit} {t t' : State}
      (h : LaneCredits H poolId signer provider s credits t)
      (hlane : t'.watermark poolId signer provider = t.watermark poolId signer provider) :
      LaneCredits H poolId signer provider s credits t'
  | voucher {credits : List Credit} {t t' : State} {tx : Tx} {v : LaneVoucher} {remaining : Nat}
      {out : Payout} {c : ResolvedClaim} (h : LaneCredits H poolId signer provider s credits t)
      (hsigner : v.signer = signer) (hprovider : tx.sender = provider)
      (happly : applyVoucher H tx poolId t v remaining = .ok (t', out))
      (hclaim : resolveClaim H v = .ok c) :
      LaneCredits H poolId signer provider s
        (credits ++ [⟨c.claimedBytes, t.deliveryFloor, out.paid, out.bytesPaid⟩]) t'

/-- The largest byte claim presented. -/
def largestClaim (credits : List Credit) : Nat :=
  credits.foldr (fun credit acc => max credit.claimedBytes acc) 0

theorem largestClaim_append (credits : List Credit) (credit : Credit) :
    largestClaim (credits ++ [credit]) = max (largestClaim credits) credit.claimedBytes := by
  induction credits with
  | nil => exact Nat.max_comm _ _
  | cons head credits ih =>
    unfold largestClaim at ih ⊢
    rw [List.cons_append, List.foldr_cons, List.foldr_cons, ih, max_assoc]

/-- What a sequence of applications leaves on its lane. -/
structure Earned (poolId : Bytes32) (signer provider : Address) (s : State)
    (credits : List Credit) (t : State) : Prop where
  floor : ∀ credit ∈ credits, credit.bytesPaid * credit.floor ≤ credit.paid * bytesPerMb
  amount : (t.watermark poolId signer provider).amount =
    (s.watermark poolId signer provider).amount + (credits.map Credit.paid).sum
  bytes : (t.watermark poolId signer provider).bytesDelivered =
    (s.watermark poolId signer provider).bytesDelivered + (credits.map Credit.bytesPaid).sum
  bytes_le : (t.watermark poolId signer provider).bytesDelivered ≤
    max (s.watermark poolId signer provider).bytesDelivered (largestClaim credits)

theorem LaneCredits.earned {credits : List Credit} {t : State}
    (h : LaneCredits H poolId signer provider s credits t) :
    Earned poolId signer provider s credits t := by
  induction h with
  | start => exact ⟨fun _ h => absurd h List.not_mem_nil, rfl, rfl, le_max_left _ _⟩
  | elsewhere _ hlane ih =>
    refine ⟨ih.floor, ?_, ?_, ?_⟩
    · rw [hlane]
      exact ih.amount
    · rw [hlane]
      exact ih.bytes
    · rw [hlane]
      exact ih.bytes_le
  | @voucher credits t t' tx v remaining out c _ hsigner hprovider happly hclaim ih =>
    have hcredit := applyVoucher_credit happly hclaim
    rw [hsigner, hprovider] at hcredit
    rcases hcredit with ⟨hfloor, hclaimed, hamount, hbytes⟩
    have hle := ih.bytes_le
    have hlargest := largestClaim_append credits
      ⟨c.claimedBytes, t.deliveryFloor, out.paid, out.bytesPaid⟩
    dsimp only at hlargest
    refine ⟨?_, ?_, ?_, ?_⟩
    · intro credit hmem
      rcases List.mem_append.mp hmem with hmem | hmem
      · exact ih.floor credit hmem
      · rw [List.mem_singleton.mp hmem]
        exact hfloor
    · rw [hamount, ih.amount, List.map_append, List.sum_append, Nat.add_assoc]
      rfl
    · rw [hbytes, ih.bytes, List.map_append, List.sum_append, Nat.add_assoc]
      rfl
    · omega

/-- At a floor that every application met, the bytes of a lane are covered by its money, so
no paid unit is credited twice. -/
theorem Earned.covered {credits : List Credit} {t : State} {floor : Nat}
    (h : Earned poolId signer provider s credits t) (hfloor : ∀ credit ∈ credits, floor ≤ credit.floor) :
    ((t.watermark poolId signer provider).bytesDelivered -
        (s.watermark poolId signer provider).bytesDelivered) * floor ≤
      ((t.watermark poolId signer provider).amount -
        (s.watermark poolId signer provider).amount) * bytesPerMb := by
  rw [h.bytes, h.amount, Nat.add_sub_cancel_left, Nat.add_sub_cancel_left,
    ← List.sum_map_mul_right, ← List.sum_map_mul_right]
  apply List.sum_le_sum
  intro credit hmem
  exact le_trans (Nat.mul_le_mul_left _ (hfloor credit hmem)) (h.floor credit hmem)

/-! ## Runs of the contract -/

/-- The second state is reached from the first by applications on the lane. -/
def Credits (H : Crypto) (poolId : Bytes32) (signer provider : Address) (t t' : State) : Prop :=
  ∀ s credits, LaneCredits H poolId signer provider s credits t →
    ∃ more, LaneCredits H poolId signer provider s (credits ++ more) t'

theorem Credits.of_lane {t t' : State}
    (hlane : t'.watermark poolId signer provider = t.watermark poolId signer provider) :
    Credits H poolId signer provider t t' := by
  intro s credits h
  refine ⟨[], ?_⟩
  rw [List.append_nil]
  exact h.elsewhere hlane

theorem Credits.trans {t t' t'' : State} (h : Credits H poolId signer provider t t')
    (h' : Credits H poolId signer provider t' t'') : Credits H poolId signer provider t t'' := by
  intro s credits hrun
  rcases h s credits hrun with ⟨more, hmore⟩
  rcases h' s _ hmore with ⟨more', hmore'⟩
  rw [List.append_assoc] at hmore'
  exact ⟨more ++ more', hmore'⟩

/-- A voucher of the lane that does not resolve is refused or writes nothing. -/
theorem resolves_or_same {v : LaneVoucher} {remaining : Nat} {out : Payout}
    (h : applyVoucher H tx poolId s v remaining = .ok (s', out)) :
    (∃ c, resolveClaim H v = .ok c) ∨ s' = s := by
  rcases applyVoucher_cases h with ⟨hs, -⟩ | hpay
  · exact .inr hs
  · rcases hpay.claim with ⟨c, hc, -⟩
    exact .inl ⟨c, hc⟩

theorem applyVoucher_credits {v : LaneVoucher} {remaining : Nat} {out : Payout} (batchId : Bytes32)
    (h : applyVoucher H tx batchId s v remaining = .ok (s', out)) :
    Credits H poolId signer provider s s' := by
  by_cases hlane : batchId = poolId ∧ v.signer = signer ∧ tx.sender = provider
  · rcases hlane with ⟨rfl, hsigner, hprovider⟩
    rcases resolves_or_same h with ⟨c, hc⟩ | rfl
    · intro s₀ credits hrun
      exact ⟨_, hrun.voucher hsigner hprovider h hc⟩
    · exact .of_lane rfl
  · apply Credits.of_lane
    rcases applyVoucher_cases h with ⟨rfl, -⟩ | hpay
    · rfl
    · rw [hpay.state_eq]
      unfold State.setAuthorized State.setWatermark
      dsimp only
      by_cases hid : poolId = batchId
      · subst hid
        rw [Function.update_self]
        by_cases hsigner : signer = v.signer
        · subst hsigner
          rw [Function.update_self, Function.update_of_ne]
          rintro rfl
          exact hlane ⟨rfl, rfl, rfl⟩
        · rw [Function.update_of_ne hsigner]
      · rw [Function.update_of_ne hid]

theorem redeemVoucher_credits {remaining : Nat} {acc acc' : GroupAcc} {v : LaneVoucher}
    (batchId : Bytes32) (h : redeemVoucher H tx batchId remaining acc v = .ok acc') :
    Credits H poolId signer provider acc.state acc'.state := by
  unfold redeemVoucher at h
  simp only [bind_eq_ok] at h
  rcases h with ⟨left, -, ⟨s', out⟩, happly, h⟩
  dsimp only at h
  split at h
  · rcases pure_eq_ok.mp h with rfl
    exact applyVoucher_credits batchId happly
  · simp only [bind_eq_ok, pure_eq_ok] at h
    rcases h with ⟨poolPaid, -, rfl⟩
    exact applyVoucher_credits batchId happly

theorem redeemBatch_credits {acc acc' : CallAcc} {batch : PoolBatch}
    (h : redeemBatch H tx acc batch = .ok acc') :
    Credits H poolId signer provider acc.state acc'.state := by
  rcases redeemBatch_cases h with ⟨-, mid, group, hmid, -, hgroup, -, hwrite⟩
  have hreg : Credits H poolId signer provider acc.state mid := by
    refine foldlM_invariant (Credits H poolId signer provider acc.state) ?_ (.of_lane rfl) hmid
    intro b c b' _ hb hstep
    refine hb.trans ?_
    rcases registerCapability_cases hstep with rfl | ⟨-, -, rfl⟩
    · exact .of_lane rfl
    · exact .of_lane rfl
  have hloop : Credits H poolId signer provider mid group.state := by
    refine foldlM_invariant (fun g : GroupAcc => Credits H poolId signer provider mid g.state)
      ?_ (.of_lane rfl) hgroup
    intro b v b' _ hb hstep
    exact hb.trans (redeemVoucher_credits batch.poolId hstep)
  refine (hreg.trans hloop).trans (.of_lane ?_)
  rcases hwrite with ⟨-, hstate⟩ | ⟨-, hstate⟩
  · rw [hstate]
  · rw [hstate]
    rfl

theorem redeemMany_credits {batches : List PoolBatch} (h : redeemMany H tx s batches = .ok s') :
    Credits H poolId signer provider s s' := by
  rcases redeemMany_cases h with ⟨acc, hfold, hend⟩
  have hloop : Credits H poolId signer provider s acc.state := by
    refine foldlM_invariant (fun a : CallAcc => Credits H poolId signer provider s a.state)
      ?_ (.of_lane rfl) hfold
    intro b batch b' _ hb hstep
    exact hb.trans (redeemBatch_credits hstep)
  refine hloop.trans (.of_lane ?_)
  rcases hend with ⟨-, rfl⟩ | ⟨pulled, settled, -, -, rfl⟩
  · rfl
  · rfl

theorem exec_credits {c : Call} (h : exec H tx s c = .ok s') :
    Credits H poolId signer provider s s' := by
  cases c with
  | openPool deposit =>
    rcases openPool_cases h with ⟨received, -, rfl⟩
    exact .of_lane rfl
  | topUp id additionalDeposit =>
    rcases topUp_cases h with ⟨-, -, received, -, rfl⟩
    exact .of_lane rfl
  | closePool id =>
    rcases closePool_cases h with ⟨-, -, rfl⟩
    exact .of_lane rfl
  | reclaim id =>
    rcases reclaim_cases h with ⟨-, -, -, -, rfl⟩
    exact .of_lane rfl
  | redeemMany batches => exact redeemMany_credits h
  | setDisputeWindow n => exact .of_lane (by rw [(setDisputeWindow_untouched h).watermark])
  | setRateBounds n => exact .of_lane (by rw [(setRateBounds_untouched h).watermark])
  | setMinDeposit n => exact .of_lane (by rw [(setMinDeposit_untouched h).watermark])
  | pause => exact .of_lane (by rw [(pause_untouched h).watermark])
  | unpause => exact .of_lane (by rw [(unpause_untouched h).watermark])

/-- A run of the contract applies a sequence of vouchers to each lane. -/
theorem LaneCredits.run {w w' : World} (h : Run H w w') :
    ∃ credits, LaneCredits H poolId signer provider w.contract credits w'.contract := by
  induction h with
  | refl => exact ⟨[], .start⟩
  | tail _ hstep ih =>
    rcases ih with ⟨credits, hcredits⟩
    cases hstep with
    | call tx c hnow hexec =>
      rcases exec_credits hexec w.contract credits hcredits with ⟨more, hmore⟩
      exact ⟨_, hmore⟩
    | donation amount => exact ⟨_, hcredits.elsewhere rfl⟩

/-- Over every run of the contract the vouchers applied to a lane, with whatever bytes they
claim and under whatever floors governance sets between them, never lower the lane's bytes
and never raise them past the largest claim presented; each application's bytes at its floor
are within what it paid; the paid units are the lane's own advance, each counted once, so at
any floor they all met the bytes are covered by it; and no cast of an application
truncates. -/
theorem vote_bytes_earned (H : Crypto) (poolId : Bytes32) (signer provider : Address) :
    (∀ w w', Run H w w' →
      ∃ credits, LaneCredits H poolId signer provider w.contract credits w'.contract) ∧
    (∀ s credits t, LaneCredits H poolId signer provider s credits t →
      (s.watermark poolId signer provider).bytesDelivered ≤
        (t.watermark poolId signer provider).bytesDelivered ∧
      (t.watermark poolId signer provider).bytesDelivered ≤
        max (s.watermark poolId signer provider).bytesDelivered (largestClaim credits) ∧
      (∀ credit ∈ credits, credit.bytesPaid * credit.floor ≤ credit.paid * bytesPerMb) ∧
      (t.watermark poolId signer provider).amount =
        (s.watermark poolId signer provider).amount + (credits.map Credit.paid).sum ∧
      (t.watermark poolId signer provider).bytesDelivered =
        (s.watermark poolId signer provider).bytesDelivered + (credits.map Credit.bytesPaid).sum ∧
      ∀ floor, (∀ credit ∈ credits, floor ≤ credit.floor) →
        ((t.watermark poolId signer provider).bytesDelivered -
            (s.watermark poolId signer provider).bytesDelivered) * floor ≤
          ((t.watermark poolId signer provider).amount -
            (s.watermark poolId signer provider).amount) * bytesPerMb) ∧
    ∀ tx s v remaining, narrowedApplyVoucher H tx poolId s v remaining =
      applyVoucher H tx poolId s v remaining := by
  refine ⟨fun w w' hrun => LaneCredits.run hrun, ?_,
    fun tx s v remaining => narrowedApplyVoucher_eq H tx poolId s v remaining⟩
  intro s credits t h
  have hearned := h.earned
  refine ⟨?_, hearned.bytes_le, hearned.floor, hearned.amount, hearned.bytes, ?_⟩
  · rw [hearned.bytes]
    exact Nat.le_add_right _ _
  · intro floor hfloor
    exact hearned.covered hfloor

end Decdn.PaymentPool
