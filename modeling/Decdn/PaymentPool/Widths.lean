import Decdn.PaymentPool.Spec

/-!
# Storage widths

The contract stores every USDC and byte counter in `uint64` and divides by a
delivery floor that is never zero.  These bounds hold in every reachable state,
and with them a voucher that is signed, registered and unexpired never reverts.

Main results:

- Theorem `Reachable.widths`: the bounds hold over whole runs.
- Theorem `applyVoucher_ok`: such a voucher returns, and pays the least of the
  three budgets.
-/

namespace Decdn.PaymentPool

variable {H : Crypto} {tx : Tx} {s s' : State} {poolId : Bytes32}

/-- The bounds that the field widths and the governed parameters impose. -/
structure Widths (s : State) : Prop where
  deposit_le : ∀ id, (s.pools id).deposit ≤ u64Max
  cap_le : ∀ id signer, (s.authorized id signer).cap ≤ u64Max
  bytesDelivered_le : ∀ id signer provider, (s.watermark id signer provider).bytesDelivered ≤ u64Max
  deliveryFloor_ne_zero : s.deliveryFloor ≠ 0

/-! ## Preservation -/

theorem Widths.register {c : CapabilityReg} (h : Widths s)
    (hreg : registerCapability H tx poolId s c = .ok s') : Widths s' := by
  obtain rfl | ⟨-, -, rfl⟩ := registerCapability_cases hreg
  · exact h
  · refine ⟨h.deposit_le, fun id signer => ?_, h.bytesDelivered_le, h.deliveryFloor_ne_zero⟩
    by_cases hid : id = poolId
    · subst hid
      by_cases hsigner : signer = c.signer
      · subst hsigner
        simpa [State.setAuthorized] using toNat_le_u64Max c.spendingCap
      · simpa [State.setAuthorized, hsigner] using h.cap_le id signer
    · simpa [State.setAuthorized, hid] using h.cap_le id signer

theorem Widths.pay {remaining : Nat} {v : LaneVoucher} {out : Payout} (h : Widths s)
    (hpay : Paying H tx poolId s v remaining s' out) : Widths s' := by
  rw [hpay.state_eq]
  refine ⟨h.deposit_le, fun id signer => ?_, fun id signer provider => ?_,
    h.deliveryFloor_ne_zero⟩
  · by_cases hid : id = poolId
    · subst hid
      by_cases hsigner : signer = v.signer
      · subst hsigner
        simpa [State.setAuthorized, State.setWatermark] using h.cap_le id v.signer
      · simpa [State.setAuthorized, State.setWatermark, hsigner] using h.cap_le id signer
    · simpa [State.setAuthorized, State.setWatermark, hid] using h.cap_le id signer
  · by_cases hid : id = poolId
    · subst hid
      by_cases hsigner : signer = v.signer
      · subst hsigner
        by_cases hprovider : provider = tx.sender
        · subst hprovider
          simpa [State.setAuthorized, State.setWatermark] using hpay.bytes_le
        · simpa [State.setAuthorized, State.setWatermark, hprovider] using
            h.bytesDelivered_le id v.signer provider
      · simpa [State.setAuthorized, State.setWatermark, hsigner] using
          h.bytesDelivered_le id signer provider
    · simpa [State.setAuthorized, State.setWatermark, hid] using
        h.bytesDelivered_le id signer provider

theorem Widths.redeemVoucher {remaining : Nat} {acc acc' : GroupAcc} {v : LaneVoucher}
    (h : Widths acc.state) (hstep : PaymentPool.redeemVoucher H tx poolId remaining acc v = .ok acc') :
    Widths acc'.state := by
  obtain ⟨-, ⟨hstate, -⟩ | ⟨out, hpay, -⟩⟩ := redeemVoucher_cases hstep
  · rw [hstate]
    exact h
  · exact h.pay hpay

theorem Widths.redeemBatch {acc acc' : CallAcc} {batch : PoolBatch} (h : Widths acc.state)
    (hstep : PaymentPool.redeemBatch H tx acc batch = .ok acc') : Widths acc'.state := by
  have hframe := redeemBatch_frame hstep
  obtain ⟨-, mid, group, hmid, -, hgroup, -, hwrite⟩ := redeemBatch_cases hstep
  have hreg : Widths mid :=
    foldlM_invariant Widths (fun _ _ _ _ hb hs => hb.register hs) h hmid
  have hloop : Widths group.state :=
    foldlM_invariant (fun g : GroupAcc => Widths g.state)
      (fun _ _ _ _ hb hs => hb.redeemVoucher hs) hreg hgroup
  refine ⟨fun id => ?_, ?_, ?_, ?_⟩
  · rw [hframe.terms id]
    exact h.deposit_le id
  · obtain ⟨-, hstate⟩ | ⟨-, hstate⟩ := hwrite <;> rw [hstate] <;> exact hloop.cap_le
  · obtain ⟨-, hstate⟩ | ⟨-, hstate⟩ := hwrite <;> rw [hstate] <;> exact hloop.bytesDelivered_le
  · rw [hframe.deliveryFloor]
    exact h.deliveryFloor_ne_zero

theorem Widths.redeemMany {batches : List PoolBatch} (h : Widths s)
    (hcall : PaymentPool.redeemMany H tx s batches = .ok s') : Widths s' := by
  obtain ⟨acc, hfold, hend⟩ := redeemMany_cases hcall
  have hacc : Widths acc.state :=
    foldlM_invariant (fun a : CallAcc => Widths a.state)
      (fun _ _ _ _ hb hs => hb.redeemBatch hs) h hfold
  obtain ⟨-, rfl⟩ | ⟨pulled, settled, -, -, rfl⟩ := hend
  · exact hacc
  · exact ⟨hacc.deposit_le, hacc.cap_le, hacc.bytesDelivered_le, hacc.deliveryFloor_ne_zero⟩

/-- Replacing one pool record by one with a 64-bit deposit keeps the bounds. -/
theorem Widths.setPool {p : Pool} (h : Widths s)
    (hpools : s'.pools = Function.update s.pools poolId p) (hdeposit : p.deposit ≤ u64Max)
    (hauth : s'.authorized = s.authorized) (hlane : s'.watermark = s.watermark)
    (hfloor : s'.deliveryFloor = s.deliveryFloor) : Widths s' := by
  refine ⟨fun id => ?_, by rw [hauth]; exact h.cap_le, by rw [hlane]; exact h.bytesDelivered_le,
    by rw [hfloor]; exact h.deliveryFloor_ne_zero⟩
  rw [hpools]
  by_cases hid : id = poolId
  · subst hid
    simpa using hdeposit
  · simpa [hid] using h.deposit_le id

/-- A call that touches no ledger storage keeps the bounds if it keeps the floor
nonzero. -/
theorem Widths.untouched (h : Widths s) (hsame : Untouched s s') (hfloor : s'.deliveryFloor ≠ 0) :
    Widths s' :=
  ⟨by rw [hsame.pools]; exact h.deposit_le, by rw [hsame.authorized]; exact h.cap_le,
    by rw [hsame.watermark]; exact h.bytesDelivered_le, hfloor⟩

/-- The delivery floor stays nonzero over any governance call. -/
theorem governance_deliveryFloor {c : Call} (h : exec H tx s c = .ok s') (hs : s.deliveryFloor ≠ 0) :
    s'.deliveryFloor ≠ 0 := by
  cases c with
  | openPool deposit =>
    obtain ⟨received, -, rfl⟩ := openPool_cases h
    exact hs
  | topUp id additionalDeposit =>
    obtain ⟨-, -, received, -, rfl⟩ := topUp_cases h
    exact hs
  | closePool id =>
    obtain ⟨-, -, rfl⟩ := closePool_cases h
    exact hs
  | reclaim id =>
    obtain ⟨-, -, -, -, rfl⟩ := reclaim_cases h
    exact hs
  | redeemMany batches =>
    rw [(redeemMany_frame h).deliveryFloor]
    exact hs
  | setDisputeWindow n =>
    simp only [exec, setDisputeWindow, bind_eq_ok] at h
    obtain ⟨-, -, h⟩ := h
    split at h
    · cases h
    · obtain rfl := pure_eq_ok.mp h
      exact hs
  | setRateBounds n =>
    simp only [exec, setRateBounds, bind_eq_ok] at h
    obtain ⟨-, -, h⟩ := h
    split at h
    · cases h
    · rename_i hbounds
      obtain rfl := pure_eq_ok.mp h
      simp only [minRateFloor, not_or, not_lt] at hbounds
      exact Nat.ne_of_gt hbounds.1
  | setMinDeposit n =>
    simp only [exec, setMinDeposit, bind_eq_ok] at h
    obtain ⟨-, -, h⟩ := h
    split at h
    · cases h
    · obtain rfl := pure_eq_ok.mp h
      exact hs
  | pause =>
    simp only [exec, pause, bind_eq_ok, pure_eq_ok] at h
    obtain ⟨-, -, -, -, rfl⟩ := h
    exact hs
  | unpause =>
    simp only [exec, unpause, bind_eq_ok, pure_eq_ok] at h
    obtain ⟨-, -, -, -, rfl⟩ := h
    exact hs

/-- One external call keeps the bounds. -/
theorem Widths.exec {c : Call} (h : Widths s) (hexec : PaymentPool.exec H tx s c = .ok s') :
    Widths s' := by
  have hfloor := governance_deliveryFloor hexec h.deliveryFloor_ne_zero
  cases c with
  | openPool deposit =>
    obtain ⟨received, hle, rfl⟩ := openPool_cases hexec
    exact h.setPool rfl hle rfl rfl rfl
  | topUp id additionalDeposit =>
    obtain ⟨-, -, received, hle, rfl⟩ := topUp_cases hexec
    exact h.setPool rfl hle rfl rfl rfl
  | closePool id =>
    obtain ⟨-, -, rfl⟩ := closePool_cases hexec
    exact h.setPool rfl (h.deposit_le id) rfl rfl rfl
  | reclaim id =>
    obtain ⟨-, -, -, -, rfl⟩ := reclaim_cases hexec
    exact h.setPool rfl (h.deposit_le id) rfl rfl rfl
  | redeemMany batches => exact h.redeemMany hexec
  | setDisputeWindow n => exact h.untouched (setDisputeWindow_untouched hexec) hfloor
  | setRateBounds n => exact h.untouched (setRateBounds_untouched hexec) hfloor
  | setMinDeposit n => exact h.untouched (setMinDeposit_untouched hexec) hfloor
  | pause => exact h.untouched (pause_untouched hexec) hfloor
  | unpause => exact h.untouched (unpause_untouched hexec) hfloor

/-- A deployed contract satisfies the bounds. -/
theorem widths_deploy {disputeWindow deliveryFloor minDeposit timestamp : Nat}
    (h : deploy disputeWindow deliveryFloor minDeposit timestamp = .ok s) : Widths s := by
  unfold deploy at h
  split at h
  · cases h
  split at h
  · cases h
  rename_i hfloor
  split at h
  · cases h
  obtain rfl := (Except.ok.inj h).symm
  simp only [minRateFloor, not_or, not_lt] at hfloor
  exact ⟨fun _ => Nat.zero_le _, fun _ _ => Nat.zero_le _, fun _ _ _ => Nat.zero_le _,
    Nat.ne_of_gt hfloor.1⟩

/-- The bounds hold in every reachable world. -/
theorem Reachable.widths {w : World} (h : Reachable H w) : Widths w.contract := by
  induction h with
  | deployed disputeWindow deliveryFloor minDeposit timestamp h => exact widths_deploy h
  | step _ hstep ih =>
    cases hstep with
    | call tx c hnow hexec => exact ih.exec hexec
    | donation amount =>
      exact ⟨ih.deposit_le, ih.cap_le, ih.bytesDelivered_le, ih.deliveryFloor_ne_zero⟩

/-! ## Vouchers that cannot revert -/

/-- A voucher of a registered, unexpired signer that resolves and is signed for
the caller. -/
structure Presentable (H : Crypto) (s : State) (poolId : Bytes32) (tx : Tx) (v : LaneVoucher) :
    Prop where
  registered :
    ¬ ((s.authorized poolId v.signer).cap = 0 ∧ (s.authorized poolId v.signer).expiry = 0)
  unexpired : tx.timestamp < (s.authorized poolId v.signer).expiry
  signed : ∃ c, resolveClaim H v = .ok c ∧ verifyVoucher H tx poolId v c.chunkPrice = .ok ()

/-- The claim a voucher resolves to. -/
def claimedOf (H : Crypto) (v : LaneVoucher) : Nat :=
  match resolveClaim H v with
  | .ok c => c.claimed
  | .error _ => 0

/-- A resolved claim fits 64 bits. -/
theorem resolveClaim_claimed_le {v : LaneVoucher} {c : ResolvedClaim}
    (h : resolveClaim H v = .ok c) : c.claimed ≤ u64Max ∧ c.claimedBytes ≤ u64Max := by
  unfold resolveClaim at h
  dsimp only at h
  split at h
  · cases h
  split at h
  · cases h
  split at h
  · cases h
  rename_i hbound
  obtain rfl := Except.ok.inj h
  simpa [not_or] using hbound

/-- A presentable voucher returns, and pays the least of what its lane lacks, its
signer's room and the remaining balance. -/
theorem applyVoucher_ok {v : LaneVoucher} (hw : Widths s) (hp : Presentable H s poolId tx v)
    (hcap : (s.authorized poolId v.signer).spent ≤ (s.authorized poolId v.signer).cap)
    (remaining : Nat) :
    ∃ s' out, applyVoucher H tx poolId s v remaining = .ok (s', out) ∧
      out.paid = min (claimedOf H v - (s.watermark poolId v.signer tx.sender).amount)
        (min ((s.authorized poolId v.signer).cap - (s.authorized poolId v.signer).spent)
          remaining) := by
  obtain ⟨c, hc, hv⟩ := hp.signed
  have hclaimed : claimedOf H v = c.claimed := by simp [claimedOf, hc]
  have hroom : checkedSub (s.authorized poolId v.signer).cap (s.authorized poolId v.signer).spent =
      .ok ((s.authorized poolId v.signer).cap - (s.authorized poolId v.signer).spent) :=
    checkedSub_eq_ok.mpr ⟨hcap, rfl⟩
  have hfloor := hw.deliveryFloor_ne_zero
  have hbounds := resolveClaim_claimed_le hc
  have hwidth := hw.cap_le poolId v.signer
  have hbytes := hw.bytesDelivered_le poolId v.signer tx.sender
  rw [hclaimed]
  unfold applyVoucher
  simp only [if_neg hp.registered, hc, hv, hroom, bind, Except.bind, pure, Except.pure,
    if_neg (not_le.mpr hp.unexpired)]
  split
  · rename_i hstale
    exact ⟨_, _, rfl, by simp [Nat.sub_eq_zero_of_le hstale]⟩
  · rename_i hfresh
    split
    · rename_i hzero
      exact ⟨_, _, rfl, hzero.symm⟩
    · rename_i hpaid
      set desired := c.claimed - (s.watermark poolId v.signer tx.sender).amount with hdef
      set paid := min desired (min ((s.authorized poolId v.signer).cap -
        (s.authorized poolId v.signer).spent) remaining) with hpaiddef
      have hle : paid ≤ desired := min_le_left _ _
      have hdesired : desired ≠ 0 := by omega
      -- The share of the byte advance is at most the advance itself, so the byte
      -- counter ends at most at the resolved bytes.
      have hshare : ∀ delta, delta * paid / desired ≤ delta := fun delta =>
        Nat.div_le_of_le_mul (by rw [Nat.mul_comm desired]; exact Nat.mul_le_mul_left delta hle)
      simp only [mulDiv, if_neg hfloor, if_neg hdesired]
      have hbytesAdd : ∀ delta x, delta ≤ u64Max - (s.watermark poolId v.signer
          tx.sender).bytesDelivered → (s.watermark poolId v.signer tx.sender).bytesDelivered +
          min (delta * paid / desired) x ≤ u64Max := by
        intro delta x hdelta
        have := hshare delta
        omega
      have hamount : (s.watermark poolId v.signer tx.sender).amount + paid ≤ u64Max := by omega
      have hspent : (s.authorized poolId v.signer).spent + paid ≤ u64Max := by omega
      have hcredit := hbytesAdd
        (if (s.watermark poolId v.signer tx.sender).bytesDelivered <
            min c.claimedBytes (c.claimed * bytesPerMb / s.deliveryFloor) then
          min c.claimedBytes (c.claimed * bytesPerMb / s.deliveryFloor) -
            (s.watermark poolId v.signer tx.sender).bytesDelivered else 0)
        (paid * bytesPerMb / s.deliveryFloor) (by split <;> omega)
      simp only [checkedAdd64_eq_ok.mpr ⟨hamount, rfl⟩, checkedAdd64_eq_ok.mpr ⟨hcredit, rfl⟩,
        checkedAdd64_eq_ok.mpr ⟨hspent, rfl⟩]
      exact ⟨_, _, rfl, rfl⟩

end Decdn.PaymentPool
