import Decdn.Foundations.Fallible
import Decdn.PaymentPool.Contract

/-!
# Specifications of the redemption functions

One inversion lemma for each contract function: what a call that returns has
checked, and what it wrote.  Later files cite these and never unfold the
functions again.

Main results:

- Theorem `applyVoucher_cases`: a voucher either writes nothing or advances
  one lane and its signer by the same positive payment.
- Theorem `redeemBatch_cases`: a pool group is its registrations, its vouchers,
  and one write of `totalRedeemed`.
-/

namespace Decdn.PaymentPool

variable {H : Crypto} {tx : Tx} {s s' : State} {poolId : Bytes32}

/-! ## Storage reads after writes -/

@[simp]
theorem setPool_pools (s : State) (id : Bytes32) (p : Pool) :
    (s.setPool id p).pools = Function.update s.pools id p :=
  rfl

@[simp]
theorem setPool_authorized (s : State) (id : Bytes32) (p : Pool) :
    (s.setPool id p).authorized = s.authorized :=
  rfl

@[simp]
theorem setPool_watermark (s : State) (id : Bytes32) (p : Pool) :
    (s.setPool id p).watermark = s.watermark :=
  rfl

@[simp]
theorem setPool_ownerPoolNonce (s : State) (id : Bytes32) (p : Pool) :
    (s.setPool id p).ownerPoolNonce = s.ownerPoolNonce :=
  rfl

@[simp]
theorem setPool_usdcBalance (s : State) (id : Bytes32) (p : Pool) :
    (s.setPool id p).usdcBalance = s.usdcBalance :=
  rfl

@[simp]
theorem setPool_deliveryFloor (s : State) (id : Bytes32) (p : Pool) :
    (s.setPool id p).deliveryFloor = s.deliveryFloor :=
  rfl

@[simp]
theorem emit_pools (s : State) (e : Event) : (s.emit e).pools = s.pools :=
  rfl

@[simp]
theorem emit_authorized (s : State) (e : Event) : (s.emit e).authorized = s.authorized :=
  rfl

@[simp]
theorem emit_watermark (s : State) (e : Event) : (s.emit e).watermark = s.watermark :=
  rfl

@[simp]
theorem emit_ownerPoolNonce (s : State) (e : Event) :
    (s.emit e).ownerPoolNonce = s.ownerPoolNonce :=
  rfl

@[simp]
theorem emit_usdcBalance (s : State) (e : Event) : (s.emit e).usdcBalance = s.usdcBalance :=
  rfl

@[simp]
theorem emit_deliveryFloor (s : State) (e : Event) :
    (s.emit e).deliveryFloor = s.deliveryFloor :=
  rfl

/-! ## Checked arithmetic -/

theorem checkedSub_eq_ok {a b r : Nat} : checkedSub a b = .ok r ↔ b ≤ a ∧ r = a - b :=
  Guard.sub_eq_ok

theorem checkedAdd64_eq_ok {a b r : Nat} :
    checkedAdd64 a b = .ok r ↔ a + b ≤ u64Max ∧ r = a + b :=
  Guard.add_eq_ok

theorem toUint64_eq_ok {a r : Nat} : toUint64 a = .ok r ↔ a ≤ u64Max ∧ r = a :=
  Guard.cast_eq_ok

theorem mulDiv_eq_ok {x y d r : Nat} : mulDiv x y d = .ok r ↔ d ≠ 0 ∧ r = x * y / d := by
  unfold mulDiv
  split <;> simp_all [eq_comm]

/-! ## Lifecycle calls -/

/-- An opened pool takes the caller's next id and the measured balance delta. -/
theorem openPool_cases {deposit : UInt64} (h : openPool H tx s deposit = .ok s') :
    ∃ received, received ≤ u64Max ∧
      s' = { s with
        ownerPoolNonce := Function.update s.ownerPoolNonce tx.sender
          (s.ownerPoolNonce tx.sender + 1)
        pools := Function.update s.pools (H.poolIdOf tx.sender (s.ownerPoolNonce tx.sender))
          { s.pools (H.poolIdOf tx.sender (s.ownerPoolNonce tx.sender)) with
            owner := tx.sender, status := .opened, deposit := received }
        usdcBalance := s.usdcBalance + received
        log := s.log ++ [.poolOpened (H.poolIdOf tx.sender (s.ownerPoolNonce tx.sender))
          tx.sender received] } := by
  unfold openPool at h
  dsimp only at h
  split at h
  · cases h
  split at h
  · cases h
  split at h
  · cases h
  split at h
  · cases h
  split at h
  · cases h
  rename_i received _ _ _
  simp only [bind_eq_ok, pure_eq_ok] at h
  obtain ⟨credited, hcast, rfl⟩ := h
  obtain ⟨hle, rfl⟩ := toUint64_eq_ok.mp hcast
  exact ⟨_, hle, rfl⟩

/-- A top-up is the owner raising an open pool's deposit by the measured delta. -/
theorem topUp_cases {additionalDeposit : UInt64}
    (h : topUp tx s poolId additionalDeposit = .ok s') :
    (s.pools poolId).status = .opened ∧ tx.sender = (s.pools poolId).owner ∧
      ∃ received, (s.pools poolId).deposit + received ≤ u64Max ∧
        s' = { s with
          pools := Function.update s.pools poolId
            { s.pools poolId with deposit := (s.pools poolId).deposit + received }
          usdcBalance := s.usdcBalance + received
          log := s.log ++
            [.poolToppedUp poolId received ((s.pools poolId).deposit + received)] } := by
  unfold topUp at h
  dsimp only at h
  split at h
  · cases h
  split at h
  · cases h
  rename_i hstatus
  split at h
  · cases h
  rename_i howner
  split at h
  · cases h
  split at h
  · cases h
  split at h
  · cases h
  simp only [bind_eq_ok, pure_eq_ok] at h
  obtain ⟨credited, hcast, newDeposit, hadd, rfl⟩ := h
  obtain ⟨-, rfl⟩ := toUint64_eq_ok.mp hcast
  obtain ⟨hwidth, rfl⟩ := checkedAdd64_eq_ok.mp hadd
  exact ⟨not_not.mp hstatus, not_not.mp howner, _, hwidth, rfl⟩

/-- A close is the owner moving an open pool to `closing` under a deadline. -/
theorem closePool_cases (h : closePool tx s poolId = .ok s') :
    (s.pools poolId).status = .opened ∧ tx.sender = (s.pools poolId).owner ∧
      s' = { s with
        pools := Function.update s.pools poolId
          { s.pools poolId with
            status := .closing
            disputeDeadline := (tx.timestamp + s.disputeWindow) % 2 ^ 64 }
        log := s.log ++ [.poolCloseInitiated poolId (s.pools poolId).owner
          ((tx.timestamp + s.disputeWindow) % 2 ^ 64)] } := by
  unfold closePool at h
  dsimp only at h
  split at h
  · cases h
  rename_i hstatus
  split at h
  · cases h
  rename_i howner
  exact ⟨not_not.mp hstatus, not_not.mp howner, (Except.ok.inj h).symm⟩

/-- The transfers a refund of `amount` makes: none when nothing is left. -/
def refundTransfers (owner : Address) (amount : Nat) : List Transfer :=
  if amount = 0 then [] else [⟨owner, amount⟩]

/-- A reclaim closes a closing pool past its deadline and pays out exactly its
residual. -/
theorem reclaim_cases (h : reclaim tx s poolId = .ok s') :
    (s.pools poolId).status = .closing ∧ (s.pools poolId).disputeDeadline ≤ tx.timestamp ∧
      (s.pools poolId).totalRedeemed ≤ (s.pools poolId).deposit ∧
      (s.pools poolId).deposit - (s.pools poolId).totalRedeemed ≤ s.usdcBalance ∧
      s' = { s with
        pools := Function.update s.pools poolId { s.pools poolId with status := .closed }
        usdcBalance := s.usdcBalance -
          ((s.pools poolId).deposit - (s.pools poolId).totalRedeemed)
        transfers := s.transfers ++ refundTransfers (s.pools poolId).owner
          ((s.pools poolId).deposit - (s.pools poolId).totalRedeemed)
        log := s.log ++ [.poolReclaimed poolId (s.pools poolId).owner
          ((s.pools poolId).deposit - (s.pools poolId).totalRedeemed)] } := by
  unfold reclaim at h
  dsimp only at h
  split at h
  · cases h
  rename_i hstatus
  split at h
  · cases h
  rename_i hdeadline
  simp only [bind_eq_ok] at h
  obtain ⟨refund, hrefund, h⟩ := h
  obtain ⟨hle, rfl⟩ := checkedSub_eq_ok.mp hrefund
  refine ⟨not_not.mp hstatus, not_lt.mp hdeadline, hle, ?_⟩
  split at h
  · rename_i hzero
    rw [pure_eq_ok] at h
    subst h
    refine ⟨by omega, ?_⟩
    simp only [hzero, Nat.sub_zero, refundTransfers, if_true, List.append_nil]
    rfl
  · split at h
    · rename_i hpos htransfer
      rw [pure_eq_ok] at h
      subst h
      refine ⟨htransfer.2, ?_⟩
      simp only [refundTransfers, if_neg hpos]
      rfl
    · cases h

/-- The pool and the refund a `PoolReclaimed` event reports. -/
def Event.refund : Event → Option (Bytes32 × Transfer)
  | .poolReclaimed poolId owner ownerRefund => some (poolId, ⟨owner, ownerRefund⟩)
  | _ => none

/-- The refunds reported so far, oldest first. -/
def State.refunds (s : State) : List (Bytes32 × Transfer) :=
  s.log.filterMap Event.refund

/-- An event that is not a reclaim reports no refund. -/
theorem refunds_append {log : List Event} {e : Event} (he : e.refund = none) :
    (log ++ [e]).filterMap Event.refund = log.filterMap Event.refund := by
  simp [List.filterMap_append, he]

/-- A governance or pause call leaves every pool, signer, lane, nonce, the
balance and the refunds alone. -/
structure Untouched (s s' : State) : Prop where
  pools : s'.pools = s.pools
  authorized : s'.authorized = s.authorized
  watermark : s'.watermark = s.watermark
  ownerPoolNonce : s'.ownerPoolNonce = s.ownerPoolNonce
  usdcBalance : s'.usdcBalance = s.usdcBalance
  transfers : s'.transfers = s.transfers
  refunds : s'.refunds = s.refunds

theorem setDisputeWindow_untouched {n : Nat} (h : setDisputeWindow tx s n = .ok s') :
    Untouched s s' := by
  unfold setDisputeWindow at h
  simp only [bind_eq_ok] at h
  obtain ⟨-, -, h⟩ := h
  split at h
  · cases h
  · obtain rfl := pure_eq_ok.mp h
    exact ⟨rfl, rfl, rfl, rfl, rfl, rfl, refunds_append rfl⟩

theorem setRateBounds_untouched {n : Nat} (h : setRateBounds tx s n = .ok s') :
    Untouched s s' := by
  unfold setRateBounds at h
  simp only [bind_eq_ok] at h
  obtain ⟨-, -, h⟩ := h
  split at h
  · cases h
  · obtain rfl := pure_eq_ok.mp h
    exact ⟨rfl, rfl, rfl, rfl, rfl, rfl, refunds_append rfl⟩

theorem setMinDeposit_untouched {n : UInt64} (h : setMinDeposit tx s n = .ok s') :
    Untouched s s' := by
  unfold setMinDeposit at h
  simp only [bind_eq_ok] at h
  obtain ⟨-, -, h⟩ := h
  split at h
  · cases h
  · obtain rfl := pure_eq_ok.mp h
    exact ⟨rfl, rfl, rfl, rfl, rfl, rfl, refunds_append rfl⟩

theorem pause_untouched (h : pause tx s = .ok s') : Untouched s s' := by
  unfold pause at h
  simp only [bind_eq_ok, pure_eq_ok] at h
  obtain ⟨-, -, -, -, rfl⟩ := h
  exact ⟨rfl, rfl, rfl, rfl, rfl, rfl, rfl⟩

theorem unpause_untouched (h : unpause tx s = .ok s') : Untouched s s' := by
  unfold unpause at h
  simp only [bind_eq_ok, pure_eq_ok] at h
  obtain ⟨-, -, -, -, rfl⟩ := h
  exact ⟨rfl, rfl, rfl, rfl, rfl, rfl, rfl⟩

/-! ## Registration -/

/-- A capability either changes nothing or fills an empty registration slot with
the limits it names. -/
theorem registerCapability_cases {c : CapabilityReg}
    (h : registerCapability H tx poolId s c = .ok s') :
    s' = s ∨
      ((s.authorized poolId c.signer).cap = 0 ∧ (s.authorized poolId c.signer).expiry = 0 ∧
        s' = s.setAuthorized poolId c.signer
          { s.authorized poolId c.signer with
            cap := c.spendingCap.toNat, expiry := c.expiry.toNat }) := by
  unfold registerCapability at h
  dsimp only at h
  split at h
  · exact .inl (by simpa using h.symm)
  · rename_i hfresh
    split at h
    · exact .inl (by simpa using h.symm)
    · split at h
      · simp only [not_or, not_not] at hfresh
        exact .inr ⟨hfresh.1, hfresh.2, by simpa using h.symm⟩
      · cases h

/-- Registering an already-registered signer is a no-op. -/
theorem registerCapability_registered {c : CapabilityReg}
    (hreg : (s.authorized poolId c.signer).cap ≠ 0 ∨ (s.authorized poolId c.signer).expiry ≠ 0) :
    registerCapability H tx poolId s c = .ok s := by
  unfold registerCapability
  exact if_pos hreg

/-! ## One voucher -/

/-- The advance a paying voucher makes: `paid` on its lane and on its signer. -/
structure Paying (H : Crypto) (tx : Tx) (poolId : Bytes32) (s : State) (v : LaneVoucher)
    (remaining : Nat) (s' : State) (out : Payout) : Prop where
  paid_pos : 0 < out.paid
  claim : ∃ c, resolveClaim H v = .ok c ∧
    out.paid = min (c.claimed - (s.watermark poolId v.signer tx.sender).amount)
      (min ((s.authorized poolId v.signer).cap - (s.authorized poolId v.signer).spent) remaining)
  spent_le_cap :
    (s.authorized poolId v.signer).spent + out.paid ≤ (s.authorized poolId v.signer).cap
  paid_le_remaining : out.paid ≤ remaining
  newCumulative_eq :
    out.newCumulative = (s.watermark poolId v.signer tx.sender).amount + out.paid
  bytes_le : (s.watermark poolId v.signer tx.sender).bytesDelivered + out.bytesPaid ≤ u64Max
  state_eq :
    s' = (s.setWatermark poolId v.signer tx.sender
        ⟨(s.watermark poolId v.signer tx.sender).amount + out.paid,
          (s.watermark poolId v.signer tx.sender).bytesDelivered + out.bytesPaid⟩).setAuthorized
      poolId v.signer
      { s.authorized poolId v.signer with
        spent := (s.authorized poolId v.signer).spent + out.paid }

/-- A voucher that returns either wrote nothing and paid nothing, or made one
paying advance. -/
theorem applyVoucher_cases {v : LaneVoucher} {remaining : Nat} {out : Payout}
    (h : applyVoucher H tx poolId s v remaining = .ok (s', out)) :
    (s' = s ∧ out = {}) ∨ Paying H tx poolId s v remaining s' out := by
  unfold applyVoucher at h
  dsimp only at h
  split at h
  · left
    obtain ⟨rfl, rfl⟩ := Prod.mk.inj (Except.ok.inj h)
    exact ⟨rfl, rfl⟩
  simp only [bind_eq_ok] at h
  obtain ⟨c, hc, -, -, h⟩ := h
  split at h
  · left
    obtain ⟨rfl, rfl⟩ := Prod.mk.inj (pure_eq_ok.mp h)
    exact ⟨rfl, rfl⟩
  split at h
  · left
    obtain ⟨rfl, rfl⟩ := Prod.mk.inj (pure_eq_ok.mp h)
    exact ⟨rfl, rfl⟩
  simp only [bind_eq_ok] at h
  obtain ⟨room, hroom, h⟩ := h
  obtain ⟨hcap, rfl⟩ := checkedSub_eq_ok.mp hroom
  split at h
  · left
    obtain ⟨rfl, rfl⟩ := Prod.mk.inj (pure_eq_ok.mp h)
    exact ⟨rfl, rfl⟩
  rename_i hpaid
  simp only [bind_eq_ok, pure_eq_ok] at h
  obtain ⟨_, -, _, -, _, -, amount, hamount, bytes, hbytes, spent, hspent, h⟩ := h
  obtain ⟨-, rfl⟩ := checkedAdd64_eq_ok.mp hamount
  obtain ⟨hwidth, rfl⟩ := checkedAdd64_eq_ok.mp hbytes
  obtain ⟨-, rfl⟩ := checkedAdd64_eq_ok.mp hspent
  obtain ⟨rfl, rfl⟩ := Prod.mk.inj h
  right
  exact
    { paid_pos := Nat.pos_of_ne_zero hpaid
      claim := ⟨c, hc, rfl⟩
      spent_le_cap := by dsimp only; omega
      paid_le_remaining := by dsimp only; omega
      newCumulative_eq := rfl
      bytes_le := hwidth
      state_eq := rfl }

/-! ## The two loops -/

/-- One iteration of the voucher loop is one voucher bounded by what the group
has left; a paying one adds its payment to the group. -/
theorem redeemVoucher_cases {remaining : Nat} {acc acc' : GroupAcc} {v : LaneVoucher}
    (h : redeemVoucher H tx poolId remaining acc v = .ok acc') :
    acc.poolPaid ≤ remaining ∧
      ((acc'.state = acc.state ∧ acc'.poolPaid = acc.poolPaid) ∨
        ∃ out, Paying H tx poolId acc.state v (remaining - acc.poolPaid) acc'.state out ∧
          acc'.poolPaid = acc.poolPaid + out.paid) := by
  unfold redeemVoucher at h
  simp only [bind_eq_ok] at h
  obtain ⟨left, hleft, ⟨s', out⟩, happly, h⟩ := h
  obtain ⟨hle, rfl⟩ := checkedSub_eq_ok.mp hleft
  refine ⟨hle, ?_⟩
  obtain ⟨rfl, rfl⟩ | hpaying := applyVoucher_cases happly
  · left
    simp only [if_true, pure_eq_ok] at h
    subst h
    exact ⟨rfl, rfl⟩
  · right
    have hne : out.paid ≠ 0 := Nat.ne_of_gt hpaying.paid_pos
    simp only [if_neg hne, bind_eq_ok, pure_eq_ok] at h
    obtain ⟨poolPaid, hadd, rfl⟩ := h
    obtain ⟨-, rfl⟩ := checkedAdd64_eq_ok.mp hadd
    exact ⟨out, hpaying, rfl⟩

/-- A pool group passes the status gate, registers, redeems, and then writes
`totalRedeemed` once if it paid anything. -/
theorem redeemBatch_cases {acc acc' : CallAcc} {batch : PoolBatch}
    (h : redeemBatch H tx acc batch = .ok acc') :
    redeemable tx (acc.state.pools batch.poolId) ∧
      ∃ mid group,
        batch.capabilities.foldlM (registerCapability H tx batch.poolId) acc.state = .ok mid ∧
        (mid.pools batch.poolId).totalRedeemed ≤ (mid.pools batch.poolId).deposit ∧
        batch.vouchers.foldlM
          (redeemVoucher H tx batch.poolId
            ((mid.pools batch.poolId).deposit - (mid.pools batch.poolId).totalRedeemed))
          { state := mid } = .ok group ∧
        acc'.totalPaid = acc.totalPaid + group.poolPaid ∧
        ((group.poolPaid = 0 ∧ acc'.state = group.state) ∨
          (0 < group.poolPaid ∧
            acc'.state = (group.state.setPool batch.poolId
              { group.state.pools batch.poolId with
                totalRedeemed :=
                  (group.state.pools batch.poolId).totalRedeemed + group.poolPaid }).emit
              (.poolRedeemed batch.poolId tx.sender group.settled))) := by
  unfold redeemBatch at h
  dsimp only at h
  split at h
  · cases h
  rename_i hgate
  simp only [bind_eq_ok] at h
  obtain ⟨mid, hmid, remaining, hremaining, group, hgroup, h⟩ := h
  obtain ⟨hle, rfl⟩ := checkedSub_eq_ok.mp hremaining
  refine ⟨not_not.mp hgate, mid, group, hmid, hle, hgroup, ?_⟩
  split at h
  · rename_i hzero
    rw [pure_eq_ok] at h
    subst h
    exact ⟨by simp [hzero], .inl ⟨hzero, rfl⟩⟩
  · rename_i hpos
    simp only [bind_eq_ok, pure_eq_ok] at h
    obtain ⟨total, htotal, rfl⟩ := h
    obtain ⟨-, rfl⟩ := checkedAdd64_eq_ok.mp htotal
    exact ⟨rfl, .inr ⟨Nat.pos_of_ne_zero hpos, rfl⟩⟩

/-- A redemption call is its batch loop followed by one settlement that pulls at
most what the batches paid. -/
theorem redeemMany_cases {batches : List PoolBatch} (h : redeemMany H tx s batches = .ok s') :
    ∃ acc, batches.foldlM (redeemBatch H tx) { state := s } = .ok acc ∧
      ((acc.totalPaid = 0 ∧ s' = acc.state) ∨
        ∃ pulled settled, pulled ≤ acc.totalPaid ∧ pulled ≤ acc.state.usdcBalance ∧
          s' = { acc.state with
            usdcBalance := acc.state.usdcBalance - pulled, settlements := settled }) := by
  unfold redeemMany at h
  simp only [bind_eq_ok] at h
  obtain ⟨acc, hacc, h⟩ := h
  refine ⟨acc, hacc, ?_⟩
  split at h
  · rename_i hzero
    exact .inl ⟨hzero, (pure_eq_ok.mp h).symm⟩
  · split at h
    · cases h
    · unfold route at h
      split at h
      · cases h
      · rename_i pulled _
        split at h
        · rename_i hpull
          exact .inr ⟨pulled, _, hpull.1, hpull.2, (Except.ok.inj h).symm⟩
        · cases h

/-! ## What redemption leaves alone -/

/-- Redemption moves only authorizations, lanes, `totalRedeemed` and, at its end,
the balance. -/
structure RedeemFrame (s s' : State) : Prop where
  ownerPoolNonce : s'.ownerPoolNonce = s.ownerPoolNonce
  deliveryFloor : s'.deliveryFloor = s.deliveryFloor
  terms : ∀ id, s'.pools id =
    { s.pools id with totalRedeemed := (s'.pools id).totalRedeemed }

theorem RedeemFrame.refl (s : State) : RedeemFrame s s :=
  ⟨rfl, rfl, fun _ => rfl⟩

theorem RedeemFrame.trans {s₁ s₂ s₃ : State} (h : RedeemFrame s₁ s₂) (h' : RedeemFrame s₂ s₃) :
    RedeemFrame s₁ s₃ where
  ownerPoolNonce := h'.ownerPoolNonce.trans h.ownerPoolNonce
  deliveryFloor := h'.deliveryFloor.trans h.deliveryFloor
  terms id := by
    rw [h'.terms id, h.terms id]

/-- A state whose pools, nonces and floor are the same is framed. -/
theorem RedeemFrame.of_eq (hnonce : s'.ownerPoolNonce = s.ownerPoolNonce)
    (hfloor : s'.deliveryFloor = s.deliveryFloor) (hpools : s'.pools = s.pools) :
    RedeemFrame s s' :=
  ⟨hnonce, hfloor, fun id => by rw [hpools]⟩

theorem registerCapability_frame {c : CapabilityReg}
    (h : registerCapability H tx poolId s c = .ok s') : RedeemFrame s s' := by
  obtain rfl | ⟨-, -, rfl⟩ := registerCapability_cases h
  · exact .refl _
  · exact .of_eq rfl rfl rfl

theorem redeemVoucher_frame {remaining : Nat} {acc acc' : GroupAcc} {v : LaneVoucher}
    (h : redeemVoucher H tx poolId remaining acc v = .ok acc') :
    RedeemFrame acc.state acc'.state := by
  obtain ⟨-, ⟨hstate, -⟩ | ⟨out, hpay, -⟩⟩ := redeemVoucher_cases h
  · rw [hstate]
    exact .refl _
  · rw [hpay.state_eq]
    exact .of_eq rfl rfl rfl

theorem redeemBatch_frame {acc acc' : CallAcc} {batch : PoolBatch}
    (h : redeemBatch H tx acc batch = .ok acc') : RedeemFrame acc.state acc'.state := by
  obtain ⟨-, mid, group, hmid, -, hgroup, -, hwrite⟩ := redeemBatch_cases h
  have hreg : RedeemFrame acc.state mid :=
    foldlM_invariant (RedeemFrame acc.state)
      (fun _ _ _ _ hb hstep => hb.trans (registerCapability_frame hstep)) (.refl _) hmid
  have hloop : RedeemFrame mid group.state :=
    foldlM_invariant (fun g : GroupAcc => RedeemFrame mid g.state)
      (fun _ _ _ _ hb hstep => hb.trans (redeemVoucher_frame hstep)) (.refl _) hgroup
  refine (hreg.trans hloop).trans ?_
  obtain ⟨-, hstate⟩ | ⟨-, hstate⟩ := hwrite
  · rw [hstate]
    exact .refl _
  · rw [hstate]
    refine ⟨rfl, rfl, fun id => ?_⟩
    by_cases hid : id = batch.poolId
    · subst hid
      simp
    · simp [hid]

/-- A whole redemption call moves no terms of any pool. -/
theorem redeemMany_frame {batches : List PoolBatch} (h : redeemMany H tx s batches = .ok s') :
    RedeemFrame s s' := by
  obtain ⟨acc, hfold, hend⟩ := redeemMany_cases h
  have hloop : RedeemFrame s acc.state :=
    foldlM_invariant (fun a : CallAcc => RedeemFrame s a.state)
      (fun _ _ _ _ hb hstep => hb.trans (redeemBatch_frame hstep)) (.refl _) hfold
  refine hloop.trans ?_
  obtain ⟨-, rfl⟩ | ⟨pulled, settled, -, -, rfl⟩ := hend
  · exact .refl _
  · exact .of_eq rfl rfl rfl

/-- No call lowers an owner's pool counter. -/
theorem exec_ownerPoolNonce_le {c : Call} (h : exec H tx s c = .ok s') (owner : Address) :
    s.ownerPoolNonce owner ≤ s'.ownerPoolNonce owner := by
  cases c with
  | openPool deposit =>
    obtain ⟨received, -, rfl⟩ := openPool_cases h
    by_cases howner : owner = tx.sender
    · subst howner
      simp
    · simp [howner]
  | topUp id additionalDeposit =>
    obtain ⟨-, -, received, -, rfl⟩ := topUp_cases h
    exact le_rfl
  | closePool id =>
    obtain ⟨-, -, rfl⟩ := closePool_cases h
    exact le_rfl
  | reclaim id =>
    obtain ⟨-, -, -, -, rfl⟩ := reclaim_cases h
    exact le_rfl
  | redeemMany batches => exact le_of_eq (congrFun (redeemMany_frame h).ownerPoolNonce owner).symm
  | setDisputeWindow n =>
    exact le_of_eq (congrFun (setDisputeWindow_untouched h).ownerPoolNonce owner).symm
  | setRateBounds n =>
    exact le_of_eq (congrFun (setRateBounds_untouched h).ownerPoolNonce owner).symm
  | setMinDeposit n =>
    exact le_of_eq (congrFun (setMinDeposit_untouched h).ownerPoolNonce owner).symm
  | pause => exact le_of_eq (congrFun (pause_untouched h).ownerPoolNonce owner).symm
  | unpause => exact le_of_eq (congrFun (unpause_untouched h).ownerPoolNonce owner).symm

end Decdn.PaymentPool
