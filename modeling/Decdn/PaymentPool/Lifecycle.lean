import Decdn.PaymentPool.Solvency
import Mathlib.Logic.Relation

/-!
# The life of one pool

A pool opens, starts its grace window, and is reclaimed.  Every call of the
contract is read here for what it does to one pool: its record, its signers and
its lanes.  A call can start the window, end it, or leave the pool's terms
alone, and nothing reaches a pool that has been reclaimed.

The redemption gate and the reclaim gate compare the same stored deadline with
the block time, one strictly and one not, so a later `setDisputeWindow` moves
neither of them.

Main results:

- Theorem `exec_terms`: what one call does to a pool's status and deadline.
- Theorem `exec_frozen`: no call touches a reclaimed pool.
- Theorem `lifecycle`: the life of a pool along every run.
-/

namespace Decdn.PaymentPool

open Relation

variable {H : Crypto} {tx : Tx} {s s' : State} {poolId id : Bytes32}

/-! ## What a call leaves alone -/

/-- One pool is the same before and after: its record, every signer's
authorization and spending, and every lane. -/
structure Frozen (s s' : State) (id : Bytes32) : Prop where
  pool : s'.pools id = s.pools id
  authorized : s'.authorized id = s.authorized id
  watermark : s'.watermark id = s.watermark id

theorem Frozen.refl (s : State) (id : Bytes32) : Frozen s s id :=
  ⟨rfl, rfl, rfl⟩

theorem Frozen.trans {s₁ s₂ s₃ : State} (h : Frozen s₁ s₂ id) (h' : Frozen s₂ s₃ id) :
    Frozen s₁ s₃ id :=
  ⟨h'.pool.trans h.pool, h'.authorized.trans h.authorized, h'.watermark.trans h.watermark⟩

/-- Registering a signer of another pool leaves a pool alone. -/
theorem registerCapability_other {c : CapabilityReg} (hid : id ≠ poolId)
    (h : registerCapability H tx poolId s c = .ok s') : Frozen s s' id := by
  rcases registerCapability_cases h with rfl | ⟨-, -, rfl⟩
  · exact .refl _ _
  · exact ⟨rfl, by simp [State.setAuthorized, hid], rfl⟩

/-- A voucher of another pool leaves a pool alone. -/
theorem redeemVoucher_other {remaining : Nat} {acc acc' : GroupAcc} {v : LaneVoucher}
    (hid : id ≠ poolId) (h : redeemVoucher H tx poolId remaining acc v = .ok acc') :
    Frozen acc.state acc'.state id := by
  rcases redeemVoucher_cases h with ⟨-, ⟨hstate, -⟩ | ⟨out, hpay, -⟩⟩
  · rw [hstate]
    exact .refl _ _
  · rw [hpay.state_eq]
    constructor
    · rfl
    · simp [State.setAuthorized, State.setWatermark, hid]
    · simp [State.setAuthorized, State.setWatermark, hid]

/-- A pool group leaves every other pool alone. -/
theorem redeemBatch_other {acc acc' : CallAcc} {batch : PoolBatch} (hid : id ≠ batch.poolId)
    (h : redeemBatch H tx acc batch = .ok acc') : Frozen acc.state acc'.state id := by
  rcases redeemBatch_cases h with ⟨-, mid, group, hmid, -, hgroup, -, hwrite⟩
  have hreg : Frozen acc.state mid id :=
    foldlM_invariant (fun t => Frozen acc.state t id)
      (fun _ _ _ _ hb hstep => hb.trans (registerCapability_other hid hstep)) (.refl _ _) hmid
  have hloop : Frozen mid group.state id :=
    foldlM_invariant (fun g : GroupAcc => Frozen mid g.state id)
      (fun _ _ _ _ hb hstep => hb.trans (redeemVoucher_other hid hstep)) (.refl _ _) hgroup
  apply (hreg.trans hloop).trans
  rcases hwrite with ⟨-, hstate⟩ | ⟨-, hstate⟩
  · rw [hstate]
    exact .refl _ _
  · rw [hstate]
    exact ⟨by simp [hid], rfl, rfl⟩

/-- A redemption call that returns leaves a pool past its gate alone: a batch that
names the pool would have reverted the whole call. -/
theorem redeemMany_frozen {batches : List PoolBatch} (hgate : ¬ redeemable tx (s.pools id))
    (h : redeemMany H tx s batches = .ok s') :
    Frozen s s' id ∧ ∀ batch ∈ batches, batch.poolId ≠ id := by
  rcases redeemMany_cases h with ⟨acc, hfold, hend⟩
  have hloop : ∀ (bs : List PoolBatch) (a a' : CallAcc), Frozen s a.state id →
      bs.foldlM (redeemBatch H tx) a = .ok a' →
      Frozen s a'.state id ∧ ∀ batch ∈ bs, batch.poolId ≠ id := by
    intro bs
    induction bs with
    | nil =>
      intro a a' ha hnil
      cases hnil
      exact ⟨ha, by simp⟩
    | cons batch bs ih =>
      intro a a' ha hcons
      rw [List.foldlM_cons, bind_eq_ok] at hcons
      rcases hcons with ⟨b, hbatch, hrest⟩
      have hne : batch.poolId ≠ id := by
        rintro rfl
        apply hgate
        rw [← ha.pool]
        exact (redeemBatch_cases hbatch).1
      rcases ih b a' (ha.trans (redeemBatch_other hne.symm hbatch)) hrest with ⟨hb, hnone⟩
      exact ⟨hb, by simpa using ⟨hne, hnone⟩⟩
  rcases hloop batches _ acc (.refl _ _) hfold with ⟨hacc, hnone⟩
  refine ⟨hacc.trans ?_, hnone⟩
  rcases hend with ⟨-, rfl⟩ | ⟨pulled, settled, -, -, rfl⟩
  · exact .refl _ _
  · exact ⟨rfl, rfl, rfl⟩

/-- A governance or pause call leaves every pool alone. -/
theorem Untouched.frozen (h : Untouched s s') (id : Bytes32) : Frozen s s' id :=
  ⟨by rw [h.pools], by rw [h.authorized], by rw [h.watermark]⟩

/-! ## Status and deadline -/

/-- What one call may do to a pool's status and deadline. -/
inductive TermsMove (tx : Tx) (s : State) (p p' : Pool) : Prop where
  | kept (hstatus : p'.status = p.status) (hdeadline : p'.disputeDeadline = p.disputeDeadline)
  | closed_by_owner (hopen : p.status = .opened) (hsender : tx.sender = p.owner)
      (hclosing : p'.status = .closing)
      (hdeadline : p'.disputeDeadline = (tx.timestamp + s.disputeWindow) % 2 ^ 64)
  | reclaimed (hclosing : p.status = .closing) (hwindow : p.disputeDeadline ≤ tx.timestamp)
      (hclosed : p'.status = .closed) (hdeadline : p'.disputeDeadline = p.disputeDeadline)

/-- A pool whose record is the same keeps its terms. -/
theorem TermsMove.of_eq {p p' : Pool} (h : p' = p) : TermsMove tx s p p' :=
  .kept (by rw [h]) (by rw [h])

/-- One call starts the window of an open pool, ends the window of a closing one,
or keeps a pool's status and deadline. -/
theorem exec_terms {c : Call} (hinv : Inv H s 0) (hfree : CollisionFree H s')
    (h : exec H tx s c = .ok s') (id : Bytes32) :
    TermsMove tx s (s.pools id) (s'.pools id) := by
  cases c with
  | openPool deposit =>
    have hfresh := hinv.openPool_fresh hfree h
    rcases openPool_cases h with ⟨received, -, rfl⟩
    by_cases hid : id = H.poolIdOf tx.sender (s.ownerPoolNonce tx.sender)
    · subst hid
      exact .kept (by simp [hfresh]) (by simp [hfresh])
    · exact .of_eq (by simp [hid])
  | topUp target additionalDeposit =>
    rcases topUp_cases h with ⟨-, -, received, -, rfl⟩
    by_cases hid : id = target
    · subst hid
      exact .kept (by simp) (by simp)
    · exact .of_eq (by simp [hid])
  | closePool target =>
    rcases closePool_cases h with ⟨hopen, hsender, rfl⟩
    by_cases hid : id = target
    · subst hid
      exact .closed_by_owner hopen hsender (by simp) (by simp)
    · exact .of_eq (by simp [hid])
  | reclaim target =>
    rcases reclaim_cases h with ⟨hclosing, hwindow, -, -, rfl⟩
    by_cases hid : id = target
    · subst hid
      exact .reclaimed hclosing hwindow (by simp) (by simp)
    · exact .of_eq (by simp [hid])
  | redeemMany batches =>
    have hterms := (redeemMany_frame h).terms id
    exact .kept (by rw [hterms]) (by rw [hterms])
  | setDisputeWindow n => exact .of_eq ((setDisputeWindow_untouched h).frozen id).pool
  | setRateBounds n => exact .of_eq ((setRateBounds_untouched h).frozen id).pool
  | setMinDeposit n => exact .of_eq ((setMinDeposit_untouched h).frozen id).pool
  | pause => exact .of_eq ((pause_untouched h).frozen id).pool
  | unpause => exact .of_eq ((unpause_untouched h).frozen id).pool

/-- No call touches a reclaimed pool. -/
theorem exec_frozen {c : Call} (hinv : Inv H s 0) (hfree : CollisionFree H s')
    (h : exec H tx s c = .ok s') (hclosed : (s.pools id).status = .closed) : Frozen s s' id := by
  cases c with
  | openPool deposit =>
    have hfresh := hinv.openPool_fresh hfree h
    rcases openPool_cases h with ⟨received, -, rfl⟩
    have hid : id ≠ H.poolIdOf tx.sender (s.ownerPoolNonce tx.sender) := by
      rintro rfl
      rw [hfresh] at hclosed
      cases hclosed
    exact ⟨by simp [hid], rfl, rfl⟩
  | topUp target additionalDeposit =>
    rcases topUp_cases h with ⟨hopen, -, received, -, rfl⟩
    have hid : id ≠ target := by
      rintro rfl
      simp [hopen] at hclosed
    exact ⟨by simp [hid], rfl, rfl⟩
  | closePool target =>
    rcases closePool_cases h with ⟨hopen, -, rfl⟩
    have hid : id ≠ target := by
      rintro rfl
      simp [hopen] at hclosed
    exact ⟨by simp [hid], rfl, rfl⟩
  | reclaim target =>
    rcases reclaim_cases h with ⟨hclosing, -, -, -, rfl⟩
    have hid : id ≠ target := by
      rintro rfl
      simp [hclosing] at hclosed
    exact ⟨by simp [hid], rfl, rfl⟩
  | redeemMany batches =>
    exact (redeemMany_frozen (fun hgate => hgate.1 hclosed) h).1
  | setDisputeWindow n => exact (setDisputeWindow_untouched h).frozen id
  | setRateBounds n => exact (setRateBounds_untouched h).frozen id
  | setMinDeposit n => exact (setMinDeposit_untouched h).frozen id
  | pause => exact (pause_untouched h).frozen id
  | unpause => exact (unpause_untouched h).frozen id

/-! ## The boundary second -/

/-- Some redemption call that names the pool returns. -/
def AdmitsRedemption (H : Crypto) (tx : Tx) (s : State) (id : Bytes32) : Prop :=
  ∃ batches s', (∃ batch ∈ batches, batch.poolId = id) ∧ redeemMany H tx s batches = .ok s'

/-- The reclaim of the pool returns. -/
def AdmitsReclaim (tx : Tx) (s : State) (id : Bytes32) : Prop :=
  ∃ s', reclaim tx s id = .ok s'

/-- A closing pool can be redeemed from exactly while the block time is before
its deadline. -/
theorem admitsRedemption_iff (hbooks : Books s id 0) (hclosing : (s.pools id).status = .closing) :
    AdmitsRedemption H tx s id ↔ tx.timestamp < (s.pools id).disputeDeadline := by
  constructor
  · rintro ⟨batches, s', ⟨batch, hmem, hid⟩, h⟩
    by_contra hpast
    have hgate : ¬ redeemable tx (s.pools id) := by
      intro hgate
      exact hgate.2 ⟨hclosing, not_lt.mp hpast⟩
    exact (redeemMany_frozen hgate h).2 batch hmem hid
  · intro hbefore
    -- The empty batch passes the gate, and nothing in it can revert.
    have hgate : redeemable tx (s.pools id) := by
      unfold redeemable
      rw [hclosing]
      exact ⟨by simp, fun hpast => absurd hbefore (not_lt.mpr hpast.2)⟩
    have hle : (s.pools id).totalRedeemed ≤ (s.pools id).deposit := by
      have := hbooks.redeemed_le
      omega
    refine ⟨[⟨id, [], []⟩], s, ⟨_, List.mem_singleton_self _, rfl⟩, ?_⟩
    have hbatch : redeemBatch H tx { state := s } ⟨id, [], []⟩ = .ok { state := s } := by
      unfold redeemBatch
      simp only [not_true_eq_false, hgate, if_false, List.foldlM_nil,
        checkedSub_eq_ok.mpr ⟨hle, rfl⟩, bind, Except.bind, pure, Except.pure]
      rfl
    unfold redeemMany
    rw [List.foldlM_cons, hbatch]
    rfl

/-- A closing pool can be reclaimed from its deadline on, and never before; the
contract holds the refund, so only a token that refuses the transfer stands in
the way. -/
theorem admitsReclaim_iff (hinv : Inv H s 0) (hclosing : (s.pools id).status = .closing)
    (htoken : tx.transferOut = true) :
    AdmitsReclaim tx s id ↔ (s.pools id).disputeDeadline ≤ tx.timestamp := by
  constructor
  · rintro ⟨s', h⟩
    exact (reclaim_cases h).2.1
  · intro hpast
    have hle : (s.pools id).totalRedeemed ≤ (s.pools id).deposit := by
      have := (hinv.books id).redeemed_le
      omega
    have hfunded : (s.pools id).deposit - (s.pools id).totalRedeemed ≤ s.usdcBalance := by
      have hone : (s.pools id).liability ≤ s.totalLiability :=
        Finset.single_le_sum (f := fun i => (s.pools i).liability) (fun _ _ => Nat.zero_le _)
          (Finset.mem_univ id)
      have hall := hinv.funded
      simp only [Pool.liability, hclosing, reduceCtorEq, if_false] at hone
      omega
    unfold AdmitsReclaim reclaim
    simp only [hclosing, ne_eq, not_true_eq_false, if_false, not_lt.mpr hpast,
      checkedSub_eq_ok.mpr ⟨hle, rfl⟩]
    by_cases hzero : (s.pools id).deposit - (s.pools id).totalRedeemed = 0
    · simp only [bind, Except.bind, hzero, if_true]
      exact ⟨_, rfl⟩
    · simp only [bind, Except.bind, if_neg hzero, setPool_usdcBalance, htoken, hfunded, and_self,
        if_true]
      exact ⟨_, rfl⟩

/-! ## Refunds -/

/-- Every reclaimed pool was refunded once, with its whole residual and to its
owner, and the contract sent no other transfer. -/
structure Refunded (s : State) : Prop where
  once : ∀ id, s.refunds.filter (fun r => r.1 = id) =
    if (s.pools id).status = .closed then
      [(id, ⟨(s.pools id).owner, (s.pools id).deposit - (s.pools id).totalRedeemed⟩)]
    else []
  sent : s.transfers = s.refunds.flatMap fun r => refundTransfers r.2.recipient r.2.amount

/-- A call that refunds nothing and neither closes a pool nor moves a closed one
keeps the refunds in order. -/
theorem Refunded.congr (h : Refunded s) (hrefunds : s'.refunds = s.refunds)
    (htransfers : s'.transfers = s.transfers)
    (hclosed : ∀ id, (s'.pools id).status = .closed ↔ (s.pools id).status = .closed)
    (hfrozen : ∀ id, (s.pools id).status = .closed → s'.pools id = s.pools id) : Refunded s' where
  once id := by
    rw [hrefunds, h.once id]
    by_cases hstatus : (s.pools id).status = .closed
    · rw [if_pos hstatus, if_pos ((hclosed id).mpr hstatus), hfrozen id hstatus]
    · rw [if_neg hstatus, if_neg fun hs' => hstatus ((hclosed id).mp hs')]
  sent := by
    rw [hrefunds, htransfers]
    exact h.sent

/-- A reclaim adds its own refund and closes the pool it refunds. -/
theorem Refunded.reclaim (h : Refunded s) (hcall : PaymentPool.reclaim tx s poolId = .ok s') :
    Refunded s' := by
  rcases reclaim_cases hcall with ⟨hclosing, -, -, -, rfl⟩
  have hrefunds : ∀ (log : List Event) (owner : Address) (refund : Nat),
      (log ++ [Event.poolReclaimed poolId owner refund]).filterMap Event.refund =
        log.filterMap Event.refund ++ [(poolId, ⟨owner, refund⟩)] := by
    intro log owner refund
    rw [List.filterMap_append]
    rfl
  constructor
  · intro id
    have hone := h.once id
    unfold State.refunds at hone ⊢
    dsimp only
    rw [hrefunds, List.filter_append, hone]
    by_cases hid : id = poolId
    · subst hid
      simp [hclosing]
    · have hne : ¬ poolId = id := fun heq => hid heq.symm
      simp [hid, hne]
  · have hsent := h.sent
    unfold State.refunds at hsent ⊢
    dsimp only
    rw [hrefunds, List.flatMap_append, hsent]
    simp

/-- A redemption call sends and reports no refund. -/
theorem redeemMany_refunds {batches : List PoolBatch} (h : redeemMany H tx s batches = .ok s') :
    s'.refunds = s.refunds ∧ s'.transfers = s.transfers := by
  have hregister : ∀ {id : Bytes32} {t t' : State} {c : CapabilityReg},
      registerCapability H tx id t c = .ok t' → t'.log = t.log ∧ t'.transfers = t.transfers := by
    intro id t t' c hreg
    rcases registerCapability_cases hreg with rfl | ⟨-, -, rfl⟩ <;> exact ⟨rfl, rfl⟩
  have hvoucher : ∀ {id : Bytes32} {remaining : Nat} {a a' : GroupAcc} {v : LaneVoucher},
      redeemVoucher H tx id remaining a v = .ok a' →
        a'.state.log = a.state.log ∧ a'.state.transfers = a.state.transfers := by
    intro id remaining a a' v hv
    rcases redeemVoucher_cases hv with ⟨-, ⟨hstate, -⟩ | ⟨out, hpay, -⟩⟩
    · rw [hstate]
      exact ⟨rfl, rfl⟩
    · rw [hpay.state_eq]
      exact ⟨rfl, rfl⟩
  have hbatch : ∀ {a a' : CallAcc} {batch : PoolBatch}, redeemBatch H tx a batch = .ok a' →
      a'.state.refunds = a.state.refunds ∧ a'.state.transfers = a.state.transfers := by
    intro a a' batch hb
    rcases redeemBatch_cases hb with ⟨-, mid, group, hmid, -, hgroup, -, hwrite⟩
    have hreg : mid.log = a.state.log ∧ mid.transfers = a.state.transfers :=
      foldlM_invariant (fun t => t.log = a.state.log ∧ t.transfers = a.state.transfers)
        (fun _ _ _ _ hb hstep => ⟨(hregister hstep).1.trans hb.1, (hregister hstep).2.trans hb.2⟩)
        ⟨rfl, rfl⟩ hmid
    have hloop : group.state.log = mid.log ∧ group.state.transfers = mid.transfers :=
      foldlM_invariant
        (fun g : GroupAcc => g.state.log = mid.log ∧ g.state.transfers = mid.transfers)
        (fun _ _ _ _ hb hstep => ⟨(hvoucher hstep).1.trans hb.1, (hvoucher hstep).2.trans hb.2⟩)
        ⟨rfl, rfl⟩ hgroup
    have hlog : group.state.log = a.state.log := hloop.1.trans hreg.1
    have hsent : group.state.transfers = a.state.transfers := hloop.2.trans hreg.2
    unfold State.refunds
    rcases hwrite with ⟨-, hstate⟩ | ⟨-, hstate⟩
    · rw [hstate, hlog]
      exact ⟨rfl, hsent⟩
    · rw [hstate, ← hlog]
      exact ⟨refunds_append rfl, hsent⟩
  rcases redeemMany_cases h with ⟨acc, hfold, hend⟩
  have hloop : acc.state.refunds = s.refunds ∧ acc.state.transfers = s.transfers :=
    foldlM_invariant
      (fun a : CallAcc => a.state.refunds = s.refunds ∧ a.state.transfers = s.transfers)
      (fun _ _ _ _ hb hstep => ⟨(hbatch hstep).1.trans hb.1, (hbatch hstep).2.trans hb.2⟩)
      ⟨rfl, rfl⟩ hfold
  rcases hend with ⟨-, rfl⟩ | ⟨pulled, settled, -, -, rfl⟩
  · exact hloop
  · exact hloop

/-- Every call keeps the refunds in order. -/
theorem Refunded.exec {c : Call} (h : Refunded s) (hinv : Inv H s 0) (hfree : CollisionFree H s')
    (hcall : PaymentPool.exec H tx s c = .ok s') : Refunded s' := by
  -- Only a reclaim closes a pool.
  have hmove : s'.refunds = s.refunds → s'.transfers = s.transfers →
      (∀ id, (s'.pools id).status = .closed → (s.pools id).status = .closed) → Refunded s' := by
    intro hrefunds htransfers hback
    have hkeep : ∀ id, (s.pools id).status = .closed → Frozen s s' id :=
      fun _ => exec_frozen hinv hfree hcall
    refine h.congr hrefunds htransfers (fun id => ⟨hback id, fun hs => ?_⟩)
      (fun id hs => (hkeep id hs).pool)
    rw [(hkeep id hs).pool]
    exact hs
  cases c with
  | openPool deposit =>
    rcases openPool_cases hcall with ⟨received, -, rfl⟩
    refine hmove (refunds_append rfl) rfl fun id hs => ?_
    by_cases hid : id = H.poolIdOf tx.sender (s.ownerPoolNonce tx.sender)
    · subst hid
      simp at hs
    · simpa [hid] using hs
  | topUp target additionalDeposit =>
    rcases topUp_cases hcall with ⟨hopen, -, received, -, rfl⟩
    refine hmove (refunds_append rfl) rfl fun id hs => ?_
    by_cases hid : id = target
    · subst hid
      simpa using hs
    · simpa [hid] using hs
  | closePool target =>
    rcases closePool_cases hcall with ⟨-, -, rfl⟩
    refine hmove (refunds_append rfl) rfl fun id hs => ?_
    by_cases hid : id = target
    · subst hid
      simp at hs
    · simpa [hid] using hs
  | reclaim target => exact h.reclaim hcall
  | redeemMany batches =>
    have hsame := redeemMany_refunds hcall
    refine hmove hsame.1 hsame.2 fun id hs => ?_
    rw [(redeemMany_frame hcall).terms id] at hs
    exact hs
  | setDisputeWindow n =>
    have hsame := setDisputeWindow_untouched hcall
    exact hmove hsame.refunds hsame.transfers fun id hs => by rwa [hsame.pools] at hs
  | setRateBounds n =>
    have hsame := setRateBounds_untouched hcall
    exact hmove hsame.refunds hsame.transfers fun id hs => by rwa [hsame.pools] at hs
  | setMinDeposit n =>
    have hsame := setMinDeposit_untouched hcall
    exact hmove hsame.refunds hsame.transfers fun id hs => by rwa [hsame.pools] at hs
  | pause =>
    have hsame := pause_untouched hcall
    exact hmove hsame.refunds hsame.transfers fun id hs => by rwa [hsame.pools] at hs
  | unpause =>
    have hsame := unpause_untouched hcall
    exact hmove hsame.refunds hsame.transfers fun id hs => by rwa [hsame.pools] at hs

/-- Refunds are in order in every reachable world. -/
theorem Reachable.refunded {w : World} (h : Reachable H w)
    (hfree : CollisionFree H w.contract) : Refunded w.contract := by
  induction h with
  | deployed disputeWindow deliveryFloor minDeposit timestamp hdeploy =>
    unfold deploy at hdeploy
    split at hdeploy
    · cases hdeploy
    split at hdeploy
    · cases hdeploy
    split at hdeploy
    · cases hdeploy
    rcases (Except.ok.inj hdeploy).symm with rfl
    exact ⟨fun _ => rfl, rfl⟩
  | step hreach hstep ih =>
    have hbefore := hstep.collisionFree hfree
    have hold := ih hbefore
    cases hstep with
    | call tx c hnow hexec => exact hold.exec (hreach.inv hbefore) hfree hexec
    | donation amount => exact ⟨hold.once, hold.sent⟩

/-! ## Whole runs -/

/-- A run of the contract. -/
def Run (H : Crypto) : World → World → Prop :=
  ReflTransGen (Step H)

/-- A run from a reachable world stays reachable. -/
theorem Run.reachable {w w' : World} (h : Run H w w') (hreach : Reachable H w) :
    Reachable H w' := by
  induction h with
  | refl => exact hreach
  | tail _ hstep ih => exact .step ih hstep

/-- A run that ends collision-free was collision-free all along. -/
theorem Run.collisionFree {w w' : World} (h : Run H w w') (hfree : CollisionFree H w'.contract) :
    CollisionFree H w.contract := by
  induction h with
  | refl => exact hfree
  | tail _ hstep ih => exact ih (hstep.collisionFree hfree)

/-- One step keeps a pool's status or moves it one place along its life. -/
theorem Step.status {w w' : World} (hstep : Step H w w') (hinv : Inv H w.contract 0)
    (hfree : CollisionFree H w'.contract) (id : Bytes32) :
    (w'.contract.pools id).status = (w.contract.pools id).status ∨
      ((w.contract.pools id).status = .opened ∧ (w'.contract.pools id).status = .closing) ∨
      ((w.contract.pools id).status = .closing ∧ (w'.contract.pools id).status = .closed) := by
  cases hstep with
  | call tx c hnow hexec =>
    rcases exec_terms hinv hfree hexec id with
      ⟨hstatus, -⟩ | ⟨hopen, -, hclosing, -⟩ | ⟨hclosing, -, hclosed, -⟩
    · exact .inl hstatus
    · exact .inr (.inl ⟨hopen, hclosing⟩)
    · exact .inr (.inr ⟨hclosing, hclosed⟩)
  | donation amount => exact .inl rfl

/-- One step keeps the deadline of a pool that has left `opened`, and the pool
does not come back to it. -/
theorem Step.deadline {w w' : World} (hstep : Step H w w') (hinv : Inv H w.contract 0)
    (hfree : CollisionFree H w'.contract) (hleft : (w.contract.pools id).status ≠ .opened) :
    (w'.contract.pools id).status ≠ .opened ∧
      (w'.contract.pools id).disputeDeadline = (w.contract.pools id).disputeDeadline := by
  cases hstep with
  | call tx c hnow hexec =>
    rcases exec_terms hinv hfree hexec id with
      ⟨hstatus, hdeadline⟩ | ⟨hopen, -, -, -⟩ | ⟨-, -, hclosed, hdeadline⟩
    · exact ⟨by rwa [hstatus], hdeadline⟩
    · exact absurd hopen hleft
    · exact ⟨by rw [hclosed]; simp, hdeadline⟩
  | donation amount => exact ⟨hleft, rfl⟩

/-- One step leaves a reclaimed pool alone. -/
theorem Step.frozen {w w' : World} (hstep : Step H w w') (hinv : Inv H w.contract 0)
    (hfree : CollisionFree H w'.contract) (hclosed : (w.contract.pools id).status = .closed) :
    Frozen w.contract w'.contract id := by
  cases hstep with
  | call tx c hnow hexec => exact exec_frozen hinv hfree hexec hclosed
  | donation amount => exact ⟨rfl, rfl, rfl⟩

/-- The deadline set when a pool leaves `opened` is the one it keeps. -/
theorem Run.deadline {w w' : World} (h : Run H w w') (hreach : Reachable H w)
    (hfree : CollisionFree H w'.contract) (hleft : (w.contract.pools id).status ≠ .opened) :
    (w'.contract.pools id).status ≠ .opened ∧
      (w'.contract.pools id).disputeDeadline = (w.contract.pools id).disputeDeadline := by
  induction h with
  | refl => exact ⟨hleft, rfl⟩
  | tail hrun hstep ih =>
    have hbefore := hstep.collisionFree hfree
    rcases ih hbefore with ⟨hmid, heq⟩
    rcases hstep.deadline ((Run.reachable hrun hreach).inv hbefore) hfree hmid with
      ⟨hend, hkept⟩
    exact ⟨hend, hkept.trans heq⟩

/-- A run leaves a reclaimed pool alone. -/
theorem Run.frozen {w w' : World} (h : Run H w w') (hreach : Reachable H w)
    (hfree : CollisionFree H w'.contract) (hclosed : (w.contract.pools id).status = .closed) :
    Frozen w.contract w'.contract id := by
  induction h with
  | refl => exact .refl _ _
  | tail hrun hstep ih =>
    have hbefore := hstep.collisionFree hfree
    have hmid := ih hbefore
    have hstill : _ = Status.closed := (congrArg Pool.status hmid.pool).trans hclosed
    exact hmid.trans (hstep.frozen ((Run.reachable hrun hreach).inv hbefore) hfree hstill)

/-- The life of one pool.  Take any step `w → u` of any run and any continuation
`u → w'` of it, collision-free in its pool ids.  The step keeps the pool's status
or moves it one place along opened, closing, closed.  A deadline in force after
the step is in force at the end.  At every block time a closing pool admits a
redemption or its reclaim, the reclaim unless the token itself refuses, and never
both.  A pool reclaimed by then has kept its record, every signer and every lane
to the end.  And the refunds sent are exactly one for each reclaimed pool, of its
deposit less what was redeemed, to its owner. -/
theorem lifecycle {w u w' : World} (hreach : Reachable H w) (hstep : Step H w u)
    (hrun : Run H u w') (hfree : CollisionFree H w'.contract) (id : Bytes32) :
    ((u.contract.pools id).status = (w.contract.pools id).status ∨
      ((w.contract.pools id).status = .opened ∧ (u.contract.pools id).status = .closing) ∨
      ((w.contract.pools id).status = .closing ∧ (u.contract.pools id).status = .closed)) ∧
    ((u.contract.pools id).status ≠ .opened →
      (w'.contract.pools id).disputeDeadline = (u.contract.pools id).disputeDeadline) ∧
    ((w'.contract.pools id).status = .closing → ∀ tx : Tx,
      (tx.transferOut = true →
        AdmitsRedemption H tx w'.contract id ∨ AdmitsReclaim tx w'.contract id) ∧
      ¬ (AdmitsRedemption H tx w'.contract id ∧ AdmitsReclaim tx w'.contract id)) ∧
    ((u.contract.pools id).status = .closed → Frozen u.contract w'.contract id) ∧
    Refunded w'.contract := by
  have hu : Reachable H u := .step hreach hstep
  have hw' : Reachable H w' := hrun.reachable hu
  have hfreeU : CollisionFree H u.contract := hrun.collisionFree hfree
  have hinv : Inv H w'.contract 0 := hw'.inv hfree
  refine ⟨?_, ?_, ?_, ?_, ?_⟩
  · exact hstep.status (hreach.inv (hstep.collisionFree hfreeU)) hfreeU id
  · intro hleft
    exact (hrun.deadline hu hfree hleft).2
  · intro hclosing tx
    constructor
    · intro htoken
      rw [admitsRedemption_iff (hinv.books id) hclosing, admitsReclaim_iff hinv hclosing htoken]
      exact lt_or_ge _ _
    · rintro ⟨hredeem, s', hreclaim⟩
      have hbefore := (admitsRedemption_iff (hinv.books id) hclosing).mp hredeem
      exact absurd hbefore (not_lt.mpr (reclaim_cases hreclaim).2.1)
  · intro hclosed
    exact hrun.frozen hu hfree hclosed
  · exact hw'.refunded hfree

/-- A pool of 100 units opened and closed at block time 10 under the 48 hour
window is reclaimed at second 172810, and its owner is sent the 100 units. -/
theorem lifecycle_sample_reclaim : ∃ u : World,
    (u.contract.pools samplePoolId).status = .closed ∧
      u.contract.transfers = [⟨1, 100⟩] ∧ Refunded u.contract := by
  have hsteps : ∃ s, deploy 172800 1 0 5 = .ok s ∧
      ∃ s₁, exec sampleCrypto (sampleTx 1 (by decide)) s (.openPool 100) = .ok s₁ ∧
      ∃ s₂, exec sampleCrypto (sampleTx 1 (by decide)) s₁ (.closePool samplePoolId) = .ok s₂ ∧
      ∃ s₃, exec sampleCrypto { sampleTx 1 (by decide) with timestamp := 172810 } s₂
          (.reclaim samplePoolId) = .ok s₃ ∧
        s₃.ownerPoolNonce = Function.update (fun _ => 0) 1 1 ∧
        (s₃.pools samplePoolId).status = .closed ∧ s₃.transfers = [⟨1, 100⟩] := by
    refine ⟨_, rfl, _, rfl, _, rfl, _, rfl, rfl, rfl, rfl⟩
  rcases hsteps with ⟨s, hs, s₁, hs₁, s₂, hs₂, s₃, hs₃, hnonce, hclosed, hsent⟩
  have hreach : Reachable sampleCrypto ⟨10, s₂⟩ :=
    .step (.step (.deployed _ _ _ _ hs) (.call _ _ (Nat.le_add_left 5 5) hs₁))
      (.call (sampleTx 1 (by decide)) _ le_rfl hs₂)
  have hstep : Step sampleCrypto ⟨10, s₂⟩ ⟨172810, s₃⟩ :=
    .call { sampleTx 1 (by decide) with timestamp := 172810 } _ (by simp) hs₃
  have hlife := lifecycle hreach hstep .refl (collisionFree_of_single hnonce) samplePoolId
  exact ⟨⟨172810, s₃⟩, hclosed, hsent, hlife.2.2.2.2⟩

end Decdn.PaymentPool
