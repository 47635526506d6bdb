import Decdn.Foundations.FiniteMaps
import Decdn.PaymentPool.Spec

/-!
# Solvency of the PaymentPool

The conservation law of the contract.  Three storage maps and an external
balance move at different moments of one redemption: a voucher advances its lane
and its signer, the group writes `totalRedeemed` afterwards, and the router
pulls the money last.  The books of a pool are therefore stated with the amount
`drawn` by the group in progress, and the funding of the contract with the
amount already promised to the router.

Main results:

- Theorem `Books.pay`: one paying voucher keeps the books and raises `drawn`.
- Theorem `Inv.redeemBatch`: one pool group keeps the invariant.
- Theorem `solvency`: the invariant of every reachable state.
-/

namespace Decdn.PaymentPool

open Finset

variable {H : Crypto} {tx : Tx} {s s' : State} {poolId : Bytes32}

/-! ## The invariant -/

/-- What the contract still holds for a pool that is not closed. -/
def Pool.liability (p : Pool) : Nat :=
  if p.status = .closed then 0 else p.deposit - p.totalRedeemed

/-- What the contract still holds for all pools together. -/
noncomputable def State.totalLiability (s : State) : Nat :=
  ∑ id, (s.pools id).liability

/-- The books of one pool while a group has drawn `drawn` from it and not yet
written it down. -/
structure Books (s : State) (id : Bytes32) (drawn : Nat) : Prop where
  redeemed_le : (s.pools id).totalRedeemed + drawn ≤ (s.pools id).deposit
  redeemed_eq : (s.pools id).totalRedeemed + drawn = ∑ signer, (s.authorized id signer).spent
  spent_eq : ∀ signer, (s.authorized id signer).spent =
    ∑ provider, (s.watermark id signer provider).amount
  spent_le_cap : ∀ signer, (s.authorized id signer).spent ≤ (s.authorized id signer).cap

/-- The invariant of the contract while a call owes `promised` to the router. -/
structure Inv (H : Crypto) (s : State) (promised : Nat) : Prop where
  books : ∀ id, Books s id 0
  /-- A pool id nobody opened holds the zero record. -/
  unopened : ∀ id, (∀ owner nonce, nonce < s.ownerPoolNonce owner → H.poolIdOf owner nonce ≠ id) →
    s.pools id = {}
  funded : s.totalLiability + promised ≤ s.usdcBalance

/-- The pool ids derived so far are pairwise distinct: no hash collision has
happened among the pairs of owner and nonce that were opened. -/
def CollisionFree (H : Crypto) (s : State) : Prop :=
  ∀ owner nonce owner' nonce', nonce < s.ownerPoolNonce owner →
    nonce' < s.ownerPoolNonce owner' →
    H.poolIdOf owner nonce = H.poolIdOf owner' nonce' → owner = owner' ∧ nonce = nonce'

/-- Replacing one pool record moves the total liability by that record's. -/
theorem totalLiability_update (s : State) (id : Bytes32) (p : Pool) (t : State)
    (ht : t.pools = Function.update s.pools id p) :
    t.totalLiability + (s.pools id).liability = s.totalLiability + p.liability := by
  unfold State.totalLiability
  rw [ht]
  exact sum_update_add s.pools Pool.liability id p

/-- The books of a pool depend only on its own record, signers and lanes. -/
theorem Books.congr {id : Bytes32} {drawn : Nat} (h : Books s id drawn)
    (hpool : s'.pools id = s.pools id) (hauth : s'.authorized id = s.authorized id)
    (hlane : s'.watermark id = s.watermark id) : Books s' id drawn where
  redeemed_le := by rw [hpool]; exact h.redeemed_le
  redeemed_eq := by rw [hpool, hauth]; exact h.redeemed_eq
  spent_eq := by rw [hauth, hlane]; exact h.spent_eq
  spent_le_cap := by rw [hauth]; exact h.spent_le_cap

/-- The invariant survives any change that keeps all storage it reads and does
not lower the balance. -/
theorem Inv.congr {promised : Nat} (h : Inv H s promised) (hpools : s'.pools = s.pools)
    (hauth : s'.authorized = s.authorized) (hlane : s'.watermark = s.watermark)
    (hnonce : s'.ownerPoolNonce = s.ownerPoolNonce) (hbal : s.usdcBalance ≤ s'.usdcBalance) :
    Inv H s' promised where
  books id := (h.books id).congr (by rw [hpools]) (by rw [hauth]) (by rw [hlane])
  unopened := by rw [hnonce, hpools]; exact h.unopened
  funded := by
    have hfunded := h.funded
    unfold State.totalLiability at hfunded ⊢
    rw [hpools]
    omega

/-! ## Registration and vouchers -/

/-- Filling an empty registration slot keeps every pool's books: an unregistered
signer has spent nothing, because its cap is zero. -/
theorem Books.setAuthorized {id : Bytes32} {drawn : Nat} {signer : Address}
    (h : Books s id drawn) (hcap : (s.authorized poolId signer).cap = 0)
    (hbooks : Books s poolId 0) (cap expiry : Nat) :
    Books (s.setAuthorized poolId signer
      { s.authorized poolId signer with cap := cap, expiry := expiry }) id drawn := by
  by_cases hid : id = poolId
  · subst hid
    have hspent : ∀ σ, (((s.setAuthorized id signer
        { s.authorized id signer with cap := cap, expiry := expiry }).authorized id) σ).spent =
        (s.authorized id σ).spent := by
      intro σ
      by_cases hσ : σ = signer
      · subst hσ
        simp [State.setAuthorized]
      · simp [State.setAuthorized, hσ]
    refine ⟨h.redeemed_le, ?_, ?_, ?_⟩
    · rw [sum_congr rfl fun σ _ => hspent σ]
      exact h.redeemed_eq
    · intro σ
      rw [hspent σ]
      exact h.spent_eq σ
    · intro σ
      rw [hspent σ]
      by_cases hσ : σ = signer
      · subst hσ
        have hzero := hbooks.spent_le_cap σ
        rw [hcap] at hzero
        simp [State.setAuthorized, Nat.le_zero.mp hzero]
      · simpa [State.setAuthorized, hσ] using h.spent_le_cap σ
  · exact h.congr rfl (by simp [State.setAuthorized, hid]) rfl

/-- Registrations keep the invariant and touch nothing but authorizations. -/
theorem Inv.register {promised : Nat} {cs : List CapabilityReg} (h : Inv H s promised)
    (hfold : cs.foldlM (registerCapability H tx poolId) s = .ok s') :
    Inv H s' promised ∧ s'.pools = s.pools := by
  refine foldlM_invariant (fun t => Inv H t promised ∧ t.pools = s.pools) ?_ ⟨h, rfl⟩ hfold
  rintro t c t' - ⟨ht, hpools⟩ hreg
  obtain rfl | ⟨hcap, -, rfl⟩ := registerCapability_cases hreg
  · exact ⟨ht, hpools⟩
  · refine ⟨⟨fun id => ?_, ht.unopened, ht.funded⟩, hpools⟩
    exact (ht.books id).setAuthorized hcap (ht.books poolId) _ _

/-- A paying voucher of another pool leaves a pool's books alone. -/
theorem Books.pay_other {id : Bytes32} {drawn remaining : Nat} {v : LaneVoucher} {out : Payout}
    (h : Books s id drawn) (hid : id ≠ poolId)
    (hpay : Paying H tx poolId s v remaining s' out) : Books s' id drawn := by
  rw [hpay.state_eq]
  exact h.congr rfl (by simp [State.setAuthorized, State.setWatermark, hid])
    (by simp [State.setAuthorized, State.setWatermark, hid])

/-- A paying voucher advances its lane, its signer and the group's draw by the
same payment. -/
theorem Books.pay {drawn remaining : Nat} {v : LaneVoucher} {out : Payout}
    (h : Books s poolId drawn)
    (hremaining : remaining + (s.pools poolId).totalRedeemed + drawn ≤ (s.pools poolId).deposit)
    (hpay : Paying H tx poolId s v remaining s' out) : Books s' poolId (drawn + out.paid) := by
  have hauth : s'.authorized poolId = Function.update (s.authorized poolId) v.signer
      { s.authorized poolId v.signer with
        spent := (s.authorized poolId v.signer).spent + out.paid } := by
    rw [hpay.state_eq]
    simp [State.setAuthorized, State.setWatermark]
  have hlane : s'.watermark poolId = Function.update (s.watermark poolId) v.signer
      (Function.update (s.watermark poolId v.signer) tx.sender
        ⟨(s.watermark poolId v.signer tx.sender).amount + out.paid,
          (s.watermark poolId v.signer tx.sender).bytesDelivered + out.bytesPaid⟩) := by
    rw [hpay.state_eq]
    simp [State.setAuthorized, State.setWatermark]
  have hpool : s'.pools poolId = s.pools poolId := by rw [hpay.state_eq]; rfl
  have htotal := sum_update_add (s.authorized poolId) Authorization.spent v.signer
    { s.authorized poolId v.signer with
      spent := (s.authorized poolId v.signer).spent + out.paid }
  refine ⟨?_, ?_, fun signer => ?_, fun signer => ?_⟩
  · rw [hpool]
    have := hpay.paid_le_remaining
    omega
  · have hold := h.redeemed_eq
    rw [hpool, hauth]
    dsimp only at htotal ⊢
    omega
  · rw [hauth, hlane]
    by_cases hsigner : signer = v.signer
    · subst hsigner
      have hrow := sum_update_add (s.watermark poolId v.signer) Lane.amount tx.sender
        ⟨(s.watermark poolId v.signer tx.sender).amount + out.paid,
          (s.watermark poolId v.signer tx.sender).bytesDelivered + out.bytesPaid⟩
      have hold := h.spent_eq v.signer
      simp only [Function.update_self]
      dsimp only at hrow
      omega
    · simpa [Function.update_of_ne hsigner] using h.spent_eq signer
  · rw [hauth]
    by_cases hsigner : signer = v.signer
    · subst hsigner
      simpa using hpay.spent_le_cap
    · simpa [Function.update_of_ne hsigner] using h.spent_le_cap signer

/-- What the voucher loop of one group keeps: the group's pool has drawn
`poolPaid`, every other pool is untouched, and no pool record has moved. -/
structure GroupInv (s : State) (poolId : Bytes32) (remaining : Nat) (acc : GroupAcc) : Prop where
  drawn : Books acc.state poolId acc.poolPaid
  others : ∀ id, id ≠ poolId → Books acc.state id 0
  bounded : acc.poolPaid ≤ remaining
  pools : acc.state.pools = s.pools
  ownerPoolNonce : acc.state.ownerPoolNonce = s.ownerPoolNonce
  usdcBalance : acc.state.usdcBalance = s.usdcBalance

/-- The voucher loop of one group keeps its invariant. -/
theorem GroupInv.vouchers {remaining : Nat} {vs : List LaneVoucher} {acc : GroupAcc}
    (hbooks : ∀ id, Books s id 0)
    (hremaining : remaining + (s.pools poolId).totalRedeemed = (s.pools poolId).deposit)
    (hfold : vs.foldlM (redeemVoucher H tx poolId remaining) { state := s } = .ok acc) :
    GroupInv s poolId remaining acc := by
  refine foldlM_invariant (GroupInv s poolId remaining) ?_
    ⟨hbooks poolId, fun id _ => hbooks id, Nat.zero_le _, rfl, rfl, rfl⟩ hfold
  rintro b v b' - hb hstep
  obtain ⟨hle, ⟨hstate, hpaid⟩ | ⟨out, hpay, hpaid⟩⟩ := redeemVoucher_cases hstep
  · exact ⟨by rw [hstate, hpaid]; exact hb.drawn, by rw [hstate]; exact hb.others,
      by rw [hpaid]; exact hb.bounded, by rw [hstate]; exact hb.pools,
      by rw [hstate]; exact hb.ownerPoolNonce, by rw [hstate]; exact hb.usdcBalance⟩
  · have hpool : b'.state.pools = b.state.pools := by rw [hpay.state_eq]; rfl
    refine ⟨?_, fun id hid => (hb.others id hid).pay_other hid hpay, ?_, ?_, ?_, ?_⟩
    · rw [hpaid]
      refine hb.drawn.pay ?_ hpay
      rw [hb.pools]
      omega
    · rw [hpaid]
      have := hpay.paid_le_remaining
      omega
    · rw [hpool, hb.pools]
    · rw [hpay.state_eq]
      exact hb.ownerPoolNonce
    · rw [hpay.state_eq]
      exact hb.usdcBalance

/-! ## One pool group and one call -/

/-- Writing a group's draw into `totalRedeemed` settles the pool's books. -/
theorem Books.settle {drawn : Nat} {events : Event} (h : Books s poolId drawn) :
    Books ((s.setPool poolId
      { s.pools poolId with totalRedeemed := (s.pools poolId).totalRedeemed + drawn }).emit
        events) poolId 0 where
  redeemed_le := by simpa using h.redeemed_le
  redeemed_eq := by simpa using h.redeemed_eq
  spent_eq := h.spent_eq
  spent_le_cap := h.spent_le_cap

/-- One pool group keeps the invariant and moves what it paid from the pool's
liability to the router's promise. -/
theorem Inv.redeemBatch {acc acc' : CallAcc} {batch : PoolBatch}
    (h : Inv H acc.state acc.totalPaid)
    (hbatch : PaymentPool.redeemBatch H tx acc batch = .ok acc') :
    Inv H acc'.state acc'.totalPaid := by
  obtain ⟨hgate, mid, group, hmid, hle, hgroup, htotal, hwrite⟩ := redeemBatch_cases hbatch
  obtain ⟨hinv, hpools⟩ := h.register hmid
  have hg : GroupInv mid batch.poolId _ group :=
    GroupInv.vouchers hinv.books (by omega) hgroup
  have hfunded := hinv.funded
  obtain ⟨hzero, hstate⟩ | ⟨hpos, hstate⟩ := hwrite
  · -- Nothing was paid: the group changed authorizations and lanes at most.
    have hbooks : ∀ id, Books group.state id 0 := by
      intro id
      by_cases hid : id = batch.poolId
      · rw [hid, ← hzero]
        exact hg.drawn
      · exact hg.others id hid
    rw [hstate, htotal, hzero, Nat.add_zero]
    refine ⟨hbooks, ?_, ?_⟩
    · rw [hg.ownerPoolNonce, hg.pools]
      exact hinv.unopened
    · unfold State.totalLiability at hfunded ⊢
      rw [hg.pools, hg.usdcBalance]
      exact hfunded
  · have hdrawn := hg.drawn.redeemed_le
    have hstatus : (mid.pools batch.poolId).status ≠ .closed := by
      rw [hpools]
      exact hgate.1
    rw [hstate, htotal]
    refine ⟨fun id => ?_, fun id hid => ?_, ?_⟩
    · by_cases hne : id = batch.poolId
      · rw [hne]
        exact hg.drawn.settle
      · exact (hg.others id hne).congr (by simp [hne]) rfl rfl
    · -- A pool nobody opened has no deposit, so no group draws from it.
      simp only [emit_ownerPoolNonce, setPool_ownerPoolNonce, hg.ownerPoolNonce] at hid
      have hempty := hinv.unopened id hid
      by_cases hne : id = batch.poolId
      · subst hne
        rw [hg.pools, hempty] at hdrawn
        simp only [Nat.zero_add, Nat.le_zero] at hdrawn
        omega
      · simpa [hne, hg.pools] using hempty
    · have hmove := totalLiability_update group.state batch.poolId
        { group.state.pools batch.poolId with
          totalRedeemed := (group.state.pools batch.poolId).totalRedeemed + group.poolPaid }
        ((group.state.setPool batch.poolId
          { group.state.pools batch.poolId with
            totalRedeemed :=
              (group.state.pools batch.poolId).totalRedeemed + group.poolPaid }).emit
          (.poolRedeemed batch.poolId tx.sender group.settled)) rfl
      have hsame : group.state.totalLiability = mid.totalLiability := by
        unfold State.totalLiability
        rw [hg.pools]
      simp only [Pool.liability, hg.pools, if_neg hstatus] at hmove
      rw [hg.pools] at hdrawn
      simp only [emit_usdcBalance, setPool_usdcBalance, hg.usdcBalance, hg.pools]
      omega

/-- A redemption call keeps the invariant: the router pulls at most what the
groups moved out of the pools' liabilities. -/
theorem Inv.redeemMany {batches : List PoolBatch} (h : Inv H s 0)
    (hcall : PaymentPool.redeemMany H tx s batches = .ok s') : Inv H s' 0 := by
  obtain ⟨acc, hfold, hend⟩ := redeemMany_cases hcall
  have hacc : Inv H acc.state acc.totalPaid :=
    foldlM_invariant (fun a : CallAcc => Inv H a.state a.totalPaid)
      (fun _ _ _ _ hb hstep => hb.redeemBatch hstep) h hfold
  obtain ⟨hzero, rfl⟩ | ⟨pulled, settled, hpull, hbal, rfl⟩ := hend
  · rw [← hzero]
    exact hacc
  · refine ⟨fun id => (hacc.books id).congr rfl rfl rfl, hacc.unopened, ?_⟩
    have hfunded := hacc.funded
    unfold State.totalLiability at hfunded ⊢
    dsimp only
    omega

/-! ## Lifecycle calls -/

/-- Without a collision the id a new pool takes holds the zero record. -/
theorem Inv.openPool_fresh {deposit : UInt64} {promised : Nat} (h : Inv H s promised)
    (hfree : CollisionFree H s') (hcall : PaymentPool.openPool H tx s deposit = .ok s') :
    s.pools (H.poolIdOf tx.sender (s.ownerPoolNonce tx.sender)) = {} := by
  have hmono := exec_ownerPoolNonce_le (c := .openPool deposit) hcall
  obtain ⟨received, -, rfl⟩ := openPool_cases hcall
  refine h.unopened _ fun owner nonce hnonce heq => ?_
  obtain ⟨rfl, rfl⟩ := hfree _ _ _ _ (lt_of_lt_of_le hnonce (hmono owner))
    (by simp) heq
  exact Nat.lt_irrefl _ hnonce

/-- Opening a pool keeps the invariant: without a collision the new id is one
nobody opened. -/
theorem Inv.openPool {deposit : UInt64} (h : Inv H s 0) (hfree : CollisionFree H s')
    (hcall : PaymentPool.openPool H tx s deposit = .ok s') : Inv H s' 0 := by
  have hfresh := h.openPool_fresh hfree hcall
  obtain ⟨received, -, rfl⟩ := openPool_cases hcall
  have hbooks := h.books (H.poolIdOf tx.sender (s.ownerPoolNonce tx.sender))
  have hfunded := h.funded
  refine ⟨fun id => ?_, fun id hid => ?_, ?_⟩
  · by_cases hid : id = H.poolIdOf tx.sender (s.ownerPoolNonce tx.sender)
    · have heq := hbooks.redeemed_eq
      rw [hfresh] at heq
      subst hid
      exact ⟨by simp [hfresh], by simpa [hfresh] using heq, hbooks.spent_eq,
        hbooks.spent_le_cap⟩
    · exact (h.books id).congr (by simp [hid]) rfl rfl
  · -- The new id is taken, so an id that is still unopened was so before.
    have hne : id ≠ H.poolIdOf tx.sender (s.ownerPoolNonce tx.sender) := by
      rintro rfl
      exact hid tx.sender (s.ownerPoolNonce tx.sender) (by simp) rfl
    dsimp only
    rw [Function.update_of_ne hne]
    refine h.unopened id fun owner nonce hnonce => hid owner nonce ?_
    by_cases howner : owner = tx.sender
    · subst howner
      simp only [Function.update_self]
      omega
    · simpa [Function.update_of_ne howner] using hnonce
  · have hmove := totalLiability_update s (H.poolIdOf tx.sender (s.ownerPoolNonce tx.sender)) _
      { s with
        ownerPoolNonce := Function.update s.ownerPoolNonce tx.sender
          (s.ownerPoolNonce tx.sender + 1)
        pools := Function.update s.pools (H.poolIdOf tx.sender (s.ownerPoolNonce tx.sender))
          { s.pools (H.poolIdOf tx.sender (s.ownerPoolNonce tx.sender)) with
            owner := tx.sender, status := .opened, deposit := received }
        usdcBalance := s.usdcBalance + received
        log := s.log ++ [.poolOpened (H.poolIdOf tx.sender (s.ownerPoolNonce tx.sender))
          tx.sender received] } rfl
    simp only [hfresh, Pool.liability, reduceCtorEq, if_false] at hmove
    dsimp only
    simp only [hfresh]
    omega

/-- The record of a pool with an owner is not the zero record. -/
theorem Inv.opened_of_owner {promised : Nat} {id : Bytes32} (h : Inv H s promised)
    (howner : tx.sender = (s.pools id).owner) :
    ¬ ∀ owner nonce, nonce < s.ownerPoolNonce owner → H.poolIdOf owner nonce ≠ id := by
  intro hid
  rw [h.unopened id hid] at howner
  exact tx.sender_ne_zero howner

/-- A change of one opened pool's record that keeps what was redeemed and does
not lower the deposit keeps the invariant, as long as the balance follows. -/
theorem Inv.setPool {p : Pool} (h : Inv H s 0)
    (hpools : s'.pools = Function.update s.pools poolId p)
    (hopened : ¬ ∀ owner nonce, nonce < s.ownerPoolNonce owner → H.poolIdOf owner nonce ≠ poolId)
    (hredeemed : p.totalRedeemed = (s.pools poolId).totalRedeemed)
    (hdeposit : (s.pools poolId).deposit ≤ p.deposit)
    (hauth : s'.authorized = s.authorized) (hlane : s'.watermark = s.watermark)
    (hnonce : s'.ownerPoolNonce = s.ownerPoolNonce)
    (hbal : s.usdcBalance + p.liability ≤ s'.usdcBalance + (s.pools poolId).liability) :
    Inv H s' 0 := by
  have hbooks := h.books poolId
  have hfunded := h.funded
  have hmove := totalLiability_update s poolId p s' hpools
  refine ⟨fun id => ?_, fun id hid => ?_, by omega⟩
  · by_cases hne : id = poolId
    · subst hne
      have hle := hbooks.redeemed_le
      refine ⟨?_, ?_, ?_, ?_⟩
      · rw [hpools]
        simp only [Function.update_self]
        omega
      · rw [hpools, hauth]
        simp only [Function.update_self, hredeemed]
        exact hbooks.redeemed_eq
      · rw [hauth, hlane]
        exact hbooks.spent_eq
      · rw [hauth]
        exact hbooks.spent_le_cap
    · exact (h.books id).congr (by rw [hpools, Function.update_of_ne hne]) (by rw [hauth])
        (by rw [hlane])
  · have hne : id ≠ poolId := by
      rintro rfl
      rw [hnonce] at hid
      exact hopened hid
    rw [hpools, Function.update_of_ne hne]
    rw [hnonce] at hid
    exact h.unopened id hid

/-- Topping up keeps the invariant. -/
theorem Inv.topUp {additionalDeposit : UInt64} (h : Inv H s 0)
    (hcall : PaymentPool.topUp tx s poolId additionalDeposit = .ok s') : Inv H s' 0 := by
  obtain ⟨hstatus, howner, received, -, rfl⟩ := topUp_cases hcall
  have hle := (h.books poolId).redeemed_le
  refine h.setPool rfl (h.opened_of_owner howner) rfl (Nat.le_add_right _ received) rfl rfl rfl ?_
  simp only [Pool.liability, hstatus]
  simp only [reduceCtorEq, if_false]
  omega

/-- Starting the grace window keeps the invariant. -/
theorem Inv.closePool (h : Inv H s 0) (hcall : PaymentPool.closePool tx s poolId = .ok s') :
    Inv H s' 0 := by
  obtain ⟨hstatus, howner, rfl⟩ := closePool_cases hcall
  refine h.setPool rfl (h.opened_of_owner howner) rfl le_rfl rfl rfl rfl ?_
  simp [Pool.liability, hstatus]

/-- Reclaiming keeps the invariant: the pool's residual leaves the balance and
the liabilities together. -/
theorem Inv.reclaim (h : Inv H s 0) (hcall : PaymentPool.reclaim tx s poolId = .ok s') :
    Inv H s' 0 := by
  obtain ⟨hstatus, -, hle, hbal, rfl⟩ := reclaim_cases hcall
  have hopened :
      ¬ ∀ owner nonce, nonce < s.ownerPoolNonce owner → H.poolIdOf owner nonce ≠ poolId := by
    intro hid
    rw [h.unopened poolId hid] at hstatus
    cases hstatus
  refine h.setPool rfl hopened rfl le_rfl rfl rfl rfl ?_
  simp only [Pool.liability, hstatus, if_true]
  simp only [reduceCtorEq, if_false]
  omega

/-- A call that touches no ledger storage keeps the invariant. -/
theorem Inv.untouched {promised : Nat} (h : Inv H s promised) (hsame : Untouched s s') :
    Inv H s' promised :=
  h.congr hsame.pools hsame.authorized hsame.watermark hsame.ownerPoolNonce
    (le_of_eq hsame.usdcBalance.symm)

/-! ## Whole runs -/

/-- A deployed contract starts with empty books. -/
theorem inv_deploy {disputeWindow deliveryFloor minDeposit timestamp : Nat}
    (h : deploy disputeWindow deliveryFloor minDeposit timestamp = .ok s) : Inv H s 0 := by
  unfold deploy at h
  split at h
  · cases h
  split at h
  · cases h
  split at h
  · cases h
  obtain rfl := (Except.ok.inj h).symm
  refine ⟨fun id => ⟨le_rfl, ?_, ?_, fun _ => le_rfl⟩, fun _ _ => rfl, ?_⟩
  · simp
  · simp
  · simp [State.totalLiability, Pool.liability]

/-- A collision-free world was collision-free before its last step. -/
theorem Step.collisionFree {w w' : World} (hstep : Step H w w')
    (hfree : CollisionFree H w'.contract) : CollisionFree H w.contract := by
  have hmono : ∀ owner, w.contract.ownerPoolNonce owner ≤ w'.contract.ownerPoolNonce owner := by
    cases hstep with
    | call tx c hnow hexec => exact exec_ownerPoolNonce_le hexec
    | donation amount => exact fun _ => le_rfl
  intro owner nonce owner' nonce' hn hn' heq
  exact hfree owner nonce owner' nonce' (lt_of_lt_of_le hn (hmono owner))
    (lt_of_lt_of_le hn' (hmono owner')) heq

/-- One step of a run keeps the invariant. -/
theorem Step.inv {w w' : World} (hstep : Step H w w') (hfree : CollisionFree H w'.contract)
    (h : Inv H w.contract 0) : Inv H w'.contract 0 := by
  cases hstep with
  | call tx c hnow hexec =>
    cases c with
    | openPool deposit => exact h.openPool hfree hexec
    | topUp poolId additionalDeposit => exact h.topUp hexec
    | closePool poolId => exact h.closePool hexec
    | reclaim poolId => exact h.reclaim hexec
    | redeemMany batches => exact h.redeemMany hexec
    | setDisputeWindow newWindow => exact h.untouched (setDisputeWindow_untouched hexec)
    | setRateBounds newFloor => exact h.untouched (setRateBounds_untouched hexec)
    | setMinDeposit newMin => exact h.untouched (setMinDeposit_untouched hexec)
    | pause => exact h.untouched (pause_untouched hexec)
    | unpause => exact h.untouched (unpause_untouched hexec)
  | donation amount => exact h.congr rfl rfl rfl rfl (Nat.le_add_right _ amount)

/-- The invariant holds in every reachable world without hash collisions. -/
theorem Reachable.inv {w : World} (h : Reachable H w) (hfree : CollisionFree H w.contract) :
    Inv H w.contract 0 := by
  induction h with
  | deployed disputeWindow deliveryFloor minDeposit timestamp h => exact inv_deploy h
  | step _ hstep ih => exact hstep.inv hfree (ih (hstep.collisionFree hfree))

/-- Solvency over whole runs: every pool has redeemed at most its deposit, what
it redeemed is what its signers spent and what its lanes were paid, no signer
exceeds its cap, and the contract holds at least the residual of every pool that
is not closed. -/
theorem solvency {w : World} (h : Reachable H w) (hfree : CollisionFree H w.contract) :
    (∀ id,
      (w.contract.pools id).totalRedeemed ≤ (w.contract.pools id).deposit ∧
      (w.contract.pools id).totalRedeemed = ∑ signer, (w.contract.authorized id signer).spent ∧
      (w.contract.pools id).totalRedeemed =
        ∑ lane : Address × Address, (w.contract.watermark id lane.1 lane.2).amount ∧
      ∀ signer, (w.contract.authorized id signer).spent ≤ (w.contract.authorized id signer).cap) ∧
    ∑ id ∈ univ.filter (fun id => (w.contract.pools id).status ≠ .closed),
      ((w.contract.pools id).deposit - (w.contract.pools id).totalRedeemed) ≤
        w.contract.usdcBalance := by
  have hinv := h.inv hfree
  refine ⟨fun id => ?_, ?_⟩
  · have hbooks := hinv.books id
    have hspent := hbooks.redeemed_eq
    rw [Nat.add_zero] at hspent
    refine ⟨by simpa using hbooks.redeemed_le, hspent, ?_, hbooks.spent_le_cap⟩
    rw [Fintype.sum_prod_type, hspent]
    exact sum_congr rfl fun signer _ => hbooks.spent_eq signer
  · have hfunded := hinv.funded
    rw [Nat.add_zero] at hfunded
    refine le_trans (le_of_eq ?_) hfunded
    unfold State.totalLiability
    rw [sum_filter]
    refine sum_congr rfl fun id _ => ?_
    unfold Pool.liability
    split <;> simp_all

/-! ## A sample run

Owner `1` opens one pool of 100 units, and provider `2` registers signer `3` and
redeems one voucher of 30 units.  The hash table holds the true keccak values of
the inputs the run uses. -/

/-- `keccak256(abi.encodePacked(address(1), uint256(0)))`. -/
def samplePoolId : Bytes32 :=
  0xb9382d35273c75a50631a3e84d3c75ec9266e2b18c35a627e16cdbf26a18ca85

/-- Primitives that answer the sample run's queries. -/
def sampleCrypto : Crypto where
  poolIdOf owner nonce := if owner = 1 ∧ nonce = 0 then samplePoolId else 0
  keccak256 x :=
    if x = 0 then 0x290decd9548b62a8d60345a988386fc84ba6bc95484008f6362f93160ef3e563 else 0
  capabilityDigest _ _ _ _ := 1
  voucherDigest _ _ _ amount _ _ _ := BitVec.ofNat 256 (2 + amount)
  tryRecover digest _ := if digest = 1 then some 1 else none
  tryRecoverCompact digest r _ :=
    if (digest = 32 ∧ r = 0) ∨ (digest = 42 ∧ r = 1) then some 3 else none

/-- A transaction of the sample run: the token credits 100 units, the router
pulls the whole settlement, and the caller is a bound operator. -/
def sampleTx (sender : Address) (h : decide (sender ≠ 0) = true) : Tx where
  sender := sender
  sender_ne_zero := ne_zero_of_check h
  timestamp := 10
  hasRole _ _ := false
  transferIn := some 100
  transferOut := true
  nodeIdOf _ := (7, true)
  routerPull _ _ amountDelta := some amountDelta
  isValidERC1271 _ _ _ := false

/-- The sample voucher: 30 units, no chain. -/
def sampleVoucher : LaneVoucher where
  signer := 3
  cumulative := 30
  bytesDelivered := 1048576
  r := 0
  vs := 0
  chainRoot := 0
  preimage := 0
  chainMeter := 0

/-- The sample batch: one registration of cap 50 and the sample voucher. -/
def sampleBatch : PoolBatch where
  poolId := samplePoolId
  capabilities := [⟨3, 50, 1000, []⟩]
  vouchers := [sampleVoucher]

/-- With one pool opened there is nothing to collide with. -/
theorem collisionFree_of_single {owner : Address}
    (hnonce : s.ownerPoolNonce = Function.update (fun _ => 0) owner 1) : CollisionFree H s := by
  have hone : ∀ o n, n < s.ownerPoolNonce o → o = owner ∧ n = 0 := by
    intro o n h
    rw [hnonce] at h
    by_cases ho : o = owner
    · subst ho
      simp only [Function.update_self] at h
      exact ⟨rfl, by omega⟩
    · rw [Function.update_of_ne ho] at h
      exact absurd h (Nat.not_lt_zero n)
  intro o n o' n' h h' _
  obtain ⟨rfl, rfl⟩ := hone o n h
  obtain ⟨rfl, rfl⟩ := hone o' n' h'
  exact ⟨rfl, rfl⟩

/-- After the sample run 30 of the 100 units are redeemed and the other 70 are
covered. -/
theorem solvency_sampleRun : ∃ w : World,
    (w.contract.pools samplePoolId).totalRedeemed = 30 ∧
      (w.contract.pools samplePoolId).totalRedeemed =
        ∑ signer, (w.contract.authorized samplePoolId signer).spent ∧
      w.contract.usdcBalance = 70 := by
  have hdeploy : ∃ s, deploy 172800 1 0 5 = .ok s ∧ s.usdcBalance = 0 ∧
      ∃ s₁, exec sampleCrypto (sampleTx 1 (by decide)) s (.openPool 100) = .ok s₁ ∧
      ∃ s₂, exec sampleCrypto (sampleTx 2 (by decide)) s₁ (.redeemMany [sampleBatch]) = .ok s₂ ∧
        s₂.ownerPoolNonce = Function.update (fun _ => 0) 1 1 ∧
        (s₂.pools samplePoolId).totalRedeemed = 30 ∧ s₂.usdcBalance = 70 := by
    refine ⟨_, rfl, rfl, _, rfl, _, rfl, rfl, rfl, rfl⟩
  obtain ⟨s, hs, -, s₁, hs₁, s₂, hs₂, hnonce, hredeemed, hbalance⟩ := hdeploy
  have hreach : Reachable sampleCrypto ⟨10, s₂⟩ :=
    .step (.step (.deployed _ _ _ _ hs) (.call _ _ (Nat.le_add_left 5 5) hs₁))
      (.call (sampleTx 2 (by decide)) _ le_rfl hs₂)
  have hfree : CollisionFree sampleCrypto s₂ := collisionFree_of_single hnonce
  exact ⟨⟨10, s₂⟩, hredeemed, ((solvency hreach hfree).1 samplePoolId).2.1, hbalance⟩

end Decdn.PaymentPool
