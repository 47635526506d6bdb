import Decdn.Foundations.Saturation
import Decdn.PaymentPool.Solvency
import Decdn.PaymentPool.Widths

/-!
# Order independence of redemption

Every voucher draws the least of what its lane lacks, its signer's room and the
pool's remaining balance, so a pool is an instance of nested budgets: the pool
is the common balance, a signer is a group and a provider is a lane of it.  The
payments of the single vouchers depend on their order; the pool's
`totalRedeemed` does not, however the vouchers are grouped into calls and
batches.

Main results:

- Theorem `Presenting.voucher`: one voucher is one draw on the budgets.
- Theorem `Drawing.call`: one call presents the demands of all its batches.
- Theorem `redeemAll_totalRedeemed`: the closed form of the final total.
-/

namespace Decdn.PaymentPool

open Finset

variable {H : Crypto} {tx : Tx} {s s₀ : State} {id : Bytes32}

/-! ## Presented vouchers -/

/-- One redemption transaction. -/
structure RedeemCall where
  tx : Tx
  batches : List PoolBatch

/-- Redemption calls, one after another. -/
def redeemAll (H : Crypto) (s : State) (calls : List RedeemCall) : Except Error State :=
  calls.foldlM (fun s call => redeemMany H call.tx s call.batches) s

/-- The vouchers of one call, each with the provider that presents it. -/
def RedeemCall.vouchers (call : RedeemCall) : List (Address × LaneVoucher) :=
  call.batches.flatMap fun batch => batch.vouchers.map fun v => (call.tx.sender, v)

/-- The multiset of vouchers that a sequence of calls presents. -/
def presented (calls : List RedeemCall) : Multiset (Address × LaneVoucher) :=
  (calls.flatMap RedeemCall.vouchers : List (Address × LaneVoucher))

/-- The largest claim among the vouchers of one lane. -/
def maxClaimed (H : Crypto) (M : Multiset (Address × LaneVoucher)) (signer provider : Address) :
    Nat :=
  ((M.filter fun p => p.2.signer = signer ∧ p.1 = provider).map fun p => claimedOf H p.2).sup

/-- A call that only redeems good vouchers of one pool: its vouchers are
presentable, its capabilities name registered signers, its sender is a bound
operator and the router accepts the settlement. -/
structure RedeemCall.Good (H : Crypto) (s : State) (id : Bytes32) (call : RedeemCall) : Prop where
  pool : ∀ batch ∈ call.batches, batch.poolId = id
  capabilities : ∀ batch ∈ call.batches, ∀ c ∈ batch.capabilities,
    (s.authorized id c.signer).cap ≠ 0 ∨ (s.authorized id c.signer).expiry ≠ 0
  vouchers : ∀ batch ∈ call.batches, ∀ v ∈ batch.vouchers, Presentable H s id call.tx v
  bound : (call.tx.nodeIdOf call.tx.sender).1 ≠ 0
  router : ∀ bytesDelta amountDelta, 0 < amountDelta →
    ∃ pulled, call.tx.routerPull call.tx.sender bytesDelta amountDelta = some pulled ∧
      pulled ≤ amountDelta

/-! ## The pool as nested budgets -/

/-- The budgets of one pool while a group has drawn `drawn` from it. -/
def budgets (s : State) (id : Bytes32) (drawn : Nat) : Budgets Address Address where
  remaining := (s.pools id).deposit - (s.pools id).totalRedeemed - drawn
  room signer := (s.authorized id signer).cap - (s.authorized id signer).spent
  mark signer provider := (s.watermark id signer provider).amount

/-- The demand a presented voucher makes. -/
def demand (H : Crypto) (p : Address × LaneVoucher) : Demand Address Address where
  group := p.2.signer
  lane := p.1
  claimed := claimedOf H p.2

/-- The peak demand on a lane is the largest claim presented on it. -/
theorem peak_map_demand (M : Multiset (Address × LaneVoucher)) (signer provider : Address) :
    peak (M.map (demand H)) signer provider = maxClaimed H M signer provider := by
  unfold peak maxClaimed
  rw [Multiset.filter_map, Multiset.map_map]
  rfl

/-- From `s₀` the demands `M` have been presented to the pool, and the signers'
limits and the pool's terms are still those of `s₀`. -/
structure Drawing (s₀ s : State) (id : Bytes32) (drawn : Nat)
    (M : Multiset (Demand Address Address)) : Prop where
  ledger : Drawn (budgets s₀ id 0) (budgets s id drawn) M
  cap_eq : ∀ signer, (s.authorized id signer).cap = (s₀.authorized id signer).cap
  expiry_eq : ∀ signer, (s.authorized id signer).expiry = (s₀.authorized id signer).expiry
  deposit_eq : (s.pools id).deposit = (s₀.pools id).deposit
  status_eq : (s.pools id).status = (s₀.pools id).status

/-- A presentable voucher stays presentable while demands are drawn. -/
theorem Presentable.of_drawing {drawn : Nat} {M : Multiset (Demand Address Address)}
    {v : LaneVoucher} (h : Presentable H s₀ id tx v) (hd : Drawing s₀ s id drawn M) :
    Presentable H s id tx v := by
  refine ⟨?_, ?_, h.signed⟩
  · rw [hd.cap_eq, hd.expiry_eq]
    exact h.registered
  · rw [hd.expiry_eq]
    exact h.unexpired

/-- A demand that draws nothing leaves the budgets alone. -/
theorem budgets_draw_of_pay_eq_zero {b : Budgets Address Address} {d : Demand Address Address}
    (h : b.pay d = 0) : b.draw d = b := by
  cases b
  simp only [Budgets.draw, h, Nat.sub_zero, Nat.add_zero, Function.update_eq_self]

/-- A paying voucher is one draw on the budgets. -/
theorem budgets_pay {drawn : Nat} {v : LaneVoucher} {out : Payout} {s' : State}
    (hpay : Paying H tx id s v (budgets s id drawn).remaining s' out) :
    budgets s' id (drawn + out.paid) = (budgets s id drawn).draw (demand H (tx.sender, v)) := by
  obtain ⟨c, hc, hpaid⟩ := hpay.claim
  have hpay' : (budgets s id drawn).pay (demand H (tx.sender, v)) = out.paid := by
    rw [hpaid]
    simp [Budgets.pay, demand, claimedOf, hc, budgets]
  unfold Budgets.draw
  rw [hpay', hpay.state_eq]
  simp only [budgets, demand, Budgets.mk.injEq]
  refine ⟨?_, ?_, ?_⟩
  · simp only [State.setAuthorized, State.setWatermark]
    omega
  · funext signer
    by_cases hsigner : signer = v.signer
    · subst hsigner
      simp only [State.setAuthorized, State.setWatermark, Function.update_self]
      omega
    · simp [State.setAuthorized, State.setWatermark, hsigner]
  · funext signer provider
    by_cases hsigner : signer = v.signer
    · subst hsigner
      by_cases hprovider : provider = tx.sender
      · subst hprovider
        simp [State.setAuthorized, State.setWatermark]
      · simp [State.setAuthorized, State.setWatermark, hprovider]
    · simp [State.setAuthorized, State.setWatermark, hsigner]

/-! ## One voucher, one batch, one call -/

/-- What the voucher loop of one batch keeps. -/
structure Presenting (s₀ mid : State) (id : Bytes32) (M : Multiset (Demand Address Address))
    (acc : GroupAcc) : Prop where
  drawing : Drawing s₀ acc.state id acc.poolPaid M
  books : Books acc.state id acc.poolPaid
  widths : Widths acc.state
  pools : acc.state.pools = mid.pools

/-- A presentable voucher is redeemed, as one draw on the budgets. -/
theorem Presenting.voucher {mid : State} {M : Multiset (Demand Address Address)} {acc : GroupAcc}
    {v : LaneVoucher} (h : Presenting s₀ mid id M acc) (hv : Presentable H s₀ id tx v) :
    ∃ acc', redeemVoucher H tx id ((mid.pools id).deposit - (mid.pools id).totalRedeemed) acc v =
        .ok acc' ∧ Presenting s₀ mid id (demand H (tx.sender, v) ::ₘ M) acc' := by
  have hle := h.books.redeemed_le
  rw [h.pools] at hle
  have hleft : (mid.pools id).deposit - (mid.pools id).totalRedeemed - acc.poolPaid =
      (budgets acc.state id acc.poolPaid).remaining := by
    simp only [budgets, h.pools]
  have hwidth := h.widths.deposit_le id
  rw [h.pools] at hwidth
  obtain ⟨s', out, happly, hout⟩ := applyVoucher_ok h.widths (hv.of_drawing h.drawing)
    (h.books.spent_le_cap v.signer) (budgets acc.state id acc.poolPaid).remaining
  unfold redeemVoucher
  rw [checkedSub_eq_ok.mpr ⟨by omega, rfl⟩, hleft]
  simp only [bind, Except.bind, happly]
  have hdraw := h.drawing.ledger.draw (demand H (tx.sender, v))
  obtain ⟨rfl, rfl⟩ | hpay := applyVoucher_cases happly
  · -- Nothing was paid, so the demand draws nothing.
    rw [budgets_draw_of_pay_eq_zero (by exact hout.symm)] at hdraw
    exact ⟨acc, rfl, ⟨{ h.drawing with ledger := hdraw }, h.books, h.widths, h.pools⟩⟩
  · have hpos := hpay.paid_pos
    have hbound := hpay.paid_le_remaining
    rw [← hleft] at hbound
    have hstate : s'.pools = acc.state.pools := by rw [hpay.state_eq]; rfl
    rw [← budgets_pay hpay] at hdraw
    rw [if_neg (by omega), checkedAdd64_eq_ok.mpr ⟨by omega, rfl⟩]
    refine ⟨_, rfl, ⟨⟨hdraw, fun signer => ?_, fun signer => ?_, ?_, ?_⟩, ?_, ?_, ?_⟩⟩
    · rw [← h.drawing.cap_eq, hpay.state_eq]
      by_cases hsigner : signer = v.signer
      · subst hsigner
        simp [State.setAuthorized, State.setWatermark]
      · simp [State.setAuthorized, State.setWatermark, hsigner]
    · rw [← h.drawing.expiry_eq, hpay.state_eq]
      by_cases hsigner : signer = v.signer
      · subst hsigner
        simp [State.setAuthorized, State.setWatermark]
      · simp [State.setAuthorized, State.setWatermark, hsigner]
    · rw [hstate]
      exact h.drawing.deposit_eq
    · rw [hstate]
      exact h.drawing.status_eq
    · refine h.books.pay ?_ hpay
      simp only [budgets, h.pools]
      omega
    · exact h.widths.pay hpay
    · rw [hstate]
      exact h.pools

/-- A batch of presentable vouchers is redeemed, and presents all their demands. -/
theorem Drawing.batch {M : Multiset (Demand Address Address)} {acc : CallAcc} {batch : PoolBatch}
    (h : Drawing s₀ acc.state id 0 M) (hinv : Inv H acc.state acc.totalPaid)
    (hwidths : Widths acc.state) (hopen : (s₀.pools id).status = .opened)
    (hpool : batch.poolId = id)
    (hcaps : ∀ c ∈ batch.capabilities,
      (s₀.authorized id c.signer).cap ≠ 0 ∨ (s₀.authorized id c.signer).expiry ≠ 0)
    (hvouchers : ∀ v ∈ batch.vouchers, Presentable H s₀ id tx v) :
    ∃ acc', redeemBatch H tx acc batch = .ok acc' ∧
      Drawing s₀ acc'.state id 0
        ((batch.vouchers.map fun v => demand H (tx.sender, v) : List _) + M) := by
  subst hpool
  have hbooks := hinv.books batch.poolId
  have hle := hbooks.redeemed_le
  have hgate : redeemable tx (acc.state.pools batch.poolId) := by
    simp [redeemable, h.status_eq, hopen]
  have hregister : batch.capabilities.foldlM (registerCapability H tx batch.poolId) acc.state =
      .ok acc.state := by
    obtain ⟨r, hr, rfl⟩ := foldlM_ok (f := registerCapability H tx batch.poolId)
      batch.capabilities acc.state (fun _ t => t = acc.state)
      (fun _ t c hc ht => ⟨t, registerCapability_registered (by
        rw [ht, h.cap_eq, h.expiry_eq]
        exact hcaps c hc), ht⟩) rfl
    exact hr
  obtain ⟨group, hgroup, hg⟩ := foldlM_ok
    (f := redeemVoucher H tx batch.poolId ((acc.state.pools batch.poolId).deposit -
      (acc.state.pools batch.poolId).totalRedeemed))
    batch.vouchers { state := acc.state }
    (fun done g => Presenting s₀ acc.state batch.poolId
      ((done.map fun v => demand H (tx.sender, v) : List _) + M) g)
    (by
      intro done g v hv hg
      obtain ⟨g', hstep, hg'⟩ := hg.voucher (hvouchers v hv)
      refine ⟨g', hstep, ?_⟩
      have hperm : ((done ++ [v]).map fun v => demand H (tx.sender, v) : List _) + M =
          demand H (tx.sender, v) ::ₘ
            (((done.map fun v => demand H (tx.sender, v) : List _) : Multiset _) + M) := by
        rw [List.map_append, ← Multiset.coe_add, add_right_comm, add_comm]
        rfl
      rw [hperm]
      exact hg')
    ⟨by simpa using h, hbooks, hwidths, rfl⟩
  unfold redeemBatch
  rw [if_neg (not_not.mpr hgate), hregister]
  have hsub : checkedSub (acc.state.pools batch.poolId).deposit
      (acc.state.pools batch.poolId).totalRedeemed = .ok _ :=
    checkedSub_eq_ok.mpr ⟨by omega, rfl⟩
  simp only [bind, Except.bind, hsub, hgroup]
  split
  · rename_i hzero
    have hdrawing := hg.drawing
    rw [hzero] at hdrawing
    exact ⟨_, rfl, hdrawing⟩
  · have hbound := hg.books.redeemed_le
    have hwidth := hg.widths.deposit_le batch.poolId
    have hadd : checkedAdd64 (group.state.pools batch.poolId).totalRedeemed group.poolPaid = .ok _ :=
      checkedAdd64_eq_ok.mpr ⟨by omega, rfl⟩
    simp only [hadd]
    refine ⟨_, rfl, ⟨?_, hg.drawing.cap_eq, hg.drawing.expiry_eq, ?_, ?_⟩⟩
    · -- Writing the draw down does not move the remaining balance.
      have hsame : budgets ((group.state.setPool batch.poolId
          { group.state.pools batch.poolId with
            totalRedeemed := (group.state.pools batch.poolId).totalRedeemed +
              group.poolPaid }).emit (.poolRedeemed batch.poolId tx.sender group.settled))
          batch.poolId 0 = budgets group.state batch.poolId group.poolPaid := by
        simp only [budgets, Budgets.mk.injEq]
        refine ⟨?_, rfl, rfl⟩
        simp only [State.emit, State.setPool, Function.update_self]
        omega
      rw [hsame]
      exact hg.drawing.ledger
    · simpa [State.emit, State.setPool] using hg.drawing.deposit_eq
    · simpa [State.emit, State.setPool] using hg.drawing.status_eq

/-- A good call is redeemed, and presents the demands of all its vouchers. -/
theorem Drawing.call {M : Multiset (Demand Address Address)} {call : RedeemCall}
    (h : Drawing s₀ s id 0 M) (hinv : Inv H s 0) (hwidths : Widths s)
    (hopen : (s₀.pools id).status = .opened) (hgood : call.Good H s₀ id) :
    ∃ s', redeemMany H call.tx s call.batches = .ok s' ∧
      Drawing s₀ s' id 0 ((call.vouchers.map (demand H) : List _) + M) := by
  obtain ⟨acc, hfold, hacc, hpaid, -⟩ := foldlM_ok (f := redeemBatch H call.tx)
    call.batches { state := s }
    (fun done acc =>
      Drawing s₀ acc.state id 0
        ((((RedeemCall.mk call.tx done).vouchers.map (demand H) : List _) : Multiset _) + M) ∧
      Inv H acc.state acc.totalPaid ∧ Widths acc.state)
    (by
      rintro done acc batch hbatch ⟨hacc, hpaid, hwidth⟩
      obtain ⟨acc', hstep, hacc'⟩ := hacc.batch hpaid hwidth hopen (hgood.pool batch hbatch)
        (hgood.capabilities batch hbatch) (hgood.vouchers batch hbatch)
      refine ⟨acc', hstep, ?_, hpaid.redeemBatch hstep, hwidth.redeemBatch hstep⟩
      have hperm : (((RedeemCall.mk call.tx (done ++ [batch])).vouchers.map (demand H) :
            List _) : Multiset _) + M =
          ((batch.vouchers.map fun v => demand H (call.tx.sender, v) : List _) : Multiset _) +
            ((((RedeemCall.mk call.tx done).vouchers.map (demand H) : List _) : Multiset _) +
              M) := by
        simp only [RedeemCall.vouchers, List.flatMap_append, List.flatMap_cons, List.flatMap_nil,
          List.append_nil, List.map_append, ← Multiset.coe_add, List.map_map]
        rw [add_assoc, add_left_comm]
        rfl
      rw [hperm]
      exact hacc')
    ⟨by simpa [RedeemCall.vouchers] using h, hinv, hwidths⟩
  unfold redeemMany
  rw [hfold]
  simp only [bind, Except.bind]
  split
  · exact ⟨_, rfl, hacc⟩
  · rename_i hpos
    rw [if_neg hgood.bound]
    unfold route
    obtain ⟨pulled, hpull, hle⟩ := hgood.router
      (if (call.tx.nodeIdOf call.tx.sender).2 then acc.totalBytes else 0) acc.totalPaid
      (Nat.pos_of_ne_zero hpos)
    have hfunded := hpaid.funded
    rw [hpull]
    simp only [if_pos (show pulled ≤ acc.totalPaid ∧ pulled ≤ acc.state.usdcBalance from
      ⟨hle, by omega⟩)]
    exact ⟨_, rfl, ⟨hacc.ledger, hacc.cap_eq, hacc.expiry_eq, hacc.deposit_eq, hacc.status_eq⟩⟩

/-! ## Whole runs of calls -/

/-- From any reachable state, calls that present the vouchers `M` of one open
pool, in any order and grouping, all succeed and end with one and the same
`totalRedeemed`. -/
theorem redeemAll_totalRedeemed {w : World} (hreach : Reachable H w)
    (hfree : CollisionFree H w.contract) (hopen : (w.contract.pools id).status = .opened)
    (M : Multiset (Address × LaneVoucher)) (calls : List RedeemCall) (hM : presented calls = M)
    (hgood : ∀ call ∈ calls, call.Good H w.contract id) :
    ∃ s', redeemAll H w.contract calls = .ok s' ∧
      (s'.pools id).totalRedeemed = (w.contract.pools id).totalRedeemed +
        min ((w.contract.pools id).deposit - (w.contract.pools id).totalRedeemed)
          (∑ signer, min
            ((w.contract.authorized id signer).cap - (w.contract.authorized id signer).spent)
            (∑ provider, (maxClaimed H M signer provider -
              (w.contract.watermark id signer provider).amount))) := by
  subst hM
  obtain ⟨s', hrun, hdrawing, hinv, -⟩ := foldlM_ok
    (f := fun s (call : RedeemCall) => redeemMany H call.tx s call.batches)
    calls w.contract
    (fun done s => Drawing w.contract s id 0 ((presented done).map (demand H)) ∧ Inv H s 0 ∧
      Widths s)
    (by
      rintro done s call hcall ⟨hs, hinv, hwidths⟩
      obtain ⟨s', hstep, hs'⟩ := hs.call hinv hwidths hopen (hgood call hcall)
      refine ⟨s', hstep, ?_, hinv.redeemMany hstep, hwidths.redeemMany hstep⟩
      have hperm : (presented (done ++ [call])).map (demand H) =
          ((call.vouchers.map (demand H) : List _) : Multiset _) +
            (presented done).map (demand H) := by
        simp only [presented, List.flatMap_append, List.flatMap_cons, List.flatMap_nil,
          List.append_nil, ← Multiset.coe_add, Multiset.map_add, Multiset.map_coe]
        rw [add_comm]
      rw [hperm]
      exact hs')
    ⟨⟨.refl _, fun _ => rfl, fun _ => rfl, rfl, rfl⟩, hreach.inv hfree, hreach.widths⟩
  refine ⟨s', hrun, ?_⟩
  have htotal := hdrawing.ledger.total
  simp only [peak_map_demand] at htotal
  have hle := (hinv.books id).redeemed_le
  have hle₀ := ((hreach.inv hfree).books id).redeemed_le
  have hdeposit := hdrawing.deposit_eq
  simp only [budgets] at htotal
  omega

/-! ## A sample pair of orders -/

/-- The sample batch's registration alone. -/
def sampleRegistration : PoolBatch where
  poolId := samplePoolId
  capabilities := sampleBatch.capabilities
  vouchers := []

/-- A second voucher on the sample lane, above the first. -/
def sampleVoucherAbove : LaneVoucher :=
  { sampleVoucher with cumulative := 40, r := 1 }

/-- One call of provider `2` on the sample pool. -/
def sampleCall (vouchers : List LaneVoucher) : RedeemCall where
  tx := sampleTx 2 (Eq.refl true)
  batches := [⟨samplePoolId, [], vouchers⟩]

/-- Two vouchers of the sample lane, the larger one first and in a call of its
own, end at the closed form. -/
theorem redeemAll_totalRedeemed_sample : ∃ s s' : State,
    (s.pools samplePoolId).totalRedeemed = 0 ∧
      redeemAll sampleCrypto s [sampleCall [sampleVoucherAbove], sampleCall [sampleVoucher]] =
        .ok s' ∧
      (s'.pools samplePoolId).totalRedeemed = 0 + min ((s.pools samplePoolId).deposit - 0)
        (∑ signer, min ((s.authorized samplePoolId signer).cap -
          (s.authorized samplePoolId signer).spent)
          (∑ provider, (maxClaimed sampleCrypto {(2, sampleVoucherAbove), (2, sampleVoucher)}
            signer provider - (s.watermark samplePoolId signer provider).amount))) := by
  have hrun : ∃ s, deploy 172800 1 0 5 = .ok s ∧
      ∃ s₁, exec sampleCrypto (sampleTx 1 (by decide)) s (.openPool 100) = .ok s₁ ∧
      ∃ s₂, exec sampleCrypto (sampleTx 2 (by decide)) s₁ (.redeemMany [sampleRegistration]) =
          .ok s₂ ∧
        s₂.ownerPoolNonce = Function.update (fun _ => 0) 1 1 ∧
        (s₂.pools samplePoolId).totalRedeemed = 0 ∧ (s₂.pools samplePoolId).status = .opened ∧
        s₂.authorized samplePoolId 3 = ⟨50, 1000, 0⟩ := by
    exact ⟨_, rfl, _, rfl, _, rfl, rfl, rfl, rfl, rfl⟩
  obtain ⟨s, hs, s₁, hs₁, s₂, hs₂, hnonce, hredeemed, hstatus, hauth⟩ := hrun
  have hreach : Reachable sampleCrypto ⟨10, s₂⟩ :=
    .step (.step (.deployed _ _ _ _ hs) (.call _ _ (Nat.le_add_left 5 5) hs₁))
      (.call (sampleTx 2 (by decide)) _ le_rfl hs₂)
  have hfree : CollisionFree sampleCrypto s₂ := collisionFree_of_single hnonce
  have hgood : ∀ v, v = sampleVoucher ∨ v = sampleVoucherAbove →
      (sampleCall [v]).Good sampleCrypto s₂ samplePoolId := by
    intro v hv
    refine ⟨by simp [sampleCall], by simp [sampleCall], ?_, by simp [sampleCall, sampleTx], ?_⟩
    · intro batch hbatch u hu
      obtain rfl : batch = ⟨samplePoolId, [], [v]⟩ := by simpa [sampleCall] using hbatch
      obtain rfl : u = v := by simpa using hu
      obtain rfl | rfl := hv
      · refine ⟨?_, ?_, ⟨30, 1048576, 0⟩, rfl, rfl⟩
        · rw [show sampleVoucher.signer = 3 from rfl, hauth]
          decide
        · rw [show sampleVoucher.signer = 3 from rfl, hauth]
          decide
      · refine ⟨?_, ?_, ⟨40, 1048576, 0⟩, rfl, rfl⟩
        · rw [show sampleVoucherAbove.signer = 3 from rfl, hauth]
          decide
        · rw [show sampleVoucherAbove.signer = 3 from rfl, hauth]
          decide
    · exact fun bytesDelta amountDelta _ => ⟨amountDelta, rfl, le_rfl⟩
  obtain ⟨s', hcalls, htotal⟩ := redeemAll_totalRedeemed hreach hfree hstatus
    {(2, sampleVoucherAbove), (2, sampleVoucher)}
    [sampleCall [sampleVoucherAbove], sampleCall [sampleVoucher]] rfl
    (by
      intro call hcall
      simp only [List.mem_cons, List.not_mem_nil, or_false] at hcall
      obtain rfl | rfl := hcall
      · exact hgood _ (.inr rfl)
      · exact hgood _ (.inl rfl))
  simp only [hredeemed] at htotal
  exact ⟨s₂, s', hredeemed, hcalls, htotal⟩

end Decdn.PaymentPool
