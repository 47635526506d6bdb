import Decdn.CapacityBond.SlashingSpec
import Decdn.Foundations.FiniteMaps

/-!
# Solvency of CapacityBond

Bond sits with its operator, in the unbonding queue or in the escrow of a slash
record.  The balance covers all three, the escrow total is the sum over the records
that still wait for their resolution, and the ledger of payments is what the
resolution events and the withdrawals in the log say, each once.

Main results:

- Theorem `exec_sameBooks`: all other calls leave the books alone.
- Theorem `Inv.exec`: every call keeps the invariant.
- Theorem `Inv.escrow_le`: a waiting record's amount is in the escrow total.
- Theorem `solvent_single_payout`: solvency and single payout in every reachable state.
-/

namespace Decdn.CapacityBond

open Finset

variable {H : Wiring} {tx : Tx} {s s' : State}

/-! ## The books -/

/-- The record's escrow has not left the contract. -/
def SlashStatus.Waiting : SlashStatus → Prop
  | .escrowed | .appealOpen => True
  | _ => False

instance : DecidablePred SlashStatus.Waiting
  | .none | .upheld | .reversed => isFalse id
  | .escrowed | .appealOpen => isTrue trivial

/-- How often the escrow of a record in this status has left the contract. -/
def SlashStatus.resolutions : SlashStatus → Nat
  | .upheld | .reversed => 1
  | _ => 0

/-- What a record holds in escrow. -/
def SlashRecord.escrow (r : SlashRecord) : Nat :=
  if r.status.Waiting then r.slashAmount else 0

/-- All that the contract owes. -/
noncomputable def State.owed (s : State) : Nat :=
  ∑ a, s.activeBond a + ∑ a, (s.unbondingOf a).amount + s.escrowedTotal

/-- The payments an event goes with. -/
def eventPayments (records : Nat → SlashRecord) : Event → List Payment
  | .unbonded operator amount => paid (.transfer operator amount)
  | .slashUpheld slashId _ challengerShare burnShare =>
    paid (.transfer (records slashId).challenger challengerShare) ++ paid (.burn burnShare)
  | .slashReversed _ operator refund => paid (.transfer operator refund)
  | _ => []

/-- The event resolves `slashId`: it pays the record's escrow out. -/
def Event.resolves (slashId : Nat) : Event → Bool
  | .slashUpheld id _ _ _ => decide (id = slashId)
  | .slashReversed id _ _ => decide (id = slashId)
  | _ => false

/-- A resolution event agrees with the record it resolves. -/
def Event.Faithful (records : Nat → SlashRecord) : Event → Prop
  | .slashUpheld id _ challengerShare burnShare =>
    (records id).status = .upheld ∧ challengerShare + burnShare = (records id).slashAmount
  | .slashReversed id operator refund =>
    (records id).status = .reversed ∧ operator = (records id).operator ∧
      refund = (records id).slashAmount
  | _ => True

/-- The invariant of the contract's money. -/
structure Inv (s : State) : Prop where
  solvent : s.owed ≤ s.tokenBalance
  escrow : s.escrowedTotal = ∑ id ∈ range s.slashCounter, (s.slashRecords id).escrow
  counter : s.slashCounter = ∑ a, s.lifetimeOffenseCount a
  counts : ∀ a, s.lifetimeOffenseCount a ≤ u32Max
  fresh : ∀ id, s.slashCounter ≤ id → s.slashRecords id = {}
  minted : ∀ id, id < s.slashCounter → (s.slashRecords id).status ≠ .none
  ledger : s.payments = s.log.flatMap (eventPayments s.slashRecords)
  faithful : ∀ e ∈ s.log, Event.Faithful s.slashRecords e
  once : ∀ id, s.log.countP (Event.resolves id) =
    (s.slashRecords id).status.resolutions

/-! ## Calls that leave the books alone -/

/-- The two states agree on all money, and only quiet events were emitted. -/
structure SameBooks (s s' : State) : Prop where
  activeBond : s'.activeBond = s.activeBond
  unbondingOf : s'.unbondingOf = s.unbondingOf
  lifetimeOffenseCount : s'.lifetimeOffenseCount = s.lifetimeOffenseCount
  slashCounter : s'.slashCounter = s.slashCounter
  slashRecords : s'.slashRecords = s.slashRecords
  escrowedTotal : s'.escrowedTotal = s.escrowedTotal
  tokenBalance : s.tokenBalance ≤ s'.tokenBalance
  payments : s'.payments = s.payments
  log : ∃ events, (∀ e ∈ events, Event.Quiet e) ∧ s'.log = s.log ++ events

/-- The calls that move bond or escrow. -/
def Call.MovesMoney : Call → Prop
  | .bond _ | .requestUnbond _ | .unbond | .slash .. | .finalizeUnappealedSlash _
  | .markAppealOpen _ | .settleAppealUpheld _ | .settleAppealGranted _ => True
  | _ => False

/-- A quiet event pays nothing. -/
theorem eventPayments_quiet (records : Nat → SlashRecord) {e : Event} (h : e.Quiet) :
    eventPayments records e = [] := by
  cases e <;> first | rfl | exact absurd h id

theorem not_resolves_of_quiet {e : Event} (h : e.Quiet) (slashId : Nat) :
    Event.resolves slashId e = false := by
  cases e <;> first | rfl | exact absurd h id

theorem faithful_of_quiet (records : Nat → SlashRecord) {e : Event} (h : e.Quiet) :
    Event.Faithful records e := by
  cases e <;> trivial

/-- Quiet events add nothing to the ledger. -/
theorem flatMap_quiet (records : Nat → SlashRecord) {events : List Event}
    (h : ∀ e ∈ events, Event.Quiet e) : events.flatMap (eventPayments records) = [] := by
  rw [List.flatMap_eq_nil_iff]
  intro e he
  exact eventPayments_quiet records (h e he)

/-- Quiet events resolve nothing. -/
theorem countP_quiet {events : List Event} (h : ∀ e ∈ events, Event.Quiet e) (slashId : Nat) :
    events.countP (Event.resolves slashId) = 0 := by
  rw [List.countP_eq_zero]
  intro e he
  rw [not_resolves_of_quiet (h e he) slashId]
  exact Bool.false_ne_true

/-- A state that differs only off the books, and by quiet events. -/
theorem SameBooks.of_quiet {events : List Event} (hquiet : ∀ e ∈ events, Event.Quiet e)
    (hlog : s'.log = s.log ++ events) (hactive : s'.activeBond = s.activeBond)
    (hunbonding : s'.unbondingOf = s.unbondingOf)
    (hoffense : s'.lifetimeOffenseCount = s.lifetimeOffenseCount)
    (hcounter : s'.slashCounter = s.slashCounter) (hrecords : s'.slashRecords = s.slashRecords)
    (hescrow : s'.escrowedTotal = s.escrowedTotal) (hbalance : s'.tokenBalance = s.tokenBalance)
    (hpayments : s'.payments = s.payments) : SameBooks s s' :=
  ⟨hactive, hunbonding, hoffense, hcounter, hrecords, hescrow, Nat.le_of_eq hbalance.symm,
    hpayments, events, hquiet, hlog⟩

/-- All other calls leave the books alone. -/
theorem exec_sameBooks {c : Call} (hc : ¬ c.MovesMoney) (h : exec H tx s c = .ok s') :
    SameBooks s s' := by
  have hsetter : c.IsSetter → SameBooks s s' := by
    intro hset
    rcases setter_cases hset h with ⟨p, e, rfl, hquiet⟩
    exact .of_quiet (by simpa using hquiet) rfl rfl rfl rfl rfl rfl rfl rfl rfl
  cases c with
  | bond _ => exact absurd trivial hc
  | requestUnbond _ => exact absurd trivial hc
  | unbond => exact absurd trivial hc
  | slash _ _ _ _ => exact absurd trivial hc
  | finalizeUnappealedSlash _ => exact absurd trivial hc
  | markAppealOpen _ => exact absurd trivial hc
  | settleAppealUpheld _ => exact absurd trivial hc
  | settleAppealGranted _ => exact absurd trivial hc
  | declareMbps mbps =>
    rcases declareMbps_cases h with ⟨-, history, -, rfl⟩
    exact .of_quiet (by simp [Event.Quiet]) rfl rfl rfl rfl rfl rfl rfl rfl rfl
  | updateRegion newRegion =>
    rcases updateRegion_cases h with ⟨-, -, -, -, rfl⟩
    exact .of_quiet (by simp [Event.Quiet]) rfl rfl rfl rfl rfl rfl rfl rfl rfl
  | registerNode nodeId multiaddrs regionHint termsHash bindingSignature ed25519Signature =>
    rcases registerNode_cases h with ⟨-, -, -, -, -, -, -, -, -, -, rfl⟩
    refine .of_quiet ?_ (by rw [List.append_assoc, List.append_assoc]) rfl rfl rfl rfl rfl rfl rfl
      rfl
    simp [Event.Quiet]
  | deregisterNode =>
    rcases deregisterNode_cases h with ⟨-, addrs, index, history, events, -, -, hevents, rfl⟩
    refine .of_quiet ?_ rfl rfl rfl rfl rfl rfl rfl rfl rfl
    rcases hevents with rfl | rfl <;> simp [Event.Quiet]
  | bindNodeId nodeId bindingSignature ed25519Signature =>
    rcases bindNodeId_cases h with ⟨-, -, -, toAddress, nonces, -, rfl⟩
    exact .of_quiet (by simp [Event.Quiet]) rfl rfl rfl rfl rfl rfl rfl rfl rfl
  | reclaimNodeId nodeId ed25519Signature =>
    rcases reclaimNodeId_cases h with ⟨-, -, -, holder, addrs, index, nodes, events, -, hcases, rfl⟩
    refine .of_quiet ?_ (List.append_assoc _ _ _) rfl rfl rfl rfl rfl rfl rfl rfl
    rcases hcases with ⟨-, -, -, -, rfl⟩ | ⟨-, -, -, -, -, rfl⟩ | ⟨-, -, -, -, rfl⟩ <;>
      simp [Event.Quiet]
  | updateMultiaddrs multiaddrs =>
    rcases updateMultiaddrs_cases h with rfl
    exact .of_quiet (by simp [Event.Quiet]) rfl rfl rfl rfl rfl rfl rfl rfl rfl
  | creditPauseTime delta =>
    rcases creditPauseTime_cases h with ⟨-, rfl⟩
    exact .of_quiet (by simp) (List.append_nil _).symm rfl rfl rfl rfl rfl rfl rfl rfl
  | ejectNode operator =>
    rcases ejectNode_cases h with ⟨-, rfl⟩ | ⟨-, nodes, nonces, addrs, index, events, -, hquiet, rfl⟩
    · exact .of_quiet (by simp) (List.append_nil _).symm rfl rfl rfl rfl rfl rfl rfl rfl
    · exact .of_quiet hquiet rfl rfl rfl rfl rfl rfl rfl rfl rfl
  | unEjectNode operator =>
    rcases unEjectNode_cases h with rfl | rfl
    · exact .of_quiet (by simp) (List.append_nil _).symm rfl rfl rfl rfl rfl rfl rfl rfl
    · exact .of_quiet (by simp [Event.Quiet]) rfl rfl rfl rfl rfl rfl rfl rfl rfl
  | pause =>
    rcases pause_cases h with ⟨-, rfl⟩
    exact .of_quiet (by simp) (List.append_nil _).symm rfl rfl rfl rfl rfl rfl rfl rfl
  | unpause =>
    rcases unpause_cases h with ⟨-, -, rfl⟩
    exact .of_quiet (by simp) (List.append_nil _).symm rfl rfl rfl rfl rfl rfl rfl rfl
  | _ => exact hsetter trivial

/-! ## Keeping the invariant -/

/-- The record's escrow has left the contract. -/
def SlashStatus.Settled (status : SlashStatus) : Prop :=
  status = .upheld ∨ status = .reversed

instance : DecidablePred SlashStatus.Settled :=
  fun status => inferInstanceAs (Decidable (status = .upheld ∨ status = .reversed))

theorem not_settled_of_waiting {status : SlashStatus} (h : status.Waiting) : ¬ status.Settled := by
  cases status <;> simp_all [SlashStatus.Waiting, SlashStatus.Settled]

/-- A settled record was minted. -/
theorem Inv.lt_of_settled (hinv : Inv s) {id : Nat} (h : (s.slashRecords id).status.Settled) :
    id < s.slashCounter := by
  by_contra hge
  rw [hinv.fresh id (not_lt.mp hge)] at h
  rcases h with h | h <;> cases h

/-- Faithful events pay the same under records that keep the settled ones. -/
theorem eventPayments_keep {records records' : Nat → SlashRecord} {e : Event}
    (hkeep : ∀ id, (records id).status.Settled → records' id = records id)
    (h : e.Faithful records) : eventPayments records' e = eventPayments records e := by
  cases e with
  | slashUpheld id viaAppeal challengerShare burnShare =>
    simp only [eventPayments, hkeep id (.inl h.1)]
  | _ => rfl

/-- Faithful events stay faithful under records that keep the settled ones. -/
theorem faithful_keep {records records' : Nat → SlashRecord} {e : Event}
    (hkeep : ∀ id, (records id).status.Settled → records' id = records id)
    (h : e.Faithful records) : e.Faithful records' := by
  cases e with
  | slashUpheld id viaAppeal challengerShare burnShare =>
    simpa only [Event.Faithful, hkeep id (.inl h.1)] using h
  | slashReversed id operator refund =>
    simpa only [Event.Faithful, hkeep id (.inr h.1)] using h
  | _ => trivial

/-- The ledger side of the invariant after more events, under records that keep the
settled ones. -/
theorem Inv.ledger_append (hinv : Inv s) {records' : Nat → SlashRecord} {events : List Event}
    (hkeep : ∀ id, (s.slashRecords id).status.Settled → records' id = s.slashRecords id) :
    (s.log ++ events).flatMap (eventPayments records') =
      s.payments ++ events.flatMap (eventPayments records') := by
  have hold : s.log.flatMap (eventPayments records') = s.payments := by
    rw [hinv.ledger]
    apply List.flatMap_congr
    intro e he
    exact eventPayments_keep hkeep (hinv.faithful e he)
  rw [List.flatMap_append, hold]

theorem Inv.faithful_append (hinv : Inv s) {records' : Nat → SlashRecord} {events : List Event}
    (hkeep : ∀ id, (s.slashRecords id).status.Settled → records' id = s.slashRecords id)
    (hevents : ∀ e ∈ events, Event.Faithful records' e) :
    ∀ e ∈ s.log ++ events, Event.Faithful records' e := by
  intro e he
  rcases List.mem_append.1 he with he | he
  · exact faithful_keep hkeep (hinv.faithful e he)
  · exact hevents e he

/-- A step that leaves the records alone and emits events that resolve none of them. -/
theorem Inv.of_same_records (hinv : Inv s) {events : List Event}
    (hrecords : s'.slashRecords = s.slashRecords) (hcounter : s'.slashCounter = s.slashCounter)
    (hoffense : s'.lifetimeOffenseCount = s.lifetimeOffenseCount)
    (hescrow : s'.escrowedTotal = s.escrowedTotal) (hlog : s'.log = s.log ++ events)
    (hpayments : s'.payments = s.payments ++ events.flatMap (eventPayments s.slashRecords))
    (hfaithful : ∀ e ∈ events, Event.Faithful s.slashRecords e)
    (hnone : ∀ id, ∀ e ∈ events, Event.resolves id e = false)
    (hsolvent : s'.owed ≤ s'.tokenBalance) : Inv s' where
  solvent := hsolvent
  escrow := by rw [hescrow, hcounter, hrecords]; exact hinv.escrow
  counter := by rw [hcounter, hoffense]; exact hinv.counter
  counts := by rw [hoffense]; exact hinv.counts
  fresh := by rw [hcounter, hrecords]; exact hinv.fresh
  minted := by rw [hcounter, hrecords]; exact hinv.minted
  ledger := by
    rw [hpayments, hlog, hrecords]
    exact (hinv.ledger_append fun _ _ => rfl).symm
  faithful := by
    rw [hlog, hrecords]
    exact hinv.faithful_append (fun _ _ => rfl) hfaithful
  once := by
    intro id
    have hzero : events.countP (Event.resolves id) = 0 := by
      rw [List.countP_eq_zero]
      intro e he
      rw [hnone id e he]
      exact Bool.false_ne_true
    rw [hlog, hrecords, List.countP_append, hzero]
    exact hinv.once id

/-- A step that leaves the books alone keeps the invariant. -/
theorem Inv.frame (hinv : Inv s) (h : SameBooks s s') : Inv s' := by
  rcases h.log with ⟨events, hquiet, hlog⟩
  apply hinv.of_same_records h.slashRecords h.slashCounter h.lifetimeOffenseCount h.escrowedTotal
    hlog
  · rw [h.payments, flatMap_quiet _ hquiet, List.append_nil]
  · exact fun e he => faithful_of_quiet _ (hquiet e he)
  · exact fun id e he => not_resolves_of_quiet (hquiet e he) id
  · have howed : s'.owed = s.owed := by
      unfold State.owed
      rw [h.activeBond, h.unbondingOf, h.escrowedTotal]
    have hsolvent := hinv.solvent
    have hbalance := h.tokenBalance
    omega

/-! ## Bonding -/

/-- Changing one operator's active bond moves what is owed by the difference. -/
theorem sum_activeBond_update (s : State) (operator : Address) (v : Nat) :
    ∑ a, Function.update s.activeBond operator v a + s.activeBond operator =
      ∑ a, s.activeBond a + v :=
  sum_update_add s.activeBond id operator v

theorem sum_unbonding_update (s : State) (operator : Address) (req : UnbondingRequest) :
    ∑ a, (Function.update s.unbondingOf operator req a).amount + (s.unbondingOf operator).amount =
      ∑ a, (s.unbondingOf a).amount + req.amount :=
  sum_update_add s.unbondingOf UnbondingRequest.amount operator req

theorem Inv.bond (hinv : Inv s) {amount : Nat} (h : bond tx s amount = .ok s') : Inv s' := by
  rcases bond_cases h with ⟨-, -, -, rfl⟩
  have hquiet : ∀ e ∈ (if Reinstates tx s (s.activeBond tx.sender + amount) then
      [Event.reinstated tx.sender] else []) ++
      [.bonded tx.sender amount (s.activeBond tx.sender + amount)], Event.Quiet e := by
    split <;> simp [Event.Quiet]
  refine hinv.of_same_records rfl rfl rfl rfl (List.append_assoc _ _ _) ?_ ?_ ?_ ?_
  · rw [flatMap_quiet _ hquiet, List.append_nil]
  · exact fun e he => faithful_of_quiet _ (hquiet e he)
  · exact fun id e he => not_resolves_of_quiet (hquiet e he) id
  · have hsum := sum_activeBond_update s tx.sender (s.activeBond tx.sender + amount)
    have hsolvent := hinv.solvent
    unfold State.owed at hsolvent ⊢
    dsimp only
    omega

theorem Inv.requestUnbond (hinv : Inv s) {amount : Nat}
    (h : requestUnbond H tx s amount = .ok s') : Inv s' := by
  rcases requestUnbond_cases h with ⟨hle, hidle, -, rfl⟩
  refine hinv.of_same_records rfl rfl rfl rfl rfl ?_ ?_ ?_ ?_
  · simp [eventPayments]
  · simp [Event.Faithful]
  · simp [Event.resolves]
  · have hsum := sum_activeBond_update s tx.sender (s.activeBond tx.sender - amount)
    have hqueue := sum_unbonding_update s tx.sender
      ⟨amount, tx.timestamp + s.params.unbondingPeriod⟩
    have hsolvent := hinv.solvent
    unfold State.owed at hsolvent ⊢
    dsimp only at hqueue ⊢
    omega

theorem Inv.unbond (hinv : Inv s) (h : unbond tx s = .ok s') : Inv s' := by
  rcases unbond_cases h with ⟨hpos, -, hbalance, rfl⟩
  refine hinv.of_same_records rfl rfl rfl rfl rfl ?_ ?_ ?_ ?_
  · simp [eventPayments, paid, Payment.amount, hpos]
  · simp [Event.Faithful]
  · simp [Event.resolves]
  · have hqueue := sum_unbonding_update s tx.sender {}
    have hsolvent := hinv.solvent
    unfold State.owed at hsolvent ⊢
    dsimp only at hqueue ⊢
    omega

/-! ## Slashing -/

theorem card_address : Fintype.card Address = 2 ^ 160 := by
  rw [Fintype.card_congr (BitVec.equivFin (m := 160)).toEquiv, Fintype.card_fin]

/-- The offense counts are 32-bit, so their total stays far below 256 bits. -/
theorem sum_counts_lt {counts : Address → Nat} (h : ∀ a, counts a ≤ u32Max) :
    ∑ a, counts a < 2 ^ 256 := by
  calc ∑ a, counts a ≤ ∑ _a : Address, u32Max := Finset.sum_le_sum fun a _ => h a
    _ = 2 ^ 160 * u32Max := by
      rw [Finset.sum_const, Finset.card_univ, card_address, smul_eq_mul]
    _ < 2 ^ 256 := by
      unfold u32Max
      omega

/-- The counter never wraps: it counts the offenses. -/
theorem Inv.counter_succ (hinv : Inv s) {operator : Address}
    (hwidth : s.lifetimeOffenseCount operator + 1 ≤ u32Max) :
    (s.slashCounter + 1) % 2 ^ 256 = s.slashCounter + 1 ∧
    s.slashCounter + 1 = ∑ a, Function.update s.lifetimeOffenseCount operator
      (s.lifetimeOffenseCount operator + 1) a ∧
    ∀ a, Function.update s.lifetimeOffenseCount operator
      (s.lifetimeOffenseCount operator + 1) a ≤ u32Max := by
  have hcounts : ∀ a, Function.update s.lifetimeOffenseCount operator
      (s.lifetimeOffenseCount operator + 1) a ≤ u32Max := by
    intro a
    rcases eq_or_ne a operator with rfl | hne
    · rwa [Function.update_self]
    · rw [Function.update_of_ne hne]
      exact hinv.counts a
  have hsum : ∑ a, Function.update s.lifetimeOffenseCount operator
      (s.lifetimeOffenseCount operator + 1) a + s.lifetimeOffenseCount operator =
      ∑ a, s.lifetimeOffenseCount a + (s.lifetimeOffenseCount operator + 1) :=
    sum_update_add s.lifetimeOffenseCount id operator _
  have hcounter := hinv.counter
  have hlt := sum_counts_lt hcounts
  refine ⟨Nat.mod_eq_of_lt (by omega), by omega, hcounts⟩

/-- A slash books exactly what it takes from the operator's two balances. -/
theorem Inv.slash (hinv : Inv s) {operator challenger : Address} {offenseType : UInt8}
    {evidenceHash : Bytes32} {slashId amount : Nat}
    (h : slash tx s operator challenger offenseType evidenceHash = .ok (s', slashId, amount)) :
    Inv s' := by
  rcases slash_cases h with ⟨-, -, -, -, hwidth, -, r, hr, -, -, events, tail, ejected, nodes,
    nonces, addrs, index, hquiet, htail, -, rfl⟩
  rcases reduceAtTier_cases hr with ⟨htotal, hactive, hunbonding, -⟩
  rcases hinv.counter_succ hwidth with ⟨hwrap, hcounter, hcounts⟩
  have hkeep : ∀ id, (s.slashRecords id).status.Settled →
      Function.update s.slashRecords s.slashCounter (mintedRecord tx operator challenger
        r.slashAmount offenseType evidenceHash) id = s.slashRecords id := by
    intro id hid
    exact Function.update_of_ne (Nat.ne_of_lt (hinv.lt_of_settled hid)) _ _
  have hall : ∀ e ∈ events ++ tail, Event.Quiet e := by
    intro e he
    rcases List.mem_append.1 he with he | he
    · exact hquiet e he
    · exact htail e he
  refine ⟨?_, ?_, ?_, hcounts, ?_, ?_, ?_, ?_, ?_⟩
  · have hsum := sum_activeBond_update s operator r.newActive
    have hqueue := sum_unbonding_update s operator
      { s.unbondingOf operator with amount := r.newUnbonding }
    have hsolvent := hinv.solvent
    simp only [State.owed, slashedState] at hsolvent hqueue ⊢
    omega
  · simp only [slashedState]
    rw [hwrap, Finset.sum_range_succ, Function.update_self, hinv.escrow]
    congr 1
    apply Finset.sum_congr rfl
    intro id hid
    rw [Function.update_of_ne (Nat.ne_of_lt (Finset.mem_range.1 hid))]
  · simp only [slashedState]
    rw [hwrap, hcounter]
  · intro id hid
    simp only [slashedState] at hid ⊢
    rw [hwrap] at hid
    rw [Function.update_of_ne (by omega)]
    exact hinv.fresh id (by omega)
  · intro id hid
    simp only [slashedState] at hid ⊢
    rw [hwrap] at hid
    rcases eq_or_ne id s.slashCounter with rfl | hne
    · rw [Function.update_self]
      simp [mintedRecord]
    · rw [Function.update_of_ne hne]
      exact hinv.minted id (by omega)
  · simp only [slashedState, List.append_assoc]
    rw [hinv.ledger_append hkeep, flatMap_quiet _ hall, List.append_nil]
  · simp only [slashedState, List.append_assoc]
    exact hinv.faithful_append hkeep fun e he => faithful_of_quiet _ (hall e he)
  · intro id
    simp only [slashedState, List.append_assoc]
    rw [List.countP_append, countP_quiet hall, Nat.add_zero, hinv.once]
    rcases eq_or_ne id s.slashCounter with rfl | hne
    · rw [Function.update_self, hinv.fresh _ (Nat.le_refl _)]
      rfl
    · rw [Function.update_of_ne hne]

/-! ## Resolution -/

/-- A record of the escrow total leaves at most that total. -/
theorem Inv.escrow_le (hinv : Inv s) {id : Nat} (h : (s.slashRecords id).status.Waiting) :
    id < s.slashCounter ∧ (s.slashRecords id).slashAmount ≤ s.escrowedTotal := by
  have hid : id < s.slashCounter := by
    by_contra hge
    rw [hinv.fresh id (not_lt.mp hge)] at h
    exact h
  refine ⟨hid, ?_⟩
  have hle : (s.slashRecords id).escrow ≤ s.escrowedTotal := by
    rw [hinv.escrow]
    exact Finset.single_le_sum (f := fun i => (s.slashRecords i).escrow) (fun _ _ => Nat.zero_le _)
      (Finset.mem_range.2 hid)
  simpa only [SlashRecord.escrow, if_pos h] using hle

theorem setSlashStatus_self (s : State) (slashId : Nat) (status : SlashStatus) :
    (s.setSlashStatus slashId status).slashRecords slashId =
      { s.slashRecords slashId with status := status } :=
  Function.update_self ..

theorem setSlashStatus_of_ne (s : State) {slashId id : Nat} (h : id ≠ slashId)
    (status : SlashStatus) :
    (s.setSlashStatus slashId status).slashRecords id = s.slashRecords id :=
  Function.update_of_ne h ..

/-- What a waiting record gives up when it moves to `status`. -/
def released (r : SlashRecord) (status : SlashStatus) : Nat :=
  if status.Waiting then 0 else r.slashAmount

/-- A waiting record moves to another status, the escrow it releases leaves the contract, and
the events name the record if and only if it is released. -/
theorem Inv.resolve (hinv : Inv s) {slashId : Nat} (status : SlashStatus) {events : List Event}
    (hwait : (s.slashRecords slashId).status.Waiting) (hstatus : status ≠ .none)
    (hrecords : s'.slashRecords = (s.setSlashStatus slashId status).slashRecords)
    (hcounter : s'.slashCounter = s.slashCounter)
    (hoffense : s'.lifetimeOffenseCount = s.lifetimeOffenseCount)
    (hactive : s'.activeBond = s.activeBond) (hunbonding : s'.unbondingOf = s.unbondingOf)
    (hescrow : s'.escrowedTotal = s.escrowedTotal - released (s.slashRecords slashId) status)
    (hbalance : s'.tokenBalance = s.tokenBalance - released (s.slashRecords slashId) status)
    (hlog : s'.log = s.log ++ events)
    (hpayments : s'.payments = s.payments ++ events.flatMap (eventPayments s'.slashRecords))
    (hfaithful : ∀ e ∈ events, Event.Faithful s'.slashRecords e)
    (honce : ∀ id, events.countP (Event.resolves id) =
      if id = slashId then status.resolutions else 0) : Inv s' := by
  rcases hinv.escrow_le hwait with ⟨hid, hamount⟩
  have hself : s'.slashRecords slashId = { s.slashRecords slashId with status := status } := by
    rw [hrecords, setSlashStatus_self]
  have hother : ∀ id, id ≠ slashId → s'.slashRecords id = s.slashRecords id := by
    intro id hne
    rw [hrecords, setSlashStatus_of_ne s hne]
  have hkeep : ∀ id, (s.slashRecords id).status.Settled →
      s'.slashRecords id = s.slashRecords id := by
    intro id hsettled
    apply hother
    rintro rfl
    exact not_settled_of_waiting hwait hsettled
  have hle : released (s.slashRecords slashId) status ≤ s.escrowedTotal := by
    unfold released
    split
    · exact Nat.zero_le _
    · exact hamount
  refine ⟨?_, ?_, ?_, ?_, ?_, ?_, ?_, ?_, ?_⟩
  · have hsolvent := hinv.solvent
    unfold State.owed at hsolvent ⊢
    rw [hactive, hunbonding, hescrow, hbalance]
    omega
  · have hsum : ∑ id ∈ range s.slashCounter, (s'.slashRecords id).escrow +
        (s.slashRecords slashId).escrow =
        ∑ id ∈ range s.slashCounter, (s.slashRecords id).escrow +
        (s'.slashRecords slashId).escrow := by
      apply sum_change_on (Finset.mem_range.2 hid)
      intro id _ hne
      rw [hother id hne]
    have hbefore : (s.slashRecords slashId).escrow = (s.slashRecords slashId).slashAmount :=
      if_pos hwait
    have hafter : (s'.slashRecords slashId).escrow + released (s.slashRecords slashId) status =
        (s.slashRecords slashId).slashAmount := by
      rw [hself]
      unfold released SlashRecord.escrow
      by_cases hstill : status.Waiting
      · rw [if_pos hstill, if_pos hstill, Nat.add_zero]
      · rw [if_neg hstill, if_neg hstill, Nat.zero_add]
    have htotal := hinv.escrow
    rw [hcounter, hescrow]
    omega
  · rw [hcounter, hoffense]
    exact hinv.counter
  · rw [hoffense]
    exact hinv.counts
  · intro id hge
    rw [hcounter] at hge
    rw [hother id (by omega)]
    exact hinv.fresh id hge
  · intro id hlt
    rw [hcounter] at hlt
    rcases eq_or_ne id slashId with rfl | hne
    · rw [hself]
      exact hstatus
    · rw [hother id hne]
      exact hinv.minted id hlt
  · rw [hpayments, hlog, hinv.ledger_append hkeep]
  · rw [hlog]
    exact hinv.faithful_append hkeep hfaithful
  · intro id
    rw [hlog, List.countP_append, hinv.once, honce]
    rcases eq_or_ne id slashId with rfl | hne
    · have hzero : (s.slashRecords id).status.resolutions = 0 := by
        generalize (s.slashRecords id).status = status at hwait
        cases status <;> first | rfl | exact hwait.elim
      rw [if_pos rfl, hzero, hself, Nat.zero_add]
    · rw [if_neg hne, hother id hne, Nat.add_zero]

/-- A distribution pays the whole escrow to the challenger and the burn. -/
theorem Inv.distribute (hinv : Inv s) {slashId : Nat} (viaAppeal : Bool)
    (hwait : (s.slashRecords slashId).status.Waiting) :
    Inv (distributedState s slashId viaAppeal) := by
  refine hinv.resolve .upheld hwait (by simp) rfl rfl rfl rfl rfl rfl rfl rfl ?_ ?_ ?_
  · simp [distributedState, State.setSlashStatus, eventPayments]
  · have hshare := challengerShare_le (s.slashRecords slashId).slashAmount
    simp only [distributedState, State.setSlashStatus, List.mem_singleton, forall_eq,
      Event.Faithful, Function.update_self, true_and]
    omega
  · intro id
    rcases eq_or_ne id slashId with rfl | hne
    · simp [Event.resolves, SlashStatus.resolutions]
    · simp [Event.resolves, hne, hne.symm]

theorem Inv.finalizeUnappealedSlash (hinv : Inv s) {slashId : Nat}
    (h : finalizeUnappealedSlash tx s slashId = .ok s') : Inv s' := by
  rcases finalizeUnappealedSlash_cases h with ⟨-, -, hstatus, -, -, -, rfl⟩
  exact hinv.distribute false (by rw [hstatus]; trivial)

theorem Inv.settleAppealUpheld (hinv : Inv s) {slashId : Nat}
    (h : settleAppealUpheld tx s slashId = .ok s') : Inv s' := by
  rcases settleAppealUpheld_cases h with ⟨-, -, -, hstatus, -, -, rfl⟩
  exact hinv.distribute true (by rw [hstatus]; trivial)

theorem Inv.markAppealOpen (hinv : Inv s) {slashId : Nat}
    (h : markAppealOpen tx s slashId = .ok s') : Inv s' := by
  rcases markAppealOpen_cases h with ⟨-, -, -, hstatus, -, rfl⟩
  refine hinv.resolve .appealOpen (by rw [hstatus]; trivial) (by simp) rfl rfl rfl rfl
    rfl rfl rfl rfl ?_ ?_ ?_
  · simp [State.setSlashStatus, eventPayments]
  · simp [Event.Faithful]
  · simp [Event.resolves, SlashStatus.resolutions]

theorem Inv.settleAppealGranted (hinv : Inv s) {slashId : Nat}
    (h : settleAppealGranted tx s slashId = .ok s') : Inv s' := by
  rcases settleAppealGranted_cases h with ⟨-, -, -, hstatus, -, -, rfl⟩
  refine hinv.resolve .reversed (by rw [hstatus]; trivial) (by simp) rfl rfl rfl rfl
    rfl rfl rfl rfl ?_ ?_ ?_
  · simp [State.setSlashStatus, eventPayments]
  · simp [Event.Faithful, State.setSlashStatus]
  · intro id
    rcases eq_or_ne id slashId with rfl | hne
    · simp [Event.resolves, SlashStatus.resolutions]
    · simp [Event.resolves, hne, hne.symm]

/-! ## Runs -/

/-- Every call keeps the invariant. -/
theorem Inv.exec (hinv : Inv s) {c : Call} (h : exec H tx s c = .ok s') : Inv s' := by
  cases c with
  | bond amount => exact hinv.bond h
  | requestUnbond amount => exact hinv.requestUnbond h
  | unbond => exact hinv.unbond h
  | slash operator challenger offenseType evidenceHash =>
    rcases exec_slash_cases h with ⟨slashId, amount, hslash⟩
    exact hinv.slash hslash
  | finalizeUnappealedSlash slashId => exact hinv.finalizeUnappealedSlash h
  | markAppealOpen slashId => exact hinv.markAppealOpen h
  | settleAppealUpheld slashId => exact hinv.settleAppealUpheld h
  | settleAppealGranted slashId => exact hinv.settleAppealGranted h
  | _ => exact hinv.frame (exec_sameBooks id h)

theorem Inv.deploy {minBond unbondingPeriod cooldown size window : Nat} {terms : Bytes32}
    (h : deploy tx minBond unbondingPeriod cooldown size window terms = .ok s) : Inv s := by
  rcases deploy_cases h with ⟨-, -, -, -, -, -, rfl⟩
  constructor <;> simp [State.owed, SlashStatus.resolutions]

/-- The invariant of every reachable state. -/
theorem Reachable.inv {w : World} (h : Reachable H w) : Inv w.contract := by
  induction h with
  | deployed tx minBond unbondingPeriod cooldown size window terms hdeploy =>
    exact Inv.deploy hdeploy
  | step _ hstep ih =>
    cases hstep with
    | call tx c _ hexec => exact ih.exec hexec
    | donation amount =>
      exact ih.frame ⟨rfl, rfl, rfl, rfl, rfl, rfl, Nat.le_add_right _ _, rfl, [], by simp, by simp⟩

/-! ## The life of a record -/

/-- The moves of the escrow lifecycle. -/
def SlashStatus.Next : SlashStatus → SlashStatus → Prop
  | .escrowed, .appealOpen => True
  | .escrowed, .upheld => True
  | .appealOpen, .upheld => True
  | .appealOpen, .reversed => True
  | _, _ => False

/-- Between the two states every record was left alone, moved along its lifecycle with all its
other fields kept, or was minted into escrow. -/
def RecordsMove (s s' : State) : Prop :=
  ∀ id, s'.slashRecords id = s.slashRecords id ∨
    (∃ status, (s.slashRecords id).status.Next status ∧
      s'.slashRecords id = { s.slashRecords id with status := status }) ∨
    (id = s.slashCounter ∧ s.slashRecords id = {} ∧ (s'.slashRecords id).status = .escrowed)

theorem RecordsMove.of_eq (h : s'.slashRecords = s.slashRecords) : RecordsMove s s' :=
  fun id => .inl (congrFun h id)

/-- One record moves along its lifecycle. -/
theorem RecordsMove.of_set {slashId : Nat} {status : SlashStatus}
    (hnext : (s.slashRecords slashId).status.Next status)
    (h : s'.slashRecords = (s.setSlashStatus slashId status).slashRecords) : RecordsMove s s' := by
  intro id
  rcases eq_or_ne id slashId with rfl | hne
  · exact .inr (.inl ⟨status, hnext, by rw [h, setSlashStatus_self]⟩)
  · exact .inl (by rw [h, setSlashStatus_of_ne s hne])

/-- Every call moves the records along their lifecycle only. -/
theorem recordsMove_of_exec (hinv : Inv s) {c : Call} (h : exec H tx s c = .ok s') :
    RecordsMove s s' := by
  cases c with
  | bond amount =>
    rcases bond_cases h with ⟨-, -, -, rfl⟩
    exact .of_eq rfl
  | requestUnbond amount =>
    rcases requestUnbond_cases h with ⟨-, -, -, rfl⟩
    exact .of_eq rfl
  | unbond =>
    rcases unbond_cases h with ⟨-, -, -, rfl⟩
    exact .of_eq rfl
  | slash operator challenger offenseType evidenceHash =>
    rcases exec_slash_cases h with ⟨slashId, amount, hslash⟩
    rcases slash_cases hslash with ⟨-, -, -, -, -, -, r, -, -, -, events, tail, ejected, nodes,
      nonces, addrs, index, -, -, -, rfl⟩
    intro id
    rcases eq_or_ne id s.slashCounter with rfl | hne
    · refine .inr (.inr ⟨rfl, hinv.fresh _ (Nat.le_refl _), ?_⟩)
      simp only [slashedState, Function.update_self, mintedRecord]
    · exact .inl (Function.update_of_ne hne ..)
  | finalizeUnappealedSlash slashId =>
    rcases finalizeUnappealedSlash_cases h with ⟨-, -, hstatus, -, -, -, rfl⟩
    exact .of_set (by rw [hstatus]; trivial) rfl
  | markAppealOpen slashId =>
    rcases markAppealOpen_cases h with ⟨-, -, -, hstatus, -, rfl⟩
    exact .of_set (by rw [hstatus]; trivial) rfl
  | settleAppealUpheld slashId =>
    rcases settleAppealUpheld_cases h with ⟨-, -, -, hstatus, -, -, rfl⟩
    exact .of_set (by rw [hstatus]; trivial) rfl
  | settleAppealGranted slashId =>
    rcases settleAppealGranted_cases h with ⟨-, -, -, hstatus, -, -, rfl⟩
    exact .of_set (by rw [hstatus]; trivial) rfl
  | _ => exact .of_eq (exec_sameBooks id h).slashRecords

/-- What a slash of `operator` does to the books: its two balances lose, the active one first,
exactly what the new record holds in escrow. -/
structure SlashBooked (s s' : State) (operator : Address) (slashId amount : Nat) : Prop where
  taken : s'.activeBond operator + (s'.unbondingOf operator).amount + amount =
    s.activeBond operator + (s.unbondingOf operator).amount
  active_le : s'.activeBond operator ≤ s.activeBond operator
  active_first : (s'.unbondingOf operator).amount ≠ (s.unbondingOf operator).amount →
    s'.activeBond operator = 0
  others : ∀ a, a ≠ operator →
    s'.activeBond a = s.activeBond a ∧ s'.unbondingOf a = s.unbondingOf a
  booked : s'.escrowedTotal = s.escrowedTotal + amount
  record : slashId = s.slashCounter ∧ (s'.slashRecords slashId).operator = operator ∧
    (s'.slashRecords slashId).status = .escrowed ∧ (s'.slashRecords slashId).slashAmount = amount

theorem slash_booked {operator challenger : Address} {offenseType : UInt8} {evidenceHash : Bytes32}
    {slashId amount : Nat}
    (h : slash tx s operator challenger offenseType evidenceHash = .ok (s', slashId, amount)) :
    SlashBooked s s' operator slashId amount := by
  rcases slash_cases h with ⟨-, -, -, -, -, rfl, r, hr, rfl, -, events, tail, ejected, nodes,
    nonces, addrs, index, -, -, -, rfl⟩
  rcases reduceAtTier_cases hr with ⟨htotal, hactive, hunbonding, hfirst⟩
  constructor
  · simp only [slashedState, Function.update_self]
    exact htotal
  · simp only [slashedState, Function.update_self]
    exact hactive
  · simp only [slashedState, Function.update_self]
    intro hne
    exact hfirst (by omega)
  · intro a hne
    simp only [slashedState, Function.update_of_ne hne, and_self]
  · rfl
  · simp only [slashedState, Function.update_self, mintedRecord, and_self]

/-- Solvency and single payout: in every reachable state the balance covers all bond and escrow,
the escrow total is that of the records that wait (so releasing one of them never underflows),
every payment is that of one event, every settled record has one resolution event, which paid its
whole escrow, and no other record has one; every next call moves records along their lifecycle
only, and every slash books what it takes. -/
theorem solvent_single_payout {w : World} (h : Reachable H w) :
    ∑ a, w.contract.activeBond a + ∑ a, (w.contract.unbondingOf a).amount +
        w.contract.escrowedTotal ≤ w.contract.tokenBalance ∧
      (∀ id, w.contract.slashCounter ≤ id → (w.contract.slashRecords id).status = .none) ∧
      w.contract.escrowedTotal =
        ∑ id ∈ range w.contract.slashCounter with (w.contract.slashRecords id).status.Waiting,
          (w.contract.slashRecords id).slashAmount ∧
      (∀ id, (w.contract.slashRecords id).status.Waiting →
        (w.contract.slashRecords id).slashAmount ≤ w.contract.escrowedTotal) ∧
      w.contract.payments = w.contract.log.flatMap (eventPayments w.contract.slashRecords) ∧
      (∀ e ∈ w.contract.log, e.Faithful w.contract.slashRecords) ∧
      (∀ id, w.contract.log.countP (Event.resolves id) =
        (w.contract.slashRecords id).status.resolutions) ∧
      (∀ w', Step H w w' → RecordsMove w.contract w'.contract) ∧
      ∀ tx operator challenger offenseType evidenceHash s' slashId amount,
        slash tx w.contract operator challenger offenseType evidenceHash =
          .ok (s', slashId, amount) → SlashBooked w.contract s' operator slashId amount := by
  have hinv := h.inv
  refine ⟨hinv.solvent, ?_, ?_, fun id hid => (hinv.escrow_le hid).2, hinv.ledger, hinv.faithful,
    hinv.once, ?_, ?_⟩
  · intro id hid
    rw [hinv.fresh id hid]
  · rw [hinv.escrow, Finset.sum_filter]
    rfl
  · intro w' hstep
    cases hstep with
    | call tx c _ hexec => exact recordsMove_of_exec hinv hexec
    | donation amount => exact .of_eq rfl
  · intro tx operator challenger offenseType evidenceHash s' slashId amount hslash
    exact slash_booked hslash

/-- An operator bonds 20,000 TOKEN, is slashed, and nobody appeals. -/
def sampleSlashRun : List (Tx × Call) :=
  [(sampleTx 1 10, .bond 20000000000000000000000),
    (sampleTx 2 20, .slash 1 3 0 7),
    (sampleTx 4 3000000, .finalizeUnappealedSlash 0)]

theorem solvent_single_payout_sample :
    ∃ w, Reachable sampleWiring w ∧
      w.contract.payments = [.transfer 3 500000000000000000000, .burn 500000000000000000000] ∧
      w.contract.log.countP (Event.resolves 0) = (w.contract.slashRecords 0).status.resolutions := by
  have hrun : (runCalls sampleWiring sampleDeployed sampleSlashRun).map
      (fun w => w.contract.payments) =
      some [.transfer 3 500000000000000000000, .burn 500000000000000000000] := by
    decide +kernel
  rcases Option.map_eq_some_iff.mp hrun with ⟨w, hw, hpayments⟩
  have hreach := (sampleDeployed_reachable sampleWiring).of_runCalls hw
  exact ⟨w, hreach, hpayments, (solvent_single_payout hreach).2.2.2.2.2.2.1 0⟩

end Decdn.CapacityBond
