import Decdn.CapacityBond.Contract
import Decdn.Foundations.Fallible

/-!
# Specifications of the CapacityBond functions

One inversion lemma for each contract function: what a call that returns has
checked, and what it wrote.  Later files cite these and never unfold the
functions again.

Main results:

- Theorem `payOut_cases`: a payment leaves the balance once.
- Theorem `ejectNodeEffects_cases`: an ejection writes the registry only.
- Theorem `bond_cases`, Theorem `requestUnbond_cases` and Theorem `unbond_cases`: the bonding
  calls as one write of the storage.
- Theorem `setter_cases`: a governance setter writes the parameters only.
-/

namespace Decdn.CapacityBond

variable {H : Wiring} {tx : Tx} {s s' : State}

/-! ## Guards and arithmetic -/

theorem whenNotPaused_eq_ok {u : Unit} : whenNotPaused s = .ok u ↔ s.paused = false :=
  Guard.require_not_eq_ok

theorem onlyRole_eq_ok {role : Role} {u : Unit} :
    onlyRole tx role = .ok u ↔ tx.hasRole role tx.sender = true :=
  Guard.require_eq_ok

theorem checkedAdd_eq_ok {m a b r : Nat} :
    checkedAdd m a b = .ok r ↔ a + b ≤ m ∧ r = a + b :=
  Guard.add_eq_ok

theorem checkedSub_eq_ok {a b r : Nat} : checkedSub a b = .ok r ↔ b ≤ a ∧ r = a - b :=
  Guard.sub_eq_ok

theorem checkedMul_eq_ok {a b r : Nat} :
    checkedMul a b = .ok r ↔ a * b ≤ u256Max ∧ r = a * b := by
  unfold checkedMul
  split <;> simp_all [eq_comm]

theorem enforceBounds_eq_ok {value floor ceiling : Nat} {u : Unit} :
    enforceBounds value floor ceiling = .ok u ↔ floor ≤ value ∧ value ≤ ceiling :=
  Guard.within_eq_ok

/-- A 64-bit block time is kept by the cast to `uint64`. -/
@[simp]
theorem timestamp_mod (tx : Tx) : tx.timestamp % 2 ^ 64 = tx.timestamp := by
  have h := tx.timestamp_le
  unfold u64Max at h
  omega

/-- A slash takes exactly what the two balances lose, the active one first. -/
theorem reduceAtTier_cases {active unbonding tierBps : Nat} {r : Reduction}
    (h : reduceAtTier active unbonding tierBps = .ok r) :
    r.newActive + r.newUnbonding + r.slashAmount = active + unbonding ∧
      r.newActive ≤ active ∧ r.newUnbonding ≤ unbonding ∧
      (r.newUnbonding < unbonding → r.newActive = 0) := by
  unfold reduceAtTier at h
  simp only [bind_eq_ok] at h
  rcases h with ⟨total, -, scaled, -, h⟩
  generalize scaled / bpsDenominator = amount at h
  split at h
  · rename_i hle
    rcases pure_eq_ok.mp h with rfl
    dsimp only
    omega
  · split at h
    · rcases pure_eq_ok.mp h with rfl
      dsimp only
      omega
    · rcases pure_eq_ok.mp h with rfl
      dsimp only
      omega

/-! ## Payments -/

/-- The ledger entries of one payment: none when there is nothing to pay. -/
def paid (p : Payment) : List Payment :=
  if p.amount = 0 then [] else [p]

/-- A payment that returns left the balance once and is in the ledger. -/
theorem payOut_cases {p : Payment} (h : payOut tx s p = .ok s') :
    p.amount ≤ s.tokenBalance ∧
      s' = { s with
        tokenBalance := s.tokenBalance - p.amount
        payments := s.payments ++ paid p } := by
  unfold payOut at h
  split at h
  · rename_i hzero
    rcases Except.ok.inj h with rfl
    simp [hzero, paid]
  · rename_i hpos
    split at h
    · rename_i hpay
      rcases Except.ok.inj h with rfl
      refine ⟨hpay.2, ?_⟩
      simp only [paid, if_neg hpos]
    · cases h

/-! ## The active set -/

/-- What `_removeFromRegisteredSet` makes of the array and the index: nothing for an
operator without a slot; else the last entry takes the slot and the array shrinks. -/
def Vacated (addrs : List Address) (index : Address → Nat) (operator : Address)
    (addrs' : List Address) (index' : Address → Nat) : Prop :=
  (index operator = 0 ∧ addrs' = addrs ∧ index' = index) ∨
  (index operator ≠ 0 ∧ 1 ≤ addrs.length ∧ index operator - 1 = addrs.length - 1 ∧
    addrs' = addrs.dropLast ∧ index' = Function.update index operator 0) ∨
  (index operator ≠ 0 ∧ index operator - 1 ≠ addrs.length - 1 ∧
    index operator - 1 < addrs.length ∧
    ∃ swapped, addrs[addrs.length - 1]? = some swapped ∧
      addrs' = (addrs.set (index operator - 1) swapped).dropLast ∧
      index' = Function.update (Function.update index swapped (index operator - 1 + 1)) operator 0)

/-- Leaving the active set writes its array and its index, and nothing else. -/
theorem removeFromRegisteredSet_cases {operator : Address}
    (h : removeFromRegisteredSet s operator = .ok s') :
    ∃ addrs index, Vacated s.registeredAddrs s.registeredIndex operator addrs index ∧
      s' = { s with registeredAddrs := addrs, registeredIndex := index } := by
  unfold removeFromRegisteredSet at h
  dsimp only at h
  split at h
  · rename_i hnone
    rcases Except.ok.inj h with rfl
    exact ⟨_, _, .inl ⟨hnone, rfl, rfl⟩, rfl⟩
  · rename_i hsome
    simp only [bind_eq_ok] at h
    rcases h with ⟨lastIdx, hsub, h⟩
    rcases checkedSub_eq_ok.mp hsub with ⟨hlen, rfl⟩
    split at h
    · rename_i hlast
      rcases pure_eq_ok.mp h with rfl
      exact ⟨_, _, .inr (.inl ⟨hsome, hlen, hlast, rfl, rfl⟩), rfl⟩
    · rename_i hlast
      split at h
      · cases h
      · rename_i swapped hswapped
        split at h
        · rename_i hidx
          rcases pure_eq_ok.mp h with rfl
          exact ⟨_, _, .inr (.inr ⟨hsome, hlast, hidx, swapped, hswapped, rfl, rfl⟩), rfl⟩
        · cases h

theorem bumpRegistrationNonce_cases {nodeId : Bytes32}
    (h : bumpRegistrationNonce s nodeId = .ok s') :
    s' = { s with
      registrationNonce :=
        Function.update s.registrationNonce nodeId (s.registrationNonce nodeId + 1) } := by
  unfold bumpRegistrationNonce at h
  simp only [bind_eq_ok, pure_eq_ok] at h
  rcases h with ⟨nonce, hadd, rfl⟩
  rcases checkedAdd_eq_ok.mp hadd with ⟨-, rfl⟩
  rfl

/-- An ejection leaves an inactive node alone; an active one leaves the active set
and its node id's nonce moves on. -/
theorem ejectNodeEffects_cases {operator : Address} {nodeId : Bytes32}
    (h : ejectNodeEffects s operator = .ok (s', nodeId)) :
    ((s.nodes operator).active = false ∧ s' = s ∧ nodeId = 0) ∨
      ((s.nodes operator).active = true ∧ nodeId = (s.nodes operator).nodeId ∧
        ∃ addrs index, Vacated s.registeredAddrs s.registeredIndex operator addrs index ∧
          s' = { s with
            nodes := Function.update s.nodes operator { s.nodes operator with active := false }
            registrationNonce := Function.update s.registrationNonce (s.nodes operator).nodeId
              (s.registrationNonce (s.nodes operator).nodeId + 1)
            registeredAddrs := addrs
            registeredIndex := index }) := by
  unfold ejectNodeEffects at h
  dsimp only at h
  split at h
  · rename_i hinactive
    rcases Prod.mk.inj (Except.ok.inj h) with ⟨rfl, rfl⟩
    exact .inl ⟨hinactive, rfl, rfl⟩
  · rename_i hactive
    simp only [bind_eq_ok, pure_eq_ok] at h
    rcases h with ⟨t, hbump, t', hremove, h⟩
    rcases Prod.mk.inj h with ⟨rfl, rfl⟩
    rcases bumpRegistrationNonce_cases hbump with rfl
    rcases removeFromRegisteredSet_cases hremove with ⟨addrs, index, hvacated, rfl⟩
    exact .inr ⟨by simpa using hactive, rfl, addrs, index, hvacated, rfl⟩

/-! ## Region and history -/

/-- Writing the region touches the operator's record, its previous region and its
stamp. -/
theorem setRegion_eq (s : State) (newRegion : Bytes) :
    setRegion H tx s newRegion =
      { s with
        regionPrev :=
          if H.keccak256 (s.nodes tx.sender).regionHint ≠ H.keccak256 newRegion then
            Function.update s.regionPrev tx.sender (s.nodes tx.sender).regionHint
          else s.regionPrev
        nodes :=
          if H.keccak256 (s.nodes tx.sender).regionHint ≠ H.keccak256 newRegion then
            Function.update s.nodes tx.sender
              { s.nodes tx.sender with regionHint := newRegion }
          else s.nodes
        regionLastChanged :=
          Function.update s.regionLastChanged tx.sender tx.timestamp } := by
  unfold setRegion
  dsimp only
  rw [timestamp_mod]
  split <;> rfl

theorem record_cases {operator : Address} {mbps : Nat} (h : record H tx s operator mbps = .ok s') :
    ∃ history, H.checkpoints.push (s.declaredMbpsHistory operator) tx.timestamp mbps = some history ∧
      s' = { s with
        declaredMbpsHistory := Function.update s.declaredMbpsHistory operator history } := by
  unfold record at h
  split at h
  · cases h
  · split at h
    · cases h
    · rename_i history hpush
      exact ⟨history, hpush, (Except.ok.inj h).symm⟩

/-! ## Bonding -/

theorem grandfather_eq (t : State) (o n : Nat) :
    grandfather tx t o n = { t with
      bondFloorAtActivation :=
        if Crosses t o n then
          Function.update t.bondFloorAtActivation tx.sender t.params.minBond
        else t.bondFloorAtActivation
      firstBondedAt :=
        if Crosses t o n ∧ t.firstBondedAt tx.sender = 0 then
          Function.update t.firstBondedAt tx.sender tx.timestamp else t.firstBondedAt } := by
  unfold grandfather
  rw [timestamp_mod]
  by_cases hcross : Crosses t o n
  · rw [if_pos hcross, if_pos hcross]
    by_cases hfirst : t.firstBondedAt tx.sender = 0
    · simp only [hcross, hfirst, and_self, if_true]
    · simp only [hcross, hfirst, and_false, if_false]
  · rw [if_neg hcross, if_neg hcross, if_neg fun hboth => hcross hboth.1]

theorem reinstate_eq (t : State) (n : Nat) :
    reinstate tx t n = { t with
      ejected :=
        if Reinstates tx t n then Function.update t.ejected tx.sender false else t.ejected
      log := t.log ++ if Reinstates tx t n then [.reinstated tx.sender] else [] } := by
  unfold reinstate
  by_cases hback : Reinstates tx t n
  · rw [if_pos hback, if_pos hback, if_pos hback]
    rfl
  · rw [if_neg hback, if_neg hback, if_neg hback, List.append_nil]

/-- A bond moves the amount in, and may write the entry floor, the tenure stamp
and the ejection flag of its sender. -/
theorem bond_cases {amount : Nat} (h : bond tx s amount = .ok s') :
    s.paused = false ∧ amount ≠ 0 ∧ s.activeBond tx.sender + amount ≤ u256Max ∧
      s' = { s with
        tokenBalance := s.tokenBalance + amount
        activeBond := Function.update s.activeBond tx.sender (s.activeBond tx.sender + amount)
        bondFloorAtActivation :=
          if Crosses s (s.activeBond tx.sender) (s.activeBond tx.sender + amount) then
            Function.update s.bondFloorAtActivation tx.sender s.params.minBond
          else s.bondFloorAtActivation
        firstBondedAt :=
          if Crosses s (s.activeBond tx.sender) (s.activeBond tx.sender + amount) ∧
              s.firstBondedAt tx.sender = 0 then
            Function.update s.firstBondedAt tx.sender tx.timestamp else s.firstBondedAt
        ejected :=
          if Reinstates tx s (s.activeBond tx.sender + amount) then
            Function.update s.ejected tx.sender false
          else s.ejected
        log := s.log ++
          (if Reinstates tx s (s.activeBond tx.sender + amount) then
            [.reinstated tx.sender] else []) ++
          [.bonded tx.sender amount (s.activeBond tx.sender + amount)] } := by
  unfold bond at h
  simp only [bind_eq_ok] at h
  rcases h with ⟨_, hpause, h⟩
  rw [whenNotPaused_eq_ok] at hpause
  split at h
  · cases h
  rename_i hamount
  split at h
  · cases h
  simp only [bind_eq_ok, pure_eq_ok] at h
  rcases h with ⟨newBalance, hadd, rfl⟩
  rcases checkedAdd_eq_ok.mp hadd with ⟨hwidth, rfl⟩
  refine ⟨hpause, hamount, hwidth, ?_⟩
  rw [grandfather_eq, reinstate_eq]
  rfl

/-- An unbonding request moves bond into the queue, and what stays covers the
declared tier. -/
theorem requestUnbond_cases {amount : Nat} (h : requestUnbond H tx s amount = .ok s') :
    amount ≤ s.activeBond tx.sender ∧ (s.unbondingOf tx.sender).amount = 0 ∧
      (∃ required, s.bondRequired H (s.declaredMbps tx.sender) = .ok required ∧
        required ≤ s.activeBond tx.sender - amount) ∧
      s' = { s with
        activeBond := Function.update s.activeBond tx.sender (s.activeBond tx.sender - amount)
        unbondingOf := Function.update s.unbondingOf tx.sender
          ⟨amount, tx.timestamp + s.params.unbondingPeriod⟩
        log := s.log ++ [.unbondingRequested tx.sender amount
          (tx.timestamp + s.params.unbondingPeriod) (s.activeBond tx.sender - amount)] } := by
  unfold requestUnbond at h
  dsimp only at h
  split at h
  · cases h
  split at h
  · cases h
  rename_i hle
  split at h
  · cases h
  rename_i hidle
  simp only [bind_eq_ok] at h
  rcases h with ⟨required, hrequired, h⟩
  split at h
  · cases h
  rename_i hcurve
  simp only [bind_eq_ok, pure_eq_ok] at h
  rcases h with ⟨unlockAt, hadd, rfl⟩
  rcases checkedAdd_eq_ok.mp hadd with ⟨-, rfl⟩
  exact ⟨not_lt.mp hle, not_not.mp hidle, ⟨required, hrequired, not_lt.mp hcurve⟩, rfl⟩

/-- A withdrawal empties the queue of its sender and pays it out. -/
theorem unbond_cases (h : unbond tx s = .ok s') :
    (s.unbondingOf tx.sender).amount ≠ 0 ∧
      (s.unbondingOf tx.sender).unlockAt ≤ tx.timestamp ∧
      (s.unbondingOf tx.sender).amount ≤ s.tokenBalance ∧
      s' = { s with
        unbondingOf := Function.update s.unbondingOf tx.sender {}
        tokenBalance := s.tokenBalance - (s.unbondingOf tx.sender).amount
        payments := s.payments ++
          [.transfer tx.sender (s.unbondingOf tx.sender).amount]
        log := s.log ++ [.unbonded tx.sender (s.unbondingOf tx.sender).amount] } := by
  unfold unbond at h
  dsimp only at h
  split at h
  · cases h
  rename_i hpos
  split at h
  · cases h
  rename_i hunlock
  simp only [bind_eq_ok, pure_eq_ok] at h
  rcases h with ⟨t, hpay, rfl⟩
  rcases payOut_cases hpay with ⟨hbal, rfl⟩
  have hpaid : paid (.transfer tx.sender (s.unbondingOf tx.sender).amount) =
      [.transfer tx.sender (s.unbondingOf tx.sender).amount] := if_neg hpos
  refine ⟨hpos, not_lt.mp hunlock, hbal, ?_⟩
  rw [hpaid]
  rfl

/-- A declaration writes the tier and its history; unless an inactive operator
releases its tier, the bond covers the new one. -/
theorem declareMbps_cases {mbps : Nat} (h : declareMbps H tx s mbps = .ok s') :
    ((mbps = 0 ∧ (s.nodes tx.sender).active = false) ∨
      ∃ required, s.bondRequired H mbps = .ok required ∧ required ≤ s.activeBond tx.sender) ∧
      ∃ history, H.checkpoints.push (s.declaredMbpsHistory tx.sender) tx.timestamp mbps = some history ∧
        s' = { s with
          declaredMbps := Function.update s.declaredMbps tx.sender mbps
          declaredMbpsHistory := Function.update s.declaredMbpsHistory tx.sender history
          log := s.log ++ [.mbpsDeclared tx.sender (s.declaredMbps tx.sender) mbps] } := by
  unfold declareMbps at h
  simp only [bind_eq_ok, pure_eq_ok] at h
  rcases h with ⟨_, hgate, u, hrecord, rfl⟩
  rcases record_cases hrecord with ⟨history, hpush, rfl⟩
  refine ⟨?_, history, hpush, rfl⟩
  unfold checkDeclaration at hgate
  split at hgate
  · rename_i hrelease
    exact .inl hrelease
  · simp only [bind_eq_ok] at hgate
    rcases hgate with ⟨_, -, hgate⟩
    split at hgate
    · cases hgate
    simp only [bind_eq_ok] at hgate
    rcases hgate with ⟨required, hrequired, hgate⟩
    split at hgate
    · cases hgate
    rename_i hcurve
    exact .inr ⟨required, hrequired, not_lt.mp hcurve⟩

/-! ## Governance and pause -/

/-- A governance setter writes the parameters and one event. -/
theorem setBounded_cases {value floor ceiling : Nat} {p : Params} {e : Event}
    (h : setBounded tx s value floor ceiling p e = .ok s') :
    floor ≤ value ∧ value ≤ ceiling ∧ s' = { s with params := p, log := s.log ++ [e] } := by
  unfold setBounded at h
  simp only [bind_eq_ok, pure_eq_ok] at h
  rcases h with ⟨_, -, _, hbounds, rfl⟩
  rcases enforceBounds_eq_ok.mp hbounds with ⟨hlo, hhi⟩
  exact ⟨hlo, hhi, rfl⟩

theorem setCurrentTermsHash_cases {newHash : Bytes32}
    (h : setCurrentTermsHash tx s newHash = .ok s') :
    s' = { s with
      params := { s.params with currentTermsHash := newHash }
      log := s.log ++ [.currentTermsHashUpdated s.params.currentTermsHash newHash] } := by
  unfold setCurrentTermsHash at h
  simp only [bind_eq_ok] at h
  rcases h with ⟨_, -, h⟩
  split at h
  · cases h
  · exact (pure_eq_ok.mp h).symm

theorem setK_cases {newK : Nat} (h : setK H tx s newK = .ok s') :
    s' = { s with
      params := { s.params with kConstant := newK }
      log := s.log ++ [.kUpdated s.params.kConstant newK] } := by
  unfold setK at h
  simp only [bind_eq_ok, pure_eq_ok] at h
  rcases h with ⟨_, -, _, -, rfl⟩
  rfl

theorem setAlpha_cases {newAlphaWad : Nat} (h : setAlpha H tx s newAlphaWad = .ok s') :
    s' = { s with
      params := { s.params with alphaWad := newAlphaWad }
      log := s.log ++ [.alphaUpdated s.params.alphaWad newAlphaWad] } := by
  unfold setAlpha at h
  simp only [bind_eq_ok, pure_eq_ok] at h
  rcases h with ⟨_, -, _, -, _, -, rfl⟩
  rfl

/-- The paired check: the judge answers an age below the period. -/
def CoversAge (tx : Tx) (judge : Address) (period : Nat) : Prop :=
  ∃ age, tx.maxEvidenceAgeUs judge = some age ∧ age < 1000000 * period

/-- Seconds in microseconds. -/
theorem checkedMul_micros {period us : Nat} (h : checkedMul period 1000000 = .ok us) :
    us = 1000000 * period := by
  rw [(checkedMul_eq_ok.mp h).2, Nat.mul_comm]

theorem enforceEvidenceAge_cases {judge : Address} {period : Nat} {u : Unit}
    (h : enforceEvidenceAge tx judge period = .ok u) :
    ∃ us age, checkedMul period 1000000 = .ok us ∧ tx.maxEvidenceAgeUs judge = some age ∧
      age < us := by
  unfold enforceEvidenceAge at h
  simp only [bind_eq_ok] at h
  rcases h with ⟨us, hmul, h⟩
  split at h
  · cases h
  rename_i age hage
  split at h
  · cases h
  rename_i hlt
  exact ⟨us, age, hmul, hage, not_le.mp hlt⟩

theorem enforceEvidenceAge_covers {judge : Address} {period : Nat} {u : Unit}
    (h : enforceEvidenceAge tx judge period = .ok u) : CoversAge tx judge period := by
  rcases enforceEvidenceAge_cases h with ⟨us, age, hmul, hage, hlt⟩
  rw [checkedMul_micros hmul] at hlt
  exact ⟨age, hage, hlt⟩

theorem setSlashJudge_cases {judge : Address} (h : setSlashJudge tx s judge = .ok s') :
    s.params.slashJudge = 0 ∧ judge ≠ 0 ∧ CoversAge tx judge s.params.unbondingPeriod ∧
    s' = { s with
      params := { s.params with slashJudge := judge }
      log := s.log ++ [.slashJudgeWired judge] } := by
  unfold setSlashJudge at h
  simp only [bind_eq_ok] at h
  rcases h with ⟨_, -, h⟩
  split at h
  · cases h
  rename_i hunset
  split at h
  · cases h
  rename_i hjudge
  simp only [bind_eq_ok, pure_eq_ok] at h
  rcases h with ⟨_, hage, rfl⟩
  exact ⟨not_not.mp hunset, hjudge, enforceEvidenceAge_covers hage, rfl⟩

/-- The paired check passes for a judge whose age the period covers. -/
theorem enforceEvidenceAge_ok {judge : Address} {period us : Nat}
    (hmul : checkedMul period 1000000 = .ok us) (hcovers : CoversAge tx judge period) :
    enforceEvidenceAge tx judge period = .ok () := by
  rcases hcovers with ⟨age, hage, hlt⟩
  rw [← checkedMul_micros hmul] at hlt
  have hpaired : ¬ us ≤ age := not_le.mpr hlt
  unfold enforceEvidenceAge
  rw [hmul, hage]
  simp only [if_neg hpaired, bind, Except.bind]

/-- Wiring succeeds once, for a judge whose age the period covers. -/
theorem setSlashJudge_ok {judge : Address} {us : Nat}
    (hrole : tx.hasRole .governance tx.sender = true) (hunset : s.params.slashJudge = 0)
    (hjudge : judge ≠ 0) (hmul : checkedMul s.params.unbondingPeriod 1000000 = .ok us)
    (hcovers : CoversAge tx judge s.params.unbondingPeriod) :
    setSlashJudge tx s judge = .ok { s with
      params := { s.params with slashJudge := judge }
      log := s.log ++ [.slashJudgeWired judge] } := by
  unfold setSlashJudge onlyRole Guard.require
  rw [enforceEvidenceAge_ok hmul hcovers]
  simp only [if_pos hrole, hunset, ne_eq, not_true_eq_false, if_false, if_neg hjudge, bind,
    Except.bind, pure, Except.pure, State.emit]

theorem setUnbondingPeriod_cases {newPeriod : Nat}
    (h : setUnbondingPeriod tx s newPeriod = .ok s') :
    (s.params.slashJudge = 0 ∨ CoversAge tx s.params.slashJudge newPeriod) ∧
    s' = { s with
      params := { s.params with unbondingPeriod := newPeriod }
      log := s.log ++ [.unbondingPeriodUpdated s.params.unbondingPeriod newPeriod] } := by
  unfold setUnbondingPeriod at h
  simp only [bind_eq_ok] at h
  rcases h with ⟨_, -, _, -, h⟩
  split at h
  · rename_i hunset
    simp only [pure_eq_ok] at h
    rcases h with ⟨_, -, rfl⟩
    exact ⟨.inl hunset, rfl⟩
  · simp only [bind_eq_ok, pure_eq_ok] at h
    rcases h with ⟨_, hage, rfl⟩
    exact ⟨.inr (enforceEvidenceAge_covers hage), rfl⟩

/-- The governance setters. -/
def Call.IsSetter : Call → Prop
  | .setMinBond _ | .setCurrentTermsHash _ | .setK _ | .setAlpha _ | .setMinCapacityMbps _
  | .setMaxCapacityMbps _ | .setSlashJudge _ | .setUnbondingPeriod _
  | .setMultiaddrUpdateCooldown _ | .setMaxMultiaddrSize _ | .setRegionStabilityWindow _ => True
  | _ => False

theorem pause_cases (h : pause tx s = .ok s') :
    s.paused = false ∧ s' = { s with paused := true, pausedAt := tx.timestamp } := by
  unfold pause at h
  simp only [bind_eq_ok, pure_eq_ok, Guard.pausable_eq_ok, timestamp_mod] at h
  rcases h with ⟨_, -, _, ⟨-, hpaused⟩, rfl⟩
  exact ⟨hpaused, rfl⟩

theorem unpause_cases (h : unpause tx s = .ok s') :
    s.paused = true ∧ s.pausedAt ≤ tx.timestamp ∧
      s' = { s with
        paused := false
        pausedTotal := s.pausedTotal + (tx.timestamp - s.pausedAt)
        pausedAt := 0 } := by
  unfold unpause at h
  simp only [bind_eq_ok, pure_eq_ok, checkedSub_eq_ok, checkedAdd_eq_ok, Guard.require_eq_ok,
    timestamp_mod] at h
  rcases h with ⟨_, -, _, ⟨hle, rfl⟩, _, ⟨-, rfl⟩, _, hpaused, rfl⟩
  exact ⟨hpaused, hle, rfl⟩

/-- A deployment has bounded parameters and empty storage. -/
theorem deploy_cases {minBond unbondingPeriod cooldown size window : Nat} {terms : Bytes32}
    (h : deploy tx minBond unbondingPeriod cooldown size window terms = .ok s) :
    (minBondFloor ≤ minBond ∧ minBond ≤ minBondCeiling) ∧
    (unbondingPeriodFloor ≤ unbondingPeriod ∧ unbondingPeriod ≤ unbondingPeriodCeiling) ∧
    (0 ≤ cooldown ∧ cooldown ≤ multiaddrCooldownCeiling) ∧
    (maxMultiaddrSizeFloor ≤ size ∧ size ≤ maxMultiaddrSizeCeiling) ∧
    (regionStabilityWindowFloor ≤ window ∧ window ≤ regionStabilityWindowCeiling) ∧ terms ≠ 0 ∧
    s = {
      params := {
        minBond := minBond
        unbondingPeriod := unbondingPeriod
        regionStabilityWindow := window
        multiaddrUpdateCooldown := cooldown
        maxMultiaddrSize := size
        currentTermsHash := terms }
      pauseDeadline := tx.timestamp + pauseSunsetPeriod } := by
  unfold deploy at h
  simp only [bind_eq_ok, enforceBounds_eq_ok] at h
  rcases h with ⟨-, hbond, -, hperiod, -, hcooldown, -, hsize, -, hwindow, h⟩
  split at h
  · cases h
  rename_i hterms
  exact ⟨hbond, hperiod, hcooldown, hsize, hwindow, hterms, (pure_eq_ok.mp h).symm⟩

/-- An event that goes with no payment. -/
def Event.Quiet : Event → Prop
  | .unbonded .. | .slashUpheld .. | .slashReversed .. => False
  | _ => True

/-- A setter writes the parameters and one event of its own, and nothing else. -/
theorem setter_cases {c : Call} (hc : c.IsSetter) (h : exec H tx s c = .ok s') :
    ∃ p e, s' = { s with params := p, log := s.log ++ [e] } ∧ e.Quiet := by
  cases c with
  | setMinBond n => exact ⟨_, _, (setBounded_cases h).2.2, trivial⟩
  | setCurrentTermsHash n => exact ⟨_, _, setCurrentTermsHash_cases h, trivial⟩
  | setK n => exact ⟨_, _, setK_cases h, trivial⟩
  | setAlpha n => exact ⟨_, _, setAlpha_cases h, trivial⟩
  | setMinCapacityMbps n => exact ⟨_, _, (setBounded_cases h).2.2, trivial⟩
  | setMaxCapacityMbps n => exact ⟨_, _, (setBounded_cases h).2.2, trivial⟩
  | setSlashJudge n => exact ⟨_, _, (setSlashJudge_cases h).2.2.2, trivial⟩
  | setUnbondingPeriod n => exact ⟨_, _, (setUnbondingPeriod_cases h).2, trivial⟩
  | setMultiaddrUpdateCooldown n => exact ⟨_, _, (setBounded_cases h).2.2, trivial⟩
  | setMaxMultiaddrSize n => exact ⟨_, _, (setBounded_cases h).2.2, trivial⟩
  | setRegionStabilityWindow n => exact ⟨_, _, (setBounded_cases h).2.2, trivial⟩
  | _ => exact absurd hc (by simp [Call.IsSetter])

end Decdn.CapacityBond
