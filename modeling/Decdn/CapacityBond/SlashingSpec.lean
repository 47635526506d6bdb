import Decdn.CapacityBond.RegistrySpec

/-!
# Specifications of slashing and escrow finality

One inversion lemma for each call that mints or resolves a slash record.

Main results:

- Theorem `slash_cases`: a slash as one write of the storage.
- Theorem `finalizeUnappealedSlash_cases`, Theorem `settleAppealUpheld_cases` and Theorem
  `settleAppealGranted_cases`: the three ways an escrow resolves.
-/

namespace Decdn.CapacityBond

variable {H : Wiring} {tx : Tx} {s s' : State}

/-! ## Minting -/

/-- The floor a slashed operator's bond is compared with. -/
def ejectionFloor (s : State) (operator : Address) : Nat :=
  if s.bondFloorAtActivation operator = 0 then s.params.minBond
  else s.bondFloorAtActivation operator

/-- An automatic ejection: either none is due, or the operator is ejected. -/
theorem maybeAutoEject_cases {operator : Address} (h : maybeAutoEject s operator = .ok s') :
    ((ejectionFloor s operator / 2 ≤ s.activeBond operator ∨ s.ejected operator = true) ∧ s' = s) ∨
    (s.activeBond operator < ejectionFloor s operator / 2 ∧ s.ejected operator = false ∧
      ∃ nodes nonces addrs index events, Expelled s operator nodes nonces addrs index ∧
        (∀ e ∈ events, Event.Quiet e) ∧
        s' = { s with
          ejected := Function.update s.ejected operator true
          nodes := nodes
          registrationNonce := nonces
          registeredAddrs := addrs
          registeredIndex := index
          log := s.log ++ events }) := by
  unfold maybeAutoEject at h
  dsimp only at h
  change (if ejectionFloor s operator / 2 ≤ s.activeBond operator ∨ s.ejected operator = true
    then _ else _) = _ at h
  split at h
  · rename_i hkeep
    exact .inl ⟨hkeep, (Except.ok.inj h).symm⟩
  · rename_i hdue
    rw [not_or] at hdue
    simp only [bind_eq_ok] at h
    rcases h with ⟨⟨t, nodeId⟩, heffects, h⟩
    rcases ejectNodeEffects_expelled heffects with ⟨nodes, nonces, addrs, index, hexpelled, rfl⟩
    refine .inr ⟨not_le.mp hdue.1, by simpa using hdue.2, nodes, nonces, addrs, index, ?_⟩
    split at h
    · rcases pure_eq_ok.mp h with rfl
      exact ⟨[.autoEjected operator (s.activeBond operator)], hexpelled, by simp [Event.Quiet], rfl⟩
    · rcases pure_eq_ok.mp h with rfl
      refine ⟨[.autoEjected operator (s.activeBond operator)] ++
        [.nodeAutoEjected nodeId (s.activeBond operator)], hexpelled, by simp [Event.Quiet], ?_⟩
      simp [State.emit]

/-- The record a slash mints. -/
def mintedRecord (tx : Tx) (operator challenger : Address) (amount : Nat) (offenseType : UInt8)
    (evidenceHash : Bytes32) : SlashRecord where
  operator := operator
  slashedAt := tx.timestamp
  status := .escrowed
  offenseType := offenseType
  challenger := challenger
  appealWindowClose := tx.timestamp + appealFilingWindow
  slashAmount := amount
  evidenceHash := evidenceHash

/-- The storage after the bond is cut and the record is minted, before the ejection. -/
def slashedState (tx : Tx) (s : State) (operator challenger : Address) (r : Reduction)
    (offenseType : UInt8) (evidenceHash : Bytes32) (stamp : Nat) (events : List Event) : State :=
  { s with
    lifetimeOffenseCount :=
      Function.update s.lifetimeOffenseCount operator (s.lifetimeOffenseCount operator + 1)
    activeBond := Function.update s.activeBond operator r.newActive
    unbondingOf := Function.update s.unbondingOf operator
      { s.unbondingOf operator with amount := r.newUnbonding }
    slashCounter := (s.slashCounter + 1) % 2 ^ 256
    escrowedTotal := s.escrowedTotal + r.slashAmount
    slashRecords := Function.update s.slashRecords s.slashCounter
      (mintedRecord tx operator challenger r.slashAmount offenseType evidenceHash)
    operatorSlashIds := Function.update s.operatorSlashIds operator
      (s.operatorSlashIds operator ++ [s.slashCounter])
    slashedAtEpoch := Function.update s.slashedAtEpoch operator stamp
    log := s.log ++ events }

/-- A slash: the tier's cut of the bond at risk moves into the escrow of a new record, and
an operator that falls below half its floor is ejected. -/
theorem slash_cases {operator challenger : Address} {offenseType : UInt8} {evidenceHash : Bytes32}
    {slashId amount : Nat}
    (h : slash tx s operator challenger offenseType evidenceHash = .ok (s', slashId, amount)) :
    s.paused = false ∧ tx.hasRole .slash tx.sender = true ∧ operator ≠ 0 ∧ challenger ≠ 0 ∧
    s.lifetimeOffenseCount operator + 1 ≤ u32Max ∧ slashId = s.slashCounter ∧
    ∃ r, reduceAtTier (s.activeBond operator) (s.unbondingOf operator).amount
        (tierBps (s.lifetimeOffenseCount operator + 1)) = .ok r ∧
      amount = r.slashAmount ∧ s.escrowedTotal + r.slashAmount ≤ u256Max ∧
      ∃ events tail ejected nodes nonces addrs index,
        (∀ e ∈ events, Event.Quiet e) ∧ (∀ e ∈ tail, Event.Quiet e) ∧
        ((ejected = s.ejected ∧ nodes = s.nodes ∧ nonces = s.registrationNonce ∧
            addrs = s.registeredAddrs ∧ index = s.registeredIndex) ∨
          (s.ejected operator = false ∧ ejected = Function.update s.ejected operator true ∧
            Expelled s operator nodes nonces addrs index)) ∧
        s' = { slashedState tx s operator challenger r offenseType evidenceHash
            (tx.timestamp / epochLength + 1) events with
          ejected := ejected
          nodes := nodes
          registrationNonce := nonces
          registeredAddrs := addrs
          registeredIndex := index
          log := s.log ++ events ++ tail } := by
  unfold slash at h
  simp only [bind_eq_ok] at h
  rcases h with ⟨_, hpause, _, hrole, h⟩
  rw [whenNotPaused_eq_ok] at hpause
  rw [onlyRole_eq_ok] at hrole
  split at h
  · cases h
  rename_i hzero
  rw [not_or] at hzero
  simp only [bind_eq_ok, pure_eq_ok] at h
  rcases h with ⟨newCount, hcount, ⟨t, total⟩, hreduce, ⟨u, id⟩, hmint, v, hstamp, h⟩
  simp only [Prod.mk.injEq] at h
  rcases h with ⟨rfl, rfl, rfl⟩
  rcases checkedAdd_eq_ok.mp hcount with ⟨hwidth, rfl⟩
  unfold reduceBondAtTier at hreduce
  simp only [bind_eq_ok, pure_eq_ok, Prod.mk.injEq] at hreduce
  rcases hreduce with ⟨r, hr, rfl, rfl⟩
  unfold mintSlashRecord at hmint
  simp only [bind_eq_ok, pure_eq_ok, timestamp_mod, Prod.mk.injEq] at hmint
  rcases hmint with ⟨escrowed, hesc, windowClose, hclose, rfl, rfl⟩
  rcases checkedAdd_eq_ok.mp hesc with ⟨hfits, rfl⟩
  rcases checkedAdd_eq_ok.mp hclose with ⟨-, rfl⟩
  unfold stampSlash at hstamp
  simp only [bind_eq_ok, pure_eq_ok] at hstamp
  rcases hstamp with ⟨stamp, hadd, e, heject, rfl⟩
  have hstamp : stamp = tx.timestamp / epochLength + 1 := by
    rcases checkedAdd_eq_ok.mp hadd with ⟨-, rfl⟩
    have hepoch : tx.timestamp / epochLength ≤ tx.timestamp := Nat.div_le_self _ _
    have hbound := tx.timestamp_le
    unfold u64Max at hbound
    rw [Nat.mod_eq_of_lt (by omega)]
  rw [← hstamp]
  refine ⟨hpause, hrole, hzero.1, hzero.2, hwidth, rfl, r, hr, rfl, hfits, ?_⟩
  rcases maybeAutoEject_cases heject with
    ⟨-, rfl⟩ | ⟨-, hfree, nodes, nonces, addrs, index, events, hexpelled, hquiet, rfl⟩
  · refine ⟨[.slashRecorded s.slashCounter operator tx.timestamp r.slashAmount,
      .slashEscrowed s.slashCounter operator r.slashAmount (tx.timestamp + appealFilingWindow),
      .slashedAtEpochStamped operator stamp],
      [.slashed operator challenger offenseType (s.lifetimeOffenseCount operator + 1)
        r.slashAmount], _, _, _, _, _, by simp [Event.Quiet], by simp [Event.Quiet],
      .inl ⟨rfl, rfl, rfl, rfl, rfl⟩, ?_⟩
    simp [State.emit, slashedState, mintedRecord]
  · refine ⟨[.slashRecorded s.slashCounter operator tx.timestamp r.slashAmount,
      .slashEscrowed s.slashCounter operator r.slashAmount (tx.timestamp + appealFilingWindow),
      .slashedAtEpochStamped operator stamp],
      events ++ [.slashed operator challenger offenseType (s.lifetimeOffenseCount operator + 1)
        r.slashAmount], _, nodes, nonces, addrs, index, by simp [Event.Quiet], ?_,
      .inr ⟨hfree, rfl, hexpelled⟩, ?_⟩
    · intro e he
      rcases List.mem_append.1 he with he | he
      · exact hquiet e he
      · rw [List.mem_singleton.1 he]
        trivial
    · simp [State.emit, slashedState, mintedRecord]

/-- The call drops what `slash` returns. -/
theorem exec_slash_cases {operator challenger : Address} {offenseType : UInt8}
    {evidenceHash : Bytes32}
    (h : exec H tx s (.slash operator challenger offenseType evidenceHash) = .ok s') :
    ∃ slashId amount,
      slash tx s operator challenger offenseType evidenceHash = .ok (s', slashId, amount) := by
  change Prod.fst <$> slash tx s operator challenger offenseType evidenceHash = .ok s' at h
  cases hslash : slash tx s operator challenger offenseType evidenceHash with
  | error e =>
    rw [hslash] at h
    cases h
  | ok result =>
    rw [hslash] at h
    rcases result with ⟨t, slashId, amount⟩
    rcases Except.ok.inj h with rfl
    exact ⟨slashId, amount, rfl⟩

/-! ## Finality -/

/-- The challenger's share of an escrow. -/
def challengerShare (amount : Nat) : Nat := amount * challengerBps / bpsDenominator

theorem challengerShare_le (amount : Nat) : challengerShare amount ≤ amount := by
  unfold challengerShare challengerBps bpsDenominator
  omega

/-- The storage after the escrow of `slashId` is distributed. -/
def distributedState (s : State) (slashId : Nat) (viaAppeal : Bool) : State :=
  { s.setSlashStatus slashId .upheld with
    tokenBalance := s.tokenBalance - (s.slashRecords slashId).slashAmount
    escrowedTotal := s.escrowedTotal - (s.slashRecords slashId).slashAmount
    payments := s.payments ++
      paid (.transfer (s.slashRecords slashId).challenger
        (challengerShare (s.slashRecords slashId).slashAmount)) ++
      paid (.burn ((s.slashRecords slashId).slashAmount -
        challengerShare (s.slashRecords slashId).slashAmount))
    log := s.log ++ [.slashUpheld slashId viaAppeal
      (challengerShare (s.slashRecords slashId).slashAmount)
      ((s.slashRecords slashId).slashAmount -
        challengerShare (s.slashRecords slashId).slashAmount)] }

/-- A distribution followed by the release of the escrow it returns. -/
theorem distribute_cases {slashId amount : Nat} {viaAppeal : Bool} {t : State}
    (h : distribute tx s slashId viaAppeal = .ok (t, amount))
    (hrelease : releaseEscrow t amount = .ok s') :
    (s.slashRecords slashId).slashAmount ≤ s.tokenBalance ∧
    (s.slashRecords slashId).slashAmount ≤ s.escrowedTotal ∧
    s' = distributedState s slashId viaAppeal := by
  unfold distribute at h
  simp only [bind_eq_ok, pure_eq_ok, Prod.mk.injEq] at h
  rcases h with ⟨scaled, hmul, burnShare, hsub, u, hpay, v, hburn, rfl, rfl⟩
  rcases checkedMul_eq_ok.mp hmul with ⟨-, rfl⟩
  rcases checkedSub_eq_ok.mp hsub with ⟨hle, rfl⟩
  rcases payOut_cases hpay with ⟨hbal, rfl⟩
  rcases payOut_cases hburn with ⟨hbal', rfl⟩
  unfold releaseEscrow at hrelease
  simp only [bind_eq_ok, pure_eq_ok] at hrelease
  rcases hrelease with ⟨escrowed, hescrow, rfl⟩
  rcases checkedSub_eq_ok.mp hescrow with ⟨hesc, rfl⟩
  have hshare := challengerShare_le (s.slashRecords slashId).slashAmount
  simp only [Payment.amount, State.setSlashStatus] at hbal hbal' hesc ⊢
  change challengerShare (s.slashRecords slashId).slashAmount ≤ s.tokenBalance at hbal
  change (s.slashRecords slashId).slashAmount - challengerShare (s.slashRecords slashId).slashAmount
    ≤ s.tokenBalance - challengerShare (s.slashRecords slashId).slashAmount at hbal'
  refine ⟨by omega, hesc, ?_⟩
  have hbalance : s.tokenBalance - challengerShare (s.slashRecords slashId).slashAmount -
      ((s.slashRecords slashId).slashAmount -
        challengerShare (s.slashRecords slashId).slashAmount) =
      s.tokenBalance - (s.slashRecords slashId).slashAmount := by omega
  simp only [distributedState, State.emit, State.setSlashStatus, challengerShare] at hbalance ⊢
  rw [hbalance]

/-- An unappealed slash is distributed once its filing window has lapsed. -/
theorem finalizeUnappealedSlash_cases {slashId : Nat}
    (h : finalizeUnappealedSlash tx s slashId = .ok s') :
    s.paused = false ∧ slashId < s.slashCounter ∧
    (s.slashRecords slashId).status = .escrowed ∧
    (s.slashRecords slashId).appealWindowClose + s.pausedTotal < tx.timestamp ∧
    (s.slashRecords slashId).slashAmount ≤ s.tokenBalance ∧
    (s.slashRecords slashId).slashAmount ≤ s.escrowedTotal ∧
    s' = distributedState s slashId false := by
  unfold finalizeUnappealedSlash at h
  simp only [bind_eq_ok] at h
  rcases h with ⟨_, hpause, ⟨t, amount⟩, hfinal, hrelease⟩
  rw [whenNotPaused_eq_ok] at hpause
  unfold finalizeUnappealed at hfinal
  split at hfinal
  · cases hfinal
  rename_i hknown
  split at hfinal
  · cases hfinal
  rename_i hstatus
  simp only [bind_eq_ok] at hfinal
  rcases hfinal with ⟨close, hclose, hfinal⟩
  rcases checkedAdd_eq_ok.mp hclose with ⟨-, rfl⟩
  split at hfinal
  · cases hfinal
  rename_i hlate
  exact ⟨hpause, not_le.mp hknown, not_not.mp hstatus, not_le.mp hlate,
    distribute_cases hfinal hrelease⟩

/-- An appeal locks an escrowed record within its filing window. -/
theorem markAppealOpen_cases {slashId : Nat} (h : markAppealOpen tx s slashId = .ok s') :
    s.paused = false ∧ tx.hasRole .slashAppeal tx.sender = true ∧ slashId < s.slashCounter ∧
    (s.slashRecords slashId).status = .escrowed ∧
    tx.timestamp ≤ (s.slashRecords slashId).appealWindowClose + s.pausedTotal ∧
    s' = { s.setSlashStatus slashId .appealOpen with
      log := s.log ++ [.slashAppealOpened slashId (s.slashRecords slashId).operator] } := by
  unfold markAppealOpen at h
  simp only [bind_eq_ok] at h
  rcases h with ⟨_, hpause, _, hrole, h⟩
  rw [whenNotPaused_eq_ok] at hpause
  rw [onlyRole_eq_ok] at hrole
  split at h
  · cases h
  rename_i hknown
  split at h
  · cases h
  rename_i hstatus
  simp only [bind_eq_ok] at h
  rcases h with ⟨close, hclose, h⟩
  rcases checkedAdd_eq_ok.mp hclose with ⟨-, rfl⟩
  split at h
  · cases h
  rename_i hlate
  rcases pure_eq_ok.mp h with rfl
  exact ⟨hpause, hrole, not_le.mp hknown, not_not.mp hstatus, not_lt.mp hlate, rfl⟩

theorem creditPauseTime_cases {delta : Nat} (h : creditPauseTime tx s delta = .ok s') :
    tx.hasRole .slashAppeal tx.sender = true ∧
    s' = { s with pausedTotal := s.pausedTotal + delta } := by
  unfold creditPauseTime at h
  simp only [bind_eq_ok, pure_eq_ok] at h
  rcases h with ⟨_, hrole, total, hadd, rfl⟩
  rw [onlyRole_eq_ok] at hrole
  rcases checkedAdd_eq_ok.mp hadd with ⟨-, rfl⟩
  exact ⟨hrole, rfl⟩

/-- An upheld appeal distributes the escrow. -/
theorem settleAppealUpheld_cases {slashId : Nat} (h : settleAppealUpheld tx s slashId = .ok s') :
    s.paused = false ∧ tx.hasRole .slashAppeal tx.sender = true ∧ slashId < s.slashCounter ∧
    (s.slashRecords slashId).status = .appealOpen ∧
    (s.slashRecords slashId).slashAmount ≤ s.tokenBalance ∧
    (s.slashRecords slashId).slashAmount ≤ s.escrowedTotal ∧
    s' = distributedState s slashId true := by
  unfold settleAppealUpheld at h
  simp only [bind_eq_ok] at h
  rcases h with ⟨_, hpause, _, hrole, ⟨t, amount⟩, hsettle, hrelease⟩
  rw [whenNotPaused_eq_ok] at hpause
  rw [onlyRole_eq_ok] at hrole
  unfold settleUpheld at hsettle
  split at hsettle
  · cases hsettle
  rename_i hknown
  split at hsettle
  · cases hsettle
  rename_i hstatus
  exact ⟨hpause, hrole, not_le.mp hknown, not_not.mp hstatus, distribute_cases hsettle hrelease⟩

/-- The stamp `_recomputeSlashedAtEpoch` writes. -/
def recomputedStamp (s : State) (operator : Address) : Nat :=
  match (s.operatorSlashIds operator).reverse.find?
    fun id => (s.slashRecords id).status ≠ .reversed with
  | none => 0
  | some id => (s.slashRecords id).slashedAt / epochLength % 2 ^ 64 + 1

theorem recomputeSlashedAtEpoch_eq (s : State) (operator : Address) :
    recomputeSlashedAtEpoch s operator = { s with
      slashedAtEpoch := Function.update s.slashedAtEpoch operator (recomputedStamp s operator)
      log := s.log ++ [.slashedAtEpochStamped operator (recomputedStamp s operator)] } := rfl

/-- A granted appeal refunds the escrow to the operator. -/
theorem settleAppealGranted_cases {slashId : Nat} (h : settleAppealGranted tx s slashId = .ok s') :
    s.paused = false ∧ tx.hasRole .slashAppeal tx.sender = true ∧ slashId < s.slashCounter ∧
    (s.slashRecords slashId).status = .appealOpen ∧
    (s.slashRecords slashId).slashAmount ≤ s.tokenBalance ∧
    (s.slashRecords slashId).slashAmount ≤ s.escrowedTotal ∧
    s' = { s.setSlashStatus slashId .reversed with
      slashedAtEpoch := Function.update s.slashedAtEpoch (s.slashRecords slashId).operator
        (recomputedStamp (s.setSlashStatus slashId .reversed) (s.slashRecords slashId).operator)
      tokenBalance := s.tokenBalance - (s.slashRecords slashId).slashAmount
      escrowedTotal := s.escrowedTotal - (s.slashRecords slashId).slashAmount
      payments := s.payments ++ paid (.transfer (s.slashRecords slashId).operator
        (s.slashRecords slashId).slashAmount)
      log := s.log ++ [.slashedAtEpochStamped (s.slashRecords slashId).operator
          (recomputedStamp (s.setSlashStatus slashId .reversed) (s.slashRecords slashId).operator),
        .slashReversed slashId (s.slashRecords slashId).operator
          (s.slashRecords slashId).slashAmount] } := by
  unfold settleAppealGranted at h
  simp only [bind_eq_ok] at h
  rcases h with ⟨_, hpause, _, hrole, ⟨t, operator, refund⟩, hsettle, u, hrelease, hpay⟩
  rw [whenNotPaused_eq_ok] at hpause
  rw [onlyRole_eq_ok] at hrole
  unfold settleGranted at hsettle
  split at hsettle
  · cases hsettle
  rename_i hknown
  split at hsettle
  · cases hsettle
  rename_i hstatus
  simp only [Except.ok.injEq, Prod.mk.injEq] at hsettle
  rcases hsettle with ⟨rfl, rfl, rfl⟩
  unfold releaseEscrow at hrelease
  simp only [bind_eq_ok, pure_eq_ok] at hrelease
  rcases hrelease with ⟨escrowed, hescrow, rfl⟩
  rcases checkedSub_eq_ok.mp hescrow with ⟨hesc, rfl⟩
  rcases payOut_cases hpay with ⟨hbal, rfl⟩
  refine ⟨hpause, hrole, not_le.mp hknown, not_not.mp hstatus, hbal, hesc, ?_⟩
  simp only [State.emit, recomputeSlashedAtEpoch_eq, Payment.amount, State.setSlashStatus,
    List.append_assoc, List.cons_append, List.nil_append]

/-! ## Parameters -/

/-- Only the setters write the parameters. -/
theorem exec_params {c : Call} (hc : ¬ c.IsSetter) (h : exec H tx s c = .ok s') :
    s'.params = s.params := by
  cases c with
  | bond amount =>
    rcases bond_cases h with ⟨-, -, -, rfl⟩
    rfl
  | requestUnbond amount =>
    rcases requestUnbond_cases h with ⟨-, -, -, rfl⟩
    rfl
  | unbond =>
    rcases unbond_cases h with ⟨-, -, -, rfl⟩
    rfl
  | declareMbps mbps =>
    rcases declareMbps_cases h with ⟨-, history, -, rfl⟩
    rfl
  | updateRegion newRegion =>
    rcases updateRegion_cases h with ⟨-, -, -, -, rfl⟩
    rfl
  | registerNode nodeId multiaddrs regionHint termsHash bindingSignature ed25519Signature =>
    rcases registerNode_cases h with ⟨-, -, -, -, -, -, -, -, -, -, rfl⟩
    rfl
  | deregisterNode =>
    rcases deregisterNode_cases h with ⟨-, addrs, index, history, events, -, -, -, rfl⟩
    rfl
  | bindNodeId nodeId bindingSignature ed25519Signature =>
    rcases bindNodeId_cases h with ⟨-, -, -, toAddress, nonces, -, rfl⟩
    rfl
  | reclaimNodeId nodeId ed25519Signature =>
    rcases reclaimNodeId_cases h with ⟨-, -, -, holder, addrs, index, nodes, events, -, -, rfl⟩
    rfl
  | updateMultiaddrs multiaddrs =>
    rcases updateMultiaddrs_cases h with rfl
    rfl
  | slash operator challenger offenseType evidenceHash =>
    rcases exec_slash_cases h with ⟨slashId, amount, hslash⟩
    rcases slash_cases hslash with ⟨-, -, -, -, -, -, r, -, -, -, events, tail, ejected,
      nodes, nonces, addrs, index, -, -, -, rfl⟩
    rfl
  | finalizeUnappealedSlash slashId =>
    rcases finalizeUnappealedSlash_cases h with ⟨-, -, -, -, -, -, rfl⟩
    rfl
  | markAppealOpen slashId =>
    rcases markAppealOpen_cases h with ⟨-, -, -, -, -, rfl⟩
    rfl
  | creditPauseTime delta =>
    rcases creditPauseTime_cases h with ⟨-, rfl⟩
    rfl
  | settleAppealUpheld slashId =>
    rcases settleAppealUpheld_cases h with ⟨-, -, -, -, -, -, rfl⟩
    rfl
  | settleAppealGranted slashId =>
    rcases settleAppealGranted_cases h with ⟨-, -, -, -, -, -, rfl⟩
    rfl
  | ejectNode operator =>
    rcases ejectNode_cases h with ⟨-, rfl⟩ | ⟨-, nodes, nonces, addrs, index, events, -, -, rfl⟩
    · rfl
    · rfl
  | unEjectNode operator =>
    rcases unEjectNode_cases h with rfl | rfl
    · rfl
    · rfl
  | pause =>
    rcases pause_cases h with ⟨-, rfl⟩
    rfl
  | unpause =>
    rcases unpause_cases h with ⟨-, -, rfl⟩
    rfl
  | _ => exact absurd trivial hc

/-- The parameters after a call. -/
def Call.setParams (p : Params) : Call → Params
  | .setMinBond n => { p with minBond := n }
  | .setCurrentTermsHash terms => { p with currentTermsHash := terms }
  | .setK n => { p with kConstant := n }
  | .setAlpha n => { p with alphaWad := n }
  | .setMinCapacityMbps n => { p with minCapacityMbps := n }
  | .setMaxCapacityMbps n => { p with maxCapacityMbps := n }
  | .setSlashJudge judge => { p with slashJudge := judge }
  | .setUnbondingPeriod n => { p with unbondingPeriod := n }
  | .setMultiaddrUpdateCooldown n => { p with multiaddrUpdateCooldown := n }
  | .setMaxMultiaddrSize n => { p with maxMultiaddrSize := n }
  | .setRegionStabilityWindow n => { p with regionStabilityWindow := n }
  | _ => p

/-- Every setter writes its own parameter. -/
theorem exec_setParams {c : Call} (h : exec H tx s c = .ok s') :
    s'.params = c.setParams s.params := by
  by_cases hset : c.IsSetter
  · cases c with
    | setMinBond n => rw [(setBounded_cases h).2.2]; rfl
    | setCurrentTermsHash terms => rw [setCurrentTermsHash_cases h]; rfl
    | setK n => rw [setK_cases h]; rfl
    | setAlpha n => rw [setAlpha_cases h]; rfl
    | setMinCapacityMbps n => rw [(setBounded_cases h).2.2]; rfl
    | setMaxCapacityMbps n => rw [(setBounded_cases h).2.2]; rfl
    | setSlashJudge judge => rw [(setSlashJudge_cases h).2.2.2]; rfl
    | setUnbondingPeriod n => rw [(setUnbondingPeriod_cases h).2]; rfl
    | setMultiaddrUpdateCooldown n => rw [(setBounded_cases h).2.2]; rfl
    | setMaxMultiaddrSize n => rw [(setBounded_cases h).2.2]; rfl
    | setRegionStabilityWindow n => rw [(setBounded_cases h).2.2]; rfl
    | _ => exact absurd hset id
  · rw [exec_params hset h]
    cases c with
    | setMinBond | setCurrentTermsHash | setK | setAlpha | setMinCapacityMbps
    | setMaxCapacityMbps | setSlashJudge | setUnbondingPeriod | setMultiaddrUpdateCooldown
    | setMaxMultiaddrSize | setRegionStabilityWindow => exact absurd trivial hset
    | _ => rfl

/-- The unbonding period and the judge are written by their own setters only, which check them
against each other. -/
theorem exec_unbonding_params {c : Call} (h : exec H tx s c = .ok s') :
    (s'.params.unbondingPeriod = s.params.unbondingPeriod ∧
      s'.params.slashJudge = s.params.slashJudge) ∨
    (s'.params.slashJudge = s.params.slashJudge ∧ (s.params.slashJudge = 0 ∨
      CoversAge tx s.params.slashJudge s'.params.unbondingPeriod)) ∨
    s.params.slashJudge = 0 := by
  have hparams := exec_setParams h
  cases c with
  | setSlashJudge judge => exact .inr (.inr (setSlashJudge_cases h).1)
  | setUnbondingPeriod n =>
    rcases setUnbondingPeriod_cases h with ⟨hcovers, rfl⟩
    exact .inr (.inl ⟨rfl, hcovers⟩)
  | _ =>
    rw [hparams]
    exact .inl ⟨rfl, rfl⟩

end Decdn.CapacityBond
