import Decdn.CapacityBond.Spec

/-!
# Specifications of the registry calls

One inversion lemma for each registry call: what a call that returns has checked,
and the storage after it as one write.

Main results:

- Theorem `registerNode_cases` and Theorem `deregisterNode_cases`: entry and exit.
- Theorem `bindNodeId_cases` and Theorem `reclaimNodeId_cases`: the moves of a node id.
- Theorem `ejectNodeEffects_expelled`: what an ejection writes.
- Theorem `ejectNode_cases` and Theorem `unEjectNode_cases`: the blacklist latch.
-/

namespace Decdn.CapacityBond

variable {H : Wiring} {tx : Tx} {s s' : State}

/-! ## Signatures -/

theorem verifyEd25519OwnershipSignature_eq_ok {nodeId : Bytes32} {sig : Bytes} {nonce : Nat}
    (h : verifyEd25519OwnershipSignature H tx s nodeId sig = .ok nonce) :
    H.verify nodeId (H.ownershipMessage nodeId tx.sender (s.registrationNonce nodeId)) sig = true ∧
      nonce = s.registrationNonce nodeId := by
  unfold verifyEd25519OwnershipSignature at h
  dsimp only at h
  split at h
  · rename_i hverify
    exact ⟨hverify, (Except.ok.inj h).symm⟩
  · cases h

theorem verifyBindingSignature_eq_ok {nodeId : Bytes32} {sig : Bytes} {nonce : Nat}
    (h : verifyBindingSignature H tx s nodeId sig = .ok nonce) : nonce = s.bindingNonce tx.sender := by
  unfold verifyBindingSignature at h
  dsimp only at h
  split at h
  · exact (Except.ok.inj h).symm
  · cases h

theorem verifyRegistrationSignature_eq_ok {nodeId termsHash : Bytes32} {sig : Bytes} {nonce : Nat}
    (h : verifyRegistrationSignature H tx s nodeId termsHash sig = .ok nonce) :
    nonce = s.bindingNonce tx.sender := by
  unfold verifyRegistrationSignature at h
  dsimp only at h
  split at h
  · exact (Except.ok.inj h).symm
  · cases h

/-! ## Registration -/

theorem checkRegistrationPreconditions_eq_ok {nodeId : Bytes32} {m r : Nat} {u : Unit}
    (h : checkRegistrationPreconditions H tx s nodeId m r = .ok u) :
    nodeId ≠ 0 ∧ r ≤ maxRegionHintBytes ∧ s.params.minBond ≤ s.activeBond tx.sender ∧
      (∃ required, s.bondRequired H (s.declaredMbps tx.sender) = .ok required ∧
        required ≤ s.activeBond tx.sender) ∧
      s.ejected tx.sender = false ∧ (s.nodes tx.sender).active = false := by
  unfold checkRegistrationPreconditions at h
  dsimp only at h
  split at h
  · cases h
  rename_i hzero
  split at h
  · cases h
  split at h
  · cases h
  rename_i hregion
  split at h
  · cases h
  rename_i hmin
  simp only [bind_eq_ok] at h
  rcases h with ⟨required, hrequired, h⟩
  split at h
  · cases h
  rename_i hcurve
  split at h
  · cases h
  rename_i hejected
  split at h
  · cases h
  rename_i hactive
  exact ⟨hzero, not_lt.mp hregion, not_lt.mp hmin, ⟨required, hrequired, not_lt.mp hcurve⟩,
    by simpa using hejected, by simpa using hactive⟩

theorem checkBindingOneToOne_eq_ok {nodeId : Bytes32} {u : Unit}
    (h : checkBindingOneToOne tx s nodeId = .ok u) :
    (s.nodeIdToAddress nodeId = 0 ∨ s.nodeIdToAddress nodeId = tx.sender) ∧
      (s.addressToNodeId tx.sender = 0 ∨ s.addressToNodeId tx.sender = nodeId) := by
  unfold checkBindingOneToOne at h
  dsimp only at h
  split at h
  · cases h
  rename_i howner
  split at h
  · cases h
  rename_i hbinding
  constructor
  · by_cases hzero : s.nodeIdToAddress nodeId = 0
    · exact .inl hzero
    · exact .inr (by_contra fun hne => howner ⟨hzero, hne⟩)
  · by_cases hzero : s.addressToNodeId tx.sender = 0
    · exact .inl hzero
    · exact .inr (by_contra fun hne => hbinding ⟨hzero, hne⟩)

/-- The array and the index after an operator joins the active set. -/
theorem addToRegisteredSet_eq (s : State) (operator : Address) :
    addToRegisteredSet s operator = { s with
      registeredAddrs :=
        if s.registeredIndex operator ≠ 0 then s.registeredAddrs
        else s.registeredAddrs ++ [operator]
      registeredIndex :=
        if s.registeredIndex operator ≠ 0 then s.registeredIndex
        else Function.update s.registeredIndex operator (s.registeredAddrs.length + 1) } := by
  unfold addToRegisteredSet
  split <;> rfl

/-- The region an operator's record holds after a region write. -/
def regionAfter (H : Wiring) (s : State) (operator : Address) (newRegion : Bytes) : Bytes :=
  if H.keccak256 (s.nodes operator).regionHint ≠ H.keccak256 newRegion then newRegion
  else (s.nodes operator).regionHint

/-- The previous region after a region write. -/
def regionPrevAfter (H : Wiring) (s : State) (operator : Address) (newRegion : Bytes) :
    Address → Bytes :=
  if H.keccak256 (s.nodes operator).regionHint ≠ H.keccak256 newRegion then
    Function.update s.regionPrev operator (s.nodes operator).regionHint
  else s.regionPrev

/-- The record `_writeNodeInfo` leaves. -/
def registeredInfo (H : Wiring) (tx : Tx) (s : State) (nodeId : Bytes32)
    (multiaddrs regionHint : Bytes) : NodeInfo where
  nodeId := nodeId
  ethAddress := tx.sender
  active := true
  lastMultiaddrUpdate := tx.timestamp
  multiaddrs := multiaddrs
  regionHint := regionAfter H s tx.sender regionHint

/-- Writing a node record touches the record, the previous region and its stamp. -/
theorem writeNodeInfo_eq (s : State) (nodeId : Bytes32) (multiaddrs regionHint : Bytes) :
    writeNodeInfo H tx s nodeId multiaddrs regionHint = { s with
      nodes := Function.update s.nodes tx.sender
        (registeredInfo H tx s nodeId multiaddrs regionHint)
      regionPrev := regionPrevAfter H s tx.sender regionHint
      regionLastChanged := Function.update s.regionLastChanged tx.sender tx.timestamp } := by
  unfold writeNodeInfo
  dsimp only
  rw [setRegion_eq]
  simp only [Function.update_self, Function.update_idem, timestamp_mod]
  by_cases hkeep : H.keccak256 (s.nodes tx.sender).regionHint = H.keccak256 regionHint
  · simp [registeredInfo, regionAfter, regionPrevAfter, hkeep]
  · simp [registeredInfo, regionAfter, regionPrevAfter, hkeep]

/-- A registration: what it has checked, and every slot it wrote. -/
theorem registerNode_cases {nodeId termsHash : Bytes32}
    {multiaddrs regionHint bindingSignature ed25519Signature : Bytes}
    (h : registerNode H tx s nodeId multiaddrs regionHint termsHash bindingSignature
      ed25519Signature = .ok s') :
    s.paused = false ∧ nodeId ≠ 0 ∧ regionHint.length ≤ maxRegionHintBytes ∧
    s.params.minBond ≤ s.activeBond tx.sender ∧
    (∃ required, s.bondRequired H (s.declaredMbps tx.sender) = .ok required ∧
      required ≤ s.activeBond tx.sender) ∧
    s.ejected tx.sender = false ∧ (s.nodes tx.sender).active = false ∧
    (s.nodeIdToAddress nodeId = 0 ∨ s.nodeIdToAddress nodeId = tx.sender) ∧
    (s.addressToNodeId tx.sender = 0 ∨ s.addressToNodeId tx.sender = nodeId) ∧
    H.verify nodeId (H.ownershipMessage nodeId tx.sender (s.registrationNonce nodeId))
      ed25519Signature = true ∧
    s' = { s with
      nodeIdToAddress := Function.update s.nodeIdToAddress nodeId tx.sender
      addressToNodeId := Function.update s.addressToNodeId tx.sender nodeId
      bindingNonce := Function.update s.bindingNonce tx.sender (s.bindingNonce tx.sender + 1)
      bondFloorAtActivation :=
        Function.update s.bondFloorAtActivation tx.sender s.params.minBond
      nodes := Function.update s.nodes tx.sender
        (registeredInfo H tx s nodeId multiaddrs regionHint)
      regionPrev := regionPrevAfter H s tx.sender regionHint
      regionLastChanged := Function.update s.regionLastChanged tx.sender tx.timestamp
      registeredAddrs :=
        if s.registeredIndex tx.sender ≠ 0 then s.registeredAddrs
        else s.registeredAddrs ++ [tx.sender]
      registeredIndex :=
        if s.registeredIndex tx.sender ≠ 0 then s.registeredIndex
        else Function.update s.registeredIndex tx.sender (s.registeredAddrs.length + 1)
      log := s.log ++
        [.nodeRegistered nodeId tx.sender multiaddrs regionHint (s.bindingNonce tx.sender)
          (s.registrationNonce nodeId)] ++
        [.nodeIdBound tx.sender nodeId (s.bindingNonce tx.sender)] ++
        [.termsAccepted nodeId termsHash tx.timestamp] } := by
  unfold registerNode at h
  simp only [bind_eq_ok] at h
  rcases h with ⟨_, hpause, h⟩
  rw [whenNotPaused_eq_ok] at hpause
  split at h
  · cases h
  simp only [bind_eq_ok, pure_eq_ok] at h
  rcases h with ⟨_, hpre, _, hone, bn, hbind, rn, hed, nb, hadd, rfl⟩
  rcases checkRegistrationPreconditions_eq_ok hpre with
    ⟨hzero, hregion, hmin, hcurve, hejected, hactive⟩
  rcases checkBindingOneToOne_eq_ok hone with ⟨howner, hbinding⟩
  rcases verifyRegistrationSignature_eq_ok hbind with rfl
  rcases verifyEd25519OwnershipSignature_eq_ok hed with ⟨hverify, rfl⟩
  rcases checkedAdd_eq_ok.mp hadd with ⟨-, rfl⟩
  refine ⟨hpause, hzero, hregion, hmin, hcurve, hejected, hactive, howner, hbinding, hverify, ?_⟩
  rw [writeNodeInfo_eq, addToRegisteredSet_eq]
  simp only [State.emit, State.bind, registeredInfo, regionAfter, regionPrevAfter]
  rfl

/-- A deregistration: the operator leaves the active set, its node id's nonce moves on
and its tier is released. -/
theorem deregisterNode_cases (h : deregisterNode H tx s = .ok s') :
    (s.nodes tx.sender).active = true ∧
    ∃ addrs index history events,
      Vacated s.registeredAddrs s.registeredIndex tx.sender addrs index ∧
      ((s.declaredMbps tx.sender = 0 ∧ history = s.declaredMbpsHistory tx.sender) ∨
        (s.declaredMbps tx.sender ≠ 0 ∧
          H.checkpoints.push (s.declaredMbpsHistory tx.sender) tx.timestamp 0 = some history)) ∧
      (events = [.nodeDeregistered (s.nodes tx.sender).nodeId] ∨
        events = [.mbpsDeclared tx.sender (s.declaredMbps tx.sender) 0,
          .nodeDeregistered (s.nodes tx.sender).nodeId]) ∧
      s' = { s with
        nodes := Function.update s.nodes tx.sender { s.nodes tx.sender with active := false }
        registrationNonce := Function.update s.registrationNonce (s.nodes tx.sender).nodeId
          (s.registrationNonce (s.nodes tx.sender).nodeId + 1)
        registeredAddrs := addrs
        registeredIndex := index
        declaredMbps := Function.update s.declaredMbps tx.sender 0
        declaredMbpsHistory := Function.update s.declaredMbpsHistory tx.sender history
        log := s.log ++ events } := by
  unfold deregisterNode at h
  dsimp only at h
  split at h
  · cases h
  rename_i hactive
  simp only [bind_eq_ok] at h
  rcases h with ⟨t, hbump, u, hremove, h⟩
  rcases bumpRegistrationNonce_cases hbump with rfl
  rcases removeFromRegisteredSet_cases hremove with ⟨addrs, index, hvacated, rfl⟩
  refine ⟨by simpa using hactive, addrs, index, ?_⟩
  split at h
  · rename_i hzero
    rcases pure_eq_ok.mp h with rfl
    refine ⟨_, _, hvacated, .inl ⟨hzero, rfl⟩, .inl rfl, ?_⟩
    have htier : Function.update s.declaredMbps tx.sender 0 = s.declaredMbps := by
      rw [Function.update_eq_self_iff]
      exact hzero.symm
    rw [htier, Function.update_eq_self]
    rfl
  · rename_i hpos
    simp only [bind_eq_ok, pure_eq_ok] at h
    rcases h with ⟨v, hrecord, rfl⟩
    rcases record_cases hrecord with ⟨history, hpush, rfl⟩
    refine ⟨history, _, hvacated, .inr ⟨hpos, hpush⟩, .inr rfl, ?_⟩
    simp only [State.emit, State.deactivate, List.append_assoc, List.cons_append, List.nil_append]

/-- An update of the region by an active operator whose region has ripened. -/
theorem updateRegion_cases {newRegion : Bytes} (h : updateRegion H tx s newRegion = .ok s') :
    s.paused = false ∧ newRegion.length ≤ maxRegionHintBytes ∧
    (s.nodes tx.sender).active = true ∧
    s.regionLastChanged tx.sender + s.params.regionStabilityWindow % 2 ^ 64 ≤ tx.timestamp ∧
    s' = { s with
      nodes := Function.update s.nodes tx.sender
        { s.nodes tx.sender with regionHint := regionAfter H s tx.sender newRegion }
      regionPrev := regionPrevAfter H s tx.sender newRegion
      regionLastChanged := Function.update s.regionLastChanged tx.sender tx.timestamp
      log := s.log ++ [.regionUpdated (s.nodes tx.sender).nodeId
        (s.nodes tx.sender).regionHint newRegion] } := by
  unfold updateRegion at h
  simp only [bind_eq_ok] at h
  rcases h with ⟨_, hpause, h⟩
  rw [whenNotPaused_eq_ok] at hpause
  split at h
  · cases h
  rename_i hlen
  split at h
  · cases h
  rename_i hactive
  simp only [bind_eq_ok] at h
  rcases h with ⟨readyAt, hadd, h⟩
  rcases checkedAdd_eq_ok.mp hadd with ⟨-, rfl⟩
  split at h
  · cases h
  rename_i hready
  rcases pure_eq_ok.mp h with rfl
  refine ⟨hpause, not_lt.mp hlen, by simpa using hactive, not_lt.mp hready, ?_⟩
  rw [setRegion_eq]
  by_cases hkeep : H.keccak256 (s.nodes tx.sender).regionHint = H.keccak256 newRegion
  · simp [State.emit, regionAfter, regionPrevAfter, hkeep]
  · simp [State.emit, regionAfter, regionPrevAfter, hkeep]

theorem updateMultiaddrs_cases {multiaddrs : Bytes} (h : updateMultiaddrs tx s multiaddrs = .ok s') :
    s' = { s with
      nodes := Function.update s.nodes tx.sender { s.nodes tx.sender with
        multiaddrs := multiaddrs, lastMultiaddrUpdate := tx.timestamp }
      log := s.log ++ [.nodeMultiaddrUpdated (s.nodes tx.sender).nodeId multiaddrs] } := by
  unfold updateMultiaddrs at h
  simp only [bind_eq_ok, timestamp_mod] at h
  rcases h with ⟨_, -, h⟩
  split at h
  · cases h
  split at h
  · cases h
  simp only [bind_eq_ok] at h
  rcases h with ⟨readyAt, -, h⟩
  split at h
  · cases h
  rcases pure_eq_ok.mp h with rfl
  rfl

/-! ## Moves of a node id -/

/-- A rotation releases the old node id, with its nonce moved on, and binds the new one. -/
theorem bindNodeId_cases {nodeId : Bytes32} {bindingSignature ed25519Signature : Bytes}
    (h : bindNodeId H tx s nodeId bindingSignature ed25519Signature = .ok s') :
    nodeId ≠ 0 ∧
    (s.nodeIdToAddress nodeId = 0 ∨ s.nodeIdToAddress nodeId = tx.sender) ∧
    H.verify nodeId (H.ownershipMessage nodeId tx.sender (s.registrationNonce nodeId))
      ed25519Signature = true ∧
    ∃ toAddress nonces,
      ((s.addressToNodeId tx.sender ≠ 0 ∧ s.addressToNodeId tx.sender ≠ nodeId ∧
          toAddress = Function.update s.nodeIdToAddress (s.addressToNodeId tx.sender) 0 ∧
          nonces = Function.update s.registrationNonce (s.addressToNodeId tx.sender)
            (s.registrationNonce (s.addressToNodeId tx.sender) + 1)) ∨
        ((s.addressToNodeId tx.sender = 0 ∨ s.addressToNodeId tx.sender = nodeId) ∧
          toAddress = s.nodeIdToAddress ∧ nonces = s.registrationNonce)) ∧
      s' = { s with
        nodeIdToAddress := Function.update toAddress nodeId tx.sender
        addressToNodeId := Function.update s.addressToNodeId tx.sender nodeId
        registrationNonce := nonces
        bindingNonce := Function.update s.bindingNonce tx.sender (s.bindingNonce tx.sender + 1)
        nodes :=
          if (s.nodes tx.sender).active then
            Function.update s.nodes tx.sender { s.nodes tx.sender with nodeId := nodeId }
          else s.nodes
        log := s.log ++ [.nodeIdBound tx.sender nodeId (s.bindingNonce tx.sender)] } := by
  unfold bindNodeId at h
  simp only [bind_eq_ok] at h
  rcases h with ⟨_, -, h⟩
  split at h
  · cases h
  rename_i hzero
  split at h
  · cases h
  rename_i howner
  simp only [bind_eq_ok] at h
  rcases h with ⟨bn, hbind, rn, hed, h⟩
  rcases verifyBindingSignature_eq_ok hbind with rfl
  rcases verifyEd25519OwnershipSignature_eq_ok hed with ⟨hverify, rfl⟩
  refine ⟨hzero, ?_, hverify, ?_⟩
  · by_cases hfree : s.nodeIdToAddress nodeId = 0
    · exact .inl hfree
    · exact .inr (by_contra fun hne => howner ⟨hfree, hne⟩)
  split at h
  · rename_i hold
    simp only [bind_eq_ok, pure_eq_ok] at h
    rcases h with ⟨t, hbump, nb, hadd, rfl⟩
    rcases bumpRegistrationNonce_cases hbump with rfl
    rcases checkedAdd_eq_ok.mp hadd with ⟨-, rfl⟩
    refine ⟨_, _, .inl ⟨hold.1, hold.2, rfl, rfl⟩, ?_⟩
    by_cases hactive : (s.nodes tx.sender).active = true
    · simp [State.emit, State.bind, hactive]
    · simp [State.emit, State.bind, hactive]
  · rename_i hold
    simp only [bind_eq_ok, pure_eq_ok] at h
    rcases h with ⟨t, rfl, nb, hadd, rfl⟩
    rcases checkedAdd_eq_ok.mp hadd with ⟨-, rfl⟩
    refine ⟨_, _, .inr ⟨?_, rfl, rfl⟩, ?_⟩
    · by_cases hfree : s.addressToNodeId tx.sender = 0
      · exact .inl hfree
      · exact .inr (by_contra fun hne => hold ⟨hfree, hne⟩)
    · by_cases hactive : (s.nodes tx.sender).active = true
      · simp [State.emit, State.bind, hactive]
      · simp [State.emit, State.bind, hactive]

/-- A reclaim: the holder loses the node id, leaves the active set if its record names
that id, and the id's nonce moves on. -/
theorem reclaimNodeId_cases {nodeId : Bytes32} {ed25519Signature : Bytes}
    (h : reclaimNodeId H tx s nodeId ed25519Signature = .ok s') :
    nodeId ≠ 0 ∧ s.nodeIdToAddress nodeId ≠ 0 ∧
    H.verify nodeId (H.ownershipMessage nodeId tx.sender (s.registrationNonce nodeId))
      ed25519Signature = true ∧
    ∃ holder addrs index nodes events,
      holder = s.nodeIdToAddress nodeId ∧
      (((s.nodes holder).nodeId = nodeId ∧ (s.nodes holder).active = true ∧
          Vacated s.registeredAddrs s.registeredIndex holder addrs index ∧
          nodes = Function.update s.nodes holder
            { s.nodes holder with active := false, nodeId := 0 } ∧
          events = [.nodeDeregistered nodeId]) ∨
        ((s.nodes holder).nodeId = nodeId ∧ (s.nodes holder).active = false ∧
          addrs = s.registeredAddrs ∧ index = s.registeredIndex ∧
          nodes = Function.update s.nodes holder { s.nodes holder with nodeId := 0 } ∧
          events = []) ∨
        ((s.nodes holder).nodeId ≠ nodeId ∧ addrs = s.registeredAddrs ∧
          index = s.registeredIndex ∧ nodes = s.nodes ∧ events = [])) ∧
      s' = { s with
        nodeIdToAddress := Function.update s.nodeIdToAddress nodeId 0
        addressToNodeId := Function.update s.addressToNodeId holder 0
        registrationNonce :=
          Function.update s.registrationNonce nodeId (s.registrationNonce nodeId + 1)
        nodes := nodes
        registeredAddrs := addrs
        registeredIndex := index
        log := s.log ++ events ++ [.nodeIdReclaimed nodeId holder] } := by
  unfold reclaimNodeId at h
  simp only [bind_eq_ok] at h
  rcases h with ⟨_, -, h⟩
  split at h
  · cases h
  rename_i hzero
  split at h
  · cases h
  rename_i hbound
  simp only [bind_eq_ok] at h
  rcases h with ⟨rn, hed, h⟩
  rcases verifyEd25519OwnershipSignature_eq_ok hed with ⟨hverify, -⟩
  refine ⟨hzero, hbound, hverify, s.nodeIdToAddress nodeId, ?_⟩
  split at h
  · rename_i hid
    split at h
    · rename_i hactive
      simp only [bind_eq_ok, pure_eq_ok] at h
      rcases h with ⟨v, hremove, u, rfl, t, rfl, w, hbump, rfl⟩
      rcases removeFromRegisteredSet_cases hremove with ⟨addrs, index, hvacated, rfl⟩
      rcases bumpRegistrationNonce_cases hbump with rfl
      refine ⟨addrs, index, _, _, rfl, .inl ⟨hid, hactive, hvacated, rfl, rfl⟩, ?_⟩
      simp [State.emit, State.deactivate]
    · rename_i hactive
      simp only [bind_eq_ok, pure_eq_ok] at h
      rcases h with ⟨u, rfl, t, rfl, w, hbump, rfl⟩
      rcases bumpRegistrationNonce_cases hbump with rfl
      refine ⟨_, _, _, _, rfl, .inr (.inl ⟨hid, by simpa using hactive, rfl, rfl, rfl, rfl⟩), ?_⟩
      simp [State.emit]
  · rename_i hid
    simp only [bind_eq_ok, pure_eq_ok] at h
    rcases h with ⟨t, rfl, w, hbump, rfl⟩
    rcases bumpRegistrationNonce_cases hbump with rfl
    refine ⟨_, _, _, _, rfl, .inr (.inr ⟨hid, rfl, rfl, rfl, rfl⟩), ?_⟩
    simp [State.emit]

/-! ## The blacklist latch -/

/-- The registry after an ejection of `operator`: an active node leaves the active set and
its node id's nonce moves on. -/
def Expelled (s : State) (operator : Address) (nodes : Address → NodeInfo)
    (nonces : Bytes32 → Nat) (addrs : List Address) (index : Address → Nat) : Prop :=
  ((s.nodes operator).active = false ∧ nodes = s.nodes ∧ nonces = s.registrationNonce ∧
    addrs = s.registeredAddrs ∧ index = s.registeredIndex) ∨
  ((s.nodes operator).active = true ∧
    Vacated s.registeredAddrs s.registeredIndex operator addrs index ∧
    nodes = Function.update s.nodes operator { s.nodes operator with active := false } ∧
    nonces = Function.update s.registrationNonce (s.nodes operator).nodeId
      (s.registrationNonce (s.nodes operator).nodeId + 1))

/-- An ejection writes the registry as `Expelled` says, and nothing else. -/
theorem ejectNodeEffects_expelled {operator : Address} {nodeId : Bytes32}
    (h : ejectNodeEffects s operator = .ok (s', nodeId)) :
    ∃ nodes nonces addrs index, Expelled s operator nodes nonces addrs index ∧
      s' = { s with
        nodes := nodes
        registrationNonce := nonces
        registeredAddrs := addrs
        registeredIndex := index } := by
  rcases ejectNodeEffects_cases h with
    ⟨hinactive, rfl, -⟩ | ⟨hactive, -, addrs, index, hvacated, rfl⟩
  · exact ⟨_, _, _, _, .inl ⟨hinactive, rfl, rfl, rfl, rfl⟩, rfl⟩
  · exact ⟨_, _, _, _, .inr ⟨hactive, hvacated, rfl, rfl⟩, rfl⟩

/-- A blacklist ejection latches the operator; one that is not ejected yet is ejected
and leaves the active set. -/
theorem ejectNode_cases {operator : Address} (h : ejectNode tx s operator = .ok s') :
    (s.ejected operator = true ∧
      s' = { s with blacklistEjected := Function.update s.blacklistEjected operator true }) ∨
    (s.ejected operator = false ∧
      ∃ nodes nonces addrs index events, Expelled s operator nodes nonces addrs index ∧
        (∀ e ∈ events, Event.Quiet e) ∧
        s' = { s with
          blacklistEjected := Function.update s.blacklistEjected operator true
          ejected := Function.update s.ejected operator true
          nodes := nodes
          registrationNonce := nonces
          registeredAddrs := addrs
          registeredIndex := index
          log := s.log ++ events }) := by
  unfold ejectNode at h
  simp only [bind_eq_ok] at h
  rcases h with ⟨_, -, h⟩
  split at h
  · cases h
  split at h
  · rename_i hejected
    rcases pure_eq_ok.mp h with rfl
    exact .inl ⟨hejected, rfl⟩
  · rename_i hejected
    simp only [bind_eq_ok] at h
    rcases h with ⟨⟨t, nodeId⟩, heffects, h⟩
    rcases ejectNodeEffects_expelled heffects with ⟨nodes, nonces, addrs, index, hexpelled, rfl⟩
    refine .inr ⟨by simpa using hejected, nodes, nonces, addrs, index, ?_⟩
    split at h
    · rcases pure_eq_ok.mp h with rfl
      exact ⟨[.ejectedByBlacklist operator], hexpelled, by simp [Event.Quiet], rfl⟩
    · rcases pure_eq_ok.mp h with rfl
      refine ⟨[.ejectedByBlacklist operator] ++ [.nodeAutoEjected nodeId (s.activeBond operator)],
        hexpelled, by simp [Event.Quiet], ?_⟩
      simp [State.emit]

theorem unEjectNode_cases {operator : Address} (h : unEjectNode tx s operator = .ok s') :
    s' = s ∨ s' = { s with
      blacklistEjected := Function.update s.blacklistEjected operator false
      log := s.log ++ [.blacklistEjectionCleared operator] } := by
  unfold unEjectNode at h
  simp only [bind_eq_ok] at h
  rcases h with ⟨_, -, h⟩
  split at h
  · cases h
  split at h
  · rcases pure_eq_ok.mp h with rfl
    exact .inr rfl
  · exact .inl (pure_eq_ok.mp h).symm

end Decdn.CapacityBond
