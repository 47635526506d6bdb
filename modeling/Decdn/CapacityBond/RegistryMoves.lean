import Decdn.CapacityBond.SlashingSpec

/-!
# The registry and the calls that write it

The part of the storage that says who holds which node id and who is in the active set,
with the events that followers of the registry subscribe to.  Every call makes one move on
it, and most calls make none.

Main results:

- Theorem `ejectNode_routed` and Theorem `slash_routed`: what an ejection tells followers.
- Theorem `exec_registryMove`: the move of every call.
-/

namespace Decdn.CapacityBond

variable {H : Wiring} {tx : Tx} {s s' : State} {operator : Address}

/-- The events a follower of the registry subscribes to. -/
def Event.routed : Event → Bool
  | .nodeRegistered .. | .nodeDeregistered .. | .nodeAutoEjected .. | .reinstated ..
  | .unbondingRequested .. | .ejectedByBlacklist .. | .regionUpdated ..
  | .nodeMultiaddrUpdated .. => true
  | _ => false

/-- The registry slots and the events about them. -/
structure Registry where
  nodes : Address → NodeInfo
  nodeIdToAddress : Bytes32 → Address
  addressToNodeId : Address → Bytes32
  registrationNonce : Bytes32 → Nat
  registeredAddrs : List Address
  registeredIndex : Address → Nat
  ejected : Address → Bool
  blacklistEjected : Address → Bool
  events : List Event

def State.registry (s : State) : Registry where
  nodes := s.nodes
  nodeIdToAddress := s.nodeIdToAddress
  addressToNodeId := s.addressToNodeId
  registrationNonce := s.registrationNonce
  registeredAddrs := s.registeredAddrs
  registeredIndex := s.registeredIndex
  ejected := s.ejected
  blacklistEjected := s.blacklistEjected
  events := s.log.filter Event.routed

/-! ## What an ejection emits -/

/-- The node id of an active node with one. -/
def expelledNode (s : State) (operator : Address) : Option Bytes32 :=
  if (s.nodes operator).active = true ∧ (s.nodes operator).nodeId ≠ 0 then
    some (s.nodes operator).nodeId
  else none

/-- The notice that a node was ejected, if one was. -/
def ejectionNotice (s : State) (operator : Address) (remaining : Nat) : List Event :=
  match expelledNode s operator with
  | some nodeId => [.nodeAutoEjected nodeId remaining]
  | none => []

/-- The id that `_ejectNodeEffects` returns decides the notice. -/
theorem ejectionNotice_of_effects {nodeId : Bytes32}
    (h : ejectNodeEffects s operator = .ok (s', nodeId)) (remaining : Nat) :
    ejectionNotice s operator remaining =
      if nodeId = 0 then [] else [.nodeAutoEjected nodeId remaining] := by
  unfold ejectionNotice expelledNode
  rcases ejectNodeEffects_cases h with ⟨hinactive, -, rfl⟩ | ⟨hactive, rfl, -⟩
  · rw [hinactive, if_neg fun hboth => Bool.noConfusion hboth.1, if_pos rfl]
  · by_cases hzero : (s.nodes operator).nodeId = 0
    · rw [if_neg fun hboth => hboth.2 hzero, if_pos hzero]
    · rw [if_pos ⟨hactive, hzero⟩, if_neg hzero]

theorem ejectNodeEffects_log {nodeId : Bytes32}
    (h : ejectNodeEffects s operator = .ok (s', nodeId)) :
    s'.log = s.log ∧ s'.activeBond = s.activeBond := by
  rcases ejectNodeEffects_cases h with ⟨-, rfl, -⟩ | ⟨-, -, addrs, index, -, rfl⟩
  · exact ⟨rfl, rfl⟩
  · exact ⟨rfl, rfl⟩

/-- What a blacklist ejection tells followers. -/
theorem ejectNode_routed (h : ejectNode tx s operator = .ok s')
    (hejected : s.ejected operator = false) :
    s'.log.filter Event.routed = s.log.filter Event.routed ++
      .ejectedByBlacklist operator :: ejectionNotice s operator (s.activeBond operator) := by
  unfold ejectNode at h
  simp only [bind_eq_ok] at h
  rcases h with ⟨_, -, h⟩
  split at h
  · cases h
  rw [if_neg (by rw [hejected]; exact Bool.false_ne_true)] at h
  simp only [bind_eq_ok] at h
  rcases h with ⟨⟨t, nodeId⟩, heffects, h⟩
  rcases ejectNodeEffects_log heffects with ⟨hlog, hbond⟩
  have hnotice := ejectionNotice_of_effects heffects (s.activeBond operator)
  change ejectionNotice s operator (s.activeBond operator) = _ at hnotice
  rw [hnotice]
  split at h
  · rename_i hzero
    rcases pure_eq_ok.mp h with rfl
    rw [hlog, if_pos hzero]
    simp [State.emit, Event.routed]
  · rename_i hzero
    rcases pure_eq_ok.mp h with rfl
    rw [if_neg hzero]
    simp [State.emit, Event.routed, hlog, hbond]

theorem maybeAutoEject_routed (h : maybeAutoEject s operator = .ok s') :
    (s'.ejected = s.ejected ∧ s'.log = s.log) ∨
    (s.ejected operator = false ∧ s'.ejected = Function.update s.ejected operator true ∧
      s'.log.filter Event.routed = s.log.filter Event.routed ++
        ejectionNotice s operator (s.activeBond operator)) := by
  unfold maybeAutoEject at h
  dsimp only at h
  change (if ejectionFloor s operator / 2 ≤ s.activeBond operator ∨ s.ejected operator = true
    then _ else _) = _ at h
  split at h
  · rcases Except.ok.inj h with rfl
    exact .inl ⟨rfl, rfl⟩
  · rename_i hdue
    rw [not_or] at hdue
    simp only [bind_eq_ok] at h
    rcases h with ⟨⟨t, nodeId⟩, heffects, h⟩
    rcases ejectNodeEffects_log heffects with ⟨hlog, hbond⟩
    have hejected : t.ejected = Function.update s.ejected operator true := by
      rcases ejectNodeEffects_cases heffects with ⟨-, rfl, -⟩ | ⟨-, -, addrs, index, -, rfl⟩
      · rfl
      · rfl
    have hnotice := ejectionNotice_of_effects heffects (s.activeBond operator)
    change ejectionNotice s operator (s.activeBond operator) = _ at hnotice
    rw [hnotice]
    refine .inr ⟨by simpa using hdue.2, ?_⟩
    split at h
    · rename_i hzero
      rcases pure_eq_ok.mp h with rfl
      rw [if_pos hzero]
      exact ⟨hejected, by simp [State.emit, Event.routed, hlog]⟩
    · rename_i hzero
      rcases pure_eq_ok.mp h with rfl
      rw [if_neg hzero]
      exact ⟨hejected, by simp [State.emit, Event.routed, hlog, hbond]⟩

/-- What a slash tells followers. -/
theorem slash_routed {challenger : Address} {offenseType : UInt8} {evidenceHash : Bytes32}
    {slashId amount : Nat}
    (h : slash tx s operator challenger offenseType evidenceHash = .ok (s', slashId, amount)) :
    (s'.ejected = s.ejected ∧ s'.log.filter Event.routed = s.log.filter Event.routed) ∨
    (s.ejected operator = false ∧ s'.ejected = Function.update s.ejected operator true ∧
      ∃ remaining, s'.log.filter Event.routed = s.log.filter Event.routed ++
        ejectionNotice s operator remaining) := by
  unfold slash at h
  simp only [bind_eq_ok] at h
  rcases h with ⟨_, -, _, -, h⟩
  split at h
  · cases h
  simp only [bind_eq_ok, pure_eq_ok] at h
  rcases h with ⟨newCount, -, ⟨t, total⟩, hreduce, ⟨u, id⟩, hmint, v, hstamp, h⟩
  simp only [Prod.mk.injEq] at h
  rcases h with ⟨rfl, -, -⟩
  unfold reduceBondAtTier at hreduce
  simp only [bind_eq_ok, pure_eq_ok, Prod.mk.injEq] at hreduce
  rcases hreduce with ⟨r, -, rfl, rfl⟩
  unfold mintSlashRecord at hmint
  simp only [bind_eq_ok, pure_eq_ok, Prod.mk.injEq] at hmint
  rcases hmint with ⟨escrowed, -, windowClose, -, rfl, rfl⟩
  unfold stampSlash at hstamp
  simp only [bind_eq_ok, pure_eq_ok] at hstamp
  rcases hstamp with ⟨stamp, -, e, heject, rfl⟩
  rcases maybeAutoEject_routed heject with ⟨hejected, hlog⟩ | ⟨hfree, hejected, hlog⟩
  · refine .inl ⟨hejected, ?_⟩
    simp [State.emit, Event.routed, hlog]
  · refine .inr ⟨hfree, hejected, r.newActive, ?_⟩
    simp only [State.emit, List.filter_append, hlog, List.filter_cons, List.filter_nil,
      Event.routed, Bool.false_eq_true, if_false, List.append_nil, Function.update_self]
    rfl

/-! ## Moves -/

/-- What a call does to the registry. -/
inductive RegistryMove (H : Wiring) (tx : Tx) (s s' : State) : Call → Prop where
  | kept (c : Call) (h : s'.registry = s.registry) : RegistryMove H tx s s' c
  | unbonding (amount unlockAt newActive : Nat)
      (h : s'.registry = { s.registry with
        events := s.registry.events ++
          [.unbondingRequested tx.sender amount unlockAt newActive] }) :
      RegistryMove H tx s s' (.requestUnbond amount)
  | reinstated (amount : Nat) (hejected : s.ejected tx.sender = true)
      (hfree : s.blacklistEjected tx.sender = false)
      (h : s'.registry = { s.registry with
        ejected := Function.update s.ejected tx.sender false
        events := s.registry.events ++ [.reinstated tx.sender] }) :
      RegistryMove H tx s s' (.bond amount)
  | regionWritten (newRegion : Bytes) (hlength : newRegion.length ≤ maxRegionHintBytes)
      (hactive : (s.nodes tx.sender).active = true)
      (h : s'.registry = { s.registry with
        nodes := Function.update s.nodes tx.sender
          { s.nodes tx.sender with regionHint := regionAfter H s tx.sender newRegion }
        events := s.registry.events ++ [.regionUpdated (s.nodes tx.sender).nodeId
          (s.nodes tx.sender).regionHint newRegion] }) :
      RegistryMove H tx s s' (.updateRegion newRegion)
  | multiaddrsWritten (multiaddrs : Bytes) (hactive : (s.nodes tx.sender).active = true)
      (h : s'.registry = { s.registry with
        nodes := Function.update s.nodes tx.sender { s.nodes tx.sender with
          multiaddrs := multiaddrs, lastMultiaddrUpdate := tx.timestamp }
        events := s.registry.events ++
          [.nodeMultiaddrUpdated (s.nodes tx.sender).nodeId multiaddrs] }) :
      RegistryMove H tx s s' (.updateMultiaddrs multiaddrs)
  | registered (nodeId termsHash : Bytes32)
      (multiaddrs regionHint bindingSignature ed25519Signature : Bytes) (hzero : nodeId ≠ 0)
      (hlength : regionHint.length ≤ maxRegionHintBytes)
      (hejected : s.ejected tx.sender = false) (hinactive : (s.nodes tx.sender).active = false)
      (howner : s.nodeIdToAddress nodeId = 0 ∨ s.nodeIdToAddress nodeId = tx.sender)
      (hbinding : s.addressToNodeId tx.sender = 0 ∨ s.addressToNodeId tx.sender = nodeId)
      (hverify : H.verify nodeId
        (H.ownershipMessage nodeId tx.sender (s.registrationNonce nodeId)) ed25519Signature = true)
      (h : s'.registry = { s.registry with
        nodeIdToAddress := Function.update s.nodeIdToAddress nodeId tx.sender
        addressToNodeId := Function.update s.addressToNodeId tx.sender nodeId
        nodes := Function.update s.nodes tx.sender
          (registeredInfo H tx s nodeId multiaddrs regionHint)
        registeredAddrs :=
          if s.registeredIndex tx.sender ≠ 0 then s.registeredAddrs
          else s.registeredAddrs ++ [tx.sender]
        registeredIndex :=
          if s.registeredIndex tx.sender ≠ 0 then s.registeredIndex
          else Function.update s.registeredIndex tx.sender (s.registeredAddrs.length + 1)
        events := s.registry.events ++ [.nodeRegistered nodeId tx.sender multiaddrs regionHint
          (s.bindingNonce tx.sender) (s.registrationNonce nodeId)] }) :
      RegistryMove H tx s s'
        (.registerNode nodeId multiaddrs regionHint termsHash bindingSignature ed25519Signature)
  | deregistered (addrs : List Address) (index : Address → Nat)
      (hactive : (s.nodes tx.sender).active = true)
      (hvacated : Vacated s.registeredAddrs s.registeredIndex tx.sender addrs index)
      (h : s'.registry = { s.registry with
        nodes := Function.update s.nodes tx.sender { s.nodes tx.sender with active := false }
        registrationNonce := Function.update s.registrationNonce (s.nodes tx.sender).nodeId
          (s.registrationNonce (s.nodes tx.sender).nodeId + 1)
        registeredAddrs := addrs
        registeredIndex := index
        events := s.registry.events ++ [.nodeDeregistered (s.nodes tx.sender).nodeId] }) :
      RegistryMove H tx s s' .deregisterNode
  | rotated (nodeId : Bytes32) (bindingSignature ed25519Signature : Bytes)
      (toAddress : Bytes32 → Address) (nonces : Bytes32 → Nat) (hzero : nodeId ≠ 0)
      (howner : s.nodeIdToAddress nodeId = 0 ∨ s.nodeIdToAddress nodeId = tx.sender)
      (hverify : H.verify nodeId
        (H.ownershipMessage nodeId tx.sender (s.registrationNonce nodeId)) ed25519Signature = true)
      (hold : (s.addressToNodeId tx.sender ≠ 0 ∧ s.addressToNodeId tx.sender ≠ nodeId ∧
          toAddress = Function.update s.nodeIdToAddress (s.addressToNodeId tx.sender) 0 ∧
          nonces = Function.update s.registrationNonce (s.addressToNodeId tx.sender)
            (s.registrationNonce (s.addressToNodeId tx.sender) + 1)) ∨
        ((s.addressToNodeId tx.sender = 0 ∨ s.addressToNodeId tx.sender = nodeId) ∧
          toAddress = s.nodeIdToAddress ∧ nonces = s.registrationNonce))
      (h : s'.registry = { s.registry with
        nodeIdToAddress := Function.update toAddress nodeId tx.sender
        addressToNodeId := Function.update s.addressToNodeId tx.sender nodeId
        registrationNonce := nonces
        nodes :=
          if (s.nodes tx.sender).active then
            Function.update s.nodes tx.sender { s.nodes tx.sender with nodeId := nodeId }
          else s.nodes }) :
      RegistryMove H tx s s' (.bindNodeId nodeId bindingSignature ed25519Signature)
  | reclaimed (nodeId : Bytes32) (ed25519Signature : Bytes) (holder : Address)
      (addrs : List Address) (index : Address → Nat) (nodes : Address → NodeInfo)
      (events : List Event) (hzero : nodeId ≠ 0) (hholder : s.nodeIdToAddress nodeId = holder)
      (hbound : holder ≠ 0)
      (hverify : H.verify nodeId
        (H.ownershipMessage nodeId tx.sender (s.registrationNonce nodeId)) ed25519Signature = true)
      (hcases : ((s.nodes holder).nodeId = nodeId ∧ (s.nodes holder).active = true ∧
          Vacated s.registeredAddrs s.registeredIndex holder addrs index ∧
          nodes = Function.update s.nodes holder
            { s.nodes holder with active := false, nodeId := 0 } ∧
          events = [.nodeDeregistered nodeId]) ∨
        ((s.nodes holder).nodeId = nodeId ∧ (s.nodes holder).active = false ∧
          addrs = s.registeredAddrs ∧ index = s.registeredIndex ∧
          nodes = Function.update s.nodes holder { s.nodes holder with nodeId := 0 } ∧
          events = []) ∨
        ((s.nodes holder).nodeId ≠ nodeId ∧ addrs = s.registeredAddrs ∧
          index = s.registeredIndex ∧ nodes = s.nodes ∧ events = []))
      (h : s'.registry = { s.registry with
        nodeIdToAddress := Function.update s.nodeIdToAddress nodeId 0
        addressToNodeId := Function.update s.addressToNodeId holder 0
        registrationNonce :=
          Function.update s.registrationNonce nodeId (s.registrationNonce nodeId + 1)
        nodes := nodes
        registeredAddrs := addrs
        registeredIndex := index
        events := s.registry.events ++ events }) :
      RegistryMove H tx s s' (.reclaimNodeId nodeId ed25519Signature)
  | expelled (c : Call) (operator : Address) (latch : Address → Bool)
      (nodes : Address → NodeInfo) (nonces : Bytes32 → Nat) (addrs : List Address)
      (index : Address → Nat) (events : List Event) (remaining : Nat)
      (hcall : (c = .ejectNode operator ∧
          latch = Function.update s.blacklistEjected operator true ∧
          events = .ejectedByBlacklist operator :: ejectionNotice s operator remaining) ∨
        (∃ challenger offenseType evidenceHash,
          c = .slash operator challenger offenseType evidenceHash ∧
          latch = s.blacklistEjected ∧ events = ejectionNotice s operator remaining))
      (hfree : s.ejected operator = false)
      (hexpelled : Expelled s operator nodes nonces addrs index)
      (h : s'.registry = { s.registry with
        ejected := Function.update s.ejected operator true
        blacklistEjected := latch
        nodes := nodes
        registrationNonce := nonces
        registeredAddrs := addrs
        registeredIndex := index
        events := s.registry.events ++ events }) :
      RegistryMove H tx s s' c
  | latched (operator : Address) (hejected : s.ejected operator = true)
      (h : s'.registry = { s.registry with
        blacklistEjected := Function.update s.blacklistEjected operator true }) :
      RegistryMove H tx s s' (.ejectNode operator)
  | unlatched (operator : Address)
      (h : s'.registry = { s.registry with
        blacklistEjected := Function.update s.blacklistEjected operator false }) :
      RegistryMove H tx s s' (.unEjectNode operator)

/-- Only an active node updates its addresses. -/
theorem updateMultiaddrs_active {multiaddrs : Bytes}
    (h : updateMultiaddrs tx s multiaddrs = .ok s') : (s.nodes tx.sender).active = true := by
  unfold updateMultiaddrs at h
  simp only [bind_eq_ok] at h
  rcases h with ⟨_, -, h⟩
  split at h
  · cases h
  · rename_i hactive
    simpa using hactive

/-- Two storages with the same slots whose new events are of no interest to followers. -/
theorem registry_eq {events : List Event} (hlog : s'.log = s.log ++ events)
    (hevents : events.filter Event.routed = [])
    (hslots : s'.registry = { s.registry with events := s'.registry.events }) :
    s'.registry = s.registry := by
  rw [hslots]
  unfold State.registry
  rw [hlog, List.filter_append, hevents, List.append_nil]

/-- A setter's event is of no interest to followers. -/
theorem setter_kept {c : Call} (hc : c.IsSetter) (h : exec H tx s c = .ok s') :
    s'.registry = s.registry := by
  have hquiet : ∀ (p : Params) (e : Event), e.routed = false →
      ({ s with params := p, log := s.log ++ [e] } : State).registry = s.registry :=
    fun p e he => registry_eq rfl (by rw [List.filter_cons, he]; rfl) rfl
  cases c with
  | setMinBond n => rw [(setBounded_cases h).2.2]; exact hquiet _ _ rfl
  | setCurrentTermsHash n => rw [setCurrentTermsHash_cases h]; exact hquiet _ _ rfl
  | setK n => rw [setK_cases h]; exact hquiet _ _ rfl
  | setAlpha n => rw [setAlpha_cases h]; exact hquiet _ _ rfl
  | setMinCapacityMbps n => rw [(setBounded_cases h).2.2]; exact hquiet _ _ rfl
  | setMaxCapacityMbps n => rw [(setBounded_cases h).2.2]; exact hquiet _ _ rfl
  | setSlashJudge n => rw [(setSlashJudge_cases h).2.2.2]; exact hquiet _ _ rfl
  | setUnbondingPeriod n => rw [(setUnbondingPeriod_cases h).2]; exact hquiet _ _ rfl
  | setMultiaddrUpdateCooldown n => rw [(setBounded_cases h).2.2]; exact hquiet _ _ rfl
  | setMaxMultiaddrSize n => rw [(setBounded_cases h).2.2]; exact hquiet _ _ rfl
  | setRegionStabilityWindow n => rw [(setBounded_cases h).2.2]; exact hquiet _ _ rfl
  | _ => exact absurd hc (by simp [Call.IsSetter])

theorem bond_registryMove {amount : Nat} (h : bond tx s amount = .ok s') :
    RegistryMove H tx s s' (.bond amount) := by
  rcases bond_cases h with ⟨-, -, -, rfl⟩
  by_cases hback : Reinstates tx s (s.activeBond tx.sender + amount)
  · refine .reinstated amount hback.1 hback.2.1 ?_
    simp only [State.registry, if_pos hback, List.append_assoc]
    rw [List.filter_append]
    rfl
  · refine .kept _ (registry_eq (List.append_assoc _ _ _) ?_ ?_)
    · rw [if_neg hback]
      rfl
    · simp only [State.registry, if_neg hback]

theorem registerNode_registryMove {nodeId termsHash : Bytes32}
    {multiaddrs regionHint bindingSignature ed25519Signature : Bytes}
    (h : registerNode H tx s nodeId multiaddrs regionHint termsHash bindingSignature
      ed25519Signature = .ok s') :
    RegistryMove H tx s s'
      (.registerNode nodeId multiaddrs regionHint termsHash bindingSignature
        ed25519Signature) := by
  rcases registerNode_cases h with ⟨-, hzero, hlength, -, -, hejected, hinactive, howner, hbinding,
    hverify, rfl⟩
  refine .registered nodeId termsHash multiaddrs regionHint bindingSignature ed25519Signature hzero
    hlength hejected hinactive howner hbinding hverify ?_
  simp only [State.registry, List.append_assoc]
  rw [List.filter_append]
  rfl

theorem deregisterNode_registryMove (h : deregisterNode H tx s = .ok s') :
    RegistryMove H tx s s' .deregisterNode := by
  rcases deregisterNode_cases h with
    ⟨hactive, addrs, index, history, events, hvacated, -, hevents, rfl⟩
  refine .deregistered addrs index hactive hvacated ?_
  simp only [State.registry]
  rcases hevents with rfl | rfl
  · rw [List.filter_append]
    rfl
  · rw [List.filter_append]
    rfl

theorem reclaimNodeId_registryMove {nodeId : Bytes32} {ed25519Signature : Bytes}
    (h : reclaimNodeId H tx s nodeId ed25519Signature = .ok s') :
    RegistryMove H tx s s' (.reclaimNodeId nodeId ed25519Signature) := by
  rcases reclaimNodeId_cases h with
    ⟨hzero, hbound, hverify, holder, addrs, index, nodes, events, hholder, hcases, rfl⟩
  refine .reclaimed nodeId ed25519Signature holder addrs index nodes events hzero hholder.symm
    (hholder ▸ hbound) hverify hcases ?_
  have hevents : (events ++ [Event.nodeIdReclaimed nodeId holder]).filter Event.routed =
      events := by
    rcases hcases with ⟨-, -, -, -, rfl⟩ | ⟨-, -, -, -, -, rfl⟩ | ⟨-, -, -, -, rfl⟩
    · rfl
    · rfl
    · rfl
  simp only [State.registry, List.append_assoc]
  rw [List.filter_append, hevents]

theorem slash_registryMove {challenger : Address} {offenseType : UInt8} {evidenceHash : Bytes32}
    (h : exec H tx s (.slash operator challenger offenseType evidenceHash) = .ok s') :
    RegistryMove H tx s s' (.slash operator challenger offenseType evidenceHash) := by
  rcases exec_slash_cases h with ⟨slashId, amount, hslash⟩
  have hrouted := slash_routed hslash
  rcases slash_cases hslash with ⟨-, -, -, -, -, -, r, -, -, -, events, tail, ejected,
    nodes, nonces, addrs, index, -, -, hexpelled, rfl⟩
  rcases hexpelled with ⟨rfl, rfl, rfl, rfl, rfl⟩ | ⟨hfree, rfl, hexpelled⟩
  · rcases hrouted with ⟨-, hlog⟩ | ⟨hfree, hejected, -⟩
    · refine .kept _ ?_
      simp only [State.registry, slashedState] at hlog ⊢
      rw [hlog]
    · have htrue := congrFun hejected operator
      rw [Function.update_self] at htrue
      exact absurd (htrue.symm.trans hfree) Bool.noConfusion
  · rcases hrouted with ⟨hejected, -⟩ | ⟨-, -, remaining, hlog⟩
    · have htrue : Function.update s.ejected operator true operator = s.ejected operator :=
        congrFun hejected operator
      rw [Function.update_self, hfree] at htrue
      exact absurd htrue Bool.noConfusion
    · refine .expelled _ operator s.blacklistEjected nodes nonces addrs index _ remaining
        (.inr ⟨challenger, offenseType, evidenceHash, rfl, rfl, rfl⟩) hfree hexpelled ?_
      simp only [State.registry, slashedState] at hlog ⊢
      rw [hlog]

theorem ejectNode_registryMove (h : ejectNode tx s operator = .ok s') :
    RegistryMove H tx s s' (.ejectNode operator) := by
  rcases ejectNode_cases h with ⟨hejected, rfl⟩ |
    ⟨hfree, nodes, nonces, addrs, index, events, hexpelled, -, hs'⟩
  · exact .latched operator hejected rfl
  · have hrouted := ejectNode_routed h hfree
    rw [hs'] at hrouted ⊢
    refine .expelled _ operator _ nodes nonces addrs index _ (s.activeBond operator)
      (.inl ⟨rfl, rfl, rfl⟩) hfree hexpelled ?_
    simp only [State.registry] at hrouted ⊢
    rw [hrouted]

/-- Every call makes one move on the registry. -/
theorem exec_registryMove {c : Call} (h : exec H tx s c = .ok s') : RegistryMove H tx s s' c := by
  have hsetter : c.IsSetter → RegistryMove H tx s s' c := fun hset => .kept c (setter_kept hset h)
  cases c with
  | bond amount => exact bond_registryMove h
  | requestUnbond amount =>
    rcases requestUnbond_cases h with ⟨-, -, -, rfl⟩
    refine .unbonding amount (tx.timestamp + s.params.unbondingPeriod)
      (s.activeBond tx.sender - amount) ?_
    simp only [State.registry]
    rw [List.filter_append]
    rfl
  | unbond =>
    rcases unbond_cases h with ⟨-, -, -, rfl⟩
    exact .kept _ (registry_eq rfl rfl rfl)
  | declareMbps mbps =>
    rcases declareMbps_cases h with ⟨-, history, -, rfl⟩
    exact .kept _ (registry_eq rfl rfl rfl)
  | updateRegion newRegion =>
    rcases updateRegion_cases h with ⟨-, hlength, hactive, -, rfl⟩
    refine .regionWritten newRegion hlength hactive ?_
    simp only [State.registry]
    rw [List.filter_append]
    rfl
  | registerNode nodeId multiaddrs regionHint termsHash bindingSignature ed25519Signature =>
    exact registerNode_registryMove h
  | deregisterNode => exact deregisterNode_registryMove h
  | bindNodeId nodeId bindingSignature ed25519Signature =>
    rcases bindNodeId_cases h with ⟨hzero, howner, hverify, toAddress, nonces, hold, rfl⟩
    refine .rotated nodeId bindingSignature ed25519Signature toAddress nonces hzero howner hverify
      hold ?_
    simp only [State.registry, List.filter_append, List.filter_cons, List.filter_nil,
      Event.routed, Bool.false_eq_true, if_false, List.append_nil]
  | reclaimNodeId nodeId ed25519Signature => exact reclaimNodeId_registryMove h
  | updateMultiaddrs multiaddrs =>
    have hactive := updateMultiaddrs_active h
    rcases updateMultiaddrs_cases h with rfl
    refine .multiaddrsWritten multiaddrs hactive ?_
    simp only [State.registry]
    rw [List.filter_append]
    rfl
  | slash operator challenger offenseType evidenceHash => exact slash_registryMove h
  | finalizeUnappealedSlash slashId =>
    rcases finalizeUnappealedSlash_cases h with ⟨-, -, -, -, -, -, rfl⟩
    exact .kept _ (registry_eq rfl rfl rfl)
  | markAppealOpen slashId =>
    rcases markAppealOpen_cases h with ⟨-, -, -, -, -, rfl⟩
    exact .kept _ (registry_eq rfl rfl rfl)
  | creditPauseTime delta =>
    rcases creditPauseTime_cases h with ⟨-, rfl⟩
    exact .kept _ rfl
  | settleAppealUpheld slashId =>
    rcases settleAppealUpheld_cases h with ⟨-, -, -, -, -, -, rfl⟩
    exact .kept _ (registry_eq rfl rfl rfl)
  | settleAppealGranted slashId =>
    rcases settleAppealGranted_cases h with ⟨-, -, -, -, -, -, rfl⟩
    exact .kept _ (registry_eq rfl rfl rfl)
  | ejectNode operator => exact ejectNode_registryMove h
  | unEjectNode operator =>
    rcases unEjectNode_cases h with rfl | rfl
    · exact .kept _ rfl
    · refine .unlatched operator ?_
      simp only [State.registry, List.filter_append, List.filter_cons, List.filter_nil,
        Event.routed, Bool.false_eq_true, if_false, List.append_nil]
  | pause =>
    rcases pause_cases h with ⟨-, rfl⟩
    exact .kept _ rfl
  | unpause =>
    rcases unpause_cases h with ⟨-, -, rfl⟩
    exact .kept _ rfl
  | _ => exact hsetter trivial

end Decdn.CapacityBond
