import Decdn.CapacityBond.RegistryMoves
import Decdn.Foundations.Slots

/-!
# Consistency of the node registry

The two binding maps are inverse, the array of the active set and its index agree with
the node records, an active record names the bound node id, and an ejected operator is not
active.  A node id that loses its holder, or whose holder leaves the active set, moves on to
a new nonce, so that an ownership signature is spent with the binding it made.

Main results:

- Theorem `Slots.vacated`: leaving the active set.
- Theorem `Consistent.move`: every move keeps the registry consistent.
- Theorem `registry_consistent`: consistency and nonces over every run.
-/

namespace Decdn.CapacityBond

variable {H : Wiring} {tx : Tx} {s s' : State} {operator : Address} {c : Call}

/-! ## The active set -/

/-- Leaving the active set removes one member. -/
theorem Slots.vacated {addrs addrs' : List Address} {index index' : Address → Nat}
    (h : Slots addrs index) (hvacated : Vacated addrs index operator addrs' index') :
    Slots addrs' index' ∧ ∀ a, a ∈ addrs' ↔ a ∈ addrs ∧ a ≠ operator := by
  have hslots : Slots addrs' index' := by
    rcases hvacated with ⟨-, rfl, rfl⟩ | ⟨hne, hlength, hlast, rfl, rfl⟩ |
      ⟨hne, hlast, hlt, swapped, hswapped, rfl, rfl⟩
    · exact h
    · exact h.pop (by omega) hlength
    · have hslot : index operator = (index operator - 1) + 1 := by omega
      exact h.swapPop hslot (by omega) hswapped
  refine ⟨hslots, ?_⟩
  intro a
  rw [hslots.mem_iff, h.mem_iff]
  rcases hvacated with ⟨hzero, -, rfl⟩ | ⟨-, -, -, -, rfl⟩ |
    ⟨hne, hlast, hlt, swapped, hswapped, -, rfl⟩
  · refine ⟨fun hmem => ⟨hmem, ?_⟩, fun hmem => hmem.1⟩
    rintro rfl
    exact hmem hzero
  · rcases eq_or_ne a operator with rfl | hne
    · rw [Function.update_self]
      exact ⟨fun hmem => absurd rfl hmem, fun hmem => absurd rfl hmem.2⟩
    · rw [Function.update_of_ne hne]
      exact ⟨fun hmem => ⟨hmem, hne⟩, fun hmem => hmem.1⟩
  · rcases eq_or_ne a operator with rfl | hneq
    · rw [Function.update_self]
      exact ⟨fun hmem => absurd rfl hmem, fun hmem => absurd rfl hmem.2⟩
    · rw [Function.update_of_ne hneq]
      rcases eq_or_ne a swapped with rfl | hswap
      · rw [Function.update_self, (h _ a).mp hswapped]
        exact ⟨fun _ => ⟨Nat.succ_ne_zero _, hneq⟩, fun _ => Nat.succ_ne_zero _⟩
      · rw [Function.update_of_ne hswap]
        exact ⟨fun hmem => ⟨hmem, hneq⟩, fun hmem => hmem.1⟩

/-! ## Consistency -/

/-- The invariant of the registry. -/
structure Consistent (r : Registry) : Prop where
  toAddress : ∀ n, r.nodeIdToAddress n ≠ 0 →
    n ≠ 0 ∧ r.addressToNodeId (r.nodeIdToAddress n) = n
  toNodeId : ∀ a, r.addressToNodeId a ≠ 0 →
    a ≠ 0 ∧ r.nodeIdToAddress (r.addressToNodeId a) = a
  slots : Slots r.registeredAddrs r.registeredIndex
  members : ∀ a, a ∈ r.registeredAddrs ↔ (r.nodes a).active = true
  bound : ∀ a, (r.nodes a).active = true →
    (r.nodes a).nodeId = r.addressToNodeId a ∧ r.addressToNodeId a ≠ 0
  ejected : ∀ a, r.ejected a = true → (r.nodes a).active = false
  latched : ∀ a, r.blacklistEjected a = true → r.ejected a = true

/-- Writes that keep every activity, and the node id of every active record. -/
theorem Consistent.of_nodes {r : Registry} (h : Consistent r) {nodes : Address → NodeInfo}
    (hactive : ∀ a, (nodes a).active = (r.nodes a).active)
    (hid : ∀ a, (r.nodes a).active = true → (nodes a).nodeId = (r.nodes a).nodeId)
    (events : List Event) : Consistent { r with nodes := nodes, events := events } where
  toAddress := h.toAddress
  toNodeId := h.toNodeId
  slots := h.slots
  members := fun a => by rw [hactive a]; exact h.members a
  bound := by
    intro a ha
    have hold : (r.nodes a).active = true := hactive a ▸ ha
    rw [hid a hold]
    exact h.bound a hold
  ejected := fun a ha => by rw [hactive a]; exact h.ejected a ha
  latched := h.latched

/-- A write to one record. -/
theorem Consistent.of_node {r : Registry} (h : Consistent r) (operator : Address)
    (info : NodeInfo) (hactive : info.active = (r.nodes operator).active)
    (hid : info.active = true → info.nodeId = (r.nodes operator).nodeId) (events : List Event) :
    Consistent { r with nodes := Function.update r.nodes operator info, events := events } := by
  refine h.of_nodes ?_ ?_ events
  · intro a
    rcases eq_or_ne a operator with rfl | hne
    · rw [Function.update_self, hactive]
    · rw [Function.update_of_ne hne]
  · intro a ha
    rcases eq_or_ne a operator with rfl | hne
    · rw [Function.update_self, hid (hactive.trans ha)]
    · rw [Function.update_of_ne hne]

/-- The operator's record becomes inactive and leaves the active set. -/
theorem Consistent.deactivated {r : Registry} (h : Consistent r) {addrs : List Address}
    {index : Address → Nat} (hvacated : Vacated r.registeredAddrs r.registeredIndex operator addrs
      index) (info : NodeInfo) (hinfo : info.active = false) (nonces : Bytes32 → Nat)
    (events : List Event) :
    Consistent { r with
      nodes := Function.update r.nodes operator info
      registrationNonce := nonces
      registeredAddrs := addrs
      registeredIndex := index
      events := events } := by
  rcases Slots.vacated h.slots hvacated with ⟨hslots, hmem⟩
  have hother : ∀ a, (Function.update r.nodes operator info a).active = true →
      a ≠ operator ∧ Function.update r.nodes operator info a = r.nodes a := by
    intro a ha
    rcases eq_or_ne a operator with rfl | hne
    · rw [Function.update_self, hinfo] at ha
      cases ha
    · exact ⟨hne, Function.update_of_ne hne _ _⟩
  refine ⟨h.toAddress, h.toNodeId, hslots, ?_, ?_, ?_, h.latched⟩
  · intro a
    dsimp only
    rw [hmem a, h.members a]
    constructor
    · rintro ⟨hactive, hne⟩
      rw [Function.update_of_ne hne]
      exact hactive
    · intro ha
      rcases hother a ha with ⟨hne, heq⟩
      rw [heq] at ha
      exact ⟨ha, hne⟩
  · intro a ha
    dsimp only at ha ⊢
    rcases hother a ha with ⟨-, heq⟩
    rw [heq] at ha ⊢
    exact h.bound a ha
  · intro a ha
    dsimp only
    rcases eq_or_ne a operator with rfl | hne
    · rw [Function.update_self, hinfo]
    · rw [Function.update_of_ne hne]
      exact h.ejected a ha

/-- An ejection. -/
theorem Consistent.expelled (h : Consistent s.registry) {latch : Address → Bool}
    {nodes : Address → NodeInfo} {nonces : Bytes32 → Nat} {addrs : List Address}
    {index : Address → Nat} (hexpelled : Expelled s operator nodes nonces addrs index)
    (hlatch : ∀ a, latch a = true → a = operator ∨ s.blacklistEjected a = true)
    (events : List Event) :
    Consistent { s.registry with
      ejected := Function.update s.ejected operator true
      blacklistEjected := latch
      nodes := nodes
      registrationNonce := nonces
      registeredAddrs := addrs
      registeredIndex := index
      events := events } := by
  have hrest : Consistent { s.registry with
      nodes := nodes
      registrationNonce := nonces
      registeredAddrs := addrs
      registeredIndex := index
      events := events } ∧ (nodes operator).active = false := by
    rcases hexpelled with ⟨hinactive, rfl, rfl, rfl, rfl⟩ | ⟨-, hvacated, rfl, rfl⟩
    · exact ⟨⟨h.toAddress, h.toNodeId, h.slots, h.members, h.bound, h.ejected, h.latched⟩,
        hinactive⟩
    · exact ⟨h.deactivated hvacated _ rfl _ events, by rw [Function.update_self]⟩
  rcases hrest with ⟨hrest, hinactive⟩
  refine ⟨hrest.toAddress, hrest.toNodeId, hrest.slots, hrest.members, hrest.bound, ?_, ?_⟩
  · intro a ha
    dsimp only at ha ⊢
    rcases eq_or_ne a operator with rfl | hne
    · exact hinactive
    · rw [Function.update_of_ne hne] at ha
      exact hrest.ejected a ha
  · intro a ha
    dsimp only at ha ⊢
    rcases eq_or_ne a operator with rfl | hne
    · rw [Function.update_self]
    · rw [Function.update_of_ne hne]
      rcases hlatch a ha with heq | hold
      · exact absurd heq hne
      · exact h.latched a hold

/-- A free node id, or the sender's own, is bound to the sender. -/
theorem bind_inverse {toAddress : Bytes32 → Address} {toNodeId : Address → Bytes32}
    {nodeId : Bytes32} {sender : Address} (hnode : nodeId ≠ 0) (hsender : sender ≠ 0)
    (hto : ∀ n, toAddress n ≠ 0 → n ≠ 0 ∧ toNodeId (toAddress n) = n)
    (hfrom : ∀ a, a ≠ sender → toNodeId a ≠ 0 → a ≠ 0 ∧ toAddress (toNodeId a) = a)
    (howner : toAddress nodeId = 0 ∨ toAddress nodeId = sender)
    (hfree : ∀ n, toAddress n = sender → n = nodeId) :
    (∀ n, Function.update toAddress nodeId sender n ≠ 0 → n ≠ 0 ∧
      Function.update toNodeId sender nodeId (Function.update toAddress nodeId sender n) = n) ∧
    ∀ a, Function.update toNodeId sender nodeId a ≠ 0 → a ≠ 0 ∧
      Function.update toAddress nodeId sender (Function.update toNodeId sender nodeId a) = a := by
  constructor
  · intro n hn
    rcases eq_or_ne n nodeId with rfl | hne
    · rw [Function.update_self, Function.update_self]
      exact ⟨hnode, rfl⟩
    · rw [Function.update_of_ne hne] at hn ⊢
      have hother : toAddress n ≠ sender := fun heq => hne (hfree n heq)
      rw [Function.update_of_ne hother]
      exact hto n hn
  · intro a ha
    rcases eq_or_ne a sender with rfl | hne
    · rw [Function.update_self, Function.update_self]
      exact ⟨hsender, rfl⟩
    · rw [Function.update_of_ne hne] at ha ⊢
      rcases hfrom a hne ha with ⟨hzero, heq⟩
      have hother : toNodeId a ≠ nodeId := by
        rintro rfl
        rcases howner with hnone | hown
        · exact hzero (heq.symm.trans hnone)
        · exact hne (heq.symm.trans hown)
      rw [Function.update_of_ne hother]
      exact ⟨hzero, heq⟩

/-- A registration. -/
theorem Consistent.registered (h : Consistent s.registry) {nodeId : Bytes32} {info : NodeInfo}
    (hzero : nodeId ≠ 0) (hejected : s.ejected tx.sender = false)
    (hinactive : (s.nodes tx.sender).active = false)
    (howner : s.nodeIdToAddress nodeId = 0 ∨ s.nodeIdToAddress nodeId = tx.sender)
    (hbinding : s.addressToNodeId tx.sender = 0 ∨ s.addressToNodeId tx.sender = nodeId)
    (hactive : info.active = true) (hid : info.nodeId = nodeId) (events : List Event) :
    Consistent { s.registry with
      nodeIdToAddress := Function.update s.nodeIdToAddress nodeId tx.sender
      addressToNodeId := Function.update s.addressToNodeId tx.sender nodeId
      nodes := Function.update s.nodes tx.sender info
      registeredAddrs :=
        if s.registeredIndex tx.sender ≠ 0 then s.registeredAddrs
        else s.registeredAddrs ++ [tx.sender]
      registeredIndex :=
        if s.registeredIndex tx.sender ≠ 0 then s.registeredIndex
        else Function.update s.registeredIndex tx.sender (s.registeredAddrs.length + 1)
      events := events } := by
  have hslot : s.registeredIndex tx.sender = 0 := by
    refine h.slots.not_mem_iff.mp ?_
    intro hmem
    rw [h.members, show (s.registry.nodes tx.sender).active = false from hinactive] at hmem
    cases hmem
  have hinverse := bind_inverse hzero tx.sender_ne_zero h.toAddress
    (fun a _ ha => h.toNodeId a ha) howner (by
      intro n hn
      have hboth := h.toAddress n (by rw [show s.registry.nodeIdToAddress n = tx.sender from hn]
                                      exact tx.sender_ne_zero)
      rw [show s.registry.nodeIdToAddress n = tx.sender from hn] at hboth
      rcases hbinding with hnone | hsame
      · exact absurd (hboth.2.symm.trans hnone) hboth.1
      · exact hboth.2.symm.trans hsame)
  refine ⟨hinverse.1, hinverse.2, ?_, ?_, ?_, ?_, h.latched⟩
  · dsimp only
    rw [if_neg (not_not.mpr hslot), if_neg (not_not.mpr hslot)]
    exact h.slots.push hslot
  · intro a
    dsimp only
    rw [if_neg (not_not.mpr hslot), List.mem_append, List.mem_singleton]
    rcases eq_or_ne a tx.sender with rfl | hne
    · rw [Function.update_self, hactive]
      exact ⟨fun _ => rfl, fun _ => .inr rfl⟩
    · rw [Function.update_of_ne hne]
      exact ⟨fun hmem => (h.members a).mp (hmem.resolve_right hne),
        fun ha => .inl ((h.members a).mpr ha)⟩
  · intro a ha
    dsimp only at ha ⊢
    rcases eq_or_ne a tx.sender with rfl | hne
    · rw [Function.update_self, Function.update_self, hid]
      exact ⟨rfl, hzero⟩
    · rw [Function.update_of_ne hne] at ha ⊢
      rw [Function.update_of_ne hne]
      exact h.bound a ha
  · intro a ha
    dsimp only at ha ⊢
    rcases eq_or_ne a tx.sender with rfl | hne
    · rw [show s.ejected tx.sender = true from ha] at hejected
      cases hejected
    · rw [Function.update_of_ne hne]
      exact h.ejected a ha

/-- A rotation of the sender's node id. -/
theorem Consistent.rotated (h : Consistent s.registry) {nodeId : Bytes32}
    {toAddress : Bytes32 → Address} {nonces : Bytes32 → Nat} (hzero : nodeId ≠ 0)
    (howner : s.nodeIdToAddress nodeId = 0 ∨ s.nodeIdToAddress nodeId = tx.sender)
    (hold : (s.addressToNodeId tx.sender ≠ 0 ∧ s.addressToNodeId tx.sender ≠ nodeId ∧
        toAddress = Function.update s.nodeIdToAddress (s.addressToNodeId tx.sender) 0) ∨
      ((s.addressToNodeId tx.sender = 0 ∨ s.addressToNodeId tx.sender = nodeId) ∧
        toAddress = s.nodeIdToAddress)) :
    Consistent { s.registry with
      nodeIdToAddress := Function.update toAddress nodeId tx.sender
      addressToNodeId := Function.update s.addressToNodeId tx.sender nodeId
      registrationNonce := nonces
      nodes :=
        if (s.nodes tx.sender).active then
          Function.update s.nodes tx.sender { s.nodes tx.sender with nodeId := nodeId }
        else s.nodes } := by
  have hsame : ∀ n, s.nodeIdToAddress n = tx.sender → n = s.addressToNodeId tx.sender := by
    intro n hn
    have hboth := h.toAddress n (by
      change s.nodeIdToAddress n ≠ 0
      rw [hn]
      exact tx.sender_ne_zero)
    rw [show s.registry.nodeIdToAddress n = tx.sender from hn] at hboth
    exact hboth.2.symm
  have hinverse : (∀ n, Function.update toAddress nodeId tx.sender n ≠ 0 → n ≠ 0 ∧
      Function.update s.addressToNodeId tx.sender nodeId
        (Function.update toAddress nodeId tx.sender n) = n) ∧
      ∀ a, Function.update s.addressToNodeId tx.sender nodeId a ≠ 0 → a ≠ 0 ∧
        Function.update toAddress nodeId tx.sender
          (Function.update s.addressToNodeId tx.sender nodeId a) = a := by
    rcases hold with ⟨hbound, hdiff, rfl⟩ | ⟨hbinding, rfl⟩
    · refine bind_inverse hzero tx.sender_ne_zero ?_ ?_ ?_ ?_
      · intro n hn
        rcases eq_or_ne n (s.addressToNodeId tx.sender) with rfl | hne
        · rw [Function.update_self] at hn
          exact absurd rfl hn
        · rw [Function.update_of_ne hne] at hn ⊢
          exact h.toAddress n hn
      · intro a ha hn
        rcases h.toNodeId a hn with ⟨hpos, heq⟩
        have hne : s.addressToNodeId a ≠ s.addressToNodeId tx.sender := by
          intro hids
          have hown := (h.toNodeId tx.sender hbound).2
          exact ha (heq.symm.trans ((congrArg s.nodeIdToAddress hids).trans hown))
        rw [Function.update_of_ne hne]
        exact ⟨hpos, heq⟩
      · rw [Function.update_of_ne hdiff.symm]
        exact howner
      · intro n hn
        rcases eq_or_ne n (s.addressToNodeId tx.sender) with rfl | hne
        · rw [Function.update_self] at hn
          exact absurd hn.symm tx.sender_ne_zero
        · rw [Function.update_of_ne hne] at hn
          exact absurd (hsame n hn) hne
    · refine bind_inverse hzero tx.sender_ne_zero h.toAddress (fun a _ ha => h.toNodeId a ha)
        howner ?_
      intro n hn
      rcases hbinding with hnone | hids
      · have hpos := (h.toAddress n (by
          change s.nodeIdToAddress n ≠ 0
          rw [hn]
          exact tx.sender_ne_zero)).1
        exact absurd ((hsame n hn).trans hnone) hpos
      · exact (hsame n hn).trans hids
  have hactive : ∀ a, ((if (s.nodes tx.sender).active then
      Function.update s.nodes tx.sender { s.nodes tx.sender with nodeId := nodeId }
      else s.nodes) a).active = (s.nodes a).active := by
    intro a
    split
    · rcases eq_or_ne a tx.sender with rfl | hne
      · rw [Function.update_self]
      · rw [Function.update_of_ne hne]
    · rfl
  refine ⟨hinverse.1, hinverse.2, h.slots, ?_, ?_, ?_, h.latched⟩
  · intro a
    dsimp only
    rw [hactive a]
    exact h.members a
  · intro a ha
    dsimp only at ha ⊢
    rw [hactive a] at ha
    rcases eq_or_ne a tx.sender with rfl | hne
    · rw [if_pos ha, Function.update_self, Function.update_self]
      exact ⟨rfl, hzero⟩
    · rw [Function.update_of_ne hne]
      have hkept : ((if (s.nodes tx.sender).active then
          Function.update s.nodes tx.sender { s.nodes tx.sender with nodeId := nodeId }
          else s.nodes) a) = s.nodes a := by
        split
        · rw [Function.update_of_ne hne]
        · rfl
      rw [hkept]
      exact h.bound a ha
  · intro a ha
    dsimp only
    rw [hactive a]
    exact h.ejected a ha

/-- An inactive holder loses its node id. -/
theorem Consistent.unbound {r : Registry} (h : Consistent r) {nodeId : Bytes32} {holder : Address}
    (hholder : r.nodeIdToAddress nodeId = holder) (hbound : holder ≠ 0)
    (hinactive : (r.nodes holder).active = false) (nonces : Bytes32 → Nat) :
    Consistent { r with
      nodeIdToAddress := Function.update r.nodeIdToAddress nodeId 0
      addressToNodeId := Function.update r.addressToNodeId holder 0
      registrationNonce := nonces } := by
  have hid : r.addressToNodeId holder = nodeId := by
    have hboth := h.toAddress nodeId (by rw [hholder]; exact hbound)
    rw [hholder] at hboth
    exact hboth.2
  refine ⟨?_, ?_, h.slots, h.members, ?_, h.ejected, h.latched⟩
  · intro n hn
    dsimp only at hn ⊢
    rcases eq_or_ne n nodeId with rfl | hne
    · rw [Function.update_self] at hn
      exact absurd rfl hn
    · rw [Function.update_of_ne hne] at hn ⊢
      rcases h.toAddress n hn with ⟨hpos, heq⟩
      have hother : r.nodeIdToAddress n ≠ holder := by
        intro hsame
        rw [hsame, hid] at heq
        exact hne heq.symm
      rw [Function.update_of_ne hother]
      exact ⟨hpos, heq⟩
  · intro a ha
    dsimp only at ha ⊢
    rcases eq_or_ne a holder with rfl | hne
    · rw [Function.update_self] at ha
      exact absurd rfl ha
    · rw [Function.update_of_ne hne] at ha ⊢
      rcases h.toNodeId a ha with ⟨hpos, heq⟩
      have hother : r.addressToNodeId a ≠ nodeId := by
        intro hsame
        rw [hsame, hholder] at heq
        exact hne heq.symm
      rw [Function.update_of_ne hother]
      exact ⟨hpos, heq⟩
  · intro a ha
    dsimp only at ha ⊢
    have hne : a ≠ holder := by
      rintro rfl
      rw [hinactive] at ha
      cases ha
    rw [Function.update_of_ne hne]
    exact h.bound a ha

/-- Every move keeps the registry consistent. -/
theorem Consistent.move (h : Consistent s.registry) (hmove : RegistryMove H tx s s' c) :
    Consistent s'.registry := by
  cases hmove with
  | kept _ heq => rwa [heq]
  | unbonding amount unlockAt newActive heq =>
    rw [heq]
    exact h.of_nodes (fun _ => rfl) (fun _ _ => rfl) _
  | reinstated amount hejected hfree heq =>
    rw [heq]
    refine ⟨h.toAddress, h.toNodeId, h.slots, h.members, h.bound, ?_, ?_⟩
    · intro a ha
      dsimp only at ha
      rcases eq_or_ne a tx.sender with rfl | hne
      · rw [Function.update_self] at ha
        cases ha
      · rw [Function.update_of_ne hne] at ha
        exact h.ejected a ha
    · intro a ha
      dsimp only
      rcases eq_or_ne a tx.sender with rfl | hne
      · rw [show s.blacklistEjected tx.sender = true from ha] at hfree
        cases hfree
      · rw [Function.update_of_ne hne]
        exact h.latched a ha
  | regionWritten newRegion hlength hactive heq =>
    rw [heq]
    exact h.of_node tx.sender { s.nodes tx.sender with
      regionHint := regionAfter H s tx.sender newRegion } rfl (fun _ => rfl) _
  | multiaddrsWritten multiaddrs hactive heq =>
    rw [heq]
    exact h.of_node tx.sender { s.nodes tx.sender with
      multiaddrs := multiaddrs, lastMultiaddrUpdate := tx.timestamp } rfl (fun _ => rfl) _
  | registered nodeId termsHash multiaddrs regionHint bindingSignature ed25519Signature hzero
      hlength hejected hinactive howner hbinding hverify heq =>
    rw [heq]
    exact h.registered hzero hejected hinactive howner hbinding rfl rfl _
  | deregistered addrs index hactive hvacated heq =>
    rw [heq]
    exact h.deactivated hvacated _ rfl _ _
  | rotated nodeId bindingSignature ed25519Signature toAddress nonces hzero howner hverify hold
      heq =>
    rw [heq]
    refine h.rotated hzero howner ?_
    rcases hold with ⟨hbound, hdiff, hto, -⟩ | ⟨hbinding, hto, -⟩
    · exact .inl ⟨hbound, hdiff, hto⟩
    · exact .inr ⟨hbinding, hto⟩
  | reclaimed nodeId ed25519Signature holder addrs index nodes events hzero hholder hbound hverify
      hcases heq =>
    rw [heq]
    rcases hcases with ⟨-, -, hvacated, rfl, -⟩ | ⟨-, hinactive, rfl, rfl, rfl, -⟩ |
      ⟨hdiff, rfl, rfl, rfl, -⟩
    · have hleft := h.deactivated hvacated { s.nodes holder with active := false, nodeId := 0 }
        rfl s.registrationNonce (s.registry.events ++ events)
      exact hleft.unbound hholder hbound (by dsimp only; rw [Function.update_self]) _
    · have hleft := h.of_node holder { s.nodes holder with nodeId := 0 } rfl
        (fun hactive => absurd (hactive.symm.trans hinactive) Bool.noConfusion)
        (s.registry.events ++ events)
      exact hleft.unbound hholder hbound (by dsimp only; rw [Function.update_self]; exact hinactive)
        _
    · have hid : s.addressToNodeId holder = nodeId := by
        have hboth := h.toAddress nodeId (by
          change s.nodeIdToAddress nodeId ≠ 0
          rw [hholder]
          exact hbound)
        rw [show s.registry.nodeIdToAddress nodeId = holder from hholder] at hboth
        exact hboth.2
      have hinactive : (s.nodes holder).active = false := by
        cases hactive : (s.nodes holder).active with
        | false => rfl
        | true => exact absurd ((h.bound holder hactive).1.trans hid) hdiff
      have hleft := h.of_nodes (fun _ => rfl) (fun _ _ => rfl) (s.registry.events ++ events)
      exact hleft.unbound hholder hbound hinactive _
  | expelled _ operator latch nodes nonces addrs index events remaining hcall hfree hexpelled
      heq =>
    rw [heq]
    refine h.expelled hexpelled ?_ _
    intro a ha
    rcases hcall with ⟨-, rfl, -⟩ | ⟨_, _, _, -, rfl, -⟩
    · rcases eq_or_ne a operator with rfl | hne
      · exact .inl rfl
      · rw [Function.update_of_ne hne] at ha
        exact .inr ha
    · exact .inr ha
  | latched operator hejected heq =>
    rw [heq]
    refine ⟨h.toAddress, h.toNodeId, h.slots, h.members, h.bound, h.ejected, ?_⟩
    intro a ha
    dsimp only at ha ⊢
    rcases eq_or_ne a operator with rfl | hne
    · exact hejected
    · rw [Function.update_of_ne hne] at ha
      exact h.latched a ha
  | unlatched operator heq =>
    rw [heq]
    refine ⟨h.toAddress, h.toNodeId, h.slots, h.members, h.bound, h.ejected, ?_⟩
    intro a ha
    dsimp only at ha
    rcases eq_or_ne a operator with rfl | hne
    · rw [Function.update_self] at ha
      cases ha
    · rw [Function.update_of_ne hne] at ha
      exact h.latched a ha

/-! ## Nonces -/

/-- A node id loses its holder, or its holder leaves the active set. -/
def Released (s s' : State) (n : Bytes32) : Prop :=
  s.nodeIdToAddress n ≠ 0 ∧
    (s'.nodeIdToAddress n ≠ s.nodeIdToAddress n ∨
      ((s.nodes (s.nodeIdToAddress n)).active = true ∧
        (s'.nodes (s.nodeIdToAddress n)).active = false))

theorem update_succ_le (f : Bytes32 → Nat) (m n : Bytes32) :
    f n ≤ Function.update f m (f m + 1) n := by
  rcases eq_or_ne n m with rfl | hne
  · rw [Function.update_self]
    exact Nat.le_succ _
  · rw [Function.update_of_ne hne]

/-- No move takes a nonce back. -/
theorem RegistryMove.nonce_le (hmove : RegistryMove H tx s s' c) (n : Bytes32) :
    s.registrationNonce n ≤ s'.registrationNonce n := by
  have hslot : ∀ {r : Registry}, s'.registry = r → s'.registrationNonce = r.registrationNonce :=
    fun heq => congrArg Registry.registrationNonce heq
  cases hmove with
  | kept _ heq => rw [hslot heq]; exact Nat.le_refl _
  | unbonding amount unlockAt newActive heq => rw [hslot heq]; exact Nat.le_refl _
  | reinstated amount hejected hfree heq => rw [hslot heq]; exact Nat.le_refl _
  | regionWritten newRegion hlength hactive heq => rw [hslot heq]; exact Nat.le_refl _
  | multiaddrsWritten multiaddrs hactive heq => rw [hslot heq]; exact Nat.le_refl _
  | registered nodeId termsHash multiaddrs regionHint bindingSignature ed25519Signature hzero
      hlength hejected hinactive howner hbinding hverify heq =>
    rw [hslot heq]
    exact Nat.le_refl _
  | deregistered addrs index hactive hvacated heq =>
    rw [hslot heq]
    exact update_succ_le _ _ n
  | rotated nodeId bindingSignature ed25519Signature toAddress nonces hzero howner hverify hold
      heq =>
    rw [hslot heq]
    rcases hold with ⟨-, -, -, rfl⟩ | ⟨-, -, rfl⟩
    · exact update_succ_le _ _ n
    · exact Nat.le_refl _
  | reclaimed nodeId ed25519Signature holder addrs index nodes events hzero hholder hbound hverify
      hcases heq =>
    rw [hslot heq]
    exact update_succ_le _ _ n
  | expelled _ operator latch nodes nonces addrs index events remaining hcall hfree hexpelled
      heq =>
    rw [hslot heq]
    rcases hexpelled with ⟨-, -, rfl, -⟩ | ⟨-, -, -, rfl⟩
    · exact Nat.le_refl _
    · exact update_succ_le _ _ n
  | latched operator hejected heq => rw [hslot heq]; exact Nat.le_refl _
  | unlatched operator heq => rw [hslot heq]; exact Nat.le_refl _

/-- The holder of a node id is bound to it. -/
theorem Consistent.holder (h : Consistent s.registry) {n : Bytes32} {a : Address}
    (ha : s.nodeIdToAddress n = a) (hne : a ≠ 0) : s.addressToNodeId a = n := by
  have hboth := h.toAddress n (by
    change s.nodeIdToAddress n ≠ 0
    rw [ha]
    exact hne)
  rw [show s.registry.nodeIdToAddress n = a from ha] at hboth
  exact hboth.2

/-- A write of an active record deactivates nobody. -/
theorem update_active {nodes : Address → NodeInfo} {info : NodeInfo} {a : Address}
    (hinfo : info.active = true) (ha : (nodes a).active = true) :
    (Function.update nodes operator info a).active = true := by
  rcases eq_or_ne a operator with rfl | hne
  · rw [Function.update_self, hinfo]
  · rw [Function.update_of_ne hne, ha]

/-- A holder that a write of one record deactivates is the record's operator. -/
theorem eq_of_deactivated {nodes : Address → NodeInfo} {info : NodeInfo} {a : Address}
    (hbefore : (nodes a).active = true)
    (hafter : (Function.update nodes operator info a).active = false) : a = operator := by
  by_contra hne
  rw [Function.update_of_ne hne, hbefore] at hafter
  cases hafter

/-- A released node id moves on to a new nonce. -/
theorem RegistryMove.nonce_lt (hmove : RegistryMove H tx s s' c) (h : Consistent s.registry)
    {n : Bytes32} (hreleased : Released s s' n) :
    s.registrationNonce n < s'.registrationNonce n := by
  rcases hreleased with ⟨hheld, hloss⟩
  have hbound : s.addressToNodeId (s.nodeIdToAddress n) = n := h.holder rfl hheld
  -- The node id that an active holder's record names is the one it holds.
  have hrecord : ∀ a, s.nodeIdToAddress n = a → (s.nodes a).active = true →
      (s.nodes a).nodeId = n := by
    rintro a rfl hactive
    exact (h.bound _ hactive).1.trans hbound
  have hkept : s'.nodeIdToAddress = s.nodeIdToAddress →
      (∀ a, (s.nodes a).active = true → (s'.nodes a).active = true) → False := by
    intro hmap hnodes
    rcases hloss with hlost | ⟨hbefore, hafter⟩
    · exact hlost (congrFun hmap n)
    · rw [hnodes _ hbefore] at hafter
      cases hafter
  cases hmove with
  | kept _ heq =>
    refine (hkept (congrArg Registry.nodeIdToAddress heq) fun a ha => ?_).elim
    rw [show s'.nodes = s.nodes from congrArg Registry.nodes heq]
    exact ha
  | unbonding amount unlockAt newActive heq =>
    refine (hkept (congrArg Registry.nodeIdToAddress heq) fun a ha => ?_).elim
    rw [show s'.nodes = s.nodes from congrArg Registry.nodes heq]
    exact ha
  | reinstated amount hejected hfree heq =>
    refine (hkept (congrArg Registry.nodeIdToAddress heq) fun a ha => ?_).elim
    rw [show s'.nodes = s.nodes from congrArg Registry.nodes heq]
    exact ha
  | regionWritten newRegion hlength hactive heq =>
    refine (hkept (congrArg Registry.nodeIdToAddress heq) fun a ha => ?_).elim
    have hnodes : s'.nodes = _ := congrArg Registry.nodes heq
    rw [hnodes]
    exact update_active hactive ha
  | multiaddrsWritten multiaddrs hactive heq =>
    refine (hkept (congrArg Registry.nodeIdToAddress heq) fun a ha => ?_).elim
    have hnodes : s'.nodes = _ := congrArg Registry.nodes heq
    rw [hnodes]
    exact update_active hactive ha
  | registered nodeId termsHash multiaddrs regionHint bindingSignature ed25519Signature hzero
      hlength hejected hinactive howner hbinding hverify heq =>
    exfalso
    have hmap : s'.nodeIdToAddress = _ := congrArg Registry.nodeIdToAddress heq
    have hnodes : s'.nodes = _ := congrArg Registry.nodes heq
    dsimp only at hmap hnodes
    rcases hloss with hlost | ⟨hbefore, hafter⟩
    · rw [hmap] at hlost
      rcases eq_or_ne n nodeId with rfl | hne
      · rw [Function.update_self] at hlost
        rcases howner with hnone | hown
        · exact hheld hnone
        · exact hlost hown.symm
      · exact hlost (Function.update_of_ne hne _ _)
    · rw [hnodes] at hafter
      have heqs := eq_of_deactivated hbefore hafter
      rw [heqs, hinactive] at hbefore
      cases hbefore
  | deregistered addrs index hactive hvacated heq =>
    have hmap : s'.nodeIdToAddress = s.nodeIdToAddress := congrArg Registry.nodeIdToAddress heq
    have hnodes : s'.nodes = _ := congrArg Registry.nodes heq
    have hnonce : s'.registrationNonce = _ := congrArg Registry.registrationNonce heq
    dsimp only at hnodes hnonce
    rcases hloss with hlost | ⟨hbefore, hafter⟩
    · exact absurd (congrFun hmap n) hlost
    · rw [hnodes] at hafter
      have hsender := eq_of_deactivated hbefore hafter
      rw [hnonce, hrecord tx.sender hsender hactive, Function.update_self]
      exact Nat.lt_succ_self _
  | rotated nodeId bindingSignature ed25519Signature toAddress nonces hzero howner hverify hold
      heq =>
    have hmap : s'.nodeIdToAddress = _ := congrArg Registry.nodeIdToAddress heq
    have hnodes : s'.nodes = _ := congrArg Registry.nodes heq
    have hnonce : s'.registrationNonce = _ := congrArg Registry.registrationNonce heq
    dsimp only at hmap hnodes hnonce
    have hactive : ∀ a, (s.nodes a).active = true → (s'.nodes a).active = true := by
      intro a ha
      rw [hnodes]
      split
      · rename_i hsender
        exact update_active hsender ha
      · exact ha
    rcases hloss with hlost | ⟨hbefore, hafter⟩
    · rw [hmap] at hlost
      have hne : n ≠ nodeId := by
        rintro rfl
        rw [Function.update_self] at hlost
        rcases howner with hnone | hown
        · exact hheld hnone
        · exact hlost hown.symm
      rw [Function.update_of_ne hne] at hlost
      rcases hold with ⟨-, -, rfl, rfl⟩ | ⟨-, rfl, -⟩
      · have hid : n = s.addressToNodeId tx.sender := by
          by_contra hdiff
          exact hlost (Function.update_of_ne hdiff _ _)
        rw [hnonce, ← hid, Function.update_self]
        exact Nat.lt_succ_self _
      · exact absurd rfl hlost
    · rw [hactive _ hbefore] at hafter
      cases hafter
  | reclaimed nodeId ed25519Signature holder addrs index nodes events hzero hholder hbound' hverify
      hcases heq =>
    have hmap : s'.nodeIdToAddress = _ := congrArg Registry.nodeIdToAddress heq
    have hnodes : s'.nodes = nodes := congrArg Registry.nodes heq
    have hnonce : s'.registrationNonce = _ := congrArg Registry.registrationNonce heq
    dsimp only at hmap hnonce
    have hid : n = nodeId := by
      by_contra hne
      rcases hloss with hlost | ⟨hbefore, hafter⟩
      · rw [hmap, Function.update_of_ne hne] at hlost
        exact hlost rfl
      · rw [hnodes] at hafter
        have hsame : s.nodeIdToAddress n = holder := by
          rcases hcases with ⟨-, -, -, rfl, -⟩ | ⟨-, -, -, -, rfl, -⟩ | ⟨-, -, -, rfl, -⟩
          · exact eq_of_deactivated hbefore hafter
          · exact eq_of_deactivated hbefore hafter
          · rw [hbefore] at hafter
            cases hafter
        rw [hsame, h.holder hholder hbound'] at hbound
        exact hne hbound.symm
    rw [hnonce, hid, Function.update_self]
    exact Nat.lt_succ_self _
  | expelled _ operator latch nodes nonces addrs index events remaining hcall hfree hexpelled
      heq =>
    have hmap : s'.nodeIdToAddress = s.nodeIdToAddress := congrArg Registry.nodeIdToAddress heq
    have hnodes : s'.nodes = nodes := congrArg Registry.nodes heq
    have hnonce : s'.registrationNonce = nonces := congrArg Registry.registrationNonce heq
    rcases hloss with hlost | ⟨hbefore, hafter⟩
    · exact absurd (congrFun hmap n) hlost
    · rw [hnodes] at hafter
      rcases hexpelled with ⟨-, rfl, -⟩ | ⟨hactive, -, rfl, rfl⟩
      · rw [hbefore] at hafter
        cases hafter
      · have hsender := eq_of_deactivated hbefore hafter
        rw [hnonce, hrecord operator hsender hactive, Function.update_self]
        exact Nat.lt_succ_self _
  | latched operator hejected heq =>
    refine (hkept (congrArg Registry.nodeIdToAddress heq) fun a ha => ?_).elim
    rw [show s'.nodes = s.nodes from congrArg Registry.nodes heq]
    exact ha
  | unlatched operator heq =>
    refine (hkept (congrArg Registry.nodeIdToAddress heq) fun a ha => ?_).elim
    rw [show s'.nodes = s.nodes from congrArg Registry.nodes heq]
    exact ha

/-! ## Runs -/

/-- The initial registry is empty. -/
theorem Consistent.deployed {minBond unbondingPeriod cooldown size window : Nat} {terms : Bytes32}
    (h : deploy tx minBond unbondingPeriod cooldown size window terms = .ok s) :
    Consistent s.registry := by
  rcases deploy_cases h with ⟨-, -, -, -, -, -, rfl⟩
  refine ⟨fun n hn => absurd rfl hn, fun a ha => absurd rfl ha, Slots.empty, ?_, ?_, ?_, ?_⟩
  · intro a
    exact ⟨fun hmem => absurd hmem List.not_mem_nil, fun ha => Bool.noConfusion ha⟩
  · intro a ha
    exact Bool.noConfusion ha
  · intro a _
    rfl
  · intro a ha
    exact Bool.noConfusion ha

/-- A donation moves nothing in the registry. -/
theorem Step.registryMove {w w' : World} (h : Step H w w') :
    ∃ tx c, RegistryMove H tx w.contract w'.contract c := by
  cases h with
  | call tx c _ hexec => exact ⟨tx, c, exec_registryMove hexec⟩
  | donation amount => exact ⟨sampleTx 1 0, .unbond, .kept _ rfl⟩

theorem Reachable.consistent {w : World} (h : Reachable H w) : Consistent w.contract.registry := by
  induction h with
  | deployed tx minBond unbondingPeriod cooldown size window terms hdeploy =>
    exact Consistent.deployed hdeploy
  | step _ hstep ih =>
    rcases hstep.registryMove with ⟨tx, c, hmove⟩
    exact ih.move hmove

/-- Nonces never fall over a run. -/
theorem nonce_le_of_steps {w w' : World} (h : Relation.ReflTransGen (Step H) w w') (n : Bytes32) :
    w.contract.registrationNonce n ≤ w'.contract.registrationNonce n := by
  induction h with
  | refl => exact Nat.le_refl _
  | tail _ hstep ih =>
    rcases hstep.registryMove with ⟨tx, c, hmove⟩
    exact Nat.le_trans ih (hmove.nonce_le n)

/-- The node id and the ownership signature that a call presents. -/
def Call.ownership : Call → Option (Bytes32 × Bytes)
  | .registerNode nodeId _ _ _ _ ed25519Signature => some (nodeId, ed25519Signature)
  | .bindNodeId nodeId _ ed25519Signature => some (nodeId, ed25519Signature)
  | .reclaimNodeId nodeId ed25519Signature => some (nodeId, ed25519Signature)
  | _ => none

/-- An accepted ownership signature verifies at the live nonce. -/
theorem ownership_verified {n : Bytes32} {sig : Bytes} (h : exec H tx s c = .ok s')
    (hc : c.ownership = some (n, sig)) :
    H.verify n (H.ownershipMessage n tx.sender (s.registrationNonce n)) sig = true := by
  cases c with
  | registerNode nodeId multiaddrs regionHint termsHash bindingSignature ed25519Signature =>
    rcases Prod.mk.inj (Option.some.inj hc) with ⟨rfl, rfl⟩
    rcases registerNode_cases h with ⟨-, -, -, -, -, -, -, -, -, hverify, -⟩
    exact hverify
  | bindNodeId nodeId bindingSignature ed25519Signature =>
    rcases Prod.mk.inj (Option.some.inj hc) with ⟨rfl, rfl⟩
    rcases bindNodeId_cases h with ⟨-, -, hverify, -⟩
    exact hverify
  | reclaimNodeId nodeId ed25519Signature =>
    rcases Prod.mk.inj (Option.some.inj hc) with ⟨rfl, rfl⟩
    rcases reclaimNodeId_cases h with ⟨-, -, hverify, -⟩
    exact hverify
  | _ => cases hc

/-- The signature verifies for the ownership message of one nonce only. -/
def OneNonce (H : Wiring) (n : Bytes32) (sig : Bytes) : Prop :=
  ∀ a a' k k', H.verify n (H.ownershipMessage n a k) sig = true →
    H.verify n (H.ownershipMessage n a' k') sig = true → k = k'

/-- In every reachable world the registry is consistent and its array free of duplicates.  A step
that takes a node id from its holder, or its holder out of the active set, raises the node id's
nonce, so that no ownership signature for it that was accepted up to that step is accepted
after it. -/
theorem registry_consistent {w : World} (h : Reachable H w) :
    Consistent w.contract.registry ∧ w.contract.registeredAddrs.Nodup ∧
    (∀ w' n, Step H w w' → Released w.contract w'.contract n →
      w.contract.registrationNonce n < w'.contract.registrationNonce n) ∧
    ∀ n sig, OneNonce H n sig → ∀ before after last tx₁ c₁ s₁ tx₂ c₂ s₂,
      Relation.ReflTransGen (Step H) before w → exec H tx₁ before.contract c₁ = .ok s₁ →
      c₁.ownership = some (n, sig) → Step H w after → Released w.contract after.contract n →
      Relation.ReflTransGen (Step H) after last → exec H tx₂ last.contract c₂ = .ok s₂ →
      c₂.ownership ≠ some (n, sig) := by
  have hinv := h.consistent
  have hlt : ∀ w' n, Step H w w' → Released w.contract w'.contract n →
      w.contract.registrationNonce n < w'.contract.registrationNonce n := by
    intro w' n hstep hreleased
    rcases hstep.registryMove with ⟨tx, c, hmove⟩
    exact hmove.nonce_lt hinv hreleased
  refine ⟨hinv, hinv.slots.nodup, hlt, ?_⟩
  intro n sig hone before after last tx₁ c₁ s₁ tx₂ c₂ s₂ hbefore hfirst hc₁ hstep hreleased hafter
    hsecond hc₂
  have hsame := hone _ _ _ _ (ownership_verified hfirst hc₁) (ownership_verified hsecond hc₂)
  have hrise := hlt after n hstep hreleased
  have hle := nonce_le_of_steps hbefore n
  have hle' := nonce_le_of_steps hafter n
  omega

/-- A call that evaluates did not revert. -/
theorem World.apply_call {w w' : World} {e : Tx × Call} (h : w.apply H e = some w') :
    w.now ≤ e.1.timestamp ∧ ∃ s, exec H e.1 w.contract e.2 = .ok s ∧ w' = ⟨e.1.timestamp, s⟩ := by
  unfold World.apply at h
  split at h
  · rename_i hnow
    split at h
    · rename_i s hexec
      exact ⟨hnow, s, hexec, (Option.some.inj h).symm⟩
    · cases h
  · cases h

/-- A wiring whose signatures name the nonce they are for. -/
def nonceWiring : Wiring := { sampleWiring with
  ownershipMessage := fun _ _ nonce => if nonce = 0 then 1 else 2
  verify := fun _ message sig =>
    decide (message = 1 ∧ sig = [1]) || decide (message = 2 ∧ sig = [2]) }

theorem nonceWiring_oneNonce (n : Bytes32) : OneNonce nonceWiring n [1] := by
  have hzero : ∀ a k, nonceWiring.verify n (nonceWiring.ownershipMessage n a k) [1] = true →
      k = 0 := by
    intro a k hk
    by_contra hne
    have hmessage : nonceWiring.ownershipMessage n a k = 2 := if_neg hne
    rw [hmessage] at hk
    exact Bool.noConfusion hk
  intro a a' k k' hk hk'
  rw [hzero a k hk, hzero a' k' hk']

/-- A node registers, leaves, and registers again with the signature of the new nonce. -/
theorem registry_consistent_sample :
    ∃ w after, Reachable nonceWiring w ∧ Step nonceWiring w after ∧
      Released w.contract after.contract 77 ∧
      w.contract.registrationNonce 77 < after.contract.registrationNonce 77 ∧
      Call.ownership (.registerNode 77 [] [] 1 [] [2]) ≠ some (77, [1]) := by
  have hrun : ((runCalls nonceWiring sampleDeployed
      [(sampleTx 3 10, .bond 20000000000000000000000)]).bind fun before =>
      (World.apply nonceWiring before (sampleTx 3 20, .registerNode 77 [] [] 1 [] [1])).bind
        fun w => (World.apply nonceWiring w (sampleTx 3 30, .deregisterNode)).bind fun after =>
          (World.apply nonceWiring after (sampleTx 3 40, .registerNode 77 [] [] 1 [] [2])).map
            fun _ => (w.contract.nodeIdToAddress 77, (w.contract.nodes 3).active,
              (after.contract.nodes 3).active)) = some (3, true, false) := by
    decide +kernel
  rcases Option.bind_eq_some_iff.mp hrun with ⟨before, hbefore, hrest⟩
  rcases Option.bind_eq_some_iff.mp hrest with ⟨w, hw, hrest⟩
  rcases Option.bind_eq_some_iff.mp hrest with ⟨after, hafter, hrest⟩
  rcases Option.map_eq_some_iff.mp hrest with ⟨last, hlast, hfacts⟩
  simp only [Prod.mk.injEq] at hfacts
  rcases hfacts with ⟨hheld, hactive, hinactive⟩
  have hreach : Reachable nonceWiring w :=
    ((sampleDeployed_reachable nonceWiring).of_runCalls hbefore).step (World.apply_step hw)
  have hstep := World.apply_step hafter
  have hreleased : Released w.contract after.contract 77 := by
    refine ⟨?_, .inr ⟨?_, ?_⟩⟩
    · rw [hheld]
      decide
    · rw [hheld]
      exact hactive
    · rw [hheld]
      exact hinactive
  rcases World.apply_call hw with ⟨-, s₁, hfirst, -⟩
  rcases World.apply_call hlast with ⟨-, s₂, hsecond, -⟩
  have hall := registry_consistent hreach
  exact ⟨w, after, hreach, hstep, hreleased, hall.2.2.1 after 77 hstep hreleased,
    hall.2.2.2 77 [1] (nonceWiring_oneNonce 77) before after after _ _ s₁ _ _ s₂
      (.single (World.apply_step hw)) hfirst rfl hstep hreleased .refl hsecond⟩

end Decdn.CapacityBond
