import Decdn.CapacityBond.SlashingSpec

/-!
# The region data of an operator

The current region, the previous one and the stamp of the last write are written by
the operator's own `registerNode` and `updateRegion` only; every other call, of
anybody, leaves them alone.

Main results:

- Theorem `exec_regionMove`: what a call does to an operator's region data.
- Theorem `exec_window`: the stability window is written by its setter only.
- Theorem `Reachable.window_floor`: the window keeps its floor.
-/

namespace Decdn.CapacityBond

variable {H : Wiring} {tx : Tx} {s s' : State} {operator : Address}

/-- The region a call writes. -/
def Call.writesRegion : Call → Option Bytes
  | .updateRegion newRegion => some newRegion
  | .registerNode _ _ regionHint _ _ _ => some regionHint
  | _ => none

/-- What a call does to the region data of one operator. -/
inductive RegionMove (H : Wiring) (tx : Tx) (c : Call) (s s' : State) (operator : Address) : Prop
    where
  | kept (hhint : (s'.nodes operator).regionHint = (s.nodes operator).regionHint)
      (hprev : s'.regionPrev operator = s.regionPrev operator)
      (hstamp : s'.regionLastChanged operator = s.regionLastChanged operator)
  | wrote (newRegion : Bytes) (hcall : c.writesRegion = some newRegion)
      (hsender : tx.sender = operator)
      (hhint : (s'.nodes operator).regionHint = regionAfter H s operator newRegion)
      (hprev : s'.regionPrev operator = regionPrevAfter H s operator newRegion operator)
      (hstamp : s'.regionLastChanged operator = tx.timestamp)

/-- A write to one node record that keeps its region. -/
theorem update_regionHint {a : Address} {info : NodeInfo}
    (h : info.regionHint = (s.nodes a).regionHint) :
    (Function.update s.nodes a info operator).regionHint = (s.nodes operator).regionHint := by
  rcases eq_or_ne operator a with rfl | hne
  · rw [Function.update_self, h]
  · rw [Function.update_of_ne hne]

/-- An ejection keeps the region. -/
theorem Expelled.regionHint {target : Address} {nodes : Address → NodeInfo}
    {nonces : Bytes32 → Nat} {addrs : List Address} {index : Address → Nat}
    (h : Expelled s target nodes nonces addrs index) :
    (nodes operator).regionHint = (s.nodes operator).regionHint := by
  rcases h with ⟨-, rfl, -⟩ | ⟨-, -, rfl, -⟩
  · rfl
  · exact update_regionHint rfl

/-- A region write of another operator leaves the previous region alone. -/
theorem regionPrevAfter_of_ne {a : Address} (newRegion : Bytes) (h : operator ≠ a) :
    regionPrevAfter H s a newRegion operator = s.regionPrev operator := by
  unfold regionPrevAfter
  split
  · rw [Function.update_of_ne h]
  · rfl

theorem updateRegion_move {newRegion : Bytes} (h : updateRegion H tx s newRegion = .ok s') :
    RegionMove H tx (.updateRegion newRegion) s s' operator := by
  rcases updateRegion_cases h with ⟨-, -, -, -, rfl⟩
  rcases eq_or_ne tx.sender operator with rfl | hne
  · exact .wrote newRegion rfl rfl (by simp only [Function.update_self]) rfl
      (by simp only [Function.update_self])
  · exact .kept (by simp only [Function.update_of_ne hne.symm])
      (regionPrevAfter_of_ne newRegion hne.symm) (by simp only [Function.update_of_ne hne.symm])

theorem registerNode_move {nodeId termsHash : Bytes32}
    {multiaddrs regionHint bindingSignature ed25519Signature : Bytes}
    (h : registerNode H tx s nodeId multiaddrs regionHint termsHash bindingSignature
      ed25519Signature = .ok s') :
    RegionMove H tx (.registerNode nodeId multiaddrs regionHint termsHash bindingSignature
      ed25519Signature) s s' operator := by
  rcases registerNode_cases h with ⟨-, -, -, -, -, -, -, -, -, -, rfl⟩
  rcases eq_or_ne tx.sender operator with rfl | hne
  · exact .wrote regionHint rfl rfl (by simp only [Function.update_self, registeredInfo]) rfl
      (by simp only [Function.update_self])
  · exact .kept (by simp only [Function.update_of_ne hne.symm])
      (regionPrevAfter_of_ne regionHint hne.symm) (by simp only [Function.update_of_ne hne.symm])

/-- Every call keeps the region data of an operator, unless it is the operator's own write. -/
theorem exec_regionMove {c : Call} (h : exec H tx s c = .ok s') :
    RegionMove H tx c s s' operator := by
  have hsetter : c.IsSetter → RegionMove H tx c s s' operator := by
    intro hset
    rcases setter_cases hset h with ⟨p, e, rfl, -⟩
    exact .kept rfl rfl rfl
  cases c with
  | updateRegion newRegion => exact updateRegion_move h
  | registerNode nodeId multiaddrs regionHint termsHash bindingSignature ed25519Signature =>
    exact registerNode_move h
  | bond amount =>
    rcases bond_cases h with ⟨-, -, -, rfl⟩
    exact .kept rfl rfl rfl
  | requestUnbond amount =>
    rcases requestUnbond_cases h with ⟨-, -, -, rfl⟩
    exact .kept rfl rfl rfl
  | unbond =>
    rcases unbond_cases h with ⟨-, -, -, rfl⟩
    exact .kept rfl rfl rfl
  | declareMbps mbps =>
    rcases declareMbps_cases h with ⟨-, history, -, rfl⟩
    exact .kept rfl rfl rfl
  | deregisterNode =>
    rcases deregisterNode_cases h with ⟨-, addrs, index, history, events, -, -, -, rfl⟩
    exact .kept (update_regionHint rfl) rfl rfl
  | bindNodeId nodeId bindingSignature ed25519Signature =>
    rcases bindNodeId_cases h with ⟨-, -, -, toAddress, nonces, -, rfl⟩
    refine .kept ?_ rfl rfl
    dsimp only
    split
    · exact update_regionHint rfl
    · rfl
  | reclaimNodeId nodeId ed25519Signature =>
    rcases reclaimNodeId_cases h with ⟨-, -, -, holder, addrs, index, nodes, events, -, hcases, rfl⟩
    rcases hcases with ⟨-, -, -, rfl, -⟩ | ⟨-, -, -, -, rfl, -⟩ | ⟨-, -, -, rfl, -⟩
    · exact .kept (update_regionHint rfl) rfl rfl
    · exact .kept (update_regionHint rfl) rfl rfl
    · exact .kept rfl rfl rfl
  | updateMultiaddrs multiaddrs =>
    rcases updateMultiaddrs_cases h with rfl
    exact .kept (update_regionHint rfl) rfl rfl
  | slash target challenger offenseType evidenceHash =>
    rcases exec_slash_cases h with ⟨slashId, amount, hslash⟩
    rcases slash_cases hslash with ⟨-, -, -, -, -, -, r, -, -, -, events, tail, ejected,
      nodes, nonces, addrs, index, -, -, hexpelled, rfl⟩
    refine .kept ?_ rfl rfl
    rcases hexpelled with ⟨-, rfl, -⟩ | ⟨-, -, hexpelled⟩
    · rfl
    · exact hexpelled.regionHint
  | finalizeUnappealedSlash slashId =>
    rcases finalizeUnappealedSlash_cases h with ⟨-, -, -, -, -, -, rfl⟩
    exact .kept rfl rfl rfl
  | markAppealOpen slashId =>
    rcases markAppealOpen_cases h with ⟨-, -, -, -, -, rfl⟩
    exact .kept rfl rfl rfl
  | creditPauseTime delta =>
    rcases creditPauseTime_cases h with ⟨-, rfl⟩
    exact .kept rfl rfl rfl
  | settleAppealUpheld slashId =>
    rcases settleAppealUpheld_cases h with ⟨-, -, -, -, -, -, rfl⟩
    exact .kept rfl rfl rfl
  | settleAppealGranted slashId =>
    rcases settleAppealGranted_cases h with ⟨-, -, -, -, -, -, rfl⟩
    exact .kept rfl rfl rfl
  | ejectNode target =>
    rcases ejectNode_cases h with ⟨-, rfl⟩ |
      ⟨-, nodes, nonces, addrs, index, events, hexpelled, -, rfl⟩
    · exact .kept rfl rfl rfl
    · exact .kept hexpelled.regionHint rfl rfl
  | unEjectNode target =>
    rcases unEjectNode_cases h with rfl | rfl
    · exact .kept rfl rfl rfl
    · exact .kept rfl rfl rfl
  | pause =>
    rcases pause_cases h with ⟨-, rfl⟩
    exact .kept rfl rfl rfl
  | unpause =>
    rcases unpause_cases h with ⟨-, -, rfl⟩
    exact .kept rfl rfl rfl
  | _ => exact hsetter trivial

/-- The stability window is written by its setter only, within its bounds. -/
theorem exec_window {c : Call} (h : exec H tx s c = .ok s') :
    s'.params.regionStabilityWindow = s.params.regionStabilityWindow ∨
      ∃ n, c = .setRegionStabilityWindow n ∧ s'.params.regionStabilityWindow = n ∧
        regionStabilityWindowFloor ≤ n := by
  have hparams := exec_setParams h
  cases c with
  | setRegionStabilityWindow n =>
    rcases setBounded_cases h with ⟨hfloor, -, rfl⟩
    exact .inr ⟨n, rfl, rfl, hfloor⟩
  | _ =>
    rw [hparams]
    exact .inl rfl

/-- The stability window is at least its floor. -/
theorem Reachable.window_floor {w : World} (h : Reachable H w) :
    regionStabilityWindowFloor ≤ w.contract.params.regionStabilityWindow := by
  induction h with
  | deployed tx minBond unbondingPeriod cooldown size window terms hdeploy =>
    rcases deploy_cases hdeploy with ⟨-, -, -, -, hwindow, -, rfl⟩
    exact hwindow.1
  | step _ hstep ih =>
    cases hstep with
    | call tx c _ hexec =>
      rcases exec_window hexec with hsame | ⟨n, -, hn, hfloor⟩
      · dsimp only
        rw [hsame]
        exact ih
      · dsimp only
        rw [hn]
        exact hfloor
    | donation amount => exact ih

end Decdn.CapacityBond
