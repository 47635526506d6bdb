import Decdn.CapacityBond.RegistryConsistency
import Decdn.Foundations.Runs

/-!
# Activity of an operator

An operator is active while it is registered, bonded at or above its entry floor and not
ejected.  Which calls can end that is read off the moves on its bond, its floor and its
tier, next to the moves on the registry.  The bond curve is checked at three calls, and
what they establish lasts until a slash or a change of the curve.

Main results:

- Theorem `exec_bondMove`: what a call does to bond, floor and tier of one operator.
- Theorem `activity_non_retroactive`: the calls that end activity, and how long the curve
  holds.
-/

namespace Decdn.CapacityBond

variable {H : Wiring} {tx : Tx} {s s' : State} {operator : Address} {c : Call}

/-- The bond covers the declared tier. -/
def CoversTier (H : Wiring) (s : State) (operator : Address) : Prop :=
  ∃ required, s.bondRequired H (s.declaredMbps operator) = .ok required ∧
    required ≤ s.activeBond operator

/-- The calls that check the bond against the curve. -/
def Call.CurveGated : Call → Prop
  | .registerNode .. | .requestUnbond _ | .declareMbps _ => True
  | _ => False

/-- What a call does to bond, floor and tier of one operator. -/
inductive BondMove (H : Wiring) (tx : Tx) (s s' : State) (operator : Address) : Call → Prop where
  | kept (c : Call) (hother : c.CurveGated → tx.sender ≠ operator)
      (hbond : s'.activeBond operator = s.activeBond operator)
      (hfloor : s'.bondFloorAtActivation operator = s.bondFloorAtActivation operator)
      (htier : s'.declaredMbps operator = s.declaredMbps operator) :
      BondMove H tx s s' operator c
  | raised (amount : Nat) (hsender : tx.sender = operator)
      (hbond : s'.activeBond operator = s.activeBond operator + amount)
      (hfloor : s'.bondFloorAtActivation operator = s.bondFloorAtActivation operator ∨
        s'.bondFloorAtActivation operator ≤ s'.activeBond operator)
      (htier : s'.declaredMbps operator = s.declaredMbps operator) :
      BondMove H tx s s' operator (.bond amount)
  | requested (amount : Nat) (hsender : tx.sender = operator)
      (hcovers : CoversTier H s' operator) :
      BondMove H tx s s' operator (.requestUnbond amount)
  | declared (mbps : Nat) (hsender : tx.sender = operator)
      (hbond : s'.activeBond operator = s.activeBond operator)
      (hfloor : s'.bondFloorAtActivation operator = s.bondFloorAtActivation operator)
      (hcovers : CoversTier H s' operator) :
      BondMove H tx s s' operator (.declareMbps mbps)
  | registered (nodeId termsHash : Bytes32)
      (multiaddrs regionHint bindingSignature ed25519Signature : Bytes)
      (hsender : tx.sender = operator) (hinactive : (s.nodes operator).active = false)
      (hcovers : CoversTier H s' operator) :
      BondMove H tx s s' operator
        (.registerNode nodeId multiaddrs regionHint termsHash bindingSignature ed25519Signature)
  | released (hsender : tx.sender = operator) (hcovers : CoversTier H s' operator) :
      BondMove H tx s s' operator .deregisterNode
  | slashed (challenger : Address) (offenseType : UInt8) (evidenceHash : Bytes32) :
      BondMove H tx s s' operator (.slash operator challenger offenseType evidenceHash)

/-- No tier needs no bond. -/
theorem coversTier_zero (h : s.declaredMbps operator = 0) : CoversTier H s operator := by
  refine ⟨0, ?_, Nat.zero_le _⟩
  rw [h]
  rfl

theorem bond_bondMove {amount : Nat} (h : bond tx s amount = .ok s') :
    BondMove H tx s s' operator (.bond amount) := by
  rcases bond_cases h with ⟨-, -, -, rfl⟩
  rcases eq_or_ne tx.sender operator with rfl | hne
  · refine .raised amount rfl (Function.update_self _ _ _) ?_ rfl
    by_cases hcross : Crosses s (s.activeBond tx.sender) (s.activeBond tx.sender + amount)
    · right
      simp only [if_pos hcross, Function.update_self]
      exact hcross.2
    · left
      simp only [if_neg hcross]
  · refine .kept _ (fun _ => hne) (Function.update_of_ne hne.symm _ _) ?_ rfl
    dsimp only
    split
    · rw [Function.update_of_ne hne.symm]
    · rfl

theorem requestUnbond_bondMove {amount : Nat} (h : requestUnbond H tx s amount = .ok s') :
    BondMove H tx s s' operator (.requestUnbond amount) := by
  rcases requestUnbond_cases h with ⟨-, -, ⟨required, hrequired, hle⟩, rfl⟩
  rcases eq_or_ne tx.sender operator with rfl | hne
  · refine .requested amount rfl ⟨required, hrequired, ?_⟩
    simp only [Function.update_self]
    exact hle
  · exact .kept _ (fun _ => hne) (Function.update_of_ne hne.symm _ _) rfl rfl

theorem declareMbps_bondMove {mbps : Nat} (h : declareMbps H tx s mbps = .ok s') :
    BondMove H tx s s' operator (.declareMbps mbps) := by
  rcases declareMbps_cases h with ⟨hgate, history, -, rfl⟩
  rcases eq_or_ne tx.sender operator with rfl | hne
  · refine .declared mbps rfl rfl rfl ?_
    rcases hgate with ⟨rfl, -⟩ | ⟨required, hrequired, hle⟩
    · exact coversTier_zero (Function.update_self _ _ _)
    · refine ⟨required, ?_, hle⟩
      simp only [Function.update_self]
      exact hrequired
  · exact .kept _ (fun _ => hne) rfl rfl (Function.update_of_ne hne.symm _ _)

theorem registerNode_bondMove {nodeId termsHash : Bytes32}
    {multiaddrs regionHint bindingSignature ed25519Signature : Bytes}
    (h : registerNode H tx s nodeId multiaddrs regionHint termsHash bindingSignature
      ed25519Signature = .ok s') :
    BondMove H tx s s' operator (.registerNode nodeId multiaddrs regionHint termsHash
      bindingSignature ed25519Signature) := by
  rcases registerNode_cases h with ⟨-, -, -, -, hcurve, -, hinactive, -, -, -, rfl⟩
  rcases eq_or_ne tx.sender operator with rfl | hne
  · exact .registered _ _ _ _ _ _ rfl hinactive hcurve
  · exact .kept _ (fun _ => hne) rfl (Function.update_of_ne hne.symm _ _) rfl

theorem slash_bondMove {target challenger : Address} {offenseType : UInt8}
    {evidenceHash : Bytes32}
    (h : exec H tx s (.slash target challenger offenseType evidenceHash) = .ok s') :
    BondMove H tx s s' operator (.slash target challenger offenseType evidenceHash) := by
  rcases exec_slash_cases h with ⟨slashId, amount, hslash⟩
  rcases slash_cases hslash with ⟨-, -, -, -, -, -, r, -, -, -, events, tail, ejected,
    nodes, nonces, addrs, index, -, -, -, rfl⟩
  rcases eq_or_ne target operator with rfl | hne
  · exact .slashed challenger offenseType evidenceHash
  · exact .kept _ (fun hgated => hgated.elim) (Function.update_of_ne hne.symm _ _) rfl rfl

/-- Every call makes one of these moves. -/
theorem exec_bondMove (h : exec H tx s c = .ok s') : BondMove H tx s s' operator c := by
  have hsetter : c.IsSetter → BondMove H tx s s' operator c := by
    intro hset
    rcases setter_cases hset h with ⟨p, e, rfl, -⟩
    refine .kept _ ?_ rfl rfl rfl
    intro hgated
    cases c with
    | registerNode | requestUnbond | declareMbps => exact hset.elim
    | _ => exact hgated.elim
  cases c with
  | bond amount => exact bond_bondMove h
  | requestUnbond amount => exact requestUnbond_bondMove h
  | declareMbps mbps => exact declareMbps_bondMove h
  | registerNode nodeId multiaddrs regionHint termsHash bindingSignature ed25519Signature =>
    exact registerNode_bondMove h
  | slash target challenger offenseType evidenceHash => exact slash_bondMove h
  | deregisterNode =>
    rcases deregisterNode_cases h with ⟨-, addrs, index, history, events, -, -, -, rfl⟩
    rcases eq_or_ne tx.sender operator with rfl | hne
    · exact .released rfl (coversTier_zero (Function.update_self _ _ _))
    · exact .kept _ (fun _ => hne) rfl rfl (Function.update_of_ne hne.symm _ _)
  | unbond =>
    rcases unbond_cases h with ⟨-, -, -, rfl⟩
    exact .kept _ (fun hgated => hgated.elim) rfl rfl rfl
  | updateRegion newRegion =>
    rcases updateRegion_cases h with ⟨-, -, -, -, rfl⟩
    exact .kept _ (fun hgated => hgated.elim) rfl rfl rfl
  | bindNodeId nodeId bindingSignature ed25519Signature =>
    rcases bindNodeId_cases h with ⟨-, -, -, toAddress, nonces, -, rfl⟩
    exact .kept _ (fun hgated => hgated.elim) rfl rfl rfl
  | reclaimNodeId nodeId ed25519Signature =>
    rcases reclaimNodeId_cases h with ⟨-, -, -, holder, addrs, index, nodes, events, -, -, rfl⟩
    exact .kept _ (fun hgated => hgated.elim) rfl rfl rfl
  | updateMultiaddrs multiaddrs =>
    rcases updateMultiaddrs_cases h with rfl
    exact .kept _ (fun hgated => hgated.elim) rfl rfl rfl
  | finalizeUnappealedSlash slashId =>
    rcases finalizeUnappealedSlash_cases h with ⟨-, -, -, -, -, -, rfl⟩
    exact .kept _ (fun hgated => hgated.elim) rfl rfl rfl
  | markAppealOpen slashId =>
    rcases markAppealOpen_cases h with ⟨-, -, -, -, -, rfl⟩
    exact .kept _ (fun hgated => hgated.elim) rfl rfl rfl
  | creditPauseTime delta =>
    rcases creditPauseTime_cases h with ⟨-, rfl⟩
    exact .kept _ (fun hgated => hgated.elim) rfl rfl rfl
  | settleAppealUpheld slashId =>
    rcases settleAppealUpheld_cases h with ⟨-, -, -, -, -, -, rfl⟩
    exact .kept _ (fun hgated => hgated.elim) rfl rfl rfl
  | settleAppealGranted slashId =>
    rcases settleAppealGranted_cases h with ⟨-, -, -, -, -, -, rfl⟩
    exact .kept _ (fun hgated => hgated.elim) rfl rfl rfl
  | ejectNode target =>
    rcases ejectNode_cases h with ⟨-, rfl⟩ | ⟨-, nodes, nonces, addrs, index, events, -, -, rfl⟩
    · exact .kept _ (fun hgated => hgated.elim) rfl rfl rfl
    · exact .kept _ (fun hgated => hgated.elim) rfl rfl rfl
  | unEjectNode target =>
    rcases unEjectNode_cases h with rfl | rfl
    · exact .kept _ (fun hgated => hgated.elim) rfl rfl rfl
    · exact .kept _ (fun hgated => hgated.elim) rfl rfl rfl
  | pause =>
    rcases pause_cases h with ⟨-, rfl⟩
    exact .kept _ (fun hgated => hgated.elim) rfl rfl rfl
  | unpause =>
    rcases unpause_cases h with ⟨-, -, rfl⟩
    exact .kept _ (fun hgated => hgated.elim) rfl rfl rfl
  | _ => exact hsetter trivial

/-! ## The end of activity -/

/-- The calls that may end an operator's activity. -/
def Call.EndsActivity (tx : Tx) (s : State) (operator : Address) : Call → Prop
  | .requestUnbond _ | .deregisterNode => tx.sender = operator
  | .reclaimNodeId nodeId _ => s.nodeIdToAddress nodeId = operator
  | .slash target _ _ _ => target = operator
  | .ejectNode target => target = operator
  | _ => False

/-- Other calls leave the record active and the operator not ejected. -/
theorem RegistryMove.active_kept (hmove : RegistryMove H tx s s' c)
    (hc : ¬ c.EndsActivity tx s operator) (hactive : (s.nodes operator).active = true)
    (hejected : s.ejected operator = false) :
    (s'.nodes operator).active = true ∧ s'.ejected operator = false := by
  have hslots : ∀ {r : Registry}, s'.registry = r → s'.nodes = r.nodes ∧ s'.ejected = r.ejected :=
    fun heq => ⟨congrArg Registry.nodes heq, congrArg Registry.ejected heq⟩
  cases hmove with
  | kept _ heq =>
    rw [(hslots heq).1, (hslots heq).2]
    exact ⟨hactive, hejected⟩
  | unbonding amount unlockAt newActive heq =>
    rw [(hslots heq).1, (hslots heq).2]
    exact ⟨hactive, hejected⟩
  | reinstated amount hout hfree heq =>
    rw [(hslots heq).1, (hslots heq).2]
    refine ⟨hactive, ?_⟩
    rcases eq_or_ne operator tx.sender with rfl | hne
    · exact Function.update_self _ _ _
    · exact (Function.update_of_ne hne _ _).trans hejected
  | regionWritten newRegion hlength hsender heq =>
    rw [(hslots heq).1, (hslots heq).2]
    exact ⟨update_active hsender hactive, hejected⟩
  | multiaddrsWritten multiaddrs hsender heq =>
    rw [(hslots heq).1, (hslots heq).2]
    exact ⟨update_active hsender hactive, hejected⟩
  | registered nodeId termsHash multiaddrs regionHint bindingSignature ed25519Signature hzero
      hlength _ hinactive howner hbinding hverify heq =>
    rw [(hslots heq).1, (hslots heq).2]
    exact ⟨update_active rfl hactive, hejected⟩
  | deregistered addrs index hsender hvacated heq =>
    rw [(hslots heq).1, (hslots heq).2]
    exact ⟨(congrArg NodeInfo.active (Function.update_of_ne (Ne.symm hc) _ _)).trans hactive,
      hejected⟩
  | rotated nodeId bindingSignature ed25519Signature toAddress nonces hzero howner hverify hold
      heq =>
    rw [(hslots heq).1, (hslots heq).2]
    refine ⟨?_, hejected⟩
    dsimp only
    split
    · rename_i hsender
      exact update_active hsender hactive
    · exact hactive
  | reclaimed nodeId ed25519Signature holder addrs index nodes events hzero hholder hbound hverify
      hcases heq =>
    rw [(hslots heq).1, (hslots heq).2]
    refine ⟨?_, hejected⟩
    have hne : operator ≠ holder := fun hsame => hc (hholder.trans hsame.symm)
    rcases hcases with ⟨-, -, -, rfl, -⟩ | ⟨-, -, -, -, rfl, -⟩ | ⟨-, -, -, rfl, -⟩
    · exact (congrArg NodeInfo.active (Function.update_of_ne hne _ _)).trans hactive
    · exact (congrArg NodeInfo.active (Function.update_of_ne hne _ _)).trans hactive
    · exact hactive
  | expelled _ target latch nodes nonces addrs index events remaining hcall hfree hexpelled heq =>
    rw [(hslots heq).1, (hslots heq).2]
    have hne : operator ≠ target := by
      rintro rfl
      rcases hcall with ⟨rfl, -⟩ | ⟨challenger, offenseType, evidenceHash, rfl, -⟩
      · exact hc rfl
      · exact hc rfl
    refine ⟨?_, (Function.update_of_ne hne _ _).trans hejected⟩
    rcases hexpelled with ⟨-, rfl, -⟩ | ⟨-, -, rfl, -⟩
    · exact hactive
    · exact (congrArg NodeInfo.active (Function.update_of_ne hne _ _)).trans hactive
  | latched target hout heq =>
    rw [(hslots heq).1, (hslots heq).2]
    exact ⟨hactive, hejected⟩
  | unlatched target heq =>
    rw [(hslots heq).1, (hslots heq).2]
    exact ⟨hactive, hejected⟩

/-- Other calls leave the bond at or above the floor. -/
theorem BondMove.floor_kept (hmove : BondMove H tx s s' operator c)
    (hc : ¬ c.EndsActivity tx s operator) (hactive : (s.nodes operator).active = true)
    (hfloor : s.bondFloorAtActivation operator ≤ s.activeBond operator) :
    s'.bondFloorAtActivation operator ≤ s'.activeBond operator := by
  cases hmove with
  | kept _ _ hbond hsame _ => rwa [hbond, hsame]
  | raised amount hsender hbond hsame htier =>
    rcases hsame with hsame | hbelow
    · rw [hsame, hbond]
      exact Nat.le_add_right_of_le hfloor
    · exact hbelow
  | requested amount hsender hcovers => exact absurd hsender hc
  | declared mbps hsender hbond hsame hcovers => rwa [hbond, hsame]
  | registered nodeId termsHash multiaddrs regionHint bindingSignature ed25519Signature hsender
      hinactive hcovers =>
    rw [hactive] at hinactive
    cases hinactive
  | released hsender hcovers => exact absurd hsender hc
  | slashed challenger offenseType evidenceHash => exact absurd rfl hc

/-! ## The curve -/

/-- The calls after which the curve may fail. -/
def Call.DisturbsCurve (operator : Address) : Call → Prop
  | .slash target _ _ _ => target = operator
  | .setK _ | .setAlpha _ => True
  | _ => False

/-- The curve is written by its two setters only. -/
theorem exec_curve (h : exec H tx s c = .ok s') (hc : ¬ c.DisturbsCurve operator) (mbps : Nat) :
    s'.bondRequired H mbps = s.bondRequired H mbps := by
  have hparams := exec_setParams h
  unfold State.bondRequired
  cases c with
  | setK n => exact absurd trivial hc
  | setAlpha n => exact absurd trivial hc
  | _ => rw [hparams]; rfl

/-- A gated call leaves the bond covering the tier. -/
theorem BondMove.covers (hmove : BondMove H tx s s' operator c) (hgated : c.CurveGated)
    (hsender : tx.sender = operator) : CoversTier H s' operator := by
  cases hmove with
  | kept _ hother _ _ _ => exact absurd hsender (hother hgated)
  | raised amount _ _ _ _ => exact hgated.elim
  | requested amount _ hcovers => exact hcovers
  | declared mbps _ _ _ hcovers => exact hcovers
  | registered nodeId termsHash multiaddrs regionHint bindingSignature ed25519Signature _ _
      hcovers => exact hcovers
  | released _ hcovers => exact hgated.elim
  | slashed challenger offenseType evidenceHash => exact hgated.elim

/-- Other calls keep it so. -/
theorem CoversTier.exec (hcovers : CoversTier H s operator) (h : exec H tx s c = .ok s')
    (hc : ¬ c.DisturbsCurve operator) : CoversTier H s' operator := by
  rcases hcovers with ⟨required, hrequired, hle⟩
  have hcurve := exec_curve h hc
  have hmove : BondMove H tx s s' operator c := exec_bondMove h
  cases hmove with
  | kept _ _ hbond _ htier => exact ⟨required, by rw [htier, hcurve]; exact hrequired, hbond ▸ hle⟩
  | raised amount _ hbond _ htier =>
    refine ⟨required, by rw [htier, hcurve]; exact hrequired, ?_⟩
    rw [hbond]
    exact Nat.le_add_right_of_le hle
  | requested amount _ hcovers => exact hcovers
  | declared mbps _ _ _ hcovers => exact hcovers
  | registered nodeId termsHash multiaddrs regionHint bindingSignature ed25519Signature _ _
      hcovers => exact hcovers
  | released _ hcovers => exact hcovers
  | slashed challenger offenseType evidenceHash => exact absurd rfl hc

/-! ## Runs -/

/-- A step with the call it makes, or none for a donation. -/
def CallStep (H : Wiring) (w : World) (e : Option (Tx × Call)) (w' : World) : Prop :=
  match e with
  | some (tx, c) => w.now ≤ tx.timestamp ∧
      ∃ s, exec H tx w.contract c = .ok s ∧ w' = ⟨tx.timestamp, s⟩
  | none => ∃ amount,
      w' = ⟨w.now, { w.contract with tokenBalance := w.contract.tokenBalance + amount }⟩

/-- No slash of the operator and no change of the curve. -/
def Undisturbed (operator : Address) (_ : World) (e : Option (Tx × Call)) : Prop :=
  ∀ tx c, e = some (tx, c) → ¬ c.DisturbsCurve operator

/-- Activity ends only in the operator's own `requestUnbond` or `deregisterNode`, in a reclaim of
its node id, in a slash of it, or in its ejection.  After a curve-gated call of the operator the
bond covers its tier until it is slashed or the curve changes. -/
theorem activity_non_retroactive (H : Wiring) (w : World) :
    (∀ tx c s' operator, exec H tx w.contract c = .ok s' → isActive w.contract operator →
      ¬ isActive s' operator → c.EndsActivity tx w.contract operator) ∧
    ∀ tx c s' operator w', exec H tx w.contract c = .ok s' → c.CurveGated →
      tx.sender = operator →
      Reaches (CallStep H) (Undisturbed operator) ⟨tx.timestamp, s'⟩ w' →
      ∃ required, w'.contract.bondRequired H (w'.contract.declaredMbps operator) = .ok required ∧
        required ≤ w'.contract.activeBond operator := by
  constructor
  · intro tx c s' operator hexec hbefore hafter
    by_contra hc
    rcases hbefore with ⟨hactive, hfloor, hejected⟩
    rcases (exec_registryMove hexec).active_kept hc hactive hejected with ⟨hactive', hejected'⟩
    have hfloor' := (exec_bondMove hexec).floor_kept hc hactive hfloor
    exact hafter ⟨hactive', hfloor', hejected'⟩
  · intro tx c s' operator w' hexec hgated hsender hrun
    have hstart : CoversTier H s' operator := (exec_bondMove hexec).covers hgated hsender
    refine hrun.invariant (I := fun w => CoversTier H w.contract operator) hstart ?_
    intro w₁ e w₂ hguard hstep hcovers
    cases e with
    | none =>
      rcases hstep with ⟨amount, rfl⟩
      exact hcovers
    | some e =>
      rcases e with ⟨tx', c'⟩
      rcases hstep with ⟨-, s₂, hexec', rfl⟩
      exact hcovers.exec hexec' (hguard tx' c' rfl)

/-- An operator registers, governance raises the floor above its bond, and it leaves. -/
theorem activity_non_retroactive_sample :
    ∃ (w : World) (tx : Tx) (s' : State),
      exec sampleWiring tx w.contract .deregisterNode = .ok s' ∧
      isActive w.contract 3 ∧ ¬ isActive s' 3 ∧
      Call.EndsActivity tx w.contract 3 .deregisterNode ∧
      ∃ required, w.contract.bondRequired sampleWiring (w.contract.declaredMbps 3) =
        .ok required ∧ required ≤ w.contract.activeBond 3 := by
  have hrun : ((runCalls sampleWiring sampleDeployed
      [(sampleTx 3 10, .bond 20000000000000000000000),
        (sampleTx 3 15, .declareMbps 100)]).bind fun before =>
      (World.apply sampleWiring before (sampleTx 3 20, .registerNode 77 [] [] 1 [] [])).bind
        fun mid => (World.apply sampleWiring mid
          (sampleTx 9 25, .setMinBond 50000000000000000000000)).bind fun w =>
            (World.apply sampleWiring w (sampleTx 3 30, .deregisterNode)).map fun last =>
              (decide (isActive w.contract 3), decide (isActive last.contract 3))) =
      some (true, false) := by
    decide +kernel
  rcases Option.bind_eq_some_iff.mp hrun with ⟨before, -, hrest⟩
  rcases Option.bind_eq_some_iff.mp hrest with ⟨mid, hmid, hrest⟩
  rcases Option.bind_eq_some_iff.mp hrest with ⟨w, hw, hrest⟩
  rcases Option.map_eq_some_iff.mp hrest with ⟨last, hlast, hfacts⟩
  simp only [Prod.mk.injEq, decide_eq_true_eq, decide_eq_false_iff_not] at hfacts
  rcases World.apply_call hmid with ⟨-, s₁, hregister, rfl⟩
  rcases World.apply_call hw with ⟨hnow, s₂, hset, rfl⟩
  rcases World.apply_call hlast with ⟨-, s₃, hleave, rfl⟩
  have hstep : Reaches (CallStep sampleWiring) (Undisturbed 3) ⟨20, s₁⟩ ⟨25, s₂⟩ := by
    refine .tail (e := some (sampleTx 9 25, .setMinBond 50000000000000000000000)) (.refl _) ?_
      ⟨hnow, s₂, hset, rfl⟩
    intro tx c hcall
    rcases Prod.mk.inj (Option.some.inj hcall) with ⟨-, rfl⟩
    exact id
  exact ⟨_, _, s₃, hleave, hfacts.1, hfacts.2,
    (activity_non_retroactive sampleWiring _).1 _ _ s₃ 3 hleave hfacts.1 hfacts.2,
    (activity_non_retroactive sampleWiring before).2 _ _ s₁ 3 _ hregister trivial rfl hstep⟩

end Decdn.CapacityBond
