import Decdn.CapacityBond.Solvency
import Mathlib

/-!
# The slash watermark

`slashedAtEpoch` of an operator is written by each slash and, when an appeal reverses one,
derived again from the operator's list of slash ids, which is scanned from its end up to
the first record that still stands.

Main results:

- Theorem `newest_eq_sup`: in a list in the order of time, the last standing entry is the
  largest.
- Theorem `StampInv.exec`: every call keeps the records in the order of time and the
  watermark on the standing ones.
- Theorem `slashed_at_epoch_standing`: the watermark is the largest epoch of the standing
  slashes.
-/

namespace Decdn.CapacityBond

open Finset

variable {H : Wiring} {tx : Tx} {s s' : State}

/-! ## The standing slashes -/

/-- The epoch of a slash, plus one. -/
def epochStamp (s : State) (id : Nat) : Nat := (s.slashRecords id).slashedAt / epochLength + 1

/-- The slashes of an operator that no appeal reversed. -/
def standing (s : State) (operator : Address) : Finset Nat :=
  (range s.slashCounter).filter fun id =>
    (s.slashRecords id).operator = operator ∧ (s.slashRecords id).status ≠ .reversed

/-- The last entry that stands has the largest stamp of those that do. -/
theorem newest_eq_sup {f : Nat → Nat} {owned stands : Nat → Prop} [DecidablePred owned]
    [DecidablePred stands] (n : Nat) (hmono : ∀ i j, i ≤ j → j < n → f i ≤ f j) :
    (match ((List.range n).filter fun id => owned id).reverse.find? fun id => stands id with
      | none => 0
      | some id => f id) = ((range n).filter fun id => owned id ∧ stands id).sup f := by
  induction n with
  | zero => rfl
  | succ n ih =>
    have hrest := ih fun i j hij hj => hmono i j hij (Nat.lt_succ_of_lt hj)
    rw [List.range_succ, List.filter_append, List.reverse_append, Finset.range_add_one,
      Finset.filter_insert]
    by_cases howned : owned n
    · have hlast : [n].filter (fun id => owned id) = [n] := by simp [howned]
      rw [hlast, List.reverse_singleton, List.singleton_append]
      by_cases hstands : stands n
      · -- the newest entry stands, and nothing before it is later
        simp only [List.find?_cons, hstands, decide_true]
        rw [if_pos ⟨howned, trivial⟩, Finset.sup_insert]
        refine (max_eq_left (Finset.sup_le fun id hid => ?_)).symm
        have hlt := Finset.mem_range.mp (Finset.mem_filter.mp hid).1
        exact hmono id n (Nat.le_of_lt hlt) (Nat.lt_succ_self n)
      · simp only [List.find?_cons, hstands, decide_false]
        rw [if_neg (fun h => h.2)]
        exact hrest
    · have hlast : [n].filter (fun id => owned id) = [] := by simp [howned]
      rw [hlast, List.reverse_nil, List.nil_append, if_neg (fun h => howned h.1)]
      exact hrest

/-! ## What a call does to the records -/

/-- The records of two states agree on whose they are, when they were made, and whether they
stand. -/
structure SameStanding (s s' : State) : Prop where
  slashCounter : s'.slashCounter = s.slashCounter
  operator : ∀ id, (s'.slashRecords id).operator = (s.slashRecords id).operator
  slashedAt : ∀ id, (s'.slashRecords id).slashedAt = (s.slashRecords id).slashedAt
  status : ∀ id, (s'.slashRecords id).status = .reversed ↔ (s.slashRecords id).status = .reversed
  operatorSlashIds : s'.operatorSlashIds = s.operatorSlashIds
  slashedAtEpoch : s'.slashedAtEpoch = s.slashedAtEpoch

/-- A call that keeps the records. -/
theorem SameStanding.of_eq (hcounter : s'.slashCounter = s.slashCounter)
    (hrecords : s'.slashRecords = s.slashRecords)
    (hids : s'.operatorSlashIds = s.operatorSlashIds)
    (hstamps : s'.slashedAtEpoch = s.slashedAtEpoch) : SameStanding s s' := by
  refine ⟨hcounter, ?_, ?_, ?_, hids, hstamps⟩ <;> rw [hrecords] <;> intro id <;> rfl

/-- A call that moves a record that stands to a status in which it still stands. -/
theorem SameStanding.of_set {slashId : Nat} {status : SlashStatus}
    (hold : (s.slashRecords slashId).status ≠ .reversed) (hnew : status ≠ .reversed)
    (hcounter : s'.slashCounter = s.slashCounter)
    (hrecords : s'.slashRecords = (s.setSlashStatus slashId status).slashRecords)
    (hids : s'.operatorSlashIds = s.operatorSlashIds)
    (hstamps : s'.slashedAtEpoch = s.slashedAtEpoch) : SameStanding s s' := by
  refine ⟨hcounter, ?_, ?_, ?_, hids, hstamps⟩ <;> rw [hrecords] <;> intro id
  · rcases eq_or_ne id slashId with rfl | hne
    · rw [setSlashStatus_self]
    · rw [setSlashStatus_of_ne s hne]
  · rcases eq_or_ne id slashId with rfl | hne
    · rw [setSlashStatus_self]
    · rw [setSlashStatus_of_ne s hne]
  · rcases eq_or_ne id slashId with rfl | hne
    · rw [setSlashStatus_self]
      exact iff_of_false hnew hold
    · rw [setSlashStatus_of_ne s hne]

/-- The calls that mint a slash or reverse one. -/
def Call.Stamps : Call → Prop
  | .slash .. | .settleAppealGranted _ => True
  | _ => False

/-- All other calls keep what stands. -/
theorem exec_sameStanding {c : Call} (hc : ¬ c.Stamps) (h : exec H tx s c = .ok s') :
    SameStanding s s' := by
  have hsetter : c.IsSetter → SameStanding s s' := by
    intro hset
    rcases setter_cases hset h with ⟨p, e, rfl, -⟩
    exact .of_eq rfl rfl rfl rfl
  cases c with
  | slash _ _ _ _ => exact absurd trivial hc
  | settleAppealGranted _ => exact absurd trivial hc
  | bond amount =>
    rcases bond_cases h with ⟨-, -, -, rfl⟩
    exact .of_eq rfl rfl rfl rfl
  | requestUnbond amount =>
    rcases requestUnbond_cases h with ⟨-, -, -, rfl⟩
    exact .of_eq rfl rfl rfl rfl
  | unbond =>
    rcases unbond_cases h with ⟨-, -, -, rfl⟩
    exact .of_eq rfl rfl rfl rfl
  | finalizeUnappealedSlash slashId =>
    rcases finalizeUnappealedSlash_cases h with ⟨-, -, hstatus, -, -, -, rfl⟩
    exact .of_set (by rw [hstatus]; simp) (by simp) rfl rfl rfl rfl
  | markAppealOpen slashId =>
    rcases markAppealOpen_cases h with ⟨-, -, -, hstatus, -, rfl⟩
    exact .of_set (by rw [hstatus]; simp) (by simp) rfl rfl rfl rfl
  | settleAppealUpheld slashId =>
    rcases settleAppealUpheld_cases h with ⟨-, -, -, hstatus, -, -, rfl⟩
    exact .of_set (by rw [hstatus]; simp) (by simp) rfl rfl rfl rfl
  | declareMbps mbps =>
    rcases declareMbps_cases h with ⟨-, history, -, rfl⟩
    exact .of_eq rfl rfl rfl rfl
  | updateRegion newRegion =>
    rcases updateRegion_cases h with ⟨-, -, -, -, rfl⟩
    exact .of_eq rfl rfl rfl rfl
  | registerNode nodeId multiaddrs regionHint termsHash bindingSignature ed25519Signature =>
    rcases registerNode_cases h with ⟨-, -, -, -, -, -, -, -, -, -, rfl⟩
    exact .of_eq rfl rfl rfl rfl
  | deregisterNode =>
    rcases deregisterNode_cases h with ⟨-, addrs, index, history, events, -, -, -, rfl⟩
    exact .of_eq rfl rfl rfl rfl
  | bindNodeId nodeId bindingSignature ed25519Signature =>
    rcases bindNodeId_cases h with ⟨-, -, -, toAddress, nonces, -, rfl⟩
    exact .of_eq rfl rfl rfl rfl
  | reclaimNodeId nodeId ed25519Signature =>
    rcases reclaimNodeId_cases h with ⟨-, -, -, holder, addrs, index, nodes, events, -, -, rfl⟩
    exact .of_eq rfl rfl rfl rfl
  | updateMultiaddrs multiaddrs =>
    rcases updateMultiaddrs_cases h with rfl
    exact .of_eq rfl rfl rfl rfl
  | creditPauseTime delta =>
    rcases creditPauseTime_cases h with ⟨-, rfl⟩
    exact .of_eq rfl rfl rfl rfl
  | ejectNode operator =>
    rcases ejectNode_cases h with ⟨-, rfl⟩ | ⟨-, nodes, nonces, addrs, index, events, -, -, rfl⟩
    · exact .of_eq rfl rfl rfl rfl
    · exact .of_eq rfl rfl rfl rfl
  | unEjectNode operator =>
    rcases unEjectNode_cases h with rfl | rfl
    · exact .of_eq rfl rfl rfl rfl
    · exact .of_eq rfl rfl rfl rfl
  | pause =>
    rcases pause_cases h with ⟨-, rfl⟩
    exact .of_eq rfl rfl rfl rfl
  | unpause =>
    rcases unpause_cases h with ⟨-, -, rfl⟩
    exact .of_eq rfl rfl rfl rfl
  | _ => exact hsetter trivial

/-! ## The invariant -/

/-- The slash ids of an operator are its records in the order of time, and its watermark is
the largest stamp of those that stand. -/
structure StampInv (now : Nat) (s : State) : Prop where
  now_le : now ≤ u64Max
  ids : ∀ operator, s.operatorSlashIds operator =
    (List.range s.slashCounter).filter fun id => (s.slashRecords id).operator = operator
  ordered : ∀ i j, i ≤ j → j < s.slashCounter →
    (s.slashRecords i).slashedAt ≤ (s.slashRecords j).slashedAt
  past : ∀ id, id < s.slashCounter → (s.slashRecords id).slashedAt ≤ now
  stamp : ∀ operator, s.slashedAtEpoch operator = (standing s operator).sup (epochStamp s)

variable {now now' : Nat}

/-- The scan from the end finds the largest stamp. -/
theorem StampInv.recomputed (hnow : now ≤ u64Max) (operator : Address)
    (hids : s.operatorSlashIds operator =
      (List.range s.slashCounter).filter fun id => (s.slashRecords id).operator = operator)
    (hordered : ∀ i j, i ≤ j → j < s.slashCounter →
      (s.slashRecords i).slashedAt ≤ (s.slashRecords j).slashedAt)
    (hpast : ∀ id, id < s.slashCounter → (s.slashRecords id).slashedAt ≤ now) :
    recomputedStamp s operator = (standing s operator).sup (epochStamp s) := by
  have hmono : ∀ i j, i ≤ j → j < s.slashCounter → epochStamp s i ≤ epochStamp s j :=
    fun i j hij hj => Nat.succ_le_succ (Nat.div_le_div_right (hordered i j hij hj))
  have hnewest := @newest_eq_sup (epochStamp s) (fun id => (s.slashRecords id).operator = operator)
    (fun id => (s.slashRecords id).status ≠ .reversed) _ _ s.slashCounter hmono
  unfold standing
  rw [← hnewest]
  unfold recomputedStamp
  rw [hids]
  cases hfind : (((List.range s.slashCounter).filter fun id =>
      decide ((s.slashRecords id).operator = operator)).reverse.find? fun id =>
        decide ((s.slashRecords id).status ≠ .reversed)) with
  | none => rfl
  | some id =>
    have hmem := List.mem_of_find?_eq_some hfind
    rw [List.mem_reverse, List.mem_filter, List.mem_range] at hmem
    have hle := hpast id hmem.1
    have hdiv : (s.slashRecords id).slashedAt / epochLength ≤ (s.slashRecords id).slashedAt :=
      Nat.div_le_self _ _
    unfold u64Max at hnow
    dsimp only
    unfold epochStamp
    rw [Nat.mod_eq_of_lt (by omega)]

/-- A call that keeps what stands keeps the invariant. -/
theorem StampInv.frame (h : StampInv now s) (hsame : SameStanding s s') (hle : now ≤ now')
    (hnow : now' ≤ u64Max) : StampInv now' s' := by
  refine ⟨hnow, fun operator => ?_, fun i j hij hj => ?_, fun id hid => ?_, fun operator => ?_⟩
  · simp only [hsame.operatorSlashIds, hsame.slashCounter, hsame.operator]
    exact h.ids operator
  · rw [hsame.slashCounter] at hj
    rw [hsame.slashedAt, hsame.slashedAt]
    exact h.ordered i j hij hj
  · rw [hsame.slashCounter] at hid
    rw [hsame.slashedAt]
    exact Nat.le_trans (h.past id hid) hle
  · have hstamps : epochStamp s' = epochStamp s := by
      funext id
      unfold epochStamp
      rw [hsame.slashedAt]
    have hstanding : standing s' operator = standing s operator := by
      unfold standing
      simp only [hsame.slashCounter, hsame.operator, Ne, hsame.status]
    rw [hsame.slashedAtEpoch, hstamps, hstanding]
    exact h.stamp operator

/-- A slash stands as the newest record of its operator. -/
theorem standing_slashed (tx : Tx) (challenger : Address) (r : Reduction) (offenseType : UInt8)
    (evidenceHash : Bytes32) (operator a : Address) (events : List Event)
    (hcounter : (s.slashCounter + 1) % 2 ^ 256 = s.slashCounter + 1) :
    standing (slashedState tx s operator challenger r offenseType evidenceHash
      (tx.timestamp / epochLength + 1) events) a =
      if operator = a then insert s.slashCounter (standing s a) else standing s a := by
  unfold standing slashedState
  dsimp only
  rw [hcounter, Finset.range_add_one, Finset.filter_insert]
  have hold : (range s.slashCounter).filter (fun id =>
      (Function.update s.slashRecords s.slashCounter (mintedRecord tx operator challenger
        r.slashAmount offenseType evidenceHash) id).operator = a ∧
      (Function.update s.slashRecords s.slashCounter (mintedRecord tx operator challenger
        r.slashAmount offenseType evidenceHash) id).status ≠ .reversed) =
      (range s.slashCounter).filter fun id =>
        (s.slashRecords id).operator = a ∧ (s.slashRecords id).status ≠ .reversed := by
    refine Finset.filter_congr fun id hid => ?_
    rw [Function.update_of_ne (Nat.ne_of_lt (mem_range.mp hid))]
  rw [hold]
  refine if_congr ?_ rfl rfl
  simp [mintedRecord]

/-- A slash is the newest record of its operator. -/
theorem StampInv.slash (h : StampInv now s) (hinv : Inv s) (hnow : now ≤ tx.timestamp)
    {operator challenger : Address} {offenseType : UInt8} {evidenceHash : Bytes32}
    (hexec : exec H tx s (.slash operator challenger offenseType evidenceHash) = .ok s') :
    StampInv tx.timestamp s' := by
  rcases exec_slash_cases hexec with ⟨slashId, amount, hslash⟩
  rcases slash_cases hslash with ⟨-, -, -, -, hwidth, -, r, -, -, -, events, tail, ejected, nodes,
    nonces, addrs, index, -, -, -, rfl⟩
  have hcounter := (hinv.counter_succ hwidth).1
  have hne : ∀ id, id < s.slashCounter → id ≠ s.slashCounter := fun id hid => Nat.ne_of_lt hid
  refine ⟨tx.timestamp_le, fun a => ?_, fun i j hij hj => ?_, fun id hid => ?_, fun a => ?_⟩
  · simp only [slashedState]
    rw [hcounter, List.range_succ, List.filter_append]
    have hold : (List.range s.slashCounter).filter (fun id =>
        (Function.update s.slashRecords s.slashCounter (mintedRecord tx operator challenger
          r.slashAmount offenseType evidenceHash) id).operator = a) = s.operatorSlashIds a := by
      rw [h.ids a]
      refine List.filter_congr fun id hid => ?_
      rw [Function.update_of_ne (hne id (List.mem_range.mp hid))]
    have hnew : [s.slashCounter].filter (fun id =>
        (Function.update s.slashRecords s.slashCounter (mintedRecord tx operator challenger
          r.slashAmount offenseType evidenceHash) id).operator = a) =
        if operator = a then [s.slashCounter] else [] := by
      simp [List.filter_cons, mintedRecord]
    refine Eq.trans ?_ (congrArg₂ (· ++ ·) hold hnew).symm
    by_cases ha : operator = a
    · rw [← ha, Function.update_self, if_pos rfl]
    · rw [Function.update_of_ne (Ne.symm ha), if_neg ha, List.append_nil]
  · simp only [slashedState] at hj ⊢
    rw [hcounter] at hj
    by_cases hjnew : j = s.slashCounter
    · rw [hjnew, Function.update_self]
      by_cases hinew : i = s.slashCounter
      · rw [hinew, Function.update_self]
      · rw [Function.update_of_ne hinew]
        exact Nat.le_trans (h.past i (by omega)) hnow
    · rw [Function.update_of_ne hjnew, Function.update_of_ne (by omega)]
      exact h.ordered i j hij (by omega)
  · simp only [slashedState] at hid ⊢
    rw [hcounter] at hid
    by_cases hnew : id = s.slashCounter
    · rw [hnew, Function.update_self]
      exact Nat.le_refl _
    · rw [Function.update_of_ne hnew]
      exact Nat.le_trans (h.past id (by omega)) hnow
  · have hstamps : ∀ id ∈ standing s a, epochStamp (slashedState tx s operator challenger r
        offenseType evidenceHash (tx.timestamp / epochLength + 1) events) id = epochStamp s id := by
      intro id hid
      have hlt := mem_range.mp (mem_filter.mp hid).1
      unfold epochStamp slashedState
      dsimp only
      rw [Function.update_of_ne (hne id hlt)]
    have hold : (standing s a).sup (epochStamp (slashedState tx s operator challenger r
        offenseType evidenceHash (tx.timestamp / epochLength + 1) events)) = s.slashedAtEpoch a :=
      (Finset.sup_congr rfl hstamps).trans (h.stamp a).symm
    have hlatest : s.slashedAtEpoch a ≤ tx.timestamp / epochLength + 1 := by
      rw [h.stamp a]
      refine Finset.sup_le fun id hid => Nat.succ_le_succ (Nat.div_le_div_right ?_)
      exact Nat.le_trans (h.past id (mem_range.mp (mem_filter.mp hid).1)) hnow
    have hstanding := standing_slashed tx challenger r offenseType evidenceHash operator a events
      hcounter
    refine Eq.trans ?_ (congrArg (fun ids => ids.sup (epochStamp (slashedState tx s operator
      challenger r offenseType evidenceHash (tx.timestamp / epochLength + 1) events)))
        hstanding).symm
    simp only [slashedState] at hold ⊢
    rcases eq_or_ne operator a with rfl | ha
    · rw [if_pos rfl, Finset.sup_insert, hold, Function.update_self]
      have hnew : epochStamp (slashedState tx s operator challenger r offenseType evidenceHash
          (tx.timestamp / epochLength + 1) events) s.slashCounter =
          tx.timestamp / epochLength + 1 := by
        unfold epochStamp slashedState
        dsimp only
        rw [Function.update_self]
        rfl
      exact (max_eq_left hlatest).symm.trans
        (congrArg (fun stamp => max stamp (s.slashedAtEpoch operator)) hnew.symm)
    · rw [if_neg ha, Function.update_of_ne (Ne.symm ha), hold]

/-- A granted appeal leaves the stamp of the newest record that still stands. -/
theorem StampInv.granted (h : StampInv now s) (hle : now ≤ now') (hnow : now' ≤ u64Max)
    {slashId : Nat} (hexec : settleAppealGranted tx s slashId = .ok s') : StampInv now' s' := by
  rcases settleAppealGranted_cases hexec with ⟨-, -, -, -, -, -, rfl⟩
  have hoperator : ∀ id, ((s.setSlashStatus slashId .reversed).slashRecords id).operator =
      (s.slashRecords id).operator := by
    intro id
    rcases eq_or_ne id slashId with rfl | hne
    · rw [setSlashStatus_self]
    · rw [setSlashStatus_of_ne s hne]
  have hslashedAt : ∀ id, ((s.setSlashStatus slashId .reversed).slashRecords id).slashedAt =
      (s.slashRecords id).slashedAt := by
    intro id
    rcases eq_or_ne id slashId with rfl | hne
    · rw [setSlashStatus_self]
    · rw [setSlashStatus_of_ne s hne]
  have hids : ∀ operator, s.operatorSlashIds operator = (List.range s.slashCounter).filter
      fun id => ((s.setSlashStatus slashId .reversed).slashRecords id).operator = operator := by
    intro operator
    simp only [hoperator]
    exact h.ids operator
  have hordered : ∀ i j, i ≤ j → j < s.slashCounter →
      ((s.setSlashStatus slashId .reversed).slashRecords i).slashedAt ≤
        ((s.setSlashStatus slashId .reversed).slashRecords j).slashedAt := by
    intro i j hij hj
    rw [hslashedAt, hslashedAt]
    exact h.ordered i j hij hj
  have hpast : ∀ id, id < s.slashCounter →
      ((s.setSlashStatus slashId .reversed).slashRecords id).slashedAt ≤ now := by
    intro id hid
    rw [hslashedAt]
    exact h.past id hid
  refine ⟨hnow, hids, hordered, fun id hid => Nat.le_trans (hpast id hid) hle, fun a => ?_⟩
  dsimp only
  by_cases ha : a = (s.slashRecords slashId).operator
  · rw [ha, Function.update_self]
    exact StampInv.recomputed (s := s.setSlashStatus slashId .reversed) h.now_le _ (hids _) hordered
      hpast
  · -- the records of the other operators are as they were
    rw [Function.update_of_ne ha, h.stamp a]
    have hstanding : standing (s.setSlashStatus slashId .reversed) a = standing s a := by
      refine Finset.filter_congr fun id _ => ?_
      rcases eq_or_ne id slashId with rfl | hne
      · rw [hoperator]
        exact iff_of_false (fun hid => ha hid.1.symm) (fun hid => ha hid.1.symm)
      · rw [setSlashStatus_of_ne s hne]
    refine (Finset.sup_congr hstanding fun id _ => ?_).symm
    exact congrArg (· / epochLength + 1) (hslashedAt id)

/-- Every call keeps the invariant. -/
theorem StampInv.exec (h : StampInv now s) (hinv : Inv s) (hnow : now ≤ tx.timestamp) {c : Call}
    (hexec : exec H tx s c = .ok s') : StampInv tx.timestamp s' := by
  cases c with
  | slash operator challenger offenseType evidenceHash => exact h.slash hinv hnow hexec
  | settleAppealGranted slashId => exact h.granted hnow tx.timestamp_le hexec
  | _ => exact h.frame (exec_sameStanding id hexec) hnow tx.timestamp_le

/-- The invariant of every reachable state. -/
theorem Reachable.stampInv {w : World} (h : Reachable H w) : StampInv w.now w.contract := by
  induction h with
  | deployed tx minBond unbondingPeriod cooldown size window terms hdeploy =>
    rcases deploy_cases hdeploy with ⟨-, -, -, -, -, -, rfl⟩
    exact ⟨tx.timestamp_le, fun _ => rfl, fun _ _ _ hj => absurd hj (Nat.not_lt_zero _),
      fun _ hid => absurd hid (Nat.not_lt_zero _), fun _ => rfl⟩
  | step hreach hstep ih =>
    cases hstep with
    | call tx c hnow hexec => exact ih.exec hreach.inv hnow hexec
    | donation amount => exact ih.frame (.of_eq rfl rfl rfl rfl) (Nat.le_refl _) ih.now_le

/-- In every reachable state the watermark of an operator is the largest epoch, plus one, of its
slashes that stand, and nothing when none does. -/
theorem slashed_at_epoch_standing {w : World} (h : Reachable H w) (operator : Address) :
    w.contract.slashedAtEpoch operator =
      (standing w.contract operator).sup fun id =>
        (w.contract.slashRecords id).slashedAt / epochLength + 1 :=
  h.stampInv.stamp operator

/-- An operator is slashed in two epochs, and its appeal reverses the newer slash. -/
def sampleReversal : List (Tx × Call) :=
  [(sampleTx 1 10, .bond 20000000000000000000000),
    (sampleTx 2 604800, .slash 1 3 0 7),
    (sampleTx 2 1209600, .slash 1 3 0 8),
    (sampleTx 5 1209700, .markAppealOpen 1),
    (sampleTx 5 1209800, .settleAppealGranted 1)]

theorem slashed_at_epoch_standing_sample :
    ∃ w, Reachable sampleWiring w ∧ w.contract.slashedAtEpoch 1 = 2 ∧
      ((standing w.contract 1).sup fun id =>
        (w.contract.slashRecords id).slashedAt / epochLength + 1) = 2 := by
  have hrun : (runCalls sampleWiring sampleDeployed sampleReversal).map
      (fun w => w.contract.slashedAtEpoch 1) = some 2 := by
    decide +kernel
  rcases Option.map_eq_some_iff.mp hrun with ⟨w, hw, hstamp⟩
  have hreach := (sampleDeployed_reachable sampleWiring).of_runCalls hw
  exact ⟨w, hreach, hstamp, (slashed_at_epoch_standing hreach 1).symm.trans hstamp⟩

end Decdn.CapacityBond
