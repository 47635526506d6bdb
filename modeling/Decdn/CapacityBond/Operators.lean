import Decdn.CapacityBond.Solvency

/-!
# The books of one operator

What one call does to the bond of one operator: it may add to the active bond, move
some of it into the unbonding queue, pay the queue out, or slash the two.

Main results:

- Theorem `exec_move`: every call makes one of these moves.
-/

namespace Decdn.CapacityBond

open Finset

variable {H : Wiring} {tx : Tx} {s s' : State} {operator : Address}

/-- What a slash record took from the operator. -/
def SlashRecord.takenFrom (r : SlashRecord) (operator : Address) : Nat :=
  if r.operator = operator then r.slashAmount else 0

/-- What the operator's slash records took from it. -/
def slashedOf (s : State) (operator : Address) : Nat :=
  ∑ id ∈ range s.slashCounter, (s.slashRecords id).takenFrom operator

/-- What an event says the operator withdrew. -/
def Event.withdrawal (operator : Address) : Event → Nat
  | .unbonded a amount => if a = operator then amount else 0
  | _ => 0

/-- What the operator has withdrawn so far. -/
def withdrawnOf (s : State) (operator : Address) : Nat :=
  (s.log.map (Event.withdrawal operator)).sum

/-- The moves of one operator's bond. -/
inductive Move (tx : Tx) (c : Call) (s s' : State) (operator : Address) : Prop where
  | kept (hactive : s.activeBond operator ≤ s'.activeBond operator)
      (hqueue : s'.unbondingOf operator = s.unbondingOf operator)
      (hslashed : slashedOf s' operator = slashedOf s operator)
      (hwithdrawn : withdrawnOf s' operator = withdrawnOf s operator)
  | requested (amount : Nat) (hcall : c = .requestUnbond amount) (hsender : tx.sender = operator)
      (hidle : (s.unbondingOf operator).amount = 0)
      (hactive : s'.activeBond operator + amount = s.activeBond operator)
      (hqueue : s'.unbondingOf operator = ⟨amount, tx.timestamp + s.params.unbondingPeriod⟩)
      (hslashed : slashedOf s' operator = slashedOf s operator)
      (hwithdrawn : withdrawnOf s' operator = withdrawnOf s operator)
  | withdrew (hunlocked : (s.unbondingOf operator).unlockAt ≤ tx.timestamp)
      (hactive : s'.activeBond operator = s.activeBond operator)
      (hqueue : s'.unbondingOf operator = {})
      (hslashed : slashedOf s' operator = slashedOf s operator)
      (hwithdrawn : withdrawnOf s' operator =
        withdrawnOf s operator + (s.unbondingOf operator).amount)
  | slashed (amount : Nat)
      (htaken : s'.activeBond operator + (s'.unbondingOf operator).amount + amount =
        s.activeBond operator + (s.unbondingOf operator).amount)
      (hqueue : (s'.unbondingOf operator).amount ≤ (s.unbondingOf operator).amount)
      (hunlock : (s'.unbondingOf operator).unlockAt = (s.unbondingOf operator).unlockAt)
      (hslashed : slashedOf s' operator = slashedOf s operator + amount)
      (hwithdrawn : withdrawnOf s' operator = withdrawnOf s operator)

/-- An event that is no withdrawal of the operator. -/
theorem withdrawal_of_quiet {e : Event} (h : e.Quiet) : e.withdrawal operator = 0 := by
  cases e <;> first | rfl | exact absurd h id

theorem withdrawnOf_append {events : List Event} (hlog : s'.log = s.log ++ events)
    (h : ∀ e ∈ events, e.withdrawal operator = 0) :
    withdrawnOf s' operator = withdrawnOf s operator := by
  have hzero : (events.map (Event.withdrawal operator)).sum = 0 := by
    rw [List.sum_eq_zero_iff]
    intro n hn
    rcases List.mem_map.1 hn with ⟨e, he, rfl⟩
    exact h e he
  unfold withdrawnOf
  rw [hlog, List.map_append, List.sum_append, hzero, Nat.add_zero]

/-- The slashed amount depends on the operators and the amounts of the records only. -/
theorem slashedOf_congr (hcounter : s'.slashCounter = s.slashCounter)
    (hrecords : ∀ id, (s'.slashRecords id).operator = (s.slashRecords id).operator ∧
      (s'.slashRecords id).slashAmount = (s.slashRecords id).slashAmount) :
    slashedOf s' operator = slashedOf s operator := by
  unfold slashedOf
  rw [hcounter]
  apply sum_congr rfl
  intro id _
  unfold SlashRecord.takenFrom
  rw [(hrecords id).1, (hrecords id).2]

/-- A new record adds what it took. -/
theorem slashedOf_minted {r : SlashRecord} (hcounter : s'.slashCounter = s.slashCounter + 1)
    (hrecords : s'.slashRecords = Function.update s.slashRecords s.slashCounter r) :
    slashedOf s' operator = slashedOf s operator + r.takenFrom operator := by
  unfold slashedOf
  rw [hcounter, hrecords, sum_range_succ, Function.update_self]
  congr 1
  apply sum_congr rfl
  intro id hid
  rw [Function.update_of_ne (Nat.ne_of_lt (mem_range.1 hid))]

theorem takenFrom_minted (target challenger : Address) (amount : Nat) (offenseType : UInt8)
    (evidenceHash : Bytes32) :
    (mintedRecord tx target challenger amount offenseType evidenceHash).takenFrom operator =
      if target = operator then amount else 0 :=
  rfl

/-- A change of one record's status keeps its operator and its amount. -/
theorem setSlashStatus_keeps (s : State) (slashId : Nat) (status : SlashStatus) (id : Nat) :
    ((s.setSlashStatus slashId status).slashRecords id).operator = (s.slashRecords id).operator ∧
      ((s.setSlashStatus slashId status).slashRecords id).slashAmount =
        (s.slashRecords id).slashAmount := by
  rcases eq_or_ne id slashId with rfl | hne
  · rw [setSlashStatus_self]
    exact ⟨rfl, rfl⟩
  · rw [setSlashStatus_of_ne s hne]
    exact ⟨rfl, rfl⟩

/-- A call that changes one record's status moves no bond. -/
theorem Move.of_status {c : Call} {slashId : Nat} {status : SlashStatus} {events : List Event}
    (hrecords : s'.slashRecords = (s.setSlashStatus slashId status).slashRecords)
    (hcounter : s'.slashCounter = s.slashCounter) (hactive : s'.activeBond = s.activeBond)
    (hqueue : s'.unbondingOf = s.unbondingOf) (hlog : s'.log = s.log ++ events)
    (h : ∀ e ∈ events, e.withdrawal operator = 0) : Move tx c s s' operator := by
  apply Move.kept
  · rw [hactive]
  · rw [hqueue]
  · apply slashedOf_congr hcounter
    intro id
    rw [hrecords]
    exact setSlashStatus_keeps s slashId status id
  · exact withdrawnOf_append hlog h

theorem Move.of_sameBooks {c : Call} (h : SameBooks s s') : Move tx c s s' operator := by
  rcases h.log with ⟨events, hquiet, hlog⟩
  apply Move.kept
  · rw [h.activeBond]
  · rw [h.unbondingOf]
  · apply slashedOf_congr h.slashCounter
    intro id
    rw [h.slashRecords]
    exact ⟨rfl, rfl⟩
  · exact withdrawnOf_append hlog fun e he => withdrawal_of_quiet (hquiet e he)

theorem bond_move {amount : Nat} (h : bond tx s amount = .ok s') :
    Move tx (.bond amount) s s' operator := by
  rcases bond_cases h with ⟨-, -, -, rfl⟩
  refine .kept ?_ rfl rfl ?_
  · dsimp only
    rcases eq_or_ne operator tx.sender with rfl | hne
    · rw [Function.update_self]
      omega
    · rw [Function.update_of_ne hne]
  · refine withdrawnOf_append (List.append_assoc _ _ _) ?_
    split <;> simp [Event.withdrawal]

theorem requestUnbond_move {amount : Nat} (h : requestUnbond H tx s amount = .ok s') :
    Move tx (.requestUnbond amount) s s' operator := by
  rcases requestUnbond_cases h with ⟨hle, hidle, -, rfl⟩
  have hlog : ∀ e ∈ [Event.unbondingRequested tx.sender amount
      (tx.timestamp + s.params.unbondingPeriod) (s.activeBond tx.sender - amount)],
      e.withdrawal operator = 0 := by
    simp [Event.withdrawal]
  rcases eq_or_ne tx.sender operator with rfl | hne
  · refine .requested amount rfl rfl hidle ?_ ?_ rfl (withdrawnOf_append rfl hlog)
    · simp only [Function.update_self]
      omega
    · simp only [Function.update_self]
  · refine .kept ?_ ?_ rfl (withdrawnOf_append rfl hlog)
    · simp only [Function.update_of_ne hne.symm, le_refl]
    · simp only [Function.update_of_ne hne.symm]

theorem unbond_move (h : unbond tx s = .ok s') : Move tx .unbond s s' operator := by
  rcases unbond_cases h with ⟨-, hunlocked, -, rfl⟩
  rcases eq_or_ne tx.sender operator with rfl | hne
  · refine .withdrew hunlocked rfl ?_ rfl ?_
    · simp only [Function.update_self]
    · simp [withdrawnOf, Event.withdrawal]
  · refine .kept (Nat.le_refl _) ?_ rfl ?_
    · simp only [Function.update_of_ne hne.symm]
    · exact withdrawnOf_append rfl (by simp [Event.withdrawal, hne])

theorem slash_move (hinv : Inv s) {target challenger : Address} {offenseType : UInt8}
    {evidenceHash : Bytes32} {slashId amount : Nat}
    (h : slash tx s target challenger offenseType evidenceHash = .ok (s', slashId, amount)) :
    Move tx (.slash target challenger offenseType evidenceHash) s s' operator := by
  rcases slash_cases h with ⟨-, -, -, -, hwidth, -, r, hr, -, -, events, tail, ejected, nodes,
    nonces, addrs, index, hquiet, htail, -, rfl⟩
  rcases reduceAtTier_cases hr with ⟨htotal, hactive, hunbonding, -⟩
  rcases hinv.counter_succ hwidth with ⟨hwrap, -, -⟩
  have hlog : ∀ e ∈ events ++ tail, e.withdrawal operator = 0 := by
    intro e he
    rcases List.mem_append.1 he with he | he
    · exact withdrawal_of_quiet (hquiet e he)
    · exact withdrawal_of_quiet (htail e he)
  rcases eq_or_ne target operator with rfl | hne
  · refine .slashed r.slashAmount ?_ ?_ ?_ ?_ (withdrawnOf_append (List.append_assoc _ _ _) hlog)
    · simp only [slashedState, Function.update_self]
      exact htotal
    · simp only [slashedState, Function.update_self]
      exact hunbonding
    · simp only [slashedState, Function.update_self]
    · rw [slashedOf_minted hwrap rfl, takenFrom_minted, if_pos rfl]
  · refine .kept ?_ ?_ ?_ (withdrawnOf_append (List.append_assoc _ _ _) hlog)
    · simp only [slashedState, Function.update_of_ne hne.symm, le_refl]
    · simp only [slashedState, Function.update_of_ne hne.symm]
    · rw [slashedOf_minted hwrap rfl, takenFrom_minted, if_neg hne, Nat.add_zero]

/-- Every call makes one of the moves for every operator. -/
theorem exec_move (hinv : Inv s) {c : Call} (h : exec H tx s c = .ok s') :
    Move tx c s s' operator := by
  cases c with
  | bond amount => exact bond_move h
  | requestUnbond amount => exact requestUnbond_move h
  | unbond => exact unbond_move h
  | slash target challenger offenseType evidenceHash =>
    rcases exec_slash_cases h with ⟨slashId, amount, hslash⟩
    exact slash_move hinv hslash
  | finalizeUnappealedSlash slashId =>
    rcases finalizeUnappealedSlash_cases h with ⟨-, -, -, -, -, -, rfl⟩
    exact .of_status rfl rfl rfl rfl rfl (by simp [Event.withdrawal])
  | markAppealOpen slashId =>
    rcases markAppealOpen_cases h with ⟨-, -, -, -, -, rfl⟩
    exact .of_status rfl rfl rfl rfl rfl (by simp [Event.withdrawal])
  | settleAppealUpheld slashId =>
    rcases settleAppealUpheld_cases h with ⟨-, -, -, -, -, -, rfl⟩
    exact .of_status rfl rfl rfl rfl rfl (by simp [Event.withdrawal])
  | settleAppealGranted slashId =>
    rcases settleAppealGranted_cases h with ⟨-, -, -, -, -, -, rfl⟩
    exact .of_status rfl rfl rfl rfl rfl (by simp [Event.withdrawal])
  | _ => exact .of_sameBooks (exec_sameBooks id h)

end Decdn.CapacityBond
