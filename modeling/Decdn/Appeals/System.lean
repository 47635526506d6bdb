import Decdn.Appeals.Contract
import Decdn.CapacityBond.Solvency

/-!
# Appeals and escrow together

CapacityBond keeps the escrow of a slash and SlashAppeal its appeal.  The role that opens and
settles appeals on CapacityBond is held by SlashAppeal alone, so the two agree on every slash
in whatever order the calls of both contracts run.

Main definitions:

- Inductive type `Step`: one transaction to either contract.
- Structure `Inv`: how the two storages fit together.

Main results:

- Theorem `outsider_records`: what a call of anybody else does to a slash record.
- Theorem `Reachable.inv`: the invariant of every reachable world.
-/

namespace Decdn.SlashAppeal

open CapacityBond (SlashRecord SlashStatus)
open Finset

/-! ## Runs -/

/-- The storage of both contracts and the chain's clock. -/
structure World where
  now : Nat
  bond : CapacityBond.State
  appeal : State

/-- One successful transaction.  Who calls CapacityBond directly does not hold
`SLASH_APPEAL_ROLE`, and anybody may send TOKEN to either contract. -/
inductive Step (H : CapacityBond.Wiring) : World → World → Prop where
  | bond {w : World} {b : CapacityBond.State} (tx : CapacityBond.Tx) (c : CapacityBond.Call)
      (hnow : w.now ≤ tx.timestamp) (hrole : tx.hasRole .slashAppeal tx.sender = false)
      (hexec : CapacityBond.exec H tx w.bond c = .ok b) :
      Step H w { w with now := tx.timestamp, bond := b }
  | appeal {w : World} {s : State} {b : CapacityBond.State} (tx : Tx) (c : Call)
      (hnow : w.now ≤ tx.timestamp) (hexec : exec tx w.bond w.appeal c = .ok (s, b)) :
      Step H w ⟨tx.timestamp, b, s⟩
  | bondDonation {w : World} (amount : Nat) :
      Step H w { w with bond := { w.bond with tokenBalance := w.bond.tokenBalance + amount } }
  | donation {w : World} (amount : Nat) :
      Step H w { w with appeal := { w.appeal with tokenBalance := w.appeal.tokenBalance + amount } }

/-- The worlds that a deployment of both contracts can reach. -/
inductive Reachable (H : CapacityBond.Wiring) : World → Prop where
  | deployed {b : CapacityBond.State} {s : State} (bondTx : CapacityBond.Tx) (tx : Tx)
      (minBond unbondingPeriod multiaddrUpdateCooldown maxMultiaddrSize
        regionStabilityWindow : Nat) (currentTermsHash : Bytes32)
      (token capacityBond admin : Address) (appealBond : Nat)
      (hnow : bondTx.timestamp ≤ tx.timestamp)
      (hbond : CapacityBond.deploy bondTx minBond unbondingPeriod multiaddrUpdateCooldown
        maxMultiaddrSize regionStabilityWindow currentTermsHash = .ok b)
      (happeal : deploy tx token capacityBond admin appealBond = .ok s) :
      Reachable H ⟨tx.timestamp, b, s⟩
  | step {w w' : World} (h : Reachable H w) (hstep : Step H w w') : Reachable H w'

variable {H : CapacityBond.Wiring} {w w' : World}

/-- Time does not run back. -/
theorem Step.now_le (h : Step H w w') : w.now ≤ w'.now := by
  cases h with
  | bond tx c hnow hrole hexec => exact hnow
  | appeal tx c hnow hexec => exact hnow
  | bondDonation amount => exact le_rfl
  | donation amount => exact le_rfl

/-! ## What others do to CapacityBond -/

section Outsiders

variable {tx : CapacityBond.Tx} {b b' : CapacityBond.State} {c : CapacityBond.Call}

/-- The escrow of a record can be split by the challenger's share without overflow. -/
def Divisible (r : SlashRecord) : Prop :=
  r.slashAmount * CapacityBond.challengerBps ≤ u256Max

theorem divisible_of_reduceAtTier {active unbonding count : Nat} {r : CapacityBond.Reduction}
    (h : CapacityBond.reduceAtTier active unbonding (CapacityBond.tierBps count) = .ok r) :
    r.slashAmount * CapacityBond.challengerBps ≤ u256Max := by
  have htier : CapacityBond.tierBps count ≤ 5000 := by
    unfold CapacityBond.tierBps CapacityBond.slashBpsTier1 CapacityBond.slashBpsTier2
      CapacityBond.slashBpsTier3
    split
    · omega
    · split <;> omega
  unfold CapacityBond.reduceAtTier at h
  simp only [bind_eq_ok, CapacityBond.checkedAdd_eq_ok, CapacityBond.checkedMul_eq_ok] at h
  rcases h with ⟨_, ⟨-, rfl⟩, _, ⟨hmul, rfl⟩, h⟩
  have hhalf : (active + unbonding) * CapacityBond.tierBps count / bpsDenominator *
      CapacityBond.challengerBps ≤ (active + unbonding) * CapacityBond.tierBps count := by
    unfold bpsDenominator CapacityBond.challengerBps
    omega
  generalize htaken : (active + unbonding) * CapacityBond.tierBps count = taken at *
  split at h
  · rcases pure_eq_ok.mp h with rfl
    exact hhalf.trans hmul
  · rename_i hover
    split at h
    · rename_i hclip
      rcases pure_eq_ok.mp h with rfl
      dsimp only
      unfold bpsDenominator at hclip hover
      unfold CapacityBond.challengerBps
      have hle : (active + unbonding) * 5000 ≤ taken := by omega
      exact hle.trans hmul
    · rcases pure_eq_ok.mp h with rfl
      exact hhalf.trans hmul

/-- A record the slash of this call minted. -/
structure Minted (tx : CapacityBond.Tx) (b b' : CapacityBond.State) (slashId : Nat) : Prop where
  id_eq : slashId = b.slashCounter
  fresh : b.slashRecords slashId = {}
  counter : b'.slashCounter = b.slashCounter + 1
  escrowed : (b'.slashRecords slashId).status = .escrowed
  divisible : Divisible (b'.slashRecords slashId)
  slashedAt : (b'.slashRecords slashId).slashedAt = tx.timestamp
  window : (b'.slashRecords slashId).appealWindowClose =
    tx.timestamp + CapacityBond.appealFilingWindow

/-- What a call of anybody but the appeal contract does to one slash record: nothing, or the
record is distributed without an appeal after its filing window, or it is minted. -/
theorem outsider_records (hinv : CapacityBond.Inv b)
    (hrole : tx.hasRole .slashAppeal tx.sender = false)
    (h : CapacityBond.exec H tx b c = .ok b') (slashId : Nat) :
    b'.slashRecords slashId = b.slashRecords slashId ∨
    ((b.slashRecords slashId).status = .escrowed ∧ b.paused = false ∧
      (b.slashRecords slashId).appealWindowClose + b.pausedTotal < tx.timestamp ∧
      b'.slashRecords slashId = { b.slashRecords slashId with status := .upheld }) ∨
    Minted tx b b' slashId := by
  cases c with
  | bond amount =>
    rcases CapacityBond.bond_cases h with ⟨-, -, -, rfl⟩
    exact .inl rfl
  | requestUnbond amount =>
    rcases CapacityBond.requestUnbond_cases h with ⟨-, -, -, rfl⟩
    exact .inl rfl
  | unbond =>
    rcases CapacityBond.unbond_cases h with ⟨-, -, -, rfl⟩
    exact .inl rfl
  | slash operator challenger offenseType evidenceHash =>
    rcases CapacityBond.exec_slash_cases h with ⟨minted, amount, hslash⟩
    rcases CapacityBond.slash_cases hslash with ⟨-, -, -, -, hwidth, -, r, hr, -, -, events, tail,
      ejected, nodes, nonces, addrs, index, -, -, -, rfl⟩
    rcases eq_or_ne slashId b.slashCounter with rfl | hne
    · refine .inr (.inr ⟨rfl, hinv.fresh _ (Nat.le_refl _), (hinv.counter_succ hwidth).1, ?_, ?_,
        ?_, ?_⟩) <;>
        simp only [CapacityBond.slashedState, Function.update_self, CapacityBond.mintedRecord]
      exact divisible_of_reduceAtTier hr
    · exact .inl (Function.update_of_ne hne ..)
  | finalizeUnappealedSlash finalized =>
    rcases CapacityBond.finalizeUnappealedSlash_cases h with ⟨hlive, -, hstatus, hlate, -, -, rfl⟩
    rcases eq_or_ne slashId finalized with rfl | hne
    · exact .inr (.inl ⟨hstatus, hlive, hlate, CapacityBond.setSlashStatus_self b slashId .upheld⟩)
    · exact .inl (CapacityBond.setSlashStatus_of_ne b hne .upheld)
  | markAppealOpen slashId =>
    rw [(CapacityBond.markAppealOpen_cases h).2.1] at hrole
    cases hrole
  | settleAppealUpheld slashId =>
    rw [(CapacityBond.settleAppealUpheld_cases h).2.1] at hrole
    cases hrole
  | settleAppealGranted slashId =>
    rw [(CapacityBond.settleAppealGranted_cases h).2.1] at hrole
    cases hrole
  | _ => exact .inl (congrFun (CapacityBond.exec_sameBooks id h).slashRecords slashId)

/-- Slash ids are handed out upwards. -/
theorem exec_counter_le (hinv : CapacityBond.Inv b) (h : CapacityBond.exec H tx b c = .ok b') :
    b.slashCounter ≤ b'.slashCounter := by
  cases c with
  | bond amount =>
    rcases CapacityBond.bond_cases h with ⟨-, -, -, rfl⟩
    exact le_rfl
  | requestUnbond amount =>
    rcases CapacityBond.requestUnbond_cases h with ⟨-, -, -, rfl⟩
    exact le_rfl
  | unbond =>
    rcases CapacityBond.unbond_cases h with ⟨-, -, -, rfl⟩
    exact le_rfl
  | slash operator challenger offenseType evidenceHash =>
    rcases CapacityBond.exec_slash_cases h with ⟨slashId, amount, hslash⟩
    rcases CapacityBond.slash_cases hslash with ⟨-, -, -, -, hwidth, -, r, -, -, -, events, tail,
      ejected, nodes, nonces, addrs, index, -, -, -, rfl⟩
    exact (Nat.le_succ _).trans (hinv.counter_succ hwidth).1.ge
  | finalizeUnappealedSlash slashId =>
    rcases CapacityBond.finalizeUnappealedSlash_cases h with ⟨-, -, -, -, -, -, rfl⟩
    exact le_rfl
  | markAppealOpen slashId =>
    rcases CapacityBond.markAppealOpen_cases h with ⟨-, -, -, -, -, rfl⟩
    exact le_rfl
  | settleAppealUpheld slashId =>
    rcases CapacityBond.settleAppealUpheld_cases h with ⟨-, -, -, -, -, -, rfl⟩
    exact le_rfl
  | settleAppealGranted slashId =>
    rcases CapacityBond.settleAppealGranted_cases h with ⟨-, -, -, -, -, -, rfl⟩
    exact le_rfl
  | _ => exact (CapacityBond.exec_sameBooks id h).slashCounter.ge

end Outsiders

/-! ## How the two storages fit together -/

/-- The appeal waits for a decision. -/
def Appeal.Pending (a : Appeal) : Prop := a.status = .opened ∨ a.status = .fastTracked

instance (a : Appeal) : Decidable a.Pending := inferInstanceAs (Decidable (_ ∨ _))

/-- The slash has neither an appeal nor the outcome of one. -/
def Unappealed (status : SlashStatus) : Prop := status ≠ .appealOpen ∧ status ≠ .reversed

/-- An appeal agrees with the slash it is about. -/
inductive Agrees (a : Appeal) (r : SlashRecord) : Prop where
  | none (happeal : a = {}) (hrecord : Unappealed r.status)
  | pending (hstatus : a.Pending) (hrecord : r.status = .appealOpen)
      (hoperator : a.operator = r.operator) (happellant : a.appellant = r.operator)
      (hfloor : appealBondFloor ≤ a.bond) (hceiling : a.bond ≤ appealBondCeiling)
  | resolved (hstatus : a.status = .resolved) (hrecord : r.status = .upheld ∨ r.status = .reversed)
      (hoperator : a.operator = r.operator) (happellant : a.appellant = r.operator)
      (hbond : a.bond = 0)

/-- The invariant of both contracts. -/
structure Inv (w : World) : Prop where
  bond : CapacityBond.Inv w.bond
  divisible : ∀ id, Divisible (w.bond.slashRecords id)
  floor : appealBondFloor ≤ w.appeal.appealBond
  ceiling : w.appeal.appealBond ≤ appealBondCeiling
  agrees : ∀ id, Agrees (w.appeal.appeals id) (w.bond.slashRecords id)
  pending : ∀ operator, w.appeal.hasOpenAppeal operator = true ↔
    ∃ id, (w.appeal.appeals id).Pending ∧ (w.appeal.appeals id).operator = operator
  single : ∀ id id', (w.appeal.appeals id).Pending → (w.appeal.appeals id').Pending →
    (w.appeal.appeals id).operator = (w.appeal.appeals id').operator → id = id'
  custody : ∑ id ∈ range w.bond.slashCounter, (w.appeal.appeals id).bond ≤ w.appeal.tokenBalance
  openedAt : ∀ id, (w.appeal.appeals id).openedAt ≤ w.now
  fastTrackedAt : ∀ id, (w.appeal.appeals id).fastTrackedAt ≤ w.now
  accepted : ∀ operator, w.appeal.lastAcceptedAppealAt operator ≤ w.now
  rested : ∀ id, (w.appeal.appeals id).Pending →
    Rested w.appeal (w.appeal.appeals id).operator (w.appeal.appeals id).openedAt

/-- The id of a slash with an appeal was handed out. -/
theorem Inv.lt_counter (hinv : Inv w) {id : Nat} (h : (w.appeal.appeals id).status ≠ .none) :
    id < w.bond.slashCounter := by
  by_contra hge
  have hfresh := hinv.bond.fresh id (not_lt.mp hge)
  rcases hinv.agrees id with ⟨hnone, -⟩ | ⟨-, hrecord, -, -, -, -⟩ | ⟨-, hrecord, -, -, -⟩
  · exact h (by rw [hnone])
  · rw [hfresh] at hrecord
    cases hrecord
  · rw [hfresh] at hrecord
    rcases hrecord with hrecord | hrecord <;> cases hrecord

/-- A call of anybody else changes no record that has an appeal. -/
theorem Agrees.outsider {tx : CapacityBond.Tx} {b b' : CapacityBond.State} {a : Appeal} {id : Nat}
    (h : Agrees a (b.slashRecords id))
    (hmove : b'.slashRecords id = b.slashRecords id ∨
      ((b.slashRecords id).status = .escrowed ∧ b.paused = false ∧
        (b.slashRecords id).appealWindowClose + b.pausedTotal < tx.timestamp ∧
        b'.slashRecords id = { b.slashRecords id with status := .upheld }) ∨
      Minted tx b b' id) : Agrees a (b'.slashRecords id) := by
  rcases hmove with hsame | ⟨hescrowed, -, -, hset⟩ | hminted
  · rwa [hsame]
  · rcases h with ⟨happeal, -⟩ | ⟨-, hrecord, -, -, -, -⟩ | ⟨-, hrecord, -, -, -⟩
    · exact .none happeal (by rw [hset]; exact ⟨by simp, by simp⟩)
    · rw [hescrowed] at hrecord
      cases hrecord
    · rw [hescrowed] at hrecord
      rcases hrecord with hrecord | hrecord <;> cases hrecord
  · rcases h with ⟨happeal, -⟩ | ⟨-, hrecord, -, -, -, -⟩ | ⟨-, hrecord, -, -, -⟩
    · exact .none happeal (by rw [hminted.escrowed]; exact ⟨by simp, by simp⟩)
    · rw [hminted.fresh] at hrecord
      cases hrecord
    · rw [hminted.fresh] at hrecord
      rcases hrecord with hrecord | hrecord <;> cases hrecord

/-- A direct call on CapacityBond keeps the invariant. -/
theorem Inv.outsider (hinv : Inv w) {tx : CapacityBond.Tx} {c : CapacityBond.Call}
    {b : CapacityBond.State} (hnow : w.now ≤ tx.timestamp)
    (hrole : tx.hasRole .slashAppeal tx.sender = false)
    (hexec : CapacityBond.exec H tx w.bond c = .ok b) :
    Inv { w with now := tx.timestamp, bond := b } := by
  have hmove := outsider_records hinv.bond hrole hexec
  refine ⟨hinv.bond.exec hexec, fun id => ?_, hinv.floor, hinv.ceiling,
    fun id => (hinv.agrees id).outsider (hmove id), hinv.pending, hinv.single, ?_,
    fun id => (hinv.openedAt id).trans hnow, fun id => (hinv.fastTrackedAt id).trans hnow,
    fun operator => (hinv.accepted operator).trans hnow, hinv.rested⟩
  · change Divisible (b.slashRecords id)
    rcases hmove id with hsame | ⟨-, -, -, hset⟩ | hminted
    · rw [hsame]
      exact hinv.divisible id
    · rw [hset]
      exact hinv.divisible id
    · exact hminted.divisible
  · -- Slashes that were minted since have no appeal, so they add no bond.
    have hzero : ∀ id ∈ range b.slashCounter, id ∉ range w.bond.slashCounter →
        (w.appeal.appeals id).bond = 0 := by
      intro id _ hid
      rcases hinv.agrees id with ⟨hnone, -⟩ | ⟨hpending, -, -, -, -, -⟩ | ⟨-, -, -, -, hbond⟩
      · rw [hnone]
      · refine absurd (mem_range.mpr (hinv.lt_counter ?_)) hid
        rcases hpending with hstatus | hstatus <;> simp [hstatus]
      · exact hbond
    have hsub : range w.bond.slashCounter ⊆ range b.slashCounter :=
      range_subset_range.mpr (exec_counter_le hinv.bond hexec)
    change ∑ id ∈ range b.slashCounter, (w.appeal.appeals id).bond ≤ w.appeal.tokenBalance
    rw [← sum_subset hsub hzero]
    exact hinv.custody

/-! ## Calls of the appeal contract -/

theorem Appeal.Pending.filed {a : Appeal} (h : a.Pending) : a.status ≠ .none := by
  rcases h with h | h <;> simp [h]

theorem not_pending_of_resolved {a : Appeal} (h : a.status = .resolved) : ¬ a.Pending := by
  rintro (hstatus | hstatus) <;> rw [h] at hstatus <;> cases hstatus

/-- A pending appeal is of the operator of its slash. -/
theorem Agrees.operator_eq {a : Appeal} {r : SlashRecord} (h : Agrees a r) (hpending : a.Pending) :
    r.status = .appealOpen ∧ a.operator = r.operator ∧ a.appellant = r.operator ∧
      appealBondFloor ≤ a.bond ∧ a.bond ≤ appealBondCeiling := by
  rcases h with ⟨rfl, -⟩ | ⟨-, hrecord, hoperator, happellant, hfloor, hceiling⟩ |
    ⟨hstatus, -, -, -, -⟩
  · rcases hpending with hstatus | hstatus <;> cases hstatus
  · exact ⟨hrecord, hoperator, happellant, hfloor, hceiling⟩
  · exact absurd hpending (not_pending_of_resolved hstatus)

/-- An appeal that was filed is of the operator of its slash, also when it is resolved. -/
theorem Agrees.owner {a : Appeal} {r : SlashRecord} (h : Agrees a r) (hfiled : a.status ≠ .none) :
    a.operator = r.operator ∧ a.appellant = r.operator := by
  rcases h with ⟨rfl, -⟩ | ⟨-, -, hoperator, happellant, -, -⟩ | ⟨-, -, hoperator, happellant, -⟩
  · exact absurd rfl hfiled
  · exact ⟨hoperator, happellant⟩
  · exact ⟨hoperator, happellant⟩

/-- A slash without an appeal. -/
theorem Agrees.eq_of_none {a : Appeal} {r : SlashRecord} (h : Agrees a r)
    (hnone : a.status = .none) : a = {} := by
  rcases h with ⟨rfl, -⟩ | ⟨hpending, -, -, -, -, -⟩ | ⟨hstatus, -, -, -, -⟩
  · rfl
  · rcases hpending with hstatus | hstatus <;> rw [hnone] at hstatus <;> cases hstatus
  · rw [hnone] at hstatus
    cases hstatus

/-- The operators that are marked are those of the pending appeals, one appeal each. -/
structure Marks (pending : Nat → Prop) (operator : Nat → Address) (marked : Address → Bool) :
    Prop where
  marked_iff : ∀ account, marked account = true ↔ ∃ id, pending id ∧ operator id = account
  single : ∀ id id', pending id → pending id' → operator id = operator id' → id = id'

theorem Inv.marks (hinv : Inv w) : Marks (fun id => (w.appeal.appeals id).Pending)
    (fun id => (w.appeal.appeals id).operator) w.appeal.hasOpenAppeal :=
  ⟨hinv.pending, hinv.single⟩

section Marking

variable {pending pending' : Nat → Prop} {operator operator' : Nat → Address}
  {marked : Address → Bool} {slashId : Nat}

/-- One more pending appeal, of an operator that had none. -/
theorem Marks.insert (h : Marks pending operator marked)
    (hfree : marked (operator' slashId) = false)
    (hpending : ∀ id, pending' id ↔ id = slashId ∨ id ≠ slashId ∧ pending id)
    (hidle : ¬ pending slashId) (hother : ∀ id, id ≠ slashId → operator' id = operator id) :
    Marks pending' operator' (Function.update marked (operator' slashId) true) := by
  have hunique : ∀ id, pending id → operator id ≠ operator' slashId := by
    intro id hid heq
    have hmarked := (h.marked_iff _).mpr ⟨id, hid, heq⟩
    rw [hfree] at hmarked
    cases hmarked
  constructor
  · intro account
    rcases eq_or_ne account (operator' slashId) with rfl | hne
    · rw [Function.update_self]
      exact ⟨fun _ => ⟨slashId, (hpending slashId).mpr (.inl rfl), rfl⟩, fun _ => rfl⟩
    · rw [Function.update_of_ne hne, h.marked_iff]
      constructor
      · rintro ⟨id, hid, heq⟩
        have hold : id ≠ slashId := fun hsame => hidle (hsame ▸ hid)
        exact ⟨id, (hpending id).mpr (.inr ⟨hold, hid⟩), (hother id hold).trans heq⟩
      · rintro ⟨id, hid, heq⟩
        rcases (hpending id).mp hid with rfl | ⟨hold, hid⟩
        · exact absurd heq.symm hne
        · exact ⟨id, hid, (hother id hold).symm.trans heq⟩
  · intro id id' hid hid' heq
    rcases (hpending id).mp hid with rfl | ⟨hold, hid⟩
    · rcases (hpending id').mp hid' with rfl | ⟨hold', hid'⟩
      · rfl
      · rw [hother id' hold'] at heq
        exact absurd heq.symm (hunique id' hid')
    · rcases (hpending id').mp hid' with rfl | ⟨hold', hid'⟩
      · rw [hother id hold] at heq
        exact absurd heq (hunique id hid)
      · rw [hother id hold, hother id' hold'] at heq
        exact h.single id id' hid hid' heq

/-- One pending appeal less. -/
theorem Marks.erase (h : Marks pending operator marked) (hwas : pending slashId)
    (hpending : ∀ id, pending' id ↔ id ≠ slashId ∧ pending id)
    (hother : ∀ id, id ≠ slashId → operator' id = operator id) :
    Marks pending' operator' (Function.update marked (operator slashId) false) := by
  constructor
  · intro account
    rcases eq_or_ne account (operator slashId) with rfl | hne
    · rw [Function.update_self]
      refine ⟨fun hmarked => (Bool.false_ne_true hmarked).elim, ?_⟩
      rintro ⟨id, hid, heq⟩
      rcases (hpending id).mp hid with ⟨hold, hid⟩
      rw [hother id hold] at heq
      exact absurd (h.single id slashId hid hwas heq) hold
    · rw [Function.update_of_ne hne, h.marked_iff]
      constructor
      · rintro ⟨id, hid, heq⟩
        have hold : id ≠ slashId := by
          rintro rfl
          exact hne heq.symm
        exact ⟨id, (hpending id).mpr ⟨hold, hid⟩, (hother id hold).trans heq⟩
      · rintro ⟨id, hid, heq⟩
        rcases (hpending id).mp hid with ⟨hold, hid⟩
        exact ⟨id, hid, (hother id hold).symm.trans heq⟩
  · intro id id' hid hid' heq
    rcases (hpending id).mp hid with ⟨hold, hid⟩
    rcases (hpending id').mp hid' with ⟨hold', hid'⟩
    rw [hother id hold, hother id' hold'] at heq
    exact h.single id id' hid hid' heq

end Marking

/-- Filing an appeal. -/
theorem Inv.filed (hinv : Inv w) {tx : Tx} {b : CapacityBond.State} {slashId : Nat}
    {hash : Bytes32} (hnow : w.now ≤ tx.timestamp)
    (hoperator : (w.bond.slashRecords slashId).operator = tx.sender)
    (hfresh : (w.appeal.appeals slashId).status = .none)
    (hfree : w.appeal.hasOpenAppeal tx.sender = false)
    (hrested : Rested w.appeal tx.sender tx.timestamp)
    (hmark : CapacityBond.markAppealOpen tx.bond w.bond slashId = .ok b) :
    Inv ⟨tx.timestamp, b, filedState tx w.appeal slashId hash⟩ := by
  have hempty := (hinv.agrees slashId).eq_of_none hfresh
  have hidle : ¬ (w.appeal.appeals slashId).Pending := by
    rw [hempty]
    decide
  have hbondInv := hinv.bond.markAppealOpen hmark
  rcases CapacityBond.markAppealOpen_cases hmark with ⟨-, -, hid, -, -, rfl⟩
  have hself : (filedState tx w.appeal slashId hash).appeals slashId =
      ⟨tx.sender, tx.sender, w.appeal.appealBond, hash, tx.timestamp, 0, .opened⟩ :=
    Function.update_self ..
  have hother : ∀ id, id ≠ slashId →
      (filedState tx w.appeal slashId hash).appeals id = w.appeal.appeals id :=
    fun id hne => Function.update_of_ne hne ..
  have hpending : ∀ id, ((filedState tx w.appeal slashId hash).appeals id).Pending ↔
      id = slashId ∨ id ≠ slashId ∧ (w.appeal.appeals id).Pending := by
    intro id
    rcases eq_or_ne id slashId with rfl | hne
    · rw [hself]
      exact ⟨fun _ => .inl rfl, fun _ => .inl rfl⟩
    · rw [hother id hne]
      exact ⟨fun h => .inr ⟨hne, h⟩, fun h => (h.resolve_left hne).2⟩
  have hfiler : ((filedState tx w.appeal slashId hash).appeals slashId).operator = tx.sender := by
    rw [hself]
  have hmarks := hinv.marks.insert (by rw [hfiler]; exact hfree) hpending hidle
    fun id hne => congrArg Appeal.operator (hother id hne)
  rw [hfiler] at hmarks
  refine ⟨hbondInv, fun id => ?_, hinv.floor, hinv.ceiling, fun id => ?_, hmarks.marked_iff,
    hmarks.single, ?_, fun id => ?_, fun id => ?_,
    fun operator => (hinv.accepted operator).trans hnow, fun id h => ?_⟩
  · change Divisible ((w.bond.setSlashStatus slashId .appealOpen).slashRecords id)
    rcases eq_or_ne id slashId with rfl | hne
    · rw [CapacityBond.setSlashStatus_self]
      exact hinv.divisible id
    · rw [CapacityBond.setSlashStatus_of_ne w.bond hne]
      exact hinv.divisible id
  · change Agrees _ ((w.bond.setSlashStatus slashId .appealOpen).slashRecords id)
    rcases eq_or_ne id slashId with rfl | hne
    · rw [CapacityBond.setSlashStatus_self, hself]
      exact .pending (.inl rfl) rfl hoperator.symm hoperator.symm hinv.floor hinv.ceiling
    · rw [CapacityBond.setSlashStatus_of_ne w.bond hne, hother id hne]
      exact hinv.agrees id
  · have hsum := sum_change_on (f := fun id => (w.appeal.appeals id).bond)
      (g := fun id => ((filedState tx w.appeal slashId hash).appeals id).bond)
      (mem_range.mpr hid) (fun id _ hne => by rw [hother id hne])
    simp only [hself, hempty] at hsum
    have hcustody := hinv.custody
    change ∑ id ∈ range w.bond.slashCounter,
      ((filedState tx w.appeal slashId hash).appeals id).bond ≤
      w.appeal.tokenBalance + w.appeal.appealBond
    omega
  · rcases eq_or_ne id slashId with rfl | hne
    · rw [hself]
    · rw [hother id hne]
      exact (hinv.openedAt id).trans hnow
  · rcases eq_or_ne id slashId with rfl | hne
    · rw [hself]
      exact Nat.zero_le _
    · rw [hother id hne]
      exact (hinv.fastTrackedAt id).trans hnow
  · rcases (hpending id).mp h with rfl | ⟨hne, h⟩
    · rw [hself]
      exact hrested
    · rw [hother id hne]
      exact hinv.rested id h

/-- Forwarding an appeal. -/
theorem Inv.forwarded (hinv : Inv w) {tx : Tx} {slashId : Nat} (hnow : w.now ≤ tx.timestamp)
    (hopened : (w.appeal.appeals slashId).status = .opened) :
    Inv ⟨tx.timestamp, w.bond, forwardedState tx w.appeal slashId⟩ := by
  have hself : (forwardedState tx w.appeal slashId).appeals slashId =
      { w.appeal.appeals slashId with
        status := .fastTracked
        fastTrackedAt := tx.timestamp } := Function.update_self ..
  have hother : ∀ id, id ≠ slashId →
      (forwardedState tx w.appeal slashId).appeals id = w.appeal.appeals id :=
    fun id hne => Function.update_of_ne hne ..
  -- Nothing but the status and its stamp changes, and the appeal stays pending.
  have hsame : ∀ id, (((forwardedState tx w.appeal slashId).appeals id).Pending ↔
        (w.appeal.appeals id).Pending) ∧
      ((forwardedState tx w.appeal slashId).appeals id).operator = (w.appeal.appeals id).operator ∧
      ((forwardedState tx w.appeal slashId).appeals id).bond = (w.appeal.appeals id).bond ∧
      ((forwardedState tx w.appeal slashId).appeals id).openedAt =
        (w.appeal.appeals id).openedAt := by
    intro id
    rcases eq_or_ne id slashId with rfl | hne
    · rw [hself]
      exact ⟨⟨fun _ => .inl hopened, fun _ => .inr rfl⟩, rfl, rfl, rfl⟩
    · rw [hother id hne]
      exact ⟨Iff.rfl, rfl, rfl, rfl⟩
  refine ⟨hinv.bond, hinv.divisible, hinv.floor, hinv.ceiling, fun id => ?_, fun operator => ?_,
    fun id id' h h' heq => ?_, ?_, fun id => ?_, fun id => ?_,
    fun operator => (hinv.accepted operator).trans hnow, fun id h => ?_⟩
  · rcases eq_or_ne id slashId with rfl | hne
    · change Agrees ((forwardedState tx w.appeal id).appeals id) _
      rw [hself]
      rcases (hinv.agrees id).operator_eq (.inl hopened) with
        ⟨hrecord, hoperator, happellant, hfloor, hceiling⟩
      exact .pending (.inr rfl) hrecord hoperator happellant hfloor hceiling
    · change Agrees ((forwardedState tx w.appeal slashId).appeals id) _
      rw [hother id hne]
      exact hinv.agrees id
  · simp only [(hsame _).1, (hsame _).2.1]
    exact hinv.pending operator
  · rw [(hsame id).2.1, (hsame id').2.1] at heq
    exact hinv.single id id' ((hsame id).1.mp h) ((hsame id').1.mp h') heq
  · simp only [(hsame _).2.2.1]
    exact hinv.custody
  · change ((forwardedState tx w.appeal slashId).appeals id).openedAt ≤ _
    rw [(hsame id).2.2.2]
    exact (hinv.openedAt id).trans hnow
  · rcases eq_or_ne id slashId with rfl | hne
    · change ((forwardedState tx w.appeal id).appeals id).fastTrackedAt ≤ _
      rw [hself]
    · change ((forwardedState tx w.appeal slashId).appeals id).fastTrackedAt ≤ _
      rw [hother id hne]
      exact (hinv.fastTrackedAt id).trans hnow
  · change Rested w.appeal ((forwardedState tx w.appeal slashId).appeals id).operator
      ((forwardedState tx w.appeal slashId).appeals id).openedAt
    rw [(hsame id).2.1, (hsame id).2.2.2]
    exact hinv.rested id ((hsame id).1.mp h)

/-- Closing an appeal either way. -/
theorem Inv.closed (hinv : Inv w) {now slashId : Nat} {status : SlashStatus}
    {b : CapacityBond.State} {s : State} (hnow : w.now ≤ now)
    (hwas : (w.appeal.appeals slashId).Pending) (hstatus : status = .upheld ∨ status = .reversed)
    (hbond : CapacityBond.Inv b)
    (hrecords : b.slashRecords = (w.bond.setSlashStatus slashId status).slashRecords)
    (hcounter : b.slashCounter = w.bond.slashCounter)
    (happeals : s.appeals = (markResolved w.appeal slashId).appeals)
    (hopen : s.hasOpenAppeal = (markResolved w.appeal slashId).hasOpenAppeal)
    (hamount : s.appealBond = w.appeal.appealBond)
    (hbalance : s.tokenBalance = w.appeal.tokenBalance - (w.appeal.appeals slashId).bond)
    (hlast : ∀ operator, s.lastAcceptedAppealAt operator = w.appeal.lastAcceptedAppealAt operator ∨
      operator = (w.appeal.appeals slashId).operator ∧ s.lastAcceptedAppealAt operator = now) :
    Inv ⟨now, b, s⟩ := by
  have hself : s.appeals slashId =
      { w.appeal.appeals slashId with bond := 0, status := .resolved } := by
    rw [happeals]
    exact Function.update_self ..
  have hother : ∀ id, id ≠ slashId → s.appeals id = w.appeal.appeals id := by
    intro id hne
    rw [happeals]
    exact Function.update_of_ne hne ..
  have hrecord : ∀ id, id ≠ slashId → b.slashRecords id = w.bond.slashRecords id := by
    intro id hne
    rw [hrecords, CapacityBond.setSlashStatus_of_ne w.bond hne]
  have hrecordSelf : b.slashRecords slashId =
      { w.bond.slashRecords slashId with status := status } := by
    rw [hrecords, CapacityBond.setSlashStatus_self]
  have hpending : ∀ id, (s.appeals id).Pending ↔ id ≠ slashId ∧ (w.appeal.appeals id).Pending := by
    intro id
    rcases eq_or_ne id slashId with rfl | hne
    · rw [hself]
      exact ⟨fun h => absurd h (not_pending_of_resolved rfl), fun h => absurd rfl h.1⟩
    · rw [hother id hne]
      exact ⟨fun h => ⟨hne, h⟩, fun h => h.2⟩
  have hmarks : Marks (fun id => (s.appeals id).Pending) (fun id => (s.appeals id).operator)
      s.hasOpenAppeal := by
    rw [hopen]
    exact hinv.marks.erase hwas hpending fun id hne => congrArg Appeal.operator (hother id hne)
  have hid : slashId < w.bond.slashCounter := by
    refine hinv.lt_counter ?_
    rcases hwas with h | h <;> rw [h] <;> simp
  refine ⟨hbond, fun id => ?_, hamount ▸ hinv.floor, hamount ▸ hinv.ceiling, fun id => ?_,
    hmarks.marked_iff, hmarks.single, ?_, fun id => ?_, fun id => ?_, fun operator => ?_,
    fun id h => ?_⟩
  · change Divisible (b.slashRecords id)
    rcases eq_or_ne id slashId with rfl | hne
    · rw [hrecordSelf]
      exact hinv.divisible id
    · rw [hrecord id hne]
      exact hinv.divisible id
  · change Agrees (s.appeals id) (b.slashRecords id)
    rcases eq_or_ne id slashId with rfl | hne
    · rw [hself, hrecordSelf]
      rcases (hinv.agrees id).operator_eq hwas with ⟨-, hoperator, happellant, -, -⟩
      exact .resolved rfl hstatus hoperator happellant rfl
    · rw [hother id hne, hrecord id hne]
      exact hinv.agrees id
  · have hsum := sum_change_on (f := fun id => (w.appeal.appeals id).bond)
      (g := fun id => (s.appeals id).bond) (mem_range.mpr hid)
      (fun id _ hne => by rw [hother id hne])
    simp only [hself] at hsum
    have hcustody := hinv.custody
    change ∑ id ∈ range b.slashCounter, (s.appeals id).bond ≤ s.tokenBalance
    rw [hcounter, hbalance]
    omega
  · change (s.appeals id).openedAt ≤ now
    rcases eq_or_ne id slashId with rfl | hne
    · rw [hself]
      exact (hinv.openedAt id).trans hnow
    · rw [hother id hne]
      exact (hinv.openedAt id).trans hnow
  · change (s.appeals id).fastTrackedAt ≤ now
    rcases eq_or_ne id slashId with rfl | hne
    · rw [hself]
      exact (hinv.fastTrackedAt id).trans hnow
    · rw [hother id hne]
      exact (hinv.fastTrackedAt id).trans hnow
  · change s.lastAcceptedAppealAt operator ≤ now
    rcases hlast operator with h | ⟨-, h⟩
    · rw [h]
      exact (hinv.accepted operator).trans hnow
    · exact h.le
  · change Rested s (s.appeals id).operator (s.appeals id).openedAt
    rcases (hpending id).mp h with ⟨hne, hold⟩
    rw [hother id hne]
    rcases hlast (w.appeal.appeals id).operator with hsame | ⟨heq, -⟩
    · unfold Rested
      rw [hsame]
      exact hinv.rested id hold
    · exact absurd (hinv.single id slashId hold hwas heq) hne

/-- A call that leaves the appeals and the slash records alone. -/
theorem Inv.idle (hinv : Inv w) {now : Nat} {b : CapacityBond.State} {s : State}
    (hnow : w.now ≤ now) (hbond : CapacityBond.Inv b)
    (hrecords : b.slashRecords = w.bond.slashRecords)
    (hcounter : b.slashCounter = w.bond.slashCounter) (happeals : s.appeals = w.appeal.appeals)
    (hopen : s.hasOpenAppeal = w.appeal.hasOpenAppeal)
    (hlast : s.lastAcceptedAppealAt = w.appeal.lastAcceptedAppealAt)
    (hbalance : w.appeal.tokenBalance ≤ s.tokenBalance) (hfloor : appealBondFloor ≤ s.appealBond)
    (hceiling : s.appealBond ≤ appealBondCeiling) : Inv ⟨now, b, s⟩ := by
  refine ⟨hbond, ?_, hfloor, hceiling, ?_, ?_, ?_, ?_, ?_, ?_, ?_, ?_⟩ <;>
    simp only [hrecords, hcounter, happeals, hopen, hlast, Rested]
  · exact hinv.divisible
  · exact hinv.agrees
  · exact hinv.pending
  · exact hinv.single
  · exact hinv.custody.trans hbalance
  · exact fun id => (hinv.openedAt id).trans hnow
  · exact fun id => (hinv.fastTrackedAt id).trans hnow
  · exact fun operator => (hinv.accepted operator).trans hnow
  · exact hinv.rested

/-- Whoever closes an appeal finds it pending. -/
theorem UpheldBy.pending {tx : Tx} {b : CapacityBond.State} {s : State} {slashId : Nat} {e : Event}
    (h : UpheldBy tx b s slashId e) : (s.appeals slashId).Pending := by
  rcases h with ⟨hstatus, -, -⟩ | ⟨hstatus, -, -⟩ | ⟨hstatus, -, -⟩
  · exact .inl hstatus
  · exact .inr hstatus
  · exact .inl hstatus

/-- Every call of the appeal contract keeps the invariant. -/
theorem Inv.move (hinv : Inv w) {tx : Tx} {b : CapacityBond.State} {s : State}
    (hnow : w.now ≤ tx.timestamp) (h : Move tx w.bond w.appeal s b) : Inv ⟨tx.timestamp, b, s⟩ := by
  cases h with
  | filed hoperator hfresh hfree hrested hmark =>
    exact hinv.filed hnow hoperator hfresh hfree hrested hmark
  | forwarded hlive hopened => exact hinv.forwarded hnow hopened
  | upheld hlive hcause hbond hsettle =>
    have hbondInv := hinv.bond.settleAppealUpheld hsettle
    rcases CapacityBond.settleAppealUpheld_cases hsettle with ⟨-, -, -, -, -, -, rfl⟩
    exact hinv.closed hnow hcause.pending (.inl rfl) hbondInv rfl rfl rfl rfl rfl rfl
      fun operator => .inl rfl
  | @granted slashId e b hlive hcause hbond hsettle =>
    have hbondInv := hinv.bond.settleAppealGranted hsettle
    rcases CapacityBond.settleAppealGranted_cases hsettle with ⟨-, -, -, -, -, -, rfl⟩
    refine hinv.closed hnow (.inr hcause.1) (.inr rfl) hbondInv rfl rfl rfl rfl rfl rfl
      fun operator => ?_
    change Function.update w.appeal.lastAcceptedAppealAt _ tx.timestamp operator = _ ∨ _ ∧
      Function.update w.appeal.lastAcceptedAppealAt _ tx.timestamp operator = _
    rcases eq_or_ne operator (w.appeal.appeals slashId).operator with rfl | hne
    · exact .inr ⟨rfl, Function.update_self ..⟩
    · exact .inl (Function.update_of_ne hne ..)
  | setBond hfloor hceiling =>
    exact hinv.idle hnow hinv.bond rfl rfl rfl rfl rfl le_rfl hfloor hceiling
  | pause hlive =>
    exact hinv.idle hnow hinv.bond rfl rfl rfl rfl rfl le_rfl hinv.floor hinv.ceiling
  | unpause hpaused hstamp hcredit =>
    rcases hcredit with rfl
    refine hinv.idle hnow (hinv.bond.frame ?_) rfl rfl rfl rfl rfl le_rfl hinv.floor hinv.ceiling
    exact ⟨rfl, rfl, rfl, rfl, rfl, rfl, le_rfl, rfl, [], by simp, by simp⟩

/-- Every step keeps the invariant. -/
theorem Inv.step (hinv : Inv w) (h : Step H w w') : Inv w' := by
  cases h with
  | bond tx c hnow hrole hexec => exact hinv.outsider hnow hrole hexec
  | appeal tx c hnow hexec => exact hinv.move hnow (exec_move hexec)
  | bondDonation amount =>
    refine hinv.idle le_rfl (hinv.bond.frame ?_) rfl rfl rfl rfl rfl le_rfl hinv.floor hinv.ceiling
    exact ⟨rfl, rfl, rfl, rfl, rfl, rfl, Nat.le_add_right _ _, rfl, [], by simp, by simp⟩
  | donation amount =>
    exact hinv.idle le_rfl hinv.bond rfl rfl rfl rfl rfl (Nat.le_add_right _ _) hinv.floor
      hinv.ceiling

/-- The state of the constructor. -/
theorem deploy_cases {tx : Tx} {token capacityBond admin : Address} {appealBond : Nat} {s : State}
    (h : deploy tx token capacityBond admin appealBond = .ok s) :
    appealBondFloor ≤ appealBond ∧ appealBond ≤ appealBondCeiling ∧
      s = { appealBond := appealBond
            pauseDeadline := tx.timestamp + CapacityBond.pauseSunsetPeriod } := by
  unfold deploy at h
  split at h
  · cases h
  simp only [bind_eq_ok, pure_eq_ok, enforceAppealBondBounds, Guard.within_eq_ok] at h
  rcases h with ⟨_, ⟨hfloor, hceiling⟩, rfl⟩
  exact ⟨hfloor, hceiling, rfl⟩

/-- The invariant of every reachable world. -/
theorem Reachable.inv (h : Reachable H w) : Inv w := by
  induction h with
  | deployed bondTx tx minBond unbonding cooldown size window terms token capacityBond admin
      appealBond hnow hbond happeal =>
    have hbondInv := CapacityBond.Inv.deploy hbond
    rcases CapacityBond.deploy_cases hbond with ⟨-, -, -, -, -, -, rfl⟩
    rcases deploy_cases happeal with ⟨hfloor, hceiling, rfl⟩
    have hidle : ¬ ({} : Appeal).Pending := by decide
    refine ⟨hbondInv, fun _ => by simp [Divisible], hfloor, hceiling,
      fun _ => .none rfl ⟨by simp, by simp⟩, fun operator => ⟨fun h => ?_, ?_⟩,
      fun id id' h => absurd h hidle, by simp, fun _ => Nat.zero_le _, fun _ => Nat.zero_le _,
      fun _ => Nat.zero_le _, fun id h => absurd h hidle⟩
    · cases h
    · rintro ⟨id, h, -⟩
      exact absurd h hidle
  | step _ hstep ih => exact ih.step hstep

/-! ## Runs by evaluation -/

/-- One call of a run. -/
inductive Action where
  | bond (tx : CapacityBond.Tx) (c : CapacityBond.Call)
  | appeal (tx : Tx) (c : Call)

/-- The world after a call, or `none` if it is out of order or reverts. -/
def World.apply (H : CapacityBond.Wiring) (w : World) : Action → Option World
  | .bond tx c =>
    if w.now ≤ tx.timestamp ∧ tx.hasRole .slashAppeal tx.sender = false then
      match CapacityBond.exec H tx w.bond c with
      | .ok b => some { w with now := tx.timestamp, bond := b }
      | .error _ => none
    else none
  | .appeal tx c =>
    if w.now ≤ tx.timestamp then
      match exec tx w.bond w.appeal c with
      | .ok (s, b) => some ⟨tx.timestamp, b, s⟩
      | .error _ => none
    else none

theorem World.apply_step {a : Action} (h : w.apply H a = some w') : Step H w w' := by
  cases a with
  | bond tx c =>
    simp only [World.apply] at h
    split at h
    · rename_i hpre
      split at h
      · rename_i b hexec
        rcases Option.some.inj h with rfl
        exact .bond tx c hpre.1 hpre.2 hexec
      · cases h
    · cases h
  | appeal tx c =>
    simp only [World.apply] at h
    split at h
    · rename_i hnow
      split at h
      · rename_i s b hexec
        rcases Option.some.inj h with rfl
        exact .appeal tx c hnow hexec
      · cases h
    · cases h

/-- The worlds of a run that can be evaluated: where it stands after `n` of its calls. -/
def after (H : CapacityBond.Wiring) (w : World) (run : List Action) (n : Nat) : World :=
  (runEvents (World.apply H) (fun _ _ => true) w (run.take n)).getD w

/-- A run and one more call. -/
theorem runEvents_concat {run : List Action} {a : Action}
    (h : runEvents (World.apply H) (fun _ _ => true) w (run ++ [a]) = some w') :
    ∃ v, runEvents (World.apply H) (fun _ _ => true) w run = some v ∧ v.apply H a = some w' := by
  induction run generalizing w with
  | nil =>
    simp only [List.nil_append, runEvents, if_true] at h
    split at h
    · rename_i v hv
      rcases Option.some.inj h with rfl
      exact ⟨w, rfl, hv⟩
    · cases h
  | cons a' run ih =>
    simp only [List.cons_append, runEvents, if_true] at h ⊢
    split at h
    · exact ih h
    · cases h

/-- Each call of a run that evaluates is a step. -/
theorem after_step {run : List Action} {n : Nat} (hn : n < run.length)
    (h : (runEvents (World.apply H) (fun _ _ => true) w (run.take (n + 1))).isSome = true) :
    Step H (after H w run n) (after H w run (n + 1)) := by
  rcases Option.isSome_iff_exists.mp h with ⟨w', hw'⟩
  have hlast := hw'
  rw [List.take_succ_eq_append_getElem hn] at hlast
  rcases runEvents_concat hlast with ⟨v, hv, hstep⟩
  unfold after
  rw [hv, hw']
  exact World.apply_step hstep

/-- Two worlds of a run that evaluates. -/
theorem after_run {run : List Action} {m n : Nat} (hmn : m ≤ n) (hn : n ≤ run.length)
    (h : ∀ k ≤ n, (runEvents (World.apply H) (fun _ _ => true) w (run.take k)).isSome = true) :
    Relation.ReflTransGen (Step H) (after H w run m) (after H w run n) := by
  induction n, hmn using Nat.le_induction with
  | base => exact .refl
  | succ n hmn ih =>
    exact (ih (by omega) fun k hk => h k (by omega)).tail (after_step (by omega) (h _ le_rfl))

/-- A run continues what is reachable. -/
theorem Reachable.trans (h : Reachable H w) (hrun : Relation.ReflTransGen (Step H) w w') :
    Reachable H w' := by
  induction hrun with
  | refl => exact h
  | tail _ hstep ih => exact ih.step hstep

/-- A transaction on CapacityBond whose sender has every role but that of the appeal contract. -/
def directTx (tx : CapacityBond.Tx) : CapacityBond.Tx :=
  { tx with hasRole := fun role _ => decide (role ≠ .slashAppeal) }

/-- A transaction on the appeal contract whose external checks all pass. -/
def sampleTx (tx : CapacityBond.Tx) : Tx where
  sender := tx.sender
  sender_ne_zero := tx.sender_ne_zero
  bond := tx
  hasRole := fun _ _ => true
  transferFrom := true
  transferOut := true

/-- A deployment of both contracts at time 1 with the smallest appeal bond. -/
def sampleDeployed : World where
  now := 1
  bond := CapacityBond.sampleDeployed.contract
  appeal := { appealBond := 100000000000000000000, pauseDeadline := 31536001 }

theorem sampleDeployed_reachable (H : CapacityBond.Wiring) : Reachable H sampleDeployed :=
  .deployed (CapacityBond.sampleTx 9 1) (sampleTx (CapacityBond.sampleTx 9 1))
    10000000000000000000000 1209600 3600 256 604800 1 6 7 8 100000000000000000000 le_rfl rfl rfl

/-- An operator bonds 20,000 TOKEN, is slashed, appeals and is granted the appeal; a year later
the same happens again. -/
def sampleRun : List Action :=
  [.bond (directTx (CapacityBond.sampleTx 1 10)) (.bond 20000000000000000000000),
    .bond (directTx (CapacityBond.sampleTx 2 20)) (.slash 1 3 0 7),
    .appeal (sampleTx (CapacityBond.sampleTx 1 30)) (.openSlashAppeal 0 5),
    .appeal (sampleTx (CapacityBond.sampleTx 4 40)) (.fastTrackAppeal 0),
    .appeal (sampleTx (CapacityBond.sampleTx 4 50)) (.grantAppeal 0),
    .bond (directTx (CapacityBond.sampleTx 2 31536060)) (.slash 1 3 0 8),
    .appeal (sampleTx (CapacityBond.sampleTx 1 31536070)) (.openSlashAppeal 1 5),
    .appeal (sampleTx (CapacityBond.sampleTx 4 31536080)) (.fastTrackAppeal 1),
    .appeal (sampleTx (CapacityBond.sampleTx 4 31536090)) (.grantAppeal 1)]

/-- The sample run after `n` calls. -/
def sampleAfter (n : Nat) : World := after CapacityBond.sampleWiring sampleDeployed sampleRun n

theorem sampleRun_evaluates : ∀ k ≤ 9, (runEvents (World.apply CapacityBond.sampleWiring)
    (fun _ _ => true) sampleDeployed (sampleRun.take k)).isSome = true := by
  decide +kernel

theorem sampleAfter_run {m n : Nat} (hmn : m ≤ n) (hn : n ≤ 9) :
    Relation.ReflTransGen (Step CapacityBond.sampleWiring) (sampleAfter m) (sampleAfter n) :=
  after_run hmn hn fun k hk => sampleRun_evaluates k (hk.trans hn)

theorem sampleAfter_reachable {n : Nat} (hn : n ≤ 9) :
    Reachable CapacityBond.sampleWiring (sampleAfter n) :=
  (sampleDeployed_reachable CapacityBond.sampleWiring).trans (sampleAfter_run (Nat.zero_le n) hn)

end Decdn.SlashAppeal
