import Decdn.Appeals.System

/-!
# Slashes and their appeals

Main results:

- Theorem `appeals_agree`: the two contracts agree on every slash.
- Theorem `reversals_apart`: a year lies between two reversals for one operator.
-/

namespace Decdn.SlashAppeal

open CapacityBond (SlashStatus)

variable {H : CapacityBond.Wiring} {w w' : World}

/-- The two contracts agree in every world they reach: a slash is locked for an appeal exactly
while its appeal is pending, it is reversed only by an appeal, and a resolved appeal left it
either upheld or reversed; an appeal is the slashed operator's own, also when it is resolved, and
an operator is marked exactly when one of its slashes has a pending appeal, which is then the
only one. -/
theorem appeals_agree (h : Reachable H w) :
    (∀ id, (w.appeal.appeals id).Pending ↔ (w.bond.slashRecords id).status = .appealOpen) ∧
    (∀ id, (w.bond.slashRecords id).status = .reversed →
      (w.appeal.appeals id).status = .resolved) ∧
    (∀ id, (w.appeal.appeals id).status = .resolved →
      (w.bond.slashRecords id).status = .upheld ∨ (w.bond.slashRecords id).status = .reversed) ∧
    (∀ id, (w.appeal.appeals id).status ≠ .none →
      (w.appeal.appeals id).operator = (w.bond.slashRecords id).operator ∧
      (w.appeal.appeals id).appellant = (w.bond.slashRecords id).operator) ∧
    ∀ operator, w.appeal.hasOpenAppeal operator = true ↔
      ∃! id, (w.appeal.appeals id).Pending ∧ (w.bond.slashRecords id).operator = operator := by
  have hinv := h.inv
  have howner : ∀ id, (w.appeal.appeals id).Pending →
      (w.appeal.appeals id).operator = (w.bond.slashRecords id).operator :=
    fun id hpending => ((hinv.agrees id).owner hpending.filed).1
  refine ⟨fun id => ⟨fun hpending => ((hinv.agrees id).operator_eq hpending).1, fun hopen => ?_⟩,
    fun id hreversed => ?_, fun id hresolved => ?_, fun id => (hinv.agrees id).owner,
    fun operator => ?_⟩
  · rcases hinv.agrees id with ⟨-, hrecord⟩ | ⟨hpending, -, -, -, -, -⟩ | ⟨-, hrecord, -, -, -⟩
    · exact absurd hopen hrecord.1
    · exact hpending
    · rw [hopen] at hrecord
      rcases hrecord with hrecord | hrecord <;> cases hrecord
  · rcases hinv.agrees id with ⟨-, hrecord⟩ | ⟨-, hrecord, -, -, -, -⟩ | ⟨hstatus, -, -, -, -⟩
    · exact absurd hreversed hrecord.2
    · rw [hreversed] at hrecord
      cases hrecord
    · exact hstatus
  · rcases hinv.agrees id with ⟨hnone, -⟩ | ⟨hpending, -, -, -, -, -⟩ | ⟨-, hrecord, -, -, -⟩
    · rw [hnone] at hresolved
      cases hresolved
    · exact absurd hpending (not_pending_of_resolved hresolved)
    · exact hrecord
  · rw [hinv.pending operator]
    constructor
    · rintro ⟨id, hpending, heq⟩
      refine ⟨id, ⟨hpending, (howner id hpending).symm.trans heq⟩, ?_⟩
      rintro id' ⟨hpending', heq'⟩
      exact hinv.single id' id hpending' hpending
        (((howner id' hpending').trans heq').trans heq.symm)
    · rintro ⟨id, ⟨hpending, heq⟩, -⟩
      exact ⟨id, hpending, (howner id hpending).trans heq⟩

/-- In the sample run the first appeal is pending after it was filed. -/
theorem appeals_agree_sample :
    (sampleAfter 3).appeal.hasOpenAppeal 1 = true ∧
      ∃! id, ((sampleAfter 3).appeal.appeals id).Pending ∧
        ((sampleAfter 3).bond.slashRecords id).operator = 1 := by
  have hopen : (sampleAfter 3).appeal.hasOpenAppeal 1 = true := by decide +kernel
  have hagree := appeals_agree (sampleAfter_reachable (n := 3) (by decide))
  exact ⟨hopen, (hagree.2.2.2.2 1).mp hopen⟩

/-! ## Reversals -/

/-- The step reverses a slash. -/
def Reverses (w w' : World) (slashId : Nat) : Prop :=
  (w.bond.slashRecords slashId).status ≠ .reversed ∧
    (w'.bond.slashRecords slashId).status = .reversed

/-- A reversal is the end of a pending appeal, and it stamps the operator. -/
theorem Step.of_reverses (hinv : Inv w) (h : Step H w w') {slashId : Nat}
    (hreverses : Reverses w w' slashId) : (w.appeal.appeals slashId).Pending ∧
      w'.appeal.lastAcceptedAppealAt (w.bond.slashRecords slashId).operator = w'.now := by
  rcases hreverses with ⟨hbefore, hafter⟩
  -- Every other step leaves the record as it is or in a status of its own.
  have hset : ∀ {b : CapacityBond.State} {id : Nat} {status : SlashStatus},
      b.slashRecords = (w.bond.setSlashStatus id status).slashRecords → status ≠ .reversed →
      (b.slashRecords slashId).status ≠ .reversed := by
    intro b id status hrecords hstatus
    rw [hrecords]
    rcases eq_or_ne slashId id with rfl | hne
    · rw [CapacityBond.setSlashStatus_self]
      exact hstatus
    · rw [CapacityBond.setSlashStatus_of_ne w.bond hne]
      exact hbefore
  cases h with
  | bond tx c hnow hrole hexec =>
    dsimp only at hafter
    rcases outsider_records hinv.bond hrole hexec slashId with
      hsame | ⟨-, -, -, hupheld⟩ | hminted
    · rw [hsame] at hafter
      exact absurd hafter hbefore
    · rw [hupheld] at hafter
      cases hafter
    · rw [hminted.escrowed] at hafter
      cases hafter
  | appeal tx c hnow hexec =>
    cases exec_move hexec with
    | filed hoperator hfresh hfree hrested hmark =>
      rcases CapacityBond.markAppealOpen_cases hmark with ⟨-, -, -, -, -, rfl⟩
      exact absurd hafter (hset rfl (by simp))
    | forwarded hlive hopened => exact absurd hafter hbefore
    | upheld hlive hcause hbond hsettle =>
      rcases CapacityBond.settleAppealUpheld_cases hsettle with ⟨-, -, -, -, -, -, rfl⟩
      exact absurd hafter (hset rfl (by simp))
    | @granted granted e b hlive hcause hbond hsettle =>
      have hid : slashId = granted := by
        by_contra hne
        rcases CapacityBond.settleAppealGranted_cases hsettle with ⟨-, -, -, -, -, -, rfl⟩
        change ((w.bond.setSlashStatus granted .reversed).slashRecords slashId).status = _ at hafter
        rw [CapacityBond.setSlashStatus_of_ne w.bond hne] at hafter
        exact hbefore hafter
      rcases hid with rfl
      have hpending : (w.appeal.appeals slashId).Pending := .inr hcause.1
      refine ⟨hpending, ?_⟩
      rw [← ((hinv.agrees slashId).operator_eq hpending).2.1]
      exact Function.update_self ..
    | setBond hfloor hceiling => exact absurd hafter hbefore
    | pause hlive => exact absurd hafter hbefore
    | unpause hpaused hstamp hcredit =>
      rcases hcredit with rfl
      exact absurd hafter hbefore
  | bondDonation amount => exact absurd hafter hbefore
  | donation amount => exact absurd hafter hbefore

/-- The stamp of the last accepted appeal never runs back. -/
theorem Step.accepted_le (hinv : Inv w) (h : Step H w w') (operator : Address) :
    w.appeal.lastAcceptedAppealAt operator ≤ w'.appeal.lastAcceptedAppealAt operator := by
  cases h with
  | bond tx c hnow hrole hexec => exact le_rfl
  | appeal tx c hnow hexec =>
    cases exec_move hexec with
    | @granted granted e b hlive hcause hbond hsettle =>
      change _ ≤ Function.update w.appeal.lastAcceptedAppealAt _ tx.timestamp operator
      rcases eq_or_ne operator (w.appeal.appeals granted).operator with rfl | hne
      · rw [Function.update_self]
        exact (hinv.accepted _).trans hnow
      · rw [Function.update_of_ne hne]
    | filed | forwarded | upheld | setBond | pause | unpause => exact le_rfl
  | bondDonation amount => exact le_rfl
  | donation amount => exact le_rfl

/-- Between two reversals of slashes of one operator lies a year, whatever happens between
them. -/
theorem reversals_apart {w₁ w₁' w₂ w₂' : World} (h : Reachable H w₁) (hfirst : Step H w₁ w₁')
    (hrun : Relation.ReflTransGen (Step H) w₁' w₂) (hsecond : Step H w₂ w₂') {id₁ id₂ : Nat}
    (hreverses₁ : Reverses w₁ w₁' id₁) (hreverses₂ : Reverses w₂ w₂' id₂)
    (hsame : (w₁.bond.slashRecords id₁).operator = (w₂.bond.slashRecords id₂).operator)
    (hnow : 0 < w₁'.now) : w₁'.now + appealFrequencyWindow ≤ w₂'.now := by
  have hreach := h.step hfirst
  rcases hfirst.of_reverses h.inv hreverses₁ with ⟨-, hstamp⟩
  -- The stamp of the first reversal is a lower bound of the stamp at the second.
  have hkept : w₁'.now ≤
      w₂.appeal.lastAcceptedAppealAt (w₁.bond.slashRecords id₁).operator := by
    rw [← hstamp]
    clear hstamp hsecond hreverses₂ hsame hnow
    induction hrun with
    | refl => exact le_rfl
    | tail hprefix hstep ih =>
      exact ih.trans (hstep.accepted_le (hreach.trans hprefix).inv _)
  have hinv := (hreach.trans hrun).inv
  rcases hsecond.of_reverses hinv hreverses₂ with ⟨hpending, -⟩
  have hopened := (hinv.openedAt id₂).trans hsecond.now_le
  have hrested := hinv.rested id₂ hpending
  rw [((hinv.agrees id₂).operator_eq hpending).2.1, ← hsame] at hrested
  rcases hrested with hzero | hyear
  · omega
  · omega

/-- The two reversals of the sample run. -/
theorem reversals_apart_sample :
    (sampleAfter 5).now + appealFrequencyWindow ≤ (sampleAfter 9).now := by
  have hstep : ∀ {n}, n < 9 →
      Step CapacityBond.sampleWiring (sampleAfter n) (sampleAfter (n + 1)) :=
    fun hn => after_step hn (sampleRun_evaluates _ hn)
  have hfirst : Reverses (sampleAfter 4) (sampleAfter 5) 0 :=
    ⟨by decide +kernel, by decide +kernel⟩
  have hsecond : Reverses (sampleAfter 8) (sampleAfter 9) 1 :=
    ⟨by decide +kernel, by decide +kernel⟩
  exact reversals_apart (sampleAfter_reachable (by decide)) (hstep (by decide))
    (sampleAfter_run (by decide) (by decide)) (hstep (by decide)) hfirst hsecond
    (by decide +kernel) (by decide +kernel)

end Decdn.SlashAppeal
