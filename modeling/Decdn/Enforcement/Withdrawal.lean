import Decdn.CapacityBond.Operators
import Decdn.Enforcement.System

/-!
# Slash before withdraw

An unbonding request freezes its unlock time, and the evidence age moves later.
Both setters compare the two parameters as they stand, so a request made under a
short period can be paid out while a raised age still accepts evidence from before
the request.  The raises that keep the promise are those within what every earlier
request covers.

Main results:

- Theorem `Covered.step`: covered raises keep every request behind the evidence age.
- Theorem `Standing.step`: bond that stood at a time is withdrawn only through a request
  that has unlocked since.
- Theorem `slash_before_withdraw`: fresh evidence reaches the bond that stood at its time.
- Theorem `raise_outruns_request`: a run with an uncovered raise.
-/

namespace Decdn.Enforcement

open CapacityBond (slashedOf withdrawnOf)

variable {P : Protocol} {w w' : System} {e : Event}

/-! ## Runs with their requests -/

/-- An unbonding request of a run. -/
structure Request where
  requestedAt : Nat
  unlockAt : Nat

/-- The system and the unbonding requests made in the run so far. -/
structure Traced where
  sys : System
  requests : List Request

/-- The request an event makes when it succeeds. -/
def Event.request (w : System) : Event → List Request
  | .bond tx (.requestUnbond _) =>
    [⟨tx.timestamp, tx.timestamp + w.bond.params.unbondingPeriod⟩]
  | _ => []

/-- One event of a traced run. -/
def Traced.apply (P : Protocol) (t : Traced) (e : Event) : Option Traced :=
  (t.sys.apply P e).map fun w => ⟨w, t.requests ++ e.request t.sys⟩

/-- The step relation of traced runs. -/
def Traced.Step (P : Protocol) (t : Traced) (e : Event) (t' : Traced) : Prop :=
  t.apply P e = some t'

/-- A raise of the evidence age is covered by every request of the run: evidence from before the
request is stale by the time the request can be paid out, and now. -/
def RaiseCovered (t : Traced) : Event → Prop
  | .judge tx (.setMaxEvidenceAge newValueUs) => ∀ r ∈ t.requests,
    newValueUs ≤ 1000000 * (max r.unlockAt tx.timestamp - r.requestedAt)
  | _ => True

/-- The judge is wired, and its evidence age is below the unbonding period. -/
structure Wired (P : Protocol) (w : System) : Prop where
  judge_ne : P.judge ≠ 0
  wired : w.bond.params.slashJudge = P.judge
  paired : w.judge.maxEvidenceAgeUs < 1000000 * w.bond.params.unbondingPeriod

theorem Traced.Step.cases {t t' : Traced} (h : Traced.Step P t e t') :
    System.Step P t.sys e t'.sys ∧ t'.requests = t.requests ++ e.request t.sys := by
  unfold Traced.Step Traced.apply at h
  rcases Option.map_eq_some_iff.mp h with ⟨w, hw, rfl⟩
  exact ⟨hw, rfl⟩

/-! ## The paired invariant -/

/-- What a step does to the evidence age: nothing, or an accepted new value. -/
theorem System.Step.age_cases (h : System.Step P w e w') :
    w'.judge.maxEvidenceAgeUs = w.judge.maxEvidenceAgeUs ∨
      ∃ tx newValueUs, e = .judge tx (.setMaxEvidenceAge newValueUs) ∧
        w'.judge.maxEvidenceAgeUs = newValueUs ∧ w'.bond = w.bond ∧ w'.now = tx.timestamp ∧
        newValueUs < 1000000 * w.bond.params.unbondingPeriod := by
  cases e with
  | bond tx c =>
    rcases applyBond_cases h with ⟨-, -, bond, -, rfl⟩
    exact .inl rfl
  | list tx inner c =>
    rcases applyList_cases h with ⟨-, -, list, bond, out, -, -, rfl⟩
    exact .inl rfl
  | wait later =>
    rcases applyWait_cases h with ⟨-, rfl⟩
    exact .inl rfl
  | judge tx c =>
    rcases applyJudge_cases h with ⟨-, judge, bond, hexec, rfl⟩
    rcases SlashJudge.exec_cases hexec with ⟨commitment, -, -, hcommit⟩ |
      ⟨operator, offenseType, evidenceHash, salt, -, hage⟩ | ⟨rfl, -, -, -, hage⟩
    · rcases SlashJudge.commitChallenge_cases hcommit with ⟨-, rfl⟩
      exact .inl rfl
    · exact .inl hage
    · rcases hage with hage | ⟨newValueUs, rfl, hage, hlt⟩
      · exact .inl hage
      · exact .inr ⟨tx, newValueUs, rfl, hage, rfl, rfl, hlt⟩

/-- Once the judge is wired, the two parameters stay paired. -/
theorem Wired.step (hwired : Wired P w) (h : System.Step P w e w') : Wired P w' := by
  have hinner : ∀ {tx c}, CapacityBond.exec P.H tx w.bond c = .ok w'.bond → InnerCall c →
      w'.bond.params = w.bond.params := by
    intro tx c hexec hcall
    apply CapacityBond.exec_params _ hexec
    cases c <;> simp_all [InnerCall, CapacityBond.Call.IsSetter]
  have hunset : w.bond.params.slashJudge ≠ 0 := by
    rw [hwired.wired]
    exact hwired.judge_ne
  rcases h.age_cases with hage | ⟨tx, newValueUs, -, hage, hbond, -, hlt⟩
  · rcases h.bond_cases with hbond | ⟨tx, c, -, hexec, hkind⟩
    · exact ⟨hwired.judge_ne, by rw [hbond, hwired.wired], by rw [hage, hbond]; exact hwired.paired⟩
    · rcases hkind with rfl | hcall
      · -- The call of the event itself: what it asked the judge, the judge answered.
        rcases applyBond_cases h with ⟨-, hanswer, bond, -, -⟩
        rcases CapacityBond.exec_unbonding_params hexec with ⟨hperiod, hjudge⟩ |
          ⟨hjudge, hzero | hcovers⟩ | hzero
        · refine ⟨hwired.judge_ne, by rw [hjudge, hwired.wired], ?_⟩
          rw [hage, hperiod]
          exact hwired.paired
        · exact absurd hzero hunset
        · refine ⟨hwired.judge_ne, by rw [hjudge, hwired.wired], ?_⟩
          rcases hcovers with ⟨age, hanswered, hlt⟩
          rw [hwired.wired, hanswer] at hanswered
          rcases Option.some.inj hanswered with rfl
          rw [hage]
          exact hlt
        · exact absurd hzero hunset
      · rw [← hinner hexec hcall] at hunset
        refine ⟨hwired.judge_ne, ?_, ?_⟩
        · rw [hinner hexec hcall, hwired.wired]
        · rw [hage, hinner hexec hcall]
          exact hwired.paired
  · refine ⟨hwired.judge_ne, by rw [hbond, hwired.wired], ?_⟩
    rw [hage, hbond]
    exact hlt

/-! ## Covered requests -/

/-- Evidence from before a request is stale once the request has unlocked. -/
def Covered (t : Traced) : Prop :=
  ∀ r ∈ t.requests,
    t.sys.judge.maxEvidenceAgeUs ≤ 1000000 * (max r.unlockAt t.sys.now - r.requestedAt)

theorem Covered.step {t t' : Traced} (hwired : Wired P t.sys) (hcovered : Covered t)
    (hguard : RaiseCovered t e) (h : Traced.Step P t e t') : Covered t' := by
  rcases h.cases with ⟨hsys, hrequests⟩
  have hnow := hsys.now_le
  intro r hr
  rw [hrequests] at hr
  rcases List.mem_append.1 hr with hold | hnew
  · rcases hsys.age_cases with hage | ⟨tx, newValueUs, rfl, hage, -, htime, -⟩
    · have hle := hcovered r hold
      rw [hage]
      omega
    · have hle := hguard r hold
      rw [hage, htime]
      exact hle
  · -- A new request takes the period of its time, which is above the evidence age.
    cases e with
    | bond tx c =>
      rcases applyBond_cases hsys with ⟨-, -, bond, -, hsys'⟩
      cases c with
      | requestUnbond amount =>
        rcases List.mem_singleton.1 hnew with rfl
        have hpaired := hwired.paired
        rw [hsys']
        dsimp only
        omega
      | _ => cases hnew
    | list tx inner c => cases hnew
    | judge tx c => cases hnew
    | wait later => cases hnew

/-! ## Standing bond -/

/-- The bond that stood active at the start is still there, less slashes since; or a request made
since has unlocked. -/
def Standing (start : System) (operator : Address) (t : Traced) : Prop :=
  (withdrawnOf t.sys.bond operator + (t.sys.bond.unbondingOf operator).amount ≤
      withdrawnOf start.bond operator + (start.bond.unbondingOf operator).amount ∧
    start.bond.activeBond operator + slashedOf start.bond operator ≤
      t.sys.bond.activeBond operator + slashedOf t.sys.bond operator) ∨
  (withdrawnOf t.sys.bond operator ≤
      withdrawnOf start.bond operator + (start.bond.unbondingOf operator).amount ∧
    start.bond.activeBond operator + slashedOf start.bond operator ≤
      t.sys.bond.activeBond operator + (t.sys.bond.unbondingOf operator).amount +
        slashedOf t.sys.bond operator ∧
    ∃ r ∈ t.requests, start.now ≤ r.requestedAt ∧
      r.unlockAt = (t.sys.bond.unbondingOf operator).unlockAt) ∨
  ∃ r ∈ t.requests, start.now ≤ r.requestedAt ∧ r.unlockAt ≤ t.sys.now

theorem Standing.refl (w : System) (operator : Address) (requests : List Request) :
    Standing w operator ⟨w, requests⟩ :=
  .inl ⟨Nat.le_refl _, Nat.le_refl _⟩

/-- One move of the operator's bond keeps what stood. -/
theorem Standing.move {start : System} {operator : Address} {t t' : Traced}
    {tx : CapacityBond.Tx} {c : CapacityBond.Call} (hstart : start.now ≤ t.sys.now)
    (hnow : t.sys.now ≤ t'.sys.now) (htime : tx.timestamp = t'.sys.now)
    (hold : ∀ r ∈ t.requests, r ∈ t'.requests)
    (hnew : ∀ amount, c = .requestUnbond amount →
      ⟨tx.timestamp, tx.timestamp + t.sys.bond.params.unbondingPeriod⟩ ∈ t'.requests)
    (hstanding : Standing start operator t)
    (hmove : CapacityBond.Move tx c t.sys.bond t'.sys.bond operator) :
    Standing start operator t' := by
  rcases hstanding with ⟨hw, ha⟩ | ⟨hw, ha, r, hr, hsince, hunlock⟩ | ⟨r, hr, hsince, hunlock⟩
  · cases hmove with
    | kept hactive hqueue hslashed hwithdrawn =>
      left
      rw [hqueue, hslashed, hwithdrawn]
      exact ⟨hw, by omega⟩
    | requested amount hcall hsender hidle hactive hqueue hslashed hwithdrawn =>
      right; left
      rw [hqueue, hslashed, hwithdrawn]
      exact ⟨by omega, by dsimp only; omega, _, hnew amount hcall, by dsimp only; omega, rfl⟩
    | withdrew hunlocked hactive hqueue hslashed hwithdrawn =>
      left
      rw [hqueue, hslashed, hwithdrawn, hactive]
      exact ⟨by dsimp only; omega, ha⟩
    | slashed amount htaken hqueue hunlock hslashed hwithdrawn =>
      left
      rw [hslashed, hwithdrawn]
      exact ⟨by omega, by omega⟩
  · cases hmove with
    | kept hactive hqueue hslashed hwithdrawn =>
      right; left
      rw [hqueue, hslashed, hwithdrawn]
      exact ⟨hw, by omega, r, hold r hr, hsince, hunlock⟩
    | requested amount hcall hsender hidle hactive hqueue hslashed hwithdrawn =>
      right; left
      rw [hqueue, hslashed, hwithdrawn]
      exact ⟨hw, by dsimp only; omega, _, hnew amount hcall, by dsimp only; omega, rfl⟩
    | withdrew hunlocked hactive hqueue hslashed hwithdrawn =>
      -- The request made since the start has unlocked.
      right; right
      exact ⟨r, hold r hr, hsince, by omega⟩
    | slashed amount htaken hqueue hkeep hslashed hwithdrawn =>
      right; left
      rw [hslashed, hwithdrawn]
      exact ⟨hw, by omega, r, hold r hr, hsince, by rw [hunlock, hkeep]⟩
  · right; right
    exact ⟨r, hold r hr, hsince, by omega⟩

theorem Standing.step {start : System} {operator : Address} {t t' : Traced}
    (hinv : CapacityBond.Inv t.sys.bond) (hstart : start.now ≤ t.sys.now)
    (hstanding : Standing start operator t) (h : Traced.Step P t e t') :
    Standing start operator t' := by
  rcases h.cases with ⟨hsys, hrequests⟩
  have hold : ∀ r ∈ t.requests, r ∈ t'.requests := by
    intro r hr
    rw [hrequests]
    exact List.mem_append_left _ hr
  rcases hsys.bond_cases with hbond | ⟨tx, c, htime, hexec, hkind⟩
  · have hnow := hsys.now_le
    unfold Standing
    rw [hbond]
    rcases hstanding with hleft | ⟨hw, ha, r, hr, hsince, hunlock⟩ | ⟨r, hr, hsince, hunlock⟩
    · exact .inl hleft
    · exact .inr (.inl ⟨hw, ha, r, hold r hr, hsince, hunlock⟩)
    · exact .inr (.inr ⟨r, hold r hr, hsince, by omega⟩)
  · refine hstanding.move hstart hsys.now_le htime hold ?_ (CapacityBond.exec_move hinv hexec)
    rintro amount rfl
    rcases hkind with rfl | hcall
    · rw [hrequests]
      exact List.mem_append_right _ (List.mem_singleton_self _)
    · exact absurd hcall id

/-! ## Fresh evidence -/

/-- Wiring the judge establishes the pair. -/
theorem wired_of_setSlashJudge {tx : CapacityBond.Tx}
    (h : System.Step P w (.bond tx (.setSlashJudge P.judge)) w') : Wired P w' := by
  rcases applyBond_cases h with ⟨-, hanswer, bond, hexec, rfl⟩
  rcases CapacityBond.setSlashJudge_cases hexec with ⟨-, hjudge, ⟨age, hanswered, hlt⟩, rfl⟩
  rw [hanswer] at hanswered
  rcases Option.some.inj hanswered with rfl
  exact ⟨hjudge, rfl, hlt⟩

/-- CapacityBond's own invariant holds along a run of the system. -/
theorem bondInv_step (hinv : CapacityBond.Inv w.bond) (h : System.Step P w e w') :
    CapacityBond.Inv w'.bond := by
  rcases h.bond_cases with hbond | ⟨tx, c, -, hexec, -⟩
  · rw [hbond]
    exact hinv
  · exact hinv.exec hexec

/-- What a traced run keeps whose raises are covered. -/
structure RunInv (P : Protocol) (t : Traced) : Prop where
  bond : CapacityBond.Inv t.sys.bond
  wired : Wired P t.sys
  covered : Covered t

theorem RunInv.step {t t' : Traced} (hinv : RunInv P t) (hguard : RaiseCovered t e)
    (h : Traced.Step P t e t') : RunInv P t' :=
  ⟨bondInv_step hinv.bond h.cases.1, hinv.wired.step h.cases.1,
    hinv.covered.step hinv.wired hguard h⟩

/-- Slash before withdraw: along every run from the wiring of the judge whose raises of the
evidence age are covered, as long as evidence of time `t` is fresh, the operator has withdrawn no
more than was already queued at `t`, and the bond that stood active at `t`, less slashes since, is
still active or queued. -/
theorem slash_before_withdraw {t₀ t t' : Traced} {operator : Address} {ts : UInt64}
    (hreach : CapacityBond.Reachable P.H ⟨t₀.sys.now, t₀.sys.bond⟩) (hwired : Wired P t₀.sys)
    (hnone : t₀.requests = []) (hserve : Reaches (Traced.Step P) RaiseCovered t₀ t)
    (hlater : Reaches (Traced.Step P) RaiseCovered t t')
    (hts : ts.toNat = 1000000 * t.sys.now)
    (hfresh : SlashJudge.checkStaleness t'.sys.now t'.sys.judge ts = .ok ()) :
    withdrawnOf t'.sys.bond operator ≤
        withdrawnOf t.sys.bond operator + (t.sys.bond.unbondingOf operator).amount ∧
      t.sys.bond.activeBond operator + slashedOf t.sys.bond operator ≤
        t'.sys.bond.activeBond operator + (t'.sys.bond.unbondingOf operator).amount +
          slashedOf t'.sys.bond operator := by
  have hinit : RunInv P t₀ := by
    refine ⟨hreach.inv, hwired, ?_⟩
    intro r hr
    rw [hnone] at hr
    cases hr
  have hmid : RunInv P t :=
    hserve.invariant hinit fun a ev b hguard hstep ha => ha.step hguard hstep
  -- The invariant of the later run: besides its own, what stood at `t`.
  have hend : RunInv P t' ∧ t.sys.now ≤ t'.sys.now ∧ Standing t.sys operator t' := by
    refine hlater.invariant (I := fun u => RunInv P u ∧ t.sys.now ≤ u.sys.now ∧
      Standing t.sys operator u) ⟨hmid, Nat.le_refl _, .refl t.sys operator t.requests⟩ ?_
    rintro a ev b hguard hstep ⟨ha, hle, hstanding⟩
    exact ⟨ha.step hguard hstep, Nat.le_trans hle hstep.cases.1.now_le,
      hstanding.step ha.bond hle hstep⟩
  rcases hend with ⟨hinv, hle, hstanding⟩
  rcases hstanding with ⟨hw, ha⟩ | ⟨hw, ha, -⟩ | ⟨r, hr, hsince, hunlock⟩
  · exact ⟨by omega, by omega⟩
  · exact ⟨hw, ha⟩
  · -- Such a request makes the evidence stale.
    have hstale := hinv.covered r hr
    have hage := (SlashJudge.checkStaleness_eq_ok.mp hfresh).2
    unfold SlashJudge.ageUs at hage
    rw [max_eq_right hunlock] at hstale
    omega

/-! ## A sample deployment -/

/-- A judge whose hash reads its last word, and that accepts no evidence. -/
def sampleJudge : SlashJudge.Wiring where
  keccak256 := fun words => words.getLastD 0
  recover := fun _ _ => none
  probeTypehash := 1
  streamTypehash := 2
  decodeProbe := fun _ => none
  decodeStream := fun _ => none

def sampleProtocol : Protocol where
  H := CapacityBond.sampleWiring
  J := sampleJudge
  L := ⟨SetOps.ofLists, SetOps.ofLists⟩
  judge := 50
  blacklist := 60

/-- A CapacityBond transaction to which the judge answers `age`. -/
def bondTx (sender : Address) (timestamp age : Nat)
    (hsender : decide (sender ≠ 0) = true := by exact Eq.refl true)
    (htime : decide (timestamp ≤ u64Max) = true := by exact Eq.refl true) : CapacityBond.Tx :=
  { CapacityBond.sampleTx sender timestamp hsender htime with
    maxEvidenceAgeUs := fun _ => some age }

/-- A judge transaction; its inner calls come from the judge. -/
def judgeTx (sender : Address) (timestamp : Nat)
    (hsender : decide (sender ≠ 0) = true := by exact Eq.refl true)
    (hpos : decide (0 < timestamp) = true := by exact Eq.refl true)
    (htime : decide (timestamp ≤ u64Max) = true := by exact Eq.refl true) : SlashJudge.Tx where
  sender := sender
  sender_ne_zero := ne_zero_of_check hsender
  timestamp := timestamp
  timestamp_pos := pos_of_check hpos
  timestamp_le := le_u64Max_of_check htime
  hasRole := fun _ _ => true
  transferFrom := true
  transferOut := true
  bond := CapacityBond.sampleTx 50 timestamp (Eq.refl true) htime
  bond_timestamp := rfl

/-- Five days of evidence age against fourteen days of unbonding, just wired. -/
def sampleWired : Traced where
  sys := {
    now := 2
    bond := { CapacityBond.sampleDeployed.contract with
      params := { CapacityBond.sampleDeployed.contract.params with slashJudge := 50 }
      log := [.slashJudgeWired 50] }
    list := {
      complianceWindow := ContentBlacklist.complianceWindowDefault
      emergencyComplianceWindow := ContentBlacklist.emergencyComplianceWindowDefault }
    judge := {
      challengeBond := 1000000000000000000
      maxEvidenceAgeUs := 432000000000
      pauseDeadline := 31536002 } }
  requests := []

theorem sampleWired_reachable :
    CapacityBond.Reachable sampleProtocol.H ⟨sampleWired.sys.now, sampleWired.sys.bond⟩ :=
  (CapacityBond.sampleDeployed_reachable _).step
    (.call (bondTx 9 2 432000000000) (.setSlashJudge 50) (by decide)
      (CapacityBond.setSlashJudge_ok rfl rfl (by decide)
        (show CapacityBond.checkedMul 1209600 1000000 = .ok 1209600000000 by decide +kernel)
        ⟨432000000000, rfl, by decide +kernel⟩))

theorem sampleWired_wired : Wired sampleProtocol sampleWired.sys :=
  ⟨by decide, rfl, by decide⟩

/-- The operator bonds. -/
def sampleServe : List Event :=
  [.bond (bondTx 1 10 432000000000) (.bond 20000000000000000000000)]

/-- It requests its bond back, and governance raises both parameters, before it withdraws. -/
def sampleEscape : List Event :=
  [.bond (bondTx 1 20 432000000000) (.requestUnbond 20000000000000000000000),
    .bond (bondTx 9 30 432000000000) (.setUnbondingPeriod 5184000),
    .judge (judgeTx 9 40) (.setMaxEvidenceAge 2592000000000),
    .bond (bondTx 1 1209630 2592000000000) .unbond]

/-- The event is no call of the judge. -/
def Event.notJudge : Event → Bool
  | .judge .. => false
  | _ => true

theorem raiseCovered_of_notJudge (t : Traced) (e : Event) (h : e.notJudge = true) :
    RaiseCovered t e := by
  cases e <;> trivial

/-- With no raise in between, fresh evidence still reaches the queued bond. -/
theorem slash_before_withdraw_sample :
    ∃ t t', Reaches (Traced.Step sampleProtocol) RaiseCovered sampleWired t ∧
      Reaches (Traced.Step sampleProtocol) RaiseCovered t t' ∧
      SlashJudge.checkStaleness t'.sys.now t'.sys.judge 10000000 = .ok () ∧
      t.sys.bond.activeBond 1 + slashedOf t.sys.bond 1 ≤
        t'.sys.bond.activeBond 1 + (t'.sys.bond.unbondingOf 1).amount +
          slashedOf t'.sys.bond 1 := by
  have hrun : ((runEvents (Traced.apply sampleProtocol) (fun _ e => e.notJudge) sampleWired
      sampleServe).bind fun t => (runEvents (Traced.apply sampleProtocol) (fun _ e => e.notJudge) t
        (sampleEscape.take 2)).map fun t' => (t.sys.now,
          decide (SlashJudge.checkStaleness t'.sys.now t'.sys.judge 10000000 = .ok ()))) =
      some (10, true) := by
    decide +kernel
  rcases Option.bind_eq_some_iff.mp hrun with ⟨t, ht, hrest⟩
  rcases Option.map_eq_some_iff.mp hrest with ⟨t', ht', hfacts⟩
  simp only [Prod.mk.injEq, decide_eq_true_eq] at hfacts
  have hserve := Reaches.of_runEvents raiseCovered_of_notJudge ht
  have hlater := Reaches.of_runEvents raiseCovered_of_notJudge ht'
  refine ⟨t, t', hserve, hlater, hfacts.2, ?_⟩
  exact (slash_before_withdraw sampleWired_reachable sampleWired_wired rfl hserve hlater
    (by rw [hfacts.1]; rfl) hfacts.2).2

/-- The raise after the request lets the operator withdraw all its bond while evidence from
before the request is still accepted. -/
theorem raise_outruns_request :
    ∃ t t', Reaches (Traced.Step sampleProtocol) (fun _ _ => True) sampleWired t ∧
      Reaches (Traced.Step sampleProtocol) (fun _ _ => True) t t' ∧
      t.sys.bond.activeBond 1 = 20000000000000000000000 ∧ (t.sys.bond.unbondingOf 1).amount = 0 ∧
      (10000000 : UInt64).toNat = 1000000 * t.sys.now ∧
      SlashJudge.checkStaleness t'.sys.now t'.sys.judge 10000000 = .ok () ∧
      withdrawnOf t'.sys.bond 1 = 20000000000000000000000 ∧
      t'.sys.bond.activeBond 1 = 0 ∧ (t'.sys.bond.unbondingOf 1).amount = 0 ∧
      slashedOf t'.sys.bond 1 = 0 := by
  have hserve : (runEvents (Traced.apply sampleProtocol) (fun _ _ => true) sampleWired
      sampleServe).map (fun t => (t.sys.bond.activeBond 1, (t.sys.bond.unbondingOf 1).amount,
        t.sys.now)) = some (20000000000000000000000, 0, 10) := by
    decide +kernel
  rcases Option.map_eq_some_iff.mp hserve with ⟨t, ht, hfacts⟩
  simp only [Prod.mk.injEq] at hfacts
  have hescape : ((runEvents (Traced.apply sampleProtocol) (fun _ _ => true) sampleWired
      sampleServe).bind fun t => (runEvents (Traced.apply sampleProtocol) (fun _ _ => true) t
        sampleEscape).map fun t' =>
          (decide (SlashJudge.checkStaleness t'.sys.now t'.sys.judge 10000000 = .ok ()),
            withdrawnOf t'.sys.bond 1, t'.sys.bond.activeBond 1, (t'.sys.bond.unbondingOf 1).amount,
            slashedOf t'.sys.bond 1)) =
      some (true, 20000000000000000000000, 0, 0, 0) := by
    decide +kernel
  rw [ht, Option.bind_some] at hescape
  rcases Option.map_eq_some_iff.mp hescape with ⟨t', ht', hend⟩
  simp only [Prod.mk.injEq, decide_eq_true_eq] at hend
  refine ⟨t, t', Reaches.of_runEvents (fun _ _ _ => trivial) ht,
    Reaches.of_runEvents (fun _ _ _ => trivial) ht', hfacts.1, hfacts.2.1, ?_, hend.1, hend.2.1,
    hend.2.2.1, hend.2.2.2.1, hend.2.2.2.2⟩
  rw [hfacts.2.2]
  rfl

end Decdn.Enforcement
