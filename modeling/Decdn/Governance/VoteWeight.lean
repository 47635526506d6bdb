import Decdn.CapacityBond.State
import Decdn.Governance.FeeRouter

/-!
# Vote weights

`contracts/src/DecdnGovernor.sol`, as far as it weighs votes: an operator's served bytes, capped
by its declared capacity, then by its share of the other operators' bytes, and ramped by its age.
What CapacityBond answers is any `BondViews`.

Main results:

- Theorem `getVotes_failsOnly`: a weight underflows nowhere and divides by zero nowhere.
- Theorem `getVotes_share`: a weight is at most its share of what the others served.
- Theorem `sum_getVotes_le`: the weights add up to at most what the quorum is a part of.
- Theorem `vote_cap_and_total`: all of it, for every history.
-/

namespace Decdn.Governance

open Finset
open CapacityBond (SlashStatus)

/-! ## Constants -/

def voteCapBpsFloor : Nat := 100
def voteCapBpsCeiling : Nat := 1000
def ageRampMonthsFloor : Nat := 1
def ageRampMonthsCeiling : Nat := 24
def secondsPerMonth : Nat := 30 * 24 * 3600
def rampScale : Nat := 10 ^ 18
def bytesPerMbitSecond : Nat := 125000
def maxWindowEpochs : Nat := 26

/-! ## Data model -/

/-- What the weights read of a slash record. -/
structure SlashView where
  slashedAt : Nat
  status : SlashStatus
deriving DecidableEq, Repr

/-- The views of CapacityBond that weigh votes. -/
structure BondViews where
  firstBondedAt : Address → Nat
  declaredMbpsAtEpoch : Address → Nat → Nat
  operatorSlashCount : Address → Nat
  operatorSlashIdAt : Address → Nat → Nat
  getSlashRecord : Nat → SlashView

/-- Every way a setter reverts. -/
inductive GovernorError where
  | onlyExecutor (account : Address)
  | paramOutOfBounds (value floor ceiling : Nat)
  | voteCapNotDecreasing (newValue current : Nat)
  | unorderedInsertion
  | arith (error : ArithError)
deriving DecidableEq, Repr

/-- The governor's parameters and the timelock it executes through. -/
structure Governor where
  executor : Address
  voteCapBpsHistory : Trace
  ageRampMonthsHistory : Trace

namespace Governor

/-! ## Parameters -/

/-- `toUint48`. -/
def toUint48 (timepoint : Nat) : Except ArithError Nat :=
  Checked.bounded (2 ^ 48) .downcast timepoint

/-- A checkpoint pushed at the clock. -/
def pushAt (K : CheckpointOps) (history : Trace) (timestamp value : Nat) :
    Except GovernorError Trace :=
  match toUint48 timestamp with
  | .error e => .error (.arith e)
  | .ok key =>
    match K.push history key value with
    | some history => .ok history
    | none => .error .unorderedInsertion

/-- `onlyGovernance`. -/
def onlyGovernance (g : Governor) (sender : Address) : Except GovernorError Unit :=
  if sender = g.executor then .ok () else .error (.onlyExecutor sender)

/-- `setVoteCapBps`: decrease-only. -/
def setVoteCapBps (K : CheckpointOps) (g : Governor) (sender : Address)
    (timestamp newValue : Nat) : Except GovernorError Governor := do
  onlyGovernance g sender
  if newValue < voteCapBpsFloor then
    .error (.paramOutOfBounds newValue voteCapBpsFloor voteCapBpsCeiling)
  else if K.latest g.voteCapBpsHistory ≤ newValue then
    .error (.voteCapNotDecreasing newValue (K.latest g.voteCapBpsHistory))
  else
    let history ← pushAt K g.voteCapBpsHistory timestamp newValue
    return { g with voteCapBpsHistory := history }

/-- `setAgeRampMonths`. -/
def setAgeRampMonths (K : CheckpointOps) (g : Governor) (sender : Address)
    (timestamp newValue : Nat) : Except GovernorError Governor := do
  onlyGovernance g sender
  if newValue < ageRampMonthsFloor ∨ ageRampMonthsCeiling < newValue then
    .error (.paramOutOfBounds newValue ageRampMonthsFloor ageRampMonthsCeiling)
  else
    let history ← pushAt K g.ageRampMonthsHistory timestamp newValue
    return { g with ageRampMonthsHistory := history }

/-- The constructor. -/
def deploy (K : CheckpointOps) (executor : Address) (timestamp : Nat) :
    Except GovernorError Governor := do
  let caps ← pushAt K [] timestamp voteCapBpsCeiling
  let ramps ← pushAt K [] timestamp 6
  return ⟨executor, caps, ramps⟩

/-- The governors a deployment can become. -/
inductive Reachable (K : CheckpointOps) : Nat → Governor → Prop where
  | deployed {g : Governor} (executor : Address) (timestamp : Nat)
      (h : deploy K executor timestamp = .ok g) : Reachable K timestamp g
  | setVoteCapBps {now timestamp : Nat} {g g' : Governor} (h : Reachable K now g)
      (sender : Address) (newValue : Nat) (hnow : now ≤ timestamp)
      (hset : g.setVoteCapBps K sender timestamp newValue = .ok g') : Reachable K timestamp g'
  | setAgeRampMonths {now timestamp : Nat} {g g' : Governor} (h : Reachable K now g)
      (sender : Address) (newValue : Nat) (hnow : now ≤ timestamp)
      (hset : g.setAgeRampMonths K sender timestamp newValue = .ok g') : Reachable K timestamp g'

/-- `voteCapBpsAt`. -/
def voteCapBpsAt (K : CheckpointOps) (g : Governor) (timepoint : Nat) : Nat :=
  K.upperLookup g.voteCapBpsHistory timepoint

/-- `ageRampMonthsAt`. -/
def ageRampMonthsAt (K : CheckpointOps) (g : Governor) (timepoint : Nat) : Nat :=
  K.upperLookup g.ageRampMonthsHistory timepoint

end Governor

/-- What a weight reads, and what the histories are looked up with. -/
structure Chain where
  checkpoints : CheckpointOps
  router : Router
  governor : Governor
  bond : BondViews

namespace Chain

open Governor (toUint48)

/-! ## Votes -/

/-- `_endEpoch`: the last epoch that has fully elapsed, if there is one. -/
def endEpoch (c : Chain) (timepoint : Nat) : Except ArithError (Option Nat) := do
  let quotient ← Checked.div timepoint c.router.epochLength
  let cur := quotient % 2 ^ 64
  if cur = 0 then return none
  else
    let last ← Checked.sub cur 1
    return some last

/-- The walk over the slash records, newest first. -/
def slashWalk (b : BondViews) (account : Address) (windowStartTime timepoint : Nat) : Nat → Bool
  | 0 => false
  | i + 1 =>
    let r := b.getSlashRecord (b.operatorSlashIdAt account i)
    if r.slashedAt < windowStartTime then false
    else if r.slashedAt ≤ timepoint ∧ r.status ≠ .reversed then true
    else slashWalk b account windowStartTime timepoint i

/-- `_slashedInWindow`. -/
def slashedInWindow (c : Chain) (account : Address) (timepoint : Nat) :
    Except ArithError Bool := do
  match ← c.endEpoch timepoint with
  | none => return false
  | some last =>
    let key ← toUint48 timepoint
    let n := min (c.router.windowEpochsAt c.checkpoints key) maxWindowEpochs
    let windowStart ← Router.windowStart last n
    let windowStartTime ← Checked.mul windowStart c.router.epochLength
    return slashWalk c.bond account windowStartTime timepoint (c.bond.operatorSlashCount account)

/-- The bytes of one epoch that the declared capacity could have served. -/
def cappedEpoch (c : Chain) (account : Address) (e : Nat) : Except ArithError Nat := do
  let rate ← Checked.mul (c.bond.declaredMbpsAtEpoch account e) c.router.epochLength
  let epochCap ← Checked.mul rate bytesPerMbitSecond
  return min (c.router.bytesPerEpoch account e) epochCap

/-- The bytes of the other operators. -/
def othersOf (own total : Nat) : Except ArithError Nat :=
  if own < total then Checked.sub total own else .ok 0

/-- `_shareCap`: sized from the other operators' bytes. -/
def shareCap (c : Chain) (account : Address) (last n timepoint : Nat) : Except ArithError Nat := do
  let own ← c.router.bytesInWindow account last n
  let total ← c.router.totalBytesInWindow last n
  let others ← othersOf own total
  let key ← toUint48 timepoint
  let capBps := c.governor.voteCapBpsAt c.checkpoints key
  let product ← Checked.mul others capBps
  let divisor ← Checked.sub bpsDenominator capBps
  Checked.div product divisor

/-- `_cappedServed`. -/
def cappedServed (c : Chain) (account : Address) (timepoint : Nat) : Except ArithError Nat := do
  match ← c.endEpoch timepoint with
  | none => return 0
  | some last =>
    let key ← toUint48 timepoint
    let n := c.router.windowEpochsAt c.checkpoints key
    if n = 0 then return 0
    else
      let n := min n maxWindowEpochs
      let startEpoch ← Router.windowStart last n
      let served ← (List.range' startEpoch (last + 1 - startEpoch)).foldlM
        (fun served e => do
          let epochBytes ← c.cappedEpoch account e
          Checked.add served epochBytes) 0
      let cap ← c.shareCap account last n timepoint
      return min served cap

/-- `_ageRampScaled`. -/
def ageRampScaled (firstBondedAt timepoint rampMonths : Nat) : Except ArithError Nat :=
  if firstBondedAt = 0 then .ok 0
  else if timepoint ≤ firstBondedAt then .ok 0
  else do
    let elapsed ← Checked.sub timepoint firstBondedAt
    let horizon ← Checked.mul rampMonths secondsPerMonth
    if horizon ≤ elapsed then return rampScale
    else
      let scaled ← Checked.mul elapsed rampScale
      Checked.div scaled horizon

/-- `_getVotes`. -/
def getVotes (c : Chain) (account : Address) (timepoint : Nat) : Except ArithError Nat := do
  if ← c.slashedInWindow account timepoint then return 0
  else
    let capped ← c.cappedServed account timepoint
    if capped = 0 then return 0
    else
      let key ← toUint48 timepoint
      let ramp ← ageRampScaled (c.bond.firstBondedAt account) timepoint
        (c.governor.ageRampMonthsAt c.checkpoints key)
      let scaled ← Checked.mul capped ramp
      Checked.div scaled rampScale

/-- The total that `quorum` is a part of. -/
def quorumTotal (c : Chain) (timepoint : Nat) : Except ArithError Nat := do
  match ← c.endEpoch timepoint with
  | none => return 0
  | some last =>
    let key ← toUint48 timepoint
    c.router.totalBytesInWindow last (c.router.windowEpochsAt c.checkpoints key)

end Chain

/-! ## The parameters -/

/-- A checkpoint pushed with a property keeps it. -/
theorem Governor.pushAt_forall {K : CheckpointOps} {history history' : Trace}
    {timestamp value : Nat}
    (hpush : Governor.pushAt K history timestamp value = .ok history') {P : Nat → Prop}
    (h : ∀ c ∈ history, P c.2) (hvalue : P value) : ∀ c ∈ history', P c.2 := by
  unfold Governor.pushAt at hpush
  split at hpush
  · cases hpush
  · split at hpush
    · rename_i t ht
      cases hpush
      exact K.push_forall ht h hvalue
    · cases hpush

/-- The vote cap never rises above its ceiling. -/
theorem Governor.Reachable.cap_le {K : CheckpointOps} {now : Nat} {g : Governor}
    (h : Governor.Reachable K now g) :
    ∀ c ∈ g.voteCapBpsHistory, c.2 ≤ voteCapBpsCeiling := by
  induction h with
  | deployed executor timestamp h =>
    unfold Governor.deploy at h
    simp only [bind_eq_ok, pure_eq_ok] at h
    rcases h with ⟨caps, hcaps, ramps, -, rfl⟩
    exact Governor.pushAt_forall (P := (· ≤ voteCapBpsCeiling)) hcaps
      (fun _ hc => absurd hc List.not_mem_nil) (Nat.le_refl _)
  | setVoteCapBps h sender newValue hnow hset ih =>
    unfold Governor.setVoteCapBps at hset
    simp only [bind_eq_ok] at hset
    rcases hset with ⟨_, -, hset⟩
    split at hset
    · cases hset
    split at hset
    · cases hset
    rename_i hless
    simp only [bind_eq_ok, pure_eq_ok] at hset
    rcases hset with ⟨history, hpush, rfl⟩
    refine Governor.pushAt_forall (P := (· ≤ voteCapBpsCeiling)) hpush ih ?_
    exact Nat.le_trans (Nat.le_of_lt (Nat.lt_of_not_le hless)) (K.latest_le ih)
  | setAgeRampMonths h sender newValue hnow hset ih =>
    unfold Governor.setAgeRampMonths at hset
    simp only [bind_eq_ok] at hset
    rcases hset with ⟨_, -, hset⟩
    split at hset
    · cases hset
    simp only [bind_eq_ok, pure_eq_ok] at hset
    rcases hset with ⟨history, -, rfl⟩
    exact ih

namespace Chain

open Governor (toUint48)

variable {c : Chain} {account : Address} {timepoint last n : Nat}

/-! ## The window of a vote -/

/-- The epochs a vote at `timepoint` counts. -/
def voteWindow (c : Chain) (timepoint : Nat) : List Nat :=
  match c.endEpoch timepoint with
  | .ok (some last) => Router.windowOf last (c.router.windowEpochsAt c.checkpoints timepoint)
  | _ => []

/-- The bytes of an operator in that window. -/
def ownBytes (c : Chain) (timepoint : Nat) (account : Address) : Nat :=
  ((c.voteWindow timepoint).map (c.router.bytesPerEpoch account)).sum

/-- The bytes of all other operators in that window. -/
noncomputable def otherBytes (c : Chain) (timepoint : Nat) (account : Address) : Nat :=
  ∑ b ∈ univ.erase account, c.ownBytes timepoint b

/-- Sums over a list and over the accounts change places. -/
theorem sum_map_sum (f : Address → Nat → Nat) (xs : List Nat) :
    (xs.map fun e => ∑ a, f a e).sum = ∑ a, (xs.map (f a)).sum := by
  induction xs with
  | nil => exact (sum_eq_zero fun _ _ => rfl).symm
  | cons x xs ih =>
    simp only [List.map_cons, List.sum_cons]
    rw [ih, sum_add_distrib]

/-- The totals of the window are the bytes of all operators. -/
theorem total_eq (h : c.router.Inv) (timepoint : Nat) :
    ((c.voteWindow timepoint).map c.router.totalBytesPerEpoch).sum =
      ∑ a, c.ownBytes timepoint a := by
  have htally : c.router.totalBytesPerEpoch = fun e => ∑ a, c.router.bytesPerEpoch a e :=
    funext h.tally
  rw [htally]
  exact sum_map_sum c.router.bytesPerEpoch (c.voteWindow timepoint)

/-- One's own bytes and the others' are all of them. -/
theorem own_add_others (c : Chain) (timepoint : Nat) (account : Address) :
    c.ownBytes timepoint account + c.otherBytes timepoint account =
      ∑ a, c.ownBytes timepoint a :=
  add_sum_erase univ (c.ownBytes timepoint) (mem_univ account)

/-- Clamping the length once more leaves the window. -/
theorem windowOf_clamp (last n : Nat) :
    Router.windowOf last (min n maxWindowEpochs) = Router.windowOf last n := by
  have hmin : min (min n maxWindowEpochs) windowEpochsCeiling = min n windowEpochsCeiling := by
    unfold maxWindowEpochs windowEpochsCeiling
    omega
  unfold Router.windowOf
  by_cases hn : n = 0
  · rw [if_pos hn, if_pos (by rw [hn, Nat.zero_min])]
  · have hpos : min n maxWindowEpochs ≠ 0 := by
      unfold maxWindowEpochs
      omega
    rw [if_neg hn, if_neg hpos, hmin]

/-! ## The bounds -/

/-- The ramp is at most the whole. -/
theorem ageRampScaled_le {firstBondedAt rampMonths ramp : Nat}
    (h : ageRampScaled firstBondedAt timepoint rampMonths = .ok ramp) : ramp ≤ rampScale := by
  unfold ageRampScaled at h
  split at h
  · cases h
    exact Nat.zero_le _
  split at h
  · cases h
    exact Nat.zero_le _
  rcases bind_eq_ok.mp h with ⟨elapsed, -, h⟩
  rcases bind_eq_ok.mp h with ⟨horizon, -, h⟩
  split at h
  · rw [pure_eq_ok] at h
    exact Nat.le_of_eq h.symm
  · rename_i hyoung
    rcases bind_eq_ok.mp h with ⟨scaled, hscaled, h⟩
    rw [(Checked.div_eq_ok.mp h).2, (Checked.mul_eq_ok.mp hscaled).2]
    exact Nat.div_le_of_le_mul (Nat.mul_le_mul_right _ (Nat.le_of_not_le hyoung))

/-- Capacity caps bytes and grants none. -/
theorem cappedEpoch_le {e bytes : Nat} (h : c.cappedEpoch account e = .ok bytes) :
    bytes ≤ c.router.bytesPerEpoch account e := by
  unfold cappedEpoch at h
  simp only [bind_eq_ok, pure_eq_ok] at h
  rcases h with ⟨_, -, _, -, rfl⟩
  exact Nat.min_le_left _ _

/-- The loop over the epochs adds up no more than the bytes. -/
theorem served_le {epochs : List Nat} {start served : Nat}
    (h : epochs.foldlM (fun served e => do
      let epochBytes ← c.cappedEpoch account e
      Checked.add served epochBytes) start = .ok served) :
    served ≤ start + (epochs.map (c.router.bytesPerEpoch account)).sum := by
  induction epochs generalizing start with
  | nil =>
    rw [List.foldlM_nil, pure_eq_ok] at h
    exact Nat.le_of_eq h.symm
  | cons e epochs ih =>
    rw [List.foldlM_cons, bind_eq_ok] at h
    rcases h with ⟨next, hnext, hrest⟩
    rcases bind_eq_ok.mp hnext with ⟨bytes, hbytes, hadd⟩
    have hle := cappedEpoch_le hbytes
    have hmore := ih hrest
    rw [(Checked.add_eq_ok.mp hadd).2] at hmore
    rw [List.map_cons, List.sum_cons]
    omega

/-- The share cap is a share of what the others served. -/
theorem shareCap_le {cap : Nat} (h : c.shareCap account last n timepoint = .ok cap) :
    cap * (bpsDenominator - c.governor.voteCapBpsAt c.checkpoints timepoint) ≤
      (((Router.windowOf last n).map c.router.totalBytesPerEpoch).sum -
        ((Router.windowOf last n).map (c.router.bytesPerEpoch account)).sum) *
          c.governor.voteCapBpsAt c.checkpoints timepoint := by
  unfold shareCap at h
  rcases bind_eq_ok.mp h with ⟨own, hown, h⟩
  rcases bind_eq_ok.mp h with ⟨total, htotal, h⟩
  rcases bind_eq_ok.mp h with ⟨others, hothers, h⟩
  simp only [bind_eq_ok] at h
  rcases h with ⟨key, hkey, product, hproduct, divisor, hdivisor, h⟩
  rw [(Checked.bounded_eq_ok.mp hkey).2] at hproduct hdivisor
  have hrest : others = total - own := by
    unfold othersOf at hothers
    split at hothers
    · exact (Checked.sub_eq_ok.mp hothers).2
    · rename_i hge
      cases hothers
      omega
  rw [(Checked.div_eq_ok.mp h).2, (Checked.mul_eq_ok.mp hproduct).2,
    (Checked.sub_eq_ok.mp hdivisor).2, hrest, Router.sumInWindow_eq_ok hown,
    Router.sumInWindow_eq_ok htotal]
  exact Nat.div_mul_le_self _ _

/-- What a vote is at most, before its ramp: the account's bytes, and its share of the others'. -/
theorem cappedServed_spec (h : c.router.Inv) {served : Nat}
    (hserved : c.cappedServed account timepoint = .ok served) :
    served ≤ c.ownBytes timepoint account ∧
      served * (bpsDenominator - c.governor.voteCapBpsAt c.checkpoints timepoint) ≤
        c.otherBytes timepoint account * c.governor.voteCapBpsAt c.checkpoints timepoint := by
  have hzero : 0 ≤ c.ownBytes timepoint account ∧
      0 * (bpsDenominator - c.governor.voteCapBpsAt c.checkpoints timepoint) ≤
        c.otherBytes timepoint account * c.governor.voteCapBpsAt c.checkpoints timepoint := by
    rw [Nat.zero_mul]
    exact ⟨Nat.zero_le _, Nat.zero_le _⟩
  unfold cappedServed at hserved
  rcases bind_eq_ok.mp hserved with ⟨last, hlast, hserved⟩
  cases last with
  | none =>
    cases hserved
    exact hzero
  | some last =>
    rcases bind_eq_ok.mp hserved with ⟨key, hkey, hserved⟩
    rw [(Checked.bounded_eq_ok.mp hkey).2] at hserved
    dsimp only at hserved
    split at hserved
    · cases hserved
      exact hzero
    · rename_i hn
      rcases bind_eq_ok.mp hserved with ⟨start, hstart, hserved⟩
      rcases bind_eq_ok.mp hserved with ⟨bytes, hbytes, hserved⟩
      rcases bind_eq_ok.mp hserved with ⟨cap, hcap, hserved⟩
      rw [pure_eq_ok] at hserved
      have hwindow : c.voteWindow timepoint =
          Router.windowOf last (c.router.windowEpochsAt c.checkpoints timepoint) := by
        unfold voteWindow
        rw [hlast]
      have hepochs : List.range' start (last + 1 - start) = c.voteWindow timepoint := by
        rw [hwindow, Router.windowStart_eq_ok hstart]
        unfold Router.windowOf
        rw [if_neg hn]
        rfl
      have hown := served_le hbytes
      have hshare := shareCap_le hcap
      rw [hepochs, Nat.zero_add] at hown
      rw [windowOf_clamp, ← hwindow, total_eq h] at hshare
      have hothers : (∑ a, c.ownBytes timepoint a) -
          ((c.voteWindow timepoint).map (c.router.bytesPerEpoch account)).sum =
            c.otherBytes timepoint account := by
        rw [← c.own_add_others timepoint account]
        exact Nat.add_sub_cancel_left _ _
      rw [hothers] at hshare
      rw [← hserved]
      refine ⟨Nat.le_trans (Nat.min_le_left _ _) hown, Nat.le_trans ?_ hshare⟩
      exact Nat.mul_le_mul_right _ (Nat.min_le_right _ _)

/-- A vote is at most what is served of it. -/
theorem getVotes_spec (h : c.router.Inv) {votes : Nat}
    (hvotes : c.getVotes account timepoint = .ok votes) :
    votes ≤ c.ownBytes timepoint account ∧
      votes * (bpsDenominator - c.governor.voteCapBpsAt c.checkpoints timepoint) ≤
        c.otherBytes timepoint account * c.governor.voteCapBpsAt c.checkpoints timepoint := by
  have hzero : 0 ≤ c.ownBytes timepoint account ∧
      0 * (bpsDenominator - c.governor.voteCapBpsAt c.checkpoints timepoint) ≤
        c.otherBytes timepoint account * c.governor.voteCapBpsAt c.checkpoints timepoint := by
    rw [Nat.zero_mul]
    exact ⟨Nat.zero_le _, Nat.zero_le _⟩
  unfold getVotes at hvotes
  rcases bind_eq_ok.mp hvotes with ⟨slashed, -, hvotes⟩
  split at hvotes
  · cases hvotes
    exact hzero
  rcases bind_eq_ok.mp hvotes with ⟨capped, hcapped, hvotes⟩
  split at hvotes
  · cases hvotes
    exact hzero
  simp only [bind_eq_ok] at hvotes
  rcases hvotes with ⟨key, -, ramp, hramp, scaled, hscaled, hvotes⟩
  rcases cappedServed_spec h hcapped with ⟨hown, hshare⟩
  have hle : votes ≤ capped := by
    rw [(Checked.div_eq_ok.mp hvotes).2, (Checked.mul_eq_ok.mp hscaled).2]
    refine Nat.div_le_of_le_mul ?_
    rw [Nat.mul_comm]
    exact Nat.mul_le_mul_right _ (ageRampScaled_le hramp)
  exact ⟨Nat.le_trans hle hown, Nat.le_trans (Nat.mul_le_mul_right _ hle) hshare⟩

/-! ## Reasons to revert -/

/-- The reasons that are neither an underflow nor a division by zero. -/
def Harmless (e : ArithError) : Prop := e = .overflow ∨ e = .downcast

theorem toUint48_failsOnly (n : Nat) : Checked.FailsOnly Harmless (toUint48 n) :=
  .bounded (.inr rfl) _ _

theorem endEpoch_failsOnly (h : c.router.Inv) (timepoint : Nat) :
    Checked.FailsOnly Harmless (c.endEpoch timepoint) := by
  unfold endEpoch
  refine .bind (.div h.epoch_pos _) fun quotient _ => ?_
  dsimp only
  split
  · exact .pure none
  · rename_i hcur
    exact .bind (.sub (Nat.pos_of_ne_zero hcur)) fun last _ => .pure _

theorem windowStart_failsOnly (last n : Nat) :
    Checked.FailsOnly Harmless (Router.windowStart last n) := by
  unfold Router.windowStart
  refine .bind (.bounded (.inl rfl) _ _) fun next _ => ?_
  split
  · rename_i hlt
    exact .sub (Nat.le_of_lt hlt)
  · exact .pure 0

theorem slashedInWindow_failsOnly (h : c.router.Inv) (account : Address) (timepoint : Nat) :
    Checked.FailsOnly Harmless (c.slashedInWindow account timepoint) := by
  unfold slashedInWindow
  refine .bind (endEpoch_failsOnly h timepoint) fun last _ => ?_
  cases last with
  | none => exact .pure false
  | some last =>
    refine .bind (toUint48_failsOnly timepoint) fun key _ => ?_
    refine .bind (windowStart_failsOnly _ _) fun start _ => ?_
    exact .bind (.mul (.inl rfl) _ _) fun time _ => .pure _

theorem shareCap_failsOnly (hcap : ∀ k ∈ c.governor.voteCapBpsHistory, k.2 ≤ voteCapBpsCeiling)
    (account : Address) (last n timepoint : Nat) :
    Checked.FailsOnly Harmless (c.shareCap account last n timepoint) := by
  unfold shareCap
  refine .bind (Router.sumInWindow_failsOnly (.inl rfl) _ _ _) fun own _ => ?_
  refine .bind (Router.sumInWindow_failsOnly (.inl rfl) _ _ _) fun total _ => ?_
  have hothers : Checked.FailsOnly Harmless (othersOf own total) := by
    unfold othersOf
    split
    · rename_i hlt
      exact .sub (Nat.le_of_lt hlt)
    · exact .ok 0
  refine .bind hothers fun others _ => ?_
  refine .bind (toUint48_failsOnly timepoint) fun key _ => ?_
  refine .bind (.mul (.inl rfl) _ _) fun product _ => ?_
  have hle : c.governor.voteCapBpsAt c.checkpoints key < bpsDenominator :=
    Nat.lt_of_le_of_lt (c.checkpoints.upperLookup_le hcap key) (by decide)
  refine .bind (.sub (Nat.le_of_lt hle)) fun divisor hdivisor => ?_
  rw [(Checked.sub_eq_ok.mp hdivisor).2]
  exact .div (Nat.sub_ne_zero_of_lt hle) _

theorem cappedServed_failsOnly (h : c.router.Inv)
    (hcap : ∀ k ∈ c.governor.voteCapBpsHistory, k.2 ≤ voteCapBpsCeiling) (account : Address)
    (timepoint : Nat) : Checked.FailsOnly Harmless (c.cappedServed account timepoint) := by
  unfold cappedServed
  refine .bind (endEpoch_failsOnly h timepoint) fun last _ => ?_
  cases last with
  | none => exact .pure 0
  | some last =>
    refine .bind (toUint48_failsOnly timepoint) fun key _ => ?_
    dsimp only
    split
    · exact .pure 0
    · refine .bind (windowStart_failsOnly _ _) fun start _ => ?_
      refine .bind (.foldlM (fun served e _ => ?_) 0) fun served _ => ?_
      · refine .bind ?_ fun bytes _ => .add (.inl rfl) _ _
        unfold cappedEpoch
        exact .bind (.mul (.inl rfl) _ _) fun rate _ =>
          .bind (.mul (.inl rfl) _ _) fun cap _ => .pure _
      · exact .bind (shareCap_failsOnly hcap _ _ _ _) fun cap _ => .pure _

theorem ageRampScaled_failsOnly (firstBondedAt timepoint rampMonths : Nat) :
    Checked.FailsOnly Harmless (ageRampScaled firstBondedAt timepoint rampMonths) := by
  unfold ageRampScaled
  split
  · exact .ok 0
  split
  · exact .ok 0
  rename_i hlater
  refine .bind (.sub (Nat.le_of_not_le hlater)) fun elapsed _ => ?_
  refine .bind (.mul (.inl rfl) _ _) fun horizon _ => ?_
  split
  · exact .pure rampScale
  · rename_i hyoung
    refine .bind (.mul (.inl rfl) _ _) fun scaled _ => ?_
    exact .div (Nat.ne_zero_of_lt (Nat.lt_of_not_le hyoung)) _

/-- A vote underflows nowhere and divides by zero nowhere. -/
theorem getVotes_failsOnly (h : c.router.Inv)
    (hcap : ∀ k ∈ c.governor.voteCapBpsHistory, k.2 ≤ voteCapBpsCeiling) (account : Address)
    (timepoint : Nat) : Checked.FailsOnly Harmless (c.getVotes account timepoint) := by
  unfold getVotes
  refine .bind (slashedInWindow_failsOnly h account timepoint) fun slashed _ => ?_
  split
  · exact .pure 0
  refine .bind (cappedServed_failsOnly h hcap account timepoint) fun capped _ => ?_
  split
  · exact .pure 0
  refine .bind (toUint48_failsOnly timepoint) fun key _ => ?_
  refine .bind (ageRampScaled_failsOnly _ _ _) fun ramp _ => ?_
  refine .bind (.mul (.inl rfl) _ _) fun scaled _ => ?_
  exact .div (by decide) _

/-! ## The vote cap and the total -/

/-- The quorum is a part of the window's total. -/
theorem quorumTotal_eq_ok {total : Nat} (h : c.quorumTotal timepoint = .ok total) :
    total = ((c.voteWindow timepoint).map c.router.totalBytesPerEpoch).sum := by
  unfold quorumTotal at h
  unfold voteWindow
  rcases bind_eq_ok.mp h with ⟨last, hlast, h⟩
  rw [hlast]
  cases last with
  | none =>
    cases h
    rfl
  | some last =>
    rcases bind_eq_ok.mp h with ⟨key, hkey, h⟩
    rw [(Checked.bounded_eq_ok.mp hkey).2] at h
    exact Router.sumInWindow_eq_ok h

/-- The votes an account has; none, when the computation reverts. -/
def votesOf (c : Chain) (timepoint : Nat) (account : Address) : Nat :=
  (c.getVotes account timepoint).toOption.getD 0

/-- An account has at most the votes of its bytes. -/
theorem votesOf_le (h : c.router.Inv) (timepoint : Nat) (account : Address) :
    c.votesOf timepoint account ≤ c.ownBytes timepoint account := by
  unfold votesOf
  cases hvotes : c.getVotes account timepoint with
  | error e => exact Nat.zero_le _
  | ok votes => exact (getVotes_spec h hvotes).1

/-- A share of the others is a share of the others and oneself. -/
theorem share_of_all {votes others cap : Nat} (hcap : cap ≤ bpsDenominator)
    (h : votes * (bpsDenominator - cap) ≤ others * cap) :
    bpsDenominator * votes ≤ cap * (others + votes) := by
  calc bpsDenominator * votes = votes * (bpsDenominator - cap) + votes * cap := by
        rw [← Nat.mul_add, Nat.sub_add_cancel hcap, Nat.mul_comm]
    _ ≤ others * cap + votes * cap := Nat.add_le_add_right h _
    _ = cap * (others + votes) := by rw [← Nat.add_mul, Nat.mul_comm]

/-- A settlement history that differs in the account's own bytes only. -/
structure OwnDiffers (account : Address) (c c' : Chain) : Prop where
  checkpoints : c'.checkpoints = c.checkpoints
  governor : c'.governor = c.governor
  epochLength : c'.router.epochLength = c.router.epochLength
  history : c'.router.windowEpochsHistory = c.router.windowEpochsHistory
  others : ∀ b, b ≠ account → c'.router.bytesPerEpoch b = c.router.bytesPerEpoch b

/-- The others' bytes are the same then. -/
theorem OwnDiffers.otherBytes {c' : Chain} (h : OwnDiffers account c c') (timepoint : Nat) :
    c'.otherBytes timepoint account = c.otherBytes timepoint account := by
  have hend : c'.endEpoch timepoint = c.endEpoch timepoint := by
    unfold endEpoch
    rw [h.epochLength]
  have hwindow : c'.voteWindow timepoint = c.voteWindow timepoint := by
    unfold voteWindow Router.windowEpochsAt
    rw [hend, h.history, h.checkpoints]
  unfold Chain.otherBytes ownBytes
  refine sum_congr rfl fun b hb => ?_
  rw [hwindow, h.others b (ne_of_mem_erase hb)]

/-- For every settlement history, every timepoint and whatever CapacityBond answers: each account's
votes are at most the vote cap's part of them and of the others' bytes, also when the account's own
bytes, tier or age differ; the votes add up to at most the total that the quorum is a part of; the
total of each epoch is the sum of the operators' bytes; and no vote underflows or divides by
zero. -/
theorem vote_cap_and_total {now later : Nat} (hrouter : Router.Reachable c.checkpoints now c.router)
    (hgovernor : Governor.Reachable c.checkpoints later c.governor) (timepoint : Nat) :
    (∀ account votes, c.getVotes account timepoint = .ok votes →
      bpsDenominator * votes ≤
        c.governor.voteCapBpsAt c.checkpoints timepoint *
          (c.otherBytes timepoint account + votes)) ∧
      (∀ account c' now', Router.Reachable c'.checkpoints now' c'.router → OwnDiffers account c c' →
        ∀ votes, c'.getVotes account timepoint = .ok votes →
          bpsDenominator * votes ≤ c.governor.voteCapBpsAt c.checkpoints timepoint *
            (c.otherBytes timepoint account + votes)) ∧
      (∀ total, c.quorumTotal timepoint = .ok total →
        ∑ account, c.votesOf timepoint account ≤ total) ∧
      (∀ e, c.router.totalBytesPerEpoch e = ∑ account, c.router.bytesPerEpoch account e) ∧
      ∀ account e, c.getVotes account timepoint = .error e →
        e ≠ .underflow ∧ e ≠ .divisionByZero := by
  have h := hrouter.inv
  have hle : c.governor.voteCapBpsAt c.checkpoints timepoint ≤ bpsDenominator :=
    Nat.le_trans (c.checkpoints.upperLookup_le hgovernor.cap_le timepoint) (by decide)
  refine ⟨?_, ?_, ?_, h.tally, ?_⟩
  · intro account votes hvotes
    exact share_of_all hle (getVotes_spec h hvotes).2
  · intro account c' now' hrouter' hdiffers votes hvotes
    have hshare := (getVotes_spec hrouter'.inv hvotes).2
    rw [hdiffers.governor, hdiffers.checkpoints, hdiffers.otherBytes] at hshare
    exact share_of_all hle hshare
  · intro total htotal
    rw [quorumTotal_eq_ok htotal, total_eq h]
    exact sum_le_sum fun account _ => votesOf_le h timepoint account
  · intro account e he
    rcases getVotes_failsOnly h hgovernor.cap_le account timepoint e he with rfl | rfl
    · exact ⟨nofun, nofun⟩
    · exact ⟨nofun, nofun⟩

/-! ## A vote -/

/-- A deployment with administrator 9. -/
def sampleDeployment : Router.Deployment where
  this := 100
  usdc := 101
  capacityBond := 102
  bondEpoch := 10000000
  treasury := 103
  epochLength := 10000000
  windowEpochs := 13
  admin := 9
  initialShares := ⟨9000, 0, 1000⟩
  buybackBurner := 0

/-- A call at a time, with a token that always pays. -/
def sampleTx (sender : Address) (timestamp : Nat) : RouterTx :=
  ⟨sender, timestamp, fun _ _ _ => true⟩

/-- Two settlements in the second epoch. -/
def sampleCalls : List (RouterTx × Router.Call) :=
  [(sampleTx 9 2, .grantRole .routerCaller 7),
    (sampleTx 7 15000000, .routeSettlement 3 5000 100),
    (sampleTx 7 15000001, .routeSettlement 4 90000 1800)]

/-- The routers they lead to, and the governor deployed beside it. -/
def sampleChain : Option (Nat × Chain) := do
  let router ← (Router.deploy .ofLists sampleDeployment 1).toOption
  let governor ← (Governor.deploy .ofLists 8 1).toOption
  let (now, router) ← runEvents (Router.applyCall .ofLists) (fun _ _ => true) (1, router)
    sampleCalls
  return (now, ⟨.ofLists, router, governor, ⟨fun _ => 1, fun _ _ => 1, fun _ => 0, fun _ _ => 0,
    fun _ => ⟨0, .none⟩⟩⟩)

/-- Six months on, operator 3 votes with its 5000 bytes and operator 4 with a ninth of them. -/
theorem vote_cap_and_total_sample :
    ∃ c : Chain, c.getVotes 3 25000000 = .ok 5000 ∧ c.getVotes 4 25000000 = .ok 555 ∧
      bpsDenominator * 555 ≤
        c.governor.voteCapBpsAt c.checkpoints 25000000 * (c.otherBytes 25000000 4 + 555) := by
  have hrun : sampleChain.map (fun r => ((r.2.getVotes 3 25000000).toOption,
      (r.2.getVotes 4 25000000).toOption)) = some (some 5000, some 555) := by
    decide +kernel
  rcases Option.map_eq_some_iff.mp hrun with ⟨⟨now, c⟩, hc, hvotes⟩
  rcases Prod.mk.inj hvotes with ⟨hthree, hfour⟩
  unfold sampleChain at hc
  rcases Option.bind_eq_some_iff.mp hc with ⟨router, hrouter, hc⟩
  rcases Option.bind_eq_some_iff.mp hc with ⟨governor, hgovernor, hc⟩
  rcases Option.bind_eq_some_iff.mp hc with ⟨⟨now', router'⟩, hcalls, hc⟩
  cases hc
  have hreach := Router.Reachable.of_runEvents (w := (1, router))
    (.deployed sampleDeployment 1 (toOption_eq_some.mp hrouter)) hcalls
  have hfour' := toOption_eq_some.mp hfour
  exact ⟨_, toOption_eq_some.mp hthree, hfour', (vote_cap_and_total hreach
    (.deployed 8 1 (toOption_eq_some.mp hgovernor)) 25000000).1 4 555 hfour'⟩

end Chain

end Decdn.Governance
