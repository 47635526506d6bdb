import Decdn.Client.Ledger
import Decdn.Foundations.Runs
import Mathlib.Algebra.BigOperators.Group.List.Basic

/-!
# What a payer paid

`PoolLedger::paid_bytes` is the committed claim above a baseline: the seed, moved by
every heal.  This file follows a ledger through all that a lane does with it, each send
in two steps, and keeps beside it the bytes of the lane's own proofs.

Main results:

- Theorem `sum_dropBytes`: what a watermark below the claim leaves of the own proofs.
- Theorem `BaselineInv.step`: the baseline stays at or below every anchor the lane can
  go back to.
- Theorem `TallyInv.step`: the own proofs add up to the claim above the baseline.
- Theorem `paid_bytes_exact`: so the paid bytes never saturate, and add up the own
  proofs.
-/

namespace Decdn.Client

open Incentive
open PoolLedger (Issue)

/-- `PoolLedger::paid_bytes`. -/
def PoolLedger.paidBytes (l : PoolLedger) : Nat :=
  l.pipeline.owed.bytes - l.pipeline.baseline.bytes

/-! ## Dropped proofs -/

/-- Drop bytes from the newest proof on: the proof that the cut falls into keeps what lies
below the cut. -/
def dropBytes : Nat → List Nat → List Nat
  | _, [] => []
  | n, b :: own => if b ≤ n then dropBytes (n - b) own else (b - n) :: own

/-- The bytes left add up to what the cut leaves. -/
theorem sum_dropBytes (n : Nat) (own : List Nat) : (dropBytes n own).sum = own.sum - n := by
  induction own generalizing n with
  | nil => simp [dropBytes]
  | cons b own ih =>
    unfold dropBytes
    rw [List.sum_cons]
    split
    · rw [ih]
      omega
    · rw [List.sum_cons]
      omega

/-! ## Runs of a lane -/

/-- A proof on its way: a voucher with the bytes it pays for, or a reveal. -/
inductive Sending where
  | voucher (issue : Issue) (deltaBytes : Nat)
  | reveal (released : Released) (chunkPrice : Nat)

/-- The ledger and the proof whose send holds the issuance lock.  For the proof only: the bytes
of the lane's own proofs that were sent and neither refused nor dropped by a heal, the newest
first; the bytes that the armed voucher pays for; and whether the claim has moved since it was
armed. -/
structure PaidRun where
  ledger : PoolLedger
  sending : Option Sending := none
  own : List Nat := []
  unconfirmed : Nat := 0
  moved : Bool := false

/-- A ledger just built. -/
def PaidRun.start (seed : Cumulative) : PaidRun where
  ledger := .new seed

/-- What a lane does with its ledger.  A send starts with `issue` or `meter` and ends with
`delivered` or `lost`; rejections and reseeds take no lock and may come in between. -/
inductive PaidEvent where
  | issue (deltaBytes ratePerMb : UInt64) (action : EpochAction) (preimages : Nat → Bytes32)
  | meter (anchored : Option Bytes32)
  | delivered
  | lost
  | reject (rejected : StreamProof)
  | reseed (cum : Cumulative)
  | rebase (cum : Cumulative) (proofGeneration : Option Nat)
  | rebaseAheadOnBytes (cum : Cumulative) (proofGeneration : Option Nat)
  | retireUnadoptedChain (bundle : Cumulative)

/-- The armed voucher, whose send did not confirm, claims more than the ledger. -/
def PaidRun.armedAhead (s : PaidRun) : Bool :=
  s.ledger.pipeline.armed.any fun armed =>
    decide (s.ledger.pipeline.owed.amount < armed.voucher.amount)

/-- The unconfirmed bytes that the next voucher or fold builds on, and which count from then on. -/
def PaidRun.carried (s : PaidRun) : Nat := if s.armedAhead then s.unconfirmed else 0

/-- A heal to a watermark drops the own proofs above it. -/
def PaidRun.healed (s : PaidRun) (ledger : PoolLedger) (cum : Cumulative) : PaidRun :=
  { s with ledger := ledger, own := dropBytes (s.ledger.pipeline.owed.bytes - cum.bytes) s.own }

/-- A rebase, if it moved the ledger. -/
def PaidRun.rebased (s : PaidRun) (out : PoolLedger × PoolLedger.Rebase) (cum : Cumulative) :
    PaidRun :=
  match out with
  | (ledger, .rebased _) => s.healed ledger cum
  | (_, .stale) | (_, .refused) => s

/-- One step, if it is enabled. -/
def PaidRun.apply (s : PaidRun) : PaidEvent → Option PaidRun
  | .issue deltaBytes ratePerMb action preimages =>
    match s.sending with
    | some _ => none
    | none =>
      let armed := s.ledger.issueArm deltaBytes.toNat ratePerMb.toNat action preimages
      some { s with
        ledger := armed.1
        sending := some (.voucher armed.2 (s.carried + deltaBytes.toNat))
        unconfirmed := s.carried + deltaBytes.toNat
        moved := false }
  | .meter anchored =>
    match s.sending, s.ledger.meterRead anchored with
    | none, .released released chunkPrice =>
      some { s with sending := some (.reveal released chunkPrice) }
    | _, _ => none
  | .delivered =>
    match s.sending with
    | some (.voucher issue deltaBytes) =>
      if issue.fitsWire then
        some { ledger := s.ledger.issueCommit issue, own := deltaBytes :: s.own }
      else none
    | some (.reveal released chunkPrice) =>
      some { s with
        ledger := s.ledger.meterAdvance released chunkPrice
        sending := none
        own := chunkBytes :: s.own
        moved := true }
    | none => none
  | .lost => some { s with sending := none }
  | .reject rejected =>
    some { s with
      ledger := (s.ledger.resolveReject rejected).1
      own := if s.ledger.rewinds rejected then s.own.tail else s.own
      moved := s.moved || s.ledger.rewinds rejected }
  | .reseed cum =>
    if (s.ledger.reseed cum).2 then some (s.healed (s.ledger.reseed cum).1 cum) else some s
  | .rebase cum proofGeneration =>
    match s.sending with
    | some _ => none
    | none => some (s.rebased (s.ledger.rebase cum proofGeneration) cum)
  | .rebaseAheadOnBytes cum proofGeneration =>
    match s.sending with
    | some _ => none
    | none => some (s.rebased (s.ledger.rebaseAheadOnBytes cum proofGeneration) cum)
  | .retireUnadoptedChain bundle =>
    match s.sending with
    | some _ => none
    | none =>
      match s.ledger.retireUnadoptedChain bundle with
      | (ledger, some _) => some { s with ledger := ledger, own := s.carried :: s.own }
      | (_, none) => some s

/-- One enabled step. -/
def PaidRun.step (s : PaidRun) (e : PaidEvent) (s' : PaidRun) : Prop := s.apply e = some s'

/-! ## Guards -/

/-- A total of 256-bit words. -/
def Cumulative.Fits (c : Cumulative) : Prop := c.bytes < U256.modulus ∧ c.amount < U256.modulus

instance (c : Cumulative) : Decidable c.Fits :=
  inferInstanceAs (Decidable (c.bytes < U256.modulus ∧ c.amount < U256.modulus))

/-- A voucher is being sent. -/
def PaidRun.voucherUnderWay (s : PaidRun) : Bool :=
  match s.sending with
  | some (.voucher _ _) => true
  | _ => false

/-- Watermarks are 256-bit words, and no reseed moves the ledger while a voucher is being
sent. -/
def PaidEvent.Calm (s : PaidRun) : PaidEvent → Prop
  | .reseed cum => cum.Fits ∧ (s.voucherUnderWay = true → (s.ledger.reseed cum).2 = false)
  | .rebase cum _ | .rebaseAheadOnBytes cum _ => cum.Fits
  | _ => True

/-- Nothing builds on an unconfirmed voucher after a reveal or a rejection has moved the claim
since it was armed; no proof is rewound while a voucher that builds on it is being sent; and no
sum saturates. -/
def PaidEvent.Plain (s : PaidRun) : PaidEvent → Prop
  | .issue deltaBytes _ _ _ => (s.armedAhead = true → s.moved = false) ∧
    s.ledger.settlement.bytes + deltaBytes.toNat < U256.modulus
  | .delivered => s.voucherUnderWay = false →
    s.ledger.pipeline.committed.bytes + s.ledger.pipeline.accrued.bytes + chunkBytes < U256.modulus
  | .reject rejected => s.voucherUnderWay = true → s.ledger.rewinds rejected = false
  | .retireUnadoptedChain _ => s.armedAhead = true → s.moved = false
  | _ => True

instance (s : PaidRun) (e : PaidEvent) : Decidable (e.Calm s) :=
  match e with
  | .reseed cum => inferInstanceAs
    (Decidable (cum.Fits ∧ (s.voucherUnderWay = true → (s.ledger.reseed cum).2 = false)))
  | .rebase cum _ | .rebaseAheadOnBytes cum _ => inferInstanceAs (Decidable cum.Fits)
  | .issue _ _ _ _ | .meter _ | .delivered | .lost | .reject _ | .retireUnadoptedChain _ =>
    isTrue trivial

instance (s : PaidRun) (e : PaidEvent) : Decidable (e.Plain s) :=
  match e with
  | .issue deltaBytes _ _ _ => inferInstanceAs
    (Decidable ((s.armedAhead = true → s.moved = false) ∧
      s.ledger.settlement.bytes + deltaBytes.toNat < U256.modulus))
  | .delivered => inferInstanceAs (Decidable (s.voucherUnderWay = false →
    s.ledger.pipeline.committed.bytes + s.ledger.pipeline.accrued.bytes + chunkBytes <
      U256.modulus))
  | .reject rejected => inferInstanceAs
    (Decidable (s.voucherUnderWay = true → s.ledger.rewinds rejected = false))
  | .retireUnadoptedChain _ => inferInstanceAs
    (Decidable (s.armedAhead = true → s.moved = false))
  | .meter _ | .lost | .reseed _ | .rebase _ _ | .rebaseAheadOnBytes _ _ => isTrue trivial

/-! ## What a step does -/

variable {b c : Cumulative} {s s' : PaidRun}

/-- What a heal leaves of a ledger. -/
structure HealedTo (l l' : PoolLedger) (c : Cumulative) : Prop where
  committed : l'.pipeline.committed = c
  accrued : l'.pipeline.accrued = .zero
  prev : l'.pipeline.prev = none
  armed : l'.pipeline.armed = none
  lastProof : l'.pipeline.lastProof = none
  baseline : l'.pipeline.baseline = (l.pipeline.heal c).baseline

/-- What a fold of an unadopted chain leaves of a ledger. -/
structure FoldedFrom (l l' : PoolLedger) : Prop where
  committed : l'.pipeline.committed = l.settlement
  accrued : l'.pipeline.accrued = .zero
  prev : l'.pipeline.prev = none
  armed : l'.pipeline.armed = none
  lastProof : l'.pipeline.lastProof = none
  baseline : l'.pipeline.baseline = l.pipeline.baseline

/-- What a step does. -/
inductive Stepped (s : PaidRun) : PaidEvent → PaidRun → Prop where
  | issue {deltaBytes ratePerMb : UInt64} {action : EpochAction} {preimages : Nat → Bytes32}
      (hfree : s.sending = none) :
      Stepped s (.issue deltaBytes ratePerMb action preimages)
        { s with
          ledger := (s.ledger.issueArm deltaBytes.toNat ratePerMb.toNat action preimages).1
          sending := some (.voucher
            (s.ledger.issueArm deltaBytes.toNat ratePerMb.toNat action preimages).2
            (s.carried + deltaBytes.toNat))
          unconfirmed := s.carried + deltaBytes.toNat
          moved := false }
  | meter {anchored : Option Bytes32} {released : Released} {chunkPrice : Nat}
      (hfree : s.sending = none) :
      Stepped s (.meter anchored) { s with sending := some (.reveal released chunkPrice) }
  | voucher {issue : Issue} {deltaBytes : Nat}
      (hsending : s.sending = some (.voucher issue deltaBytes)) :
      Stepped s .delivered { ledger := s.ledger.issueCommit issue, own := deltaBytes :: s.own }
  | reveal {released : Released} {chunkPrice : Nat}
      (hsending : s.sending = some (.reveal released chunkPrice)) :
      Stepped s .delivered { s with
        ledger := s.ledger.meterAdvance released chunkPrice
        sending := none
        own := chunkBytes :: s.own
        moved := true }
  | lost : Stepped s .lost { s with sending := none }
  | reject {rejected : StreamProof} :
      Stepped s (.reject rejected) { s with
        ledger := (s.ledger.resolveReject rejected).1
        own := if s.ledger.rewinds rejected then s.own.tail else s.own
        moved := s.moved || s.ledger.rewinds rejected }
  | healed {e : PaidEvent} {ledger : PoolLedger} {c : Cumulative}
      (hhealed : HealedTo s.ledger ledger c)
      (hcalm : e.Calm s → c.Fits ∧ s.voucherUnderWay = false) : Stepped s e (s.healed ledger c)
  | unmoved {e : PaidEvent} : Stepped s e s
  | retire {bundle : Cumulative} {ledger : PoolLedger} (hfree : s.sending = none)
      (hfolded : FoldedFrom s.ledger ledger) :
      Stepped s (.retireUnadoptedChain bundle)
        { s with ledger := ledger, own := s.carried :: s.own }

/-- A reseed that moves the ledger heals it. -/
theorem reseed_healedTo {l : PoolLedger} (h : (l.reseed c).2 = true) :
    HealedTo l (l.reseed c).1 c := by
  unfold PoolLedger.reseed at h ⊢
  split at h
  · exact absurd h (by simp)
  · rename_i hahead
    rw [if_neg hahead]
    exact ⟨rfl, rfl, rfl, rfl, rfl, rfl⟩

/-- So does a rebase. -/
theorem rebaseIf_healedTo {l l' : PoolLedger} {proofGeneration : Option Nat}
    {admits : Cumulative → Bool} {left : Cumulative}
    (h : l.rebaseIf c proofGeneration admits = (l', .rebased left)) : HealedTo l l' c := by
  unfold PoolLedger.rebaseIf at h
  split at h
  · exact absurd (congrArg Prod.snd h) (by simp)
  · split at h
    · exact absurd (congrArg Prod.snd h) (by simp)
    · cases h
      exact ⟨rfl, rfl, rfl, rfl, rfl, rfl⟩

/-- A fold moves the claim to the settlement. -/
theorem retire_foldedFrom {l l' : PoolLedger} {root : Bytes32}
    (h : l.retireUnadoptedChain c = (l', some root)) : FoldedFrom l l' := by
  unfold PoolLedger.retireUnadoptedChain at h
  split at h
  · cases h
  · split at h
    · cases h
    · cases h
      exact ⟨rfl, rfl, rfl, rfl, rfl, rfl⟩

/-- No voucher is being sent when nothing is. -/
theorem voucherUnderWay_of_free (hfree : s.sending = none) : s.voucherUnderWay = false := by
  unfold PaidRun.voucherUnderWay
  rw [hfree]

/-- A rebase heals or leaves the ledger alone. -/
theorem stepped_rebased {e : PaidEvent} {proofGeneration : Option Nat}
    {admits : Cumulative → Bool} (hfree : s.sending = none) (hcalm : e.Calm s → c.Fits) :
    Stepped s e (s.rebased (s.ledger.rebaseIf c proofGeneration admits) c) := by
  cases hout : s.ledger.rebaseIf c proofGeneration admits with
  | mk ledger outcome =>
    cases outcome with
    | rebased left =>
      exact .healed (rebaseIf_healedTo hout) fun h => ⟨hcalm h, voucherUnderWay_of_free hfree⟩
    | stale => exact .unmoved
    | refused => exact .unmoved

/-- Every step does one of these. -/
theorem PaidRun.step_cases {e : PaidEvent} (h : s.step e s') : Stepped s e s' := by
  unfold PaidRun.step at h
  cases e with
  | issue deltaBytes ratePerMb action preimages =>
    simp only [PaidRun.apply] at h
    split at h
    · cases h
    · rename_i hfree
      cases h
      exact .issue hfree
  | meter anchored =>
    simp only [PaidRun.apply] at h
    split at h
    · rename_i released chunkPrice hfree hread
      cases h
      exact .meter hfree
    · cases h
  | delivered =>
    simp only [PaidRun.apply] at h
    split at h
    · rename_i issue deltaBytes hsending
      split at h
      · cases h
        exact .voucher hsending
      · cases h
    · rename_i released chunkPrice hsending
      cases h
      exact .reveal hsending
    · cases h
  | lost =>
    cases h
    exact .lost
  | reject rejected =>
    cases h
    exact .reject
  | reseed cum =>
    simp only [PaidRun.apply] at h
    split at h
    · rename_i hmoved
      cases h
      refine .healed (reseed_healedTo hmoved) fun hcalm => ⟨hcalm.1, ?_⟩
      cases hway : s.voucherUnderWay with
      | false => rfl
      | true => exact absurd (hcalm.2 hway) (by rw [hmoved]; simp)
    · cases h
      exact .unmoved
  | rebase cum proofGeneration =>
    simp only [PaidRun.apply] at h
    split at h
    · cases h
    · rename_i hfree
      cases h
      exact stepped_rebased hfree fun hcalm => hcalm
  | rebaseAheadOnBytes cum proofGeneration =>
    simp only [PaidRun.apply] at h
    split at h
    · cases h
    · rename_i hfree
      cases h
      exact stepped_rebased hfree fun hcalm => hcalm
  | retireUnadoptedChain bundle =>
    simp only [PaidRun.apply] at h
    split at h
    · cases h
    · rename_i hfree
      split at h
      · rename_i hfold
        cases h
        exact .retire hfree (retire_foldedFrom hfold)
      · cases h
        exact .unmoved

/-! ## The baseline -/

/-- A total at or above another one on both axes. -/
structure Cumulative.Above (b c : Cumulative) : Prop where
  bytes_le : b.bytes ≤ c.bytes
  amount_le : b.amount ≤ c.amount
  fits : c.Fits

/-- A sum stays above. -/
theorem Cumulative.Above.plus (h : b.Above c) (d : Cumulative) : b.Above (c.plus d) where
  bytes_le := (U256.le_saturatingAdd_iff (Nat.lt_of_le_of_lt h.bytes_le h.fits.1)).mpr
    (Nat.le_add_right_of_le h.bytes_le)
  amount_le := (U256.le_saturatingAdd_iff (Nat.lt_of_le_of_lt h.amount_le h.fits.2)).mpr
    (Nat.le_add_right_of_le h.amount_le)
  fits := ⟨U256.saturatingAdd_lt _ _, U256.saturatingAdd_lt _ _⟩

/-- So does the next voucher. -/
theorem Cumulative.Above.nextVoucher (h : b.Above c) (deltaBytes ratePerMb : Nat) :
    b.Above (nextVoucher c deltaBytes ratePerMb) :=
  h.plus ⟨deltaBytes, (U256.saturatingMul deltaBytes ratePerMb + (mbBytes - 1)) / mbBytes⟩

/-- A heal leaves its baseline below the watermark. -/
theorem Pipeline.heal_above {p : Pipeline} (h : p.baseline.Above p.owed) (hcum : c.Fits) :
    (p.heal c).baseline.Above c := by
  have hmoved : ∀ baseline current target : Nat, baseline ≤ current → target < U256.modulus →
      Pipeline.moved baseline current target ≤ target := by
    intro baseline current target hle hfits
    unfold Pipeline.moved
    split
    · exact Nat.le_trans (U256.saturatingAdd_le _ _) (by omega)
    · exact Nat.min_le_right _ _
  exact ⟨hmoved _ _ _ h.bytes_le hcum.1, hmoved _ _ _ h.amount_le hcum.2, hcum⟩

/-- The baseline lies below every anchor that the lane can go back to. -/
structure BaselineInv (s : PaidRun) : Prop where
  committed : s.ledger.pipeline.baseline.Above s.ledger.pipeline.committed
  prev : ∀ c, s.ledger.pipeline.prev = some c → s.ledger.pipeline.baseline.Above c
  armed : ∀ a, s.ledger.pipeline.armed = some a → s.ledger.pipeline.baseline.Above a.voucher
  sending : ∀ v delta, s.sending = some (.voucher v delta) →
    s.ledger.pipeline.baseline.Above v.next

/-- It lies below the committed claim. -/
theorem BaselineInv.owed (h : BaselineInv s) :
    s.ledger.pipeline.baseline.Above s.ledger.pipeline.owed :=
  h.committed.plus _

/-- It lies below the settlement. -/
theorem BaselineInv.settlement (h : BaselineInv s) :
    s.ledger.pipeline.baseline.Above s.ledger.settlement := by
  unfold PoolLedger.settlement Pipeline.settlement
  split
  · rename_i armed harmed
    split
    · exact h.armed armed harmed
    · exact h.owed
  · exact h.owed

/-- Only the voucher in the slot is armed, and it is the one being sent. -/
theorem BaselineInv.issue {deltaBytes ratePerMb paying : Nat} {action : EpochAction}
    {preimages : Nat → Bytes32} (h : BaselineInv s) :
    BaselineInv { s with
      ledger := (s.ledger.issueArm deltaBytes ratePerMb action preimages).1
      sending := some (.voucher
        (s.ledger.issueArm deltaBytes ratePerMb action preimages).2 paying)
      unconfirmed := paying
      moved := false } where
  committed := h.committed
  prev := h.prev
  armed a ha := by
    cases ha
    exact h.settlement.nextVoucher deltaBytes ratePerMb
  sending v delta hv := by
    cases hv
    exact h.settlement.nextVoucher deltaBytes ratePerMb

/-- A rejection goes back to an anchor above the baseline. -/
theorem BaselineInv.reject (h : BaselineInv s) (rejected : StreamProof) (own : List Nat)
    (moved : Bool) :
    BaselineInv { s with
      ledger := (s.ledger.resolveReject rejected).1, own := own, moved := moved } := by
  generalize hledger : (s.ledger.resolveReject rejected).1 = ledger
  have hcases := s.ledger.resolveReject_cases rejected
  rw [hledger] at hcases
  cases hcases with
  | reveal hlast hrewinds => exact ⟨h.committed, h.prev, h.armed, h.sending⟩
  | voucher hlast hprev hrewinds => exact ⟨h.prev _ hprev, nofun, h.armed, h.sending⟩
  | disarmed harmed hamount hrewinds => exact ⟨h.committed, h.prev, nofun, h.sending⟩
  | forgotten hprev hrewinds => exact ⟨h.committed, h.prev, h.armed, h.sending⟩
  | stale hrewinds => exact ⟨h.committed, h.prev, h.armed, h.sending⟩

/-- A heal starts over at the watermark. -/
theorem BaselineInv.healed {ledger : PoolLedger} (h : BaselineInv s) (hcum : c.Fits)
    (hhealed : HealedTo s.ledger ledger c) (hfree : s.voucherUnderWay = false) :
    BaselineInv (s.healed ledger c) := by
  have habove := Pipeline.heal_above h.owed hcum
  rw [← hhealed.baseline] at habove
  constructor
  · exact hhealed.committed.symm ▸ habove
  · intro c' hc'
    exact absurd (hhealed.prev.symm.trans hc') (by simp)
  · intro a ha
    exact absurd (hhealed.armed.symm.trans ha) (by simp)
  · intro v delta hv
    unfold PaidRun.voucherUnderWay at hfree
    rw [show s.sending = some (.voucher v delta) from hv] at hfree
    exact absurd hfree (by simp)

/-- A retired chain folds to the settlement. -/
theorem BaselineInv.retire {ledger : PoolLedger} (h : BaselineInv s) (hfree : s.sending = none)
    (hfolded : FoldedFrom s.ledger ledger) (own : List Nat) :
    BaselineInv { s with ledger := ledger, own := own } := by
  have habove := h.settlement
  rw [← hfolded.baseline, ← hfolded.committed] at habove
  refine ⟨habove, fun c hc => ?_, fun a ha => ?_, fun v delta hv => ?_⟩
  · exact absurd (hfolded.prev.symm.trans hc) (by simp)
  · exact absurd (hfolded.armed.symm.trans ha) (by simp)
  · exact absurd (hfree.symm.trans hv) (by simp)

/-- A calm step keeps the baseline below. -/
theorem BaselineInv.step {e : PaidEvent} (h : BaselineInv s) (hcalm : e.Calm s)
    (hstep : s.step e s') : BaselineInv s' := by
  cases PaidRun.step_cases hstep with
  | issue hfree => exact h.issue
  | meter hfree => exact ⟨h.committed, h.prev, h.armed, nofun⟩
  | voucher hsending =>
    refine ⟨h.sending _ _ hsending, fun c hc => ?_, nofun, nofun⟩
    cases hc
    exact h.committed
  | reveal hsending => exact ⟨h.committed, h.prev, h.armed, nofun⟩
  | lost => exact ⟨h.committed, h.prev, h.armed, nofun⟩
  | reject => exact h.reject _ _ _
  | healed hhealed hfree => exact h.healed (hfree hcalm).1 hhealed (hfree hcalm).2
  | unmoved => exact h
  | retire hfree hfolded => exact h.retire hfree hfolded _

/-! ## The tally -/

/-- The own proofs add up to the claim above the baseline, the newest of them is the one that a
rejection of the last proof takes back, and an armed voucher pays for its bytes above the claim
that it was armed on. -/
structure TallyInv (s : PaidRun) : Prop where
  sum : s.own.sum + s.ledger.pipeline.baseline.bytes =
    s.ledger.pipeline.committed.bytes + s.ledger.pipeline.accrued.bytes
  fits : s.ledger.pipeline.committed.bytes + s.ledger.pipeline.accrued.bytes < U256.modulus
  reveal : ∀ root index price, s.ledger.pipeline.lastProof = some (.reveal root index price) →
    chunkBytes ≤ s.ledger.pipeline.accrued.bytes ∧ ∃ own, s.own = chunkBytes :: own
  voucher : ∀ amount, s.ledger.pipeline.lastProof = some (.voucher amount) →
    s.ledger.pipeline.accrued.bytes = 0 ∧
      ∃ prev delta own, s.ledger.pipeline.prev = some prev ∧ s.own = delta :: own ∧
        own.sum + s.ledger.pipeline.baseline.bytes =
          prev.bytes + s.ledger.pipeline.prevAccrued.bytes ∧
        prev.bytes + s.ledger.pipeline.prevAccrued.bytes < U256.modulus
  sending : ∀ v delta, s.sending = some (.voucher v delta) →
    v.next.bytes = s.ledger.pipeline.committed.bytes + s.ledger.pipeline.accrued.bytes + delta ∧
      v.next.bytes < U256.modulus
  armed : ∀ a, s.ledger.pipeline.armed = some a → s.moved = false →
    a.voucher.bytes = s.ledger.pipeline.committed.bytes + s.ledger.pipeline.accrued.bytes +
      s.unconfirmed

/-- The claim is the sum of the anchor and the accrual. -/
theorem TallyInv.owed_bytes (h : TallyInv s) : s.ledger.pipeline.owed.bytes =
    s.ledger.pipeline.committed.bytes + s.ledger.pipeline.accrued.bytes :=
  U256.saturatingAdd_eq h.fits

/-- What the next voucher or fold builds on: the claim, and the unconfirmed bytes above it. -/
theorem TallyInv.settlement_bytes (h : TallyInv s) (hstill : s.armedAhead = true → s.moved = false) :
    s.ledger.settlement.bytes =
      s.ledger.pipeline.committed.bytes + s.ledger.pipeline.accrued.bytes + s.carried := by
  unfold PaidRun.carried
  unfold PaidRun.armedAhead at *
  unfold PoolLedger.settlement Pipeline.settlement
  split
  · rename_i armed harmed
    rw [harmed] at hstill ⊢
    simp only [Option.any_some, decide_eq_true_eq] at hstill ⊢
    split
    · rename_i hahead
      exact h.armed armed harmed (hstill hahead)
    · exact h.owed_bytes
  · rename_i harmed
    rw [harmed]
    exact h.owed_bytes

/-- A voucher adds its bytes, and those it carries, to the claim. -/
theorem TallyInv.issue {deltaBytes ratePerMb : Nat} {action : EpochAction}
    {preimages : Nat → Bytes32} (h : TallyInv s) (hstill : s.armedAhead = true → s.moved = false)
    (hfits : s.ledger.settlement.bytes + deltaBytes < U256.modulus) :
    TallyInv { s with
      ledger := (s.ledger.issueArm deltaBytes ratePerMb action preimages).1
      sending := some (.voucher
        (s.ledger.issueArm deltaBytes ratePerMb action preimages).2 (s.carried + deltaBytes))
      unconfirmed := s.carried + deltaBytes
      moved := false } := by
  have hnext : (nextVoucher s.ledger.settlement deltaBytes ratePerMb).bytes =
      s.ledger.settlement.bytes + deltaBytes := U256.saturatingAdd_eq hfits
  have hpays : (nextVoucher s.ledger.settlement deltaBytes ratePerMb).bytes =
      s.ledger.pipeline.committed.bytes + s.ledger.pipeline.accrued.bytes +
        (s.carried + deltaBytes) := by
    rw [hnext, h.settlement_bytes hstill, Nat.add_assoc]
  refine ⟨h.sum, h.fits, h.reveal, h.voucher, fun v delta hv => ?_, fun a ha _ => ?_⟩
  · cases hv
    exact ⟨hpays, hnext.symm ▸ hfits⟩
  · cases ha
    exact hpays

/-- A delivered voucher counts for its bytes. -/
theorem TallyInv.commit {v : Issue} {delta : Nat} (h : TallyInv s)
    (hsending : s.sending = some (.voucher v delta)) :
    TallyInv { ledger := s.ledger.issueCommit v, own := delta :: s.own } := by
  rcases h.sending v delta hsending with ⟨hnext, hfits⟩
  have hsum := h.sum
  constructor
  · change (delta :: s.own).sum + s.ledger.pipeline.baseline.bytes = v.next.bytes + 0
    rw [List.sum_cons, hnext]
    omega
  · exact hfits
  · exact nofun
  · exact fun amount hlast => ⟨rfl, _, _, _, rfl, rfl, hsum, h.fits⟩
  · exact nofun
  · exact nofun

/-- A delivered reveal counts for its chunk. -/
theorem TallyInv.meter {released : Released} {chunkPrice : Nat} (h : TallyInv s)
    (hfits : s.ledger.pipeline.committed.bytes + s.ledger.pipeline.accrued.bytes + chunkBytes <
      U256.modulus) :
    TallyInv { s with
      ledger := s.ledger.meterAdvance released chunkPrice
      sending := none
      own := chunkBytes :: s.own
      moved := true } := by
  have hadd : U256.saturatingAdd s.ledger.pipeline.accrued.bytes chunkBytes =
      s.ledger.pipeline.accrued.bytes + chunkBytes := U256.saturatingAdd_eq (by omega)
  have hsum := h.sum
  constructor
  · change (chunkBytes :: s.own).sum + s.ledger.pipeline.baseline.bytes =
      s.ledger.pipeline.committed.bytes + U256.saturatingAdd _ _
    rw [hadd, List.sum_cons]
    omega
  · change s.ledger.pipeline.committed.bytes + U256.saturatingAdd _ _ < _
    rw [hadd]
    omega
  · intro root index price hlast
    refine ⟨?_, s.own, rfl⟩
    change chunkBytes ≤ U256.saturatingAdd _ _
    rw [hadd]
    exact Nat.le_add_left _ _
  · exact nofun
  · exact nofun
  · exact nofun

/-- A rejection takes back the bytes of the proof it rewinds. -/
theorem TallyInv.reject (h : TallyInv s) (rejected : StreamProof)
    (hplain : s.voucherUnderWay = true → s.ledger.rewinds rejected = false) :
    TallyInv { s with
      ledger := (s.ledger.resolveReject rejected).1
      own := if s.ledger.rewinds rejected then s.own.tail else s.own
      moved := s.moved || s.ledger.rewinds rejected } := by
  have hsending : ∀ v delta, s.sending = some (.voucher v delta) →
      s.ledger.rewinds rejected = false := by
    intro v delta hv
    apply hplain
    unfold PaidRun.voucherUnderWay
    rw [hv]
  generalize hledger : (s.ledger.resolveReject rejected).1 = ledger
  have hcases := s.ledger.resolveReject_cases rejected
  rw [hledger] at hcases
  have hsum := h.sum
  have hfits := h.fits
  cases hcases with
  | reveal hlast hrewinds =>
    rcases h.reveal _ _ _ hlast with ⟨hchunk, own, hown⟩
    rw [if_pos hrewinds, hown]
    rw [hown, List.sum_cons] at hsum
    refine ⟨?_, ?_, nofun, nofun, ?_, by simp [hrewinds]⟩
    · change own.sum + s.ledger.pipeline.baseline.bytes =
        s.ledger.pipeline.committed.bytes + (s.ledger.pipeline.accrued.bytes - chunkBytes)
      omega
    · change s.ledger.pipeline.committed.bytes + (s.ledger.pipeline.accrued.bytes - chunkBytes) < _
      omega
    · intro v delta hv
      exact absurd hrewinds (by rw [hsending v delta hv]; simp)
  | voucher hlast hprev hrewinds =>
    rcases h.voucher _ hlast with ⟨hzero, prev, delta, own, hprev', hown, hbefore, hbound⟩
    cases hprev.symm.trans hprev'
    have hadd : U256.saturatingAdd s.ledger.pipeline.accrued.bytes
        s.ledger.pipeline.prevAccrued.bytes = s.ledger.pipeline.prevAccrued.bytes := by
      rw [hzero, U256.saturatingAdd_eq (by omega), Nat.zero_add]
    rw [if_pos hrewinds, hown]
    refine ⟨?_, ?_, nofun, nofun, ?_, by simp [hrewinds]⟩
    · change own.sum + s.ledger.pipeline.baseline.bytes = _ + U256.saturatingAdd _ _
      rw [hadd]
      exact hbefore
    · change _ + U256.saturatingAdd _ _ < _
      rw [hadd]
      exact hbound
    · intro v delta hv
      exact absurd hrewinds (by rw [hsending v delta hv]; simp)
  | disarmed harmed hamount hrewinds =>
    rw [if_neg (by rw [hrewinds]; simp)]
    exact ⟨hsum, hfits, h.reveal, h.voucher, h.sending, nofun⟩
  | forgotten hprev hrewinds =>
    rw [if_neg (by rw [hrewinds]; simp), hrewinds, Bool.or_false]
    exact ⟨hsum, hfits, nofun, nofun, h.sending, h.armed⟩
  | stale hrewinds =>
    rw [if_neg (by rw [hrewinds]; simp), hrewinds, Bool.or_false]
    exact ⟨hsum, hfits, h.reveal, h.voucher, h.sending, h.armed⟩

/-- A heal drops the own proofs above the watermark, and counts no jump to it. -/
theorem TallyInv.healed {ledger : PoolLedger} (h : TallyInv s) (hcum : c.Fits)
    (hhealed : HealedTo s.ledger ledger c) (hfree : s.voucherUnderWay = false) :
    TallyInv (s.healed ledger c) := by
  have hsum := h.sum
  have howed := h.owed_bytes
  have hzero : ledger.pipeline.accrued.bytes = 0 := congrArg Cumulative.bytes hhealed.accrued
  have hbaseline : ledger.pipeline.baseline.bytes =
      Pipeline.moved s.ledger.pipeline.baseline.bytes s.ledger.pipeline.owed.bytes c.bytes :=
    congrArg Cumulative.bytes hhealed.baseline
  have hlast := hhealed.lastProof
  constructor
  · change (dropBytes (s.ledger.pipeline.owed.bytes - c.bytes) s.own).sum +
      ledger.pipeline.baseline.bytes = ledger.pipeline.committed.bytes + ledger.pipeline.accrued.bytes
    rw [sum_dropBytes, hbaseline, hhealed.committed, hzero]
    unfold Pipeline.moved
    split
    · rw [U256.saturatingAdd_eq (Nat.lt_of_le_of_lt (by omega) hcum.1)]
      omega
    · omega
  · change ledger.pipeline.committed.bytes + ledger.pipeline.accrued.bytes < _
    rw [hhealed.committed, hzero]
    exact hcum.1
  · intro root index price hreveal
    exact absurd (hlast.symm.trans hreveal) (by simp)
  · intro amount hvoucher
    exact absurd (hlast.symm.trans hvoucher) (by simp)
  · intro v delta hv
    unfold PaidRun.voucherUnderWay at hfree
    rw [show s.sending = some (.voucher v delta) from hv] at hfree
    exact absurd hfree (by simp)
  · intro a ha
    exact absurd (hhealed.armed.symm.trans ha) (by simp)

/-- A fold commits the claim with the unconfirmed bytes above it. -/
theorem TallyInv.retire {ledger : PoolLedger} (h : TallyInv s) (hbase : BaselineInv s)
    (hfree : s.sending = none) (hstill : s.armedAhead = true → s.moved = false)
    (hfolded : FoldedFrom s.ledger ledger) :
    TallyInv { s with ledger := ledger, own := s.carried :: s.own } := by
  have hsum := h.sum
  have hbytes := h.settlement_bytes hstill
  have hzero : ledger.pipeline.accrued.bytes = 0 := congrArg Cumulative.bytes hfolded.accrued
  refine ⟨?_, ?_, fun _ _ _ hlast => ?_, fun _ hlast => ?_, fun v delta hv => ?_, fun a ha => ?_⟩
  · change (s.carried :: s.own).sum + ledger.pipeline.baseline.bytes =
      ledger.pipeline.committed.bytes + ledger.pipeline.accrued.bytes
    rw [List.sum_cons, hfolded.baseline, hfolded.committed, hzero, hbytes]
    omega
  · change ledger.pipeline.committed.bytes + ledger.pipeline.accrued.bytes < _
    rw [hfolded.committed, hzero]
    exact hbase.settlement.fits.1
  · exact absurd (hfolded.lastProof.symm.trans hlast) (by simp)
  · exact absurd (hfolded.lastProof.symm.trans hlast) (by simp)
  · exact absurd (hfree.symm.trans hv) (by simp)
  · exact absurd (hfolded.armed.symm.trans ha) (by simp)

/-- A calm and plain step keeps the tally. -/
theorem TallyInv.step {e : PaidEvent} (h : TallyInv s) (hbase : BaselineInv s) (hcalm : e.Calm s)
    (hplain : e.Plain s) (hstep : s.step e s') : TallyInv s' := by
  cases PaidRun.step_cases hstep with
  | issue hfree => exact h.issue hplain.1 hplain.2
  | meter hfree => exact ⟨h.sum, h.fits, h.reveal, h.voucher, nofun, h.armed⟩
  | voucher hsending => exact h.commit hsending
  | reveal hsending =>
    apply h.meter
    apply hplain
    unfold PaidRun.voucherUnderWay
    rw [hsending]
  | lost => exact ⟨h.sum, h.fits, h.reveal, h.voucher, nofun, h.armed⟩
  | reject => exact h.reject _ hplain
  | healed hhealed hfree => exact h.healed (hfree hcalm).1 hhealed (hfree hcalm).2
  | unmoved => exact h
  | retire hfree hfolded => exact h.retire hbase hfree hplain hfolded

/-! ## Paid bytes -/

theorem BaselineInv.start {seed : Cumulative} (hseed : seed.Fits) : BaselineInv (.start seed) :=
  ⟨⟨Nat.le_refl _, Nat.le_refl _, hseed⟩, nofun, nofun, nofun⟩

theorem TallyInv.start {seed : Cumulative} (hseed : seed.Fits) : TallyInv (.start seed) :=
  ⟨Nat.zero_add _, hseed.1, nofun, nofun, nofun, nofun⟩

/-- Over every calm run the baseline stays at or below the anchor, so the paid bytes are the
claim above it; and over every run that is plain too they add up the own proofs. -/
theorem paid_bytes_exact {seed : Cumulative} (hseed : seed.Fits) :
    (∀ s, Reaches PaidRun.step (fun s e => e.Calm s) (.start seed) s →
      s.ledger.pipeline.baseline.Above s.ledger.pipeline.owed ∧
        s.ledger.paidBytes + s.ledger.pipeline.baseline.bytes = s.ledger.pipeline.owed.bytes) ∧
    ∀ s, Reaches PaidRun.step (fun s e => e.Calm s ∧ e.Plain s) (.start seed) s →
      s.ledger.paidBytes = s.own.sum := by
  constructor
  · intro s hrun
    have hinv := hrun.invariant (BaselineInv.start hseed) fun _ _ _ hcalm hstep h =>
      h.step hcalm hstep
    exact ⟨hinv.owed, Nat.sub_add_cancel hinv.owed.bytes_le⟩
  · intro s hrun
    have hinv := hrun.invariant (I := fun s => BaselineInv s ∧ TallyInv s)
      ⟨.start hseed, .start hseed⟩ fun _ _ _ hguard hstep h =>
        ⟨h.1.step hguard.1 hstep, h.2.step h.1 hguard.1 hguard.2 hstep⟩
    have hsum := hinv.2.sum
    have howed := hinv.2.owed_bytes
    unfold PoolLedger.paidBytes
    omega

/-- A voucher for one byte, sent. -/
def sampleVoucher : List PaidEvent := [.issue 1 10 .opened sampleLadder, .delivered]

/-- The guard of `paid_bytes_exact` is met by a run with a refused reveal, a voucher whose send
does not confirm with another on top of it, a rebase to half of what was paid and a reseed above
it. -/
theorem paid_bytes_exact_sample :
    ∃ s, Reaches PaidRun.step (fun s e => e.Calm s ∧ e.Plain s) (.start .zero) s ∧
      s.own = [1048580, 1] ∧ s.ledger.paidBytes = s.own.sum := by
  have hown : (runEvents PaidRun.apply (fun s e => decide (e.Calm s ∧ e.Plain s)) (.start .zero)
      (sampleVoucher ++ [.meter (some (sampleLadder 0)), .delivered,
        .reject (.reveal (sampleLadder 0) 1), .issue 1048576 10 .keep otherLadder, .lost,
        .issue 9 10 .keep otherLadder, .delivered, .rebase ⟨1048581, 1⟩ none,
        .reseed ⟨2000000, 50⟩])).map PaidRun.own = some [1048580, 1] := by
    decide +kernel
  rcases Option.map_eq_some_iff.mp hown with ⟨s, hs, hsum⟩
  have hrun : Reaches PaidRun.step (fun s e => e.Calm s ∧ e.Plain s) (.start .zero) s :=
    Reaches.of_runEvents (fun _ _ he => of_decide_eq_true he) hs
  exact ⟨s, hrun, hsum, (paid_bytes_exact (by decide)).2 s hrun⟩

/-- A voucher signed over an unconfirmed one and over a reveal since. -/
def lostVoucher : List PaidEvent :=
  sampleVoucher ++ [.issue 10485760 10 .keep otherLadder, .lost, .meter (some (sampleLadder 0)),
    .delivered, .issue 1 10 .keep otherLadder, .delivered]

/-- A reveal refused while the voucher that folds it is being sent. -/
def lateRefusal : List PaidEvent :=
  sampleVoucher ++ [.meter (some (sampleLadder 0)), .delivered, .issue 1 10 .keep otherLadder,
    .reject (.reveal (sampleLadder 0) 1), .delivered]

/-- A reveal on a claim of the largest 256-bit word. -/
def saturatedReveal : List PaidEvent :=
  [.issue 1 10 .opened sampleLadder, .lost, .meter (some (sampleLadder 0)), .delivered]

/-- Without the guards neither half stands: the claim forgets the reveal under an unconfirmed
voucher, whether that voucher is counted or not, still counts a reveal refused late, and
saturates; and a reseed during a send leaves the baseline above the claim. -/
theorem paid_bytes_inexact :
    (∃ s, runEvents PaidRun.apply (fun _ _ => true) (.start .zero) lostVoucher = some s ∧
      s.own = [10485761, 1048576, 1] ∧ s.ledger.paidBytes ≠ s.own.sum ∧
      s.ledger.paidBytes + 10485760 ≠ s.own.sum) ∧
    (∃ s, runEvents PaidRun.apply (fun _ _ => true) (.start .zero) lateRefusal = some s ∧
      s.own = [1, 1] ∧ s.ledger.paidBytes ≠ s.own.sum) ∧
    (∃ s, runEvents PaidRun.apply (fun _ _ => true) (.start ⟨U256.modulus - 1, 0⟩)
        saturatedReveal = some s ∧
      s.own = [1048576] ∧ s.ledger.paidBytes ≠ s.own.sum) ∧
    ∃ s, runEvents PaidRun.apply (fun _ _ => true) (.start .zero)
        [.issue 1 10 .opened sampleLadder, .reseed ⟨5000, 5⟩, .delivered] = some s ∧
      s.ledger.pipeline.owed.bytes < s.ledger.pipeline.baseline.bytes ∧ s.own = [1] ∧
      s.ledger.paidBytes = 0 := by
  have hread : ∀ seed es own paid, (runEvents PaidRun.apply (fun _ _ => true) (.start seed)
      es).map (fun s => (s.own, s.ledger.paidBytes)) = some (own, paid) →
      ∃ s, runEvents PaidRun.apply (fun _ _ => true) (.start seed) es = some s ∧
        s.own = own ∧ s.ledger.paidBytes = paid := by
    intro seed es own paid h
    rcases Option.map_eq_some_iff.mp h with ⟨s, hs, hpair⟩
    exact ⟨s, hs, congrArg Prod.fst hpair, congrArg Prod.snd hpair⟩
  refine ⟨?_, ?_, ?_, ⟨_, rfl, by decide, rfl, by decide⟩⟩
  · rcases hread .zero lostVoucher [10485761, 1048576, 1] 10485762 (by decide +kernel) with
      ⟨s, hs, hown, hpaid⟩
    exact ⟨s, hs, hown, by rw [hown, hpaid]; decide, by rw [hown, hpaid]; decide⟩
  · rcases hread .zero lateRefusal [1, 1] 1048578 (by decide +kernel) with ⟨s, hs, hown, hpaid⟩
    exact ⟨s, hs, hown, by rw [hown, hpaid]; decide⟩
  · rcases hread ⟨U256.modulus - 1, 0⟩ saturatedReveal [1048576] 0 (by decide +kernel) with
      ⟨s, hs, hown, hpaid⟩
    exact ⟨s, hs, hown, by rw [hown, hpaid]; decide⟩

end Decdn.Client
