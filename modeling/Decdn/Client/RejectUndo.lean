import Decdn.Client.Ledger

/-!
# Undoing the last voucher

A voucher that the node refuses while it is still the lane's last claim should
leave the ledger as it was before.  The undo of a voucher whose send confirmed
puts back the anchor, the accrual and the chain it displaced.  The undo of one
whose send is in doubt only disarms it: the chain it displaced stays displaced,
and a voucher of the same amount as the last one is mistaken for it.

Main results:

- Theorem `accrued_fits`: what any ledger has accrued fits a word.
- Theorem `refused_sent`: a confirmed voucher is undone.
- Theorem `refused_unsent_iff`: exactly which vouchers in doubt are undone.
- Theorem `undone_next`: an undone ledger issues and reveals what the ledger
  before the voucher did.
-/

namespace Decdn.Client

namespace PoolLedger

open Incentive

/-! ## Reachable ledgers -/

/-- One method of the ledger, or one of its halves around a send. -/
inductive Moves : PoolLedger → PoolLedger → Prop where
  | arm (l : PoolLedger) (deltaBytes ratePerMb : UInt64) (action : EpochAction)
      (preimages : Nat → Bytes32) :
      Moves l (l.issueArm deltaBytes.toNat ratePerMb.toNat action preimages).1
  | commit (l : PoolLedger) (issue : Issue) : Moves l (l.issueCommit issue)
  | confirm {l l' : PoolLedger} {amount : Nat} (h : l.confirmArmedStamped amount = some l') :
      Moves l l'
  | meter (l : PoolLedger) (released : Released) (chunkPrice : Nat) :
      Moves l (l.meterAdvance released chunkPrice)
  | reseed (l : PoolLedger) (cum : Cumulative) : Moves l (l.reseed cum).1
  | rebase (l : PoolLedger) (cum : Cumulative) (generation : Option Nat)
      (admits : Cumulative → Bool) : Moves l (l.rebaseIf cum generation admits).1
  | retire (l : PoolLedger) (bundle : Cumulative) : Moves l (l.retireUnadoptedChain bundle).1
  | reject (l : PoolLedger) (rejected : StreamProof) : Moves l (l.resolveReject rejected).1

/-- Every ledger its methods lead to, in any order and interleaving. -/
inductive Reachable : PoolLedger → Prop where
  | new (seed : Cumulative) : Reachable (.new seed)
  | step {l l' : PoolLedger} (h : Reachable l) (hmove : Moves l l') : Reachable l'

/-- Both totals fit a 256-bit word. -/
structure Fits (c : Cumulative) : Prop where
  bytes : c.bytes < U256.modulus
  amount : c.amount < U256.modulus

theorem fits_zero : Fits .zero := ⟨by decide, by decide⟩

theorem saturatingAdd_fits (a b : Nat) : U256.saturatingAdd a b < U256.modulus := by
  have hpos : 0 < U256.modulus := by decide
  unfold U256.saturatingAdd
  omega

theorem Fits.minus {c : Cumulative} (h : Fits c) (d : Cumulative) : Fits (c.minus d) :=
  ⟨lt_of_le_of_lt (Nat.sub_le _ _) h.bytes, lt_of_le_of_lt (Nat.sub_le _ _) h.amount⟩

/-- A total that fits is kept by adding it to nothing. -/
theorem Fits.zero_plus {c : Cumulative} (h : Fits c) : Cumulative.zero.plus c = c := by
  have hbytes : U256.saturatingAdd 0 c.bytes = c.bytes := by
    rw [U256.saturatingAdd_eq (by rw [Nat.zero_add]; exact h.bytes), Nat.zero_add]
  have hamount : U256.saturatingAdd 0 c.amount = c.amount := by
    rw [U256.saturatingAdd_eq (by rw [Nat.zero_add]; exact h.amount), Nat.zero_add]
  exact congrArg₂ Cumulative.mk hbytes hamount

theorem Rejected.fits {l l' : PoolLedger} {rejected : StreamProof} (h : Rejected l rejected l')
    (hl : Fits l.pipeline.accrued) : Fits l'.pipeline.accrued := by
  cases h with
  | reveal hlast hrewinds =>
    exact ⟨lt_of_le_of_lt (Nat.sub_le _ _) hl.bytes, lt_of_le_of_lt (Nat.sub_le _ _) hl.amount⟩
  | voucher hlast hprev hrewinds => exact ⟨saturatingAdd_fits _ _, saturatingAdd_fits _ _⟩
  | disarmed harmed hamount hrewinds => exact hl
  | forgotten hprev hrewinds => exact hl
  | stale hrewinds => exact hl

/-- What any ledger has accrued fits a word. -/
theorem accrued_fits {l : PoolLedger} (h : Reachable l) : Fits l.pipeline.accrued := by
  induction h with
  | new seed => exact fits_zero
  | step _ hmove ih =>
    cases hmove with
    | arm deltaBytes ratePerMb action preimages => exact ih
    | commit issue => exact fits_zero
    | confirm hconfirm =>
      unfold confirmArmedStamped at hconfirm
      split at hconfirm
      · split at hconfirm
        · cases hconfirm
          exact ih.minus _
        · cases hconfirm
      · cases hconfirm
    | meter released chunkPrice => exact ⟨saturatingAdd_fits _ _, saturatingAdd_fits _ _⟩
    | reseed cum =>
      unfold PoolLedger.reseed
      split
      · exact ih
      · exact fits_zero
    | rebase cum generation admits =>
      unfold rebaseIf
      split
      · exact ih
      · split
        · exact ih
        · exact fits_zero
    | retire bundle =>
      unfold retireUnadoptedChain
      split
      · exact ih
      · split
        · exact ih
        · exact fits_zero
    | reject rejected => exact (resolveReject_cases _ rejected).fits ih

/-! ## A refused voucher -/

/-- The ledger once a voucher was issued, its send confirmed or in doubt, and the node refused
it before the lane claimed anything else. -/
def refused (l : PoolLedger) (deltaBytes ratePerMb : Nat) (action : EpochAction)
    (preimages : Nat → Bytes32) (sent : Bool) (generation : Nat) : PoolLedger :=
  let armed := l.issueArm deltaBytes ratePerMb action preimages
  let issued := if sent then armed.1.issueCommit armed.2 else armed.1
  (issued.resolveReject (.voucher armed.2.next.amount generation)).1

/-- The ledger is back at the anchor, the accrual and the chain of an earlier one, with nothing
in doubt. -/
structure Undone (l l' : PoolLedger) : Prop where
  committed : l'.pipeline.committed = l.pipeline.committed
  accrued : l'.pipeline.accrued = l.pipeline.accrued
  armed : l'.pipeline.armed = none
  root : l'.chainRoot = l.chainRoot
  released : l'.epoch.map ChainEpoch.released = l.epoch.map ChainEpoch.released

/-- The voucher keeps the chain slot as it is: nothing is folded, and the caller asked to keep
the chain, or to open one where one is live. -/
def Keeps (l : PoolLedger) (action : EpochAction) : Prop :=
  (l.pipeline.accrued.amount = 0 ∧ l.pipeline.accrued.bytes = 0) ∧
    (action = .keep ∨ (action = .opened ∧ l.epoch.isSome))

/-- The last proof on the wire is a voucher for the amount. -/
def Repeats (l : PoolLedger) (deltaBytes ratePerMb : Nat) : Prop :=
  l.pipeline.lastProof = some (.voucher (nextVoucher l.settlement deltaBytes ratePerMb).amount)

variable {l : PoolLedger} {deltaBytes ratePerMb : Nat} {action : EpochAction}
  {preimages : Nat → Bytes32}

/-- A voucher keeps the chain slot or puts the drawn chain in it. -/
theorem issueArm_keeps (l : PoolLedger) (deltaBytes ratePerMb : Nat) (action : EpochAction)
    (preimages : Nat → Bytes32) :
    (l.Keeps action ∧ (l.issueArm deltaBytes ratePerMb action preimages).1.epoch = l.epoch) ∨
      (¬ l.Keeps action ∧ (l.issueArm deltaBytes ratePerMb action preimages).1.epoch =
        some (ChainEpoch.opened preimages ratePerMb)) := by
  unfold Keeps issueArm issueAction commitEpoch
  dsimp only
  by_cases hzero : l.pipeline.accrued.amount = 0 ∧ l.pipeline.accrued.bytes = 0
  · rw [if_pos hzero]
    cases action with
    | keep => exact .inl ⟨⟨hzero, .inl rfl⟩, rfl⟩
    | opened =>
      cases hepoch : l.epoch with
      | none =>
        refine .inr ⟨?_, rfl⟩
        rintro ⟨-, hkeep | ⟨-, hlive⟩⟩
        · cases hkeep
        · cases hlive
      | some live => exact .inl ⟨⟨hzero, .inr ⟨rfl, rfl⟩⟩, rfl⟩
    | roll =>
      refine .inr ⟨?_, rfl⟩
      rintro ⟨-, hkeep | ⟨hopen, -⟩⟩
      · cases hkeep
      · cases hopen
  · rw [if_neg hzero]
    exact .inr ⟨fun h => hzero h.1, rfl⟩

/-- A voucher whose send confirmed is undone: anchor, accrual and chain come back together. -/
theorem refused_sent (hl : Fits l.pipeline.accrued) (generation : Nat) :
    Undone l (l.refused deltaBytes ratePerMb action preimages true generation) ∧
      (l.refused deltaBytes ratePerMb action preimages true generation).epoch = l.epoch := by
  have hback : (l.refused deltaBytes ratePerMb action preimages true generation).epoch =
      l.epoch := by
    unfold refused
    simp only [if_true, resolveReject, issueCommit, rewindVoucher]
    rcases l.issueArm_cases deltaBytes ratePerMb action preimages with
      ⟨-, hepoch, hretired⟩ | ⟨-, hretired⟩
    · rw [hretired]
      exact hepoch
    · rw [hretired]
  refine ⟨⟨?_, ?_, ?_, ?_, ?_⟩, hback⟩
  · unfold refused
    simp only [if_true, resolveReject, issueCommit, rewindVoucher, issueArm]
  · unfold refused
    simp only [if_true, resolveReject, issueCommit, rewindVoucher, issueArm]
    exact hl.zero_plus
  · unfold refused
    simp only [if_true, resolveReject, issueCommit, rewindVoucher, issueArm]
  · unfold chainRoot
    rw [hback]
  · rw [hback]

/-- A voucher in doubt stays armed when the lane's last proof is a voucher for its amount: the
rejection is read as that proof's. -/
theorem refused_repeats (h : l.Repeats deltaBytes ratePerMb) (generation : Nat) :
    (l.refused deltaBytes ratePerMb action preimages false generation).pipeline.armed =
      some ⟨nextVoucher l.settlement deltaBytes ratePerMb, l.pipeline.accrued⟩ := by
  have hlast : (l.issueArm deltaBytes ratePerMb action preimages).1.pipeline.lastProof =
      some (.voucher (l.issueArm deltaBytes ratePerMb action preimages).2.next.amount) := h
  unfold refused
  simp only [Bool.false_eq_true, if_false, resolveReject, hlast, if_true]
  split
  · rfl
  · rfl

/-- Otherwise it is disarmed, and nothing else is put back. -/
theorem refused_disarms (h : ¬ l.Repeats deltaBytes ratePerMb) (generation : Nat) :
    l.refused deltaBytes ratePerMb action preimages false generation =
      { (l.issueArm deltaBytes ratePerMb action preimages).1 with
        pipeline := { l.pipeline with armed := none } } := by
  have hdisarm :
      (l.issueArm deltaBytes ratePerMb action preimages).1.disarm
          (l.issueArm deltaBytes ratePerMb action preimages).2.next.amount =
        ({ (l.issueArm deltaBytes ratePerMb action preimages).1 with
          pipeline := { l.pipeline with armed := none } }, true) := by
    unfold disarm issueArm
    simp only [if_true]
  unfold refused
  simp only [Bool.false_eq_true, if_false, resolveReject]
  split
  · rename_i lastAmount hlast
    rw [if_neg, hdisarm]
    intro hsame
    rw [← hsame] at hlast
    exact h hlast
  · rw [hdisarm]

/-- A voucher in doubt is undone exactly when it kept the chain and repeats no voucher. -/
theorem refused_unsent_iff (hfresh : ∀ live, l.epoch = some live → live.root ≠ preimages 0)
    (generation : Nat) :
    Undone l (l.refused deltaBytes ratePerMb action preimages false generation) ↔
      l.Keeps action ∧ ¬ l.Repeats deltaBytes ratePerMb := by
  by_cases hrepeats : l.Repeats deltaBytes ratePerMb
  · constructor
    · intro h
      have harmed := h.armed
      rw [refused_repeats hrepeats] at harmed
      cases harmed
    · rintro ⟨-, hnot⟩
      exact absurd hrepeats hnot
  · rw [refused_disarms hrepeats]
    rcases issueArm_keeps l deltaBytes ratePerMb action preimages with
      ⟨hkeeps, hepoch⟩ | ⟨hkeeps, hepoch⟩
    · refine ⟨fun _ => ⟨hkeeps, hrepeats⟩, fun _ => ⟨rfl, rfl, rfl, ?_, ?_⟩⟩
      · unfold chainRoot
        rw [hepoch]
      · rw [hepoch]
    · refine ⟨?_, fun h => absurd h.1 hkeeps⟩
      intro h
      have hroot := h.root
      unfold chainRoot at hroot
      rw [hepoch] at hroot
      rcases hslot : l.epoch with _ | live
      · rw [hslot] at hroot
        cases hroot
      · rw [hslot, Option.map_some, Option.map_some, Option.some.injEq] at hroot
        exact absurd hroot.symm (hfresh live hslot)

/-- The chain slot is then the same. -/
theorem refused_unsent_epoch (hkeeps : l.Keeps action) (hrepeats : ¬ l.Repeats deltaBytes ratePerMb)
    (generation : Nat) :
    (l.refused deltaBytes ratePerMb action preimages false generation).epoch = l.epoch := by
  rw [refused_disarms hrepeats]
  rcases issueArm_keeps l deltaBytes ratePerMb action preimages with ⟨-, hepoch⟩ | ⟨hnot, -⟩
  · exact hepoch
  · exact absurd hkeeps hnot

/-! ## The next proofs -/

/-- The ledger with no voucher in doubt. -/
def disarmed (l : PoolLedger) : PoolLedger :=
  { l with pipeline := { l.pipeline with armed := none } }

/-- A ledger back at the anchor, the accrual and the chain of an earlier one signs the next
voucher the earlier one would have signed with nothing in doubt, and releases its next reveal. -/
theorem undone_next {l' : PoolLedger} (h : Undone l l') (hepoch : l'.epoch = l.epoch)
    (deltaBytes ratePerMb : Nat) (action : EpochAction) (preimages : Nat → Bytes32)
    (anchored : Option Bytes32) :
    (l'.issueArm deltaBytes ratePerMb action preimages).2 =
        (l.disarmed.issueArm deltaBytes ratePerMb action preimages).2 ∧
      l'.meterRead anchored = l.meterRead anchored := by
  have hsettlement : l'.settlement = l.disarmed.settlement := by
    unfold settlement Pipeline.settlement Pipeline.owed disarmed
    dsimp only
    rw [h.armed, h.committed, h.accrued]
  have haction : l'.issueAction action = l.disarmed.issueAction action := by
    unfold issueAction disarmed
    dsimp only
    rw [h.accrued]
  constructor
  · unfold issueArm
    dsimp only
    rw [hsettlement, haction]
    congr 2
    unfold commitEpoch disarmed
    dsimp only
    rw [hepoch]
    split
    · rfl
    · rfl
    · rfl
    · rfl
  · unfold meterRead
    rw [hepoch]

end PoolLedger

end Decdn.Client
