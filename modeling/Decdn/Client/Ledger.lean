import Decdn.Incentive.Voucher

/-!
# The payer's ledger

One lane's voucher ledger, `PoolLedger` of `client/src/ledger.rs`, shared by all
streams that draw on the lane.  The ledger keeps the signed anchor, what the
live hash chain has accrued on top of it, one step of undo for a refused proof,
and the voucher whose send never confirmed.

The three mutexes of the source are the three fields `pipeline`, `epoch` and
`retired`.  Methods that hold the issuance lock across a send come in two parts,
what runs before the send and what runs after it.

Main definitions:

- Definition `PoolLedger.issueArm` and Definition `PoolLedger.issueCommit`:
  `issue_stamped` before and after its send.
- Definition `PoolLedger.meterRead` and Definition `PoolLedger.meterAdvance`:
  `meter` before and after its send.
- Definition `PoolLedger.resolveReject`: undo a refused proof.
- Definition `PoolLedger.reseed`, Definition `PoolLedger.rebaseIf` and
  Definition `PoolLedger.retireUnadoptedChain`: the heals.

Main results:

- Theorem `PoolLedger.issueArm_cases`: a voucher keeps the chain or displaces
  it.
- Theorem `PoolLedger.resolveReject_cases`: what a rejection can do.
-/

namespace Decdn.Client

open Incentive

/-! ## Cumulatives -/

/-- `Cumulative`: the absolute totals a voucher carries. -/
structure Cumulative where
  bytes : Nat
  amount : Nat
deriving DecidableEq, Repr

/-- `Cumulative::default`. -/
def Cumulative.zero : Cumulative := ⟨0, 0⟩

/-- `Cumulative::plus`. -/
def Cumulative.plus (c d : Cumulative) : Cumulative where
  bytes := U256.saturatingAdd c.bytes d.bytes
  amount := U256.saturatingAdd c.amount d.amount

/-- `Cumulative::minus`. -/
def Cumulative.minus (c d : Cumulative) : Cumulative where
  bytes := c.bytes - d.bytes
  amount := c.amount - d.amount

/-- `MB_BYTES`. -/
def mbBytes : Nat := 1048576

/-- `next_voucher`: the totals after `deltaBytes` more, the price rounded up. -/
def nextVoucher (cur : Cumulative) (deltaBytes ratePerMb : Nat) : Cumulative where
  bytes := U256.saturatingAdd cur.bytes deltaBytes
  amount := U256.saturatingAdd cur.amount
    ((U256.saturatingMul deltaBytes ratePerMb + (mbBytes - 1)) / mbBytes)

/-! ## Chains -/

/-- `ChainEpoch`: the payer half of one hash chain, its ladder materialised. -/
structure ChainEpoch where
  preimages : Nat → Bytes32
  chunkPrice : Nat
  released : Nat

/-- `open_epoch`: a chain with the ladder of a freshly drawn seed, priced at the
quoted rate. -/
def ChainEpoch.opened (preimages : Nat → Bytes32) (ratePerMb : Nat) : ChainEpoch where
  preimages := preimages
  chunkPrice := ratePerMb
  released := 0

/-- The shallow end of the ladder of the seed `0`: its root and the first two
preimages. -/
def sampleLadder : Nat → Bytes32
  | 0 => 0xa35b8833226234baea3738ca29f526aca5653ef68c588034fb9893fb78fedaa5
  | 1 => 0x96ea102ff70653f07bc76a20e40449c1f5f4335aca6408a7403c9d987f6bf44f
  | 2 => 0x5b1c30c04f3171c11a2b4b2d2277e3b517a228f51006babae05e96f9f4744083
  | _ => 0

/-- The root of the seed `1`. -/
def otherLadder : Nat → Bytes32
  | 0 => 0x2d38afda1817edfa5c30b4d877c6524c2fc0ad60c83baf1697eec2abcf184da8
  | _ => 0

/-- The root of the seed `2`. -/
def thirdLadder : Nat → Bytes32
  | 0 => 0xf897bd8e18341d6be93156e0429a487724405dfa737a6f138201412753ebed99
  | _ => 0

/-- `ChainEpoch::root`. -/
def ChainEpoch.root (e : ChainEpoch) : Bytes32 := e.preimages 0

/-- `ChainEpoch::next_index`. -/
def ChainEpoch.nextIndex (e : ChainEpoch) : Option Nat :=
  if e.released < maxChainLength then some (e.released + 1) else none

/-- `EpochAction`: what a voucher does with the lane's chain. -/
inductive EpochAction where
  | keep
  | opened
  | roll
deriving DecidableEq, Repr

/-- `ChainCommit`: the chain section a voucher signs. -/
structure ChainCommit where
  chainRoot : Bytes32
  chunkPrice : Nat
deriving DecidableEq, Repr

/-- `ChainCommit::SEALED`. -/
def ChainCommit.sealed : ChainCommit := ⟨0, 0⟩

/-- The section a voucher signs under a chain slot. -/
def ChainCommit.ofSlot : Option ChainEpoch → ChainCommit
  | some live => ⟨live.root, live.chunkPrice⟩
  | none => .sealed

/-- `Displaced`: what the newest voucher did to the chain slot. -/
inductive Displaced where
  | nothing
  | replaced (chain : Option ChainEpoch)

/-! ## Proofs -/

/-- `LastProof`: the proof most recently put on the wire for the lane. -/
inductive LastProof where
  | voucher (amount : Nat)
  | reveal (chainRoot : Bytes32) (index chunkPrice : Nat)
deriving DecidableEq, Repr

/-- `StreamProof`: the proof a stream names when it reads a rejection. -/
inductive StreamProof where
  | voucher (amount generation : Nat)
  | reveal (chainRoot : Bytes32) (index : Nat)
deriving DecidableEq, Repr

/-- `Armed`: a voucher whose send did not confirm, and the accrual it folded. -/
structure Armed where
  voucher : Cumulative
  folded : Cumulative
deriving DecidableEq, Repr

/-- `Released`: a preimage put on the wire. -/
structure Released where
  preimage : Bytes32
  index : Nat
  chainRoot : Bytes32
deriving DecidableEq, Repr

/-! ## The pipeline -/

/-- `Pipeline`. -/
structure Pipeline where
  lastProof : Option LastProof
  accrued : Cumulative
  prevAccrued : Cumulative
  committed : Cumulative
  prev : Option Cumulative
  armed : Option Armed
  generation : Nat
  unsavedRebase : Option Cumulative
  healedFrom : Option Cumulative
  baseline : Cumulative

namespace Pipeline

/-- `Pipeline::overwrite`. -/
def overwrite (p : Pipeline) (cum : Cumulative) : Pipeline :=
  { p with
    committed := cum
    accrued := .zero
    prev := none
    prevAccrued := .zero
    armed := none
    lastProof := none }

/-- One axis of the baseline's move in `Pipeline::heal`. -/
def moved (baseline current target : Nat) : Nat :=
  if current ≤ target then U256.saturatingAdd baseline (target - current) else min baseline target

/-- The committed claim: the anchor plus the accrual. -/
def owed (p : Pipeline) : Cumulative := p.committed.plus p.accrued

/-- `Pipeline::heal`. -/
def heal (p : Pipeline) (cum : Cumulative) : Pipeline :=
  { p.overwrite cum with
    baseline :=
      { bytes := moved p.baseline.bytes p.owed.bytes cum.bytes
        amount := moved p.baseline.amount p.owed.amount cum.amount }
    healedFrom := some cum }

/-- `Pipeline::settlement`: the anchor plus the accrual, or the armed voucher
when it claims more. -/
def settlement (p : Pipeline) : Cumulative :=
  match p.armed with
  | some armed => if p.owed.amount < armed.voucher.amount then armed.voucher else p.owed
  | none => p.owed

end Pipeline

/-! ## The ledger -/

/-- `PoolLedger`. -/
structure PoolLedger where
  pipeline : Pipeline
  epoch : Option ChainEpoch
  retired : Displaced

/-- `PoolLedger::new`. -/
def PoolLedger.new (seed : Cumulative) : PoolLedger where
  pipeline :=
    { accrued := .zero
      prevAccrued := .zero
      lastProof := none
      committed := seed
      prev := none
      armed := none
      generation := 0
      unsavedRebase := none
      healedFrom := none
      baseline := seed }
  epoch := none
  retired := .nothing

namespace PoolLedger

/-- `PoolLedger::settlement`. -/
def settlement (l : PoolLedger) : Cumulative := l.pipeline.settlement

/-- `PoolLedger::chain_root`. -/
def chainRoot (l : PoolLedger) : Option Bytes32 := l.epoch.map ChainEpoch.root

/-! ### Issuing -/

/-- `commit_epoch`: the chain slot and what the voucher displaced from it. -/
def commitEpoch (l : PoolLedger) (action : EpochAction) (ratePerMb : Nat)
    (preimages : Nat → Bytes32) : PoolLedger :=
  match action, l.epoch with
  | .keep, _ => { l with retired := .nothing }
  | .opened, some _ => { l with retired := .nothing }
  | .opened, none | .roll, _ =>
    { l with
      epoch := some (ChainEpoch.opened preimages ratePerMb)
      retired := .replaced l.epoch }

/-- A voucher under way: what it signs. -/
structure Issue where
  next : Cumulative
  commit : ChainCommit
deriving DecidableEq, Repr

/-- `signed_to_wire_voucher` succeeds: the voucher can be written at all. -/
def Issue.fitsWire (v : Issue) : Bool :=
  decide (v.next.amount ≤ u64Max ∧ v.next.bytes ≤ u64Max ∧ v.commit.chunkPrice ≤ u64Max)

/-- A voucher that folds must also roll. -/
def issueAction (l : PoolLedger) (action : EpochAction) : EpochAction :=
  if l.pipeline.accrued.amount = 0 ∧ l.pipeline.accrued.bytes = 0 then action else .roll

/-- `issue_stamped` up to its send: sign on the settlement frontier, swap the
chain and arm. -/
def issueArm (l : PoolLedger) (deltaBytes ratePerMb : Nat) (action : EpochAction)
    (preimages : Nat → Bytes32) : PoolLedger × Issue :=
  let next := nextVoucher l.settlement deltaBytes ratePerMb
  let rolled := l.commitEpoch (l.issueAction action) ratePerMb preimages
  ({ rolled with
      pipeline := { l.pipeline with armed := some ⟨next, l.pipeline.accrued⟩ } },
    ⟨next, .ofSlot rolled.epoch⟩)

/-- `issue_stamped` after a successful send. -/
def issueCommit (l : PoolLedger) (issue : Issue) : PoolLedger :=
  { l with
    pipeline := { l.pipeline with
      prev := some l.pipeline.committed
      prevAccrued := l.pipeline.accrued
      committed := issue.next
      accrued := .zero
      armed := none
      lastProof := some (.voucher issue.next.amount) } }

/-- `confirm_armed_stamped`; `none` when the armed voucher signs another
amount. -/
def confirmArmedStamped (l : PoolLedger) (amount : Nat) : Option PoolLedger :=
  match l.pipeline.armed with
  | some armed =>
    if armed.voucher.amount = amount then
      some { l with
        pipeline := { l.pipeline with
          armed := none
          prev := some l.pipeline.committed
          prevAccrued := armed.folded
          committed := armed.voucher
          accrued := l.pipeline.accrued.minus armed.folded
          lastProof := some (.voucher amount) } }
    else none
  | none => none

/-- `reanchor`: the committed anchor re-stated under the live root. -/
def reanchor (l : PoolLedger) : Option Issue :=
  l.epoch.map fun live => ⟨l.pipeline.committed, ⟨live.root, live.chunkPrice⟩⟩

/-! ### Metering -/

/-- `Metered`, with the price a release accrues. -/
inductive Metered where
  | released (released : Released) (chunkPrice : Nat)
  | exhausted
  | moved
deriving DecidableEq, Repr

/-- `meter` up to its send. -/
def meterRead (l : PoolLedger) (anchored : Option Bytes32) : Metered :=
  match l.epoch with
  | none => .exhausted
  | some live =>
    if anchored ≠ some live.root then .moved
    else
      match live.nextIndex with
      | none => .exhausted
      | some index => .released ⟨live.preimages index, index, live.root⟩ live.chunkPrice

/-- `meter` after its send: whatever chain is live takes the index. -/
def meterAdvance (l : PoolLedger) (released : Released) (chunkPrice : Nat) : PoolLedger :=
  { l with
    epoch := l.epoch.map fun live => { live with released := released.index }
    pipeline := { l.pipeline with
      accrued :=
        { bytes := U256.saturatingAdd l.pipeline.accrued.bytes chunkBytes
          amount := U256.saturatingAdd l.pipeline.accrued.amount chunkPrice }
      lastProof := some (.reveal released.chainRoot released.index chunkPrice) } }

/-! ### Heals -/

/-- `retire_chain`. -/
def retireChain (l : PoolLedger) : PoolLedger :=
  { l with epoch := none, retired := .nothing }

/-- `reseed`: only a watermark ahead of the committed claim moves the ledger. -/
def reseed (l : PoolLedger) (cum : Cumulative) : PoolLedger × Bool :=
  if cum.amount ≤ l.pipeline.owed.amount then (l, false)
  else ({ l with pipeline := l.pipeline.heal cum }.retireChain, true)

/-- `Rebase`. -/
inductive Rebase where
  | rebased (left : Cumulative)
  | stale
  | refused
deriving DecidableEq, Repr

/-- `rebase_if`. -/
def rebaseIf (l : PoolLedger) (cum : Cumulative) (proofGeneration : Option Nat)
    (admits : Cumulative → Bool) : PoolLedger × Rebase :=
  if proofGeneration.any (fun g => decide (g < l.pipeline.generation)) then (l, .stale)
  else if admits l.pipeline.owed = false then (l, .refused)
  else
    ({ l with
        pipeline := { l.pipeline.heal cum with
          generation := min (l.pipeline.generation + 1) u64Max
          unsavedRebase := some cum } }.retireChain,
      .rebased l.pipeline.owed)

/-- `rebase`. -/
def rebase (l : PoolLedger) (cum : Cumulative) (proofGeneration : Option Nat) :
    PoolLedger × Rebase :=
  l.rebaseIf cum proofGeneration fun left => decide (cum.amount ≤ left.amount ∧ cum ≠ left)

/-- `rebase_ahead_on_bytes`. -/
def rebaseAheadOnBytes (l : PoolLedger) (cum : Cumulative) (proofGeneration : Option Nat) :
    PoolLedger × Rebase :=
  l.rebaseIf cum proofGeneration fun left =>
    decide (cum.amount ≤ left.amount ∧ left.bytes < cum.bytes)

/-- `retire_unadopted_chain`: fold to the settlement and drop the chain. -/
def retireUnadoptedChain (l : PoolLedger) (bundle : Cumulative) : PoolLedger × Option Bytes32 :=
  match l.chainRoot with
  | none => (l, none)
  | some root =>
    if l.pipeline.healedFrom.any
        (fun h => decide (bundle.amount ≤ h.amount ∧ bundle.bytes ≤ h.bytes)) then (l, none)
    else
      ({ l with
          pipeline := { l.pipeline.overwrite l.settlement with
            healedFrom := some bundle } }.retireChain,
        some root)

/-! ### Rejections -/

/-- Take back one refused reveal: its chunk of accrual, and the index if its
chain is still the live one. -/
def rewindReveal (l : PoolLedger) (chainRoot : Bytes32) (chunkPrice : Nat) : PoolLedger :=
  { l with
    pipeline := { l.pipeline with
      lastProof := none
      accrued :=
        { bytes := l.pipeline.accrued.bytes - chunkBytes
          amount := l.pipeline.accrued.amount - chunkPrice } }
    epoch := l.epoch.map fun live =>
      if live.root = chainRoot then { live with released := live.released - 1 } else live }

/-- Un-commit the newest voucher: the previous anchor, the accrual it folded on
top of what has accrued since, and the chain it displaced. -/
def rewindVoucher (l : PoolLedger) (prev : Cumulative) : PoolLedger where
  pipeline := { l.pipeline with
    lastProof := none
    prev := none
    committed := prev
    accrued := l.pipeline.accrued.plus l.pipeline.prevAccrued
    prevAccrued := .zero }
  epoch :=
    match l.retired with
    | .replaced chain => chain
    | .nothing => l.epoch
  retired := .nothing

/-- The last branch of `resolve_reject`: an armed voucher is disarmed. -/
def disarm (l : PoolLedger) (amount : Nat) : PoolLedger × Bool :=
  match l.pipeline.armed with
  | some armed =>
    if armed.voucher.amount = amount then
      ({ l with pipeline := { l.pipeline with armed := none } }, true)
    else (l, false)
  | none => (l, false)

/-- `resolve_reject`: a proof is rewound only while it is the last one the lane
sent. -/
def resolveReject (l : PoolLedger) : StreamProof → PoolLedger × Bool
  | .reveal chainRoot index =>
    match l.pipeline.lastProof with
    | some (.reveal lastRoot lastIndex chunkPrice) =>
      if chainRoot = lastRoot ∧ index = lastIndex then (l.rewindReveal chainRoot chunkPrice, true)
      else (l, false)
    | _ => (l, false)
  | .voucher amount _ =>
    match l.pipeline.lastProof with
    | some (.voucher lastAmount) =>
      if amount = lastAmount then
        match l.pipeline.prev with
        | some prev => (l.rewindVoucher prev, true)
        | none => ({ l with pipeline := { l.pipeline with lastProof := none } }, false)
      else l.disarm amount
    | _ => l.disarm amount

/-- The rejection names the last proof of the lane, so it rewinds the ledger. -/
def rewinds (l : PoolLedger) : StreamProof → Bool
  | .reveal chainRoot index =>
    match l.pipeline.lastProof with
    | some (.reveal lastRoot lastIndex _) => decide (chainRoot = lastRoot ∧ index = lastIndex)
    | _ => false
  | .voucher amount _ =>
    match l.pipeline.lastProof with
    | some (.voucher lastAmount) => decide (amount = lastAmount) && l.pipeline.prev.isSome
    | _ => false

/-- The rejection un-commits the anchor. -/
def uncommits (l : PoolLedger) : StreamProof → Bool
  | .reveal _ _ => false
  | .voucher amount generation => l.rewinds (.voucher amount generation)

/-! ### What issuing, metering and rejecting can do -/

variable {l : PoolLedger}

/-- A voucher keeps the chain, which folds nothing, or displaces it. -/
theorem issueArm_cases (l : PoolLedger) (deltaBytes ratePerMb : Nat) (action : EpochAction)
    (preimages : Nat → Bytes32) :
    (l.pipeline.accrued = .zero ∧
      (l.issueArm deltaBytes ratePerMb action preimages).1.epoch = l.epoch ∧
      (l.issueArm deltaBytes ratePerMb action preimages).1.retired = .nothing) ∨
    ((l.issueArm deltaBytes ratePerMb action preimages).1.epoch =
        some (ChainEpoch.opened preimages ratePerMb) ∧
      (l.issueArm deltaBytes ratePerMb action preimages).1.retired = .replaced l.epoch) := by
  have hzero : l.issueAction action ≠ .roll → l.pipeline.accrued = .zero := by
    intro hkeep
    unfold issueAction at hkeep
    split at hkeep
    · rename_i hnone
      exact congrArg₂ Cumulative.mk hnone.2 hnone.1
    · exact absurd rfl hkeep
  unfold issueArm commitEpoch
  dsimp only
  split
  · rename_i haction
    exact .inl ⟨hzero (by rw [haction]; exact nofun), rfl, rfl⟩
  · rename_i haction _
    exact .inl ⟨hzero (by rw [haction]; exact nofun), rfl, rfl⟩
  · exact .inr ⟨rfl, rfl⟩
  · exact .inr ⟨rfl, rfl⟩

/-- A successful send is a send in doubt that is confirmed at once. -/
theorem issueArm_confirm (l : PoolLedger) (deltaBytes ratePerMb : Nat) (action : EpochAction)
    (preimages : Nat → Bytes32) :
    let armed := l.issueArm deltaBytes ratePerMb action preimages
    armed.1.confirmArmedStamped armed.2.next.amount = some (armed.1.issueCommit armed.2) := by
  have hminus : l.pipeline.accrued.minus l.pipeline.accrued = .zero := by
    simp [Cumulative.minus, Cumulative.zero]
  simp only [confirmArmedStamped, issueArm, issueCommit, if_true, hminus]

/-- What `meter` reads is the next index of the live chain. -/
theorem meterRead_released {anchored : Option Bytes32} {released : Released} {chunkPrice : Nat}
    (h : l.meterRead anchored = .released released chunkPrice) :
    ∃ live, l.epoch = some live ∧ anchored = some live.root ∧
      live.released + 1 ≤ maxChainLength ∧
      released = ⟨live.preimages (live.released + 1), live.released + 1, live.root⟩ ∧
      chunkPrice = live.chunkPrice := by
  unfold meterRead ChainEpoch.nextIndex at h
  split at h
  · cases h
  · rename_i live hlive
    split at h
    · cases h
    · rename_i hanchored
      split at h
      · cases h
      · rename_i index hindex
        split at hindex
        · rename_i hlt
          cases hindex
          cases h
          exact ⟨live, hlive, not_not.mp hanchored, hlt, rfl, rfl⟩
        · cases hindex

/-- What a rejection does: rewind the last reveal, un-commit the last voucher, or
leave the claim alone. -/
inductive Rejected (l : PoolLedger) : StreamProof → PoolLedger → Prop where
  | reveal {root : Bytes32} {index price : Nat}
      (hlast : l.pipeline.lastProof = some (.reveal root index price))
      (hrewinds : l.rewinds (.reveal root index) = true) :
      Rejected l (.reveal root index) (l.rewindReveal root price)
  | voucher {amount generation : Nat} {prev : Cumulative}
      (hlast : l.pipeline.lastProof = some (.voucher amount)) (hprev : l.pipeline.prev = some prev)
      (hrewinds : l.rewinds (.voucher amount generation) = true) :
      Rejected l (.voucher amount generation) (l.rewindVoucher prev)
  | disarmed {amount generation : Nat} {armed : Armed} (harmed : l.pipeline.armed = some armed)
      (hamount : armed.voucher.amount = amount)
      (hrewinds : l.rewinds (.voucher amount generation) = false) :
      Rejected l (.voucher amount generation)
        { l with pipeline := { l.pipeline with armed := none } }
  | forgotten {amount generation : Nat} (hprev : l.pipeline.prev = none)
      (hrewinds : l.rewinds (.voucher amount generation) = false) :
      Rejected l (.voucher amount generation)
        { l with pipeline := { l.pipeline with lastProof := none } }
  | stale {rejected : StreamProof} (hrewinds : l.rewinds rejected = false) : Rejected l rejected l

/-- A voucher the lane does not hold as its last proof is disarmed or stale. -/
theorem disarm_cases {amount generation : Nat}
    (hrewinds : l.rewinds (.voucher amount generation) = false) :
    Rejected l (.voucher amount generation) (l.disarm amount).1 := by
  unfold disarm
  split
  · rename_i armed harmed
    split
    · rename_i hamount
      exact .disarmed harmed hamount hrewinds
    · exact .stale hrewinds
  · exact .stale hrewinds

/-- Every rejection does one of these. -/
theorem resolveReject_cases (l : PoolLedger) (rejected : StreamProof) :
    Rejected l rejected (l.resolveReject rejected).1 := by
  cases rejected with
  | reveal root index =>
    unfold resolveReject
    dsimp only
    split
    · rename_i lastRoot lastIndex price hlast
      split
      · rename_i hsame
        rcases hsame with ⟨rfl, rfl⟩
        exact .reveal hlast (by simp [rewinds, hlast])
      · rename_i hother
        exact .stale (by simpa [rewinds, hlast] using hother)
    · rename_i hother
      refine .stale ?_
      unfold rewinds
      dsimp only
      split
      · rename_i hlast
        exact absurd hlast (hother _ _ _)
      · rfl
  | voucher amount generation =>
    unfold resolveReject
    dsimp only
    split
    · rename_i lastAmount hlast
      split
      · rename_i hsame
        subst hsame
        split
        · rename_i prev hprev
          exact .voucher hlast hprev (by simp [rewinds, hlast, hprev])
        · rename_i hprev
          exact .forgotten hprev (by simp [rewinds, hlast, hprev])
      · rename_i hother
        exact disarm_cases (by simp [rewinds, hlast, hother])
    · rename_i hother
      refine disarm_cases ?_
      unfold rewinds
      dsimp only
      split
      · rename_i hlast
        exact absurd hlast (hother _)
      · rfl

end PoolLedger

end Decdn.Client
