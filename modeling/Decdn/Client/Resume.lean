import Decdn.Client.RejectUndo
import Decdn.Client.StreamMeter
import Decdn.Node.PlanLane
import Decdn.Node.Voucher

/-!
# Resuming from a rejection

What the payer does with the watermark bundle of a rejected proof:
`resumable_watermark` and `heal_watermark_desync` of `client/src/lib.rs`.  A
bundle is trusted only when the payer's own signature covers its anchor and its
tip walks to the signed root; the folded claim then re-anchors the ledger, moves
it down, retires a chain the node refused, or proves nothing.

Main results:

- Theorem `reseed_stands`, Theorem `rebaseIf_stands`: a heal that moves the
  ledger leaves it at the watermark with no chain.
- Theorem `heal_stands`: which rejections move it there.
- Theorem `heal_folds`, Theorem `heal_kept`: what a heal does to a ledger that covers
  the watermark.
- Theorem `heal_terminal`, Theorem `heal_echoed`: what no heal takes.
- Theorem `refused_new`, Theorem `Behind.meters`: where a stream's first proofs leave
  the ledger once it reads a rejection.
-/

namespace Decdn.Client

open PaymentPool (Crypto)
open Incentive
open Node (WatermarkBundle RejectReason)

/-! ## Bundles -/

/-- `Cumulative::from` a bundle: the anchor with its frontier folded in. -/
def Cumulative.ofBundle (b : WatermarkBundle) : Cumulative where
  bytes := U256.saturatingAdd b.bytesDelivered (U256.saturatingMul b.verifiedIndex chunkBytes)
  amount := U256.saturatingAdd b.amount (U256.saturatingMul b.verifiedIndex b.chunkPrice)

/-- `voucher_signed_by`. -/
def voucherSignedBy (H : Crypto) (K : Ecdsa) (voucher : Voucher) (signature : Signature)
    (expected : Address) : Bool :=
  match (⟨voucher, signature⟩ : SignedVoucher).recoverSigner H K with
  | .ok recovered => decide (recovered = expected)
  | .error _ => false

/-- `frontier_is_proved`. -/
def frontierIsProved (H : Crypto) (b : WatermarkBundle) : Bool :=
  decide (b.verifiedIndex = 0) || verifyForward H b.tip b.verifiedIndex b.chainRoot

/-- The part of `PoolContext` that names a lane. -/
structure PoolContext where
  poolId : Bytes32
  clientSigner : Address
  provider : Address

/-- `resumable_watermark`.  A signature that parses has its 65 bytes. -/
def resumableWatermark (H : Crypto) (K : Ecdsa) (ctx : PoolContext) (reason : RejectReason)
    (bundle : Option WatermarkBundle) : Option WatermarkBundle :=
  if reason.isWatermarkGated = false then none
  else
    match bundle with
    | none => none
    | some b =>
      let claimed : Voucher :=
        { poolId := ctx.poolId
          signer := ctx.clientSigner
          provider := ctx.provider
          amount := b.amount
          bytesDelivered := b.bytesDelivered
          chainRoot := b.chainRoot
          chunkPrice := b.chunkPrice }
      if voucherSignedBy H K claimed b.lastSignature ctx.clientSigner = false then none
      else if frontierIsProved H b then some b
      else none

/-! ## Healing -/

/-- `Healed`. -/
inductive Healed where
  | reseeded
  | rebased
  | stale
deriving DecidableEq, Repr

/-- `rebase_outcome`. -/
def rebaseOutcome : PoolLedger.Rebase → Option Healed
  | .rebased _ => some .rebased
  | .stale => some .stale
  | .refused => none

/-- `already_covered`. -/
def alreadyCovered (reason : RejectReason) (watermark : Cumulative) (l : PoolLedger) :
    PoolLedger × Option Healed :=
  if l.pipeline.owed.bytes < watermark.bytes then (l, none)
  else if reason = .underFold then ((l.retireUnadoptedChain watermark).1, some .stale)
  else (l, some .stale)

/-- `heal_bytes_regression`. -/
def healBytesRegression (watermark : Cumulative) (proofGeneration : Option Nat)
    (l : PoolLedger) : PoolLedger × Option Healed :=
  match l.rebaseAheadOnBytes watermark proofGeneration with
  | (_, .refused) => (l, some .stale)
  | (l', outcome) => (l', rebaseOutcome outcome)

/-- `heal_watermark_desync`. -/
def healWatermarkDesync (reason : RejectReason) (proofGeneration : Option Nat)
    (watermark : Cumulative) (l : PoolLedger) : PoolLedger × Option Healed :=
  if (l.reseed watermark).2 then ((l.reseed watermark).1, some .reseeded)
  else if reason = .underFold ∨ reason = .amountRegression then
    alreadyCovered reason watermark l
  else
    match reason with
    | .underpaid =>
      ((l.rebase watermark proofGeneration).1,
        rebaseOutcome (l.rebase watermark proofGeneration).2)
    | .bytesRegression => healBytesRegression watermark proofGeneration l
    | _ => (l, none)

/-! ## What a heal does -/

/-- The ledger stands at a watermark: it has accrued nothing, doubts nothing and meters no
chain. -/
structure StandsAt (l : PoolLedger) (c : Cumulative) : Prop where
  committed : l.pipeline.committed = c
  accrued : l.pipeline.accrued = .zero
  armed : l.pipeline.armed = none
  epoch : l.epoch = none

variable {l : PoolLedger} {watermark : Cumulative} {proofGeneration : Option Nat}
  {reason : RejectReason}

/-- A reseed moves the ledger up to the watermark, and only then. -/
theorem reseed_stands (h : l.pipeline.owed.amount < watermark.amount) :
    (l.reseed watermark).2 = true ∧ StandsAt (l.reseed watermark).1 watermark := by
  unfold PoolLedger.reseed
  rw [if_neg (Nat.not_le.mpr h)]
  exact ⟨rfl, rfl, rfl, rfl, rfl⟩

theorem reseed_refused (h : watermark.amount ≤ l.pipeline.owed.amount) :
    (l.reseed watermark).2 = false := by
  unfold PoolLedger.reseed
  rw [if_pos h]

/-- A rebase that its guard admits moves the ledger to the watermark. -/
theorem rebaseIf_stands {admits : Cumulative → Bool}
    (hgeneration : ∀ g, proofGeneration = some g → l.pipeline.generation ≤ g)
    (hadmits : admits l.pipeline.owed = true) :
    (l.rebaseIf watermark proofGeneration admits).2 = .rebased l.pipeline.owed ∧
      StandsAt (l.rebaseIf watermark proofGeneration admits).1 watermark := by
  have hcurrent : ¬ proofGeneration.any (fun g => decide (g < l.pipeline.generation)) = true := by
    cases proofGeneration with
    | none => simp
    | some g => simpa using hgeneration g rfl
  unfold PoolLedger.rebaseIf
  rw [if_neg hcurrent, if_neg (by rw [hadmits]; exact nofun)]
  exact ⟨rfl, rfl, rfl, rfl, rfl⟩

/-- The rejection moves the ledger to the node's watermark: the node holds more money, or more
bytes on the reason that says so, or refused what it was paid. -/
def Moves (reason : RejectReason) (watermark left : Cumulative) : Prop :=
  left.amount < watermark.amount ∨ (reason = .underpaid ∧ watermark ≠ left) ∨
    (reason = .bytesRegression ∧ left.bytes < watermark.bytes)

/-- Then the heal leaves it there. -/
theorem heal_stands (hgeneration : ∀ g, proofGeneration = some g → l.pipeline.generation ≤ g)
    (h : Moves reason watermark l.pipeline.owed) :
    ∃ healed, (healWatermarkDesync reason proofGeneration watermark l).2 = some healed ∧
      StandsAt (healWatermarkDesync reason proofGeneration watermark l).1 watermark := by
  unfold healWatermarkDesync
  rcases Nat.lt_or_ge l.pipeline.owed.amount watermark.amount with hbehind | hahead
  · rcases reseed_stands hbehind with ⟨hmoved, hstands⟩
    rw [hmoved]
    exact ⟨_, rfl, hstands⟩
  · rw [reseed_refused hahead]
    rcases h with hbehind | ⟨rfl, hne⟩ | ⟨rfl, hbytes⟩
    · omega
    · have hmoved : (l.rebase watermark proofGeneration).2 = .rebased l.pipeline.owed ∧
          StandsAt (l.rebase watermark proofGeneration).1 watermark :=
        rebaseIf_stands hgeneration (decide_eq_true ⟨hahead, hne⟩)
      rcases hmoved with ⟨houtcome, hstands⟩
      refine ⟨.rebased, ?_, hstands⟩
      change rebaseOutcome (l.rebase watermark proofGeneration).2 = _
      rw [houtcome]
      rfl
    · have hmoved : (l.rebaseAheadOnBytes watermark proofGeneration).2 =
            .rebased l.pipeline.owed ∧
          StandsAt (l.rebaseAheadOnBytes watermark proofGeneration).1 watermark :=
        rebaseIf_stands hgeneration (decide_eq_true ⟨hahead, hbytes⟩)
      rcases hmoved with ⟨houtcome, hstands⟩
      refine ⟨.rebased, ?_⟩
      change (healBytesRegression watermark proofGeneration l).2 = _ ∧
        StandsAt (healBytesRegression watermark proofGeneration l).1 watermark
      unfold healBytesRegression
      split
      · rename_i hrefused
        rw [hrefused] at houtcome
        cases houtcome
      · rename_i l' outcome _ hmoved
        rw [hmoved] at houtcome hstands
        obtain rfl : outcome = .rebased l.pipeline.owed := houtcome
        exact ⟨rfl, hstands⟩

/-- The ledger covers a watermark on both axes. -/
structure Covers (watermark left : Cumulative) : Prop where
  amount : watermark.amount ≤ left.amount
  bytes : watermark.bytes ≤ left.bytes

/-- An under-fold that the ledger covers folds it and drops a chain that no heal has met. -/
theorem heal_folds (hcovers : Covers watermark l.pipeline.owed) (harmed : l.pipeline.armed = none)
    (hhealed : l.pipeline.healedFrom = none) (hlive : l.epoch.isSome) :
    (healWatermarkDesync .underFold proofGeneration watermark l).2 = some .stale ∧
      StandsAt (healWatermarkDesync .underFold proofGeneration watermark l).1
        l.pipeline.owed := by
  have hsettled : l.settlement = l.pipeline.owed := by
    unfold PoolLedger.settlement Pipeline.settlement
    rw [harmed]
  unfold healWatermarkDesync
  rw [reseed_refused hcovers.amount]
  simp only [Bool.false_eq_true, if_false, true_or, if_true]
  unfold alreadyCovered
  rw [if_neg (Nat.not_lt.mpr hcovers.bytes), if_pos rfl]
  refine ⟨rfl, ?_⟩
  rcases hepoch : l.epoch with _ | live
  · rw [hepoch] at hlive
    cases hlive
  · have hroot : l.chainRoot = some live.root := by
      unfold PoolLedger.chainRoot
      rw [hepoch]
      rfl
    unfold PoolLedger.retireUnadoptedChain
    rw [hroot, hhealed, hsettled]
    exact ⟨rfl, rfl, rfl, rfl⟩

/-- On a lane that meters no chain it leaves the ledger alone. -/
theorem heal_idle (hcovers : Covers watermark l.pipeline.owed) (hidle : l.epoch = none) :
    healWatermarkDesync .underFold proofGeneration watermark l = (l, some .stale) := by
  have hroot : l.chainRoot = none := by
    unfold PoolLedger.chainRoot
    rw [hidle]
    rfl
  unfold healWatermarkDesync
  rw [reseed_refused hcovers.amount]
  simp only [Bool.false_eq_true, if_false, true_or, if_true]
  unfold alreadyCovered
  rw [if_neg (Nat.not_lt.mpr hcovers.bytes), if_pos rfl]
  unfold PoolLedger.retireUnadoptedChain
  rw [hroot]

/-- A regression that the ledger covers is retried from where the ledger stands. -/
theorem heal_kept (hreason : reason = .amountRegression ∨ reason = .bytesRegression)
    (hcovers : Covers watermark l.pipeline.owed) :
    healWatermarkDesync reason proofGeneration watermark l = (l, some .stale) := by
  unfold healWatermarkDesync
  rw [reseed_refused hcovers.amount]
  simp only [Bool.false_eq_true, if_false]
  rcases hreason with rfl | rfl
  · rw [if_pos (.inr rfl)]
    unfold alreadyCovered
    rw [if_neg (Nat.not_lt.mpr hcovers.bytes), if_neg nofun]
  · rw [if_neg (by simp)]
    dsimp only
    have hrefused : l.rebaseAheadOnBytes watermark proofGeneration = (l, .stale) ∨
        l.rebaseAheadOnBytes watermark proofGeneration = (l, .refused) := by
      unfold PoolLedger.rebaseAheadOnBytes PoolLedger.rebaseIf
      split
      · exact .inl rfl
      · rw [if_pos (decide_eq_false fun h => Nat.not_lt.mpr hcovers.bytes h.2)]
        exact .inr rfl
    unfold healBytesRegression
    rcases hrefused with houtcome | houtcome
    · rw [houtcome]
      rfl
    · rw [houtcome]

/-- An underpayment that echoes the ledger's own claim proves nothing. -/
theorem heal_echoed (hgeneration : ∀ g, proofGeneration = some g → l.pipeline.generation ≤ g)
    (hsame : watermark = l.pipeline.owed) :
    healWatermarkDesync .underpaid proofGeneration watermark l = (l, none) := by
  have hcurrent : ¬ proofGeneration.any (fun g => decide (g < l.pipeline.generation)) = true := by
    cases proofGeneration with
    | none => simp
    | some g => simpa using hgeneration g rfl
  have hrefused : l.rebase watermark proofGeneration = (l, .refused) := by
    unfold PoolLedger.rebase PoolLedger.rebaseIf
    rw [if_neg hcurrent, if_pos (decide_eq_false fun h => h.2 hsame)]
  unfold healWatermarkDesync
  rw [reseed_refused (by rw [hsame]), if_neg (by simp), if_neg (by simp)]
  dsimp only
  rw [hrefused]
  rfl

/-- A trailing proof whose watermark the ledger covers on the amount alone is terminal. -/
theorem heal_terminal (hreason : reason = .underFold ∨ reason = .amountRegression)
    (hamount : watermark.amount ≤ l.pipeline.owed.amount)
    (hbytes : l.pipeline.owed.bytes < watermark.bytes) :
    healWatermarkDesync reason proofGeneration watermark l = (l, none) := by
  unfold healWatermarkDesync
  rw [reseed_refused hamount]
  simp only [Bool.false_eq_true, if_false]
  rw [if_pos hreason]
  exact if_pos hbytes

/-! ## Before any heal -/

/-- A ledger that no heal has met and that doubts nothing. -/
structure Untouched (l : PoolLedger) : Prop where
  armed : l.pipeline.armed = none
  healedFrom : l.pipeline.healedFrom = none
  generation : l.pipeline.generation = 0

/-- Any rejection of its proofs was signed under its generation. -/
theorem Untouched.current (h : Untouched l) (g : Nat) (_ : proofGeneration = some g) :
    l.pipeline.generation ≤ g := by
  rw [h.generation]
  exact Nat.zero_le g

/-- It settles at its claim. -/
theorem Untouched.settlement_eq (h : Untouched l) : l.settlement = l.pipeline.owed := by
  unfold PoolLedger.settlement Pipeline.settlement
  rw [h.armed]

variable {seed : Cumulative} {deltaBytes : UInt64} {rate : UInt64} {action : EpochAction}
  {preimages : Nat → Bytes32}

/-- What a fresh ledger's first voucher signs, when it fits the wire. -/
theorem nextVoucher_first
    (hamount : (nextVoucher (seed.plus .zero) deltaBytes.toNat rate.toNat).amount ≤ u64Max)
    (hbytes : (nextVoucher (seed.plus .zero) deltaBytes.toNat rate.toNat).bytes ≤ u64Max) :
    nextVoucher (seed.plus .zero) deltaBytes.toNat rate.toNat =
        ⟨seed.bytes + deltaBytes.toNat,
          seed.amount + (deltaBytes.toNat * rate.toNat + (mbBytes - 1)) / mbBytes⟩ ∧
      seed.plus .zero = seed := by
  have hdelta := toNat_le_u64Max deltaBytes
  have hrate := toNat_le_u64Max rate
  have hproduct : deltaBytes.toNat * rate.toNat ≤ u64Max * u64Max := Nat.mul_le_mul hdelta hrate
  have hmul : U256.saturatingMul deltaBytes.toNat rate.toNat = deltaBytes.toNat * rate.toNat := by
    unfold u64Max at hproduct
    unfold U256.saturatingMul U256.modulus
    omega
  unfold nextVoucher Cumulative.plus at hamount hbytes ⊢
  rw [hmul] at hamount ⊢
  generalize (deltaBytes.toNat * rate.toNat + (mbBytes - 1)) / mbBytes = cost at hamount ⊢
  unfold Cumulative.zero U256.saturatingAdd U256.modulus at *
  unfold u64Max at hamount hbytes
  cases seed with
  | mk bytes amount =>
    dsimp only at hamount hbytes ⊢
    constructor
    · congr 1
      · omega
      · omega
    · congr 1
      · omega
      · omega

/-- A claim that fits the wire is kept by adding nothing to it. -/
theorem plus_zero {c : Cumulative} (hbytes : c.bytes ≤ u64Max) (hamount : c.amount ≤ u64Max) :
    c.plus .zero = c := by
  unfold u64Max at hbytes hamount
  unfold Cumulative.plus Cumulative.zero U256.saturatingAdd U256.modulus
  cases c with
  | mk bytes amount =>
    dsimp only at hbytes hamount ⊢
    congr 1
    · omega
    · omega

theorem refused_untouched {l : PoolLedger} (h : Untouched l) :
    Untouched (l.refused deltaBytes.toNat rate.toNat action preimages true 0) := by
  refine ⟨?_, ?_, ?_⟩
  · unfold PoolLedger.refused
    simp only [if_true, PoolLedger.resolveReject, PoolLedger.issueCommit, PoolLedger.rewindVoucher,
      PoolLedger.issueArm]
  · unfold PoolLedger.refused
    simp only [if_true, PoolLedger.resolveReject, PoolLedger.issueCommit, PoolLedger.rewindVoucher,
      PoolLedger.issueArm, h.healedFrom]
  · unfold PoolLedger.refused
    simp only [if_true, PoolLedger.resolveReject, PoolLedger.issueCommit, PoolLedger.rewindVoucher,
      PoolLedger.issueArm, h.generation]

/-- A fresh ledger whose first voucher is refused stands where it did. -/
theorem refused_new :
    StandsAt ((PoolLedger.new seed).refused deltaBytes.toNat rate.toNat action preimages true 0)
        seed ∧
      Untouched
        ((PoolLedger.new seed).refused deltaBytes.toNat rate.toNat action preimages true 0) := by
  have hsent : PoolLedger.Undone (.new seed)
        ((PoolLedger.new seed).refused deltaBytes.toNat rate.toNat action preimages true 0) ∧
      ((PoolLedger.new seed).refused deltaBytes.toNat rate.toNat action preimages true 0).epoch =
        none := PoolLedger.refused_sent PoolLedger.fits_zero 0
  rcases hsent with ⟨hundone, hepoch⟩
  exact ⟨⟨hundone.committed, hundone.accrued, hundone.armed, hepoch⟩,
    refused_untouched ⟨rfl, rfl, rfl⟩⟩

/-! ## Behind the first voucher

A stream does not wait for a verdict: behind its opening voucher it sends the reveals of every
chunk it verifies, rolls a chain that is spent, and closes with a voucher for the residual.  When
it reads a rejection it takes back the last proof it sent, whichever the node refused. -/

/-- What paying for a chunk does to the ledger of a stream that names the live chain: it releases
a reveal, or rolls a chain that is spent. -/
inductive Meters (H : Crypto) (rate : UInt64) : PoolLedger → PoolLedger → Prop where
  | revealed {l : PoolLedger} {released : Released} {chunkPrice : Nat}
      (hread : l.meterRead l.chainRoot = .released released chunkPrice) :
      Meters H rate l (l.meterAdvance released chunkPrice)
  | rolled {l : PoolLedger} (chainSeed : Bytes32) (hread : l.meterRead l.chainRoot = .exhausted) :
      Meters H rate l (l.issue 0 rate.toNat .roll (preimageAt H chainSeed)).1

/-- A fresh ledger after its opening voucher. -/
def PoolLedger.openedAt (H : Crypto) (rate : UInt64) (seed : Cumulative) (chainSeed : Bytes32) :
    PoolLedger :=
  ((PoolLedger.new seed).issue 0 rate.toNat .opened (preimageAt H chainSeed)).1

/-- What a stream that has sent reveals behind its opening voucher leaves once it takes back its
last proof, a reveal or the closing voucher, and the generation which that proof names. -/
inductive Behind (H : Crypto) (rate : UInt64) (seed : Cumulative) (chainSeed : Bytes32) :
    Option Nat → PoolLedger → Prop where
  | revealed {l : PoolLedger} {released : Released} {chunkPrice : Nat}
      (hrun : Relation.ReflTransGen (Meters H rate) (.openedAt H rate seed chainSeed) l)
      (hread : l.meterRead l.chainRoot = .released released chunkPrice) :
      Behind H rate seed chainSeed none ((l.meterAdvance released chunkPrice).resolveReject
        (.reveal released.chainRoot released.index)).1
  | closed {l : PoolLedger} {released : Released} {chunkPrice : Nat}
      (hrun : Relation.ReflTransGen (Meters H rate) (.openedAt H rate seed chainSeed) l)
      (hread : l.meterRead l.chainRoot = .released released chunkPrice) (deltaBytes : UInt64)
      (preimages : Nat → Bytes32) :
      Behind H rate seed chainSeed (some 0) ((l.meterAdvance released chunkPrice).refused
        deltaBytes.toNat rate.toNat .keep preimages true 0)

/-- A ledger that meters a chain to some depth, over an anchor at its seed or past it. -/
structure MetersChain (H : Crypto) (rate : UInt64) (seed : Cumulative) (chainSeed : Bytes32)
    (depth : Nat) (l : PoolLedger) : Prop where
  untouched : Untouched l
  epoch : l.epoch = some ⟨preimageAt H chainSeed, rate.toNat, depth⟩
  depth_le : depth ≤ maxChainLength
  accrued : l.pipeline.accrued = ⟨depth * chunkBytes, depth * rate.toNat⟩
  committed : l.pipeline.committed = seed ∨ seed.bytes < l.pipeline.committed.bytes

variable {H : Crypto} {chainSeed : Bytes32} {depth : Nat}

/-- A chain's root is the shallow end of its ladder. -/
theorem root_mk (preimages : Nat → Bytes32) (chunkPrice released : Nat) :
    (ChainEpoch.mk preimages chunkPrice released).root = preimages 0 := rfl

/-- The opening voucher starts a chain over the seed. -/
theorem openedAt_meters (hnext : nextVoucher (seed.plus .zero) 0 rate.toNat = seed) :
    MetersChain H rate seed chainSeed 0 (.openedAt H rate seed chainSeed) where
  untouched := ⟨rfl, rfl, rfl⟩
  epoch := rfl
  depth_le := Nat.zero_le _
  accrued := by
    rw [Nat.zero_mul, Nat.zero_mul]
    rfl
  committed := .inl hnext

/-- What a chain accrues fits a word. -/
theorem accrual_lt (hdepth : depth ≤ maxChainLength) (rate : UInt64) :
    (depth + 1) * chunkBytes < U256.modulus ∧ (depth + 1) * rate.toNat < U256.modulus := by
  have hrate := toNat_le_u64Max rate
  have hsmall : depth + 1 ≤ 256 := Nat.succ_le_succ hdepth
  have hamount : (depth + 1) * rate.toNat ≤ 256 * u64Max := Nat.mul_le_mul hsmall hrate
  unfold u64Max at hamount
  unfold chunkBytes U256.modulus
  omega

/-- A reveal deepens the chain by one. -/
theorem MetersChain.revealed (h : MetersChain H rate seed chainSeed depth l) {released : Released}
    {chunkPrice : Nat} (hread : l.meterRead l.chainRoot = .released released chunkPrice) :
    released = ⟨preimageAt H chainSeed (depth + 1), depth + 1, preimageAt H chainSeed 0⟩ ∧
      chunkPrice = rate.toNat ∧
      MetersChain H rate seed chainSeed (depth + 1) (l.meterAdvance released chunkPrice) := by
  rcases PoolLedger.meterRead_released hread with ⟨live, hlive, -, hdeeper, rfl, rfl⟩
  rw [h.epoch, Option.some.injEq] at hlive
  subst hlive
  rcases accrual_lt h.depth_le rate with ⟨hbytes, hamount⟩
  refine ⟨by rw [root_mk], rfl, ⟨⟨h.untouched.armed, h.untouched.healedFrom,
    h.untouched.generation⟩, ?_, hdeeper, ?_, h.committed⟩⟩
  · unfold PoolLedger.meterAdvance
    rw [h.epoch]
    rfl
  · unfold PoolLedger.meterAdvance
    dsimp only
    rw [h.accrued]
    dsimp only
    rw [U256.saturatingAdd_eq (by rwa [← Nat.succ_mul]),
      U256.saturatingAdd_eq (by rwa [← Nat.succ_mul]), ← Nat.succ_mul, ← Nat.succ_mul]

/-- The claim of a ledger that meters a chain is past its seed, unless it stands there. -/
theorem MetersChain.owed_bytes (h : MetersChain H rate seed chainSeed depth l) :
    l.pipeline.owed.bytes = min (l.pipeline.committed.bytes + depth * chunkBytes)
      (U256.modulus - 1) ∧ seed.bytes ≤ l.pipeline.committed.bytes := by
  unfold Pipeline.owed Cumulative.plus U256.saturatingAdd
  rw [h.accrued]
  refine ⟨rfl, ?_⟩
  rcases h.committed with heq | hlt
  · rw [heq]
  · exact le_of_lt hlt

/-- A rollover starts a chain over an anchor past the seed. -/
theorem MetersChain.rolled (h : MetersChain H rate seed chainSeed depth l)
    (hseed : seed.bytes ≤ u64Max) (hread : l.meterRead l.chainRoot = .exhausted)
    (nextSeed : Bytes32) :
    MetersChain H rate seed nextSeed 0
      (l.issue 0 rate.toNat .roll (preimageAt H nextSeed)).1 := by
  have hspent : maxChainLength ≤ depth := by
    unfold PoolLedger.meterRead PoolLedger.chainRoot at hread
    rw [h.epoch] at hread
    dsimp only at hread
    rw [if_neg fun hmoved => hmoved rfl] at hread
    unfold ChainEpoch.nextIndex at hread
    by_contra hless
    rw [if_pos (Nat.not_le.mp hless)] at hread
    cases hread
  have haction : l.issueAction .roll = .roll := by
    unfold PoolLedger.issueAction
    split
    · rfl
    · rfl
  rcases h.owed_bytes with ⟨howed, hcommitted⟩
  have hnext : (nextVoucher l.settlement 0 rate.toNat).bytes = l.pipeline.owed.bytes := by
    unfold nextVoucher
    rw [h.untouched.settlement_eq]
    dsimp only
    unfold U256.saturatingAdd
    rw [Nat.add_zero, howed]
    omega
  have hpast : seed.bytes < (nextVoucher l.settlement 0 rate.toNat).bytes := by
    rw [hnext, howed]
    have hchunks : maxChainLength * chunkBytes ≤ depth * chunkBytes :=
      Nat.mul_le_mul_right _ hspent
    unfold u64Max at hseed
    unfold maxChainLength chunkBytes at *
    unfold U256.modulus
    omega
  refine ⟨⟨rfl, h.untouched.healedFrom, h.untouched.generation⟩, ?_, Nat.zero_le _, ?_,
    .inr hpast⟩
  · unfold PoolLedger.issue PoolLedger.issueCommit PoolLedger.issueArm
    dsimp only
    rw [haction]
    rfl
  · rw [Nat.zero_mul, Nat.zero_mul]
    rfl

/-- However long the stream pays, its ledger meters one chain. -/
theorem MetersChain.run {l' : PoolLedger} (h : MetersChain H rate seed chainSeed depth l)
    (hseed : seed.bytes ≤ u64Max) (hrun : Relation.ReflTransGen (Meters H rate) l l') :
    ∃ chainSeed' depth', MetersChain H rate seed chainSeed' depth' l' := by
  induction hrun with
  | refl => exact ⟨chainSeed, depth, h⟩
  | tail _ hstep ih =>
    rcases ih with ⟨chainSeed', depth', hmid⟩
    cases hstep with
    | revealed hread => exact ⟨chainSeed', depth' + 1, (hmid.revealed hread).2.2⟩
    | rolled nextSeed hread => exact ⟨nextSeed, 0, hmid.rolled hseed hread nextSeed⟩

/-- A reveal that is taken back leaves the chain at its depth. -/
theorem MetersChain.rewound (h : MetersChain H rate seed chainSeed depth l) {released : Released}
    {chunkPrice : Nat} (hread : l.meterRead l.chainRoot = .released released chunkPrice) :
    MetersChain H rate seed chainSeed depth ((l.meterAdvance released chunkPrice).resolveReject
      (.reveal released.chainRoot released.index)).1 := by
  rcases h.revealed hread with ⟨rfl, rfl, hdeeper⟩
  unfold PoolLedger.resolveReject
  dsimp only [PoolLedger.meterAdvance]
  rw [if_pos ⟨rfl, rfl⟩]
  refine ⟨⟨h.untouched.armed, h.untouched.healedFrom, h.untouched.generation⟩, ?_, h.depth_le, ?_,
    h.committed⟩
  · unfold PoolLedger.rewindReveal
    dsimp only
    rw [h.epoch]
    dsimp only [Option.map_some]
    rw [if_pos (root_mk _ _ _), Nat.add_sub_cancel]
  · have haccrued := hdeeper.accrued
    unfold PoolLedger.meterAdvance at haccrued
    dsimp only at haccrued
    unfold PoolLedger.rewindReveal
    dsimp only
    rw [(Cumulative.mk.inj haccrued).1, (Cumulative.mk.inj haccrued).2, Nat.succ_mul, Nat.succ_mul,
      Nat.add_sub_cancel, Nat.add_sub_cancel]

/-- So does a closing voucher. -/
theorem MetersChain.unclosed (h : MetersChain H rate seed chainSeed depth l) :
    MetersChain H rate seed chainSeed depth
      (l.refused deltaBytes.toNat rate.toNat action preimages true 0) := by
  have hfits : PoolLedger.Fits l.pipeline.accrued := by
    rcases accrual_lt h.depth_le rate with ⟨hbytes, hamount⟩
    rw [h.accrued]
    rw [Nat.succ_mul] at hbytes hamount
    exact ⟨lt_of_le_of_lt (Nat.le_add_right _ _) hbytes,
      lt_of_le_of_lt (Nat.le_add_right _ _) hamount⟩
  have hsent : PoolLedger.Undone l
        (l.refused deltaBytes.toNat rate.toNat action preimages true 0) ∧
      (l.refused deltaBytes.toNat rate.toNat action preimages true 0).epoch = l.epoch :=
    PoolLedger.refused_sent hfits 0
  rcases hsent with ⟨hundone, hepoch⟩
  exact ⟨refused_untouched h.untouched, hepoch.trans h.epoch, h.depth_le,
    hundone.accrued.trans h.accrued, by rw [hundone.committed]; exact h.committed⟩

/-- A chain short of its end releases its next preimage. -/
theorem meterRead_eq {e : ChainEpoch} (h : l.epoch = some e) (hless : e.released < maxChainLength) :
    l.meterRead (some e.root) =
      .released ⟨e.preimages (e.released + 1), e.released + 1, e.root⟩ e.chunkPrice := by
  unfold PoolLedger.meterRead
  rw [h]
  dsimp only
  rw [if_neg fun hmoved => hmoved rfl]
  unfold ChainEpoch.nextIndex
  rw [if_pos hless]

/-- A chain at its end releases none. -/
theorem meterRead_spent {e : ChainEpoch} (h : l.epoch = some e)
    (hspent : ¬ e.released < maxChainLength) : l.meterRead (some e.root) = .exhausted := by
  unfold PoolLedger.meterRead
  rw [h]
  dsimp only
  rw [if_neg fun hmoved => hmoved rfl]
  unfold ChainEpoch.nextIndex
  rw [if_neg hspent]

/-- Short of its end, the stream has a reveal to send. -/
theorem MetersChain.reads (h : MetersChain H rate seed chainSeed depth l)
    (hless : depth < maxChainLength) :
    ∃ released chunkPrice, l.meterRead l.chainRoot = .released released chunkPrice := by
  have hroot : l.chainRoot = some (ChainEpoch.mk (preimageAt H chainSeed) rate.toNat depth).root :=
    by
      unfold PoolLedger.chainRoot
      rw [h.epoch, Option.map_some]
  rw [hroot, meterRead_eq h.epoch hless]
  exact ⟨_, _, rfl⟩

/-- A stream may send any number of reveals of its first chain before it reads the rejection. -/
theorem behind_revealed (H : Crypto) (chainSeed : Bytes32)
    (hnext : nextVoucher (seed.plus .zero) 0 rate.toNat = seed)
    (hdepth : depth < maxChainLength) :
    ∃ l, Behind H rate seed chainSeed none l ∧ MetersChain H rate seed chainSeed depth l ∧
      l.pipeline.committed = seed := by
  have hrun : ∀ n < maxChainLength, ∃ l,
      Relation.ReflTransGen (Meters H rate) (.openedAt H rate seed chainSeed) l ∧
        MetersChain H rate seed chainSeed n l ∧ l.pipeline.committed = seed := by
    intro n
    induction n with
    | zero => exact fun _ => ⟨_, .refl, openedAt_meters hnext, hnext⟩
    | succ n ih =>
      intro hless
      rcases ih (Nat.lt_of_succ_lt hless) with ⟨l, hrun, hmeters, hcommitted⟩
      rcases hmeters.reads (Nat.lt_of_succ_lt hless) with ⟨released, chunkPrice, hread⟩
      exact ⟨_, hrun.tail (.revealed hread), (hmeters.revealed hread).2.2, hcommitted⟩
  rcases hrun depth hdepth with ⟨l, hrun, hmeters, hcommitted⟩
  rcases hmeters.reads hdepth with ⟨released, chunkPrice, hread⟩
  refine ⟨_, .revealed hrun hread, hmeters.rewound hread, ?_⟩
  unfold PoolLedger.resolveReject
  dsimp only [PoolLedger.meterAdvance]
  rw [if_pos ⟨rfl, rfl⟩]
  exact hcommitted

/-- Whatever a stream has sent behind its opening voucher, its ledger meters one chain when it reads
a rejection. -/
theorem Behind.meters (h : Behind H rate seed chainSeed proofGeneration l)
    (hseed : seed.bytes ≤ u64Max) (hnext : nextVoucher (seed.plus .zero) 0 rate.toNat = seed) :
    ∃ chainSeed' depth, MetersChain H rate seed chainSeed' depth l := by
  cases h with
  | revealed hrun hread =>
    rcases (openedAt_meters hnext).run hseed hrun with ⟨chainSeed', depth, hmid⟩
    exact ⟨chainSeed', depth, hmid.rewound hread⟩
  | closed hrun hread deltaBytes preimages =>
    rcases (openedAt_meters hnext).run hseed hrun with ⟨chainSeed', depth, hmid⟩
    exact ⟨chainSeed', depth + 1, (hmid.revealed hread).2.2.unclosed⟩

/-! ## The next opening -/

/-- The voucher a stream names its chain with before its first reveal: the live chain over the
anchor, or a fresh one over the settlement. -/
def PoolLedger.opening (l : PoolLedger) (ratePerMb : Nat) (preimages : Nat → Bytes32) :
    PoolLedger × PoolLedger.Issue :=
  match l.reanchor with
  | some v => (l, v)
  | none => l.issue 0 ratePerMb .opened preimages

/-- A ledger that stands at a claim opens a fresh chain over it. -/
theorem opening_stands {c : Cumulative} (h : StandsAt l c) (ratePerMb : Nat)
    (preimages : Nat → Bytes32) :
    (l.opening ratePerMb preimages).2 =
        ⟨nextVoucher (c.plus .zero) 0 ratePerMb, ⟨preimages 0, ratePerMb⟩⟩ ∧
      (l.opening ratePerMb preimages).1.epoch = some (ChainEpoch.opened preimages ratePerMb) := by
  have haction : l.issueAction .opened = .opened := by
    unfold PoolLedger.issueAction
    rw [h.accrued]
    exact if_pos ⟨rfl, rfl⟩
  have hcommit : (l.commitEpoch .opened ratePerMb preimages).epoch =
      some (ChainEpoch.opened preimages ratePerMb) := by
    unfold PoolLedger.commitEpoch
    rw [h.epoch]
  have hsettled : l.settlement = c.plus .zero := by
    unfold PoolLedger.settlement Pipeline.settlement Pipeline.owed
    rw [h.armed, h.committed, h.accrued]
  unfold PoolLedger.opening PoolLedger.reanchor
  rw [h.epoch]
  unfold PoolLedger.issue PoolLedger.issueArm PoolLedger.issueCommit
  dsimp only [Option.map_none]
  rw [hsettled, haction, hcommit]
  exact ⟨rfl, rfl⟩

/-- A ledger that meters a chain re-states its anchor under it. -/
theorem opening_meters (h : MetersChain H rate seed chainSeed depth l)
    (preimages : Nat → Bytes32) :
    l.opening rate.toNat preimages =
      (l, ⟨l.pipeline.committed, ⟨preimageAt H chainSeed 0, rate.toNat⟩⟩) := by
  unfold PoolLedger.opening PoolLedger.reanchor
  rw [h.epoch]
  dsimp only [Option.map_some]
  rw [root_mk]

/-! ## The node's bundle -/

variable {K : Ecdsa} {s : LaneState}

/-- The payer whose vouchers the lane holds. -/
def PoolContext.ofLane (s : LaneState) : PoolContext := ⟨s.poolId, s.signer, s.provider⟩

/-- A verified signer is the one recovered. -/
theorem recoverSigner_of_verified {sv : SignedVoucher} {expected : Address}
    (h : sv.verifySigner H K expected = .ok ()) : sv.recoverSigner H K = .ok expected := by
  unfold SignedVoucher.verifySigner at h
  cases hrecover : sv.recoverSigner H K with
  | error e =>
    rw [hrecover] at h
    cases h
  | ok recovered =>
    rw [hrecover] at h
    simp only [bind, Except.bind, pure, Except.pure] at h
    split at h
    · rename_i hsame
      rw [hsame]
    · cases h

/-- What a lane holding a signature reports. -/
def reported (s : LaneState) (signature : Signature) : WatermarkBundle where
  amount := s.lastAmount
  bytesDelivered := s.lastBytesDelivered
  chainRoot := s.chain.chainRoot
  verifiedIndex := s.chain.verifiedIndex
  tip := s.chain.tip
  chunkPrice := s.chain.chunkPrice
  lastSignature := signature

/-- The report folds to what the lane is owed. -/
theorem reported_folds (hwire : WireLane s) (signature : Signature) :
    Cumulative.ofBundle (reported s signature) = ⟨s.owedBytes, s.owed⟩ := by
  have hamount := hwire.amount_le
  have hbytes := hwire.bytes_le
  have hindex := hwire.index_le
  have hproduct : s.chain.verifiedIndex * s.chain.chunkPrice ≤ 255 * u64Max :=
    Nat.mul_le_mul hindex hwire.price_le
  unfold u64Max at hamount hbytes hproduct
  rcases hwire.owed_eq with ⟨howed, howedBytes⟩
  rw [howed, howedBytes, Nat.mul_comm s.chain.chunkPrice, Nat.mul_comm chunkBytes]
  unfold Cumulative.ofBundle reported U256.saturatingAdd U256.saturatingMul
  dsimp only
  unfold U256.modulus chunkBytes
  congr 1
  · omega
  · omega

/-- A lane that one signature backs writes a bundle its payer takes, and the bundle folds to what
the lane is owed. -/
theorem bundle_resumes (hwire : WireLane s) (hbacked : Node.Backed H K s) {signature : Signature}
    (hsig : s.lastSignature = some signature) (hgated : reason.isWatermarkGated = true) :
    Node.watermarkBundleForReject reason s = some (reported s signature) ∧
      resumableWatermark H K (.ofLane s) reason (some (reported s signature)) =
        some (reported s signature) ∧
      Cumulative.ofBundle (reported s signature) = ⟨s.owedBytes, s.owed⟩ := by
  have hproved : frontierIsProved H (reported s signature) = true := by
    simp only [frontierIsProved, reported, verifyForward, hbacked.walks, decide_true,
      Bool.or_true]
  have hsigned : voucherSignedBy H K
      ⟨s.poolId, s.signer, s.provider, s.lastAmount, s.lastBytesDelivered, s.chain.chainRoot,
        s.chain.chunkPrice⟩ signature s.signer = true := by
    rcases hbacked.signed signature hsig with ⟨sv, hsv, hvoucher, hverified⟩
    have hrecover := recoverSigner_of_verified hverified
    unfold voucherSignedBy
    rw [← hvoucher, ← hsv, show (⟨sv.voucher, sv.signature⟩ : SignedVoucher) = sv from rfl,
      hrecover]
    exact decide_eq_true rfl
  refine ⟨?_, ?_, reported_folds hwire signature⟩
  · unfold Node.watermarkBundleForReject
    rw [if_pos hgated, hsig]
    exact if_pos ⟨hwire.amount_le, hwire.bytes_le, hwire.price_le⟩
  · unfold resumableWatermark
    rw [if_neg (by rw [hgated]; exact fun htrue => Bool.false_ne_true htrue.symm)]
    dsimp only
    rw [if_neg, if_pos hproved]
    intro hfalse
    exact Bool.false_ne_true (hfalse.symm.trans hsigned)

end Decdn.Client
