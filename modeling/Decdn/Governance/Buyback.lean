import Decdn.Foundations.CheckedWords
import Decdn.Foundations.Guards
import Decdn.Foundations.Runs
import Decdn.Foundations.StepFunctions

/-!
# The guarded buyback burner

`contracts/src/GuardedBuybackBurner.sol` over `BuybackBurner.sol`: a price floor from a
cumulative-price accumulator with two sliding checkpoints, a band for each buyback and a cap
for each epoch.  The venue is what a transaction's reads of it answer.

Main results:

- Theorem `TwapInv.update`: a sample keeps the accumulator the integral of the samples.
- Theorem `TwapInv.timeAverage`: a price that is given is a time average of them.
- Theorem `CapInv.accrue`: an accepted buyback keeps the epoch within its cap.
- Theorem `twap_and_cap`: both, after every run.
-/

namespace Decdn.Governance.Buyback

open StepFunction
open Guard (require require_eq_ok)

/-! ## Constants -/

def epochLength : Nat := 7 * 24 * 3600
def capFractionFloor : Nat := 100
def capFractionCeiling : Nat := 3000
def slippageCeiling : Nat := 1000
def minTwapWindow : Nat := 30 * 60

/-! ## Data model -/

inductive BurnerRole where
  | governance
  | keeper
deriving DecidableEq

/-- Every way a call reverts. -/
inductive BurnerError where
  | unauthorizedAccount (neededRole : BurnerRole)
  | enforcedPause
  | zeroAmount
  | zeroMinOut
  | poolNotWired
  | amountExceedsBalance (amountIn balance : Nat)
  | swapNotImplemented
  | swapReportMismatch (reported actual : Nat)
  | belowMinBuyback (amountIn floor : Nat)
  | aboveMaxBuyback (amountIn ceiling : Nat)
  | epochCapExceeded (wouldSwap cap : Nat)
  | minOutBelowTwapFloor (minOut twapFloor : Nat)
  | twapNotReady
  | slippageOutOfBounds (value ceiling : Nat)
  | capFractionOutOfBounds (value floor ceiling : Nat)
  | twapWindowTooShort (value floor : Nat)
  | buybackBandInverted (minAmount maxAmount : Nat)
  | buybackBandDead
  | unsupportedTokenDecimals (decimals : Nat)
  | swapFeeInvalid (feeE18 : Nat)
  | venueReverted
  | arith (error : ArithError)
deriving DecidableEq

/-- What the hooks of the venue answer: `none` where the hook reverts.  A swap answers what it
reports and what arrives. -/
structure Venue where
  wired : Bool
  spotPrice : Option Nat
  usdcDepthRaw : Nat
  swapFeeE18 : Nat
  swap : Nat → Nat → Option (Nat × Nat)

/-- One transaction: its block time, and what it reads outside the guard. -/
structure BurnerTx where
  timestamp : Nat
  hasRole : BurnerRole → Bool
  paused : Bool
  usdcBalance : Nat
  venue : Venue

/-- The parameters of the constructor. -/
structure GuardParams where
  twapMinWindow : Nat
  maxBuybackAmount : Nat
  minBuybackAmount : Nat
  slippageBps : Nat
  epochLiquidityCapFraction : Nat

/-- The storage of the guard and its immutables. -/
structure Burner where
  twapMinWindow : Nat
  usdcTo18 : Nat
  slippageBps : Nat
  minBuybackAmount : Nat
  maxBuybackAmount : Nat
  epochLiquidityCapFraction : Nat
  currentEpochIndex : Nat := 0
  epochStartUsdcDepth : Nat := 0
  epochSwappedUsdc : Nat := 0
  priceCumulative : Nat := 0
  twapLastUpdate : Nat := 0
  twapLastSpot : Nat := 0
  twapAnchorCumulative : Nat := 0
  twapAnchorTime : Nat := 0
  twapCurrCumulative : Nat := 0
  twapCurrTime : Nat := 0
deriving DecidableEq

/-! ## Guards -/

/-- Checked arithmetic inside a call. -/
def arith {α : Type} : Except ArithError α → Except BurnerError α
  | .ok a => .ok a
  | .error e => .error (.arith e)

def onlyRole (tx : BurnerTx) (role : BurnerRole) : Except BurnerError Unit :=
  require (tx.hasRole role) (.unauthorizedAccount role)

/-- A hook of the venue that may revert. -/
def hook {α : Type} : Option α → Except BurnerError α
  | some a => .ok a
  | none => .error .venueReverted

/-- `Math.mulDiv`, rounding down. -/
def mulDiv (x y denominator : Nat) : Except BurnerError Nat :=
  arith (if denominator = 0 then .error .divisionByZero
    else Checked.bounded U256.modulus .overflow (x * y / denominator))

/-! ## The accumulator -/

/-- Once the current checkpoint has matured, it becomes the anchor. -/
def slideWindow (b : Burner) (now : Nat) : Except BurnerError Burner := do
  let age ← arith (Checked.sub now b.twapCurrTime)
  if b.twapMinWindow ≤ age then
    .ok { b with
      twapAnchorCumulative := b.twapCurrCumulative
      twapAnchorTime := b.twapCurrTime
      twapCurrCumulative := b.priceCumulative
      twapCurrTime := now }
  else .ok b

/-- The body of `if (elapsed != 0)`. -/
def extend (b : Burner) (now elapsed : Nat) : Except BurnerError Burner := do
  let weighted ← arith (Checked.mul b.twapLastSpot elapsed)
  let priceCumulative ← arith (Checked.add b.priceCumulative weighted)
  slideWindow { b with priceCumulative, twapLastUpdate := now } now

def accumulate (b : Burner) (now elapsed : Nat) : Except BurnerError Burner :=
  if elapsed ≠ 0 then extend b now elapsed else .ok b

/-- The rest of an update, with the spot that it read. -/
def record (b : Burner) (now spot : Nat) : Except BurnerError Burner :=
  if b.twapLastUpdate = 0 then
    .ok { b with
      twapLastUpdate := now
      twapLastSpot := spot
      twapAnchorTime := now
      twapCurrTime := now }
  else do
    let elapsed ← arith (Checked.sub now b.twapLastUpdate)
    let b ← accumulate b now elapsed
    .ok { b with twapLastSpot := spot }

/-- `_updateTwapAccumulator`. -/
def updateTwapAccumulator (b : Burner) (tx : BurnerTx) : Except BurnerError Burner := do
  let spot ← hook tx.venue.spotPrice
  record b tx.timestamp spot

/-- `_twapPrice`. -/
def twapPrice (b : Burner) (now : Nat) : Except BurnerError Nat := do
  let span ← arith (Checked.sub now b.twapAnchorTime)
  require (b.twapLastUpdate ≠ 0 ∧ b.twapMinWindow ≤ span) .twapNotReady
  let gap ← arith (Checked.sub now b.twapLastUpdate)
  let weighted ← arith (Checked.mul b.twapLastSpot gap)
  let cumNow ← arith (Checked.add b.priceCumulative weighted)
  let delta ← arith (Checked.sub cumNow b.twapAnchorCumulative)
  arith (Checked.div delta span)

/-- `_twapFloor`. -/
def twapFloor (b : Burner) (tx : BurnerTx) (amountIn : Nat) : Except BurnerError Nat := do
  let price ← twapPrice b tx.timestamp
  let amountIn18 ← arith (Checked.mul amountIn b.usdcTo18)
  let expectedOut ← mulDiv amountIn18 price wad
  require (tx.venue.swapFeeE18 < wad) (.swapFeeInvalid tx.venue.swapFeeE18)
  let afterFee ← mulDiv expectedOut (wad - tx.venue.swapFeeE18) wad
  let kept ← arith (Checked.sub bpsDenominator b.slippageBps)
  mulDiv afterFee kept bpsDenominator

/-! ## The cap of an epoch -/

/-- `uint64(block.timestamp / EPOCH_LENGTH)`. -/
def epochAt (timestamp : Nat) : Nat := timestamp / epochLength % 2 ^ 64

/-- The first swap of an epoch takes its snapshot. -/
def rollEpoch (b : Burner) (tx : BurnerTx) : Burner :=
  if epochAt tx.timestamp ≠ b.currentEpochIndex ∨ b.epochStartUsdcDepth = 0 then
    { b with
      currentEpochIndex := epochAt tx.timestamp
      epochStartUsdcDepth := tx.venue.usdcDepthRaw
      epochSwappedUsdc := 0 }
  else b

/-- `_accruePerEpochCap`. -/
def accruePerEpochCap (b : Burner) (tx : BurnerTx) (amountIn : Nat) :
    Except BurnerError Burner := do
  let rolled := rollEpoch b tx
  let cap ← mulDiv rolled.epochStartUsdcDepth rolled.epochLiquidityCapFraction bpsDenominator
  let wouldSwap ← arith (Checked.add rolled.epochSwappedUsdc amountIn)
  require (wouldSwap ≤ cap) (.epochCapExceeded wouldSwap cap)
  .ok { rolled with epochSwappedUsdc := wouldSwap }

/-! ## The calls -/

/-- `_performSwap`, with what the venue reports and what arrives. -/
def performSwap (b : Burner) (tx : BurnerTx) (amountIn minOut : Nat) :
    Except BurnerError (Burner × Nat × Nat) := do
  let b ← updateTwapAccumulator b tx
  let floor ← twapFloor b tx amountIn
  require (floor ≤ minOut) (.minOutBelowTwapFloor minOut floor)
  require (b.minBuybackAmount ≤ amountIn) (.belowMinBuyback amountIn b.minBuybackAmount)
  require (amountIn ≤ b.maxBuybackAmount) (.aboveMaxBuyback amountIn b.maxBuybackAmount)
  let b ← accruePerEpochCap b tx amountIn
  let swapped ← hook (tx.venue.swap amountIn minOut)
  .ok (b, swapped)

/-- `executeBuyback`. -/
def executeBuyback (b : Burner) (tx : BurnerTx) (amountIn minOut : Nat) :
    Except BurnerError Burner := do
  require (!tx.paused) .enforcedPause
  onlyRole tx .keeper
  require (amountIn ≠ 0) .zeroAmount
  require (minOut ≠ 0) .zeroMinOut
  require tx.venue.wired .poolNotWired
  require (amountIn ≤ tx.usdcBalance) (.amountExceedsBalance amountIn tx.usdcBalance)
  let (b, reported, actual) ← performSwap b tx amountIn minOut
  require (actual ≠ 0) .swapNotImplemented
  require (actual = reported) (.swapReportMismatch reported actual)
  .ok b

def poke (b : Burner) (tx : BurnerTx) : Except BurnerError Burner := do
  onlyRole tx .keeper
  require tx.venue.wired .poolNotWired
  updateTwapAccumulator b tx

/-- `_resetGuardState`. -/
def resetGuardState (b : Burner) : Burner where
  twapMinWindow := b.twapMinWindow
  usdcTo18 := b.usdcTo18
  slippageBps := b.slippageBps
  minBuybackAmount := b.minBuybackAmount
  maxBuybackAmount := b.maxBuybackAmount
  epochLiquidityCapFraction := b.epochLiquidityCapFraction

def setSlippageTolerance (b : Burner) (tx : BurnerTx) (newBps : Nat) :
    Except BurnerError Burner := do
  onlyRole tx .governance
  require (newBps ≤ slippageCeiling) (.slippageOutOfBounds newBps slippageCeiling)
  .ok { b with slippageBps := newBps }

def setMinBuybackAmount (b : Burner) (tx : BurnerTx) (newAmount : Nat) :
    Except BurnerError Burner := do
  onlyRole tx .governance
  require (newAmount ≤ b.maxBuybackAmount) (.buybackBandInverted newAmount b.maxBuybackAmount)
  .ok { b with minBuybackAmount := newAmount }

def setMaxBuybackAmount (b : Burner) (tx : BurnerTx) (newAmount : Nat) :
    Except BurnerError Burner := do
  onlyRole tx .governance
  require (newAmount ≠ 0) .buybackBandDead
  require (b.minBuybackAmount ≤ newAmount) (.buybackBandInverted b.minBuybackAmount newAmount)
  .ok { b with maxBuybackAmount := newAmount }

/-- The bounds of the cap fraction, which the constructor checks too. -/
def requireCapFraction (bps : Nat) : Except BurnerError Unit :=
  require (capFractionFloor ≤ bps ∧ bps ≤ capFractionCeiling)
    (.capFractionOutOfBounds bps capFractionFloor capFractionCeiling)

def setEpochLiquidityCapFraction (b : Burner) (tx : BurnerTx) (newBps : Nat) :
    Except BurnerError Burner := do
  onlyRole tx .governance
  requireCapFraction newBps
  .ok { b with epochLiquidityCapFraction := newBps }

/-- The constructor, with the decimals of the token that it spends. -/
def construct (g : GuardParams) (usdcDecimals : Nat) : Except BurnerError Burner := do
  require (g.slippageBps ≤ slippageCeiling) (.slippageOutOfBounds g.slippageBps slippageCeiling)
  requireCapFraction g.epochLiquidityCapFraction
  require (minTwapWindow ≤ g.twapMinWindow) (.twapWindowTooShort g.twapMinWindow minTwapWindow)
  require (g.maxBuybackAmount ≠ 0) .buybackBandDead
  require (g.minBuybackAmount ≤ g.maxBuybackAmount)
    (.buybackBandInverted g.minBuybackAmount g.maxBuybackAmount)
  require (usdcDecimals ≤ 18) (.unsupportedTokenDecimals usdcDecimals)
  .ok {
    twapMinWindow := g.twapMinWindow
    usdcTo18 := 10 ^ (18 - usdcDecimals)
    slippageBps := g.slippageBps
    minBuybackAmount := g.minBuybackAmount
    maxBuybackAmount := g.maxBuybackAmount
    epochLiquidityCapFraction := g.epochLiquidityCapFraction }

/-- A call.  A subclass resets the guard when it rotates its venue. -/
inductive Call where
  | poke
  | executeBuyback (amountIn minOut : Nat)
  | resetGuardState
  | setSlippageTolerance (newBps : Nat)
  | setMinBuybackAmount (newAmount : Nat)
  | setMaxBuybackAmount (newAmount : Nat)
  | setEpochLiquidityCapFraction (newBps : Nat)
deriving DecidableEq

def exec (b : Burner) (tx : BurnerTx) : Call → Except BurnerError Burner
  | .poke => poke b tx
  | .executeBuyback amountIn minOut => executeBuyback b tx amountIn minOut
  | .resetGuardState => .ok (resetGuardState b)
  | .setSlippageTolerance newBps => setSlippageTolerance b tx newBps
  | .setMinBuybackAmount newAmount => setMinBuybackAmount b tx newAmount
  | .setMaxBuybackAmount newAmount => setMaxBuybackAmount b tx newAmount
  | .setEpochLiquidityCapFraction newBps => setEpochLiquidityCapFraction b tx newBps

/-! ## What the guards let through -/

section
variable {α : Type} {b b' : Burner} {tx : BurnerTx} {now spot : Nat}

theorem arith_eq_ok {x : Except ArithError α} {r : α} : arith x = .ok r ↔ x = .ok r := by
  cases x with
  | error e => exact ⟨nofun, nofun⟩
  | ok a => exact ⟨fun h => congrArg _ (Except.ok.inj h), fun h => congrArg _ (Except.ok.inj h)⟩

theorem hook_eq_ok {x : Option α} {r : α} : hook x = .ok r ↔ x = some r := by
  cases x with
  | none => exact ⟨nofun, nofun⟩
  | some a => exact ⟨fun h => congrArg _ (Except.ok.inj h), fun h => congrArg _ (Option.some.inj h)⟩

theorem mulDiv_eq_ok {x y d r : Nat} (h : mulDiv x y d = .ok r) : r = x * y / d := by
  rw [mulDiv, arith_eq_ok] at h
  split at h
  · cases h
  · exact (Checked.bounded_eq_ok.mp h).2

/-! ## The accumulator as an integral -/

/-- What the accumulator holds once it has a sample: the integral of the samples up to its last
update, and the same up to each of two moments at which a sample was taken. -/
structure Live (b : Burner) (samples : List (Nat × Nat)) : Prop where
  last : samples.getLast? = some (b.twapLastUpdate, b.twapLastSpot)
  anchor : b.twapAnchorTime ∈ samples.map Prod.fst
  curr : b.twapCurrTime ∈ samples.map Prod.fst
  anchor_le : b.twapAnchorTime ≤ b.twapCurrTime
  curr_le : b.twapCurrTime ≤ b.twapLastUpdate
  cumulative : ∃ start ≤ b.twapAnchorTime,
    b.priceCumulative = integral samples start b.twapLastUpdate ∧
    b.twapAnchorCumulative = integral samples start b.twapAnchorTime ∧
    b.twapCurrCumulative = integral samples start b.twapCurrTime

/-- The accumulator and the samples taken since the last reset. -/
structure TwapInv (b : Burner) (samples : List (Nat × Nat)) (now : Nat) : Prop where
  updated_le : b.twapLastUpdate ≤ now
  idle : b.twapLastUpdate = 0 →
    b.priceCumulative = 0 ∧ b.twapAnchorCumulative = 0 ∧ b.twapCurrCumulative = 0
  live : b.twapLastUpdate ≠ 0 → Live b samples

/-- Fields that no call but a sample or a reset moves. -/
def SameTwap (b b' : Burner) : Prop :=
  b'.priceCumulative = b.priceCumulative ∧ b'.twapLastUpdate = b.twapLastUpdate ∧
  b'.twapLastSpot = b.twapLastSpot ∧ b'.twapAnchorCumulative = b.twapAnchorCumulative ∧
  b'.twapAnchorTime = b.twapAnchorTime ∧ b'.twapCurrCumulative = b.twapCurrCumulative ∧
  b'.twapCurrTime = b.twapCurrTime

theorem TwapInv.congr {samples : List (Nat × Nat)} (h : TwapInv b samples now)
    (hsame : SameTwap b b') : TwapInv b' samples now := by
  rcases hsame with ⟨hcumulative, hupdate, hspot, hanchorCum, hanchor, hcurrCum, hcurr⟩
  refine ⟨by rw [hupdate]; exact h.updated_le, ?_, ?_⟩
  · rw [hupdate, hcumulative, hanchorCum, hcurrCum]
    exact h.idle
  · rw [hupdate]
    intro hne
    rcases h.live hne with ⟨hlast, hin, hin', hle, hle', hcum⟩
    constructor <;> simpa only [hcumulative, hupdate, hspot, hanchorCum, hanchor, hcurrCum, hcurr]

theorem TwapInv.mono {samples : List (Nat × Nat)} {later : Nat} (h : TwapInv b samples now)
    (hle : now ≤ later) : TwapInv b samples later :=
  ⟨h.updated_le.trans hle, h.idle, h.live⟩

/-- A live accumulator up to a later moment, before the sample taken then. -/
theorem Live.cumulative_to {samples : List (Nat × Nat)} (h : Live b samples)
    (hnow : b.twapLastUpdate ≤ now) {start : Nat} (hstart : start ≤ b.twapLastUpdate)
    (hcum : b.priceCumulative = integral samples start b.twapLastUpdate) :
    b.priceCumulative + b.twapLastSpot * (now - b.twapLastUpdate) =
      integral samples start now := by
  rw [hcum, ← integral_tail h.last (Nat.le_refl _), integral_add hstart hnow]

/-- What the body of `if (elapsed != 0)` writes. -/
theorem extend_eq_ok {elapsed : Nat} (h : extend b now elapsed = .ok b') :
    let cumulative := b.priceCumulative + b.twapLastSpot * elapsed
    b' = { b with priceCumulative := cumulative, twapLastUpdate := now } ∨
    b' = { b with
      priceCumulative := cumulative
      twapLastUpdate := now
      twapAnchorCumulative := b.twapCurrCumulative
      twapAnchorTime := b.twapCurrTime
      twapCurrCumulative := cumulative
      twapCurrTime := now } := by
  rw [extend] at h
  simp only [bind_eq_ok, arith_eq_ok, Checked.mul_eq_ok, Checked.add_eq_ok] at h
  rcases h with ⟨_, ⟨_, rfl⟩, _, ⟨_, rfl⟩, hslide⟩
  rw [slideWindow] at hslide
  simp only [bind_eq_ok, arith_eq_ok] at hslide
  rcases hslide with ⟨age, _, hslide⟩
  split at hslide
  · exact .inr (Except.ok.inj hslide).symm
  · exact .inl (Except.ok.inj hslide).symm

/-- A sample keeps the accumulator the integral of the samples. -/
theorem TwapInv.record {samples : List (Nat × Nat)} (h : TwapInv b samples now) {later : Nat}
    (hnow : now ≤ later) (hrecord : record b later spot = .ok b') :
    TwapInv b' (samples ++ [(later, spot)]) later := by
  rw [Buyback.record] at hrecord
  split at hrecord
  case isTrue hzero =>
    rcases h.idle hzero with ⟨hcum, hanchor, hcurr⟩
    cases hrecord
    refine ⟨Nat.le_refl _, fun _ => ⟨hcum, hanchor, hcurr⟩, fun _ => ?_⟩
    have hempty : integral (samples ++ [(later, spot)]) later later = 0 := by simp [integral]
    refine ⟨by simp, by simp, by simp, Nat.le_refl _, Nat.le_refl _, later, Nat.le_refl _, ?_⟩
    simp only [hempty]
    exact ⟨hcum, hanchor, hcurr⟩
  case isFalse hne =>
    have hlive := h.live hne
    rcases hlive.cumulative with ⟨start, hstart, hcum, hanchor, hcurr⟩
    have hupdated := h.updated_le.trans hnow
    have hle := hlive.anchor_le
    have hle' := hlive.curr_le
    have hearlier : ∀ {time}, time ≤ later →
        integral (samples ++ [(later, spot)]) start time = integral samples start time :=
      fun htime => integral_append htime
    have hmem : ∀ {time}, time ∈ samples.map Prod.fst →
        time ∈ (samples ++ [(later, spot)]).map Prod.fst := by
      intro time htime
      rw [List.map_append]
      exact List.mem_append_left _ htime
    simp only [bind_eq_ok, arith_eq_ok, Checked.sub_eq_ok] at hrecord
    rcases hrecord with ⟨elapsed, ⟨_, rfl⟩, mid, hmid, hset⟩
    have hset := Except.ok.inj hset
    rw [accumulate] at hmid
    split at hmid
    case isTrue hpos =>
      have hto := hlive.cumulative_to hupdated (by omega) hcum
      have hlater : later ≠ 0 := by omega
      rcases extend_eq_ok hmid with hmid | hmid
      · subst hmid hset
        refine ⟨Nat.le_refl _, fun h0 => absurd h0 hlater, fun _ => ?_⟩
        refine ⟨by simp, hmem hlive.anchor, hmem hlive.curr, hle, hle'.trans hupdated, start,
          hstart, ?_⟩
        dsimp only
        rw [hearlier (Nat.le_refl _), hearlier (by omega), hearlier (by omega)]
        exact ⟨hto, hanchor, hcurr⟩
      · -- the current checkpoint becomes the anchor
        subst hmid hset
        refine ⟨Nat.le_refl _, fun h0 => absurd h0 hlater, fun _ => ?_⟩
        refine ⟨by simp, hmem hlive.curr, by simp, hle'.trans hupdated, Nat.le_refl _, start,
          hstart.trans hle, ?_⟩
        dsimp only
        rw [hearlier (Nat.le_refl _), hearlier (by omega)]
        exact ⟨hto, hcurr, hto⟩
    case isFalse hzero =>
      -- another sample of the same block
      have hmid := Except.ok.inj hmid
      have hsame : b.twapLastUpdate = later := by omega
      subst hmid hset
      refine ⟨hupdated, fun h0 => absurd h0 hne, fun _ => ?_⟩
      refine ⟨by simp [hsame], hmem hlive.anchor, hmem hlive.curr, hle, hle', start, hstart, ?_⟩
      dsimp only
      rw [hearlier hupdated, hearlier (by omega), hearlier (by omega)]
      exact ⟨hcum, hanchor, hcurr⟩

/-- A price as a time average of the samples in force from the anchor on. -/
structure TimeAverage (b : Burner) (samples : List (Nat × Nat)) (now price : Nat) : Prop where
  sampled : b.twapAnchorTime ∈ samples.map Prod.fst
  window : b.twapAnchorTime + b.twapMinWindow ≤ now
  average : price = integral samples b.twapAnchorTime now / (now - b.twapAnchorTime)
  bounded : ∀ lo hi, (∀ moment ∈ Finset.Ico b.twapAnchorTime now,
    lo ≤ valueAt samples moment ∧ valueAt samples moment ≤ hi) → lo ≤ price ∧ price ≤ hi
  /-- The samples of the current block carry no weight. -/
  earlier : price = integral (samples.filter fun e => e.1 < now) b.twapAnchorTime now /
    (now - b.twapAnchorTime)

/-- A price that is given is a time average. -/
theorem TwapInv.timeAverage {samples : List (Nat × Nat)} {price later : Nat}
    (h : TwapInv b samples now) (hwindow : 0 < b.twapMinWindow) (hnow : now ≤ later)
    (hprice : twapPrice b later = .ok price) : TimeAverage b samples later price := by
  rw [twapPrice] at hprice
  simp only [bind_eq_ok, arith_eq_ok, require_eq_ok, decide_eq_true_eq, Checked.sub_eq_ok,
    Checked.mul_eq_ok, Checked.add_eq_ok, Checked.div_eq_ok] at hprice
  rcases hprice with ⟨_, ⟨hspan, rfl⟩, _, ⟨hne, hmature⟩, _, ⟨_, rfl⟩, _, ⟨_, rfl⟩, _,
    ⟨_, rfl⟩, _, ⟨_, rfl⟩, _, rfl⟩
  have hlive := h.live hne
  rcases hlive.cumulative with ⟨start, hstart, hcum, hanchor, -⟩
  have hupdated := h.updated_le.trans hnow
  have hle := hlive.anchor_le.trans hlive.curr_le
  have hvalue : b.priceCumulative + b.twapLastSpot * (later - b.twapLastUpdate) -
      b.twapAnchorCumulative = integral samples b.twapAnchorTime later := by
    rw [hlive.cumulative_to hupdated (hstart.trans hle) hcum, hanchor,
      ← integral_add hstart (hle.trans hupdated), Nat.add_sub_cancel_left]
  rw [hvalue]
  have hready : b.twapAnchorTime + b.twapMinWindow ≤ later := by omega
  have hlt : b.twapAnchorTime < later := (Nat.lt_add_of_pos_right hwindow).trans_le hready
  refine ⟨hlive.anchor, hready, rfl, fun lo hi => average_mem hlt, ?_⟩
  rw [integral_earlier]

end

/-! ## The cap of an epoch -/

/-- An accepted buyback, with the depth of the venue and the cap fraction that it met. -/
structure Purchase where
  epoch : Nat
  amount : Nat
  depth : Nat
  fraction : Nat
deriving DecidableEq

/-- The buybacks of an epoch: `first` and `rest` lie in it, and the one before does not. -/
structure InEpoch (before : List Purchase) (first : Purchase) (rest : List Purchase) : Prop where
  first_swap : ∀ last, before.getLast? = some last → last.epoch ≠ first.epoch
  same : ∀ p ∈ rest, p.epoch = first.epoch

/-- The sum of an epoch's buybacks stays within the fraction in force of the first depth. -/
def WithinCap (accepted : List Purchase) : Prop :=
  ∀ before first rest after, accepted = before ++ first :: rest ++ after →
    InEpoch before first rest →
    ((first :: rest).map Purchase.amount).sum ≤
      first.depth * ((first :: rest).getLastD first).fraction / bpsDenominator

/-- The epoch in storage is that of the last buybacks accepted since the last reset. -/
structure CapInv (b : Burner) (accepted : List Purchase) : Prop where
  within : WithinCap accepted
  fresh : accepted = [] → b.epochStartUsdcDepth = 0
  current : accepted ≠ [] → ∃ before first rest, accepted = before ++ first :: rest ∧
    InEpoch before first rest ∧ b.currentEpochIndex = first.epoch ∧
    b.epochStartUsdcDepth = first.depth ∧ first.depth ≠ 0 ∧
    b.epochSwappedUsdc = ((first :: rest).map Purchase.amount).sum

/-- The fields of the cap. -/
def SameCap (b b' : Burner) : Prop :=
  b'.currentEpochIndex = b.currentEpochIndex ∧
  b'.epochStartUsdcDepth = b.epochStartUsdcDepth ∧ b'.epochSwappedUsdc = b.epochSwappedUsdc

theorem CapInv.congr {accepted : List Purchase} {b b' : Burner} (h : CapInv b accepted)
    (hsame : SameCap b b') : CapInv b' accepted := by
  rcases hsame with ⟨hepoch, hdepth, hswapped⟩
  refine ⟨h.within, ?_, ?_⟩
  · rw [hdepth]
    exact h.fresh
  · rw [hepoch, hdepth, hswapped]
    exact h.current

/-- A run of one epoch that ends a list begins where the other does: it does not begin later. -/
theorem InEpoch.not_inside {before mid rest rest' : List Purchase} {first last first' : Purchase}
    (hrest : first :: rest = mid ++ [last] ++ first' :: rest') (h : InEpoch before first rest)
    (h' : InEpoch (before ++ (mid ++ [last])) first' rest') : False := by
  have hepoch : ∀ p ∈ first :: rest, p.epoch = first.epoch := by
    intro p hp
    rcases List.mem_cons.mp hp with rfl | hp
    · rfl
    · exact h.same p hp
  have hlast := hepoch last (by rw [hrest]; simp)
  have hfirst := hepoch first' (by rw [hrest]; simp)
  refine h'.first_swap last ?_ (hlast.trans hfirst.symm)
  rw [← List.append_assoc, List.getLast?_concat]

/-- Two such runs are the same. -/
theorem InEpoch.unique {before before' rest rest' : List Purchase} {first first' : Purchase}
    (heq : before ++ first :: rest = before' ++ first' :: rest')
    (h : InEpoch before first rest) (h' : InEpoch before' first' rest') :
    first = first' ∧ rest = rest' := by
  rcases List.append_eq_append_iff.mp heq with ⟨mid, hbefore, hrest⟩ | ⟨mid, hbefore, hrest⟩
  · cases mid using List.reverseRecOn with
    | nil =>
      rw [List.nil_append] at hrest
      exact List.cons.inj hrest
    | append_singleton mid last =>
      subst hbefore
      exact (h.not_inside hrest h').elim
  · cases mid using List.reverseRecOn with
    | nil =>
      rw [List.nil_append] at hrest
      exact ⟨(List.cons.inj hrest).1.symm, (List.cons.inj hrest).2.symm⟩
    | append_singleton mid last =>
      subst hbefore
      exact (h'.not_inside hrest h).elim

/-- What an accepted accrual writes. -/
theorem accruePerEpochCap_eq_ok {b b' : Burner} {tx : BurnerTx} {amountIn : Nat}
    (h : accruePerEpochCap b tx amountIn = .ok b') :
    let rolled := rollEpoch b tx
    rolled.epochSwappedUsdc + amountIn ≤
      rolled.epochStartUsdcDepth * rolled.epochLiquidityCapFraction / bpsDenominator ∧
    b' = { rolled with epochSwappedUsdc := rolled.epochSwappedUsdc + amountIn } := by
  rw [accruePerEpochCap] at h
  simp only [bind_eq_ok, arith_eq_ok, require_eq_ok, decide_eq_true_eq,
    Checked.add_eq_ok] at h
  rcases h with ⟨cap, hcap, _, ⟨_, rfl⟩, _, hle, hset⟩
  rw [mulDiv_eq_ok hcap] at hle
  exact ⟨hle, (Except.ok.inj hset).symm⟩

/-- The run of the current epoch, with a buyback that the code accepts at its end. -/
def Extended (accepted : List Purchase) (p : Purchase) (swapped depth : Nat) : Prop :=
  ∃ before first rest, accepted ++ [p] = before ++ first :: rest ∧
    InEpoch before first rest ∧ first.epoch = p.epoch ∧ first.depth = depth ∧
    ((first :: rest).map Purchase.amount).sum = swapped ∧ (first :: rest).getLastD first = p

/-- A run that is within its cap keeps the whole list within. -/
theorem WithinCap.append {accepted : List Purchase} {p : Purchase} {swapped depth : Nat}
    (h : WithinCap accepted) (hrun : Extended accepted p swapped depth)
    (hcap : swapped ≤ depth * p.fraction / bpsDenominator) : WithinCap (accepted ++ [p]) := by
  intro before first rest after heq hin
  cases after using List.reverseRecOn with
  | nil =>
    rcases hrun with ⟨before', first', rest', hsplit, hin', _, hdepth, hsum, hlast⟩
    rw [List.append_nil, hsplit] at heq
    rcases hin'.unique heq hin with ⟨rfl, rfl⟩
    rw [hsum, hlast, hdepth]
    exact hcap
  | append_singleton after last =>
    rw [← List.append_assoc] at heq
    rcases List.append_inj' heq rfl with ⟨hinit, _⟩
    exact h before first rest after hinit hin

/-- After an accepted buyback the storage holds the run that it ends. -/
theorem CapInv.extended {b b' : Burner} {accepted : List Purchase} (h : CapInv b accepted)
    {tx : BurnerTx} {p : Purchase} (hepoch : p.epoch = epochAt tx.timestamp)
    (hdepth : p.depth = tx.venue.usdcDepthRaw)
    (hset : b' = { rollEpoch b tx with
      epochSwappedUsdc := (rollEpoch b tx).epochSwappedUsdc + p.amount }) :
    Extended accepted p b'.epochSwappedUsdc b'.epochStartUsdcDepth ∧
      b'.currentEpochIndex = p.epoch := by
  rw [rollEpoch] at hset
  split at hset
  case isTrue hroll =>
    subst hset
    refine ⟨⟨accepted, p, [], rfl, ⟨?_, nofun⟩, rfl, hdepth, by simp, rfl⟩, hepoch.symm⟩
    intro last hlast heq
    have hne : accepted ≠ [] := by
      rintro rfl
      cases hlast
    rcases h.current hne with ⟨before, first, rest, hsplit, hin, hindex, hsnapshot, hzero, _⟩
    have hsame : last.epoch = first.epoch := by
      rw [hsplit, List.getLast?_append_of_ne_nil _ (List.cons_ne_nil _ _)] at hlast
      rcases List.mem_cons.mp (List.mem_of_getLast? hlast) with rfl | hmem
      · rfl
      · exact hin.same last hmem
    rcases hroll with hroll | hroll
    · exact hroll (hepoch.symm.trans (heq.symm.trans (hsame.trans hindex.symm)))
    · exact hzero (hsnapshot.symm.trans hroll)
  case isFalse hstay =>
    have hstay := not_or.mp hstay
    have hne : accepted ≠ [] := fun hnil => hstay.2 (h.fresh hnil)
    rcases h.current hne with ⟨before, first, rest, hsplit, hin, hindex, hsnapshot, _, hsum⟩
    have hp : p.epoch = first.epoch := hepoch.trans ((not_not.mp hstay.1).trans hindex)
    subst hset
    refine ⟨⟨before, first, rest ++ [p], by rw [hsplit]; simp, ⟨hin.first_swap, ?_⟩,
      hp.symm, hsnapshot.symm, ?_, by
      rw [← List.cons_append, List.getLastD_concat]⟩, hindex.trans hp.symm⟩
    · intro q hq
      rcases List.mem_append.mp hq with hq | hq
      · exact hin.same q hq
      · rw [List.mem_singleton.mp hq]
        exact hp
    · show _ = b.epochSwappedUsdc + p.amount
      simp [hsum, Nat.add_assoc]

/-- An accepted buyback keeps the epoch within its cap. -/
theorem CapInv.accrue {b b' : Burner} {accepted : List Purchase} (h : CapInv b accepted)
    {tx : BurnerTx} {amountIn : Nat} (hpos : amountIn ≠ 0)
    (haccrue : accruePerEpochCap b tx amountIn = .ok b') :
    CapInv b' (accepted ++ [⟨epochAt tx.timestamp, amountIn, tx.venue.usdcDepthRaw,
      b.epochLiquidityCapFraction⟩]) := by
  rcases accruePerEpochCap_eq_ok haccrue with ⟨hle, hset⟩
  rcases h.extended (p := ⟨epochAt tx.timestamp, amountIn, tx.venue.usdcDepthRaw,
    b.epochLiquidityCapFraction⟩) rfl rfl hset with ⟨hrun, hindex⟩
  have hfraction : (rollEpoch b tx).epochLiquidityCapFraction = b.epochLiquidityCapFraction := by
    unfold rollEpoch
    split <;> rfl
  have hcap : b'.epochSwappedUsdc ≤
      b'.epochStartUsdcDepth * b.epochLiquidityCapFraction / bpsDenominator := by
    rw [hset, ← hfraction]
    exact hle
  refine ⟨h.within.append hrun hcap, fun hnil => absurd hnil (by simp), fun _ => ?_⟩
  rcases hrun with ⟨before, first, rest, hsplit, hin, hepoch, hdepth, hsum, _⟩
  refine ⟨before, first, rest, hsplit, hin, hindex.trans hepoch.symm, hdepth.symm, ?_,
    hsum.symm⟩
  intro hzero
  have hswapped : b'.epochSwappedUsdc = (rollEpoch b tx).epochSwappedUsdc + amountIn := by
    rw [hset]
  rw [← hdepth, hzero, Nat.zero_mul, Nat.zero_div] at hcap
  omega

/-! ## What a call moves -/

/-- The parameters, as the constructor and the setters keep them. -/
structure Valid (b : Burner) : Prop where
  window : minTwapWindow ≤ b.twapMinWindow
  slippage : b.slippageBps ≤ slippageCeiling
  fraction : capFractionFloor ≤ b.epochLiquidityCapFraction ∧
    b.epochLiquidityCapFraction ≤ capFractionCeiling
  band : b.minBuybackAmount ≤ b.maxBuybackAmount
  alive : b.maxBuybackAmount ≠ 0

/-- The same parameters. -/
def SameParams (b b' : Burner) : Prop :=
  b'.twapMinWindow = b.twapMinWindow ∧ b'.slippageBps = b.slippageBps ∧
  b'.epochLiquidityCapFraction = b.epochLiquidityCapFraction ∧
  b'.minBuybackAmount = b.minBuybackAmount ∧ b'.maxBuybackAmount = b.maxBuybackAmount

theorem Valid.congr {b b' : Burner} (h : Valid b) (hsame : SameParams b b') : Valid b' := by
  rcases hsame with ⟨hwindow, hslippage, hfraction, hmin, hmax⟩
  constructor
  · rw [hwindow]
    exact h.window
  · rw [hslippage]
    exact h.slippage
  · rw [hfraction]
    exact h.fraction
  · rw [hmin, hmax]
    exact h.band
  · rw [hmax]
    exact h.alive

/-- A sample leaves the cap and the parameters. -/
theorem record_frame {b b' : Burner} {now spot : Nat} (h : record b now spot = .ok b') :
    SameCap b b' ∧ SameParams b b' := by
  rw [record] at h
  split at h
  · cases h
    exact ⟨⟨rfl, rfl, rfl⟩, rfl, rfl, rfl, rfl, rfl⟩
  · simp only [bind_eq_ok] at h
    rcases h with ⟨elapsed, _, mid, hmid, hset⟩
    have hset := Except.ok.inj hset
    rw [accumulate] at hmid
    split at hmid
    · rcases extend_eq_ok hmid with hmid | hmid <;> subst hmid hset <;>
        exact ⟨⟨rfl, rfl, rfl⟩, rfl, rfl, rfl, rfl, rfl⟩
    · have hmid := Except.ok.inj hmid
      subst hmid hset
      exact ⟨⟨rfl, rfl, rfl⟩, rfl, rfl, rfl, rfl, rfl⟩

/-- An accrual leaves the accumulator and the parameters. -/
theorem accrue_frame {b b' : Burner} {tx : BurnerTx} {amountIn : Nat}
    (h : accruePerEpochCap b tx amountIn = .ok b') : SameTwap b b' ∧ SameParams b b' := by
  have hset := (accruePerEpochCap_eq_ok h).2
  unfold rollEpoch at hset
  split at hset <;> subst hset <;>
    exact ⟨⟨rfl, rfl, rfl, rfl, rfl, rfl, rfl⟩, rfl, rfl, rfl, rfl, rfl⟩

/-- An accepted buyback takes a sample, meets the floor and is accrued. -/
theorem executeBuyback_eq_ok {b b' : Burner} {tx : BurnerTx} {amountIn minOut : Nat}
    (h : executeBuyback b tx amountIn minOut = .ok b') :
    amountIn ≠ 0 ∧ ∃ spot mid floor, tx.venue.spotPrice = some spot ∧
      record b tx.timestamp spot = .ok mid ∧ twapFloor mid tx amountIn = .ok floor ∧
      floor ≤ minOut ∧ accruePerEpochCap mid tx amountIn = .ok b' := by
  rw [executeBuyback] at h
  simp only [bind_eq_ok, require_eq_ok, decide_eq_true_eq] at h
  rcases h with ⟨_, _, _, _, _, hpos, _, _, _, _, _, _, ⟨mid', reported, actual⟩, hswap, _, _,
    _, _, hset⟩
  rw [performSwap] at hswap
  simp only [bind_eq_ok, require_eq_ok, decide_eq_true_eq, updateTwapAccumulator,
    hook_eq_ok] at hswap
  rcases hswap with ⟨mid, ⟨spot, hspot, hrecord⟩, floor, hfloor, _, hmin, _, _, _, _, after,
    haccrue, swapped, _, hpair⟩
  have hafter : after = mid' := congrArg Prod.fst (Except.ok.inj hpair)
  have hset : mid' = b' := Except.ok.inj hset
  exact ⟨hpos, spot, mid, floor, hspot, hrecord, hfloor, hmin, by rw [haccrue, hafter, hset]⟩

theorem poke_eq_ok {b b' : Burner} {tx : BurnerTx} (h : poke b tx = .ok b') :
    ∃ spot, tx.venue.spotPrice = some spot ∧ record b tx.timestamp spot = .ok b' := by
  rw [poke] at h
  simp only [bind_eq_ok, updateTwapAccumulator, hook_eq_ok] at h
  rcases h with ⟨_, _, _, _, spot, hspot, hrecord⟩
  exact ⟨spot, hspot, hrecord⟩

/-! ## Every run -/

/-- A burner with what happened since its last reset: the samples taken and the buybacks
accepted. -/
structure World where
  burner : Burner
  now : Nat
  samples : List (Nat × Nat) := []
  accepted : List Purchase := []

/-- The sample that a transaction takes. -/
def sample (tx : BurnerTx) : List (Nat × Nat) :=
  tx.venue.spotPrice.toList.map fun spot => (tx.timestamp, spot)

/-- The world after a call that returns. -/
def World.after (w : World) (tx : BurnerTx) (burner : Burner) : Call → World
  | .poke => { w with burner, now := tx.timestamp, samples := w.samples ++ sample tx }
  | .executeBuyback amountIn _ =>
    { burner
      now := tx.timestamp
      samples := w.samples ++ sample tx
      accepted := w.accepted ++ [⟨epochAt tx.timestamp, amountIn, tx.venue.usdcDepthRaw,
        w.burner.epochLiquidityCapFraction⟩] }
  | .resetGuardState => { burner, now := tx.timestamp }
  | _ => { w with burner, now := tx.timestamp }

/-- The worlds a deployment can become, by calls at times that do not go back.  A call that
reverts changes nothing. -/
inductive Reachable : World → Prop where
  | deployed (g : GuardParams) (usdcDecimals now : Nat) {burner : Burner}
      (h : construct g usdcDecimals = .ok burner) : Reachable { burner, now }
  | call {w : World} {burner : Burner} (h : Reachable w) (tx : BurnerTx) (c : Call)
      (hnow : w.now ≤ tx.timestamp) (hexec : exec w.burner tx c = .ok burner) :
      Reachable (w.after tx burner c)

structure World.Inv (w : World) : Prop where
  valid : Valid w.burner
  twap : TwapInv w.burner w.samples w.now
  cap : CapInv w.burner w.accepted

/-- A fresh guard holds nothing. -/
theorem inv_fresh {burner : Burner} (now : Nat) (hvalid : Valid burner)
    (htwap : SameTwap (resetGuardState burner) burner)
    (hcap : SameCap (resetGuardState burner) burner) : World.Inv { burner, now } where
  valid := hvalid
  twap := TwapInv.congr ⟨Nat.zero_le _, fun _ => ⟨rfl, rfl, rfl⟩, fun h => absurd rfl h⟩ htwap
  cap := by
    refine CapInv.congr ⟨?_, fun _ => rfl, fun h => absurd rfl h⟩ hcap
    intro before first rest after heq
    simp at heq

theorem inv_construct {g : GuardParams} {usdcDecimals : Nat} {burner : Burner} (now : Nat)
    (h : construct g usdcDecimals = .ok burner) : World.Inv { burner, now } := by
  rw [construct] at h
  simp only [bind_eq_ok, requireCapFraction, require_eq_ok, decide_eq_true_eq] at h
  rcases h with ⟨_, hslippage, _, hfraction, _, hwindow, _, halive, _, hband, _, _, hset⟩
  have hset := Except.ok.inj hset
  subst hset
  exact inv_fresh now ⟨hwindow, hslippage, hfraction, hband, halive⟩
    ⟨rfl, rfl, rfl, rfl, rfl, rfl, rfl⟩ ⟨rfl, rfl, rfl⟩

/-- A setter moves one parameter. -/
theorem World.Inv.set {w : World} (h : w.Inv) {burner : Burner} {now : Nat}
    (hnow : w.now ≤ now) (hvalid : Valid burner) (htwap : SameTwap w.burner burner)
    (hcap : SameCap w.burner burner) : World.Inv { w with burner, now } :=
  ⟨hvalid, (h.twap.mono hnow).congr htwap, h.cap.congr hcap⟩

theorem World.Inv.exec {w : World} (h : w.Inv) {tx : BurnerTx} {c : Call} {burner : Burner}
    (hnow : w.now ≤ tx.timestamp) (hexec : exec w.burner tx c = .ok burner) :
    (w.after tx burner c).Inv := by
  cases c with
  | poke =>
    rcases poke_eq_ok hexec with ⟨spot, hspot, hrecord⟩
    rcases record_frame hrecord with ⟨hcap, hparams⟩
    refine ⟨h.valid.congr hparams, ?_, h.cap.congr hcap⟩
    show TwapInv burner (w.samples ++ sample tx) tx.timestamp
    rw [sample, hspot]
    exact h.twap.record hnow hrecord
  | executeBuyback amountIn minOut =>
    rcases executeBuyback_eq_ok hexec with ⟨hpos, spot, mid, floor, hspot, hrecord, _, _,
      haccrue⟩
    rcases record_frame hrecord with ⟨hcap, hparams⟩
    rcases accrue_frame haccrue with ⟨htwap, hparams'⟩
    have hfraction := hparams.2.2.1
    refine ⟨(h.valid.congr hparams).congr hparams', ?_, ?_⟩
    · show TwapInv burner (w.samples ++ sample tx) tx.timestamp
      rw [sample, hspot]
      exact (h.twap.record hnow hrecord).congr htwap
    · have hafter := (h.cap.congr hcap).accrue hpos haccrue
      rwa [hfraction] at hafter
  | resetGuardState =>
    have hset := Except.ok.inj hexec
    subst hset
    exact inv_fresh tx.timestamp (h.valid.congr ⟨rfl, rfl, rfl, rfl, rfl⟩)
      ⟨rfl, rfl, rfl, rfl, rfl, rfl, rfl⟩ ⟨rfl, rfl, rfl⟩
  | setSlippageTolerance newBps =>
    simp only [Buyback.exec, setSlippageTolerance, bind_eq_ok, require_eq_ok,
      decide_eq_true_eq] at hexec
    rcases hexec with ⟨_, _, _, hslippage, hset⟩
    have hset := Except.ok.inj hset
    subst hset
    exact h.set hnow { h.valid with slippage := hslippage }
      ⟨rfl, rfl, rfl, rfl, rfl, rfl, rfl⟩ ⟨rfl, rfl, rfl⟩
  | setMinBuybackAmount newAmount =>
    simp only [Buyback.exec, setMinBuybackAmount, bind_eq_ok, require_eq_ok,
      decide_eq_true_eq] at hexec
    rcases hexec with ⟨_, _, _, hband, hset⟩
    have hset := Except.ok.inj hset
    subst hset
    exact h.set hnow { h.valid with band := hband }
      ⟨rfl, rfl, rfl, rfl, rfl, rfl, rfl⟩ ⟨rfl, rfl, rfl⟩
  | setMaxBuybackAmount newAmount =>
    simp only [Buyback.exec, setMaxBuybackAmount, bind_eq_ok, require_eq_ok,
      decide_eq_true_eq] at hexec
    rcases hexec with ⟨_, _, _, halive, _, hband, hset⟩
    have hset := Except.ok.inj hset
    subst hset
    exact h.set hnow { h.valid with band := hband, alive := halive }
      ⟨rfl, rfl, rfl, rfl, rfl, rfl, rfl⟩ ⟨rfl, rfl, rfl⟩
  | setEpochLiquidityCapFraction newBps =>
    simp only [Buyback.exec, setEpochLiquidityCapFraction, requireCapFraction, bind_eq_ok,
      require_eq_ok, decide_eq_true_eq] at hexec
    rcases hexec with ⟨_, _, _, hfraction, hset⟩
    have hset := Except.ok.inj hset
    subst hset
    exact h.set hnow { h.valid with fraction := hfraction }
      ⟨rfl, rfl, rfl, rfl, rfl, rfl, rfl⟩ ⟨rfl, rfl, rfl⟩

/-- The invariant holds after every run. -/
theorem Reachable.inv {w : World} (h : Reachable w) : w.Inv := by
  induction h with
  | deployed g usdcDecimals now h => exact inv_construct now h
  | call _ tx c hnow hexec ih => exact ih.exec hnow hexec

/-- After every run a price that is given, also the one that the floor of a buyback takes after
its own sample, is a time average of the samples since the last reset, and the buybacks of
each epoch are within its cap. -/
theorem twap_and_cap {w : World} (h : Reachable w) :
    (∀ now price, w.now ≤ now → twapPrice w.burner now = .ok price →
      TimeAverage w.burner w.samples now price) ∧
    (∀ now spot mid price, w.now ≤ now → record w.burner now spot = .ok mid →
      twapPrice mid now = .ok price →
      TimeAverage mid (w.samples ++ [(now, spot)]) now price) ∧
    WithinCap w.accepted := by
  have hinv := h.inv
  have hwindow : 0 < w.burner.twapMinWindow := (by decide : 0 < minTwapWindow).trans_le
    hinv.valid.window
  refine ⟨fun now price hnow => hinv.twap.timeAverage hwindow hnow, ?_, hinv.cap.within⟩
  intro now spot mid price hnow hrecord hprice
  refine (hinv.twap.record hnow hrecord).timeAverage ?_ (Nat.le_refl now) hprice
  rw [(record_frame hrecord).2.1]
  exact hwindow

/-! ## A run -/

/-- One call as an event of a run: `none` if it is out of order or reverts. -/
def applyCall (w : World) (e : BurnerTx × Call) : Option World :=
  if w.now ≤ e.1.timestamp then
    match exec w.burner e.1 e.2 with
    | .ok burner => some (w.after e.1 burner e.2)
    | .error _ => none
  else none

/-- Calls that evaluate are a run. -/
theorem Reachable.of_runEvents {w w' : World} {calls : List (BurnerTx × Call)}
    (hw : Reachable w) (h : runEvents applyCall (fun _ _ => true) w calls = some w') :
    Reachable w' := by
  refine runEvents_invariant (P := Reachable) (fun a e b ha hstep => ?_) hw h
  unfold applyCall at hstep
  split at hstep
  · rename_i hnow
    split at hstep
    · rename_i burner hexec
      cases hstep
      exact ha.call e.1 e.2 hnow hexec
    · cases hstep
  · cases hstep

def sampleParams : GuardParams where
  twapMinWindow := 1800
  maxBuybackAmount := 1000
  minBuybackAmount := 1
  slippageBps := 200
  epochLiquidityCapFraction := 1000

def sampleBurner : Burner where
  twapMinWindow := 1800
  usdcTo18 := 10 ^ 12
  slippageBps := 200
  minBuybackAmount := 1
  maxBuybackAmount := 1000
  epochLiquidityCapFraction := 1000

/-- A transaction of the keeper at a time and a spot, with a depth of 10000. -/
def sampleTx (timestamp spot : Nat) : BurnerTx where
  timestamp := timestamp
  hasRole _ := true
  paused := false
  usdcBalance := 5000
  venue := ⟨true, some spot, 10000, 0, fun _ minOut => some (minOut, minOut)⟩

/-- Two samples, the second at twice the first's price, and a buyback at a much higher spot,
which has no weight in its own floor. -/
def sampleCalls : List (BurnerTx × Call) :=
  [(sampleTx 1000 (10 ^ 18), .poke), (sampleTx 2000 (2 * 10 ^ 18), .poke),
    (sampleTx 3000 (9 * 10 ^ 18), .executeBuyback 100 (2 * 10 ^ 14))]

theorem twap_and_cap_sample :
    ∃ w, Reachable w ∧ twapPrice w.burner 3000 = .ok (3 * 10 ^ 18 / 2) ∧
      TimeAverage w.burner w.samples 3000 (3 * 10 ^ 18 / 2) ∧
      w.accepted.map Purchase.amount = [100] ∧ WithinCap w.accepted := by
  have hrun : ((runEvents applyCall (fun _ _ => true) ⟨sampleBurner, 900, [], []⟩
      sampleCalls).map fun w => (w.now, w.accepted.map Purchase.amount,
        (twapPrice w.burner 3000).toOption)) =
      some (3000, [100], some (3 * 10 ^ 18 / 2)) := by decide +kernel
  rcases Option.map_eq_some_iff.mp hrun with ⟨w, hw, hfields⟩
  have hreach : Reachable w :=
    (Reachable.deployed sampleParams 6 900 (by decide +kernel)).of_runEvents hw
  have hnow : w.now = 3000 := congrArg Prod.fst hfields
  have hamounts : w.accepted.map Purchase.amount = [100] :=
    congrArg (fun fields => fields.2.1) hfields
  have hoption : (twapPrice w.burner 3000).toOption = some (3 * 10 ^ 18 / 2) :=
    congrArg (fun fields => fields.2.2) hfields
  have hprice : twapPrice w.burner 3000 = .ok (3 * 10 ^ 18 / 2) := by
    cases hresult : twapPrice w.burner 3000 with
    | error e =>
      rw [hresult] at hoption
      cases hoption
    | ok price =>
      rw [hresult] at hoption
      exact congrArg _ (Option.some.inj hoption)
  have hmain := twap_and_cap hreach
  exact ⟨w, hreach, hprice, hmain.1 3000 _ hnow.le hprice, hamounts, hmain.2.2⟩

end Decdn.Governance.Buyback
