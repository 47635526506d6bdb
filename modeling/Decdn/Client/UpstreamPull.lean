import Decdn.Client.StreamMeter
import Decdn.Foundations.Runs

/-!
# What a pull pays

`UpstreamPull` of `client/src/lib.rs`: one stream of a lane, the wire bytes it took in, those
its decoder verified, and those no proof covers yet.  The lane's streams pay through one
ledger, and a payment of one may be interleaved with the payments of the others.

Main results:

- Theorem `PoolLedger.Sound.issue` and Theorem `PoolLedger.Sound.metered`: what a voucher and
  a reveal add to the lane's claim.
- Theorem `LaneInv.step`: what every step of the lane keeps.
- Theorem `pulls_pay_exactly`: a stream pays for what it verified, and for no more.
- Theorem `verified_past_promise`: what a decoder may report after a frame too many.
-/

namespace Decdn.Client

open Incentive

/-! ## The stream -/

/-- What a pull is doing. -/
inductive PullTask where
  /-- Reading and verifying. -/
  | reading
  /-- In `pay_one`; `stop` pays with `complete` set. -/
  | paying (stopping : Bool)
  /-- Its last payment has just returned. -/
  | paid
  /-- Stopped. -/
  | stopped
deriving DecidableEq, Repr

/-- `UpstreamPull`.  For the proof only: whether a read failed on a frame past the promise, and what
the stream's proofs added to the lane's claim. -/
structure UpstreamPull where
  expectedWireBytes : Nat
  maxReceivedWire : Nat
  ratePerMb : Nat
  meter : StreamMeter := {}
  cumulative : Nat := 0
  verified : Nat := 0
  unproved : Nat := 0
  task : PullTask := .reading
  failed : Bool := false
  proved : Nat := 0
  spent : Nat := 0
deriving DecidableEq, Repr

namespace UpstreamPull

/-- `take_in`, on the stream. -/
def takeIn (p : UpstreamPull) (len : Nat) : UpstreamPull :=
  { p with cumulative := U64.saturatingAdd p.cumulative len }

/-- A total past the promise or past the received-byte ceiling. -/
def overruns (p : UpstreamPull) (seen : Nat) : Bool :=
  decide (p.expectedWireBytes < seen) ||
    (decide (0 < p.maxReceivedWire) && decide (p.maxReceivedWire < seen))

/-- The `ChunkData` arm of `next_chunk`: the frame is taken in, and a total past the promise fails
the read.  So does one past the received-byte ceiling, which changes nothing on the stream. -/
def nextChunk (p : UpstreamPull) (len : Nat) : UpstreamPull :=
  let p := p.takeIn len
  { p with failed := p.failed || decide (p.expectedWireBytes < p.cumulative) }

/-- `mark_verified`. -/
def markVerified (p : UpstreamPull) (wire : Nat) : UpstreamPull :=
  let wire := min wire p.cumulative
  if p.verified < wire then
    { p with unproved := U64.saturatingAdd p.unproved (wire - p.verified), verified := wire }
  else p

/-- `pay_one` begins: the stream meter takes the unproved bytes. -/
def payOne (p : UpstreamPull) (complete stopping : Bool) : UpstreamPull :=
  { p with
    meter := { p.meter with unproved := p.unproved, complete }
    task := .paying stopping }

/-- `pay_verified`, up to its payment. -/
def payVerified (p : UpstreamPull) : UpstreamPull :=
  let complete := decide (p.expectedWireBytes ≤ p.verified)
  if p.unproved < chunkBytes ∧ ¬ (complete = true ∧ 0 < p.unproved) then { p with task := .paid }
  else p.payOne complete false

/-- The loop of `StreamMeter::pay` has nothing left to send. -/
def settled (p : UpstreamPull) : Bool :=
  decide (p.meter.pc = .idle) && decide (p.meter.unproved < chunkBytes) &&
    !(p.meter.complete && decide (0 < p.meter.unproved))

/-- `pay_one` returns. -/
def payReturned (p : UpstreamPull) (stopping : Bool) : UpstreamPull :=
  { p with unproved := p.meter.unproved, task := if stopping then .stopped else .paid }

/-- `arrived_rejection`, with no rejection among the frames: the stream with the frames it took in,
and the bytes noted on the lane. -/
def arrivedFrames (p : UpstreamPull) : List UInt64 → UpstreamPull × List Nat
  | [] => (p, [])
  | len :: frames =>
    if p.overruns (U64.saturatingAdd p.cumulative len.toNat) then (p, [len.toNat])
    else
      let (q, noted) := (p.takeIn len.toNat).arrivedFrames frames
      (q, len.toNat :: noted)

/-- `stop`, up to its payment. -/
def stop (p : UpstreamPull) (frames : List UInt64) : UpstreamPull × List Nat :=
  let (p, noted) := p.arrivedFrames frames
  (p.payOne true true, noted)

/-- Its receive loop may be polled. -/
def free (p : UpstreamPull) : Bool := p.task = .reading || p.task = .paid

end UpstreamPull

/-! ## The lane -/

/-- A lane: its ledger, the wire bytes noted on it, and its streams. -/
structure Lane where
  ledger : PoolLedger
  wireBytes : Nat := 0
  streams : List UpstreamPull := []

/-- What happens to one stream. -/
inductive PullEvent where
  | nextChunk (len : UInt64)
  | markVerified (wire : UInt64)
  | payVerified
  | stop (frames : List UInt64)
  | payStep (preimages : Nat → Bytes32)
  | payReturned

/-- What happens on a lane. -/
inductive LaneEvent where
  | opened (expectedWireBytes maxReceivedWire ratePerMb : UInt64)
  | stream (i : Nat) (e : PullEvent)

namespace Lane

/-- `note_wire`. -/
def noteWire (s : Lane) (noted : List Nat) : Lane :=
  { s with wireBytes := noted.foldl U64.saturatingAdd s.wireBytes }

/-- A stream in its place. -/
def put (s : Lane) (i : Nat) (p : UpstreamPull) : Lane := { s with streams := s.streams.set i p }

/-- One event of the stream `p`, the `i`-th of the lane. -/
def applyTo (s : Lane) (i : Nat) (p : UpstreamPull) : PullEvent → Option Lane
  | .nextChunk len =>
    if p.free then
      some ((s.put i { p.nextChunk len.toNat with task := .reading }).noteWire [len.toNat])
    else none
  | .markVerified wire =>
    if p.free then some (s.put i { p.markVerified wire.toNat with task := .reading }) else none
  | .payVerified => if p.free then some (s.put i p.payVerified) else none
  | .stop frames =>
    if p.free then
      let (p, noted) := p.stop frames
      some ((s.put i p).noteWire noted)
    else none
  | .payStep preimages =>
    match p.task with
    | .paying _ =>
      (p.meter.pay s.ledger p.ratePerMb preimages).map fun (meter, ledger, _) =>
        let before := s.ledger.pipeline.owed
        let after := ledger.pipeline.owed
        let p := { p with
          meter := meter
          proved := p.proved + (after.bytes - before.bytes)
          spent := p.spent + (after.amount - before.amount) }
        { s.put i p with ledger := ledger }
    | _ => none
  | .payReturned =>
    match p.task with
    | .paying stopping =>
      if p.settled then some (s.put i (p.payReturned stopping)) else none
    | _ => none

/-- One event. -/
def apply (s : Lane) : LaneEvent → Option Lane
  | .opened expectedWireBytes maxReceivedWire ratePerMb =>
    some { s with
      streams := s.streams ++
        [⟨expectedWireBytes.toNat, maxReceivedWire.toNat, ratePerMb.toNat, {}, 0, 0, 0, .reading,
          false, 0, 0⟩] }
  | .stream i e => s.streams[i]?.bind fun p => s.applyTo i p e

/-- One enabled step. -/
def step (s : Lane) (e : LaneEvent) (s' : Lane) : Prop := s.apply e = some s'

/-- A lane with no stream. -/
def start (seed : Cumulative) : Lane := { ledger := .new seed }

end Lane

/-- Streams open at a rate of at least `rate`. -/
def LaneEvent.AtLeast (rate : Nat) : LaneEvent → Prop
  | .opened _ _ ratePerMb => rate ≤ ratePerMb.toNat
  | .stream _ _ => True

instance (rate : Nat) : (e : LaneEvent) → Decidable (e.AtLeast rate)
  | .opened _ _ ratePerMb => inferInstanceAs (Decidable (rate ≤ ratePerMb.toNat))
  | .stream _ _ => inferInstanceAs (Decidable True)

/-! ## The claim of the ledger -/

namespace PoolLedger

variable {l l' : PoolLedger} {rate ratePerMb deltaBytes : Nat} {preimages : Nat → Bytes32}

/-- The ledger of a lane whose sends succeed and whose chains are priced at `rate` or more. -/
structure Sound (rate : Nat) (l : PoolLedger) : Prop where
  bytes_lt : l.pipeline.committed.bytes < U256.modulus
  amount_lt : l.pipeline.committed.amount < U256.modulus
  armed : l.pipeline.armed = none
  sealed : l.epoch = none → l.pipeline.accrued = .zero
  live : ∀ e, l.epoch = some e →
    l.pipeline.committed.bytes ≤ u64Max ∧ l.pipeline.committed.amount ≤ u64Max ∧
      l.pipeline.accrued = ⟨e.released * chunkBytes, e.released * e.chunkPrice⟩ ∧
      e.released ≤ maxChainLength ∧ e.chunkPrice ≤ u64Max ∧ rate ≤ e.chunkPrice

/-- A word and a chain's worth of reveals are far from the largest number. -/
theorem chain_fits {a n price : Nat} (ha : a ≤ u64Max) (hn : n ≤ maxChainLength + 1)
    (hprice : price ≤ u64Max) : a + n * price < U256.modulus := by
  have hmul : n * price ≤ (maxChainLength + 1) * u64Max := Nat.mul_le_mul hn hprice
  have hbound : u64Max + (maxChainLength + 1) * u64Max < U256.modulus := by decide +kernel
  omega

/-- The claim is the anchor and the accrual. -/
theorem Sound.owed (h : l.Sound rate) :
    l.pipeline.owed.bytes = l.pipeline.committed.bytes + l.pipeline.accrued.bytes ∧
      l.pipeline.owed.amount = l.pipeline.committed.amount + l.pipeline.accrued.amount := by
  unfold Pipeline.owed Cumulative.plus
  dsimp only
  cases hepoch : l.epoch with
  | none =>
    rw [h.sealed hepoch]
    exact ⟨U256.saturatingAdd_eq h.bytes_lt, U256.saturatingAdd_eq h.amount_lt⟩
  | some e =>
    rcases h.live e hepoch with ⟨hbytes, hamount, haccrued, hreleased, hprice, -⟩
    have hchunk : chunkBytes ≤ u64Max := by decide
    rw [haccrued]
    exact ⟨U256.saturatingAdd_eq (chain_fits hbytes (Nat.le_succ_of_le hreleased) hchunk),
      U256.saturatingAdd_eq (chain_fits hamount (Nat.le_succ_of_le hreleased) hprice)⟩

/-- Totals are their two axes. -/
theorem cumulative_eq {c : Cumulative} {bytes amount : Nat} (hbytes : c.bytes = bytes)
    (hamount : c.amount = amount) : c = ⟨bytes, amount⟩ := by
  rw [← hbytes, ← hamount]

/-- A word sum that is a word was not clamped. -/
theorem saturatingAdd_word {a b : Nat} (h : U256.saturatingAdd a b ≤ u64Max) :
    U256.saturatingAdd a b = a + b := by
  have hbound : u64Max < U256.modulus - 1 := by decide +kernel
  unfold U256.saturatingAdd at h ⊢
  omega

/-- A rounded-up price covers its bytes. -/
theorem price_covers (deltaBytes : Nat) {rate ratePerMb : Nat} (hrate : rate ≤ ratePerMb) :
    deltaBytes * rate ≤ (deltaBytes * ratePerMb + (mbBytes - 1)) / mbBytes * mbBytes := by
  have hmul := Nat.mul_le_mul_left deltaBytes hrate
  unfold mbBytes
  omega

/-- What a voucher signs, when it can be written. -/
theorem Sound.next (h : l.Sound rate) (hword : ratePerMb ≤ u64Max) (hdelta : deltaBytes ≤ u64Max)
    {action : EpochAction}
    (hfits : (l.issue deltaBytes ratePerMb action preimages).2.fitsWire = true) :
    (l.issue deltaBytes ratePerMb action preimages).2.next =
        ⟨l.pipeline.owed.bytes + deltaBytes, l.pipeline.owed.amount +
          (deltaBytes * ratePerMb + (mbBytes - 1)) / mbBytes⟩ ∧
      (l.issue deltaBytes ratePerMb action preimages).2.next.bytes ≤ u64Max ∧
      (l.issue deltaBytes ratePerMb action preimages).2.next.amount ≤ u64Max := by
  have hsettled : l.settlement = l.pipeline.owed := by
    unfold PoolLedger.settlement Pipeline.settlement
    rw [h.armed]
  have hnext : (l.issue deltaBytes ratePerMb action preimages).2.next =
      nextVoucher l.pipeline.owed deltaBytes ratePerMb := congrArg (nextVoucher · _ _) hsettled
  have hmul : deltaBytes * ratePerMb < U256.modulus :=
    Nat.lt_of_le_of_lt (Nat.mul_le_mul hdelta hword) (by decide +kernel)
  have hprice : U256.saturatingMul deltaBytes ratePerMb = deltaBytes * ratePerMb :=
    min_eq_left (Nat.le_sub_one_of_lt hmul)
  rcases of_decide_eq_true hfits with ⟨hamount, hbytes, -⟩
  rw [hnext] at hamount hbytes ⊢
  unfold nextVoucher at hamount hbytes ⊢
  rw [hprice] at hamount ⊢
  refine ⟨?_, hbytes, hamount⟩
  rw [saturatingAdd_word hbytes, saturatingAdd_word hamount]

/-- A voucher adds its bytes to the claim, and at least their price. -/
theorem Sound.issue (h : l.Sound rate) (hrate : rate ≤ ratePerMb) (hword : ratePerMb ≤ u64Max)
    (hdelta : deltaBytes ≤ u64Max) {action : EpochAction}
    (hfits : (l.issue deltaBytes ratePerMb action preimages).2.fitsWire = true) :
    (l.issue deltaBytes ratePerMb action preimages).1.Sound rate ∧
      (l.issue deltaBytes ratePerMb action preimages).1.pipeline.owed =
        ⟨l.pipeline.owed.bytes + deltaBytes, l.pipeline.owed.amount +
          (deltaBytes * ratePerMb + (mbBytes - 1)) / mbBytes⟩ := by
  rcases h.next hword hdelta hfits with ⟨hnext, hbytes, hamount⟩
  have hcommitted : (l.issue deltaBytes ratePerMb action preimages).1.pipeline.committed =
      (l.issue deltaBytes ratePerMb action preimages).2.next := rfl
  have haccrued : (l.issue deltaBytes ratePerMb action preimages).1.pipeline.accrued = .zero := rfl
  have hlt : u64Max < U256.modulus := by decide +kernel
  have hsound : (l.issue deltaBytes ratePerMb action preimages).1.Sound rate := by
    refine ⟨?_, ?_, rfl, fun _ => haccrued, ?_⟩
    · rw [hcommitted]
      exact Nat.lt_of_le_of_lt hbytes hlt
    · rw [hcommitted]
      exact Nat.lt_of_le_of_lt hamount hlt
    · intro e he
      rw [hcommitted, haccrued]
      refine ⟨hbytes, hamount, ?_⟩
      rcases l.issueArm_cases deltaBytes ratePerMb action preimages with
        ⟨hzero, hepoch, -⟩ | ⟨hepoch, -⟩
      · -- The chain stays, and nothing was released on it.
        rcases h.live e (hepoch.symm.trans he) with ⟨-, -, hold, hreleased, hprice, hle⟩
        rw [hzero] at hold
        exact ⟨hold, hreleased, hprice, hle⟩
      · cases hepoch.symm.trans he
        refine ⟨?_, Nat.zero_le _, hword, hrate⟩
        unfold ChainEpoch.opened
        rw [Nat.zero_mul, Nat.zero_mul]
        rfl
  refine ⟨hsound, ?_⟩
  rcases hsound.owed with ⟨howedBytes, howedAmount⟩
  rw [hcommitted, haccrued, hnext] at howedBytes howedAmount
  exact cumulative_eq (howedBytes.trans (Nat.add_zero _)) (howedAmount.trans (Nat.add_zero _))

/-- A reveal adds one chunk to the claim, at the price of its chain. -/
theorem Sound.metered (h : l.Sound rate) {anchored : Option Bytes32} {released : Released}
    {chunkPrice : Nat} (hread : l.meterRead anchored = .released released chunkPrice) :
    (l.meterAdvance released chunkPrice).Sound rate ∧ rate ≤ chunkPrice ∧
      (l.meterAdvance released chunkPrice).pipeline.owed =
        ⟨l.pipeline.owed.bytes + chunkBytes, l.pipeline.owed.amount + chunkPrice⟩ := by
  rcases meterRead_released hread with ⟨e, he, -, hnext, rfl, rfl⟩
  rcases h.live e he with ⟨hbytes, hamount, haccrued, -, hprice, hle⟩
  have hchunk : chunkBytes ≤ u64Max := by decide
  have hbytesFit := chain_fits hbytes (Nat.le_succ_of_le hnext) hchunk
  have hamountFit := chain_fits hamount (Nat.le_succ_of_le hnext) hprice
  rw [Nat.succ_mul] at hbytesFit hamountFit
  have hmore : (l.meterAdvance ⟨e.preimages (e.released + 1), e.released + 1, e.root⟩
      e.chunkPrice).pipeline.accrued =
        ⟨(e.released + 1) * chunkBytes, (e.released + 1) * e.chunkPrice⟩ := by
    unfold meterAdvance
    rw [haccrued]
    dsimp only
    rw [Nat.succ_mul, Nat.succ_mul, U256.saturatingAdd_eq (by omega),
      U256.saturatingAdd_eq (by omega)]
  have hsound : (l.meterAdvance ⟨e.preimages (e.released + 1), e.released + 1, e.root⟩
      e.chunkPrice).Sound rate := by
    refine ⟨h.bytes_lt, h.amount_lt, h.armed, ?_, ?_⟩
    · intro hnone
      unfold meterAdvance at hnone
      rw [he] at hnone
      cases hnone
    · intro e' he'
      unfold meterAdvance at he'
      rw [he] at he'
      cases he'
      exact ⟨hbytes, hamount, hmore, hnext, hprice, hle⟩
  refine ⟨hsound, hle, ?_⟩
  rcases hsound.owed with ⟨howedBytes, howedAmount⟩
  rcases h.owed with ⟨hbefore, hbefore'⟩
  rw [hmore] at howedBytes howedAmount
  rw [haccrued] at hbefore hbefore'
  refine cumulative_eq ?_ ?_
  · rw [howedBytes, hbefore, Nat.add_assoc]
    exact congrArg (l.pipeline.committed.bytes + ·) (Nat.succ_mul e.released chunkBytes)
  · rw [howedAmount, hbefore', Nat.add_assoc]
    exact congrArg (l.pipeline.committed.amount + ·) (Nat.succ_mul e.released e.chunkPrice)

end PoolLedger

/-- What a step of `pay` adds to the claim is what it takes off the unproved bytes, at no less than
its price. -/
theorem StreamMeter.Pays.adds {m m' : StreamMeter} {l l' : PoolLedger} {rate ratePerMb : Nat}
    {preimages : Nat → Bytes32} {sent : Option Sent}
    (hpays : StreamMeter.Pays m l ratePerMb preimages m' l' sent) (h : l.Sound rate)
    (hrate : rate ≤ ratePerMb) (hword : ratePerMb ≤ u64Max) (hunproved : m.unproved ≤ u64Max)
    (hbusy : m.pc ≠ .idle → chunkBytes ≤ m.unproved) :
    l'.Sound rate ∧ (m'.pc ≠ .idle → chunkBytes ≤ m'.unproved) ∧ m'.complete = m.complete ∧
      ∃ bytes cost, l'.pipeline.owed =
          ⟨l.pipeline.owed.bytes + bytes, l.pipeline.owed.amount + cost⟩ ∧
        bytes + m'.unproved = m.unproved ∧ bytes * rate ≤ cost * mbBytes := by
  have hnothing : ∀ t : PoolLedger, t.pipeline.owed =
      ⟨t.pipeline.owed.bytes + 0, t.pipeline.owed.amount + 0⟩ := fun _ => rfl
  have hzero : 0 * rate ≤ 0 * mbBytes := by rw [Nat.zero_mul, Nat.zero_mul]
  cases hpays with
  | quiet hbusy' hsame hcomplete hroot =>
    refine ⟨h, fun _ => hsame ▸ hbusy'.elim id hbusy, hcomplete, 0, 0, hnothing l, ?_, hzero⟩
    rw [Nat.zero_add, hsame]
  | metering hbusy' haction hfits hsame hcomplete hroot =>
    rcases h.issue hrate hword (Nat.zero_le _) hfits with ⟨hsound, howed⟩
    refine ⟨hsound, fun _ => hsame ▸ hbusy hbusy', hcomplete, 0, _, howed, ?_,
      PoolLedger.price_covers 0 hrate⟩
    rw [Nat.zero_add, hsame]
  | reanchored hbusy' hv hfits hsame hcomplete hroot =>
    refine ⟨h, fun _ => hsame ▸ hbusy hbusy', hcomplete, 0, 0, hnothing l, ?_, hzero⟩
    rw [Nat.zero_add, hsame]
  | revealed hbusy' hread hidle hless hcomplete hroot =>
    rcases h.metered hread with ⟨hsound, hprice, howed⟩
    refine ⟨hsound, fun hpc => absurd hidle hpc, hcomplete, chunkBytes, _, howed, ?_, ?_⟩
    · rw [hless]
      exact Nat.add_sub_cancel' (hbusy hbusy')
    · rw [Nat.mul_comm]
      exact Nat.mul_le_mul_right _ hprice
  | residual hsmall hpos hdone hfits hidle hnone hcomplete hroot =>
    rcases h.issue hrate hword hunproved hfits with ⟨hsound, howed⟩
    refine ⟨hsound, fun hpc => absurd hidle hpc, hcomplete, m.unproved, _, howed, ?_,
      PoolLedger.price_covers _ hrate⟩
    rw [hnone, Nat.add_zero]

/-! ## The invariant of a stream -/

namespace UpstreamPull

/-- The verified bytes no proof covers yet. -/
def due (p : UpstreamPull) : Nat :=
  match p.task with
  | .paying _ => p.meter.unproved
  | _ => p.unproved

/-- What holds of every stream of a lane. -/
structure Inv (rate : Nat) (p : UpstreamPull) : Prop where
  rate_le : rate ≤ p.ratePerMb
  word : p.ratePerMb ≤ u64Max
  cumulative_le : p.cumulative ≤ u64Max
  verified_le : p.verified ≤ p.cumulative
  promised : p.failed = false → p.cumulative ≤ p.expectedWireBytes
  exact : p.proved + p.due = p.verified
  busy : p.meter.pc ≠ .idle → chunkBytes ≤ p.meter.unproved
  idle : (∀ stopping, p.task ≠ .paying stopping) → p.meter.pc = .idle
  closing : ∀ stopping, p.task = .paying stopping →
    p.meter.complete = (stopping || decide (p.expectedWireBytes ≤ p.verified))
  paid : p.task = .paid →
    p.unproved < chunkBytes ∧ (p.expectedWireBytes ≤ p.verified → p.unproved = 0)
  stopped : p.task = .stopped → p.unproved = 0
  price : p.proved * rate ≤ p.spent * mbBytes

variable {rate : Nat} {p : UpstreamPull}

/-- A free stream is not paying. -/
theorem not_paying (h : p.free = true) (stopping : Bool) : p.task ≠ .paying stopping := by
  intro htask
  unfold free at h
  rw [htask] at h
  exact Bool.noConfusion h

/-- A free stream owes its unproved bytes. -/
theorem due_of_free (h : p.free = true) : p.due = p.unproved := by
  unfold due
  split
  · rename_i stopping htask
    exact absurd htask (not_paying h stopping)
  · rfl

/-- Bytes taken in are not verified. -/
theorem Inv.takeIn (h : p.Inv rate) (len : Nat)
    (hfits : p.failed = false → U64.saturatingAdd p.cumulative len ≤ p.expectedWireBytes) :
    (p.takeIn len).Inv rate :=
  { h with
    cumulative_le := Nat.min_le_right _ _
    verified_le := Nat.le_trans h.verified_le
      (Nat.le_min.mpr ⟨Nat.le_add_right _ _, h.cumulative_le⟩)
    promised := hfits }

/-- A free stream reads on. -/
theorem Inv.reading (h : p.Inv rate) (hfree : p.free = true) :
    ({ p with task := .reading } : UpstreamPull).Inv rate :=
  { h with
    exact := (congrArg (p.proved + ·) (due_of_free hfree).symm).trans h.exact
    idle := fun _ => h.idle (not_paying hfree)
    closing := nofun
    paid := nofun
    stopped := nofun }

/-- A frame keeps the invariant. -/
theorem Inv.nextChunk (h : p.Inv rate) (hfree : p.free = true) (len : Nat) :
    ({ p.nextChunk len with task := .reading } : UpstreamPull).Inv rate := by
  have hread := h.reading hfree
  refine { hread with
    cumulative_le := Nat.min_le_right _ _
    verified_le := Nat.le_trans h.verified_le
      (Nat.le_min.mpr ⟨Nat.le_add_right _ _, h.cumulative_le⟩)
    promised := ?_ }
  intro hgood
  rcases Bool.or_eq_false_iff.mp hgood with ⟨-, hover⟩
  exact Nat.le_of_not_lt (of_decide_eq_false hover)

/-- A report keeps the invariant. -/
theorem Inv.markVerified (h : p.Inv rate) (hfree : p.free = true) (wire : Nat) :
    ({ p.markVerified wire with task := .reading } : UpstreamPull).Inv rate := by
  have hread := h.reading hfree
  unfold UpstreamPull.markVerified
  dsimp only
  split
  · rename_i hmore
    have hexact := h.exact
    rw [due_of_free hfree] at hexact
    have hwire : min wire p.cumulative ≤ p.cumulative := Nat.min_le_right _ _
    have hword := h.cumulative_le
    have hadd : U64.saturatingAdd p.unproved (min wire p.cumulative - p.verified) =
        p.unproved + (min wire p.cumulative - p.verified) := U64.saturatingAdd_eq (by omega)
    refine { hread with
      verified_le := hwire, exact := ?_, closing := nofun, paid := nofun, stopped := nofun }
    change p.proved + U64.saturatingAdd _ _ = _
    rw [hadd]
    dsimp only
    omega
  · exact hread

/-- A payment begins. -/
theorem Inv.payOne (h : p.Inv rate) (hfree : p.free = true) {complete stopping : Bool}
    (hcomplete : complete = (stopping || decide (p.expectedWireBytes ≤ p.verified))) :
    (p.payOne complete stopping).Inv rate where
  rate_le := h.rate_le
  word := h.word
  cumulative_le := h.cumulative_le
  verified_le := h.verified_le
  promised := h.promised
  exact := (congrArg (p.proved + ·) (due_of_free hfree).symm).trans h.exact
  busy := fun hpc => absurd (h.idle (not_paying hfree)) hpc
  idle := fun hnone => absurd rfl (hnone stopping)
  closing := by
    intro stopping' htask
    cases htask
    exact hcomplete
  paid := nofun
  stopped := nofun
  price := h.price

/-- `pay_verified` keeps the invariant. -/
theorem Inv.payVerified (h : p.Inv rate) (hfree : p.free = true) : p.payVerified.Inv rate := by
  unfold UpstreamPull.payVerified
  dsimp only
  split
  · rename_i hsettled
    have hread := h.reading hfree
    refine { hread with
      idle := fun _ => h.idle (not_paying hfree), closing := nofun, paid := ?_, stopped := nofun }
    intro _
    refine ⟨hsettled.1, fun hdone => Nat.eq_zero_of_not_pos fun hpos => hsettled.2 ⟨?_, hpos⟩⟩
    exact decide_eq_true hdone
  · exact h.payOne hfree rfl

/-- The frames that had arrived keep the invariant. -/
theorem Inv.arrivedFrames (h : p.Inv rate) (frames : List UInt64) :
    (p.arrivedFrames frames).1.Inv rate ∧ (p.arrivedFrames frames).1.task = p.task := by
  induction frames generalizing p with
  | nil => exact ⟨h, rfl⟩
  | cons len frames ih =>
    unfold UpstreamPull.arrivedFrames
    split
    · exact ⟨h, rfl⟩
    · rename_i hover
      rw [Bool.not_eq_true] at hover
      refine ih (h.takeIn len.toNat fun _ => ?_)
      exact Nat.le_of_not_lt (of_decide_eq_false (Bool.or_eq_false_iff.mp hover).1)

/-- They are not paid for. -/
theorem arrivedFrames_account (p : UpstreamPull) (frames : List UInt64) :
    (p.arrivedFrames frames).1.proved = p.proved ∧ (p.arrivedFrames frames).1.spent = p.spent := by
  induction frames generalizing p with
  | nil => exact ⟨rfl, rfl⟩
  | cons len frames ih =>
    unfold UpstreamPull.arrivedFrames
    split
    · exact ⟨rfl, rfl⟩
    · exact ih (p.takeIn len.toNat)

/-- `stop` keeps the invariant. -/
theorem Inv.stop (h : p.Inv rate) (hfree : p.free = true) (frames : List UInt64) :
    (p.stop frames).1.Inv rate := by
  rcases h.arrivedFrames frames with ⟨hinv, htask⟩
  refine hinv.payOne ?_ rfl
  unfold free at hfree ⊢
  rw [htask]
  exact hfree

/-- A payment that returns has left less than a chunk, and nothing when it was the closing one. -/
theorem Inv.payReturned (h : p.Inv rate) {stopping : Bool} (htask : p.task = .paying stopping)
    (hsettled : p.settled = true) : (p.payReturned stopping).Inv rate := by
  unfold settled at hsettled
  rw [Bool.and_eq_true, Bool.and_eq_true, decide_eq_true_eq, decide_eq_true_eq,
    Bool.not_eq_true', Bool.and_eq_false_iff, decide_eq_false_iff_not] at hsettled
  rcases hsettled with ⟨⟨hidle, hless⟩, hclosed⟩
  have hclosing := h.closing stopping htask
  have hexact := h.exact
  have hdue : p.due = p.meter.unproved := by
    unfold due
    rw [htask]
  rw [hdue] at hexact
  have hnone : p.meter.complete = true → p.meter.unproved = 0 := by
    intro hcomplete
    rcases hclosed with hopen | hzero
    · rw [hcomplete] at hopen
      cases hopen
    · exact Nat.eq_zero_of_not_pos hzero
  unfold UpstreamPull.payReturned
  cases stopping with
  | true =>
    exact { h with
      exact := hexact
      idle := fun _ => hidle
      closing := nofun
      paid := nofun
      stopped := fun _ => hnone hclosing }
  | false =>
    exact { h with
      exact := hexact
      idle := fun _ => hidle
      closing := nofun
      paid := fun _ => ⟨hless, fun hdone => hnone (hclosing.trans (decide_eq_true hdone))⟩
      stopped := nofun }

/-- A step of a payment moves what it adds to the claim from the unproved bytes to the proved
ones. -/
theorem Inv.payStep {l l' : PoolLedger} {meter : StreamMeter} {preimages : Nat → Bytes32}
    {sent : Option Sent} {stopping : Bool} (h : p.Inv rate) (hl : l.Sound rate)
    (htask : p.task = .paying stopping)
    (hpay : p.meter.pay l p.ratePerMb preimages = some (meter, l', sent)) :
    l'.Sound rate ∧
      l.pipeline.owed.bytes ≤ l'.pipeline.owed.bytes ∧
      l.pipeline.owed.amount ≤ l'.pipeline.owed.amount ∧
      ({ p with
        meter := meter
        proved := p.proved + (l'.pipeline.owed.bytes - l.pipeline.owed.bytes)
        spent := p.spent + (l'.pipeline.owed.amount - l.pipeline.owed.amount) } :
          UpstreamPull).Inv rate := by
  have hexact := h.exact
  have hdue : p.due = p.meter.unproved := by
    unfold due
    rw [htask]
  rw [hdue] at hexact
  have hword : p.meter.unproved ≤ u64Max :=
    Nat.le_trans (hexact ▸ Nat.le_add_left _ _) (Nat.le_trans h.verified_le h.cumulative_le)
  rcases (StreamMeter.pay_cases hpay).adds hl h.rate_le h.word hword h.busy with
    ⟨hsound, hbusy, hcomplete, bytes, cost, howed, hbytes, hcost⟩
  have hmoreBytes : l'.pipeline.owed.bytes - l.pipeline.owed.bytes = bytes := by
    rw [howed]
    exact Nat.add_sub_cancel_left _ _
  have hmoreAmount : l'.pipeline.owed.amount - l.pipeline.owed.amount = cost := by
    rw [howed]
    exact Nat.add_sub_cancel_left _ _
  refine ⟨hsound, howed ▸ Nat.le_add_right _ _, howed ▸ Nat.le_add_right _ _, ?_⟩
  rw [hmoreBytes, hmoreAmount]
  refine { h with exact := ?_, busy := hbusy, idle := ?_, closing := ?_, paid := ?_, stopped := ?_,
                  price := ?_ }
  · unfold due
    dsimp only
    rw [htask]
    dsimp only
    omega
  · exact fun hnone => absurd htask (hnone stopping)
  · intro stopping' htask'
    exact hcomplete.trans (h.closing stopping' htask')
  · exact fun hpaid => absurd (htask.symm.trans hpaid) nofun
  · exact fun hstopped => absurd (htask.symm.trans hstopped) nofun
  · have hprice := h.price
    dsimp only
    rw [Nat.add_mul, Nat.add_mul]
    exact Nat.add_le_add hprice hcost

end UpstreamPull

/-! ## The invariant of the lane -/

/-- A value in its place changes the sum by what it changes. -/
theorem sum_set {α : Type} (f : α → Nat) {xs : List α} {i : Nat} {a : α} (h : xs[i]? = some a)
    (b : α) : ((xs.set i b).map f).sum + f a = (xs.map f).sum + f b := by
  induction xs generalizing i with
  | nil => cases h
  | cons x xs ih =>
    cases i with
    | zero =>
      cases h
      rw [List.set_cons_zero, List.map_cons, List.map_cons, List.sum_cons, List.sum_cons]
      omega
    | succ i =>
      have hrest := @ih i h
      rw [List.set_cons_succ, List.map_cons, List.map_cons, List.sum_cons, List.sum_cons]
      omega

/-- Every stream keeps its account, and the accounts add up to the claim above the seed. -/
structure LaneInv (rate : Nat) (seed : Cumulative) (s : Lane) : Prop where
  ledger : s.ledger.Sound rate
  streams : ∀ p ∈ s.streams, p.Inv rate
  bytes : s.ledger.pipeline.owed.bytes = seed.bytes + (s.streams.map UpstreamPull.proved).sum
  amount : s.ledger.pipeline.owed.amount = seed.amount + (s.streams.map UpstreamPull.spent).sum

variable {rate : Nat} {seed : Cumulative} {s s' : Lane}

/-- A lane starts with its seed. -/
theorem LaneInv.start (rate : Nat)
    (hseed : seed.bytes < U256.modulus ∧ seed.amount < U256.modulus) :
    LaneInv rate seed (.start seed) where
  ledger := by
    refine ⟨hseed.1, hseed.2, rfl, fun _ => rfl, ?_⟩
    intro e he
    cases he
  streams := by
    intro p hp
    cases hp
  bytes := by
    have hfits : seed.bytes + 0 < U256.modulus := hseed.1
    exact U256.saturatingAdd_eq hfits
  amount := by
    have hfits : seed.amount + 0 < U256.modulus := hseed.2
    exact U256.saturatingAdd_eq hfits

/-- A stream that changes without paying. -/
theorem LaneInv.put (h : LaneInv rate seed s) {i : Nat} {p q : UpstreamPull}
    (hp : s.streams[i]? = some p) (hq : q.Inv rate) (hproved : q.proved = p.proved)
    (hspent : q.spent = p.spent) (noted : List Nat) :
    LaneInv rate seed ((s.put i q).noteWire noted) := by
  have hbytes := sum_set UpstreamPull.proved hp q
  have hamount := sum_set UpstreamPull.spent hp q
  refine ⟨h.ledger, ?_, ?_, ?_⟩
  · intro r hr
    rcases List.mem_or_eq_of_mem_set hr with hr | rfl
    · exact h.streams r hr
    · exact hq
  · have hsum := h.bytes
    unfold Lane.noteWire Lane.put
    dsimp only
    omega
  · have hsum := h.amount
    unfold Lane.noteWire Lane.put
    dsimp only
    omega

/-- An event of a stream keeps the invariant of the lane. -/
theorem LaneInv.applyTo (h : LaneInv rate seed s) {i : Nat} {p : UpstreamPull} {e : PullEvent}
    (hp : s.streams[i]? = some p) (happly : s.applyTo i p e = some s') :
    LaneInv rate seed s' := by
  have hinv := h.streams p (List.mem_of_getElem? hp)
  cases e with
  | nextChunk len =>
    simp only [Lane.applyTo] at happly
    split at happly
    · rename_i hfree
      cases happly
      exact h.put hp (hinv.nextChunk hfree len.toNat) rfl rfl _
    · cases happly
  | markVerified wire =>
    simp only [Lane.applyTo] at happly
    split at happly
    · rename_i hfree
      cases happly
      refine h.put hp (hinv.markVerified hfree wire.toNat) ?_ ?_ []
      · unfold UpstreamPull.markVerified
        dsimp only
        split <;> rfl
      · unfold UpstreamPull.markVerified
        dsimp only
        split <;> rfl
    · cases happly
  | payVerified =>
    simp only [Lane.applyTo] at happly
    split at happly
    · rename_i hfree
      cases happly
      refine h.put hp (hinv.payVerified hfree) ?_ ?_ []
      · unfold UpstreamPull.payVerified
        dsimp only
        split <;> rfl
      · unfold UpstreamPull.payVerified
        dsimp only
        split <;> rfl
    · cases happly
  | stop frames =>
    simp only [Lane.applyTo] at happly
    split at happly
    · rename_i hfree
      cases happly
      rcases p.arrivedFrames_account frames with ⟨hproved, hspent⟩
      exact h.put hp (hinv.stop hfree frames) hproved hspent _
    · cases happly
  | payStep preimages =>
    simp only [Lane.applyTo] at happly
    split at happly
    · rename_i stopping htask
      rcases Option.map_eq_some_iff.mp happly with ⟨⟨meter, ledger, sent⟩, hpay, rfl⟩
      rcases hinv.payStep h.ledger htask hpay with ⟨hsound, hbytes, hamount, hq⟩
      have hsumBytes := sum_set UpstreamPull.proved hp { p with
        meter := meter
        proved := p.proved + (ledger.pipeline.owed.bytes - s.ledger.pipeline.owed.bytes)
        spent := p.spent + (ledger.pipeline.owed.amount - s.ledger.pipeline.owed.amount) }
      have hsumAmount := sum_set UpstreamPull.spent hp { p with
        meter := meter
        proved := p.proved + (ledger.pipeline.owed.bytes - s.ledger.pipeline.owed.bytes)
        spent := p.spent + (ledger.pipeline.owed.amount - s.ledger.pipeline.owed.amount) }
      have hclaimBytes := h.bytes
      have hclaimAmount := h.amount
      refine ⟨hsound, ?_, ?_, ?_⟩
      · intro r hr
        rcases List.mem_or_eq_of_mem_set hr with hr | rfl
        · exact h.streams r hr
        · exact hq
      · unfold Lane.put
        dsimp only at hsumBytes ⊢
        omega
      · unfold Lane.put
        dsimp only at hsumAmount ⊢
        omega
    · cases happly
  | payReturned =>
    simp only [Lane.applyTo] at happly
    split at happly
    · rename_i stopping htask
      split at happly
      · rename_i hsettled
        cases happly
        exact h.put hp (hinv.payReturned htask hsettled) rfl rfl []
      · cases happly
    · cases happly

/-- Every step keeps the invariant of the lane. -/
theorem LaneInv.step {e : LaneEvent} (h : LaneInv rate seed s) (hrate : e.AtLeast rate)
    (hstep : s.step e s') : LaneInv rate seed s' := by
  unfold Lane.step at hstep
  cases e with
  | opened expectedWireBytes maxReceivedWire ratePerMb =>
    cases hstep
    refine ⟨h.ledger, ?_, ?_, ?_⟩
    · intro p hp
      rcases List.mem_append.mp hp with hp | hp
      · exact h.streams p hp
      · rw [List.mem_singleton.mp hp]
        exact ⟨hrate, toNat_le_u64Max _, Nat.zero_le _, Nat.le_refl _, fun _ => Nat.zero_le _, rfl,
          fun hpc => absurd rfl hpc, fun _ => rfl, nofun, nofun, nofun, Nat.le_of_eq
            ((Nat.zero_mul _).trans (Nat.zero_mul _).symm)⟩
    · rw [List.map_append, List.sum_append]
      exact h.bytes
    · rw [List.map_append, List.sum_append]
      exact h.amount
  | stream i e =>
    rcases Option.bind_eq_some_iff.mp hstep with ⟨p, hp, happly⟩
    exact h.applyTo hp happly

/-! ## The pulls -/

/-- The price of bytes at a rate per MB, rounded up. -/
def priceOf (bytes rate : Nat) : Nat := (bytes * rate + (mbBytes - 1)) / mbBytes

/-- What covers the bytes covers their price. -/
theorem priceOf_le {bytes spent : Nat} (h : bytes * rate ≤ spent * mbBytes) :
    priceOf bytes rate ≤ spent := by
  unfold priceOf
  unfold mbBytes at h ⊢
  omega

/-- The streams together paid for their bytes. -/
theorem sum_price {streams : List UpstreamPull} (h : ∀ p ∈ streams, p.Inv rate) :
    (streams.map UpstreamPull.proved).sum * rate ≤
      (streams.map UpstreamPull.spent).sum * mbBytes := by
  induction streams with
  | nil => exact Nat.le_of_eq ((Nat.zero_mul _).trans (Nat.zero_mul _).symm)
  | cons p streams ih =>
    rcases List.forall_mem_cons.mp h with ⟨hp, hrest⟩
    rw [List.map_cons, List.map_cons, List.sum_cons, List.sum_cons, Nat.add_mul, Nat.add_mul]
    exact Nat.add_le_add hp.price (ih hrest)

/-- Over every run of any number of streams of a lane whose sends succeed: the lane's claim is its
seed and what the streams' proofs added, at no less than the lane's rate.  Each stream has proved
its verified bytes but for those due, it verified at most the bytes it took in, and at most the
promised length unless one of its reads failed on a frame past it; less than a chunk is left
unproved after a payment, and nothing once the promised length has verified or the stream was
stopped. -/
theorem pulls_pay_exactly (hseed : seed.bytes < U256.modulus ∧ seed.amount < U256.modulus)
    (hrun : Reaches Lane.step (fun _ e => e.AtLeast rate) (.start seed) s) :
    s.ledger.pipeline.owed.bytes = seed.bytes + (s.streams.map UpstreamPull.proved).sum ∧
      s.ledger.pipeline.owed.amount = seed.amount + (s.streams.map UpstreamPull.spent).sum ∧
      priceOf (s.streams.map UpstreamPull.proved).sum rate ≤
        (s.streams.map UpstreamPull.spent).sum ∧
      ∀ p ∈ s.streams,
        p.proved + p.due = p.verified ∧ p.verified ≤ p.cumulative ∧
          (p.failed = false → p.verified ≤ p.expectedWireBytes) ∧
          priceOf p.proved rate ≤ p.spent ∧
          (p.task = .paid → p.unproved < chunkBytes ∧
            (p.expectedWireBytes ≤ p.verified → p.proved = p.verified ∧
              (p.failed = false → p.proved = p.expectedWireBytes))) ∧
          (p.task = .stopped → p.proved = p.verified) := by
  have h : LaneInv rate seed s :=
    hrun.invariant (I := LaneInv rate seed) (.start rate hseed) fun _ _ _ hrate hstep h =>
      h.step hrate hstep
  refine ⟨h.bytes, h.amount, priceOf_le (sum_price h.streams), ?_⟩
  intro p hp
  have hinv := h.streams p hp
  have hexact := hinv.exact
  have hpromised : p.failed = false → p.verified ≤ p.expectedWireBytes :=
    fun hgood => Nat.le_trans hinv.verified_le (hinv.promised hgood)
  refine ⟨hexact, hinv.verified_le, hpromised, priceOf_le hinv.price, ?_, ?_⟩
  · intro htask
    have hdue : p.due = p.unproved := by
      unfold UpstreamPull.due
      rw [htask]
    rcases hinv.paid htask with ⟨hless, hdone⟩
    refine ⟨hless, fun hcomplete => ?_⟩
    rw [hdue, hdone hcomplete, Nat.add_zero] at hexact
    exact ⟨hexact, fun hgood => hexact.trans (Nat.le_antisymm (hpromised hgood) hcomplete)⟩
  · intro htask
    have hdue : p.due = p.unproved := by
      unfold UpstreamPull.due
      rw [htask]
    rw [hdue, hinv.stopped htask, Nat.add_zero] at hexact
    exact hexact

/-- The lane that a list of events leads to, and what its streams have promised, verified and
proved. -/
def runLane (rate : Nat) (events : List LaneEvent) : Option Lane :=
  runEvents Lane.apply (fun _ e => decide (e.AtLeast rate)) (.start .zero) events

/-- It is a run. -/
theorem runLane_reaches {events : List LaneEvent} (h : runLane rate events = some s) :
    Reaches Lane.step (fun _ e => e.AtLeast rate) (.start .zero) s :=
  Reaches.of_runEvents (fun _ _ hpass => of_decide_eq_true hpass) h

/-- A promise of 1000 bytes, at a rate of 10. -/
def sampleFrame (len : UInt64) : List LaneEvent :=
  [.opened 1000 0 10, .stream 0 (.nextChunk len), .stream 0 (.markVerified len)]

/-- Some steps of the `pay` of a stream, each stream with a chain of its own. -/
def samplePay (i steps : Nat) : List LaneEvent :=
  List.replicate steps (.stream i (.payStep (if i = 0 then sampleLadder else otherLadder)))

/-- Two streams of two chunks and of one, each with a rest, on one lane.  Both open a chain; the
first goes on under that of the second, and the second pays for its rest later. -/
def samplePulls : List LaneEvent :=
  [.opened 2097652 0 10, .opened 1048876 0 12, .stream 0 (.nextChunk 2097652),
    .stream 0 (.markVerified 2097652), .stream 0 .payVerified, .stream 1 (.nextChunk 1048876),
    .stream 1 (.markVerified 1048576), .stream 1 .payVerified] ++
    samplePay 0 2 ++ samplePay 1 2 ++ samplePay 0 2 ++ samplePay 1 2 ++ [.stream 1 .payReturned] ++
    samplePay 0 6 ++ [.stream 0 .payReturned, .stream 1 (.markVerified 1048876),
      .stream 1 .payVerified] ++ samplePay 1 1 ++ [.stream 1 .payReturned]

/-- Both streams have paid for what they were promised, three chunks with reveals and each rest with
a voucher; together at no less than the lower of their rates. -/
theorem pulls_pay_exactly_sample :
    ∃ s, Reaches Lane.step (fun _ e => e.AtLeast 10) (.start .zero) s ∧
      s.streams.map UpstreamPull.proved = [2 * chunkBytes + 500, chunkBytes + 300] ∧
      s.ledger.pipeline.owed.bytes = 3 * chunkBytes + 800 ∧
      s.ledger.pipeline.owed.amount = (s.streams.map UpstreamPull.spent).sum ∧
      priceOf (3 * chunkBytes + 800) 10 ≤ (s.streams.map UpstreamPull.spent).sum := by
  have hrun : (runLane 10 samplePulls).map (fun s => s.streams.map UpstreamPull.proved) =
      some [2 * chunkBytes + 500, chunkBytes + 300] := by
    decide +kernel
  rcases Option.map_eq_some_iff.mp hrun with ⟨s, hs, hproved⟩
  have hreach := runLane_reaches hs
  rcases pulls_pay_exactly ⟨by decide, by decide⟩ hreach with ⟨hbytes, hamount, hprice, -⟩
  have hsum : (s.streams.map UpstreamPull.proved).sum = 3 * chunkBytes + 800 := by
    rw [hproved]
    rfl
  rw [hsum] at hbytes hprice
  exact ⟨s, hreach, hproved, hbytes.trans (Nat.zero_add _), hamount.trans (Nat.zero_add _), hprice⟩

/-- A frame past the promise fails its read, but a report may count it as verified, and the next
payment pays for it. -/
theorem verified_past_promise :
    ∃ s, Reaches Lane.step (fun _ e => e.AtLeast 10) (.start .zero) s ∧
      ∃ p ∈ s.streams, p.expectedWireBytes = 1000 ∧ p.verified = 2000 ∧ p.proved = 2000 ∧
        ¬ p.verified ≤ p.expectedWireBytes := by
  have hrun : (runLane 10 (sampleFrame 2000 ++ [.stream 0 .payVerified,
      .stream 0 (.payStep sampleLadder), .stream 0 .payReturned])).map
        (fun s => s.streams.map fun p => (p.expectedWireBytes, p.verified, p.proved)) =
          some [(1000, 2000, 2000)] := by
    decide +kernel
  rcases Option.map_eq_some_iff.mp hrun with ⟨s, hs, hstreams⟩
  rcases List.map_eq_singleton_iff.mp hstreams with ⟨p, hp, hvalues⟩
  simp only [Prod.mk.injEq] at hvalues
  rcases hvalues with ⟨hexpected, hverified, hproved⟩
  refine ⟨s, runLane_reaches hs, p, hp ▸ List.mem_singleton_self p, hexpected, hverified, hproved,
    ?_⟩
  rw [hexpected, hverified]
  decide

end Decdn.Client
