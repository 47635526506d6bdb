import Decdn.Foundations.Journal
import Decdn.Session.Streams

/-!
# The chronicle of a lane

The invariant that ties the two ends together.  A chronicle is the abstract
account behind a lane: the journal of the anchors the payer has signed, the chain
of each epoch, the position the node has reached, and the items on their way.
The payer's ledger stands at the front of the journal, the node's lane at the
position, and every stream's proofs line up with the chunks it is owed.

Main definitions:

- Definition `PayerAt`: the ledger stands at the front of the journal.
- Definition `LaneAt`: the node's lane stands at a position.
- Definition `StreamAt`: one stream's proofs and chunks line up.
- Definition `Joint`: all of it together.
-/

namespace Decdn.Session

open PaymentPool (Crypto)
open Incentive Client Node
open PoolLedger (Issue)

variable {ι : Type*}

/-! ## Chronicles -/

/-- A chunk costs the quoted rate, and a megabyte is a chunk. -/
def Terms.tariff (t : Terms ι) : Tariff where
  price := t.ratePerMb.toNat
  unit := chunkBytes
  rate := t.ratePerMb.toNat
  scale := mbBytes
  price_pos := t.rate_pos
  unit_pos := chunkBytes_pos
  fair := le_of_eq (Nat.mul_comm _ _)

/-- The account behind a lane. -/
structure Chronicle (ι : Type*) where
  journal : Journal
  chains : Nat → ChainEpoch
  position : Position
  items : ι → List (Item × Nat)

/-- The epoch of a lane that meters no chain. -/
def sealedEpoch : ChainEpoch := ⟨fun _ => 0, 0, 0⟩

/-- The newest epoch. -/
def Chronicle.top (C : Chronicle ι) : Nat := C.journal.last.epoch

/-- The chain section signed in an epoch. -/
def Chronicle.commit (C : Chronicle ι) (k : Nat) : ChainCommit :=
  ⟨(C.chains k).root, (C.chains k).chunkPrice⟩

/-- The ledger stands at the front of the journal. -/
structure PayerAt (t : Terms ι) (C : Chronicle ι) (roots : List Bytes32) (l : PoolLedger) :
    Prop where
  ordered : C.journal.Ordered t.tariff
  armed : l.pipeline.armed = none
  committed : l.pipeline.committed = ⟨C.journal.last.bytes, C.journal.last.amount⟩
  accrued : l.pipeline.accrued =
    ⟨C.journal.ticks C.top * chunkBytes, C.journal.ticks C.top * t.ratePerMb.toNat⟩
  epoch : l.epoch = if C.top = 0 then none else some (C.chains C.top)
  released : ∀ k ≤ C.top, (C.chains k).released = C.journal.ticks k
  sealed : C.chains 0 = sealedEpoch
  price : ∀ k, 0 < k → k ≤ C.top → (C.chains k).chunkPrice = t.ratePerMb.toNat
  ladder : ∀ k, 0 < k → k ≤ C.top → ∃ seed, (C.chains k).preimages = preimageAt t.env.H seed
  ticks_le : ∀ k, C.journal.ticks k ≤ maxChainLength
  drawn : ∀ k ≤ C.top, (C.chains k).root ∈ roots
  distinct : ∀ j k, j ≤ C.top → k ≤ C.top → (C.chains j).root = (C.chains k).root → j = k
  claim_le : C.journal.front.amount t.tariff ≤ t.lane.cap
  bytes_le : ∀ e ∈ C.journal.entries, e.bytes ≤ u64Max

/-- The lane's chain at a position. -/
def Chronicle.laneChain (C : Chronicle ι) (P : Position) : LaneChain where
  chainRoot := (C.chains P.entry.epoch).root
  chunkPrice := (C.chains P.entry.epoch).chunkPrice
  verifiedIndex := P.index
  tip := (C.chains P.entry.epoch).preimages P.index

/-- The node's lane stands at a position of the journal. -/
structure LaneAt (t : Terms ι) (C : Chronicle ι) (P : Position) (lane : LaneDeliveryState) :
    Prop where
  state_eq : lane.state = { t.lane with
    lastAmount := P.entry.amount
    lastBytesDelivered := P.entry.bytes
    lastSignature := lane.state.lastSignature
    chain := C.laneChain P }
  unsigned : lane.state.lastSignature = none →
    P.entry.epoch = 0 ∧ P.entry.amount = 0 ∧ P.entry.bytes = 0
  cumulative : lane.bytesDeliveredCumulative = P.bytes t.tariff

/-- A voucher that carries an entry of the journal. -/
structure Carried (C : Chronicle ι) (v : Issue) (e : Entry) : Prop where
  fits : v.fitsWire = true
  next : v.next = ⟨e.bytes, e.amount⟩
  commit : v.commit = C.commit e.epoch

/-- A proof on its way carries an item of the journal. -/
inductive Matches (C : Chronicle ι) : Sent → Item × Nat → Prop where
  | voucher {v : Issue} {e : Entry} {worth : Nat} (h : Carried C v e) :
      Matches C ⟨.voucher v, worth⟩ (.entry e, worth)
  | reveal {released : Released} {k worth : Nat} (hpos : 0 < released.index)
      (hpreimage : released.preimage = (C.chains k).preimages released.index) :
      Matches C ⟨.chunkPreimage released, worth⟩ (.tick k released.index, worth)

/-! ## Chunks and proofs -/

/-- The node's chunks from `x` delivered and paid bytes on: whole chunks, and the
remainder of the range once all of it is out. -/
def Cut (expected delivered unvouchered : Nat) : Nat → List OwedChunk → Prop
  | x, [] => x + unvouchered = delivered
  | x, owed :: chunks => owed.remaining = owed.len ∧
    (owed.len = chunkBytes ∨ owed.len < chunkBytes ∧ x + owed.len = expected) ∧
    Cut expected delivered unvouchered (x + owed.len) chunks

/-- The payer's proofs from `x` paid bytes on, up to `proved`: a reveal is worth a
chunk, a metering voucher nothing while a whole chunk is verified, and the
closing voucher the remainder of the range. -/
def Line (expected verified : Nat) : Nat → List Sent → Nat → Prop
  | x, [], proved => x = proved
  | x, ⟨.chunkPreimage _, worth⟩ :: queue, proved =>
    worth = chunkBytes ∧ Line expected verified (x + worth) queue proved
  | x, ⟨.voucher v, worth⟩ :: queue, proved =>
    (worth = 0 ∧ v.commit.chainRoot ≠ 0 ∧ x + chunkBytes ≤ verified ∨
      0 < worth ∧ worth < chunkBytes ∧ x + worth = expected) ∧
    Line expected verified (x + worth) queue proved

variable {expected delivered unvouchered verified proved x : Nat} {queue : List Sent}
  {pending : List OwedChunk}

/-- The chunks add up to what has been delivered. -/
theorem Cut.total (h : Cut expected delivered unvouchered x pending) :
    x + (unvouchered + (pending.map OwedChunk.remaining).sum) = delivered := by
  induction pending generalizing x with
  | nil => simpa [Cut] using h
  | cons owed chunks ih =>
    rcases h with ⟨hwhole, -, hrest⟩
    have htotal := ih hrest
    simp only [List.map_cons, List.sum_cons, hwhole]
    omega

/-- A frame inside a chunk. -/
theorem Cut.extend (h : Cut expected delivered unvouchered x pending) (len : Nat) :
    Cut expected (delivered + len) (unvouchered + len) x pending := by
  induction pending generalizing x with
  | nil =>
    change x + (unvouchered + len) = delivered + len
    have h : x + unvouchered = delivered := h
    omega
  | cons owed chunks ih => exact ⟨h.1, h.2.1, ih h.2.2⟩

/-- A frame that completes a chunk or the range. -/
theorem Cut.push (h : Cut expected delivered unvouchered x pending) (owed : OwedChunk)
    (hwhole : owed.remaining = owed.len) (hpos : unvouchered ≤ owed.len)
    (hle : owed.len ≤ chunkBytes)
    (hlen : owed.len = chunkBytes ∨ delivered + (owed.len - unvouchered) = expected) :
    Cut expected (delivered + (owed.len - unvouchered)) 0 x (pending ++ [owed]) := by
  induction pending generalizing x with
  | nil =>
    have h : x + unvouchered = delivered := h
    refine ⟨hwhole, ?_, ?_⟩
    · omega
    · change x + owed.len + 0 = delivered + (owed.len - unvouchered)
      omega
  | cons first chunks ih => exact ⟨h.1, h.2.1, ih h.2.2⟩

/-- The proofs add up to what has been proved. -/
theorem Line.total (h : Line expected verified x queue proved) :
    x + (queue.map Sent.worth).sum = proved := by
  induction queue generalizing x with
  | nil => simpa [Line] using h
  | cons sent queue ih =>
    rcases sent with ⟨message, worth⟩
    cases message with
    | voucher v =>
      have htotal := ih h.2
      simp only [List.map_cons, List.sum_cons]
      omega
    | chunkPreimage released =>
      have htotal := ih h.2
      simp only [List.map_cons, List.sum_cons]
      omega

/-- More verified bytes change nothing. -/
theorem Line.mono {verified' : Nat} (h : Line expected verified x queue proved)
    (hle : verified ≤ verified') : Line expected verified' x queue proved := by
  induction queue generalizing x with
  | nil => exact h
  | cons sent queue ih =>
    rcases sent with ⟨message, worth⟩
    cases message with
    | voucher v =>
      refine ⟨h.1.imp ?_ id, ih h.2⟩
      rintro ⟨hworth, hroot, hchunk⟩
      exact ⟨hworth, hroot, le_trans hchunk hle⟩
    | chunkPreimage released => exact ⟨h.1, ih h.2⟩

/-- One more proof at the end of the line. -/
theorem Line.append {sent : Sent} {proved' : Nat} (h : Line expected verified x queue proved)
    (hsent : Line expected verified proved [sent] proved') :
    Line expected verified x (queue ++ [sent]) proved' := by
  induction queue generalizing x with
  | nil =>
    have h : x = proved := h
    rw [h]
    exact hsent
  | cons first queue ih =>
    rcases first with ⟨message, worth⟩
    cases message with
    | voucher v => exact ⟨h.1, ih h.2⟩
    | chunkPreimage released => exact ⟨h.1, ih h.2⟩

/-! ## Streams -/

/-- One stream: its counters are in order, its proofs match the items on their way
and line up with its chunks, and the node knows it by the epoch of the last
voucher it read on it. -/
structure StreamAt (t : Terms ι) (C : Chronicle ι) (expected : Nat) (s : Stream)
    (items : List (Item × Nat)) : Prop where
  serving : s.stop = none
  unproved_le : s.meter.unproved ≤ s.verified
  verified_le : s.verified ≤ s.delivered
  delivered_le : s.delivered ≤ expected
  unvouchered_lt : s.unvouchered < chunkBytes ∧ (s.delivered = expected → s.unvouchered = 0)
  complete : s.meter.complete = true → expected ≤ s.verified
  busy : s.meter.pc ≠ .idle → chunkBytes ≤ s.meter.unproved
  sent : List.Forall₂ (Matches C) s.queue items
  line : ∃ x, Cut expected s.delivered s.unvouchered x s.pending ∧
    Line expected s.verified x s.queue (s.verified - s.meter.unproved)
  anchored : ∃ k k', k ≤ C.position.entry.epoch ∧ k' ≤ C.top ∧
    s.anchor = .adopt (C.chains k).root ∧ Follows k items k' ∧
    ∀ root, s.meter.anchoredRoot = some root → root = (C.chains k').root

variable [Fintype ι] [DecidableEq ι]

/-- The joint invariant of the two ends and all streams. -/
structure Joint (t : Terms ι) (s : LaneSession ι) (C : Chronicle ι) : Prop where
  payer : PayerAt t C s.roots s.ledger
  reached : C.position.In C.journal
  lane : LaneAt t C C.position s.lane
  conserved : Conserved t.tariff C.journal C.position s.lane.paidCredited C.items
  streams : ∀ σ, StreamAt t C (t.expected σ) (s.streams σ) (C.items σ)

end Decdn.Session
