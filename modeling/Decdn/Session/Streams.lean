import Decdn.Client.StreamMeter
import Decdn.Node.Credit

/-!
# A payer and a node over one lane

Both ends of one lane with any number of streams: the payer's ledger and the
node's lane, each shared by the streams, and for every stream the payer's meter,
the proofs on their way, and the node's serve loop with the chunks it is owed.

A stream delivers its proofs in the order they were sent; across streams every
order is possible.  The node reads a proof for the first chunk it is owed, as its
recoup loop does.

Main definitions:

- Definition `Terms.pay`: one step of a stream's `pay`.
- Definition `Terms.read`: the node reads one proof.
- Definition `Terms.apply`: the steps of the whole.
-/

namespace Decdn.Session

open PaymentPool (Crypto)
open Incentive Client Node
open PoolLedger (Issue)

/-! ## Terms -/

/-- What is fixed while the lane runs: the lane as the node first holds it, the
quoted rate, the wire bytes each stream asked for, and the payer's signing key.
`sign` makes canonical signatures that recover to the signer. -/
structure Terms (ι : Type*) where
  env : NodeEnv
  lane : LaneState
  ratePerMb : UInt64
  expected : ι → Nat
  sign : Voucher → Signature
  fresh : lane.Fresh
  cap_le : lane.cap ≤ u64Max
  /-- `QuoteResponse` with a zero rate is refused on receipt. -/
  rate_pos : 0 < ratePerMb.toNat
  record_eq : env.record = persistentRecord
  canonical : ∀ v, isHighS (sign v) = false
  recovers : ∀ v : Voucher, v.signer = lane.signer →
    env.K.recoverAddress (v.signingHash env.H) (sign v) = some lane.signer

/-! ## State -/

/-- The two ends of one stream.  `verified`, `meter` and `queue` are the payer's,
the rest is the node's serve loop; the first pending chunk is the one in hand. -/
structure Stream where
  meter : StreamMeter := {}
  verified : Nat := 0
  queue : List Sent := []
  delivered : Nat := 0
  unvouchered : Nat := 0
  pending : List OwedChunk := []
  anchor : StreamAnchor := {}
  stop : Option VoucherStop := none

/-- The lane's two ends and its streams; `roots` are the roots of every chain so
far (proof-only). -/
structure LaneSession (ι : Type*) where
  ledger : PoolLedger
  lane : LaneDeliveryState
  streams : ι → Stream
  roots : List Bytes32

variable {ι : Type*}

/-- A new ledger and a fresh lane. -/
def Terms.start (t : Terms ι) : LaneSession ι where
  ledger := .new .zero
  lane := .hydrated t.lane
  streams _ := {}
  roots := [0]

/-! ## The node's serve loop -/

/-- A completed interval or the closing remainder fits a chunk. -/
theorem chunkBytes_le_u64Max : chunkBytes ≤ u64Max := by
  unfold chunkBytes u64Max
  omega

/-- The deliver phase sends one frame, which never crosses a chunk boundary; a
completed chunk, or the remainder of a completed range, becomes owed. -/
def Stream.frame (s : Stream) (expected len : Nat) : Option Stream :=
  if h : 0 < len ∧ s.unvouchered + len ≤ chunkBytes ∧ s.delivered + len ≤ expected ∧
      s.stop = none then
    if s.unvouchered + len = chunkBytes ∨ s.delivered + len = expected then
      some { s with
        delivered := s.delivered + len
        unvouchered := 0
        pending := s.pending ++ [OwedChunk.new (s.unvouchered + len) (Nat.add_pos_right _ h.1)
          (le_trans h.2.1 chunkBytes_le_u64Max)] }
    else
      some { s with delivered := s.delivered + len, unvouchered := s.unvouchered + len }
  else none

/-- The recoup phase applies the outcome of one proof to the chunk in hand. -/
def Stream.recoup (s : Stream) (rest : List Sent) (owed : OwedChunk) (chunks : List OwedChunk)
    (anchor : StreamAnchor) : VoucherStop → Stream
  | .continued creditedBytes =>
    match owed.settle creditedBytes with
    | some (owed', paid) =>
      { s with
        queue := rest
        pending := if paid then chunks else owed' :: chunks
        anchor := anchor }
    | none => { s with queue := rest, anchor := anchor, stop := some .failed }
  | stop => { s with queue := rest, anchor := anchor, stop := some stop }

/-! ## The payer's end -/

/-- `mark_verified`, between two proofs. -/
def Stream.verify (s : Stream) (expected wire : Nat) : Option Stream :=
  if s.meter.pc = .idle then
    if s.verified < min wire s.delivered then
      some { s with
        verified := min wire s.delivered
        meter := { s.meter with
          unproved := s.meter.unproved + (min wire s.delivered - s.verified)
          complete := decide (expected ≤ min wire s.delivered) } }
    else some s
  else none

namespace Terms

variable (t : Terms ι)

/-- The voucher the payer signs. -/
def voucherOf (v : Issue) : Voucher where
  poolId := t.lane.poolId
  signer := t.lane.signer
  provider := t.lane.provider
  amount := v.next.amount
  bytesDelivered := v.next.bytes
  chainRoot := v.commit.chainRoot
  chunkPrice := v.commit.chunkPrice

/-- `signed_to_wire_voucher` of the signed voucher. -/
def wire (v : Issue) : WireVoucher where
  signature := some (t.sign (t.voucherOf v))
  amount := .ofNat v.next.amount
  bytesDelivered := .ofNat v.next.bytes
  chainRoot := v.commit.chainRoot
  chunkPrice := .ofNat v.commit.chunkPrice

/-- The message as the node reads it, with the frontier a preimage is first
walked against. -/
def proof (message : ClientMessage) (walked : Option (Nat × Bytes32)) : Proof :=
  match message with
  | .voucher v => .voucher (t.wire v)
  | .chunkPreimage released => .preimage (.ofNat released.index) released.preimage walked

/-! ## Steps -/

/-- What can happen: the node sends a frame, the payer's decoder verifies bytes, a
stream pays, or the node reads a proof. -/
inductive Event (ι : Type*) where
  | frame (σ : ι) (len : Nat)
  | verify (σ : ι) (wire : Nat)
  | pay (σ : ι) (seed : Bytes32)
  | read (σ : ι) (now : Nat) (walked : Option (Nat × Bytes32))

/-- A rollover folds something: since the stream found the chain spent, no sibling
has rolled it without a reveal after. -/
def Event.Folds (s : LaneSession ι) : Event ι → Prop
  | .pay σ _ => (s.streams σ).meter.pc = .rolling → s.ledger.pipeline.accrued.amount ≠ 0
  | _ => True

variable [DecidableEq ι]

/-- One step of a stream's `pay`; `seed` is what a new chain is drawn from. -/
def pay (s : LaneSession ι) (σ : ι) (seed : Bytes32) : Option (LaneSession ι) :=
  match (s.streams σ).meter.pay s.ledger t.ratePerMb.toNat (preimageAt t.env.H seed) with
  | some (meter, ledger, sent) =>
    some { s with
      ledger := ledger
      streams := Function.update s.streams σ
        { s.streams σ with meter := meter, queue := (s.streams σ).queue ++ sent.toList }
      roots := ledger.chainRoot.toList ++ s.roots }
  | none => none

/-- The node reads the next proof of a stream for the chunk in hand. -/
def read (s : LaneSession ι) (σ : ι) (now : Nat) (walked : Option (Nat × Bytes32)) :
    Option (LaneSession ι) :=
  match (s.streams σ).queue, (s.streams σ).pending, (s.streams σ).stop with
  | sent :: rest, owed :: chunks, none =>
    let r := commitOneProof { t.env with now := now } s.lane (s.streams σ).anchor
      (t.proof sent.message walked) t.ratePerMb owed
    some { s with
      lane := r.lane
      streams := Function.update s.streams σ
        ((s.streams σ).recoup rest owed chunks r.anchor r.stop) }
  | _, _, _ => none

/-- One step, if it is enabled. -/
def apply (s : LaneSession ι) : Event ι → Option (LaneSession ι)
  | .frame σ len =>
    ((s.streams σ).frame (t.expected σ) len).map fun stream =>
      { s with streams := Function.update s.streams σ stream }
  | .verify σ wire =>
    ((s.streams σ).verify (t.expected σ) wire).map fun stream =>
      { s with streams := Function.update s.streams σ stream }
  | .pay σ seed => t.pay s σ seed
  | .read σ now walked => t.read s σ now walked

/-- One enabled step. -/
def step (s : LaneSession ι) (e : Event ι) (s' : LaneSession ι) : Prop :=
  t.apply s e = some s'

/-- The lane is as the payment promises: a drawn chain's root is new, the cap is
not reached, and the capability is unexpired when a proof is read. -/
def Assumed (s : LaneSession ι) : Event ι → Prop
  | .pay σ seed => rootFromSeed t.env.H seed ∉ s.roots ∧
    ∀ s', t.pay s σ seed = some s' → s'.ledger.pipeline.owed.amount ≤ t.lane.cap
  | .read _ now _ =>
    NodeEnv.insideExpiryMargin { t.env with now := now } t.lane.expiry = false
  | _ => True

end Terms

/-- The bytes a stream's serve loop has delivered and not been paid for. -/
def Stream.unpaid (s : Stream) : Nat :=
  s.unvouchered + (s.pending.map OwedChunk.remaining).sum

/-- The bytes a stream's proofs on the way pay for. -/
def Stream.underWay (s : Stream) : Nat := (s.queue.map Sent.worth).sum

end Decdn.Session
