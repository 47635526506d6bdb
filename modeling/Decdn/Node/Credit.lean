import Decdn.Foundations.FiniteMaps
import Decdn.Node.Voucher

/-!
# Credit safety of a lane

Streams of one lane draw their credit from the headroom between the bytes the
lane's claim covers and the bytes already credited.  Five outcomes of a proof
compute that headroom from different figures; all of them agree with the lane's
own claim, so no stream is ever credited for bytes no proof covers, and no byte
is credited twice.

Main results:

- Theorem `commitVoucher_cases` and Theorem `commitOnePreimage_cases`: what an
  accepted proof did to the lane.
- Theorem `Accounted.commit`: the accounting of one committed proof.
- Theorem `credit_safe`: the accounting over every run of any number of streams.
-/

namespace Decdn.Node

open PaymentPool (Crypto)
open Incentive

variable {env : NodeEnv} {lane lane' : LaneDeliveryState} {anchor : StreamAnchor}

/-! ## Credits -/

/-- The store of the running node: `PersistentPoolStateStore::record` buffers the
row in memory and returns `Ok` on every path. -/
def persistentRecord (_ : LaneState) : Bool := true

/-- Below the modulus a credit moves the total up to the watermark at most, by
at most what was asked for. -/
theorem creditAdvance_eq_some {paidCredited due watermark newCredited creditedBytes : Nat}
    (hpaid : paidCredited ≤ watermark) (hwidth : paidCredited + due < U256.modulus)
    (h : creditAdvance paidCredited due watermark = some (newCredited, creditedBytes)) :
    newCredited = paidCredited + creditedBytes ∧ newCredited ≤ watermark ∧
      creditedBytes ≤ due := by
  unfold creditAdvance at h
  dsimp only at h
  split at h
  · rw [U256.wrappingAdd_eq hwidth] at h
    rcases Prod.mk.inj (Option.some.inj h) with ⟨rfl, rfl⟩
    omega
  · cases h

/-- A paid stale proof is a credit. -/
theorem creditStale_eq_paid {paidCredited due watermark newCredited creditedBytes : Nat}
    (h : creditStale paidCredited due watermark = .paid newCredited creditedBytes) :
    creditAdvance paidCredited due watermark = some (newCredited, creditedBytes) := by
  unfold creditStale at h
  split at h
  · cases h
  · rename_i new credited hadvance
    split at h
    · cases h
      exact hadvance
    · cases h

/-- No voucher asks for more than its chunk still owes. -/
theorem voucherCreditDelta_le (wire : WireVoucher) (owed : OwedChunk) :
    voucherCreditDelta wire owed ≤ owed.remaining := by
  unfold voucherCreditDelta
  split
  · exact Nat.zero_le _
  · exact le_rfl

/-! ## What an accepted proof does -/

/-- How an accepted proof moved the lane's state, the watermark its credit is
drawn against, and the cumulative the lane is left with. -/
inductive LaneAdvance (env : NodeEnv) (lane : LaneDeliveryState) :
    LaneState → Nat → Nat → Prop where
  | advanced {sv : SignedVoucher} {s' : LaneState} {applied : Applied}
      (hwire : sv.voucher.FitsWire) (h : lane.state.advancePresigned sv = .ok (s', applied)) :
      LaneAdvance env lane s' (max s'.owedBytes sv.voucher.bytesDelivered)
        (max s'.owedBytes sv.voucher.bytesDelivered)
  | adopted {sv : SignedVoucher} {s' : LaneState} (hwire : sv.voucher.FitsWire)
      (h : lane.state.adoptChain sv = some s') :
      LaneAdvance env lane s' lane.bytesDeliveredCumulative lane.bytesDeliveredCumulative
  | satisfied :
      LaneAdvance env lane lane.state lane.bytesDeliveredCumulative lane.bytesDeliveredCumulative
  | revealed {root preimage : Bytes32} {index : UInt8} {walked : Option (Nat × Bytes32)}
      {s' : LaneState} {applied : Applied}
      (h : lane.state.advancePreimageVerified env.H root index preimage walked
        (LaneState.walk env.H index preimage walked) = .ok (s', applied)) :
      LaneAdvance env lane s' s'.owedBytes s'.owedBytes
  | covered :
      LaneAdvance env lane lane.state lane.state.owedBytes lane.bytesDeliveredCumulative

/-- The proof was accepted: the lane advanced and the stream drew a credit of at
most what its chunk still owes. -/
inductive Committed (env : NodeEnv) (lane : LaneDeliveryState) (owed : OwedChunk)
    (lane' : LaneDeliveryState) (creditedBytes : Nat) : Prop where
  | intro {watermark due : Nat}
      (hadvance : LaneAdvance env lane lane'.state watermark lane'.bytesDeliveredCumulative)
      (hdue : due ≤ owed.remaining)
      (hcredit : creditAdvance lane.paidCredited due watermark =
        some (lane'.paidCredited, creditedBytes))

/-- A voucher that passes verification advances the lane, or is satisfied already
and may install its chain. -/
theorem verifyVoucher_eq_ok {wire : WireVoucher} {sv : SignedVoucher} {ratePerMb : UInt64}
    {verified : VerifiedVoucher}
    (hsigned : wireVoucherToSigned wire lane.state.poolId lane.state.signer lane.state.provider =
      some sv)
    (h : verifyVoucher lane.state lane.bytesDeliveredCumulative sv wire ratePerMb =
      .ok verified) :
    LaneAdvance env lane verified.nextState verified.newBytes verified.newBytes := by
  have hwire := fitsWire_of_wire hsigned
  have hbytes : sv.voucher.bytesDelivered = wire.bytesDelivered.toNat := by
    unfold wireVoucherToSigned at hsigned
    rcases Option.map_eq_some_iff.mp hsigned with ⟨signature, -, rfl⟩
    rfl
  unfold verifyVoucher at h
  split at h
  · rename_i nextState applied hadvance
    split at h
    · obtain rfl := Except.ok.inj h
      rw [← hbytes]
      exact .advanced hwire hadvance
    · cases h
    · cases h
  · split at h
    · cases h
    · obtain rfl := Except.ok.inj h
      dsimp only
      cases hadopt : lane.state.adoptChain sv with
      | none => exact .satisfied
      | some s' => exact .adopted hwire hadopt
  · split at h <;> cases h

/-- A voucher leaves the lane alone and ends its stream, or is committed. -/
theorem commitVoucher_cases (hstore : env.record = persistentRecord) {wire : WireVoucher}
    {ratePerMb : UInt64} {owed : OwedChunk} {r : CommitResult}
    (h : commitVoucher env lane anchor wire ratePerMb owed = r) :
    (r.lane = lane ∧ ∀ n, r.stop ≠ .continued n) ∨
      ∃ creditedBytes, r.stop = .continued creditedBytes ∧
        Committed env lane owed r.lane creditedBytes := by
  unfold commitVoucher at h
  dsimp only at h
  split at h
  · subst h
    exact .inl ⟨rfl, by simp⟩
  split at h
  · subst h
    exact .inl ⟨rfl, by simp⟩
  rename_i sv hsigned
  split at h
  · subst h
    exact .inl ⟨rfl, by simp⟩
  · subst h
    exact .inl ⟨rfl, by simp⟩
  split at h
  · subst h
    exact .inl ⟨rfl, by simp⟩
  split at h
  · subst h
    exact .inl ⟨rfl, by simp⟩
  · subst h
    exact .inl ⟨rfl, by simp⟩
  rename_i verified hverified
  split at h
  · subst h
    exact .inl ⟨rfl, by simp⟩
  · subst h
    exact .inl ⟨rfl, by simp⟩
  rename_i newCredited creditedBytes hcredit
  rw [hstore] at h
  subst h
  refine .inr ⟨creditedBytes, rfl, .intro (verifyVoucher_eq_ok hsigned hverified)
    (voucherCreditDelta_le wire owed) ?_⟩
  split at hcredit
  · exact creditStale_eq_paid hcredit
  · split at hcredit
    · cases hcredit
    · rename_i hadvance
      cases hcredit
      exact hadvance

/-- A credit of at most 64 bits always fits. -/
theorem creditAdvance_ne_none {paidCredited due watermark : Nat} (hdue : due ≤ u64Max) :
    creditAdvance paidCredited due watermark ≠ none := by
  unfold creditAdvance
  have hwrap : U256.wrappingAdd paidCredited due ≤ paidCredited + due := Nat.mod_le _ _
  dsimp only
  rw [if_pos (by omega)]
  simp

/-- A reveal leaves the lane alone and ends its stream, or is committed. -/
theorem commitOnePreimage_cases (hstore : env.record = persistentRecord) {index : UInt8}
    {preimage : Bytes32} {walked : Option (Nat × Bytes32)} {owed : OwedChunk} {r : CommitResult}
    (h : commitOnePreimage env lane anchor index preimage walked owed = r) :
    (r.lane = lane ∧ ∀ n, r.stop ≠ .continued n) ∨
      ∃ creditedBytes, r.stop = .continued creditedBytes ∧
        Committed env lane owed r.lane creditedBytes := by
  unfold commitOnePreimage at h
  dsimp only at h
  split at h
  · subst h
    exact .inl ⟨rfl, by simp⟩
  split at h
  · subst h
    exact .inl ⟨rfl, by simp⟩
  rename_i root hanchor
  split at h
  · subst h
    exact .inl ⟨rfl, by simp⟩
  split at h
  · split at h
    · subst h
      exact .inl ⟨rfl, by simp⟩
    · subst h
      exact .inl ⟨rfl, by simp⟩
  rename_i nextState applied hadvance
  split at h
  · split at h
    · subst h
      exact .inl ⟨rfl, by simp⟩
    · subst h
      exact .inl ⟨rfl, by simp⟩
    · rename_i newCredited creditedBytes hcredit
      subst h
      exact .inr ⟨creditedBytes, rfl, .intro .covered le_rfl (creditStale_eq_paid hcredit)⟩
  · split at h
    · rename_i hnone
      exact absurd hnone (creditAdvance_ne_none (le_trans owed.remaining_le owed.len_le))
    · rename_i newCredited creditedBytes hcredit
      rw [hstore] at h
      subst h
      exact .inr ⟨creditedBytes, rfl, .intro (.revealed hadvance) le_rfl hcredit⟩

/-- A proof leaves the lane alone and ends its stream, or is committed. -/
theorem commitOneProof_cases (hstore : env.record = persistentRecord) {proof : Proof}
    {ratePerMb : UInt64} {owed : OwedChunk} {r : CommitResult}
    (h : commitOneProof env lane anchor proof ratePerMb owed = r) :
    (r.lane = lane ∧ ∀ n, r.stop ≠ .continued n) ∨
      ∃ creditedBytes, r.stop = .continued creditedBytes ∧
        Committed env lane owed r.lane creditedBytes := by
  cases proof with
  | voucher wire => exact commitVoucher_cases hstore h
  | preimage index preimage walked => exact commitOnePreimage_cases hstore h

/-! ## The lane's accounting -/

/-- The cached cumulative is the lane's own byte claim, and no more than that has
been credited. -/
structure Accounted (lane : LaneDeliveryState) : Prop where
  wire : WireLane lane.state
  cumulative_eq : lane.bytesDeliveredCumulative = lane.state.owedBytes
  credited_le : lane.paidCredited ≤ lane.bytesDeliveredCumulative

/-- A lane just loaded counts its whole claim as credited. -/
theorem Accounted.hydrated {s : LaneState} (h : WireLane s) :
    Accounted (LaneDeliveryState.hydrated s) :=
  ⟨h, rfl, le_rfl⟩

/-- Every outcome of a proof agrees with the lane's claim: the credit's watermark
and the new cumulative are both the claim of the new state, which covers the old
one. -/
theorem LaneAdvance.agrees {s' : LaneState} {watermark cumulative : Nat} (h : Accounted lane)
    (hadvance : LaneAdvance env lane s' watermark cumulative) :
    WireLane s' ∧ watermark = s'.owedBytes ∧ cumulative = s'.owedBytes ∧
      lane.state.owedBytes ≤ s'.owedBytes := by
  cases hadvance with
  | @advanced sv _ applied hwire hok =>
    have hstep : lane.state.step env.H (.presigned sv) s' := by
      simp [LaneState.step, LaneState.apply, hok, Except.toOption]
    have hguard : LaneEvent.FitsWire lane.state (.presigned sv) := hwire
    have hlane := h.wire.step hguard hstep
    -- The claim starts at the signed bytes, so the maximum is the claim.
    have hsigned : sv.voucher.bytesDelivered ≤ s'.owedBytes := by
      rw [hlane.owed_eq.2]
      rcases advancePresigned_cases hok with ⟨-, hbump | hroll⟩
      · rw [hbump.state_eq]
        exact Nat.le_add_right _ _
      · rw [hroll.state_eq]
        exact Nat.le_add_right _ _
    rw [max_eq_left hsigned]
    exact ⟨hlane, rfl, rfl, (h.wire.claim_step hguard hstep).1⟩
  | @adopted sv _ hwire hadopt =>
    have hlane := h.wire.step (H := env.H) (e := .adopt sv) hwire hadopt
    have hsame := h.wire.adopt_owedBytes hlane hadopt
    rw [h.cumulative_eq, hsame]
    exact ⟨hlane, rfl, rfl, le_rfl⟩
  | satisfied => exact ⟨h.wire, h.cumulative_eq, h.cumulative_eq, le_rfl⟩
  | @revealed root preimage index walked _ applied hok =>
    have hstep : lane.state.step env.H (.preimageVerified root index preimage walked) s' := by
      simp [LaneState.step, LaneState.apply, hok, Except.toOption]
    have hguard : LaneEvent.FitsWire lane.state (.preimageVerified root index preimage walked) :=
      trivial
    exact ⟨h.wire.step hguard hstep, rfl, rfl, (h.wire.claim_step hguard hstep).1⟩
  | covered => exact ⟨h.wire, rfl, h.cumulative_eq, le_rfl⟩

/-- A committed proof keeps the accounting, raises the credited total by exactly
the credit it returns, and credits at most what the chunk still owes. -/
theorem Accounted.commit {owed : OwedChunk} {creditedBytes : Nat} (h : Accounted lane)
    (hcommit : Committed env lane owed lane' creditedBytes) :
    Accounted lane' ∧ lane'.paidCredited = lane.paidCredited + creditedBytes ∧
      creditedBytes ≤ owed.remaining := by
  cases hcommit with
  | @intro watermark due hadvance hdue hcredit =>
    rcases hadvance.agrees h with ⟨hlane, hwatermark, hcumulative, hgrows⟩
    have hpaid := h.credited_le
    rw [h.cumulative_eq] at hpaid
    have hwidth := h.wire.owedBytes_lt
    have hlen := owed.len_le
    have hremaining := owed.remaining_le
    have hmodulus : lane.paidCredited + due < U256.modulus := by
      unfold U256.modulus
      unfold u64Max at hlen
      omega
    rcases creditAdvance_eq_some (by omega) hmodulus hcredit with ⟨hnew, hle, hcredited⟩
    refine ⟨⟨hlane, hcumulative, ?_⟩, hnew, le_trans hcredited hdue⟩
    rw [hcumulative, ← hwatermark]
    exact hle

/-! ## Any number of streams -/

section Streams

variable {ι : Type*}

/-- One lane and its streams: each stream's anchor and the `paid` counter of its
serve loop. -/
structure NodeLane (ι : Type*) where
  lane : LaneDeliveryState
  anchor : ι → StreamAnchor
  paid : ι → Nat

/-- A lane just loaded, before any stream has read a proof. -/
def NodeLane.hydrated (s : LaneState) : NodeLane ι where
  lane := .hydrated s
  anchor _ := {}
  paid _ := 0

/-- One proof read on one stream, for the chunk that stream is collecting. -/
structure ProofEvent (ι : Type*) where
  stream : ι
  proof : Proof
  ratePerMb : UInt64
  owed : OwedChunk
  now : Nat

/-- What can happen to the lane: a proof, or a clamp to the on-chain
registration. -/
inductive NodeEvent (ι : Type*) where
  | proof (ev : ProofEvent ι)
  | clamp (cap expiry : UInt64)

/-- The bytes an outcome credits its stream with. -/
def VoucherStop.credited : VoucherStop → Nat
  | .continued creditedBytes => creditedBytes
  | _ => 0

/-- What one proof comes to. -/
def NodeLane.commit (env : NodeEnv) (n : NodeLane ι) (ev : ProofEvent ι) : CommitResult :=
  commitOneProof { env with now := ev.now } n.lane (n.anchor ev.stream) ev.proof ev.ratePerMb
    ev.owed

/-- A proof keeps the accounting, raises the credited total by what it returns,
and returns at most what its chunk still owes. -/
theorem NodeLane.commit_accounted (hstore : env.record = persistentRecord) {n : NodeLane ι}
    (h : Accounted n.lane) (ev : ProofEvent ι) :
    Accounted (n.commit env ev).lane ∧
      (n.commit env ev).lane.paidCredited =
        n.lane.paidCredited + (n.commit env ev).stop.credited ∧
      (n.commit env ev).stop.credited ≤ ev.owed.remaining := by
  have hstore' : ({ env with now := ev.now } : NodeEnv).record = persistentRecord := hstore
  rcases commitOneProof_cases hstore' (r := n.commit env ev) rfl with
    ⟨hlane, hstop⟩ | ⟨creditedBytes, hstop, hcommit⟩
  · have hzero : (n.commit env ev).stop.credited = 0 := by
      cases hres : (n.commit env ev).stop with
      | continued m => exact absurd hres (hstop m)
      | rejected reason bundle => rfl
      | failed => rfl
    rw [hzero, hlane]
    exact ⟨h, rfl, Nat.zero_le _⟩
  · rw [hstop]
    exact h.commit hcommit

variable [DecidableEq ι]

/-- One event.  The serve loop adds the credit to its stream's `paid`. -/
def NodeLane.apply (env : NodeEnv) (n : NodeLane ι) : NodeEvent ι → NodeLane ι
  | .proof ev =>
    let r := n.commit env ev
    { lane := r.lane
      anchor := Function.update n.anchor ev.stream r.anchor
      paid := Function.update n.paid ev.stream (n.paid ev.stream + r.stop.credited) }
  | .clamp cap expiry =>
    { n with lane := { n.lane with state := n.lane.state.clampToRegistration cap expiry } }

/-- The steps of a lane and its streams. -/
def NodeLane.step (env : NodeEnv) (n : NodeLane ι) (e : NodeEvent ι) (n' : NodeLane ι) : Prop :=
  n' = n.apply env e

/-- The lane's accounting together with the streams' counters. -/
structure Balanced [Fintype ι] (start : Nat) (n : NodeLane ι) : Prop where
  accounted : Accounted n.lane
  total : n.lane.paidCredited = start + ∑ i, n.paid i

/-- Every event keeps the balance. -/
theorem Balanced.step [Fintype ι] (hstore : env.record = persistentRecord) {start : Nat}
    {n n' : NodeLane ι} {e : NodeEvent ι} (h : Balanced start n) (hstep : n.step env e n') :
    Balanced start n' := by
  subst hstep
  cases e with
  | proof ev =>
    rcases n.commit_accounted hstore h.accounted ev with ⟨haccounted, hraise, -⟩
    refine ⟨haccounted, ?_⟩
    have hsum := sum_update_add n.paid id ev.stream
      (n.paid ev.stream + (n.commit env ev).stop.credited)
    have hold := h.total
    simp only [id] at hsum
    simp only [NodeLane.apply]
    omega
  | clamp cap expiry =>
    refine ⟨⟨?_, h.accounted.cumulative_eq, h.accounted.credited_le⟩, h.total⟩
    exact h.accounted.wire.step (H := env.H) (e := .clamp cap expiry) trivial rfl

/-- Credit safety over every run: the credited total stays below the cached
cumulative, which is the lane's own byte claim; it is the start plus what all
streams were given; and from every reached state no proof lowers it, credits more
than its chunk still owes, or makes the chunk's settlement fail. -/
theorem credit_safe [Fintype ι] (hstore : env.record = persistentRecord) {fresh s : LaneState}
    (hfresh : fresh.Fresh)
    (hlane : Reaches (LaneState.step env.H) (fun s e => e.FitsWire s) fresh s) {n : NodeLane ι}
    (hrun : Reaches (NodeLane.step env) (fun _ _ => True) (NodeLane.hydrated s) n) :
    n.lane.paidCredited ≤ n.lane.bytesDeliveredCumulative ∧
      n.lane.bytesDeliveredCumulative = n.lane.state.owedBytes ∧
      n.lane.paidCredited = s.owedBytes + ∑ i, n.paid i ∧
      ∀ e n', n.step env e n' →
        n.lane.paidCredited ≤ n'.lane.paidCredited ∧
        ∀ ev, e = .proof ev →
          n'.paid ev.stream = n.paid ev.stream + (n.commit env ev).stop.credited ∧
          n'.lane.paidCredited = n.lane.paidCredited + (n.commit env ev).stop.credited ∧
          (n.commit env ev).stop.credited ≤ ev.owed.remaining ∧
          ∃ owed done, ev.owed.settle (n.commit env ev).stop.credited = some (owed, done) := by
  have hbalanced : Balanced s.owedBytes n := by
    refine hrun.invariant ⟨Accounted.hydrated (WireLane.of_reaches hfresh hlane), ?_⟩ ?_
    · simp [NodeLane.hydrated, LaneDeliveryState.hydrated]
    · intro a e b _ hstep ha
      exact ha.step hstore hstep
  refine ⟨hbalanced.accounted.credited_le, hbalanced.accounted.cumulative_eq, hbalanced.total,
    ?_⟩
  rintro e n' rfl
  cases e with
  | proof ev =>
    rcases n.commit_accounted hstore hbalanced.accounted ev with ⟨-, hraise, hle⟩
    refine ⟨le_trans (Nat.le_add_right _ _) (le_of_eq hraise.symm), ?_⟩
    rintro ev' hev
    obtain rfl : ev = ev' := by simpa using hev
    refine ⟨by simp [NodeLane.apply], hraise, hle, ?_⟩
    unfold OwedChunk.settle
    rw [if_pos hle]
    exact ⟨_, _, rfl⟩
  | clamp cap expiry =>
    refine ⟨le_rfl, ?_⟩
    intro ev hev
    cases hev

/-! ## A sample run -/

/-- The sample lane's node, with the running node's store. -/
def sampleEnv : NodeEnv where
  H := PaymentPool.sampleCrypto
  K := sampleEcdsa
  marginSecs := 100
  now := 0
  record := persistentRecord

/-- Two chains of one link, and the signer of the vouchers of 1 and 12 units. -/
def twoChainsEnv : NodeEnv :=
  { sampleEnv with
    H := { sampleEnv.H with
      keccak256 := fun x => if x = 0 then sampleRoot else if x = 5 then 6 else 0 }
    K := ⟨fun digest _ => if digest = 3 ∨ digest = 14 then some 2 else none⟩ }

/-- A voucher for a last chunk of less than a whole one. -/
def sampleVoucher (stream : Bool) (amount bytesDelivered : UInt64) (root : Bytes32) (len : Nat)
    (hpos : 0 < len) (hle : len ≤ u64Max) : ProofEvent Bool where
  stream := stream
  proof := .voucher ⟨some ⟨1, 1, false⟩, amount, bytesDelivered, root, 10⟩
  ratePerMb := 10
  owed := .new len hpos hle
  now := 5

/-- The first link of a chain for a whole chunk. -/
def sampleReveal (stream : Bool) (preimage : Bytes32) : ProofEvent Bool where
  stream := stream
  proof := .preimage 1 preimage none
  ratePerMb := 10
  owed := .new chunkBytes (by decide) (by decide)
  now := 5

/-- One stream opens a chain and reveals it, the other rolls it into a second one and reveals
that; between the two the first reveals again under the root that was superseded. -/
def sampleProofs : List (ProofEvent Bool) :=
  [sampleVoucher false 1 100 sampleRoot 100 (by decide) (by decide), sampleReveal false 0,
    sampleVoucher true 12 1048726 6 50 (by decide) (by decide), sampleReveal false 0,
    sampleReveal true 5]

/-- A list of proofs is a run. -/
theorem NodeLane.reaches_foldl (n : NodeLane ι) (evs : List (ProofEvent ι)) :
    Reaches (NodeLane.step env) (fun _ _ => True) n
      (evs.foldl (fun n ev => n.apply env (.proof ev)) n) := by
  induction evs generalizing n with
  | nil => exact .refl n
  | cons ev rest ih =>
    have hstep : n.step env (.proof ev) (n.apply env (.proof ev)) := rfl
    exact ((Reaches.refl n).tail trivial hstep).trans (ih _)

/-- Each stream was given its last chunk and one reveal, and these are all that was credited. -/
theorem credit_safe_sample : ∃ n : NodeLane Bool,
    Reaches (NodeLane.step twoChainsEnv) (fun _ _ => True) (NodeLane.hydrated sampleLane) n ∧
      n.anchor false = ⟨some sampleRoot⟩ ∧ n.lane.state.chain.chainRoot = 6 ∧
      n.paid false = 100 + chunkBytes ∧ n.paid true = 50 + chunkBytes ∧
      n.lane.paidCredited ≤ n.lane.state.owedBytes ∧
      n.lane.paidCredited = sampleLane.owedBytes + ∑ i, n.paid i := by
  have hrun : Reaches (NodeLane.step twoChainsEnv) (fun _ _ => True)
      (NodeLane.hydrated sampleLane) _ := NodeLane.reaches_foldl _ sampleProofs
  rcases credit_safe rfl ⟨rfl, rfl, rfl, rfl⟩ (Reaches.refl _) hrun with ⟨hle, howed, htotal, -⟩
  rw [howed] at hle
  exact ⟨_, hrun, by decide +kernel, by decide +kernel, by decide +kernel, by decide +kernel, hle,
    htotal⟩

end Streams

end Decdn.Node
