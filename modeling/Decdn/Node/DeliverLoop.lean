import Decdn.Foundations.Runs
import Decdn.Node.ChunkFramer
import Decdn.Node.FloorCredit
import Decdn.Node.Voucher

/-!
# The serve loop

`deliver_loop` of `handlers/client/delivery.rs`: frames go out while the credit
window has room, then proofs are collected until every payable chunk is paid,
round after round until the export is out and paid.  One step of the machine is
one stretch of the loop between two awaits; the event names what the await gave.

Main definitions:

- Definition `step`: the loop.
- Definition `Sound`: what holds between its steps.

Main results:

- Theorem `step_sound`: every step keeps it.
- Theorem `deliver_loop_sound`: accounting, frame bounds and progress of every
  run.
-/

namespace Decdn.Node

open FloorCredit (Handler ServeStop verifyLagBytes)
open Incentive (chunkBytes chunkBytes_pos)

/-! ## Owed chunks -/

/-- `pop_payable`: the next chunk the payer can pay for now. -/
def popPayable (pending : List OwedChunk) (unvouchered : Nat) (doneDelivering : Bool) :
    Option (OwedChunk × List OwedChunk) :=
  if 1 < pending.length ∨ verifyLagBytes ≤ unvouchered ∨ doneDelivering then
    match pending with
    | [] => none
    | owed :: rest => some (owed, rest)
  else none

/-- The bytes still unpaid in the queued chunks. -/
def held (pending : List OwedChunk) : Nat := (pending.map OwedChunk.remaining).sum

/-- `ensure_unpaid_bytes_tracked` succeeds. -/
def unpaidBytesTracked (delivered paid unvouchered : Nat) (pending : List OwedChunk) : Bool :=
  decide (paid ≤ delivered ∧ delivered - paid = U64.saturatingAdd unvouchered (held pending))

namespace DeliverLoop

/-! ## Frame sizes -/

/-- `CHUNK_GROUP_BYTES`. -/
def chunkGroupBytes : Nat := 16384

/-- `FIRST_FRAME_BYTES`. -/
def firstFrameBytes : Nat := 4 * chunkGroupBytes

/-- `MAX_PROOFS_PER_CHUNK`. -/
def maxProofsPerChunk : Nat := 8

/-- What the operator configured, and the ramp credit the stream took from its lane. -/
structure Terms where
  handler : Handler
  frameTargetBytes : UInt64
  carried : UInt64

/-- `frame_target`: never past the chunk boundary, nor past the room by more than a group. -/
def Terms.frameTarget (t : Terms) (unvouchered intervalBytes room : Nat) : Nat :=
  let toBoundary := if unvouchered < intervalBytes then intervalBytes - unvouchered
    else intervalBytes
  min (min t.frameTargetBytes.toNat toBoundary) (max room chunkGroupBytes)

/-- `first_frame_target`. -/
def Terms.firstFrameTarget (t : Terms) (intervalBytes openingWindow : Nat) : Nat :=
  min (t.frameTarget 0 intervalBytes openingWindow) firstFrameBytes

/-- The credit window at `paid` confirmed bytes, the carried credit added. -/
def Terms.window (t : Terms) (paid : Nat) : Nat :=
  t.handler.creditWindow chunkBytes (U64.saturatingAdd t.carried.toNat paid)

/-- An export whose wire bytes a 64-bit counter holds. -/
structure Export where
  items : List (Option Nat)
  fits : ChunkFramer.itemBytes items ≤ u64Max

/-! ## The machine -/

/-- One pass of the loop: its window, and both counters when it began. -/
structure Pass where
  window : Nat
  deliveredAtStart : Nat
  paidAtStart : Nat
deriving DecidableEq, Repr

/-- Why the loop returns an error. -/
inductive LoopFault where
  | frame (fault : FrameFault)
  | write
  | proof
  | overCredited
  | accounting
  | noProgress
deriving DecidableEq, Repr

/-- `ServeEnd` of the loop, or its error. -/
inductive LoopEnd where
  | completed (bytes : Nat)
  | stopped (stop : ServeStop) (bytes : Nat)
  | failed (fault : LoopFault)
deriving DecidableEq, Repr

/-- Where the loop stands. -/
inductive Phase where
  /-- At the top of the loop. -/
  | round
  /-- Before the next frame of the deliver phase. -/
  | deliver (pass : Pass)
  /-- Before the next owed chunk of the recoup phase; whether it has read a proof. -/
  | recoup (pass : Pass) (proofRead : Bool)
  /-- Waiting for a proof of the chunk in hand. -/
  | proofs (pass : Pass) (owed : OwedChunk) (attempts : Nat) (proofRead : Bool)
  /-- After the accounting check. -/
  | settled (pass : Pass) (collectedAny : Bool)
  | ended (result : LoopEnd)

/-- The variables of the loop. -/
structure Serve where
  chunks : ChunkFramer
  nextChunk : Option FrameChunks
  delivered : Nat
  paid : Nat
  unvouchered : Nat
  pending : List OwedChunk
  phase : Phase

/-- What `commit_one_proof` gives. -/
inductive ProofOutcome where
  | continued (creditedBytes : Nat)
  | rejected
  | failed
deriving DecidableEq, Repr

/-- What the awaited call gave. -/
inductive Event where
  /-- The loop goes on. -/
  | run
  /-- A frame was written or the write failed. -/
  | write (ok : Bool)
  | proof (outcome : ProofOutcome)
  /-- The pool, signer or takedown re-check stops the stream. -/
  | recheck (stop : ServeStop)
deriving DecidableEq, Repr

/-- The loop returns. -/
def Serve.finish (s : Serve) (result : LoopEnd) : Serve := { s with phase := .ended result }

/-- Ask the framer for the next frame. -/
def Serve.prefetch (s : Serve) (target : Nat) : Serve :=
  match s.chunks.nextFrameChunks target with
  | (chunks, .ok nextChunk) => { s with chunks := chunks, nextChunk := nextChunk }
  | (chunks, .error fault) => { s with chunks := chunks }.finish (.failed (.frame fault))

/-- Before the loop: the opening frame. -/
def start (t : Terms) (e : Export) : Serve :=
  Serve.prefetch ⟨.new e.items, none, 0, 0, 0, [], .round⟩
    (t.firstFrameTarget chunkBytes (t.window 0))

/-- A whole interval becomes an owed chunk. -/
def Serve.cutChunk (s : Serve) : Serve :=
  if h : chunkBytes ≤ s.unvouchered ∧ s.unvouchered ≤ u64Max then
    { s with
      pending := s.pending ++
        [OwedChunk.new s.unvouchered (lt_of_lt_of_le (by decide) h.1) h.2]
      unvouchered := 0 }
  else s

/-- The closing remainder becomes an owed chunk once the export is out. -/
def Serve.foldRemainder (s : Serve) : Serve :=
  if h : s.nextChunk.isNone ∧ 0 < s.unvouchered ∧ s.unvouchered ≤ u64Max then
    { s with
      pending := s.pending ++ [OwedChunk.new s.unvouchered h.2.1 h.2.2]
      unvouchered := 0 }
  else s

/-- One frame is on the wire, and the next is fetched for the room that remains. -/
def Serve.sent (t : Terms) (s : Serve) (pass : Pass) (frame : FrameChunks) : Serve :=
  let counted : Serve := { s with
    nextChunk := none
    delivered := U64.saturatingAdd s.delivered frame.total
    unvouchered := U64.saturatingAdd s.unvouchered frame.total }
  let cut := counted.cutChunk
  cut.prefetch
    (t.frameTarget cut.unvouchered chunkBytes (pass.window - (cut.delivered - cut.paid)))

/-- The deliver phase ends: with the export out its remainder is folded. -/
def Serve.endDeliver (s : Serve) (pass : Pass) : Serve :=
  { s.foldRemainder with phase := .recoup pass false }

/-- The next owed chunk, or the accounting check when none is payable. -/
def Serve.recoup (s : Serve) (pass : Pass) (proofRead : Bool) : Serve :=
  match popPayable s.pending s.unvouchered s.nextChunk.isNone with
  | some (owed, rest) => { s with pending := rest, phase := .proofs pass owed 0 proofRead }
  | none =>
    if unpaidBytesTracked s.delivered s.paid s.unvouchered s.pending then
      { s with phase := .settled pass proofRead }
    else s.finish (.failed .accounting)

/-- A proof for the chunk in hand was committed. -/
def Serve.credit (s : Serve) (pass : Pass) (owed : OwedChunk) (attempts creditedBytes : Nat) :
    Serve :=
  let s := { s with paid := U64.saturatingAdd s.paid creditedBytes }
  match owed.settle creditedBytes with
  | none => s.finish (.failed .overCredited)
  | some (_, true) => { s with phase := .recoup pass true }
  | some (owed, false) =>
    if maxProofsPerChunk ≤ attempts then
      s.finish (.stopped .proofBudgetExhausted s.delivered)
    else { s with phase := .proofs pass owed attempts true }

/-- `done`: the export is out and paid. -/
def Serve.isDone (s : Serve) : Bool :=
  s.nextChunk.isNone && s.pending.isEmpty && decide (s.unvouchered = 0)

/-- The end of a pass. -/
def Serve.again (s : Serve) (pass : Pass) : Serve :=
  if s.isDone then s.finish (.completed s.delivered)
  else if s.delivered = pass.deliveredAtStart ∧ s.paid = pass.paidAtStart then
    s.finish (.failed .noProgress)
  else { s with phase := .round }

/-- `deliver_loop`; `none` when the loop does not wait for the event. -/
def step (t : Terms) (s : Serve) (e : Event) : Option Serve :=
  match s.phase, e with
  | .round, .run =>
    some { s with phase := .deliver ⟨t.window s.paid, s.delivered, s.paid⟩ }
  | .deliver pass, e =>
    match s.nextChunk, e with
    | none, .run => some (s.endDeliver pass)
    | some frame, e =>
      if pass.window ≤ s.delivered - s.paid then
        if e = .run then some (s.endDeliver pass) else none
      else
        match e with
        | .write true => some (s.sent t pass frame)
        | .write false => some (s.finish (.failed .write))
        | _ => none
    | _, _ => none
  | .recoup pass proofRead, .run => some (s.recoup pass proofRead)
  | .proofs pass owed attempts _, .proof (.continued creditedBytes) =>
    some (s.credit pass owed (attempts + 1) creditedBytes)
  | .proofs _ _ _ _, .proof .rejected => some (s.finish (.stopped .voucherRejected s.delivered))
  | .proofs _ _ _ _, .proof .failed => some (s.finish (.failed .proof))
  | .proofs _ _ _ true, .recheck stop => some (s.finish (.stopped stop s.delivered))
  | .settled pass _, .run => some (s.again pass)
  | .settled _ true, .recheck stop =>
    if s.isDone then none else some (s.finish (.stopped stop s.delivered))
  | _, _ => none

/-! ## The invariant -/

/-- The bytes the framer has handed out. -/
def Serve.fetched (s : Serve) : Nat := s.delivered + s.nextChunk.elim 0 FrameChunks.total

/-- The bytes add up: what is delivered is paid, queued, in hand or not yet cut, and what is not
fetched is still in the framer. -/
structure Accounted (e : Export) (s : Serve) (inHand : Nat) : Prop where
  live : s.chunks.Live
  left : ChunkFramer.exportBytes e.items = s.chunks.left.map (s.fetched + ·)
  bytes : s.fetched + s.chunks.bytes ≤ u64Max
  balance : s.delivered = s.paid + s.unvouchered + held s.pending + inHand
  whole : ∀ owed ∈ s.pending, owed.len ≤ chunkBytes

/-- The frame held back fits its chunk, and the window as far as one group; there is none only
when the export is out. -/
structure Running (t : Terms) (e : Export) (s : Serve) (inHand : Nat) : Prop
    extends Accounted e s inHand where
  short : s.unvouchered < chunkBytes
  complete : s.nextChunk = none → s.chunks.left = some 0
  frame : ∀ frame, s.nextChunk = some frame → 0 < frame.total ∧
    s.unvouchered + frame.total ≤ chunkBytes ∧
    (frame.total ≤ chunkGroupBytes ∨ s.delivered + frame.total ≤ s.paid + t.window s.paid)

/-- The pass has delivered something, and a finished export has no remainder. -/
structure Passed (s : Serve) (pass : Pass) : Prop where
  floor : chunkBytes + verifyLagBytes ≤ pass.window
  moved : s.nextChunk.isSome → pass.deliveredAtStart < s.delivered
  folded : s.nextChunk = none → s.unvouchered = 0

/-- How the loop may end. -/
def LoopEnd.Sound (e : Export) (s : Serve) : LoopEnd → Prop
  | .completed bytes => s.paid = s.delivered ∧ bytes = s.delivered ∧
    ChunkFramer.exportBytes e.items = some s.delivered
  | .stopped _ _ => True
  | .failed fault => fault ≠ .overCredited ∧ fault ≠ .accounting ∧ fault ≠ .noProgress

/-- What holds in each phase. -/
def Phase.Sound (t : Terms) (e : Export) (s : Serve) : Phase → Prop
  | .round => Running t e s 0 ∧ s.delivered - s.paid < t.window s.paid
  | .deliver pass => Running t e s 0 ∧ pass.window = t.window s.paid ∧
    pass.deliveredAtStart ≤ s.delivered ∧
    (s.delivered - s.paid < pass.window ∨ pass.deliveredAtStart < s.delivered)
  | .recoup pass _ => Running t e s 0 ∧ Passed s pass
  | .proofs pass owed _ _ => Running t e s owed.remaining ∧ Passed s pass ∧
    owed.len ≤ chunkBytes
  | .settled pass _ => Running t e s 0 ∧ Passed s pass ∧
    popPayable s.pending s.unvouchered s.nextChunk.isNone = none
  | .ended result => result.Sound e s

/-- What holds between the steps of the loop. -/
def Sound (t : Terms) (e : Export) (s : Serve) : Prop := s.phase.Sound t e s

/-- A proof credits no more than the chunk in hand still owes. -/
def Credits (s : Serve) (e : Event) : Prop :=
  ∀ pass owed attempts proofRead creditedBytes, s.phase = .proofs pass owed attempts proofRead →
    e = .proof (.continued creditedBytes) → creditedBytes ≤ owed.remaining

/-! ## Windows -/

variable {t : Terms} {e : Export} {s s' : Serve} {inHand : Nat} {pass : Pass}

/-- The window holds a chunk and the lag behind it. -/
theorem window_floor (t : Terms) (paid : Nat) : chunkBytes + verifyLagBytes ≤ t.window paid := by
  have hfloor : U64.saturatingAdd chunkBytes verifyLagBytes = chunkBytes + verifyLagBytes := by
    decide
  unfold Terms.window FloorCredit.Handler.creditWindow FloorCredit.rampedCreditWindow
  rw [hfloor]
  dsimp only
  split
  · exact le_max_right _ _
  · exact le_max_left _ _

/-- It grows with what is paid. -/
theorem window_mono (t : Terms) {paid paid' : Nat} (h : paid ≤ paid') :
    t.window paid ≤ t.window paid' := by
  have hramp : U64.saturatingAdd t.carried.toNat paid ≤ U64.saturatingAdd t.carried.toNat paid' := by
    unfold U64.saturatingAdd
    omega
  unfold Terms.window FloorCredit.Handler.creditWindow FloorCredit.rampedCreditWindow
  dsimp only
  split
  · exact le_rfl
  · exact max_le_max le_rfl (min_le_min (Nat.div_le_div_right hramp) le_rfl)

/-- A frame is asked for within its chunk, and past the room by less than a group. -/
theorem frameTarget_le (t : Terms) {unvouchered : Nat} (room : Nat)
    (h : unvouchered < chunkBytes) :
    unvouchered + t.frameTarget unvouchered chunkBytes room ≤ chunkBytes ∧
      t.frameTarget unvouchered chunkBytes room ≤ max room chunkGroupBytes := by
  unfold Terms.frameTarget
  rw [if_pos h]
  dsimp only
  omega

/-! ## Steps -/

/-- Fetching the next frame faults, or holds one back that fits. -/
theorem Accounted.prefetch {target : Nat} (h : Accounted e s inHand) (hnone : s.nextChunk = none)
    (hshort : s.unvouchered < chunkBytes)
    (hchunk : s.unvouchered + target ≤ chunkBytes)
    (hroom : target ≤ max (t.window s.paid - (s.delivered - s.paid)) chunkGroupBytes) :
    (∃ chunks fault,
      s.prefetch target = Serve.finish { s with chunks := chunks } (.failed (.frame fault))) ∨
    ∃ chunks nextChunk, s.prefetch target = { s with chunks := chunks, nextChunk := nextChunk } ∧
      Running t e { s with chunks := chunks, nextChunk := nextChunk } inHand := by
  have hfetched : s.fetched = s.delivered := by
    unfold Serve.fetched
    rw [hnone]
    rfl
  have hpaid : s.paid ≤ s.delivered := by
    have hbalance := h.balance
    omega
  have hleft := h.left
  have hbytes := h.bytes
  rw [hfetched] at hleft hbytes
  have hcuts := ChunkFramer.nextFrameChunks_cases h.live target
  unfold Serve.prefetch
  split
  · rename_i chunks nextChunk hnext
    refine .inr ⟨chunks, nextChunk, rfl, ?_⟩
    rw [hnext] at hcuts
    cases hcuts with
    | frame hlive hpos hle hcut hcount =>
      rename_i frame
      refine ⟨⟨hlive, ?_, ?_, h.balance, h.whole⟩, hshort, nofun, ?_⟩
      · rw [hleft, hcut, Option.map_map]
        congr 1
        funext m
        exact (Nat.add_assoc _ _ _).symm
      · change s.delivered + frame.total + chunks.bytes ≤ u64Max
        omega
      · intro other hother
        cases hother
        refine ⟨hpos, ?_, ?_⟩
        · dsimp only
          omega
        · dsimp only
          omega
    | complete hlive hcut hcut' hcount =>
      refine ⟨⟨hlive, ?_, ?_, h.balance, h.whole⟩, hshort, fun _ => hcut', nofun⟩
      · rw [hleft, hcut, hcut']
        rfl
      · change s.delivered + 0 + chunks.bytes ≤ u64Max
        omega
  · rename_i chunks fault hnext
    exact .inl ⟨chunks, fault, rfl⟩

/-- A queue with one more chunk holds its remainder. -/
theorem held_append (pending : List OwedChunk) (owed : OwedChunk) :
    held (pending ++ [owed]) = held pending + owed.remaining := by
  simp [held]

/-- Cutting a chunk moves its bytes from the remainder to the queue. -/
theorem Accounted.cutChunk (h : Accounted e s inHand) (hle : s.unvouchered ≤ chunkBytes) :
    Accounted e s.cutChunk inHand ∧ s.cutChunk.unvouchered < chunkBytes := by
  have hpos := chunkBytes_pos
  have hmax : chunkBytes ≤ u64Max := by decide
  unfold Serve.cutChunk
  split
  · rename_i hcut
    refine ⟨⟨h.live, h.left, h.bytes, ?_, ?_⟩, hpos⟩
    · have hbalance := h.balance
      dsimp only
      rw [held_append]
      simp only [OwedChunk.new]
      omega
    · intro owed howed
      rcases List.mem_append.mp howed with hold | hnew
      · exact h.whole owed hold
      · rw [List.mem_singleton.mp hnew]
        exact hle
  · rename_i hopen
    exact ⟨h, by omega⟩

/-- It changes nothing else. -/
theorem cutChunk_keeps (s : Serve) : s.cutChunk.nextChunk = s.nextChunk ∧
    s.cutChunk.delivered = s.delivered ∧ s.cutChunk.paid = s.paid ∧
    s.cutChunk.phase = s.phase := by
  unfold Serve.cutChunk
  split
  · exact ⟨rfl, rfl, rfl, rfl⟩
  · exact ⟨rfl, rfl, rfl, rfl⟩

/-- A frame on the wire is counted once, and the one held back next fits again. -/
theorem sent_sound {frame : FrameChunks} (h : Running t e s 0) (hphase : s.phase = .deliver pass)
    (hframe : s.nextChunk = some frame) (hwindow : pass.window = t.window s.paid)
    (hstart : pass.deliveredAtStart ≤ s.delivered) : Sound t e (s.sent t pass frame) := by
  have hmax : chunkBytes ≤ u64Max := by decide
  rcases h.frame frame hframe with ⟨hpos, hchunk, -⟩
  have hfetched : s.fetched = s.delivered + frame.total := by
    unfold Serve.fetched
    rw [hframe]
    rfl
  have hbytes := h.bytes
  rw [hfetched] at hbytes
  have hdelivered : U64.saturatingAdd s.delivered frame.total = s.delivered + frame.total := by
    unfold U64.saturatingAdd
    omega
  have hunvouchered : U64.saturatingAdd s.unvouchered frame.total =
      s.unvouchered + frame.total := by
    unfold U64.saturatingAdd
    omega
  unfold Serve.sent
  rw [hdelivered, hunvouchered]
  dsimp only
  have hcounted : Accounted e { s with
      nextChunk := none
      delivered := s.delivered + frame.total
      unvouchered := s.unvouchered + frame.total } 0 := by
    refine ⟨h.live, ?_, ?_, ?_, h.whole⟩
    · rw [h.left, hfetched]
      rfl
    · change s.delivered + frame.total + 0 + s.chunks.bytes ≤ u64Max
      omega
    · have hbalance := h.balance
      dsimp only
      omega
  rcases hcounted.cutChunk hchunk with ⟨hcut, hshort⟩
  rcases cutChunk_keeps { s with
      nextChunk := none
      delivered := s.delivered + frame.total
      unvouchered := s.unvouchered + frame.total } with ⟨hnone, hdel, hpaid, hsame⟩
  generalize hc : Serve.cutChunk { s with
      nextChunk := none
      delivered := s.delivered + frame.total
      unvouchered := s.unvouchered + frame.total } = cut at *
  rcases frameTarget_le t (pass.window - (cut.delivered - cut.paid)) hshort with ⟨htarget, hroom⟩
  have hsamePaid : cut.paid = s.paid := hpaid
  have hroom' : t.frameTarget cut.unvouchered chunkBytes
      (pass.window - (cut.delivered - cut.paid)) ≤
        max (t.window cut.paid - (cut.delivered - cut.paid)) chunkGroupBytes := by
    rw [hsamePaid, ← hwindow, ← hsamePaid]
    exact hroom
  rcases hcut.prefetch hnone hshort htarget hroom' with
    ⟨chunks, fault, hfault⟩ | ⟨chunks, nextChunk, hnext, hrunning⟩
  · rw [hfault]
    exact ⟨nofun, nofun, nofun⟩
  · rw [hnext]
    have hdeliver : cut.phase = .deliver pass := hsame.trans hphase
    rw [hdeliver] at hrunning ⊢
    refine ⟨hrunning, ?_, ?_, .inr ?_⟩
    · rw [hwindow]
      exact congrArg t.window hpaid.symm
    · change pass.deliveredAtStart ≤ cut.delivered
      rw [hdel]
      dsimp only
      omega
    · change pass.deliveredAtStart < cut.delivered
      rw [hdel]
      dsimp only
      omega

/-- The deliver phase ends with the window shut or the export out, so it has delivered. -/
theorem endDeliver_sound (h : Running t e s 0) (hfloor : chunkBytes + verifyLagBytes ≤ pass.window)
    (hopen : s.delivered - s.paid < pass.window ∨ pass.deliveredAtStart < s.delivered)
    (hend : s.nextChunk = none ∨ pass.window ≤ s.delivered - s.paid) :
    Sound t e (s.endDeliver pass) := by
  have hpos := chunkBytes_pos
  have hmax : chunkBytes ≤ u64Max := by decide
  have hshort := h.short
  have hmoved : s.nextChunk.isSome → pass.deliveredAtStart < s.delivered := by
    intro hsome
    rcases hend with hnone | hshut
    · rw [hnone] at hsome
      cases hsome
    · exact hopen.resolve_left (by omega)
  unfold Serve.endDeliver Serve.foldRemainder
  split
  · rename_i hfold
    have hnone : s.nextChunk = none := Option.isNone_iff_eq_none.mp hfold.1
    refine ⟨⟨⟨h.live, h.left, h.bytes, ?_, ?_⟩, hpos, h.complete, ?_⟩, hfloor, hmoved,
      fun _ => rfl⟩
    · have hbalance := h.balance
      dsimp only
      rw [held_append]
      simp only [OwedChunk.new]
      omega
    · intro owed howed
      rcases List.mem_append.mp howed with hold | hnew
      · exact h.whole owed hold
      · rw [List.mem_singleton.mp hnew]
        exact le_of_lt hshort
    · intro frame hframe
      rw [show s.nextChunk = none from hnone] at hframe
      cases hframe
  · rename_i hfold
    refine ⟨⟨⟨h.live, h.left, h.bytes, h.balance, h.whole⟩, hshort, h.complete, h.frame⟩, hfloor,
      hmoved, ?_⟩
    intro hnone
    have hnone : s.nextChunk = none := hnone
    rw [hnone] at hfold
    dsimp only
    simp only [Option.isNone_none, true_and] at hfold
    omega

/-- A payable chunk is taken off the front of the queue. -/
theorem popPayable_cons {pending rest : List OwedChunk} {owed : OwedChunk} {unvouchered : Nat}
    {doneDelivering : Bool} (h : popPayable pending unvouchered doneDelivering = some (owed, rest)) :
    pending = owed :: rest := by
  unfold popPayable at h
  split at h
  · split at h
    · cases h
    · cases h
      rfl
  · cases h

/-- With nothing payable at most one chunk is queued, its lag has not gone out, and the export
is not done. -/
theorem popPayable_none {pending : List OwedChunk} {unvouchered : Nat} {doneDelivering : Bool}
    (h : popPayable pending unvouchered doneDelivering = none) :
    pending = [] ∨ ∃ owed, pending = [owed] ∧ unvouchered < verifyLagBytes ∧
      doneDelivering = false := by
  unfold popPayable at h
  split at h
  · split at h
    · exact .inl rfl
    · cases h
  · rename_i hnot
    simp only [not_or, not_lt, not_le, Bool.not_eq_true] at hnot
    rcases hnot with ⟨hlen, hlag, hdone⟩
    match pending, hlen with
    | [], _ => exact .inl rfl
    | [owed], _ => exact .inr ⟨owed, rfl, hlag, hdone⟩

/-- The recoup phase takes a chunk in hand or passes its check. -/
theorem recoup_sound {proofRead : Bool} (h : Running t e s 0) (hpassed : Passed s pass) :
    Sound t e (s.recoup pass proofRead) := by
  unfold Serve.recoup
  split
  · rename_i owed rest hpop
    have hpending := popPayable_cons hpop
    refine ⟨⟨⟨h.live, h.left, h.bytes, ?_, ?_⟩, h.short, h.complete, h.frame⟩,
      ⟨hpassed.floor, hpassed.moved, hpassed.folded⟩, ?_⟩
    · have hbalance := h.balance
      rw [hpending] at hbalance
      simp only [held, List.map_cons, List.sum_cons] at hbalance ⊢
      omega
    · intro other hother
      exact h.whole other (by rw [hpending]; exact List.mem_cons_of_mem _ hother)
    · exact h.whole owed (by rw [hpending]; exact List.mem_cons_self)
  · rename_i hnone
    have hbalance := h.balance
    have hbytes := h.bytes
    have hfetched : s.delivered ≤ s.fetched := Nat.le_add_right _ _
    have hsum : U64.saturatingAdd s.unvouchered (held s.pending) =
        s.unvouchered + held s.pending := by
      unfold U64.saturatingAdd
      omega
    have htracked : unpaidBytesTracked s.delivered s.paid s.unvouchered s.pending = true := by
      unfold unpaidBytesTracked
      rw [hsum]
      simp only [decide_eq_true_eq]
      omega
    rw [if_pos htracked]
    exact ⟨⟨⟨h.live, h.left, h.bytes, h.balance, h.whole⟩, h.short, h.complete, h.frame⟩,
      ⟨hpassed.floor, hpassed.moved, hpassed.folded⟩, hnone⟩

/-- A proof that credits no more than is owed keeps the balance. -/
theorem credit_sound {owed : OwedChunk} {attempts creditedBytes : Nat}
    (h : Running t e s owed.remaining) (hpassed : Passed s pass) (hlen : owed.len ≤ chunkBytes)
    (hcredit : creditedBytes ≤ owed.remaining) :
    Sound t e (s.credit pass owed attempts creditedBytes) := by
  have hbalance := h.balance
  have hbytes := h.bytes
  have hfetched : s.delivered ≤ s.fetched := Nat.le_add_right _ _
  have hpaid : U64.saturatingAdd s.paid creditedBytes = s.paid + creditedBytes := by
    unfold U64.saturatingAdd
    omega
  -- The window has only grown, so the frame held back fits it as before.
  have hframe : ∀ frame, s.nextChunk = some frame → 0 < frame.total ∧
      s.unvouchered + frame.total ≤ chunkBytes ∧
      (frame.total ≤ chunkGroupBytes ∨
        s.delivered + frame.total ≤ s.paid + creditedBytes + t.window (s.paid + creditedBytes)) := by
    intro frame hsome
    have hgrown := window_mono t (Nat.le_add_right s.paid creditedBytes)
    rcases h.frame frame hsome with ⟨hpos, hchunk, hroom⟩
    refine ⟨hpos, hchunk, hroom.imp id ?_⟩
    intro hroom
    omega
  unfold Serve.credit OwedChunk.settle
  rw [hpaid, if_pos hcredit]
  dsimp only
  split
  · rename_i hsettle
    cases hsettle
  · rename_i hsettle
    have hzero : owed.remaining - creditedBytes = 0 := by
      simpa using congrArg (Option.map Prod.snd) hsettle
    refine ⟨⟨⟨h.live, h.left, h.bytes, ?_, h.whole⟩, h.short, h.complete, hframe⟩,
      ⟨hpassed.floor, hpassed.moved, hpassed.folded⟩⟩
    dsimp only
    omega
  · rename_i owed' hsettle
    rcases Prod.mk.inj (Option.some.inj hsettle) with ⟨rfl, -⟩
    split
    · trivial
    · refine ⟨⟨⟨h.live, h.left, h.bytes, ?_, h.whole⟩, h.short, h.complete, hframe⟩,
        ⟨hpassed.floor, hpassed.moved, hpassed.folded⟩, hlen⟩
      dsimp only
      omega

/-- A pass ends done, fully paid, or with something delivered and the window open. -/
theorem again_sound (h : Running t e s 0) (hpassed : Passed s pass)
    (hnone : popPayable s.pending s.unvouchered s.nextChunk.isNone = none) :
    Sound t e (s.again pass) := by
  have hbalance := h.balance
  have hshort := h.short
  have hfloor := window_floor t s.paid
  have hlag : 0 < verifyLagBytes := by decide
  unfold Serve.again
  split
  · rename_i hdone
    simp only [Serve.isDone, Bool.and_eq_true, decide_eq_true_eq, Option.isNone_iff_eq_none,
      List.isEmpty_iff] at hdone
    rcases hdone with ⟨⟨hout, hpending⟩, hzero⟩
    have hpaid : s.paid = s.delivered := by
      rw [hpending, hzero] at hbalance
      simp only [held, List.map_nil, List.sum_nil] at hbalance
      omega
    refine ⟨hpaid, rfl, ?_⟩
    rw [h.left, h.complete hout, Serve.fetched, hout]
    rfl
  · rename_i hopen
    have hsome : s.nextChunk.isSome := by
      cases hnext : s.nextChunk with
      | some frame => rfl
      | none =>
        rcases popPayable_none hnone with hempty | ⟨owed, -, -, hdone⟩
        · exact absurd (by simp [Serve.isDone, hnext, hempty, hpassed.folded hnext]) hopen
        · rw [hnext] at hdone
          cases hdone
    have hmoved := hpassed.moved hsome
    rw [if_neg (by omega)]
    refine ⟨⟨⟨h.live, h.left, h.bytes, h.balance, h.whole⟩, h.short, h.complete, h.frame⟩, ?_⟩
    dsimp only
    rcases popPayable_none hnone with hempty | ⟨owed, hone, hbehind, -⟩
    · rw [hempty] at hbalance
      simp only [held, List.map_nil, List.sum_nil] at hbalance
      omega
    · have hlen := h.whole owed (by rw [hone]; exact List.mem_cons_self)
      have hremaining := owed.remaining_le
      rw [hone] at hbalance
      simp only [held, List.map_cons, List.map_nil, List.sum_cons, List.sum_nil] at hbalance
      omega

/-- Every step keeps the invariant. -/
theorem step_sound {ev : Event} (h : Sound t e s) (hcredits : Credits s ev)
    (hstep : step t s ev = some s') : Sound t e s' := by
  unfold Sound at h
  unfold step at hstep
  split at hstep
  case h_1 hphase =>
    rw [hphase] at h
    cases hstep
    rcases h with ⟨hrunning, hopen⟩
    exact ⟨⟨⟨hrunning.live, hrunning.left, hrunning.bytes, hrunning.balance, hrunning.whole⟩,
      hrunning.short, hrunning.complete, hrunning.frame⟩, rfl, le_rfl, .inl hopen⟩
  case h_2 pass hphase =>
    rw [hphase] at h
    rcases h with ⟨hrunning, hwindow, hstart, hopen⟩
    have hfloor : chunkBytes + verifyLagBytes ≤ pass.window := by
      rw [hwindow]
      exact window_floor t s.paid
    split at hstep
    · rename_i hnone
      cases hstep
      exact endDeliver_sound hrunning hfloor hopen (.inl hnone)
    · rename_i frame hframe
      split at hstep
      · rename_i hshut
        split at hstep
        · cases hstep
          exact endDeliver_sound hrunning hfloor hopen (.inr hshut)
        · cases hstep
      · split at hstep
        · cases hstep
          exact sent_sound hrunning hphase hframe hwindow hstart
        · cases hstep
          exact ⟨nofun, nofun, nofun⟩
        · cases hstep
    · cases hstep
  case h_3 pass proofRead hphase =>
    rw [hphase] at h
    cases hstep
    exact recoup_sound h.1 h.2
  case h_4 pass owed attempts proofRead creditedBytes hphase =>
    rw [hphase] at h
    cases hstep
    exact credit_sound h.1 h.2.1 h.2.2 (hcredits _ _ _ _ _ hphase rfl)
  case h_5 => cases hstep; trivial
  case h_6 => cases hstep; exact ⟨nofun, nofun, nofun⟩
  case h_7 => cases hstep; trivial
  case h_8 pass collectedAny hphase =>
    rw [hphase] at h
    cases hstep
    exact again_sound h.1 h.2.1 h.2.2
  case h_9 =>
    split at hstep
    · cases hstep
    · cases hstep
      trivial
  case h_10 => cases hstep

/-- The loop starts sound: the opening frame fits the opening window. -/
theorem start_sound (t : Terms) (e : Export) : Sound t e (start t e) := by
  have hpos := chunkBytes_pos
  have hfloor := window_floor t 0
  have hinit : Accounted e ⟨.new e.items, none, 0, 0, 0, [], .round⟩ 0 := by
    refine ⟨⟨rfl, nofun⟩, ?_, ?_, rfl, nofun⟩
    · change _ = ((ChunkFramer.exportBytes e.items).map (0 + ·)).map (0 + ·)
      simp
    · change 0 + (0 + ChunkFramer.itemBytes e.items) ≤ u64Max
      have hfits := e.fits
      omega
  rcases frameTarget_le t (t.window 0) hpos with ⟨htarget, hroom⟩
  have hfirst : t.firstFrameTarget chunkBytes (t.window 0) ≤
      t.frameTarget 0 chunkBytes (t.window 0) := Nat.min_le_left _ _
  unfold start
  have hwindow : (0 : Nat) + t.firstFrameTarget chunkBytes (t.window 0) ≤ chunkBytes := by omega
  have hfloor : t.firstFrameTarget chunkBytes (t.window 0) ≤
      max (t.window 0 - (0 - 0)) chunkGroupBytes := by omega
  rcases hinit.prefetch (t := t) rfl hpos hwindow hfloor with
    ⟨chunks, fault, hfault⟩ | ⟨chunks, nextChunk, hnext, hrunning⟩
  · rw [hfault]
    exact ⟨nofun, nofun, nofun⟩
  · rw [hnext]
    refine ⟨hrunning, ?_⟩
    dsimp only
    omega

/-! ## Every run -/

/-- The bytes still owed for the chunk in hand. -/
def Phase.owed : Phase → Nat
  | .proofs _ owed _ _ => owed.remaining
  | _ => 0

/-- What holds in every state of the loop. -/
structure ServeSafe (t : Terms) (e : Export) (s : Serve) : Prop where
  /-- Between awaits the unpaid bytes are the ones the loop tracks. -/
  balance : (∀ result, s.phase ≠ .ended result) →
    s.delivered - s.paid = s.unvouchered + held s.pending + s.phase.owed ∧ s.paid ≤ s.delivered
  /-- The accounting check and the no-progress guard never fail. -/
  faultless : ∀ fault, s.phase = .ended (.failed fault) →
    fault ≠ .overCredited ∧ fault ≠ .accounting ∧ fault ≠ .noProgress
  /-- A frame that goes out stays in its chunk; only one of at most a chunk group goes past the
  current window, which it found open. -/
  frame : ∀ pass frame s', s.phase = .deliver pass → s.nextChunk = some frame →
    step t s (.write true) = some s' →
    s.unvouchered + frame.total ≤ chunkBytes ∧ pass.window = t.window s.paid ∧
      s.delivered + frame.total < s.paid + pass.window + chunkGroupBytes ∧
      (pass.window < s.delivered + frame.total - s.paid → frame.total ≤ chunkGroupBytes)
  /-- A shut window with bytes still to deliver finds a payable chunk. -/
  payable : ∀ pass proofRead, s.phase = .recoup pass proofRead → s.nextChunk.isSome →
    pass.window ≤ s.delivered - s.paid ∨ t.window s.paid ≤ s.delivered - s.paid →
    (popPayable s.pending s.unvouchered s.nextChunk.isNone).isSome
  /-- A pass that goes round again has delivered something. -/
  progress : ∀ pass collectedAny, s.phase = .settled pass collectedAny → s.isDone = false →
    pass.deliveredAtStart < s.delivered
  /-- The loop completes with the whole export delivered and paid. -/
  complete : ∀ bytes, s.phase = .ended (.completed bytes) →
    s.paid = s.delivered ∧ bytes = s.delivered ∧
      ChunkFramer.exportBytes e.items = some s.delivered

/-- Outside the ends the loop is running. -/
theorem Sound.running (h : Sound t e s) (hgoing : ∀ result, s.phase ≠ .ended result) :
    Running t e s s.phase.owed := by
  unfold Sound at h
  cases hphase : s.phase with
  | round => exact (hphase ▸ h).1
  | deliver pass => exact (hphase ▸ h).1
  | recoup pass proofRead => exact (hphase ▸ h).1
  | proofs pass owed attempts proofRead => exact (hphase ▸ h).1
  | settled pass collectedAny => exact (hphase ▸ h).1
  | ended result => exact absurd hphase (hgoing result)

/-- A shut window holds more than the newest chunk and its lag, so a chunk is payable. -/
theorem Running.payable (h : Running t e s 0)
    (hshut : chunkBytes + verifyLagBytes ≤ s.delivered - s.paid) :
    (popPayable s.pending s.unvouchered s.nextChunk.isNone).isSome := by
  have hbalance := h.balance
  have hshort := h.short
  have hlag : 0 < verifyLagBytes := by decide
  apply Option.isSome_iff_ne_none.mpr
  intro hnone
  rcases popPayable_none hnone with hempty | ⟨owed, hone, hbehind, -⟩
  · rw [hempty] at hbalance
    simp only [held, List.map_nil, List.sum_nil] at hbalance
    omega
  · have hlen := h.whole owed (by rw [hone]; exact List.mem_cons_self)
    have hremaining := owed.remaining_le
    rw [hone] at hbalance
    simp only [held, List.map_cons, List.map_nil, List.sum_cons, List.sum_nil] at hbalance
    omega

/-- A frame goes out only while the window is open. -/
theorem write_open {frame : FrameChunks} (hphase : s.phase = .deliver pass)
    (hframe : s.nextChunk = some frame) (hstep : step t s (.write true) = some s') :
    s.delivered - s.paid < pass.window := by
  unfold step at hstep
  rw [hphase] at hstep
  dsimp only at hstep
  rw [hframe] at hstep
  dsimp only at hstep
  split at hstep
  · simp at hstep
  · omega

/-- The invariant gives all of it. -/
theorem Sound.safe (h : Sound t e s) : ServeSafe t e s := by
  constructor
  · intro hgoing
    have hbalance := (h.running hgoing).balance
    omega
  · intro fault hphase
    unfold Sound at h
    rw [hphase] at h
    exact h
  · intro pass frame s' hphase hframe hstep
    have hopen := write_open hphase hframe hstep
    unfold Sound at h
    rw [hphase] at h
    rcases h with ⟨hrunning, hwindow, -, -⟩
    have hbalance := hrunning.balance
    rcases hrunning.frame frame hframe with ⟨hpos, hchunk, hroom⟩
    rw [← hwindow] at hroom
    have hgroup : 0 < chunkGroupBytes := by decide
    exact ⟨hchunk, hwindow, by omega, by omega⟩
  · intro pass proofRead hphase hsome hshut
    have hrunning := h.running (by rw [hphase]; exact nofun)
    have hfloor := window_floor t s.paid
    unfold Sound at h
    rw [hphase] at h hrunning
    have hpass := h.2.floor
    exact hrunning.payable (by omega)
  · intro pass collectedAny hphase hdone
    unfold Sound at h
    rw [hphase] at h
    rcases h with ⟨hrunning, hpassed, hnone⟩
    apply hpassed.moved
    cases hnext : s.nextChunk with
    | some frame => rfl
    | none =>
      rcases popPayable_none hnone with hempty | ⟨owed, -, -, hfalse⟩
      · simp [Serve.isDone, hnext, hempty, hpassed.folded hnext] at hdone
      · rw [hnext] at hfalse
        cases hfalse
  · intro bytes hphase
    unfold Sound at h
    rw [hphase] at h
    exact h

/-- Every run of the loop, for any export, configuration, ramp credit and proofs that credit no
more than the chunk they answer: its accounting balances, its frames stay in their chunks and in
the window up to a group, a shut window is always payable, no pass is idle, and it completes only
when all is delivered and paid. -/
theorem deliver_loop_sound (t : Terms) (e : Export) {s : Serve}
    (hrun : Reaches (fun s ev s' => step t s ev = some s') Credits (start t e) s) :
    ServeSafe t e s :=
  (hrun.invariant (start_sound t e) fun _ _ _ hcredits hstep hsound =>
    step_sound hsound hcredits hstep).safe

/-! ## Two serves -/

/-- How the loop has ended. -/
def Phase.result : Phase → Option LoopEnd
  | .ended result => some result
  | _ => none

/-- The chunk in hand owes the credit. -/
def creditsAllowed (s : Serve) (ev : Event) : Bool :=
  match s.phase, ev with
  | .proofs _ owed _ _, .proof (.continued creditedBytes) => decide (creditedBytes ≤ owed.remaining)
  | _, _ => true

theorem credits_of_allowed (s : Serve) (ev : Event) (h : creditsAllowed s ev = true) :
    Credits s ev := by
  intro pass owed attempts proofRead creditedBytes hphase hev
  subst hev
  unfold creditsAllowed at h
  rw [hphase] at h
  exact of_decide_eq_true h

/-- What a listed run evaluates to is reached. -/
theorem reaches_of_events {α : Type} (t : Terms) (e : Export) (events : List Event)
    (f : Serve → α) {a : α}
    (h : (runEvents (step t) creditsAllowed (start t e) events).map f = some a) :
    ∃ s, Reaches (fun s ev s' => step t s ev = some s') Credits (start t e) s ∧ f s = a := by
  rcases Option.map_eq_some_iff.mp h with ⟨s, hs, heq⟩
  exact ⟨s, Reaches.of_runEvents credits_of_allowed hs, heq⟩

/-- The export of a blob of `2 ^ n` chunk groups: each parent before its children. -/
def baoItems : Nat → List (Option Nat)
  | 0 => [some chunkGroupBytes]
  | n + 1 => some 64 :: (baoItems n ++ baoItems n)

/-- No ramp, frames of 400000 bytes, and a window one byte past the fifth frame. -/
def sampleTerms : Terms where
  handler := ⟨0, 1448577, 1, 0⟩
  frameTargetBytes := 400000
  carried := 0

/-- A blob of one group is delivered, paid by one proof and completed. -/
theorem deliver_loop_sound_small :
    ∃ s, ServeSafe sampleTerms ⟨baoItems 0, by decide⟩ s ∧
      s.phase.result = some (.completed 16384) := by
  rcases reaches_of_events sampleTerms ⟨baoItems 0, by decide⟩
    [.run, .write true, .run, .run, .proof (.continued 16384), .run, .run]
    (fun s => s.phase.result) (a := some (.completed 16384)) (by decide +kernel) with
    ⟨s, hrun, hresult⟩
  exact ⟨s, deliver_loop_sound sampleTerms ⟨baoItems 0, by decide⟩ hrun, hresult⟩

/-- On a blob of two megabytes the sixth frame, a full group for a room of one byte, goes past the
window; and a rejected proof ends the loop with bytes unpaid. -/
theorem window_overshot :
    (∃ s, Reaches (fun s ev s' => step sampleTerms s ev = some s') Credits
        (start sampleTerms ⟨baoItems 7, by decide +kernel⟩) s ∧
      sampleTerms.window s.paid < s.delivered - s.paid) ∧
    ∃ s, Reaches (fun s ev s' => step sampleTerms s ev = some s') Credits
        (start sampleTerms ⟨baoItems 7, by decide +kernel⟩) s ∧
      s.phase.result = some (.stopped .voucherRejected 1464960) ∧ s.paid < s.delivered := by
  constructor
  · rcases reaches_of_events sampleTerms ⟨baoItems 7, by decide +kernel⟩
      (.run :: List.replicate 6 (.write true))
      (fun s => decide (sampleTerms.window s.paid < s.delivered - s.paid)) (a := true)
      (by decide +kernel) with ⟨s, hrun, hover⟩
    exact ⟨s, hrun, of_decide_eq_true hover⟩
  · rcases reaches_of_events sampleTerms ⟨baoItems 7, by decide +kernel⟩
      (.run :: List.replicate 6 (.write true) ++ [.run, .run, .proof .rejected])
      (fun s => (s.phase.result, decide (s.paid < s.delivered)))
      (a := (some (.stopped .voucherRejected 1464960), true))
      (by decide +kernel) with ⟨s, hrun, hboth⟩
    rcases Prod.mk.inj hboth with ⟨hresult, hunpaid⟩
    exact ⟨s, hrun, hresult, of_decide_eq_true hunpaid⟩

end DeliverLoop

end Decdn.Node
