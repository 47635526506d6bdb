import Decdn.Session.Paying

/-!
# An honest payer is accepted

Every step of the two ends keeps the joint invariant, so in every run no proof is
refused, and the bytes a stream's serve loop is still owed are exactly those not
yet verified, not yet proved, or whose proof is on its way.  The one condition is
that a rollover folds something.

Main results:

- Theorem `Joint.read`: the node accepts a proof and keeps the joint invariant.
- Theorem `Joint.step`: so does every other step.
- Theorem `honest_payer_accepted`: no run whose rollovers all fold ends in a
  rejection, and every chunk is credited by its own proofs.
-/

namespace Decdn.Session

open PaymentPool (Crypto)
open Incentive Client Node
open PoolLedger (Issue)

variable {ι : Type*} {t : Terms ι} {C : Chronicle ι} {P : Position} {lane : LaneDeliveryState}
  {expected : Nat} {stream : Stream} {items : List (Item × Nat)}

/-! ## Chunks and proofs -/

/-- The bytes a proof is credited with against the chunk in hand. -/
def Terms.due (t : Terms ι) (message : ClientMessage) (owed : OwedChunk) : Nat :=
  match message with
  | .voucher v => voucherCreditDelta (t.wire v) owed
  | .chunkPreimage _ => owed.remaining

section Due

variable {delivered unvouchered verified proved x worth : Nat} {message : ClientMessage}
  {rest : List Sent} {owed : OwedChunk} {chunks : List OwedChunk}

/-- The next proof is due what it is worth: a metering voucher meets a whole chunk
and takes nothing, any other proof pays the chunk in hand. -/
theorem Terms.due_eq (t : Terms ι) (hcut : Cut expected delivered unvouchered x (owed :: chunks))
    (hline : Line expected verified x (⟨message, worth⟩ :: rest) proved)
    (hproved : proved ≤ verified) (hverified : verified ≤ delivered)
    (hdelivered : delivered ≤ expected) :
    t.due message owed = worth ∧ (worth = 0 ∨ worth = owed.remaining) := by
  rcases hcut with ⟨hwhole, hlen, hcut⟩
  have hpos := owed.len_pos
  have hbound := hcut.total
  cases message with
  | chunkPreimage released =>
    rcases hline with ⟨hworth, hline⟩
    have htotal := hline.total
    have hremaining : owed.remaining = worth := by omega
    exact ⟨hremaining, .inr hremaining.symm⟩
  | voucher v =>
    rcases hline with ⟨hkind, hline⟩
    have hroot : (t.wire v).chainRoot = v.commit.chainRoot := rfl
    simp only [Terms.due, voucherCreditDelta, hroot]
    rcases hkind with ⟨hworth, hrooted, hchunk⟩ | ⟨hworth, hsmall, hclosing⟩
    · have hlong : chunkBytes ≤ owed.len := by omega
      refine ⟨?_, .inl hworth⟩
      rw [if_pos ⟨hrooted, hlong⟩, hworth]
    · have hlen : owed.len = worth := by omega
      refine ⟨?_, .inr (by omega)⟩
      rw [if_neg]
      · omega
      · rintro ⟨-, hlong⟩
        omega

/-- What is left of the stream lines up again. -/
theorem Stream.recoup_continued (hcut : Cut expected delivered unvouchered x (owed :: chunks))
    (hline : Line expected verified x (⟨message, worth⟩ :: rest) proved)
    (hworth : worth = 0 ∨ worth = owed.remaining) (s : Stream) (anchor : StreamAnchor) :
    ∃ pending x', s.recoup rest owed chunks anchor (.continued worth) =
        { s with queue := rest, pending := pending, anchor := anchor } ∧
      Cut expected delivered unvouchered x' pending ∧
      Line expected verified x' rest proved := by
  have htail : Line expected verified (x + worth) rest proved := by
    cases message with
    | voucher v => exact hline.2
    | chunkPreimage released => exact hline.2
  have hpos := owed.len_pos
  have hwhole := hcut.1
  rcases hworth with rfl | hremaining
  · refine ⟨owed :: chunks, x, ?_, hcut, htail⟩
    have hsettle : owed.settle 0 = some (owed, false) := by
      unfold OwedChunk.settle
      rw [if_pos (Nat.zero_le _)]
      simp only [Nat.sub_zero]
      rw [decide_eq_false (by omega)]
    simp only [Stream.recoup, hsettle, Bool.false_eq_true, if_false]
  · refine ⟨chunks, x + worth, ?_, ?_, htail⟩
    · simp only [Stream.recoup, OwedChunk.settle, hremaining, le_refl, if_true, Nat.sub_self,
        decide_true]
    · rw [hremaining, hwhole]
      exact hcut.2.2

end Due

/-! ## Reading -/

/-- The node has moved on, and a queue is one proof shorter. -/
def Chronicle.move (C : Chronicle ι) (P : Position) (items : ι → List (Item × Nat)) :
    Chronicle ι :=
  { C with position := P, items := items }

/-- A proof carries what it carried. -/
theorem Matches.move {sent : Sent} {m : Item × Nat} {moved : ι → List (Item × Nat)}
    (h : Matches C sent m) : Matches (C.move P moved) sent m := by
  cases h with
  | voucher h => exact .voucher ⟨h.fits, h.next, h.commit⟩
  | reveal hpos hpreimage => exact .reveal hpos hpreimage

/-- The ledger stands where it stood. -/
theorem PayerAt.move {roots : List Bytes32} {l : PoolLedger} {moved : ι → List (Item × Nat)}
    (h : PayerAt t C roots l) : PayerAt t (C.move P moved) roots l :=
  ⟨h.ordered, h.armed, h.committed, h.accrued, h.epoch, h.released, h.sealed, h.price, h.ladder,
    h.ticks_le, h.drawn, h.distinct, h.claim_le, h.bytes_le⟩

/-- The lane stands at the new position. -/
theorem LaneAt.move {moved : ι → List (Item × Nat)} (h : LaneAt t C P lane) :
    LaneAt t (C.move P moved) P lane :=
  ⟨h.state_eq, h.unsigned, h.cumulative⟩

/-- The other streams stand as they stood. -/
theorem StreamAt.move {moved : ι → List (Item × Nat)} (h : StreamAt t C expected stream items)
    (hle : C.position.entry.epoch ≤ P.entry.epoch) :
    StreamAt t (C.move P moved) expected stream items := by
  rcases h.anchored with ⟨k, k', hk, hk', hanchor, hfollows, hroot⟩
  exact ⟨h.serving, h.unproved_le, h.verified_le, h.delivered_le, h.unvouchered_lt, h.complete,
    h.busy, h.sent.imp fun _ _ hmatch => hmatch.move, h.line,
    k, k', le_trans hk hle, hk', hanchor, hfollows, hroot⟩

variable [Fintype ι] [DecidableEq ι] {s s' : LaneSession ι} {σ : ι} {now : Nat}
  {walked : Option (Nat × Bytes32)}

/-- What the node makes of the next proof of a stream: it is accepted and credited
with what it is worth, the lane moves to the position the proof leads to, and the
stream is known by the epoch the proof belongs to. -/
theorem Joint.commitOneProof {message : ClientMessage} {worth : Nat} {m : Item × Nat}
    {rest : List (Item × Nat)} {owed : OwedChunk} {k k' : Nat} (h : Joint t s C)
    (hitems : C.items σ = m :: rest) (hmatch : Matches C ⟨message, worth⟩ m)
    (hdue : t.due message owed = worth) (hk : k ≤ C.position.entry.epoch)
    (hfollows : Follows k (m :: rest) k')
    (hexpiry : NodeEnv.insideExpiryMargin { t.env with now := now } t.lane.expiry = false) :
    ∃ lane' j, Node.commitOneProof { t.env with now := now } s.lane (.adopt (C.chains k).root)
        (t.proof message walked) t.ratePerMb owed =
        ⟨lane', .adopt (C.chains j).root, .continued worth⟩ ∧
      LaneAt t C (C.position.read m.1) lane' ∧
      Conserved t.tariff C.journal (C.position.read m.1) lane'.paidCredited
        (Function.update C.items σ rest) ∧
      C.position.entry.epoch ≤ (C.position.read m.1).entry.epoch ∧
      j ≤ (C.position.read m.1).entry.epoch ∧ Follows j rest k' := by
  have hin : m.1.In C.journal := h.conserved.known σ m (by rw [hitems]; exact List.mem_cons_self)
  have hepoch : C.position.entry.epoch ≤ (C.position.read m.1).entry.epoch := by
    have hle := (Position.le_read h.payer.ordered h.reached hin).2
    omega
  -- The bytes a position is worth cover what has been credited and this proof.
  have hroom : ∀ {paid : Nat}, Conserved t.tariff C.journal (C.position.read m.1) paid
      (Function.update C.items σ rest) → paid ≤ (C.position.read m.1).bytes t.tariff := by
    intro paid hconserved
    rw [hconserved.total _ (h.reached.read hin) (Position.Le.refl _)]
    exact Nat.le_add_right _ _
  cases hmatch with
  | voucher hcarried =>
    rename_i v e
    have hconserved := h.conserved.read h.payer.ordered h.reached hitems nofun
    have hpaid := hroom hconserved
    change voucherCreditDelta (t.wire v) owed = worth at hdue
    dsimp only at hconserved hpaid
    rw [← hdue] at hconserved hpaid
    rcases h.payer.commitVoucher h.lane h.reached hin hcarried (.adopt (C.chains k).root) hexpiry
      hpaid with ⟨lane', hcommit, hlane, hcredited⟩
    refine ⟨lane', e.epoch, ?_, hlane, ?_, hepoch,
      Position.epoch_le_read h.payer.ordered h.reached hin, hfollows⟩
    · rw [← hdue]
      exact hcommit
    · rw [hcredited]
      exact hconserved
  | reveal hpos hpreimage =>
    rename_i released epoch
    rcases hfollows with ⟨rfl, hfollows⟩
    have hconserved := h.conserved.read h.payer.ordered h.reached hitems (by
      intro epoch' index heq
      cases heq
      exact hk)
    have hpaid := hroom hconserved
    change owed.remaining = worth at hdue
    dsimp only at hconserved hpaid
    rw [← hdue] at hconserved hpaid
    rcases h.payer.commitOnePreimage walked h.lane h.reached hin hpos hpreimage hk hexpiry hpaid
      with ⟨lane', hcommit, hlane, hcredited⟩
    refine ⟨lane', epoch, ?_, hlane, ?_, hepoch, le_trans hk hepoch, hfollows⟩
    · rw [← hdue]
      exact hcommit
    · rw [hcredited]
      exact hconserved

/-- The node accepts the proof it reads, and the joint invariant holds again. -/
theorem Joint.read (h : Joint t s C) (hassumed : t.Assumed s (.read σ now walked))
    (hread : t.read s σ now walked = some s') : ∃ C', Joint t s' C' := by
  unfold Terms.read at hread
  split at hread
  · rename_i sent rest owed chunks hqueue hpending hstop
    rcases sent with ⟨message, worth⟩
    have hstream := h.streams σ
    rcases hstream.anchored with ⟨k, k', hk, hk', hanchor, hfollows, hroot⟩
    rcases hstream.line with ⟨x, hcut, hline⟩
    have hsent := hstream.sent
    rw [hqueue] at hsent hline
    rw [hpending] at hcut
    rcases List.forall₂_cons_left_iff.mp hsent with ⟨m, items, hmatch, hrest, hitems⟩
    rw [hitems] at hfollows
    rcases t.due_eq hcut hline (Nat.sub_le _ _) hstream.verified_le hstream.delivered_le with
      ⟨hdue, hworth⟩
    rcases h.commitOneProof hitems hmatch hdue hk hfollows hassumed with
      ⟨lane', j, hcommit, hlane, hconserved, hepoch, hj, hfollows'⟩
    rcases Stream.recoup_continued hcut hline hworth (s.streams σ) (.adopt (C.chains j).root) with
      ⟨pending, x', hrecoup, hcut', hline'⟩
    have hin : m.1.In C.journal :=
      h.conserved.known σ m (by rw [hitems]; exact List.mem_cons_self)
    rw [hanchor] at hread
    dsimp only at hread
    rw [hcommit] at hread
    dsimp only at hread
    rw [hrecoup] at hread
    cases hread
    refine ⟨C.move (C.position.read m.1) (Function.update C.items σ items), ?_⟩
    constructor
    · exact h.payer.move
    · exact h.reached.read hin
    · exact hlane.move
    · exact hconserved
    · intro σ'
      change StreamAt t _ _ (Function.update s.streams σ _ σ') (Function.update C.items σ items σ')
      rcases eq_or_ne σ' σ with rfl | hne
      · rw [Function.update_self, Function.update_self]
        exact ⟨hstream.serving, hstream.unproved_le, hstream.verified_le, hstream.delivered_le,
          hstream.unvouchered_lt, hstream.complete, hstream.busy,
          hrest.imp fun _ _ hmatch => hmatch.move, ⟨x', hcut', hline'⟩,
          j, k', hj, hk', rfl, hfollows', hroot⟩
      · rw [Function.update_of_ne hne, Function.update_of_ne hne]
        exact (h.streams σ').move hepoch
  · cases hread

/-! ## The serve loop and the decoder -/

/-- A stream of the joint invariant is replaced, its queue and anchor as they were. -/
theorem Joint.replace (h : Joint t s C)
    (hstream : StreamAt t C (t.expected σ) stream (C.items σ)) :
    Joint t { s with streams := Function.update s.streams σ stream } C := by
  refine ⟨h.payer, h.reached, h.lane, h.conserved, ?_⟩
  intro σ'
  dsimp only
  rcases eq_or_ne σ' σ with rfl | hne
  · rw [Function.update_self]
    exact hstream
  · rw [Function.update_of_ne hne]
    exact h.streams σ'

omit [Fintype ι] [DecidableEq ι] in
/-- A frame keeps a stream's books. -/
theorem StreamAt.frame {stream' : Stream} {len : Nat} (h : StreamAt t C expected stream items)
    (hframe : stream.frame expected len = some stream') : StreamAt t C expected stream' items := by
  rcases h.line with ⟨x, hcut, hline⟩
  have hverified := h.verified_le
  unfold Stream.frame at hframe
  split at hframe
  · rename_i hlen
    have hpos := hlen.1
    have hchunk := hlen.2.1
    have hrange := hlen.2.2.1
    split at hframe
    · rename_i hfull
      cases hframe
      have hnew := hcut.push (OwedChunk.new (stream.unvouchered + len)
        (Nat.add_pos_right _ hpos) (le_trans hchunk chunkBytes_le_u64Max)) rfl
        (Nat.le_add_right _ _) hchunk (by
          simp only [OwedChunk.new, Nat.add_sub_cancel_left]
          exact hfull)
      simp only [OwedChunk.new, Nat.add_sub_cancel_left] at hnew
      exact ⟨h.serving, h.unproved_le, le_trans hverified (Nat.le_add_right _ _), hrange,
        ⟨t.tariff.unit_pos, fun _ => rfl⟩, h.complete, h.busy, h.sent, ⟨x, hnew, hline⟩, h.anchored⟩
    · rename_i hopen
      cases hframe
      refine ⟨h.serving, h.unproved_le, le_trans hverified (Nat.le_add_right _ _), hrange,
        ⟨?_, fun hend => absurd (.inr hend) hopen⟩, h.complete, h.busy, h.sent,
        ⟨x, hcut.extend len, hline⟩, h.anchored⟩
      dsimp only
      omega
  · cases hframe

omit [Fintype ι] [DecidableEq ι] in
/-- Verified bytes keep a stream's books. -/
theorem StreamAt.verify {stream' : Stream} {wire : Nat} (h : StreamAt t C expected stream items)
    (hverify : stream.verify expected wire = some stream') :
    StreamAt t C expected stream' items := by
  rcases h.line with ⟨x, hcut, hline⟩
  have hunproved := h.unproved_le
  unfold Stream.verify at hverify
  split at hverify
  · rename_i hidle
    split at hverify
    · rename_i hmore
      cases hverify
      refine ⟨h.serving, ?_, Nat.min_le_right _ _, h.delivered_le, h.unvouchered_lt,
        of_decide_eq_true, fun hbusy => absurd hidle hbusy, h.sent, ⟨x, hcut, ?_⟩, h.anchored⟩
      · dsimp only
        omega
      · have hproved : min wire stream.delivered -
            (stream.meter.unproved + (min wire stream.delivered - stream.verified)) =
            stream.verified - stream.meter.unproved := by omega
        dsimp only
        rw [hproved]
        exact hline.mono (le_of_lt hmore)
    · cases hverify
      exact h
  · cases hverify

/-! ## Runs -/

/-- The account of a new lane. -/
def Chronicle.blank : Chronicle ι where
  journal := ⟨⟨0, 0, 0⟩, [], fun _ => 0⟩
  chains _ := sealedEpoch
  position := ⟨⟨0, 0, 0⟩, 0⟩
  items _ := []

omit [DecidableEq ι] in
/-- A new ledger and a fresh lane agree. -/
theorem Joint.start (t : Terms ι) : Joint t t.start .blank := by
  have hfresh := t.fresh
  have hstate : t.lane = { t.lane with
      lastAmount := 0
      lastBytesDelivered := 0
      lastSignature := t.lane.lastSignature
      chain := (Chronicle.blank : Chronicle ι).laneChain ⟨⟨0, 0, 0⟩, 0⟩ } := by
    have hchain : (Chronicle.blank : Chronicle ι).laneChain ⟨⟨0, 0, 0⟩, 0⟩ = LaneChain.none := rfl
    calc t.lane = { t.lane with
          lastAmount := t.lane.lastAmount
          lastBytesDelivered := t.lane.lastBytesDelivered
          lastSignature := t.lane.lastSignature
          chain := t.lane.chain } := rfl
      _ = _ := by rw [hfresh.lastAmount, hfresh.lastBytesDelivered, hfresh.chain, hchain]
  have howed : t.lane.owedBytes = 0 := by
    unfold LaneState.owedBytes LaneState.liveClaim
    rw [hfresh.lastSignature]
    rfl
  constructor
  · constructor
    · exact ⟨List.pairwise_singleton _ _, rfl, fun _ _ => rfl⟩
    · rfl
    · rfl
    · exact congrArg₂ Cumulative.mk (Nat.zero_mul _).symm (Nat.zero_mul _).symm
    · rfl
    · intro k _
      rfl
    · rfl
    · intro k hpos hk
      exact absurd hk (Nat.not_le_of_lt hpos)
    · intro k hpos hk
      exact absurd hk (Nat.not_le_of_lt hpos)
    · intro k
      exact Nat.zero_le _
    · intro k _
      exact List.mem_cons_self
    · intro j k hj hk _
      exact (Nat.le_zero.mp hj).trans (Nat.le_zero.mp hk).symm
    · change 0 + 0 * t.ratePerMb.toNat ≤ t.lane.cap
      rw [Nat.zero_mul]
      exact Nat.zero_le _
    · intro e he
      rw [List.mem_singleton.mp he]
      exact Nat.zero_le _
  · exact ⟨List.mem_cons_self, le_rfl⟩
  · refine ⟨hstate, fun _ => ⟨rfl, rfl, rfl⟩, ?_⟩
    change t.lane.owedBytes = 0 + 0 * chunkBytes
    rw [howed, Nat.zero_mul]
  · refine ⟨fun _ _ hm => absurd hm List.not_mem_nil, ?_⟩
    intro Q hQ _
    have hentry : Q.entry = ⟨0, 0, 0⟩ := List.mem_singleton.mp hQ.entry_mem
    have hindex : Q.index = 0 := Nat.le_zero.mp hQ.index_le
    have hpaid : t.start.lane.paidCredited = 0 := howed
    rw [hpaid]
    simp [Position.bytes, hentry, hindex, Chronicle.blank]
  · intro σ
    refine ⟨rfl, le_rfl, le_rfl, Nat.zero_le _, ⟨t.tariff.unit_pos, fun _ => rfl⟩, ?_,
      fun hbusy => absurd rfl hbusy, .nil, ⟨0, rfl, rfl⟩, 0, 0, le_rfl, le_rfl, rfl, rfl, ?_⟩
    · exact fun hcomplete => absurd hcomplete Bool.false_ne_true
    · intro root hroot
      cases hroot

/-- Every step keeps the joint invariant, if its rollover folds. -/
theorem Joint.step {e : Terms.Event ι} (h : Joint t s C) (hassumed : t.Assumed s e)
    (hfolds : e.Folds s) (hstep : t.step s e s') : ∃ C', Joint t s' C' := by
  unfold Terms.step Terms.apply at hstep
  cases e with
  | frame σ len =>
    rcases Option.map_eq_some_iff.mp hstep with ⟨stream, hframe, rfl⟩
    exact ⟨C, h.replace ((h.streams σ).frame hframe)⟩
  | verify σ wire =>
    rcases Option.map_eq_some_iff.mp hstep with ⟨stream, hverify, rfl⟩
    exact ⟨C, h.replace ((h.streams σ).verify hverify)⟩
  | pay σ seed => exact h.pay hassumed hfolds hstep
  | read σ now walked => exact h.read hassumed hstep

omit [Fintype ι] [DecidableEq ι] in
/-- A stream is owed what its payer has still to verify, to prove or to get read,
and a proof that has been sent has a chunk to be read for. -/
theorem StreamAt.unpaid (h : StreamAt t C expected stream items) :
    stream.unpaid =
        (stream.delivered - stream.verified) + stream.meter.unproved + stream.underWay ∧
      (stream.queue ≠ [] → stream.pending ≠ []) := by
  rcases h.line with ⟨x, hcut, hline⟩
  have hdelivered := hcut.total
  have hproved := hline.total
  have hunproved := h.unproved_le
  have hverified := h.verified_le
  have hrange := h.delivered_le
  have hopen := h.unvouchered_lt
  unfold Stream.unpaid Stream.underWay
  constructor
  · omega
  · intro hqueue hpending
    rw [hpending] at hdelivered
    simp only [List.map_nil, List.sum_nil] at hdelivered
    cases hfirst : stream.queue with
    | nil => exact hqueue hfirst
    | cons sent rest =>
      rw [hfirst] at hline
      rcases sent with ⟨message, worth⟩
      cases message with
      | chunkPreimage released =>
        have htotal := hline.2.total
        have hworth := hline.1
        omega
      | voucher v =>
        have htotal := hline.2.total
        rcases hline.1 with ⟨-, -, hchunk⟩ | ⟨hworth, -, hclosing⟩
        · omega
        · have hend := hopen.2 (by omega)
          omega

/-- In every run whose rollovers all fold, whatever the interleaving of the
streams and the order in which their proofs are read: no proof is refused, and the
bytes a stream is still owed are those not yet verified, not yet proved, or whose
proof is on its way to a chunk that waits for it. -/
theorem honest_payer_accepted (t : Terms ι)
    (h : Reaches t.step (fun s e => t.Assumed s e ∧ e.Folds s) t.start s) (σ : ι) :
    (s.streams σ).stop = none ∧
      (s.streams σ).unpaid = ((s.streams σ).delivered - (s.streams σ).verified) +
        (s.streams σ).meter.unproved + (s.streams σ).underWay ∧
      ((s.streams σ).queue ≠ [] → (s.streams σ).pending ≠ []) := by
  have hjoint : ∃ C, Joint t s C := by
    refine h.invariant (I := fun s => ∃ C, Joint t s C) ⟨.blank, Joint.start t⟩ ?_
    rintro a e b ⟨hassumed, hfolds⟩ hstep ⟨C, ha⟩
    exact ha.step hassumed hfolds hstep
  rcases hjoint with ⟨C, hC⟩
  exact ⟨(hC.streams σ).serving, (hC.streams σ).unpaid⟩

/-! ## A sample lane -/

/-- Primitives for the sample lane: a hash that counts, so that ladders can be
evaluated, and a signature that recovers its signer. -/
def sampleNode : NodeEnv where
  H := { PaymentPool.sampleCrypto with keccak256 := fun x => x + 1 }
  K := ⟨fun _ _ => some 2⟩
  marginSecs := 60
  now := 0
  record := persistentRecord

/-- The sample lane at one unit a megabyte. -/
def sampleTerms (expected : Bool → Nat) : Terms Bool where
  env := sampleNode
  lane := sampleLane
  ratePerMb := 1
  expected := expected
  sign _ := ⟨1, 1, false⟩
  fresh := ⟨rfl, rfl, rfl, rfl⟩
  cap_le := by decide
  rate_pos := by decide
  record_eq := rfl
  canonical _ := by decide
  recovers _ _ := rfl

/-- What the sample run assumes of a step, evaluated. -/
def sampleAllowed (t : Terms Bool) (s : LaneSession Bool) : Terms.Event Bool → Bool
  | .pay σ seed =>
    decide (rootFromSeed t.env.H seed ∉ s.roots) &&
      (match t.pay s σ seed with
        | some s' => decide (s'.ledger.pipeline.owed.amount ≤ t.lane.cap)
        | none => true) &&
      decide ((s.streams σ).meter.pc = .rolling → s.ledger.pipeline.accrued.amount ≠ 0)
  | .read _ now _ => !NodeEnv.insideExpiryMargin { t.env with now := now } t.lane.expiry
  | _ => true

/-- It is what a run assumes. -/
theorem sampleAllowed_sound (t : Terms Bool) (s : LaneSession Bool) (e : Terms.Event Bool)
    (h : sampleAllowed t s e = true) : t.Assumed s e ∧ e.Folds s := by
  cases e with
  | frame σ len => exact ⟨trivial, trivial⟩
  | verify σ wire => exact ⟨trivial, trivial⟩
  | pay σ seed =>
    simp only [sampleAllowed, Bool.and_eq_true, decide_eq_true_eq] at h
    rcases h with ⟨⟨hfresh, hcap⟩, hfolds⟩
    refine ⟨⟨hfresh, ?_⟩, hfolds⟩
    intro s' hs'
    rw [hs'] at hcap
    exact of_decide_eq_true hcap
  | read σ now walked =>
    refine ⟨?_, trivial⟩
    change NodeEnv.insideExpiryMargin { t.env with now := now } t.lane.expiry = false
    simpa [sampleAllowed] using h

/-- Two streams, one of 255 chunks and one of a chunk and 100 bytes. -/
def twoStreams : Terms Bool :=
  sampleTerms fun σ => if σ then 255 * chunkBytes else chunkBytes + 100

/-- The `i`-th chunk of a stream is delivered, verified, paid for and read. -/
def sampleChunk (σ : Bool) (i : Nat) (seeds : List Bytes32) (reads : Nat) :
    List (Terms.Event Bool) :=
  [.frame σ chunkBytes, .verify σ (i * chunkBytes)] ++ seeds.map (.pay σ) ++
    List.replicate reads (.read σ 10 none)

/-- The first stream opens a chain, the second joins it for one chunk, and the first reveals what
is left of it, rolls it and goes on; the second ends with its closing voucher. -/
def sampleEvents : List (Terms.Event Bool) :=
  sampleChunk true 1 [1, 1, 1, 600] 2 ++
    sampleChunk false 1 (List.replicate 5 600) 2 ++
    ((List.range' 2 253).flatMap fun i => sampleChunk true i (List.replicate 4 600) 1) ++
    sampleChunk true 255 (List.replicate 5 600 ++ List.replicate 3 900) 2 ++
    [.frame false 100, .verify false (chunkBytes + 100), .pay false 900, .read false 10 none]

/-- What a stream has delivered, verified, not proved, and on its way. -/
def Stream.counts (s : Stream) : Nat × Nat × Nat × Nat :=
  (s.delivered, s.verified, s.meter.unproved, s.underWay)

/-- After them three chains were drawn, the second by the rollover, and neither stream is owed
anything. -/
theorem honest_payer_accepted_sample :
    ∃ s, Reaches twoStreams.step (fun s e => twoStreams.Assumed s e ∧ e.Folds s)
        twoStreams.start s ∧
      (s.streams true).delivered = 255 * chunkBytes ∧
      (s.streams false).delivered = chunkBytes + 100 ∧
      rootFromSeed sampleNode.H 600 ∈ s.roots ∧
      s.lane.state.chain.chainRoot = rootFromSeed sampleNode.H 900 ∧
      ∀ σ, (s.streams σ).stop = none ∧ (s.streams σ).unpaid = 0 := by
  have hrun : (runEvents twoStreams.apply (sampleAllowed twoStreams) twoStreams.start
      sampleEvents).map (fun s => ((s.streams true).counts, (s.streams false).counts,
        decide (rootFromSeed sampleNode.H 600 ∈ s.roots), s.lane.state.chain.chainRoot)) =
          some ((255 * chunkBytes, 255 * chunkBytes, 0, 0),
            (chunkBytes + 100, chunkBytes + 100, 0, 0), true, rootFromSeed sampleNode.H 900) := by
    decide +kernel
  rcases Option.map_eq_some_iff.mp hrun with ⟨s, hs, hobs⟩
  simp only [Stream.counts, Prod.mk.injEq] at hobs
  rcases hobs with ⟨⟨hdelivered, hverified, hunproved, hunderWay⟩,
    ⟨hdelivered', hverified', hunproved', hunderWay'⟩, hrolled, hroot⟩
  have hreach := Reaches.of_runEvents (sampleAllowed_sound _) hs
  refine ⟨s, hreach, hdelivered, hdelivered', of_decide_eq_true hrolled, hroot, fun σ => ?_⟩
  rcases honest_payer_accepted twoStreams hreach σ with ⟨hstop, hunpaid, -⟩
  refine ⟨hstop, ?_⟩
  cases σ with
  | true => rw [hunpaid, hdelivered, hverified, hunproved, hunderWay, Nat.sub_self]
  | false => rw [hunpaid, hdelivered', hverified', hunproved', hunderWay', Nat.sub_self]

end Decdn.Session
