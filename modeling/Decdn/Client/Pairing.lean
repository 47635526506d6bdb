import Decdn.Client.Ledger
import Decdn.Foundations.Runs

/-!
# Pairing of chain and anchor

The ledger's live chain extends the anchor that carried its root, and the
accrual is what that chain has released.  Issuing and metering hold the issuance
lock across their send, but a rejection does not take it: one that rewinds in
the middle of a sibling's send restores a chain, or takes back an index, under a
proof about to commit.  Without such a rewind the two stay paired.

Main results:

- Theorem `PairInv.step`: one step with no rewind in mid-send keeps the
  invariant.
- Theorem `chain_anchor_paired`: the pairing over every run.
-/

namespace Decdn.Client

open Incentive

/-! ## Interleavings -/

/-- A proof between the two halves of its method, with the issuance lock held. -/
inductive Flight where
  | issuing (issue : PoolLedger.Issue)
  | metering (released : Released) (chunkPrice : Nat)

/-- The ledger and the send in flight.  `carried` are the roots carried by the
voucher that signed the committed anchor and by its re-anchors, `prevCarried`
those of the anchor one step back; both are proof-only. -/
structure LaneRun where
  ledger : PoolLedger
  flight : Option Flight := none
  carried : List Bytes32 := []
  prevCarried : List Bytes32 := []

/-- A ledger just built. -/
def LaneRun.start (seed : Cumulative) : LaneRun where
  ledger := .new seed

/-- The steps of the streams of one lane. -/
inductive LaneRunEvent where
  | arm (deltaBytes ratePerMb : UInt64) (action : EpochAction) (preimages : Nat → Bytes32)
  | commit
  | meter (anchored : Option Bytes32)
  | metered
  | meterFail
  | reanchor
  | reseed (cum : Cumulative)
  | rebase (cum : Cumulative) (proofGeneration : Option Nat)
  | rebaseAheadOnBytes (cum : Cumulative) (proofGeneration : Option Nat)
  | retireUnadoptedChain (bundle : Cumulative)
  | resolveReject (rejected : StreamProof)

/-- The anchor was replaced by a watermark no voucher of this ledger signed. -/
def LaneRun.healed (s : LaneRun) (ledger : PoolLedger) : LaneRun :=
  { s with ledger := ledger, carried := [], prevCarried := [] }

/-- One step, if it is enabled: all but `reseed` and `resolveReject` need the
issuance lock. -/
def LaneRun.apply (s : LaneRun) : LaneRunEvent → Option LaneRun
  | .arm deltaBytes ratePerMb action preimages =>
    match s.flight with
    | none =>
      let armed := s.ledger.issueArm deltaBytes.toNat ratePerMb.toNat action preimages
      some { s with ledger := armed.1, flight := some (.issuing armed.2) }
    | some _ => none
  | .commit =>
    match s.flight with
    | some (.issuing issue) =>
      some
        { ledger := s.ledger.issueCommit issue
          flight := none
          carried := [issue.commit.chainRoot]
          prevCarried := s.carried }
    | _ => none
  | .meter anchored =>
    match s.flight, s.ledger.meterRead anchored with
    | none, .released released chunkPrice =>
      some { s with flight := some (.metering released chunkPrice) }
    | _, _ => none
  | .metered =>
    match s.flight with
    | some (.metering released chunkPrice) =>
      some { s with ledger := s.ledger.meterAdvance released chunkPrice, flight := none }
    | _ => none
  | .meterFail =>
    match s.flight with
    | some (.metering _ _) => some { s with flight := none }
    | _ => none
  | .reanchor =>
    match s.flight, s.ledger.reanchor with
    | none, some issue => some { s with carried := issue.commit.chainRoot :: s.carried }
    | _, _ => none
  | .reseed cum =>
    match s.ledger.reseed cum with
    | (ledger, true) => some (s.healed ledger)
    | (_, false) => some s
  | .rebase cum proofGeneration =>
    match s.flight, s.ledger.rebase cum proofGeneration with
    | none, (ledger, .rebased _) => some (s.healed ledger)
    | none, _ => some s
    | some _, _ => none
  | .rebaseAheadOnBytes cum proofGeneration =>
    match s.flight, s.ledger.rebaseAheadOnBytes cum proofGeneration with
    | none, (ledger, .rebased _) => some (s.healed ledger)
    | none, _ => some s
    | some _, _ => none
  | .retireUnadoptedChain bundle =>
    match s.flight, s.ledger.retireUnadoptedChain bundle with
    | none, (ledger, some _) => some (s.healed ledger)
    | none, (_, none) => some s
    | some _, _ => none
  | .resolveReject rejected =>
    let ledger := (s.ledger.resolveReject rejected).1
    if s.ledger.uncommits rejected then
      some { s with ledger := ledger, carried := s.prevCarried, prevCarried := [] }
    else some { s with ledger := ledger }

/-- One enabled step. -/
def LaneRun.step (s : LaneRun) (e : LaneRunEvent) (s' : LaneRun) : Prop :=
  s.apply e = some s'

/-- No rejection rewinds the ledger in the middle of a send. -/
def LaneRunEvent.NoRewindInFlight (s : LaneRun) : LaneRunEvent → Prop
  | .resolveReject rejected => s.flight.isSome = true → s.ledger.rewinds rejected = false
  | _ => True

/-- The step is a rejection. -/
def LaneRunEvent.isReject : LaneRunEvent → Bool
  | .resolveReject _ => true
  | _ => false

/-- Every other step rewinds nothing. -/
theorem LaneRunEvent.noRewind_of_not_isReject {s : LaneRun} {e : LaneRunEvent}
    (h : (!e.isReject) = true) : e.NoRewindInFlight s := by
  cases e with
  | resolveReject rejected => cases h
  | _ => trivial

/-! ## The invariant -/

/-- What the released part of a chain is worth. -/
def ChainEpoch.accrual (e : ChainEpoch) : Cumulative where
  bytes := e.released * chunkBytes
  amount := e.released * e.chunkPrice

/-- A chain in range: the price is a wire rate and the index a byte. -/
structure ChainEpoch.InRange (e : ChainEpoch) : Prop where
  price_le : e.chunkPrice ≤ u64Max
  released_le : e.released ≤ maxChainLength

/-- The chain extends an anchor that carried its root, by the given accrual. -/
structure ChainEpoch.PairedWith (e : ChainEpoch) (carried : List Bytes32) (accrued : Cumulative) :
    Prop where
  inRange : e.InRange
  root_mem : e.root ∈ carried
  accrued_eq : accrued = e.accrual

/-- Undoing a voucher that displaced `retired` and folded `accrued` pairs the
chain it leaves with the anchor it goes back to. -/
def UndoPaired (epoch : Option ChainEpoch) (retired : Displaced) (carried : List Bytes32)
    (accrued : Cumulative) : Prop :=
  match retired with
  | .nothing => ∀ e, epoch = some e → e.PairedWith carried accrued
  | .replaced chain => ∀ e, chain = some e → e.PairedWith carried accrued

/-- The ledger with no voucher under way. -/
structure Rest (s : LaneRun) : Prop where
  live : ∀ e, s.ledger.epoch = some e → e.PairedWith s.carried s.ledger.pipeline.accrued
  voucher : ∀ amount, s.ledger.pipeline.lastProof = some (.voucher amount) →
    s.ledger.pipeline.accrued = .zero ∧ (s.ledger.pipeline.prev.isSome = true →
      UndoPaired s.ledger.epoch s.ledger.retired s.prevCarried s.ledger.pipeline.prevAccrued)
  reveal : ∀ root index price, s.ledger.pipeline.lastProof = some (.reveal root index price) →
    ∀ e, s.ledger.epoch = some e →
      e.root = root ∧ e.released = index ∧ 0 < index ∧ e.chunkPrice = price

/-- The ledger with a voucher armed: its chain has released nothing yet. -/
structure Issuing (s : LaneRun) (issue : PoolLedger.Issue) : Prop where
  live : ∀ e, s.ledger.epoch = some e →
    e.InRange ∧ e.root = issue.commit.chainRoot ∧ e.released = 0
  undo : UndoPaired s.ledger.epoch s.ledger.retired s.carried s.ledger.pipeline.accrued

/-- The reveal under way is the live chain's next. -/
def Metering (s : LaneRun) (released : Released) (chunkPrice : Nat) : Prop :=
  ∀ e, s.ledger.epoch = some e → e.root = released.chainRoot ∧
    e.released + 1 = released.index ∧ released.index ≤ maxChainLength ∧ e.chunkPrice = chunkPrice

/-- The invariant of runs without a rewind in mid-send. -/
def PairInv (s : LaneRun) : Prop :=
  match s.flight with
  | none => Rest s
  | some (.issuing issue) => Issuing s issue
  | some (.metering released chunkPrice) => Rest s ∧ Metering s released chunkPrice

variable {s s' : LaneRun} {issue : PoolLedger.Issue} {released : Released} {chunkPrice : Nat}

/-- Both axes of an accrual are words. -/
theorem ChainEpoch.InRange.accrual_lt {e : ChainEpoch} (h : e.InRange) :
    e.accrual.bytes < U256.modulus ∧ e.accrual.amount < U256.modulus := by
  have hprice := h.price_le
  have hreleased := h.released_le
  unfold u64Max maxChainLength at *
  have hmul : e.released * e.chunkPrice ≤ 255 * (2 ^ 64 - 1) := Nat.mul_le_mul hreleased hprice
  unfold ChainEpoch.accrual chunkBytes U256.modulus
  dsimp only
  omega

/-- Adding an accrual to nothing. -/
theorem ChainEpoch.InRange.zero_plus {e : ChainEpoch} (h : e.InRange) :
    Cumulative.zero.plus e.accrual = e.accrual := by
  rcases h.accrual_lt with ⟨hbytes, hamount⟩
  unfold Cumulative.plus Cumulative.zero
  dsimp only
  rw [U256.saturatingAdd_eq (by omega), U256.saturatingAdd_eq (by omega), Nat.zero_add, Nat.zero_add]

/-- A chain paired with no accrual has released nothing. -/
theorem ChainEpoch.PairedWith.released_eq_zero {e : ChainEpoch} {carried : List Bytes32}
    (h : e.PairedWith carried .zero) : e.released = 0 := by
  have hbytes := congrArg Cumulative.bytes h.accrued_eq
  simp only [Cumulative.zero, ChainEpoch.accrual, chunkBytes] at hbytes
  omega

/-- More roots carried keep a pairing. -/
theorem ChainEpoch.PairedWith.cons {e : ChainEpoch} {carried : List Bytes32} {accrued : Cumulative}
    (h : e.PairedWith carried accrued) (root : Bytes32) : e.PairedWith (root :: carried) accrued :=
  ⟨h.inRange, List.mem_cons_of_mem _ h.root_mem, h.accrued_eq⟩

/-! ## Steps -/

/-- A fresh ledger meters nothing. -/
theorem Rest.start (seed : Cumulative) : Rest (.start seed) where
  live _ h := nomatch h
  voucher _ h := nomatch h
  reveal _ _ _ h := nomatch h

/-- Arming keeps the chain, which has released nothing, or opens a fresh one and
remembers the old. -/
theorem Rest.arm (h : Rest s) (deltaBytes : Nat) (ratePerMb : UInt64) (action : EpochAction)
    (preimages : Nat → Bytes32) (flight : Option Flight) :
    Issuing { s with
        ledger := (s.ledger.issueArm deltaBytes ratePerMb.toNat action preimages).1
        flight := flight }
      (s.ledger.issueArm deltaBytes ratePerMb.toNat action preimages).2 := by
  have hcommit : ∀ e, (s.ledger.issueArm deltaBytes ratePerMb.toNat action preimages).1.epoch = some e →
      e.root = (s.ledger.issueArm deltaBytes ratePerMb.toNat action preimages).2.commit.chainRoot := by
    intro e he
    change _ = (ChainCommit.ofSlot _).chainRoot
    rw [show (s.ledger.commitEpoch (s.ledger.issueAction action) ratePerMb.toNat preimages).epoch =
      some e from he]
    rfl
  rcases s.ledger.issueArm_cases deltaBytes ratePerMb.toNat action preimages with
    ⟨hzero, hepoch, hretired⟩ | ⟨hepoch, hretired⟩
  · constructor
    · intro e he
      have hpaired := h.live e (hepoch ▸ he)
      rw [hzero] at hpaired
      exact ⟨hpaired.inRange, hcommit e he, hpaired.released_eq_zero⟩
    · unfold UndoPaired
      rw [hretired]
      intro e he
      exact h.live e (hepoch ▸ he)
  · constructor
    · intro e he
      refine ⟨?_, hcommit e he, ?_⟩
      all_goals
        rw [hepoch] at he
        obtain rfl := Option.some.inj he
      · exact ⟨toNat_le_u64Max ratePerMb, Nat.zero_le _⟩
      · rfl
    · unfold UndoPaired
      rw [hretired]
      exact h.live

/-- A successful send commits the armed voucher with the chain it carries. -/
theorem Issuing.commit (h : Issuing s issue) :
    Rest
      { ledger := s.ledger.issueCommit issue
        flight := none
        carried := [issue.commit.chainRoot]
        prevCarried := s.carried } where
  live e he := by
    rcases h.live e he with ⟨hrange, hroot, hreleased⟩
    refine ⟨hrange, by simp [hroot], ?_⟩
    simp [ChainEpoch.accrual, hreleased, PoolLedger.issueCommit, Cumulative.zero]
  voucher amount _ := ⟨rfl, fun _ => h.undo⟩
  reveal root index price hlast := by simp [PoolLedger.issueCommit] at hlast

/-- What `meter` reads is the next index of the live chain. -/
theorem Metering.of_meterRead {anchored : Option Bytes32} {flight : Option Flight}
    (hread : s.ledger.meterRead anchored = .released released chunkPrice) :
    Metering { s with flight := flight } released chunkPrice := by
  intro e he
  rcases PoolLedger.meterRead_released hread with ⟨live, hlive, -, hmax, rfl, rfl⟩
  have he : s.ledger.epoch = some e := he
  rw [hlive] at he
  cases he
  exact ⟨rfl, rfl, hmax, rfl⟩

/-- A released index accrues one chunk on both axes. -/
theorem Rest.metered (h : Rest s) (hmeter : Metering s released chunkPrice) :
    Rest { s with ledger := s.ledger.meterAdvance released chunkPrice, flight := none } where
  live e he := by
    rcases Option.map_eq_some_iff.mp he with ⟨old, hold, rfl⟩
    rcases hmeter old hold with ⟨-, hindex, hmax, hprice⟩
    have hpaired := h.live old hold
    have hrange : ChainEpoch.InRange { old with released := released.index } :=
      ⟨hpaired.inRange.price_le, hmax⟩
    refine ⟨hrange, hpaired.root_mem, ?_⟩
    rcases hrange.accrual_lt with ⟨hbytes, hamount⟩
    have hnext : ({ old with released := released.index } : ChainEpoch).accrual =
        ⟨old.accrual.bytes + chunkBytes, old.accrual.amount + chunkPrice⟩ := by
      simp only [ChainEpoch.accrual, ← hindex, ← hprice, Nat.add_mul, Nat.one_mul]
    rw [hnext] at hbytes hamount ⊢
    simp only [PoolLedger.meterAdvance, hpaired.accrued_eq]
    rw [U256.saturatingAdd_eq hbytes, U256.saturatingAdd_eq hamount]
  voucher amount hlast := by simp [PoolLedger.meterAdvance] at hlast
  reveal root index price hlast e he := by
    rcases Option.map_eq_some_iff.mp he with ⟨old, hold, rfl⟩
    rcases hmeter old hold with ⟨hroot, hindex, -, hprice⟩
    simp only [PoolLedger.meterAdvance, Option.some.injEq, LastProof.reveal.injEq] at hlast
    rcases hlast with ⟨rfl, rfl, rfl⟩
    exact ⟨hroot, rfl, by omega, hprice⟩

/-- Re-anchoring carries the live root once more. -/
theorem Rest.reanchor (h : Rest s) (root : Bytes32) :
    Rest { s with carried := root :: s.carried } where
  live e he := (h.live e he).cons root
  voucher := h.voucher
  reveal := h.reveal

/-- A heal leaves no chain and no proof to undo. -/
theorem Rest.healed {ledger : PoolLedger} (hepoch : ledger.epoch = none)
    (hlast : ledger.pipeline.lastProof = none) : Rest (s.healed ledger) where
  live e he := by
    simp [LaneRun.healed, hepoch] at he
  voucher amount h := by simp [LaneRun.healed, hlast] at h
  reveal root index price h := by simp [LaneRun.healed, hlast] at h

/-- Taking back the last reveal takes back its index. -/
theorem Rest.rewindReveal {root : Bytes32} {index price : Nat} (h : Rest s)
    (hlast : s.ledger.pipeline.lastProof = some (.reveal root index price)) :
    Rest { s with ledger := s.ledger.rewindReveal root price } where
  live e he := by
    rcases Option.map_eq_some_iff.mp he with ⟨old, hold, rfl⟩
    rcases h.reveal root index price hlast old hold with ⟨hroot, hindex, hpos, hprice⟩
    have hpaired := h.live old hold
    rw [if_pos hroot]
    refine ⟨⟨hpaired.inRange.price_le, ?_⟩, hpaired.root_mem, ?_⟩
    · exact le_trans (Nat.sub_le _ _) hpaired.inRange.released_le
    · simp only [PoolLedger.rewindReveal, hpaired.accrued_eq, ChainEpoch.accrual, Nat.sub_mul,
        Nat.one_mul, hprice]
  voucher amount h := by simp [PoolLedger.rewindReveal] at h
  reveal root index price h := by simp [PoolLedger.rewindReveal] at h

/-- Un-committing the last voucher pairs the chain it displaced with the anchor
it goes back to. -/
theorem Rest.rewindVoucher {amount : Nat} {prev : Cumulative} (h : Rest s)
    (hlast : s.ledger.pipeline.lastProof = some (.voucher amount))
    (hprev : s.ledger.pipeline.prev = some prev) :
    Rest { s with
      ledger := s.ledger.rewindVoucher prev, carried := s.prevCarried, prevCarried := [] } where
  live e he := by
    rcases h.voucher amount hlast with ⟨hzero, hundo⟩
    have hundo := hundo (by rw [hprev]; rfl)
    have hpaired : e.PairedWith s.prevCarried s.ledger.pipeline.prevAccrued := by
      unfold UndoPaired at hundo
      simp only [PoolLedger.rewindVoucher] at he
      split at hundo
      · rename_i hretired
        rw [hretired] at he
        exact hundo e he
      · rename_i hretired
        rw [hretired] at he
        exact hundo e he
    refine ⟨hpaired.inRange, hpaired.root_mem, ?_⟩
    simp only [PoolLedger.rewindVoucher, hzero, hpaired.accrued_eq]
    exact hpaired.inRange.zero_plus
  voucher amount h := by simp [PoolLedger.rewindVoucher] at h
  reveal root index price h := by simp [PoolLedger.rewindVoucher] at h

/-- With no send in flight the invariant is the ledger's at rest. -/
theorem PairInv.of_rest (hflight : s.flight = none) (h : Rest s) : PairInv s := by
  simpa only [PairInv, hflight] using h

/-- A heal keeps the invariant in mid-send too. -/
theorem PairInv.healed {ledger : PoolLedger} (hepoch : ledger.epoch = none)
    (hretired : ledger.retired = .nothing) (hlast : ledger.pipeline.lastProof = none) :
    PairInv (s.healed ledger) := by
  unfold PairInv
  split
  · exact .healed hepoch hlast
  · constructor
    · intro e he
      simp [LaneRun.healed, hepoch] at he
    · simp only [UndoPaired, LaneRun.healed, hretired, hepoch]
      exact fun e he => nomatch he
  · refine ⟨.healed hepoch hlast, ?_⟩
    intro e he
    simp [LaneRun.healed, hepoch] at he

/-- A rebase is a heal. -/
theorem PairInv.rebased {ledger : PoolLedger} {cum left : Cumulative} {generation : Option Nat}
    {admits : Cumulative → Bool}
    (h : s.ledger.rebaseIf cum generation admits = (ledger, .rebased left)) :
    PairInv (s.healed ledger) := by
  unfold PoolLedger.rebaseIf at h
  split at h
  · cases h
  · split at h
    · cases h
    · obtain rfl := (Prod.mk.inj h).1
      exact .healed rfl rfl rfl

/-- A rejection that rewinds nothing keeps the invariant in mid-send too. -/
theorem PairInv.quiet (h : PairInv s) (armed : Option Armed) {lastProof : Option LastProof}
    (hlast : lastProof = s.ledger.pipeline.lastProof ∨ lastProof = none) :
    PairInv { s with
      ledger := { s.ledger with
        pipeline := { s.ledger.pipeline with armed := armed, lastProof := lastProof } } } := by
  have hrest : Rest s → Rest { s with
      ledger := { s.ledger with
        pipeline := { s.ledger.pipeline with armed := armed, lastProof := lastProof } } } := by
    intro hrest
    rcases hlast with rfl | rfl
    · exact ⟨hrest.live, hrest.voucher, hrest.reveal⟩
    · exact ⟨hrest.live, nofun, nofun⟩
  unfold PairInv at h ⊢
  dsimp only
  split at h
  · exact hrest h
  · exact ⟨h.live, h.undo⟩
  · exact ⟨hrest h.1, h.2⟩

/-- A rejection keeps the invariant unless it rewinds in mid-send. -/
theorem PairInv.resolveReject {rejected : StreamProof} (h : PairInv s)
    (hquiet : s.flight.isSome = true → s.ledger.rewinds rejected = false)
    (hstep : s.step (.resolveReject rejected) s') : PairInv s' := by
  -- A rewind finds no send in flight, so the ledger is at rest.
  have hrest : s.ledger.rewinds rejected = true → s.flight = none ∧ Rest s := by
    intro hrewinds
    cases hflight : s.flight with
    | none => simpa [PairInv, hflight] using h
    | some flight => simp [hquiet (by rw [hflight]; rfl)] at hrewinds
  simp only [LaneRun.step, LaneRun.apply] at hstep
  have hcases := s.ledger.resolveReject_cases rejected
  generalize (s.ledger.resolveReject rejected).1 = ledger at hstep hcases
  cases hcases with
  | reveal hlast hrewinds =>
    rcases hrest hrewinds with ⟨hflight, hrest⟩
    simp only [PoolLedger.uncommits, Bool.false_eq_true, if_false] at hstep
    obtain rfl := Option.some.inj hstep
    exact .of_rest hflight (hrest.rewindReveal hlast)
  | voucher hlast hprev hrewinds =>
    rcases hrest hrewinds with ⟨hflight, hrest⟩
    simp only [PoolLedger.uncommits, hrewinds, if_true] at hstep
    obtain rfl := Option.some.inj hstep
    exact .of_rest hflight (hrest.rewindVoucher hlast hprev)
  | disarmed harmed hamount hrewinds =>
    simp only [PoolLedger.uncommits, hrewinds, Bool.false_eq_true, if_false] at hstep
    obtain rfl := Option.some.inj hstep
    exact h.quiet none (.inl rfl)
  | forgotten hprev hrewinds =>
    simp only [PoolLedger.uncommits, hrewinds, Bool.false_eq_true, if_false] at hstep
    obtain rfl := Option.some.inj hstep
    exact h.quiet s.ledger.pipeline.armed (.inr rfl)
  | stale hrewinds =>
    have hkeeps : s.ledger.uncommits rejected = false := by
      cases rejected with
      | reveal => rfl
      | voucher => exact hrewinds
    simp only [hkeeps, Bool.false_eq_true, if_false] at hstep
    obtain rfl := Option.some.inj hstep
    exact h

/-- One step without a rewind in mid-send keeps the invariant. -/
theorem PairInv.step {e : LaneRunEvent} (h : PairInv s) (hguard : e.NoRewindInFlight s)
    (hstep : s.step e s') : PairInv s' := by
  cases e with
  | arm deltaBytes ratePerMb action preimages =>
    simp only [LaneRun.step, LaneRun.apply] at hstep
    split at hstep
    · rename_i hflight
      obtain rfl := Option.some.inj hstep
      simp only [PairInv, hflight] at h
      exact h.arm deltaBytes.toNat ratePerMb action preimages _
    · cases hstep
  | commit =>
    simp only [LaneRun.step, LaneRun.apply] at hstep
    split at hstep
    · rename_i issue hflight
      obtain rfl := Option.some.inj hstep
      simp only [PairInv, hflight] at h
      exact h.commit
    · cases hstep
  | meter anchored =>
    simp only [LaneRun.step, LaneRun.apply] at hstep
    split at hstep
    · rename_i released chunkPrice hflight hread
      obtain rfl := Option.some.inj hstep
      simp only [PairInv, hflight] at h
      exact ⟨⟨h.live, h.voucher, h.reveal⟩, .of_meterRead hread⟩
    · cases hstep
  | metered =>
    simp only [LaneRun.step, LaneRun.apply] at hstep
    split at hstep
    · rename_i released chunkPrice hflight
      obtain rfl := Option.some.inj hstep
      simp only [PairInv, hflight] at h
      exact h.1.metered h.2
    · cases hstep
  | meterFail =>
    simp only [LaneRun.step, LaneRun.apply] at hstep
    split at hstep
    · rename_i released chunkPrice hflight
      obtain rfl := Option.some.inj hstep
      simp only [PairInv, hflight] at h
      exact ⟨h.1.live, h.1.voucher, h.1.reveal⟩
    · cases hstep
  | reanchor =>
    simp only [LaneRun.step, LaneRun.apply] at hstep
    split at hstep
    · rename_i issue hflight hreanchor
      obtain rfl := Option.some.inj hstep
      simp only [PairInv, hflight] at h
      exact .of_rest hflight (h.reanchor _)
    · cases hstep
  | reseed cum =>
    simp only [LaneRun.step, LaneRun.apply, PoolLedger.reseed] at hstep
    split at hstep
    · rename_i ledger heq
      obtain rfl := Option.some.inj hstep
      split at heq
      · cases heq
      · obtain rfl := (Prod.mk.inj heq).1
        exact .healed rfl rfl rfl
    · obtain rfl := Option.some.inj hstep
      exact h
  | rebase cum proofGeneration =>
    simp only [LaneRun.step, LaneRun.apply] at hstep
    split at hstep
    · rename_i ledger left hflight heq
      obtain rfl := Option.some.inj hstep
      exact .rebased heq
    · obtain rfl := Option.some.inj hstep
      exact h
    · cases hstep
  | rebaseAheadOnBytes cum proofGeneration =>
    simp only [LaneRun.step, LaneRun.apply] at hstep
    split at hstep
    · rename_i ledger left hflight heq
      obtain rfl := Option.some.inj hstep
      exact .rebased heq
    · obtain rfl := Option.some.inj hstep
      exact h
    · cases hstep
  | retireUnadoptedChain bundle =>
    simp only [LaneRun.step, LaneRun.apply, PoolLedger.retireUnadoptedChain] at hstep
    split at hstep
    · rename_i ledger root hflight heq
      obtain rfl := Option.some.inj hstep
      split at heq
      · cases heq
      · split at heq
        · cases heq
        · obtain rfl := (Prod.mk.inj heq).1
          exact .healed rfl rfl rfl
    · obtain rfl := Option.some.inj hstep
      exact h
    · cases hstep
  | resolveReject rejected => exact h.resolveReject hguard hstep

/-! ## Runs -/

/-- When no rejection rewinds in the middle of a send: whenever no send is in
flight, a live chain carries the root of the voucher that signed the committed
anchor or of a re-anchor of it, and the accrual is what it has released. -/
theorem chain_anchor_paired {seed : Cumulative}
    (hrun : Reaches LaneRun.step LaneRunEvent.NoRewindInFlight (.start seed) s)
    (hflight : s.flight = none) {live : ChainEpoch} (hlive : s.ledger.epoch = some live) :
    live.root ∈ s.carried ∧
      s.ledger.pipeline.accrued.amount = live.released * live.chunkPrice ∧
      s.ledger.pipeline.accrued.bytes = live.released * chunkBytes := by
  have hinv : PairInv s := by
    apply hrun.invariant (PairInv.of_rest rfl (Rest.start seed))
    intro a e b hguard hstep ha
    exact ha.step hguard hstep
  simp only [PairInv, hflight] at hinv
  have hpaired := hinv.live live hlive
  rw [hpaired.accrued_eq]
  exact ⟨hpaired.root_mem, rfl, rfl⟩

/-! ## Rewinds in mid-send -/

/-- One stream's first reveal is refused while a sibling sends the second. -/
def sampleRefusedReveal : List LaneRunEvent :=
  [.arm 0 10 .opened sampleLadder, .commit, .meter (some (sampleLadder 0)), .metered,
    .meter (some (sampleLadder 0)), .resolveReject (.reveal (sampleLadder 0) 1), .metered]

/-- The opening voucher is refused while a sibling sends a rollover. -/
def sampleRefusedVoucher : List LaneRunEvent :=
  [.arm 0 10 .opened sampleLadder, .commit, .arm 0 10 .roll otherLadder,
    .resolveReject (.voucher 0 0), .commit]

/-- A rewind in mid-send parts the accrual from the chain, and the chain from the
anchor: after the first run one chunk is accrued on a chain that released two,
and after the second the live root is not the one the anchor carried. -/
theorem rewind_in_flight_unpairs :
    (∃ s live, Reaches LaneRun.step (fun _ _ => True) (.start .zero) s ∧ s.flight = none ∧
      s.ledger.epoch = some live ∧ live.released * live.chunkPrice = 20 ∧
      s.ledger.pipeline.accrued.amount = 10) ∧
    ∃ s live, Reaches LaneRun.step (fun _ _ => True) (.start .zero) s ∧ s.flight = none ∧
      s.ledger.epoch = some live ∧ s.carried = [otherLadder 0] ∧ live.root ∉ s.carried := by
  have hrun : ∀ es s, runEvents LaneRun.apply (fun _ _ => true) (.start .zero) es = some s →
      Reaches LaneRun.step (fun _ _ => True) (.start .zero) s :=
    fun es s h => Reaches.of_runEvents (fun _ _ _ => trivial) h
  constructor
  · exact ⟨_, _, hrun sampleRefusedReveal _ rfl, rfl, rfl, rfl, rfl⟩
  · exact ⟨_, _, hrun sampleRefusedVoucher _ rfl, rfl, rfl, rfl, by decide⟩

/-- The run of two reveals without the rejection stays paired. -/
theorem chain_anchor_paired_sample :
    ∃ s live, Reaches LaneRun.step LaneRunEvent.NoRewindInFlight (.start .zero) s ∧
      s.ledger.epoch = some live ∧ live.released = 2 ∧
      s.ledger.pipeline.accrued.amount = live.released * live.chunkPrice := by
  have hrun : ∀ es s, runEvents LaneRun.apply (fun _ e => !e.isReject) (.start .zero) es = some s →
      Reaches LaneRun.step LaneRunEvent.NoRewindInFlight (.start .zero) s :=
    fun es s h => Reaches.of_runEvents (fun _ e he => LaneRunEvent.noRewind_of_not_isReject he) h
  have hpaid := hrun [.arm 0 10 .opened sampleLadder, .commit, .meter (some (sampleLadder 0)),
    .metered, .meter (some (sampleLadder 0)), .metered] _ rfl
  exact ⟨_, _, hpaid, rfl, rfl, (chain_anchor_paired hpaid rfl rfl).2.1⟩

end Decdn.Client
