import Decdn.Client.RejectUndo
import Decdn.Session.Paying

/-!
# After a refused voucher

A node that stands with the payer at the front of the journal accepts the
payer's next voucher and its next reveal.  A refused voucher that is undone
leaves the payer there, so the lane goes on where it was.

Main results:

- Theorem `PayerAt.acceptsNext`: the node takes whatever the payer does next.
- Theorem `last_voucher_undone_iff`: exactly which refused vouchers are undone,
  and what the lane then accepts.
-/

namespace Decdn.Session

open Incentive Client Node
open PoolLedger (Reachable Undone)

variable {ι : Type} {t : Terms ι} {C : Chronicle ι} {roots : List Bytes32} {l l' : PoolLedger}
  {lane : LaneDeliveryState}

/-! ## What the node takes next -/

/-- The node accepts the payer's next voucher, while it fits the wire and the cap and draws a
chain of its own, and credits the next reveal of the live chain in full. -/
structure AcceptsNext (t : Terms ι) (roots : List Bytes32) (l : PoolLedger)
    (lane : LaneDeliveryState) : Prop where
  voucher : ∀ (deltaBytes : Nat) (action : EpochAction) (seed : Bytes32),
    deltaBytes < chunkBytes → rootFromSeed t.env.H seed ∉ roots →
    (action = .roll → l.pipeline.accrued.amount ≠ 0) →
    ∀ v, (l.issueArm deltaBytes t.ratePerMb.toNat action (preimageAt t.env.H seed)).2 = v →
      v.fitsWire = true → v.next.amount ≤ t.lane.cap →
      ∃ verified, Node.verifyVoucher lane.state lane.bytesDeliveredCumulative
        ⟨t.voucherOf v, t.sign (t.voucherOf v)⟩ (t.wire v) t.ratePerMb = .ok verified
  reveal : ∀ (released : Released) (chunkPrice now : Nat) (walked : Option (Nat × Bytes32))
    (owed : OwedChunk), l.meterRead l.chainRoot = .released released chunkPrice →
    (l.meterAdvance released chunkPrice).pipeline.owed.amount ≤ t.lane.cap →
    NodeEnv.insideExpiryMargin { t.env with now := now } t.lane.expiry = false →
    owed.remaining ≤ chunkBytes →
    ∃ lane', Node.commitOnePreimage { t.env with now := now } lane (.adopt released.chainRoot)
      (.ofNat released.index) released.preimage walked owed =
        ⟨lane', .adopt released.chainRoot, .continued owed.remaining⟩

/-- A committed voucher leaves its claim as what is owed. -/
theorem issue_owed_le {deltaBytes ratePerMb cap : Nat} {action : EpochAction}
    {p : Nat → Bytes32} (h : (l.issueArm deltaBytes ratePerMb action p).2.next.amount ≤ cap) :
    (l.issue deltaBytes ratePerMb action p).1.pipeline.owed.amount ≤ cap := by
  have howed : (l.issue deltaBytes ratePerMb action p).1.pipeline.owed.amount =
      U256.saturatingAdd (l.issueArm deltaBytes ratePerMb action p).2.next.amount 0 := rfl
  have hle := U256.saturatingAdd_le (l.issueArm deltaBytes ratePerMb action p).2.next.amount 0
  rw [howed]
  omega

variable [DecidableEq ι] [Inhabited ι]

/-- A node at the front of the journal takes whatever the payer does next. -/
theorem PayerAt.acceptsNext (h : PayerAt t C roots l) (hlane : LaneAt t C C.journal.front lane)
    (hpaid : lane.paidCredited ≤ lane.bytesDeliveredCumulative) :
    AcceptsNext t roots l lane := by
  constructor
  · intro deltaBytes action seed hsmall hfresh hfolds v hv hfits hcap
    subst hv
    rcases h.issue default hsmall hfits (issue_owed_le hcap) hfresh hfolds with
      ⟨epoch, charge, chains, hentered⟩
    have hin : C.journal.front.In (C.enter t default epoch charge deltaBytes chains).journal :=
      ⟨List.mem_cons_of_mem _ C.journal.front_in.entry_mem, C.journal.front_in.index_le⟩
    rcases hentered.payer.verifyVoucher (hlane.extend hentered.extended le_rfl) hin
      List.mem_cons_self hentered.carried lane.paidCredited with ⟨verified, hok, -, -⟩
    exact ⟨verified, hok⟩
  · intro released chunkPrice now walked owed hread hcap hexpiry howed
    rcases h.meterAdvance default hread hcap with ⟨htop, hroot, hindex, hpreimage, hpayer⟩
    have hchain : released.chainRoot = (C.chains C.top).root := by
      rcases PoolLedger.meterRead_released hread with ⟨live, -, hanchored, -, hreleased, -⟩
      rw [hreleased]
      exact Option.some.inj (hanchored.symm.trans hroot)
    have hsame : ((C.tick t default).chains C.top).root = (C.chains C.top).root :=
      congrFun (C.tick_preimages default C.top) 0
    have hsold : (C.tick t default).journal.ticks C.top = released.index := by
      rw [hindex]
      exact Function.update_self _ _ _
    have hmore : C.journal.ticks C.top < released.index := by omega
    have hin : Item.In (C.tick t default).journal (.tick C.top released.index) :=
      ⟨le_of_eq hsold.symm, le_rfl⟩
    have hfront : C.journal.front.In (C.tick t default).journal :=
      ⟨C.journal.front_in.entry_mem, le_trans (le_of_lt hmore) (le_of_eq hsold.symm)⟩
    have hread : C.journal.front.read (.tick C.top released.index) =
        ⟨C.journal.last, released.index⟩ := if_pos ⟨rfl, hmore⟩
    -- The reveal is worth a chunk, so the chunk fits what the lane has been told it is owed.
    have hroom : lane.paidCredited + owed.remaining ≤
        (C.journal.front.read (.tick C.top released.index)).bytes t.tariff := by
      have hcumulative := hlane.cumulative
      rw [hread, hindex]
      simp only [Position.bytes, Journal.front, Terms.tariff] at hcumulative ⊢
      unfold Chronicle.top
      rw [Nat.succ_mul]
      omega
    rcases hpayer.commitOnePreimage walked (hlane.extend (C.extends_tick default) le_rfl) hfront
      hin (by omega) (by rw [C.tick_preimages, hpreimage, hindex]) le_rfl hexpiry hroom with
      ⟨lane', hcommit, -, -⟩
    rw [hsame, ← hchain] at hcommit
    exact ⟨lane', hcommit⟩

omit [DecidableEq ι] [Inhabited ι] in
/-- An undone ledger stands where the ledger with nothing in doubt stood. -/
theorem PayerAt.undone (h : PayerAt t C roots l.disarmed) (hundone : Undone l l')
    (hepoch : l'.epoch = l.epoch) : PayerAt t C roots l' := by
  refine ⟨h.ordered, hundone.armed, hundone.committed.trans h.committed,
    hundone.accrued.trans h.accrued, hepoch.trans h.epoch, h.released, h.sealed, h.price, h.ladder,
    h.ticks_le, h.drawn, h.distinct, h.claim_le, h.bytes_le⟩

/-! ## The last voucher -/

/-- Whatever any ledger issues, a voucher that is refused while it is still the lane's last claim
is undone exactly when its send had confirmed, or when it left the chain slot alone and is no
repeat of the lane's last voucher.  Once undone, the ledger signs and reveals next what it would
have before the voucher with nothing in doubt, and a node that stood with it then accepts that.
Each chain is drawn with a root of its own. -/
theorem last_voucher_undone_iff {l : PoolLedger} (hl : Reachable l)
    (deltaBytes ratePerMb : UInt64) (action : EpochAction) (preimages : Nat → Bytes32)
    (hfresh : ∀ live, l.epoch = some live → live.root ≠ preimages 0) (sent : Bool)
    (generation : Nat) :
    let l' := l.refused deltaBytes.toNat ratePerMb.toNat action preimages sent generation
    (Undone l l' ↔
      sent = true ∨
        (l.Keeps action ∧ ¬ l.Repeats deltaBytes.toNat ratePerMb.toNat)) ∧
    (Undone l l' →
      (∀ (deltaBytes ratePerMb : Nat) (action : EpochAction) (preimages : Nat → Bytes32)
        (anchored : Option Bytes32),
        (l'.issueArm deltaBytes ratePerMb action preimages).2 =
            (l.disarmed.issueArm deltaBytes ratePerMb action preimages).2 ∧
          l'.meterRead anchored = l.meterRead anchored) ∧
      ∀ (ι : Type) [DecidableEq ι] [Inhabited ι] (t : Terms ι) (C : Chronicle ι)
        (roots : List Bytes32) (lane : LaneDeliveryState), PayerAt t C roots l.disarmed →
        LaneAt t C C.journal.front lane → lane.paidCredited ≤ lane.bytesDeliveredCumulative →
        AcceptsNext t roots l' lane) := by
  intro l'
  have hiff : Undone l l' ↔ sent = true ∨
      (l.Keeps action ∧ ¬ l.Repeats deltaBytes.toNat ratePerMb.toNat) := by
    cases sent with
    | true => exact ⟨fun _ => .inl rfl, fun _ => (PoolLedger.refused_sent
        (PoolLedger.accrued_fits hl) generation).1⟩
    | false =>
      rw [PoolLedger.refused_unsent_iff hfresh generation]
      exact ⟨.inr, fun h => h.resolve_left Bool.false_ne_true⟩
  refine ⟨hiff, ?_⟩
  intro hundone
  have hepoch : l'.epoch = l.epoch := by
    cases sent with
    | true => exact (PoolLedger.refused_sent (PoolLedger.accrued_fits hl) generation).2
    | false =>
      rcases (PoolLedger.refused_unsent_iff hfresh generation).mp hundone with ⟨hkeeps, hrepeats⟩
      exact PoolLedger.refused_unsent_epoch hkeeps hrepeats generation
  refine ⟨fun _ _ _ _ _ => PoolLedger.undone_next hundone hepoch _ _ _ _ _, ?_⟩
  intro ι _ _ t C roots lane hpayer hlane hpaid
  exact (hpayer.undone hundone hepoch).acceptsNext hlane hpaid

/-- A lane with a live chain rolls it, the send confirms and the voucher is refused: the chain
comes back. -/
theorem last_voucher_undone_iff_rolled :
    let l := ((PoolLedger.new .zero).issueArm (0 : UInt64).toNat (10 : UInt64).toNat .opened
      sampleLadder).1
    Undone l (l.refused (0 : UInt64).toNat (10 : UInt64).toNat .roll otherLadder true 0) := by
  have hreachable := Reachable.step (.new .zero) (.arm _ 0 10 .opened sampleLadder)
  have hfresh : ∀ live : ChainEpoch, ((PoolLedger.new .zero).issueArm (0 : UInt64).toNat
      (10 : UInt64).toNat .opened sampleLadder).1.epoch = some live →
      live.root ≠ otherLadder 0 := by
    intro live hlive
    cases hlive
    decide
  exact ((last_voucher_undone_iff hreachable 0 10 .roll otherLadder hfresh true 0).1).mpr (.inl rfl)

/-- The opening voucher of a fresh lane, its send in doubt: once refused, the chain it drew is
still live, and the lane reveals under a root that the node does not meter. -/
theorem opening_in_doubt_stays :
    let l := PoolLedger.new .zero
    let l' := l.refused 0 10 .opened sampleLadder false 0
    Reachable l ∧ l.chainRoot = none ∧ l'.chainRoot = some (sampleLadder 0) ∧
      l'.meterRead (some (sampleLadder 0)) =
        .released ⟨sampleLadder 1, 1, sampleLadder 0⟩ 10 ∧
      ¬ Undone l l' := by
  have hroot : ((PoolLedger.new .zero).refused 0 10 .opened sampleLadder false 0).chainRoot =
      some (sampleLadder 0) := rfl
  refine ⟨.new _, rfl, hroot, by decide, ?_⟩
  intro hundone
  have hsame := hundone.root
  rw [hroot] at hsame
  cases hsame

end Decdn.Session
