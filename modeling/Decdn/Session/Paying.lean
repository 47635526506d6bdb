import Decdn.Session.Reading

/-!
# Paying

The payer's side of the joint invariant: what a stream sends extends the journal
by one entry or one tick, or repeats its newest entry, and the ledger moves to
the new front.  A rollover extends the journal because it folds something; that
is the one thing the payer does not check for itself.

Main results:

- Theorem `PayerAt.issue`: an issued voucher enters the journal.
- Theorem `PayerAt.meterAdvance`: a reveal ticks it.
- Theorem `Joint.pay`: a step of a stream's `pay` keeps the joint invariant.
-/

namespace Decdn.Session

open PaymentPool (Crypto)
open Incentive Client Node
open PoolLedger (Issue)

variable {ι : Type*} {t : Terms ι} {C C' : Chronicle ι} {roots : List Bytes32} {l : PoolLedger}
  {P : Position} {lane : LaneDeliveryState}

/-! ## Extending a chronicle -/

/-- A later chronicle has the chains of an earlier one, as far as that goes. -/
structure Chronicle.Extends (C C' : Chronicle ι) : Prop where
  position : C'.position = C.position
  top_le : C.top ≤ C'.top
  preimages : ∀ k ≤ C.top, (C'.chains k).preimages = (C.chains k).preimages
  chunkPrice : ∀ k ≤ C.top, (C'.chains k).chunkPrice = (C.chains k).chunkPrice

/-- The roots stay. -/
theorem Chronicle.Extends.root (h : C.Extends C') {k : Nat} (hk : k ≤ C.top) :
    (C'.chains k).root = (C.chains k).root := by
  unfold ChainEpoch.root
  rw [h.preimages k hk]

/-- The lane stands where it stood. -/
theorem LaneAt.extend (h : LaneAt t C P lane) (hext : C.Extends C') (hP : P.entry.epoch ≤ C.top) :
    LaneAt t C' P lane := by
  have hchain : C'.laneChain P = C.laneChain P := by
    simp only [Chronicle.laneChain, hext.root hP, hext.preimages _ hP, hext.chunkPrice _ hP]
  refine ⟨?_, h.unsigned, h.cumulative⟩
  rw [hchain]
  exact h.state_eq

/-- A proof on its way still carries its item. -/
theorem Matches.extend {sent : Sent} {m : Item × Nat} {J : Journal} (h : Matches C sent m)
    (hext : C.Extends C') (hm : m.1.In J) (hJ : ∀ e ∈ J.entries, e.epoch ≤ C.top)
    (htop : J.last.epoch ≤ C.top) : Matches C' sent m := by
  cases h with
  | voucher h =>
    have hk := hJ _ hm
    refine .voucher ⟨h.fits, h.next, ?_⟩
    rw [h.commit]
    simp only [Chronicle.commit, hext.root hk, hext.chunkPrice _ hk]
  | reveal hpos hpreimage =>
    refine .reveal hpos ?_
    rw [hext.preimages _ (le_trans hm.2 htop)]
    exact hpreimage

/-! ## The ledger's arithmetic -/

/-- What a voucher charges for its bytes. -/
def cost (deltaBytes ratePerMb : Nat) : Nat := (deltaBytes * ratePerMb + (mbBytes - 1)) / mbBytes

/-- The charge covers the bytes, and is nothing only for no bytes. -/
theorem cost_covers (deltaBytes : Nat) {ratePerMb : Nat} (hrate : 0 < ratePerMb) :
    deltaBytes * ratePerMb ≤ cost deltaBytes ratePerMb * mbBytes ∧
      (cost deltaBytes ratePerMb = 0 ↔ deltaBytes = 0) := by
  unfold cost mbBytes
  constructor
  · omega
  · constructor
    · intro hzero
      by_contra hne
      have hpos : 0 < deltaBytes * ratePerMb := Nat.mul_pos (Nat.pos_of_ne_zero hne) hrate
      omega
    · rintro rfl
      simp

/-- A ledger at the front of the journal owes what the front is worth. -/
theorem PayerAt.owed (h : PayerAt t C roots l) :
    l.pipeline.owed = ⟨C.journal.front.bytes t.tariff, C.journal.front.amount t.tariff⟩ ∧
      l.settlement = l.pipeline.owed := by
  have hposition := h.position_le C.journal.front_in
  have hcap := t.cap_le
  have hsettled : l.settlement = l.pipeline.owed := by
    unfold PoolLedger.settlement Pipeline.settlement
    rw [h.armed]
  refine ⟨?_, hsettled⟩
  simp only [Journal.front] at hposition
  unfold u64Max at hposition hcap
  unfold maxChainLength at hposition
  simp only [Pipeline.owed, Cumulative.plus, h.committed, h.accrued, Chronicle.top,
    Position.bytes, Position.amount, Journal.front, Terms.tariff]
  rw [U256.saturatingAdd_eq, U256.saturatingAdd_eq]
  · unfold U256.modulus
    omega
  · unfold U256.modulus chunkBytes
    omega

/-- The chain section of the ledger is that of the newest epoch. -/
theorem PayerAt.ofSlot (h : PayerAt t C roots l) : .ofSlot l.epoch = C.commit C.top := by
  rw [h.epoch]
  split
  · rename_i hzero
    rw [hzero]
    unfold Chronicle.commit
    rw [h.sealed]
    rfl
  · rfl

/-- The root of a chain just drawn. -/
theorem opened_root (H : Crypto) (seed : Bytes32) (ratePerMb : Nat) :
    (ChainEpoch.opened (preimageAt H seed) ratePerMb).root = rootFromSeed H seed := by
  simp only [ChainEpoch.root, ChainEpoch.opened, preimageAt_zero]

section Issue

variable {deltaBytes charge : Nat} {action : EpochAction} {seed : Bytes32}

/-- What a voucher that fits the wire signs: the front, and its own bytes on top. -/
theorem PayerAt.issue_next (h : PayerAt t C roots l) (hsmall : deltaBytes < chunkBytes)
    (hfits : (l.issue deltaBytes t.ratePerMb.toNat action (preimageAt t.env.H seed)).2.fitsWire =
      true) (hcharge : charge = cost deltaBytes t.ratePerMb.toNat) (epoch : Nat) :
    (l.issue deltaBytes t.ratePerMb.toNat action (preimageAt t.env.H seed)).2.next =
      ⟨(C.journal.next t.tariff epoch charge deltaBytes).bytes,
        (C.journal.next t.tariff epoch charge deltaBytes).amount⟩ := by
  rcases of_decide_eq_true hfits with ⟨hamount, hbytes, -⟩
  have hrate := toNat_le_u64Max t.ratePerMb
  have hmul : deltaBytes * t.ratePerMb.toNat ≤ chunkBytes * u64Max :=
    Nat.mul_le_mul (le_of_lt hsmall) hrate
  have hproduct : U256.saturatingMul deltaBytes t.ratePerMb.toNat =
      deltaBytes * t.ratePerMb.toNat := by
    unfold U256.saturatingMul U256.modulus
    unfold chunkBytes u64Max at hmul
    omega
  have hnext : (l.issue deltaBytes t.ratePerMb.toNat action (preimageAt t.env.H seed)).2.next =
      ⟨U256.saturatingAdd (C.journal.front.bytes t.tariff) deltaBytes,
        U256.saturatingAdd (C.journal.front.amount t.tariff) charge⟩ := by
    simp only [PoolLedger.issue, PoolLedger.issueArm, nextVoucher, h.owed.2, h.owed.1, hproduct,
      cost, hcharge]
  rw [hnext] at hamount hbytes ⊢
  have hexact : ∀ a b : Nat, U256.saturatingAdd a b ≤ u64Max → U256.saturatingAdd a b = a + b := by
    intro a b hle
    unfold U256.saturatingAdd U256.modulus at hle ⊢
    unfold u64Max at hle
    omega
  rw [hexact _ _ hamount, hexact _ _ hbytes]
  rfl

/-- The journal takes the voucher's entry, and the stream's queue the voucher. -/
def Chronicle.enter [DecidableEq ι] (t : Terms ι) (C : Chronicle ι) (σ : ι)
    (epoch charge quantity : Nat) (chains : Nat → ChainEpoch) : Chronicle ι where
  journal := C.journal.enter t.tariff epoch charge quantity
  chains := chains
  position := C.position
  items := Function.update C.items σ
    (C.items σ ++ [(.entry (C.journal.next t.tariff epoch charge quantity), quantity)])

/-- A voucher the ledger issues enters the journal, under the live chain or a new
one. -/
structure Entered [DecidableEq ι] (t : Terms ι) (C : Chronicle ι) (roots : List Bytes32)
    (l : PoolLedger) (v : Issue) (σ : ι) (epoch charge quantity : Nat)
    (chains : Nat → ChainEpoch) : Prop where
  enters : C.journal.Enters t.tariff epoch charge quantity
  payer : PayerAt t (C.enter t σ epoch charge quantity chains) (l.chainRoot.toList ++ roots) l
  extended : C.Extends (C.enter t σ epoch charge quantity chains)
  carried : Carried (C.enter t σ epoch charge quantity chains) v
    (C.journal.next t.tariff epoch charge quantity)

/-- Nothing has accrued exactly when no tick is sold. -/
theorem PayerAt.ticks_eq_zero (h : PayerAt t C roots l) :
    C.journal.ticks C.top = 0 ↔ l.pipeline.accrued.amount = 0 := by
  rw [h.accrued]
  constructor
  · intro hzero
    simp only [hzero, Nat.zero_mul]
  · intro hzero
    exact (Nat.mul_eq_zero.mp hzero).resolve_right (Nat.pos_iff_ne_zero.mp t.rate_pos)

/-- The new front is what the voucher signs, within the cap. -/
theorem front_le {epoch : Nat}
    (hnext : (l.issue deltaBytes t.ratePerMb.toNat action (preimageAt t.env.H seed)).2.next =
      ⟨(C.journal.next t.tariff epoch charge deltaBytes).bytes,
        (C.journal.next t.tariff epoch charge deltaBytes).amount⟩)
    (hticks : C.journal.ticks epoch = 0)
    (hcap : (l.issue deltaBytes t.ratePerMb.toNat action
      (preimageAt t.env.H seed)).1.pipeline.owed.amount ≤ t.lane.cap) :
    (C.journal.enter t.tariff epoch charge deltaBytes).front.amount t.tariff ≤ t.lane.cap := by
  have howed : (l.issue deltaBytes t.ratePerMb.toNat action
      (preimageAt t.env.H seed)).1.pipeline.owed.amount =
      U256.saturatingAdd (l.issue deltaBytes t.ratePerMb.toNat action
        (preimageAt t.env.H seed)).2.next.amount 0 := rfl
  have hfront : (C.journal.enter t.tariff epoch charge deltaBytes).front.amount t.tariff =
      (C.journal.next t.tariff epoch charge deltaBytes).amount +
        C.journal.ticks epoch * t.ratePerMb.toNat := rfl
  have hle := t.cap_le
  rw [howed, hnext] at hcap
  rw [hfront, hticks, Nat.zero_mul]
  unfold U256.saturatingAdd U256.modulus at hcap
  unfold u64Max at hle
  dsimp only at hcap
  omega

/-- The voucher keeps the chain: its entry stays in the newest epoch. -/
theorem PayerAt.issue_kept [DecidableEq ι] (h : PayerAt t C roots l) (σ : ι)
    (hsmall : deltaBytes < chunkBytes)
    (hfits : (l.issue deltaBytes t.ratePerMb.toNat action (preimageAt t.env.H seed)).2.fitsWire =
      true) (hcharge : charge = cost deltaBytes t.ratePerMb.toNat)
    (hcap : (l.issue deltaBytes t.ratePerMb.toNat action
      (preimageAt t.env.H seed)).1.pipeline.owed.amount ≤ t.lane.cap)
    (hzero : l.pipeline.accrued = .zero)
    (hkept : (l.issueArm deltaBytes t.ratePerMb.toNat action (preimageAt t.env.H seed)).1.epoch =
      l.epoch) :
    Entered t C roots (l.issue deltaBytes t.ratePerMb.toNat action (preimageAt t.env.H seed)).1
      (l.issue deltaBytes t.ratePerMb.toNat action (preimageAt t.env.H seed)).2 σ C.top charge
      deltaBytes C.chains := by
  have hticks : C.journal.ticks C.top = 0 := h.ticks_eq_zero.mpr (by rw [hzero]; rfl)
  have hcovers := cost_covers deltaBytes t.rate_pos
  rw [← hcharge] at hcovers
  have henters : C.journal.Enters t.tariff C.top charge deltaBytes :=
    ⟨hcovers.1, hcovers.2, .inl ⟨rfl, hticks⟩⟩
  have hnext := h.issue_next hsmall hfits hcharge C.top
  have hepoch : (l.issue deltaBytes t.ratePerMb.toNat action (preimageAt t.env.H seed)).1.epoch =
      l.epoch := hkept
  rcases of_decide_eq_true hfits with ⟨-, hbytes, -⟩
  rw [hnext] at hbytes
  have hpayer : PayerAt t (C.enter t σ C.top charge deltaBytes C.chains)
      ((l.issue deltaBytes t.ratePerMb.toNat action
        (preimageAt t.env.H seed)).1.chainRoot.toList ++ roots)
      (l.issue deltaBytes t.ratePerMb.toNat action (preimageAt t.env.H seed)).1 := by
    constructor
    · exact h.ordered.enter henters
    · rfl
    · exact hnext
    · change Cumulative.zero = ⟨C.journal.ticks C.top * _, C.journal.ticks C.top * _⟩
      rw [hticks, Nat.zero_mul, Nat.zero_mul]
      rfl
    · rw [hepoch, h.epoch]
      rfl
    · exact h.released
    · exact h.sealed
    · exact h.price
    · exact h.ladder
    · exact h.ticks_le
    · intro k hk
      exact List.mem_append_right _ (h.drawn k hk)
    · exact h.distinct
    · exact front_le hnext hticks hcap
    · intro e he
      rcases List.mem_cons.mp he with rfl | hold
      · exact hbytes
      · exact h.bytes_le e hold
  refine ⟨henters, hpayer, ?_, ?_⟩
  · exact ⟨rfl, le_rfl, fun _ _ => rfl, fun _ _ => rfl⟩
  · exact ⟨hfits, hnext, hpayer.ofSlot⟩

/-- The voucher opens a chain: its entry starts the next epoch. -/
theorem PayerAt.issue_rolled [DecidableEq ι] (h : PayerAt t C roots l) (σ : ι)
    (hsmall : deltaBytes < chunkBytes)
    (hfits : (l.issue deltaBytes t.ratePerMb.toNat action (preimageAt t.env.H seed)).2.fitsWire =
      true) (hcharge : charge = cost deltaBytes t.ratePerMb.toNat)
    (hcap : (l.issue deltaBytes t.ratePerMb.toNat action
      (preimageAt t.env.H seed)).1.pipeline.owed.amount ≤ t.lane.cap)
    (hfresh : rootFromSeed t.env.H seed ∉ roots)
    (hfolds : 0 < C.top → 0 < C.journal.ticks C.top)
    (hopened : (l.issueArm deltaBytes t.ratePerMb.toNat action
      (preimageAt t.env.H seed)).1.epoch =
        some (ChainEpoch.opened (preimageAt t.env.H seed) t.ratePerMb.toNat)) :
    Entered t C roots (l.issue deltaBytes t.ratePerMb.toNat action (preimageAt t.env.H seed)).1
      (l.issue deltaBytes t.ratePerMb.toNat action (preimageAt t.env.H seed)).2 σ (C.top + 1)
      charge deltaBytes (Function.update C.chains (C.top + 1)
        (ChainEpoch.opened (preimageAt t.env.H seed) t.ratePerMb.toNat)) := by
  have hticks : C.journal.ticks (C.top + 1) = 0 := h.ordered.ticks_later _ (Nat.lt_succ_self _)
  have hcovers := cost_covers deltaBytes t.rate_pos
  rw [← hcharge] at hcovers
  have henters : C.journal.Enters t.tariff (C.top + 1) charge deltaBytes :=
    ⟨hcovers.1, hcovers.2, .inr ⟨rfl, hfolds⟩⟩
  have hnext := h.issue_next hsmall hfits hcharge (C.top + 1)
  have hepoch : (l.issue deltaBytes t.ratePerMb.toNat action (preimageAt t.env.H seed)).1.epoch =
      some (ChainEpoch.opened (preimageAt t.env.H seed) t.ratePerMb.toNat) := hopened
  have hchainRoot : (l.issue deltaBytes t.ratePerMb.toNat action
      (preimageAt t.env.H seed)).1.chainRoot = some (rootFromSeed t.env.H seed) := by
    unfold PoolLedger.chainRoot
    rw [hepoch, Option.map_some, opened_root]
  rcases of_decide_eq_true hfits with ⟨-, hbytes, -⟩
  rw [hnext] at hbytes
  -- Up to the old newest epoch the chains are the old ones.
  have hold : ∀ k ≤ C.top, Function.update C.chains (C.top + 1)
      (ChainEpoch.opened (preimageAt t.env.H seed) t.ratePerMb.toNat) k = C.chains k :=
    fun k hk => Function.update_of_ne (by omega) _ _
  have hnew : Function.update C.chains (C.top + 1)
      (ChainEpoch.opened (preimageAt t.env.H seed) t.ratePerMb.toNat) (C.top + 1) =
      ChainEpoch.opened (preimageAt t.env.H seed) t.ratePerMb.toNat := Function.update_self _ _ _
  have hpayer : PayerAt t (C.enter t σ (C.top + 1) charge deltaBytes
        (Function.update C.chains (C.top + 1)
          (ChainEpoch.opened (preimageAt t.env.H seed) t.ratePerMb.toNat)))
      ((l.issue deltaBytes t.ratePerMb.toNat action
        (preimageAt t.env.H seed)).1.chainRoot.toList ++ roots)
      (l.issue deltaBytes t.ratePerMb.toNat action (preimageAt t.env.H seed)).1 := by
    constructor
    · exact h.ordered.enter henters
    · rfl
    · exact hnext
    · change Cumulative.zero = ⟨C.journal.ticks (C.top + 1) * _, C.journal.ticks (C.top + 1) * _⟩
      rw [hticks, Nat.zero_mul, Nat.zero_mul]
      rfl
    · rw [hepoch]
      change _ = if C.top + 1 = 0 then none else some (Function.update C.chains (C.top + 1) _ _)
      rw [if_neg (Nat.succ_ne_zero _)]
      exact congrArg some hnew.symm
    · intro k hk
      change (Function.update C.chains (C.top + 1) _ k).released = C.journal.ticks k
      rcases Nat.lt_or_ge C.top k with hlt | hle
      · have heq : k = C.top + 1 := le_antisymm hk hlt
        rw [heq, hnew, hticks]
        rfl
      · rw [hold k hle]
        exact h.released k hle
    · exact (hold 0 (Nat.zero_le _)).trans h.sealed
    · intro k hpos hk
      change (Function.update C.chains (C.top + 1) _ k).chunkPrice = _
      rcases Nat.lt_or_ge C.top k with hlt | hle
      · have heq : k = C.top + 1 := le_antisymm hk hlt
        rw [heq, hnew]
        rfl
      · rw [hold k hle]
        exact h.price k hpos hle
    · intro k hpos hk
      change ∃ seed, (Function.update C.chains (C.top + 1) _ k).preimages = _
      rcases Nat.lt_or_ge C.top k with hlt | hle
      · have heq : k = C.top + 1 := le_antisymm hk hlt
        rw [heq, hnew]
        exact ⟨seed, rfl⟩
      · rw [hold k hle]
        exact h.ladder k hpos hle
    · exact h.ticks_le
    · intro k hk
      change (Function.update C.chains (C.top + 1) _ k).root ∈ _
      rw [hchainRoot]
      rcases Nat.lt_or_ge C.top k with hlt | hle
      · have heq : k = C.top + 1 := le_antisymm hk hlt
        rw [heq, hnew, opened_root]
        exact List.mem_cons_self
      · rw [hold k hle]
        exact List.mem_cons_of_mem _ (h.drawn k hle)
    · -- The new root has not been drawn before.
      intro j k hj hk hroot
      change (Function.update C.chains (C.top + 1) _ j).root =
        (Function.update C.chains (C.top + 1) _ k).root at hroot
      rcases Nat.lt_or_ge C.top j with hjlt | hjle
      · have hjeq : j = C.top + 1 := le_antisymm hj hjlt
        rcases Nat.lt_or_ge C.top k with hklt | hkle
        · have hkeq : k = C.top + 1 := le_antisymm hk hklt
          omega
        · rw [hjeq, hnew, hold k hkle] at hroot
          have hdrawn := h.drawn k hkle
          rw [← hroot, opened_root] at hdrawn
          exact absurd hdrawn hfresh
      · rcases Nat.lt_or_ge C.top k with hklt | hkle
        · have hkeq : k = C.top + 1 := le_antisymm hk hklt
          rw [hkeq, hnew, hold j hjle] at hroot
          have hdrawn := h.drawn j hjle
          rw [hroot, opened_root] at hdrawn
          exact absurd hdrawn hfresh
        · rw [hold j hjle, hold k hkle] at hroot
          exact h.distinct j k hjle hkle hroot
    · exact front_le hnext hticks hcap
    · intro e he
      rcases List.mem_cons.mp he with rfl | hmem
      · exact hbytes
      · exact h.bytes_le e hmem
  refine ⟨henters, hpayer, ⟨rfl, Nat.le_succ _, ?_, ?_⟩, ⟨hfits, hnext, hpayer.ofSlot⟩⟩
  · intro k hk
    exact congrArg ChainEpoch.preimages (hold k hk)
  · intro k hk
    exact congrArg ChainEpoch.chunkPrice (hold k hk)

/-- A voucher the ledger issues enters the journal, unless it rolls a chain that
has released nothing. -/
theorem PayerAt.issue [DecidableEq ι] (h : PayerAt t C roots l) (σ : ι)
    (hsmall : deltaBytes < chunkBytes)
    (hfits : (l.issue deltaBytes t.ratePerMb.toNat action (preimageAt t.env.H seed)).2.fitsWire =
      true)
    (hcap : (l.issue deltaBytes t.ratePerMb.toNat action
      (preimageAt t.env.H seed)).1.pipeline.owed.amount ≤ t.lane.cap)
    (hfresh : rootFromSeed t.env.H seed ∉ roots)
    (hfolds : action = .roll → l.pipeline.accrued.amount ≠ 0) :
    ∃ epoch charge chains, Entered t C roots
      (l.issue deltaBytes t.ratePerMb.toNat action (preimageAt t.env.H seed)).1
      (l.issue deltaBytes t.ratePerMb.toNat action (preimageAt t.env.H seed)).2 σ epoch charge
      deltaBytes chains := by
  rcases l.issueArm_cases deltaBytes t.ratePerMb.toNat action (preimageAt t.env.H seed) with
    ⟨hzero, hkept, -⟩ | ⟨hopened, -⟩
  · exact ⟨_, _, _, h.issue_kept σ hsmall hfits rfl hcap hzero hkept⟩
  · have hticks : 0 < C.top → 0 < C.journal.ticks C.top := by
      intro htop
      apply Nat.pos_of_ne_zero
      intro hnone
      -- With nothing accrued the live chain is kept, so its root would be the new one.
      have hlive : l.epoch = some (C.chains C.top) := by
        rw [h.epoch, if_neg (Nat.pos_iff_ne_zero.mp htop)]
      have haccrued : l.pipeline.accrued.amount = 0 ∧ l.pipeline.accrued.bytes = 0 := by
        rw [h.accrued, hnone]
        exact ⟨Nat.zero_mul _, Nat.zero_mul _⟩
      have hkept : (l.issueArm deltaBytes t.ratePerMb.toNat action
          (preimageAt t.env.H seed)).1.epoch = l.epoch := by
        unfold PoolLedger.issueArm PoolLedger.issueAction
        rw [if_pos haccrued]
        cases action with
        | keep => rfl
        | opened =>
          unfold PoolLedger.commitEpoch
          rw [hlive]
        | roll => exact absurd haccrued.1 (hfolds rfl)
      rw [hopened, hlive, Option.some.injEq] at hkept
      have hdrawn := h.drawn C.top le_rfl
      rw [← hkept, opened_root] at hdrawn
      exact hfresh hdrawn
    exact ⟨_, _, _, h.issue_rolled σ hsmall hfits rfl hcap hfresh hticks hopened⟩

end Issue

/-! ## Reveals -/

/-- The newest epoch sells one more tick, and the stream's queue takes it. -/
def Chronicle.tick [DecidableEq ι] (t : Terms ι) (C : Chronicle ι) (σ : ι) : Chronicle ι where
  journal := C.journal.tick
  chains := Function.update C.chains C.top
    { C.chains C.top with released := C.journal.ticks C.top + 1 }
  position := C.position
  items := Function.update C.items σ
    (C.items σ ++ [(.tick C.top (C.journal.ticks C.top + 1), t.tariff.unit)])

section Reveal

variable [DecidableEq ι]

/-- A tick changes no ladder. -/
theorem Chronicle.tick_preimages (C : Chronicle ι) (σ : ι) (k : Nat) :
    ((C.tick t σ).chains k).preimages = (C.chains k).preimages := by
  unfold Chronicle.tick
  dsimp only
  by_cases hk : k = C.top
  · rw [hk, Function.update_self]
  · rw [Function.update_of_ne hk]

/-- A tick changes no price. -/
theorem Chronicle.tick_chunkPrice (C : Chronicle ι) (σ : ι) (k : Nat) :
    ((C.tick t σ).chains k).chunkPrice = (C.chains k).chunkPrice := by
  unfold Chronicle.tick
  dsimp only
  by_cases hk : k = C.top
  · rw [hk, Function.update_self]
  · rw [Function.update_of_ne hk]

/-- So it extends the chronicle. -/
theorem Chronicle.extends_tick (C : Chronicle ι) (σ : ι) : C.Extends (C.tick t σ) :=
  ⟨rfl, le_rfl, fun k _ => C.tick_preimages σ k, fun k _ => C.tick_chunkPrice σ k⟩

/-- A reveal ticks the journal: it is the next index of the live chain. -/
theorem PayerAt.meterAdvance (h : PayerAt t C roots l) (σ : ι) {anchored : Option Bytes32}
    {released : Released} {chunkPrice : Nat}
    (hread : l.meterRead anchored = .released released chunkPrice)
    (hcap : (l.meterAdvance released chunkPrice).pipeline.owed.amount ≤ t.lane.cap) :
    0 < C.top ∧ anchored = some (C.chains C.top).root ∧
      released.index = C.journal.ticks C.top + 1 ∧
      released.preimage = (C.chains C.top).preimages (C.journal.ticks C.top + 1) ∧
      PayerAt t (C.tick t σ) ((l.meterAdvance released chunkPrice).chainRoot.toList ++ roots)
        (l.meterAdvance released chunkPrice) := by
  rcases PoolLedger.meterRead_released hread with
    ⟨live, hlive, hanchored, hlength, hreleased, hprice⟩
  have htop : 0 < C.top := by
    apply Nat.pos_of_ne_zero
    intro hzero
    rw [h.epoch, if_pos hzero] at hlive
    cases hlive
  have hchain : live = C.chains C.top := by
    rw [h.epoch, if_neg (Nat.pos_iff_ne_zero.mp htop)] at hlive
    exact (Option.some.inj hlive).symm
  subst hchain
  rw [h.released C.top le_rfl] at hlength hreleased
  rw [h.price C.top htop le_rfl] at hprice
  have hindex : released.index = C.journal.ticks C.top + 1 := by rw [hreleased]
  have hrate := toNat_le_u64Max t.ratePerMb
  have hclaim := h.position_le C.journal.front_in
  have hcapLe := t.cap_le
  have hscaled : C.journal.ticks C.top * t.ratePerMb.toNat + t.ratePerMb.toNat =
      (C.journal.ticks C.top + 1) * t.ratePerMb.toNat := (Nat.succ_mul _ _).symm
  have hsmall : (C.journal.ticks C.top + 1) * t.ratePerMb.toNat ≤ maxChainLength * u64Max :=
    Nat.mul_le_mul hlength hrate
  unfold maxChainLength at hlength hsmall
  unfold u64Max at hsmall hcapLe
  have haccrued : (l.meterAdvance released chunkPrice).pipeline.accrued =
      ⟨(C.journal.ticks C.top + 1) * chunkBytes,
        (C.journal.ticks C.top + 1) * t.ratePerMb.toNat⟩ := by
    simp only [PoolLedger.meterAdvance, h.accrued, hprice]
    have hbytesSmall : C.journal.ticks C.top * chunkBytes + chunkBytes < U256.modulus := by
      unfold U256.modulus chunkBytes
      omega
    have hamountSmall : C.journal.ticks C.top * t.ratePerMb.toNat + t.ratePerMb.toNat <
        U256.modulus := by
      unfold U256.modulus
      omega
    rw [U256.saturatingAdd_eq hbytesSmall, U256.saturatingAdd_eq hamountSmall, hscaled,
      ← Nat.succ_mul]
  have hfront : C.journal.last.amount + (C.journal.ticks C.top + 1) * t.ratePerMb.toNat ≤
      t.lane.cap := by
    have hlast : C.journal.last.amount ≤ t.lane.cap := by
      have hle := hclaim.1
      simp only [Journal.front] at hle
      omega
    have howed : (l.meterAdvance released chunkPrice).pipeline.owed.amount =
        U256.saturatingAdd C.journal.last.amount
          ((C.journal.ticks C.top + 1) * t.ratePerMb.toNat) := by
      simp only [Pipeline.owed, Cumulative.plus, haccrued]
      simp only [PoolLedger.meterAdvance, h.committed]
    rw [howed] at hcap
    unfold U256.saturatingAdd U256.modulus at hcap
    omega
  refine ⟨htop, hanchored, hindex, by rw [hreleased], ?_⟩
  have hticks : C.journal.tick.ticks C.top = C.journal.ticks C.top + 1 :=
    Function.update_self _ _ _
  have hroot : ∀ k, ((C.tick t σ).chains k).root = (C.chains k).root := fun k => by
    unfold ChainEpoch.root
    rw [C.tick_preimages σ k]
  constructor
  · exact h.ordered.tick htop
  · exact h.armed
  · exact h.committed
  · rw [haccrued]
    change _ = (⟨C.journal.tick.ticks C.top * _, C.journal.tick.ticks C.top * _⟩ : Cumulative)
    rw [hticks]
  · have hepoch : (l.meterAdvance released chunkPrice).epoch =
        l.epoch.map fun live => { live with released := released.index } := rfl
    change _ = if C.top = 0 then none else some (Function.update C.chains C.top _ C.top)
    rw [hepoch, h.epoch, if_neg (Nat.pos_iff_ne_zero.mp htop),
      if_neg (Nat.pos_iff_ne_zero.mp htop), Function.update_self, hindex]
    rfl
  · intro k hk
    change (Function.update C.chains C.top _ k).released = Function.update C.journal.ticks C.top _ k
    by_cases heq : k = C.top
    · rw [heq, Function.update_self, Function.update_self]
      rfl
    · rw [Function.update_of_ne heq, Function.update_of_ne heq]
      exact h.released k hk
  · change Function.update C.chains C.top _ 0 = sealedEpoch
    rw [Function.update_of_ne (Nat.ne_of_lt htop)]
    exact h.sealed
  · intro k hpos hk
    rw [C.tick_chunkPrice]
    exact h.price k hpos hk
  · intro k hpos hk
    rw [C.tick_preimages]
    exact h.ladder k hpos hk
  · intro k
    change Function.update C.journal.ticks C.top _ k ≤ maxChainLength
    by_cases heq : k = C.top
    · rw [heq, Function.update_self]
      exact hlength
    · rw [Function.update_of_ne heq]
      exact h.ticks_le k
  · intro k hk
    rw [hroot]
    exact List.mem_append_right _ (h.drawn k hk)
  · intro j k hj hk heq
    rw [hroot, hroot] at heq
    exact h.distinct j k hj hk heq
  · change C.journal.last.amount + C.journal.tick.ticks C.top * t.ratePerMb.toNat ≤ t.lane.cap
    rw [hticks]
    exact hfront
  · exact h.bytes_le

end Reveal

/-! ## Streams -/

variable {expected : Nat} {stream : Stream} {items : List (Item × Nat)}

/-- A stream that sends nothing stands as it stood. -/
theorem StreamAt.extend (h : StreamAt t C expected stream items) (hpayer : PayerAt t C roots l)
    (hreached : C.position.In C.journal) (hitems : ∀ m ∈ items, m.1.In C.journal)
    (hext : C.Extends C') : StreamAt t C' expected stream items := by
  rcases h.anchored with ⟨k, k', hk, hk', hanchor, hfollows, hroot⟩
  have hkTop : k ≤ C.top := le_trans hk (hpayer.epoch_le hreached.entry_mem)
  have hall : ∀ {queue : List Sent} {ms : List (Item × Nat)}, List.Forall₂ (Matches C) queue ms →
      (∀ m ∈ ms, m.1.In C.journal) → List.Forall₂ (Matches C') queue ms := by
    intro queue ms hforall hms
    induction hforall with
    | nil => exact .nil
    | cons hmatch _ ih =>
      rcases List.forall_mem_cons.mp hms with ⟨hfirst, hrest⟩
      exact .cons (hmatch.extend hext hfirst (fun _ he => hpayer.epoch_le he) le_rfl) (ih hrest)
  have hsent : List.Forall₂ (Matches C') stream.queue items := hall h.sent hitems
  refine ⟨h.serving, h.unproved_le, h.verified_le, h.delivered_le, h.unvouchered_lt, h.complete,
    h.busy, hsent, h.line, k, k', ?_, le_trans hk' hext.top_le, ?_, hfollows, ?_⟩
  · rw [hext.position]
    exact hk
  · rw [hext.root hkTop]
    exact hanchor
  · intro root hsome
    rw [hext.root hk']
    exact hroot root hsome

/-- What a stream that sends a proof is to keep. -/
structure Sends (t : Terms ι) (C : Chronicle ι) (expected : Nat) (stream : Stream)
    (items : List (Item × Nat)) (meter : StreamMeter) (sent : Sent) (m : Item × Nat) : Prop where
  unproved_le : meter.unproved ≤ stream.meter.unproved
  complete : meter.complete = stream.meter.complete
  busy : meter.pc ≠ .idle → chunkBytes ≤ meter.unproved
  carries : Matches C sent m
  line : Line expected stream.verified (stream.verified - stream.meter.unproved) [sent]
    (stream.verified - meter.unproved)
  anchored : ∀ k k', Follows k items k' → k' ≤ C.top →
    (∀ root, stream.meter.anchoredRoot = some root → root = (C.chains k').root) →
    ∃ k'' ≤ C.top, Follows k (items ++ [m]) k'' ∧
      ∀ root, meter.anchoredRoot = some root → root = (C.chains k'').root

/-- A stream that sends a proof. -/
theorem StreamAt.send {meter : StreamMeter} {sent : Sent} {m : Item × Nat}
    (h : StreamAt t C expected stream items)
    (hsends : Sends t C expected stream items meter sent m) :
    StreamAt t C expected { stream with meter := meter, queue := stream.queue ++ [sent] }
      (items ++ [m]) := by
  rcases h.anchored with ⟨k, k', hk, hk', hanchor, hfollows, hroot⟩
  rcases hsends.anchored k k' hfollows hk' hroot with ⟨k'', hk'', hfollows', hroot'⟩
  rcases h.line with ⟨x, hcut, hline⟩
  constructor
  · exact h.serving
  · exact le_trans hsends.unproved_le h.unproved_le
  · exact h.verified_le
  · exact h.delivered_le
  · exact h.unvouchered_lt
  · intro hdone
    exact h.complete (hsends.complete.symm.trans hdone)
  · exact hsends.busy
  · exact List.rel_append h.sent (.cons hsends.carries .nil)
  · exact ⟨x, hcut, hline.append hsends.line⟩
  · exact ⟨k, k'', hk, hk'', hanchor, hfollows', hroot'⟩

/-! ## One step of `pay` -/

/-- More roots drawn change nothing. -/
theorem PayerAt.mono (h : PayerAt t C roots l) (more : List Bytes32) :
    PayerAt t C (more ++ roots) l :=
  { h with drawn := fun k hk => List.mem_append_right _ (h.drawn k hk) }

/-- A voucher that opens or rolls leaves a live chain. -/
theorem issue_isSome {deltaBytes ratePerMb : Nat} {action : EpochAction} {p : Nat → Bytes32}
    (l : PoolLedger) (haction : action = .opened ∨ action = .roll) :
    (l.issue deltaBytes ratePerMb action p).1.epoch.isSome = true := by
  have hissue : (l.issueAction action) = .opened ∨ (l.issueAction action) = .roll := by
    unfold PoolLedger.issueAction
    split
    · exact haction
    · exact .inr rfl
  change (l.commitEpoch (l.issueAction action) ratePerMb p).epoch.isSome = true
  rcases hissue with hopen | hroll
  · rw [hopen]
    unfold PoolLedger.commitEpoch
    cases hepoch : l.epoch with
    | none => rfl
    | some live => simp only [Option.isSome_some]
  · rw [hroll]
    rfl

/-- A voucher under a live chain carries its root. -/
theorem Entered.root_ne_zero [DecidableEq ι] {l' : PoolLedger} {v : Issue} {σ : ι}
    {epoch charge quantity : Nat} {chains : Nat → ChainEpoch}
    (h : Entered t C roots l' v σ epoch charge quantity chains)
    (hlive : l'.epoch.isSome = true) : v.commit.chainRoot ≠ 0 := by
  intro hzero
  rw [h.carried.commit] at hzero
  have htop := (h.payer.root_eq_zero le_rfl).mp hzero
  rw [h.payer.epoch, if_pos htop] at hlive
  cases hlive

/-- The newest entry again, on a stream that does not carry it. -/
def Chronicle.resend [DecidableEq ι] (C : Chronicle ι) (σ : ι) : Chronicle ι :=
  { C with items := Function.update C.items σ (C.items σ ++ [(.entry C.journal.last, 0)]) }

/-- It adds nothing to the chronicle. -/
theorem Chronicle.extends_resend [DecidableEq ι] (C : Chronicle ι) (σ : ι) :
    C.Extends (C.resend σ) :=
  ⟨rfl, le_rfl, fun _ _ => rfl, fun _ _ => rfl⟩

/-- Sending it changes nothing for the ledger. -/
theorem PayerAt.resend [DecidableEq ι] {σ : ι} (h : PayerAt t C roots l) :
    PayerAt t (C.resend σ) roots l :=
  ⟨h.ordered, h.armed, h.committed, h.accrued, h.epoch, h.released, h.sealed, h.price, h.ladder,
    h.ticks_le, h.drawn, h.distinct, h.claim_le, h.bytes_le⟩

/-- Nor for what a voucher carries. -/
theorem Carried.resend [DecidableEq ι] {σ : ι} {v : Issue} {e : Entry} (h : Carried C v e) :
    Carried (C.resend σ) v e :=
  ⟨h.fits, h.next, h.commit⟩

/-- A re-anchor carries the newest entry, under a live chain. -/
theorem PayerAt.reanchor {v : Issue} (h : PayerAt t C roots l) (hv : l.reanchor = some v)
    (hfits : v.fitsWire = true) : Carried C v C.journal.last ∧ v.commit.chainRoot ≠ 0 := by
  unfold PoolLedger.reanchor at hv
  rw [h.epoch] at hv
  split at hv
  · cases hv
  · rename_i htop
    cases hv
    refine ⟨⟨hfits, h.committed, rfl⟩, ?_⟩
    intro hzero
    exact htop ((h.root_eq_zero le_rfl).mp hzero)

/-- A stream that only moves its program counter. -/
theorem StreamAt.quiet {meter : StreamMeter} (h : StreamAt t C expected stream items)
    (hbusy : chunkBytes ≤ stream.meter.unproved ∨ stream.meter.pc ≠ .idle)
    (hunproved : meter.unproved = stream.meter.unproved)
    (hcomplete : meter.complete = stream.meter.complete)
    (hroot : meter.anchoredRoot = stream.meter.anchoredRoot ∨ meter.anchoredRoot = none) :
    StreamAt t C expected { stream with meter := meter } items := by
  rcases h.anchored with ⟨k, k', hk, hk', hanchor, hfollows, hroots⟩
  constructor
  · exact h.serving
  · exact le_trans (le_of_eq hunproved) h.unproved_le
  · exact h.verified_le
  · exact h.delivered_le
  · exact h.unvouchered_lt
  · intro hdone
    exact h.complete (hcomplete.symm.trans hdone)
  · intro _
    rw [hunproved]
    exact hbusy.elim id h.busy
  · exact h.sent
  · rw [hunproved]
    exact h.line
  · refine ⟨k, k', hk, hk', hanchor, hfollows, ?_⟩
    intro root hsome
    rcases hroot with hsame | hnone
    · exact hroots root (hsame.symm.trans hsome)
    · cases hnone.symm.trans hsome

variable [Fintype ι] [DecidableEq ι] {s : LaneSession ι} {σ : ι}

/-- The joint invariant after a stream has sent a proof. -/
theorem Joint.send {roots' : List Bytes32} {l' : PoolLedger} {meter : StreamMeter} {sent : Sent}
    {m : Item × Nat} (h : Joint t s C) (hext : C.Extends C') (hpayer : PayerAt t C' roots' l')
    (hreached : C.position.In C'.journal)
    (hitems : C'.items = Function.update C.items σ (C.items σ ++ [m]))
    (hconserved : Conserved t.tariff C'.journal C.position s.lane.paidCredited C'.items)
    (hsends : Sends t C' (t.expected σ) (s.streams σ) (C.items σ) meter sent m) :
    Joint t { s with
      ledger := l'
      streams := Function.update s.streams σ
        { s.streams σ with meter := meter, queue := (s.streams σ).queue ++ [sent] }
      roots := roots' } C' := by
  have hstreams : ∀ σ', StreamAt t C' (t.expected σ') (s.streams σ') (C.items σ') := fun σ' =>
    (h.streams σ').extend h.payer h.reached (h.conserved.known σ') hext
  constructor
  · exact hpayer
  · rw [hext.position]
    exact hreached
  · rw [hext.position]
    exact h.lane.extend hext (h.payer.epoch_le h.reached.entry_mem)
  · rw [hext.position]
    exact hconserved
  · intro σ'
    rw [hitems]
    dsimp only
    rcases eq_or_ne σ' σ with rfl | hne
    · rw [Function.update_self, Function.update_self]
      exact (hstreams σ').send hsends
    · rw [Function.update_of_ne hne, Function.update_of_ne hne]
      exact hstreams σ'

/-- A voucher that enters the journal. -/
theorem Joint.enter {roots' : List Bytes32} {l' : PoolLedger} {meter : StreamMeter} {v : Issue}
    {epoch charge quantity : Nat} {chains : Nat → ChainEpoch} (h : Joint t s C)
    (hentered : Entered t C s.roots l' v σ epoch charge quantity chains)
    (hroots : roots' = l'.chainRoot.toList ++ s.roots)
    (hunproved : meter.unproved ≤ (s.streams σ).meter.unproved)
    (hcomplete : meter.complete = (s.streams σ).meter.complete)
    (hbusy : meter.pc ≠ .idle → chunkBytes ≤ meter.unproved)
    (hroot : meter.anchoredRoot = v.anchorRoot)
    (hline : Line (t.expected σ) (s.streams σ).verified
      ((s.streams σ).verified - (s.streams σ).meter.unproved) [⟨.voucher v, quantity⟩]
      ((s.streams σ).verified - meter.unproved)) :
    ∃ C', Joint t { s with
      ledger := l'
      streams := Function.update s.streams σ
        { s.streams σ with
          meter := meter
          queue := (s.streams σ).queue ++ [⟨.voucher v, quantity⟩] }
      roots := roots' } C' := by
  refine ⟨C.enter t σ epoch charge quantity chains, h.send hentered.extended ?_ ?_ rfl ?_ ?_⟩
  · rw [hroots]
    exact hentered.payer
  · exact ⟨List.mem_cons_of_mem _ h.reached.entry_mem, h.reached.index_le⟩
  · exact h.conserved.enter h.payer.ordered h.reached hentered.enters σ
  · refine ⟨hunproved, hcomplete, hbusy, .voucher hentered.carried, hline, ?_⟩
    intro k k' hfollows _ _
    refine ⟨_, le_rfl, hfollows.entry _, ?_⟩
    intro root hsome
    rw [hroot, PoolLedger.Issue.anchorRoot] at hsome
    split at hsome
    · cases hsome
    · rw [← Option.some.inj hsome, hentered.carried.commit]
      rfl

/-- One step of a stream's `pay` keeps the joint invariant. -/
theorem Joint.pay {s' : LaneSession ι} {seed : Bytes32} (h : Joint t s C)
    (hassumed : t.Assumed s (.pay σ seed)) (hfolds : Terms.Event.Folds s (.pay σ seed))
    (hpay : t.pay s σ seed = some s') : ∃ C', Joint t s' C' := by
  have hstream := h.streams σ
  have hle := hstream.unproved_le
  rcases hassumed with ⟨hfresh, hcaps⟩
  have hcap := hcaps s' hpay
  unfold Terms.pay at hpay
  split at hpay
  · rename_i meter ledger sent hmeter
    cases hpay
    dsimp only at hcap
    cases StreamMeter.pay_cases hmeter with
    | quiet hbusy hunproved hcomplete hroot =>
      refine ⟨C, h.payer.mono _, h.reached, h.lane, h.conserved, ?_⟩
      intro σ'
      dsimp only
      rcases eq_or_ne σ' σ with rfl | hne
      · rw [Function.update_self, Option.toList_none, List.append_nil]
        exact hstream.quiet hbusy hunproved hcomplete hroot
      · rw [Function.update_of_ne hne]
        exact h.streams σ'
    | metering hbusy haction hfits hunproved hcomplete hroot =>
      rename_i action
      have hchunk := hstream.busy hbusy
      rcases h.payer.issue σ (by decide) hfits hcap hfresh
        (fun hroll => hfolds (haction.resolve_left (by simp [hroll])).2) with
        ⟨epoch, charge, chains, hentered⟩
      refine h.enter hentered rfl (le_of_eq hunproved) hcomplete ?_ hroot ?_
      · intro _
        rw [hunproved]
        exact hchunk
      · refine ⟨.inl ⟨rfl, ?_, ?_⟩, ?_⟩
        · exact hentered.root_ne_zero
            (issue_isSome s.ledger (haction.imp_right And.left))
        · omega
        · change _ + 0 = _
          omega
    | reanchored hbusy hv hfits hunproved hcomplete hroot =>
      have hchunk := hstream.busy hbusy
      rcases h.payer.reanchor hv hfits with ⟨hcarried, hrooted⟩
      refine ⟨C.resend σ, h.send (C.extends_resend σ) (h.payer.resend.mono _) h.reached rfl
        (h.conserved.resend σ List.mem_cons_self) ?_⟩
      refine ⟨le_of_eq hunproved, hcomplete, fun _ => ?_, .voucher hcarried.resend, ?_, ?_⟩
      · rw [hunproved]
        exact hchunk
      · refine ⟨.inl ⟨rfl, hrooted, ?_⟩, ?_⟩
        · omega
        · change _ + 0 = _
          omega
      · intro k k' hfollows _ _
        refine ⟨_, le_rfl, hfollows.entry _, ?_⟩
        intro root hsome
        rw [← Option.some.inj (hroot.symm.trans hsome), hcarried.commit]
        rfl
    | revealed hbusy hread hidle hunproved hcomplete hroot =>
      have hchunk := hstream.busy hbusy
      rcases h.payer.meterAdvance σ hread hcap with ⟨htop, hanchored, hindex, hpreimage, hpayer⟩
      refine ⟨C.tick t σ, h.send (C.extends_tick σ) hpayer ?_ rfl
        (h.conserved.tick h.payer.ordered h.reached σ) ?_⟩
      · exact ⟨h.reached.entry_mem, le_trans h.reached.index_le (C.journal.ticks_le_tick _)⟩
      · refine ⟨?_, hcomplete, fun hne => absurd hidle hne, ?_, ⟨rfl, ?_⟩, ?_⟩
        · omega
        · rw [← hindex] at hpreimage ⊢
          refine .reveal (by omega) ?_
          rw [C.tick_preimages]
          exact hpreimage
        · change _ + chunkBytes = _
          omega
        · intro k k' hfollows hk' hroots
          -- The stream carries the live root, so its items end in the newest epoch.
          have hsame := hroots _ hanchored
          have heq : C.top = k' := hpayer.distinct C.top k' le_rfl hk' (by
            rw [← hsame]
            exact congrArg (· 0) (C.tick_preimages σ C.top))
          subst heq
          refine ⟨C.top, le_rfl, hfollows.tick _, ?_⟩
          intro root hsome
          exact hroots root (hroot.symm.trans hsome)
    | residual hsmall hpos hdone hfits hidle hunproved hcomplete hroot =>
      rcases h.payer.issue σ hsmall hfits hcap hfresh nofun with
        ⟨epoch, charge, chains, hentered⟩
      have hfull := hstream.complete hdone
      have hdelivered := hstream.delivered_le
      have hverified := hstream.verified_le
      refine h.enter hentered rfl ?_ hcomplete (fun hne => absurd hidle hne) hroot ?_
      · omega
      · refine ⟨.inr ⟨hpos, hsmall, ?_⟩, ?_⟩
        · omega
        · change _ + _ = _
          omega
  · cases hpay

end Decdn.Session
