import Decdn.Client.Books
import Decdn.Foundations.Runs

/-!
# Settlement of a payer's lane

A pull that ends, by returning or by being dropped, persists the ledger's
settlement, so the settlement must never be below what the node can redeem.  It
falls below in two ways: a reveal released on top of a voucher in doubt is
missing from the armed view, and the voucher in doubt from the accrued one; and
a refused voucher that was signed on top of one in doubt is rewound below it.
In every other run the settlement covers every voucher sent and not refused.

Main results:

- Theorem `SettleInv.step`: one sound step keeps the invariant.
- Theorem `settlement_covers`: the settlement covers every claim over every
  sound run, and every voucher is signed at or above it.
-/

namespace Decdn.Client

open Incentive
open PoolLedger (Issue)

/-! ## Runs of a lane -/

/-- The ledger and what has been put on the wire: vouchers sent and not refused,
and reveals released and not refused.  The rest is proof-only: the vouchers
sent since the anchor one step back and since the committed anchor, and every
root drawn so far. -/
structure PayerRun where
  ledger : PoolLedger
  held : List Issue := []
  revealed : List (Bytes32 × Nat) := []
  sincePrev : List Issue := []
  sinceCommitted : List Issue := []
  roots : List Bytes32 := [0]

/-- A ledger just built. -/
def PayerRun.start (seed : Cumulative) : PayerRun where
  ledger := .new seed

/-- The steps of a lane whose issuance is serialised.  A rejection names a proof
the node refused. -/
inductive PayerEvent where
  | issue (deltaBytes ratePerMb : UInt64) (action : EpochAction) (preimages : Nat → Bytes32)
      (sent : Bool)
  | reanchor
  | meter (anchored : Option Bytes32)
  | confirm (amount : Nat)
  | rejectVoucher (v : Issue) (generation : Nat)
  | rejectReveal (chainRoot : Bytes32) (index : Nat)

/-- What an issued voucher puts on the wire. -/
def PoolLedger.Issue.onWire (v : Issue) : List Issue := if v.fitsWire then [v] else []

/-- A voucher of unknown fate. -/
def PayerRun.armed (s : PayerRun) (armed : PoolLedger × Issue) : PayerRun :=
  { s with
    ledger := armed.1
    held := armed.2.onWire ++ s.held
    sinceCommitted := armed.2.onWire ++ s.sinceCommitted
    roots := armed.2.commit.chainRoot :: s.roots }

/-- The newest voucher is the anchor. -/
def PayerRun.anchored (s : PayerRun) (ledger : PoolLedger) : PayerRun :=
  { s with ledger := ledger, sincePrev := s.sinceCommitted, sinceCommitted := [] }

/-- The node holds no copy of a refused voucher. -/
def PayerRun.refuse (s : PayerRun) (v : Issue) : PayerRun :=
  { s with
    held := s.held.filter (· ≠ v)
    sincePrev := s.sincePrev.filter (· ≠ v)
    sinceCommitted := s.sinceCommitted.filter (· ≠ v) }

/-- One step, if it is enabled. -/
def PayerRun.apply (s : PayerRun) : PayerEvent → Option PayerRun
  | .issue deltaBytes ratePerMb action preimages sent =>
    let armed := s.ledger.issueArm deltaBytes.toNat ratePerMb.toNat action preimages
    if sent then
      if armed.2.fitsWire then
        some ((s.armed armed).anchored (armed.1.issueCommit armed.2))
      else none
    else some (s.armed armed)
  | .reanchor =>
    match s.ledger.reanchor with
    | some v =>
      some { s with held := v.onWire ++ s.held, sincePrev := v.onWire ++ s.sincePrev }
    | none => none
  | .meter anchored =>
    match s.ledger.meterRead anchored with
    | .released released chunkPrice =>
      some { s with
        ledger := s.ledger.meterAdvance released chunkPrice
        revealed := (released.chainRoot, released.index) :: s.revealed }
    | _ => none
  | .confirm amount =>
    match s.ledger.confirmArmedStamped amount with
    | some ledger => some (s.anchored ledger)
    | none => some s
  | .rejectVoucher v generation =>
    if v ∈ s.held then
      let ledger := (s.ledger.resolveReject (.voucher v.next.amount generation)).1
      let refused := s.refuse v
      if s.ledger.rewinds (.voucher v.next.amount generation) then
        some { refused with
          ledger := ledger
          sincePrev := []
          sinceCommitted := refused.sincePrev ++ refused.sinceCommitted }
      else some { refused with ledger := ledger }
    else none
  | .rejectReveal chainRoot index =>
    if (chainRoot, index) ∈ s.revealed then
      some { s with
        ledger := (s.ledger.resolveReject (.reveal chainRoot index)).1
        revealed := s.revealed.filter (· ≠ (chainRoot, index)) }
    else none

/-- One enabled step. -/
def PayerRun.step (s : PayerRun) (e : PayerEvent) (s' : PayerRun) : Prop :=
  s.apply e = some s'

/-- The deepest reveal of a chain that was released and not refused. -/
def PayerRun.deepest (s : PayerRun) (root : Bytes32) : Nat :=
  ((s.revealed.filter (·.1 = root)).map Prod.snd).foldr max 0

/-! ## Sound steps -/

/-- Every chain draws its own secret, so its root is new. -/
def PayerEvent.Fresh (s : PayerRun) : PayerEvent → Prop
  | .issue _ _ _ preimages _ => preimages 0 ∉ s.roots
  | _ => True

instance (s : PayerRun) (e : PayerEvent) : Decidable (e.Fresh s) :=
  match e with
  | .issue _ _ _ preimages _ => inferInstanceAs (Decidable (preimages 0 ∉ s.roots))
  | .reanchor | .meter _ | .confirm _ | .rejectVoucher _ _ | .rejectReveal _ _ => isTrue trivial

/-- No reveal is released while a voucher in doubt claims more than the anchor
and the accrual, and a voucher is rewound or disarmed only when it is the one
refused and every other voucher sent since the anchor this goes back to has been
refused too. -/
def PayerEvent.Sound (s : PayerRun) : PayerEvent → Prop
  | .meter _ => ∀ armed, s.ledger.pipeline.armed = some armed →
      armed.voucher.amount ≤ s.ledger.pipeline.owed.amount
  | .rejectVoucher v generation =>
    (s.ledger.rewinds (.voucher v.next.amount generation) = true →
      s.ledger.pipeline.armed = none ∧
        ∀ u ∈ s.held, u ∈ s.sincePrev ∨ u ∈ s.sinceCommitted → u = v) ∧
    (s.ledger.rewinds (.voucher v.next.amount generation) = false →
      ∀ armed, s.ledger.pipeline.armed = some armed → armed.voucher.amount = v.next.amount →
        ∀ u ∈ s.held, u ∈ s.sinceCommitted → u = v)
  | _ => True

/-! ## The invariant -/

variable {s s' : PayerRun}

/-- The books of a run. -/
def PayerRun.books (s : PayerRun) : Books where
  held := s.held
  since := s.sinceCommitted
  revealed := s.revealed
  committed := s.ledger.pipeline.committed.amount
  accrued := s.ledger.pipeline.accrued.amount
  armed := s.ledger.pipeline.armed.map fun a => (a.voucher.amount, a.folded.amount)
  chain := s.ledger.epoch

/-- The books without the last reveal. -/
def Books.takeBack (b : Books) (root : Bytes32) (index price : Nat) : Books :=
  { b with
    revealed := b.revealed.filter (· ≠ (root, index))
    accrued := b.accrued - price
    chain := b.chain.map fun live =>
      if live.root = root then { live with released := live.released - 1 } else live }

/-- The books once the last voucher is un-committed and every voucher sent since
the anchor before it is refused. -/
def PayerRun.undoneBooks (s : PayerRun) (prev : Cumulative) : Books where
  held := s.held.filter fun v => v ∉ s.sincePrev ∧ v ∉ s.sinceCommitted
  since := []
  revealed := s.revealed
  committed := prev.amount
  accrued := U256.saturatingAdd s.ledger.pipeline.accrued.amount
    s.ledger.pipeline.prevAccrued.amount
  armed := none
  chain := s.ledger.epoch

/-- A displaced chain that may come back under the given anchor: the accrual
pays for it, and so do the vouchers that stay. -/
structure Restorable (s : PayerRun) (c : ChainEpoch) (stays : Issue → Prop)
    (anchor accrued : Nat) : Prop where
  ok : s.books.ChainOk c
  accrual : anchor ≤ u64Max → c.released * c.chunkPrice ≤ accrued
  held : ∀ v ∈ s.held, stays v → v.commit.chainRoot = c.root →
    v.next.amount + c.released * c.chunkPrice ≤ anchor + accrued

/-- Every root in use has been drawn. -/
structure Drawn (s : PayerRun) : Prop where
  zero : 0 ∈ s.roots
  held : ∀ v ∈ s.held, v.commit.chainRoot ∈ s.roots
  revealed : ∀ root i, (root, i) ∈ s.revealed → root ∈ s.roots
  live : ∀ e, s.ledger.epoch = some e → e.root ∈ s.roots
  retired : ∀ c, s.ledger.retired = .replaced (some c) → c.root ∈ s.roots
  distinct : ∀ e c, s.ledger.epoch = some e → s.ledger.retired = .replaced (some c) →
    e.root ≠ c.root

/-- The invariant of sound runs: the books balance, now and after the last proof
is undone. -/
structure SettleInv (s : PayerRun) : Prop where
  balanced : Balanced s.books
  reveal : ∀ root index price, s.ledger.pipeline.lastProof = some (.reveal root index price) →
    0 < s.ledger.pipeline.accrued.bytes ∧ Balanced (s.books.takeBack root index price)
  voucher : ∀ amount prev, s.ledger.pipeline.lastProof = some (.voucher amount) →
    s.ledger.pipeline.prev = some prev → Balanced (s.undoneBooks prev) ∧
      ∀ c, s.ledger.retired = .replaced (some c) →
        Restorable s c (fun v => v ∉ s.sincePrev ∧ v ∉ s.sinceCommitted) prev.amount
          (s.undoneBooks prev).accrued
  armed : ∀ a, s.ledger.pipeline.armed = some a → a.voucher.amount < U256.modulus ∧
    ∀ c, s.ledger.retired = .replaced (some c) →
      Restorable s c (fun v => v ∉ s.sinceCommitted) s.ledger.pipeline.committed.amount
        a.folded.amount
  drawn : Drawn s

/-! ## Settlement amounts -/

/-- The settlement is the larger of the committed claim and the voucher in
doubt. -/
theorem settlement_amount (s : PayerRun) :
    s.ledger.settlement.amount =
      max (U256.saturatingAdd s.books.committed s.books.accrued) s.books.armedAmount := by
  unfold PoolLedger.settlement Pipeline.settlement
  cases harmed : s.ledger.pipeline.armed with
  | none =>
    simp only [PayerRun.books, Books.armedAmount, harmed, Option.map_none, Option.getD_none]
    exact (Nat.max_eq_left (Nat.zero_le _)).symm
  | some armed =>
    simp only [PayerRun.books, Books.armedAmount, harmed, Option.map_some, Option.getD_some]
    split
    · rename_i hlt
      exact (Nat.max_eq_right (Nat.le_of_lt hlt)).symm
    · rename_i hlt
      exact (Nat.max_eq_left (Nat.le_of_not_lt hlt)).symm

/-- A claim below the books is below the settlement. -/
theorem le_settlement {x : Nat} (hx : x ≤ 2 ^ 73)
    (h : x ≤ max (s.books.committed + s.books.accrued) s.books.armedAmount) :
    x ≤ s.ledger.settlement.amount := by
  rw [settlement_amount]
  unfold U256.saturatingAdd U256.modulus
  omega

/-- The settlement is a word. -/
theorem SettleInv.settlement_lt (h : SettleInv s) :
    s.ledger.settlement.amount < U256.modulus := by
  rw [settlement_amount]
  apply max_lt (U256.saturatingAdd_lt _ _)
  cases harmed : s.ledger.pipeline.armed with
  | none =>
    simp [PayerRun.books, Books.armedAmount, harmed, U256.modulus]
  | some armed =>
    simpa [PayerRun.books, Books.armedAmount, harmed] using (h.armed armed harmed).1

/-- A voucher signed on a settlement is a word at or above it. -/
theorem le_nextVoucher {cur : Cumulative} (hcur : cur.amount < U256.modulus)
    (deltaBytes ratePerMb : Nat) :
    cur.amount ≤ (nextVoucher cur deltaBytes ratePerMb).amount ∧
      (nextVoucher cur deltaBytes ratePerMb).amount < U256.modulus := by
  refine ⟨?_, U256.saturatingAdd_lt _ _⟩
  unfold nextVoucher
  dsimp only
  rw [U256.le_saturatingAdd_iff hcur]
  exact Nat.le_add_right _ _

/-! ## Refusals without effect -/

/-- A displaced chain stays restorable when nothing is added under its root. -/
theorem Restorable.mono {c : ChainEpoch} {stays stays' : Issue → Prop} {anchor accrued : Nat}
    (h : Restorable s c stays anchor accrued)
    (hheld : ∀ v ∈ s'.held, v.commit.chainRoot = c.root → v ∈ s.held)
    (hrevealed : ∀ r ∈ s'.revealed, r.1 = c.root → r ∈ s.revealed)
    (hstays : ∀ v ∈ s'.held, v.commit.chainRoot = c.root → stays' v → stays v) :
    Restorable s' c stays' anchor accrued where
  ok := ⟨h.ok.price_le, h.ok.released_le, fun i hmem => h.ok.deepest i (hrevealed _ hmem rfl),
    fun v hv hroot => h.ok.price_eq v (hheld v hv hroot) hroot⟩
  accrual := h.accrual
  held v hv hstay hroot := h.held v (hheld v hv hroot) (hstays v hv hroot hstay) hroot

/-- Membership in a list a voucher was removed from. -/
theorem mem_filter_ne {u v : Issue} {vs : List Issue} :
    u ∈ vs.filter (· ≠ v) ↔ u ∈ vs ∧ u ≠ v := by
  simp [List.mem_filter]

/-- Dropping a refused voucher keeps the invariant. -/
theorem SettleInv.refuse (h : SettleInv s) (v : Issue) : SettleInv (s.refuse v) := by
  have hheld : ∀ u ∈ (s.refuse v).held, u ∈ s.held ∧ u ≠ v := fun u hu => mem_filter_ne.mp hu
  -- For the vouchers that stay, the shorter lists say the same.
  have hkeep : ∀ u ∈ (s.refuse v).held, ∀ vs : List Issue, u ∉ vs.filter (· ≠ v) → u ∉ vs :=
    fun u hu vs hnot hmem => hnot (mem_filter_ne.mpr ⟨hmem, (hheld u hu).2⟩)
  constructor
  · exact (h.balanced.drop fun u hu => (hheld u hu).1).since
      fun u hu hmem => mem_filter_ne.mpr ⟨hmem, (hheld u hu).2⟩
  · intro root index price hlast
    rcases h.reveal root index price hlast with ⟨hbytes, hback⟩
    refine ⟨hbytes, (hback.drop fun u hu => (hheld u hu).1).since ?_⟩
    exact fun u hu hmem => mem_filter_ne.mpr ⟨hmem, (hheld u hu).2⟩
  · intro amount prev hlast hprev
    rcases h.voucher amount prev hlast hprev with ⟨hundone, hretired⟩
    constructor
    · apply hundone.drop
      intro u hu
      rcases List.mem_filter.mp hu with ⟨hmem, hnot⟩
      simp only [decide_eq_true_eq] at hnot
      refine List.mem_filter.mpr ⟨(hheld u hmem).1, ?_⟩
      simp only [decide_eq_true_eq]
      exact ⟨hkeep u hmem _ hnot.1, hkeep u hmem _ hnot.2⟩
    · intro c hc
      exact (hretired c hc).mono (fun u hu _ => (hheld u hu).1) (fun _ hr _ => hr)
        fun u hu _ hnot => ⟨hkeep u hu _ hnot.1, hkeep u hu _ hnot.2⟩
  · intro a ha
    refine ⟨(h.armed a ha).1, fun c hc => ?_⟩
    exact ((h.armed a ha).2 c hc).mono (fun u hu _ => (hheld u hu).1) (fun _ hr _ => hr)
      fun u hu _ hnot => hkeep u hu _ hnot
  · exact ⟨h.drawn.zero, fun u hu => h.drawn.held u (hheld u hu).1, h.drawn.revealed, h.drawn.live,
      h.drawn.retired, h.drawn.distinct⟩

/-- Dropping a refused reveal keeps the invariant. -/
theorem SettleInv.unreveal {revealed : List (Bytes32 × Nat)} (h : SettleInv s)
    (hsub : ∀ r ∈ revealed, r ∈ s.revealed) : SettleInv { s with revealed := revealed } := by
  constructor
  · exact h.balanced.unreveal hsub
  · intro root index price hlast
    rcases h.reveal root index price hlast with ⟨hbytes, hback⟩
    refine ⟨hbytes, hback.unreveal ?_⟩
    intro r hr
    rcases List.mem_filter.mp hr with ⟨hmem, hne⟩
    exact List.mem_filter.mpr ⟨hsub r hmem, hne⟩
  · intro amount prev hlast hprev
    rcases h.voucher amount prev hlast hprev with ⟨hundone, hretired⟩
    exact ⟨hundone.unreveal hsub,
      fun c hc => (hretired c hc).mono (fun _ hu _ => hu) (fun r hr _ => hsub r hr) fun _ _ _ hnot => hnot⟩
  · intro a ha
    exact ⟨(h.armed a ha).1, fun c hc =>
      ((h.armed a ha).2 c hc).mono (fun _ hu _ => hu) (fun r hr _ => hsub r hr)
        fun _ _ _ hnot => hnot⟩
  · exact ⟨h.drawn.zero, h.drawn.held, fun root i hmem => h.drawn.revealed root i (hsub _ hmem),
      h.drawn.live, h.drawn.retired, h.drawn.distinct⟩

/-! ## Refusals that rewind -/

/-- Disarming the voucher in doubt, when every voucher sent since the anchor is
refused. -/
theorem SettleInv.disarm (h : SettleInv s) (hnone : ∀ v ∈ s.held, v ∉ s.sinceCommitted) :
    SettleInv { s with
      ledger := { s.ledger with pipeline := { s.ledger.pipeline with armed := none } } } := by
  constructor
  · exact h.balanced.disarm hnone
  · intro root index price hlast
    rcases h.reveal root index price hlast with ⟨hbytes, hback⟩
    exact ⟨hbytes, hback.disarm hnone⟩
  · intro amount prev hlast hprev
    rcases h.voucher amount prev hlast hprev with ⟨hundone, hretired⟩
    exact ⟨hundone, fun c hc => (hretired c hc).mono (fun _ hu _ => hu) (fun _ hr _ => hr)
      fun _ _ _ hstay => hstay⟩
  · exact nofun
  · exact ⟨h.drawn.zero, h.drawn.held, h.drawn.revealed, h.drawn.live, h.drawn.retired,
      h.drawn.distinct⟩

/-- Forgetting which proof was last. -/
theorem SettleInv.forget (h : SettleInv s) :
    SettleInv { s with
      ledger := { s.ledger with pipeline := { s.ledger.pipeline with lastProof := none } } } := by
  constructor
  · exact h.balanced
  · exact nofun
  · exact nofun
  · intro a ha
    exact ⟨(h.armed a ha).1, fun c hc => ((h.armed a ha).2 c hc).mono (fun _ hu _ => hu)
      (fun _ hr _ => hr) fun _ _ _ hstay => hstay⟩
  · exact ⟨h.drawn.zero, h.drawn.held, h.drawn.revealed, h.drawn.live, h.drawn.retired,
      h.drawn.distinct⟩

/-- Un-committing the last voucher, when every voucher sent since the anchor
before it is refused. -/
theorem SettleInv.rewindVoucher {amount : Nat} {prev : Cumulative} {since : List Issue}
    (h : SettleInv s) (hlast : s.ledger.pipeline.lastProof = some (.voucher amount))
    (hprev : s.ledger.pipeline.prev = some prev) (harmed : s.ledger.pipeline.armed = none)
    (hnone : ∀ v ∈ s.held, v ∉ s.sincePrev ∧ v ∉ s.sinceCommitted) :
    SettleInv { s with
      ledger := s.ledger.rewindVoucher prev, sincePrev := [], sinceCommitted := since } := by
  rcases h.voucher amount prev hlast hprev with ⟨hundone, hretired⟩
  have hheld : (s.undoneBooks prev).held = s.held := by
    apply List.filter_eq_self.mpr
    intro v hv
    simpa using hnone v hv
  -- The displaced chain, if there is one, is restorable under what stays.
  have hrestored : Balanced { s.undoneBooks prev with
      chain := (s.ledger.rewindVoucher prev).epoch } := by
    cases hcase : s.ledger.retired with
    | nothing =>
      simp only [PoolLedger.rewindVoucher, hcase]
      exact hundone
    | replaced chain =>
      simp only [PoolLedger.rewindVoucher, hcase]
      apply hundone.setChain
      · intro c hc
        have hok := (hretired c (hc ▸ hcase)).ok
        exact ⟨hok.price_le, hok.released_le, hok.deepest,
          fun v hv => hok.price_eq v (List.mem_filter.mp hv).1⟩
      · intro c hc
        exact ⟨(hretired c (hc ▸ hcase)).accrual, nofun⟩
      · intro c hc v hv hroot
        have hmem : v ∈ s.held := (List.mem_filter.mp hv).1
        have hle := (hretired c (hc ▸ hcase)).held v hmem (hnone v hmem) hroot
        exact ⟨fun _ => hle, le_trans hle (le_max_left _ _)⟩
  have hbooks : PayerRun.books { s with
      ledger := s.ledger.rewindVoucher prev, sincePrev := [], sinceCommitted := since } =
      { s.undoneBooks prev with
        chain := (s.ledger.rewindVoucher prev).epoch, since := since } := by
    simp only [PayerRun.books, PayerRun.undoneBooks] at hheld ⊢
    rw [hheld]
    simp only [PoolLedger.rewindVoucher, harmed, Option.map_none, Cumulative.plus]
  constructor
  · rw [hbooks]
    exact hrestored.since fun v _ hmem => absurd hmem List.not_mem_nil
  · exact nofun
  · exact nofun
  · intro a ha
    simp [PoolLedger.rewindVoucher, harmed] at ha
  · refine ⟨h.drawn.zero, h.drawn.held, h.drawn.revealed, ?_, nofun, nofun⟩
    intro e he
    simp only [PoolLedger.rewindVoucher] at he
    split at he
    · rename_i chain hcase
      exact h.drawn.retired e (he ▸ hcase)
    · exact h.drawn.live e he

/-- Taking back the last reveal. -/
theorem SettleInv.rewindReveal {root : Bytes32} {index price : Nat} (h : SettleInv s)
    (hlast : s.ledger.pipeline.lastProof = some (.reveal root index price)) :
    SettleInv { s with
      ledger := s.ledger.rewindReveal root price
      revealed := s.revealed.filter (· ≠ (root, index)) } := by
  have hroot : ∀ e, (s.ledger.rewindReveal root price).epoch = some e →
      ∃ live, s.ledger.epoch = some live ∧ e.root = live.root := by
    intro e he
    rcases Option.map_eq_some_iff.mp he with ⟨live, hlive, rfl⟩
    refine ⟨live, hlive, ?_⟩
    split <;> rfl
  have hsub : ∀ r ∈ s.revealed.filter (· ≠ (root, index)), r ∈ s.revealed :=
    fun r hr => (List.mem_filter.mp hr).1
  constructor
  · exact (h.reveal root index price hlast).2
  · exact nofun
  · exact nofun
  · intro a ha
    exact ⟨(h.armed a ha).1, fun c hc => ((h.armed a ha).2 c hc).mono (fun _ hu _ => hu)
      (fun r hr _ => hsub r hr) fun _ _ _ hstay => hstay⟩
  · refine ⟨h.drawn.zero, h.drawn.held, fun r i hmem => h.drawn.revealed r i (hsub _ hmem), ?_,
      h.drawn.retired, ?_⟩
    · intro e he
      rcases hroot e he with ⟨live, hlive, heq⟩
      exact heq ▸ h.drawn.live live hlive
    · intro e c he hc
      rcases hroot e he with ⟨live, hlive, heq⟩
      exact heq ▸ h.drawn.distinct live c hlive hc

/-! ## Issuing -/

/-- A ledger just built satisfies the invariant. -/
theorem SettleInv.start (seed : Cumulative) : SettleInv (.start seed) where
  balanced := ⟨nofun, nofun, nofun, nofun, nofun, nofun, nofun⟩
  reveal := nofun
  voucher := nofun
  armed := nofun
  drawn := ⟨List.mem_singleton_self _, nofun, nofun, nofun, nofun, nofun⟩

/-- What goes on the wire fits it. -/
theorem mem_onWire {u v : Issue} (h : u ∈ v.onWire) : u = v ∧ v.next.amount ≤ u64Max := by
  unfold Issue.onWire at h
  split at h
  · rename_i hfits
    exact ⟨List.mem_singleton.mp h, (of_decide_eq_true hfits).1⟩
  · cases h

section Issuing

variable (deltaBytes : Nat) {ratePerMb : Nat} (action : EpochAction) {preimages : Nat → Bytes32}

/-- The next voucher claims at least what the books hold. -/
theorem SettleInv.le_next (h : SettleInv s) (ratePerMb : Nat) (preimages : Nat → Bytes32) :
    let next := (s.ledger.issueArm deltaBytes ratePerMb action preimages).2.next.amount
    (∀ x, x ≤ 2 ^ 73 → x ≤ max (s.books.committed + s.books.accrued) s.books.armedAmount →
      x ≤ next) ∧
    U256.saturatingAdd s.books.committed s.books.accrued ≤ next := by
  intro next
  have hle : s.ledger.settlement.amount ≤ next :=
    (le_nextVoucher h.settlement_lt deltaBytes ratePerMb).1
  constructor
  · intro x hx hbound
    exact le_trans (le_settlement hx hbound) hle
  · rw [settlement_amount] at hle
    exact le_trans (le_max_left _ _) hle

/-- Books of the run under the chain the next voucher leaves. -/
theorem SettleInv.swapChain {b : Books} (h : SettleInv s) (hb : Balanced b)
    (hfresh : preimages 0 ∉ s.roots) (hrate : ratePerMb ≤ u64Max)
    (hchain : s.ledger.pipeline.accrued = .zero → b.chain = s.ledger.epoch)
    (hheld : ∀ v ∈ b.held, v ∈ s.held) (hrevealed : ∀ r ∈ b.revealed, r ∈ s.revealed) :
    Balanced { b with
      chain := (s.ledger.issueArm deltaBytes ratePerMb action preimages).1.epoch } := by
  rcases s.ledger.issueArm_cases deltaBytes ratePerMb action preimages with
    ⟨hzero, hkept, -⟩ | ⟨hopened, -⟩
  · rw [hkept, ← hchain hzero]
    exact hb
  · rw [hopened]
    apply hb.openChain hrate
    · intro v hv hroot
      exact hfresh (hroot ▸ h.drawn.held v (hheld v hv))
    · intro i hmem
      exact hfresh (h.drawn.revealed _ i (hrevealed _ hmem))

/-- Arming the next voucher over books of the run. -/
theorem SettleInv.armBooks {b : Books} (h : SettleInv s) (hb : Balanced b)
    (hfresh : preimages 0 ∉ s.roots) (hrate : ratePerMb ≤ u64Max)
    (hchain : s.ledger.pipeline.accrued = .zero → b.chain = s.ledger.epoch)
    (hheld : ∀ v ∈ b.held, v ∈ s.held) (hrevealed : ∀ r ∈ b.revealed, r ∈ s.revealed)
    (hcommitted : b.committed = s.books.committed) (haccrued : b.accrued ≤ s.books.accrued)
    (harmed : b.armedAmount = s.books.armedAmount) :
    let armed := s.ledger.issueArm deltaBytes ratePerMb action preimages
    Balanced { b with
      held := armed.2.onWire ++ b.held
      since := armed.2.onWire ++ b.since
      armed := some (armed.2.next.amount, s.books.accrued)
      chain := armed.1.epoch } := by
  intro armed
  have hswapped : Balanced { b with chain := armed.1.epoch } :=
    h.swapChain deltaBytes action hb hfresh hrate hchain hheld hrevealed
  rcases h.le_next deltaBytes action ratePerMb preimages with ⟨hnext, hfolded⟩
  change U256.saturatingAdd _ _ ≤ armed.2.next.amount at hfolded
  apply hswapped.arm
  · intro v hv
    rcases mem_onWire hv with ⟨rfl, hle⟩
    exact ⟨rfl, rfl, hle⟩
  · intro x hx hbound
    apply hnext x hx
    simp only [Books.armedAmount] at harmed hbound ⊢
    omega
  · rw [hcommitted]
    exact hfolded
  · intro e he hle
    have he : armed.1.epoch = some e := he
    rcases s.ledger.issueArm_cases deltaBytes ratePerMb action preimages with
      ⟨hzero, hkept, -⟩ | ⟨hopened, -⟩
    · -- Nothing has accrued, so the chain kept has released nothing it charges for.
      have hlive : b.chain = some e := by
        rw [hchain hzero, ← hkept]
        exact he
      have hpaid := (hb.accrual e hlive).1
      have hnone : s.books.accrued = 0 := by
        simp only [PayerRun.books, hzero, Cumulative.zero]
      unfold U256.saturatingAdd U256.modulus at hfolded
      unfold u64Max at hpaid hle
      omega
    · rw [show armed.1.epoch = _ from hopened] at he
      cases he
      simp [ChainEpoch.opened]

/-- The live chain can be restored after the next voucher displaced it. -/
theorem SettleInv.restorable {e : ChainEpoch} {stays : Issue → Prop} {anchor accrued : Nat}
    (h : SettleInv s) (hfresh : preimages 0 ∉ s.roots) (hlive : s.ledger.epoch = some e)
    (haccrual : anchor ≤ u64Max → e.released * e.chunkPrice ≤ accrued)
    (hbelow : ∀ v ∈ s.held, stays v → s.books.Below v (anchor + accrued)) :
    let armed := s.ledger.issueArm deltaBytes ratePerMb action preimages
    armed.1.epoch = some (ChainEpoch.opened preimages ratePerMb) →
      (∀ v ∈ armed.2.onWire, ¬ stays v) →
      Restorable (s.armed armed) e stays anchor accrued := by
  intro armed hopened hnew
  have hok := h.balanced.chain e hlive
  have hold : ∀ v ∈ (s.armed armed).held, v.commit.chainRoot = e.root → v ∈ s.held := by
    intro v hv hroot
    rcases List.mem_append.mp hv with hsent | hmem
    · -- The new voucher carries the new root.
      rw [(mem_onWire hsent).1, show armed.2.commit = .ofSlot armed.1.epoch from rfl,
        hopened] at hroot
      have hsame : preimages 0 = e.root := hroot
      exact absurd (hsame ▸ h.drawn.live e hlive) hfresh
    · exact hmem
  constructor
  · exact ⟨hok.price_le, hok.released_le, hok.deepest,
      fun v hv hroot => hok.price_eq v (hold v hv hroot) hroot⟩
  · exact haccrual
  · intro v hv hstay hroot
    have hmem := hold v hv hroot
    have hclaim := hbelow v hmem hstay e.released (.inr (.inr ⟨e, hlive, hroot.symm, rfl⟩))
    rwa [hok.price_eq v hmem hroot] at hclaim

/-- A chain displaced by the next voucher was the live one. -/
theorem issueArm_displaced {c : ChainEpoch}
    (h : (s.ledger.issueArm deltaBytes ratePerMb action preimages).1.retired =
      .replaced (some c)) :
    s.ledger.epoch = some c ∧
      (s.ledger.issueArm deltaBytes ratePerMb action preimages).1.epoch =
        some (ChainEpoch.opened preimages ratePerMb) := by
  rcases s.ledger.issueArm_cases deltaBytes ratePerMb action preimages with
    ⟨-, -, hnothing⟩ | ⟨hopened, hreplaced⟩
  · rw [hnothing] at h
    cases h
  · rw [hreplaced] at h
    exact ⟨Displaced.replaced.inj h, hopened⟩

/-- A voucher of unknown fate keeps the invariant. -/
theorem SettleInv.arm (h : SettleInv s) (hfresh : preimages 0 ∉ s.roots)
    (hrate : ratePerMb ≤ u64Max) :
    SettleInv (s.armed (s.ledger.issueArm deltaBytes ratePerMb action preimages)) := by
  have hcases := s.ledger.issueArm_cases deltaBytes ratePerMb action preimages
  constructor
  · exact h.armBooks deltaBytes action h.balanced hfresh hrate (fun _ => rfl) (fun _ hv => hv)
      (fun _ hr => hr) rfl le_rfl rfl
  · intro root index price hlast
    rcases h.reveal root index price hlast with ⟨hbytes, hback⟩
    refine ⟨hbytes, ?_⟩
    have hrolled : s.ledger.pipeline.accrued ≠ .zero := by
      intro hzero
      rw [hzero] at hbytes
      exact absurd hbytes (Nat.lt_irrefl 0)
    have harm := h.armBooks deltaBytes action hback hfresh hrate
      (fun hzero => absurd hzero hrolled) (fun _ hv => hv)
      (fun r hr => (List.mem_filter.mp hr).1) rfl (Nat.sub_le _ _) rfl
    have hopened := (hcases.resolve_left fun hkept => hrolled hkept.1).1
    -- Taking back an index of a chain with none released changes nothing.
    have hchain : (s.ledger.issueArm deltaBytes ratePerMb action preimages).1.epoch.map
        (fun live => if live.root = root then { live with released := live.released - 1 } else live)
        = (s.ledger.issueArm deltaBytes ratePerMb action preimages).1.epoch := by
      rw [hopened, Option.map_some]
      split <;> rfl
    simp only [Books.takeBack, PayerRun.books, PayerRun.armed, hchain]
    exact harm
  · intro amount prev hlast hprev
    rcases h.voucher amount prev hlast hprev with ⟨hundone, hretired⟩
    constructor
    · have hswapped := h.swapChain deltaBytes action hundone hfresh hrate (fun _ => rfl)
        (fun v hv => (List.mem_filter.mp hv).1) (fun _ hr => hr)
      apply hswapped.drop
      intro v hv
      rcases List.mem_filter.mp hv with ⟨hmem, hnot⟩
      simp only [PayerRun.armed, List.mem_append, decide_eq_true_eq, not_or] at hnot hmem
      refine List.mem_filter.mpr ⟨hmem.resolve_left hnot.2.1, ?_⟩
      simp only [decide_eq_true_eq]
      exact ⟨hnot.1, hnot.2.2⟩
    · intro c hc
      rcases issueArm_displaced deltaBytes action hc with ⟨hlive, hopened⟩
      refine h.restorable deltaBytes action hfresh hlive (hundone.accrual c hlive).1 ?_ hopened ?_
      · intro v hv hstay i hi
        have hnot : v ∉ s.sinceCommitted := fun hmem => hstay.2 (List.mem_append_right _ hmem)
        refine hundone.base v (List.mem_filter.mpr ⟨hv, ?_⟩) List.not_mem_nil i hi
        simp only [decide_eq_true_eq]
        exact ⟨hstay.1, hnot⟩
      · intro v hv hstay
        exact hstay.2 (List.mem_append_left _ hv)
  · intro a ha
    obtain rfl := Option.some.inj ha
    refine ⟨(le_nextVoucher h.settlement_lt deltaBytes ratePerMb).2, ?_⟩
    intro c hc
    rcases issueArm_displaced deltaBytes action hc with ⟨hlive, hopened⟩
    refine h.restorable deltaBytes action hfresh hlive (h.balanced.accrual c hlive).1 ?_ hopened ?_
    · intro v hv hstay
      exact h.balanced.base v hv fun hmem => hstay (List.mem_append_right _ hmem)
    · intro v hv hstay
      exact hstay (List.mem_append_left _ hv)
  · constructor
    · exact List.mem_cons_of_mem _ h.drawn.zero
    · intro v hv
      rcases List.mem_append.mp hv with hnew | hold
      · rw [(mem_onWire hnew).1]
        exact List.mem_cons_self
      · exact List.mem_cons_of_mem _ (h.drawn.held v hold)
    · intro root i hmem
      exact List.mem_cons_of_mem _ (h.drawn.revealed root i hmem)
    · intro e he
      have he : (s.ledger.issueArm deltaBytes ratePerMb action preimages).1.epoch = some e := he
      have hroot : (s.ledger.issueArm deltaBytes ratePerMb action preimages).2.commit.chainRoot =
          e.root := congrArg (fun slot => (ChainCommit.ofSlot slot).chainRoot) he
      exact List.mem_cons.mpr (.inl hroot.symm)
    · intro c hc
      exact List.mem_cons_of_mem _ (h.drawn.live c (issueArm_displaced deltaBytes action hc).1)
    · intro e c he hc hroot
      rcases issueArm_displaced deltaBytes action hc with ⟨hlive, hopened⟩
      have he : (s.ledger.issueArm deltaBytes ratePerMb action preimages).1.epoch = some e := he
      rw [hopened] at he
      obtain rfl := Option.some.inj he
      have hsame : preimages 0 = c.root := hroot
      exact hfresh (hsame ▸ h.drawn.live c hlive)

end Issuing

/-! ## Confirming, re-anchoring and metering -/

/-- More accrual, or an accrual beyond every claim, keeps a chain restorable. -/
theorem Restorable.setAccrued {c : ChainEpoch} {stays : Issue → Prop}
    {anchor accrued accrued' : Nat} (h : Restorable s c stays anchor accrued)
    (hfits : ∀ v ∈ s.held, v.next.amount ≤ u64Max) (hle : accrued ≤ accrued' ∨ 2 ^ 100 ≤ accrued') :
    Restorable s c stays anchor accrued' := by
  have hsmall := accrual_small h.ok.price_le h.ok.released_le
  constructor
  · exact h.ok
  · intro hanchor
    have hold := h.accrual hanchor
    omega
  · intro v hv hstay hroot
    have hold := h.held v hv hstay hroot
    have hamount := hfits v hv
    unfold u64Max at hamount
    omega

/-- The voucher in doubt becomes the anchor. -/
theorem SettleInv.confirm {amount : Nat} {ledger : PoolLedger} (h : SettleInv s)
    (hconfirm : s.ledger.confirmArmedStamped amount = some ledger) :
    SettleInv (s.anchored ledger) := by
  unfold PoolLedger.confirmArmedStamped at hconfirm
  split at hconfirm
  · rename_i a ha
    split at hconfirm
    · rename_i hamount
      cases hconfirm
      have harmed : s.books.armed = some (a.voucher.amount, a.folded.amount) := by
        simp only [PayerRun.books, ha, Option.map_some]
      -- What the voucher folded comes back with the accrual that has grown since.
      have hregrown : ∀ x y : Nat, x ≤ U256.saturatingAdd (x - y) y ∨
          2 ^ 100 ≤ U256.saturatingAdd (x - y) y := by
        intro x y
        unfold U256.saturatingAdd U256.modulus
        omega
      have hfolded : ∀ x y : Nat, y ≤ U256.saturatingAdd (x - y) y ∨
          2 ^ 100 ≤ U256.saturatingAdd (x - y) y := by
        intro x y
        unfold U256.saturatingAdd U256.modulus
        omega
      constructor
      · exact h.balanced.confirm harmed
      · exact nofun
      · intro _ prev _ hprev
        cases hprev
        constructor
        · refine (h.balanced.settled ?_).setAccrued (hregrown _ _)
          intro v hv
          rcases List.mem_filter.mp hv with ⟨hmem, hnot⟩
          exact ⟨hmem, (of_decide_eq_true hnot).1⟩
        · intro c hc
          have hretired := ((h.armed a ha).2 c hc).setAccrued (fun v hv => (h.balanced.fits v hv).1)
            (hfolded s.ledger.pipeline.accrued.amount a.folded.amount)
          exact hretired.mono (fun _ hu _ => hu) (fun _ hr _ => hr) fun _ _ _ hstay => hstay.1
      · exact nofun
      · exact ⟨h.drawn.zero, h.drawn.held, h.drawn.revealed, h.drawn.live, h.drawn.retired,
          h.drawn.distinct⟩
    · cases hconfirm
  · cases hconfirm

/-- The anchor re-stated under the live root. -/
theorem SettleInv.reanchor {v : Issue} (h : SettleInv s) (hv : s.ledger.reanchor = some v) :
    SettleInv { s with held := v.onWire ++ s.held, sincePrev := v.onWire ++ s.sincePrev } := by
  rcases Option.map_eq_some_iff.mp hv with ⟨e, he, rfl⟩
  unfold Issue.onWire
  split
  · rename_i hfits
    have hamount : s.ledger.pipeline.committed.amount ≤ u64Max := (of_decide_eq_true hfits).1
    have hother : ∀ c, s.ledger.retired = .replaced (some c) → e.root ≠ c.root :=
      fun c hc => h.drawn.distinct e c he hc
    -- Nothing is added under the root of a displaced chain.
    have hold : ∀ c, s.ledger.retired = .replaced (some c) →
        ∀ u ∈ [(⟨s.ledger.pipeline.committed, ⟨e.root, e.chunkPrice⟩⟩ : Issue)] ++ s.held,
        u.commit.chainRoot = c.root → u ∈ s.held := by
      intro c hc u hu hroot
      rcases List.mem_cons.mp hu with rfl | hmem
      · exact absurd hroot (hother c hc)
      · exact hmem
    constructor
    · exact h.balanced.reanchor he rfl (by simp only [PayerRun.books, he]; rfl) hamount
    · intro root index price hlast
      rcases h.reveal root index price hlast with ⟨hbytes, hback⟩
      refine ⟨hbytes, ?_⟩
      have hchain : (s.books.takeBack root index price).chain =
          some (if e.root = root then { e with released := e.released - 1 } else e) := by
        simp only [Books.takeBack, PayerRun.books, he, Option.map_some]
      refine hback.reanchor hchain rfl ?_ hamount
      rw [hchain]
      split <;> rfl
    · intro amount prev hlast hprev
      rcases h.voucher amount prev hlast hprev with ⟨hundone, hretired⟩
      constructor
      · apply hundone.drop
        intro u hu
        rcases List.mem_filter.mp hu with ⟨hmem, hnot⟩
        simp only [List.mem_append, List.mem_singleton, decide_eq_true_eq, not_or] at hnot hmem
        refine List.mem_filter.mpr ⟨hmem.resolve_left hnot.1.1, ?_⟩
        simp only [decide_eq_true_eq]
        exact ⟨hnot.1.2, hnot.2⟩
      · intro c hc
        refine (hretired c hc).mono (hold c hc) (fun _ hr _ => hr) ?_
        intro u _ _ hstay
        exact ⟨fun hmem => hstay.1 (List.mem_append_right _ hmem), hstay.2⟩
    · intro a ha
      refine ⟨(h.armed a ha).1, fun c hc => ?_⟩
      exact ((h.armed a ha).2 c hc).mono (hold c hc) (fun _ hr _ => hr) fun _ _ _ hstay => hstay
    · refine ⟨h.drawn.zero, ?_, h.drawn.revealed, h.drawn.live, h.drawn.retired, h.drawn.distinct⟩
      intro u hu
      rcases List.mem_cons.mp hu with rfl | hmem
      · exact h.drawn.live e he
      · exact h.drawn.held u hmem
  · exact h

/-- One more reveal, with no voucher in doubt above the committed claim. -/
theorem SettleInv.meter {anchored : Option Bytes32} {released : Released} {chunkPrice : Nat}
    (h : SettleInv s) (hread : s.ledger.meterRead anchored = .released released chunkPrice)
    (hsound : ∀ a, s.ledger.pipeline.armed = some a →
      a.voucher.amount ≤ s.ledger.pipeline.owed.amount) :
    SettleInv { s with
      ledger := s.ledger.meterAdvance released chunkPrice
      revealed := (released.chainRoot, released.index) :: s.revealed } := by
  rcases PoolLedger.meterRead_released hread with ⟨e, he, -, hindex, rfl, rfl⟩
  have harmed : s.books.armedAmount ≤ s.books.committed + s.books.accrued := by
    cases ha : s.ledger.pipeline.armed with
    | none => simp [Books.armedAmount, PayerRun.books, ha]
    | some a =>
      have hle : a.voucher.amount ≤ s.books.committed + s.books.accrued :=
        le_trans (hsound a ha) (U256.saturatingAdd_le _ _)
      simpa only [Books.armedAmount, PayerRun.books, ha, Option.map_some, Option.getD_some]
        using hle
  have hepoch : (s.ledger.epoch.map fun live => { live with released := e.released + 1 }) =
      some { e with released := e.released + 1 } := by
    rw [he, Option.map_some]
  have hprice := (h.balanced.chain e he).price_le
  constructor
  · simp only [PayerRun.books, PoolLedger.meterAdvance, hepoch]
    exact h.balanced.meter he hindex harmed
  · intro root index price hlast
    simp only [PoolLedger.meterAdvance, Option.some.injEq, LastProof.reveal.injEq] at hlast
    rcases hlast with ⟨rfl, rfl, rfl⟩
    constructor
    · simp only [PoolLedger.meterAdvance]
      unfold U256.saturatingAdd U256.modulus chunkBytes
      omega
    · -- Without its last reveal the chain is where it was.
      have hsub : ∀ r ∈ ((e.root, e.released + 1) :: s.revealed).filter
          (· ≠ (e.root, e.released + 1)), r ∈ s.revealed := by
        intro r hr
        rcases List.mem_filter.mp hr with ⟨hmem, hne⟩
        exact (List.mem_cons.mp hmem).resolve_left (of_decide_eq_true hne)
      have hregrown :
          s.books.accrued ≤ U256.saturatingAdd s.books.accrued e.chunkPrice - e.chunkPrice ∨
          2 ^ 100 ≤ U256.saturatingAdd s.books.accrued e.chunkPrice - e.chunkPrice := by
        unfold U256.saturatingAdd U256.modulus
        unfold u64Max at hprice
        omega
      have hback := (h.balanced.unreveal hsub).setAccrued hregrown
      have hsame : ({ e with released := e.released + 1 - 1 } : ChainEpoch) = e := by
        rw [Nat.add_sub_cancel]
      have hroot : ({ e with released := e.released + 1 } : ChainEpoch).root = e.root := rfl
      simp only [Books.takeBack, PayerRun.books, PoolLedger.meterAdvance, hepoch, Option.map_some,
        hroot, if_true, hsame, ← he]
      exact hback
  · intro amount prev hlast _
    cases hlast
  · intro a ha
    refine ⟨(h.armed a ha).1, fun c hc => ?_⟩
    refine ((h.armed a ha).2 c hc).mono (fun _ hu _ => hu) ?_ fun _ _ _ hstay => hstay
    intro r hr hroot
    rcases List.mem_cons.mp hr with rfl | hold
    · exact absurd hroot (h.drawn.distinct e c he hc)
    · exact hold
  · have hlive : ∀ e', (s.ledger.meterAdvance ⟨e.preimages (e.released + 1), e.released + 1, e.root⟩
        e.chunkPrice).epoch = some e' → e'.root = e.root := by
      intro e' he'
      simp only [PoolLedger.meterAdvance, hepoch] at he'
      cases he'
      rfl
    refine ⟨h.drawn.zero, h.drawn.held, ?_, ?_, h.drawn.retired, ?_⟩
    · intro root i hmem
      rcases List.mem_cons.mp hmem with hnew | hold
      · rw [(Prod.mk.inj hnew).1]
        exact h.drawn.live e he
      · exact h.drawn.revealed root i hold
    · intro e' he'
      rw [hlive e' he']
      exact h.drawn.live e he
    · intro e' c he' hc
      rw [hlive e' he']
      exact h.drawn.distinct e c he hc

/-! ## Steps and runs -/

/-- A refused voucher is dropped, disarmed or rewound. -/
theorem SettleInv.rejectVoucher {v : Issue} {generation : Nat} (h : SettleInv s)
    (hsound : (PayerEvent.rejectVoucher v generation).Sound s)
    (hstep : s.step (.rejectVoucher v generation) s') : SettleInv s' := by
  have hrefused := h.refuse v
  -- What is left of a list whose only held voucher is the refused one.
  have hgone : ∀ vs : List Issue, (∀ u ∈ s.held, u ∈ vs → u = v) →
      ∀ u ∈ (s.refuse v).held, u ∉ vs.filter (· ≠ v) := by
    intro vs honly u hu hmem
    exact (mem_filter_ne.mp hu).2 (honly u (mem_filter_ne.mp hu).1 (mem_filter_ne.mp hmem).1)
  have hcases := s.ledger.resolveReject_cases (.voucher v.next.amount generation)
  simp only [PayerRun.step, PayerRun.apply] at hstep
  generalize (s.ledger.resolveReject (.voucher v.next.amount generation)).1 = ledger
    at hcases hstep
  split at hstep
  · cases hcases with
    | voucher hlast hprev hrewinds =>
      rw [if_pos hrewinds] at hstep
      cases hstep
      rcases hsound.1 hrewinds with ⟨harmed, honly⟩
      apply hrefused.rewindVoucher hlast hprev harmed
      intro u hu
      exact ⟨hgone _ (fun w hw hmem => honly w hw (.inl hmem)) u hu,
        hgone _ (fun w hw hmem => honly w hw (.inr hmem)) u hu⟩
    | disarmed harmed hamount hrewinds =>
      rw [if_neg (by rw [hrewinds]; exact Bool.false_ne_true)] at hstep
      cases hstep
      exact hrefused.disarm (hgone _ (hsound.2 hrewinds _ harmed hamount))
    | forgotten hprev hrewinds =>
      rw [if_neg (by rw [hrewinds]; exact Bool.false_ne_true)] at hstep
      cases hstep
      exact hrefused.forget
    | stale hrewinds =>
      rw [if_neg (by rw [hrewinds]; exact Bool.false_ne_true)] at hstep
      cases hstep
      exact hrefused
  · cases hstep

/-- A refused reveal is dropped or taken back. -/
theorem SettleInv.rejectReveal {root : Bytes32} {index : Nat} (h : SettleInv s)
    (hstep : s.step (.rejectReveal root index) s') : SettleInv s' := by
  have hcases := s.ledger.resolveReject_cases (.reveal root index)
  simp only [PayerRun.step, PayerRun.apply] at hstep
  generalize (s.ledger.resolveReject (.reveal root index)).1 = ledger at hcases hstep
  split at hstep
  · cases hstep
    cases hcases with
    | reveal hlast _ => exact h.rewindReveal hlast
    | stale _ => exact h.unreveal fun r hr => (List.mem_filter.mp hr).1
  · cases hstep

/-- One sound step keeps the invariant. -/
theorem SettleInv.step {e : PayerEvent} (h : SettleInv s) (hfresh : e.Fresh s)
    (hsound : e.Sound s) (hstep : s.step e s') : SettleInv s' := by
  cases e with
  | issue deltaBytes ratePerMb action preimages sent =>
    have harmed := h.arm deltaBytes.toNat action hfresh (toNat_le_u64Max ratePerMb)
    simp only [PayerRun.step, PayerRun.apply] at hstep
    split at hstep
    · split at hstep
      · cases hstep
        exact harmed.confirm (s.ledger.issueArm_confirm _ _ _ _)
      · cases hstep
    · cases hstep
      exact harmed
  | reanchor =>
    simp only [PayerRun.step, PayerRun.apply] at hstep
    split at hstep
    · rename_i v hv
      cases hstep
      exact h.reanchor hv
    · cases hstep
  | meter anchored =>
    simp only [PayerRun.step, PayerRun.apply] at hstep
    split at hstep
    · rename_i released chunkPrice hread
      cases hstep
      exact h.meter hread hsound
    · cases hstep
  | confirm amount =>
    simp only [PayerRun.step, PayerRun.apply] at hstep
    split at hstep
    · rename_i ledger hconfirm
      cases hstep
      exact h.confirm hconfirm
    · cases hstep
      exact h
  | rejectVoucher v generation => exact h.rejectVoucher hsound hstep
  | rejectReveal root index => exact h.rejectReveal hstep

/-- The deepest reveal is one of those released, or there is none. -/
theorem PayerRun.deepest_shown (s : PayerRun) (root : Bytes32) :
    s.books.Shown root (s.deepest root) := by
  have hmem : ∀ is : List Nat, is.foldr max 0 = 0 ∨ is.foldr max 0 ∈ is := by
    intro is
    induction is with
    | nil => exact .inl rfl
    | cons i is ih =>
      rw [List.foldr_cons]
      rcases max_choice i (is.foldr max 0) with hi | hi
      · rw [hi]
        exact .inr List.mem_cons_self
      · rw [hi]
        exact ih.imp id (List.mem_cons_of_mem _)
  rcases hmem ((s.revealed.filter (·.1 = root)).map Prod.snd) with hzero | hfound
  · exact .inl hzero
  · rcases List.mem_map.mp hfound with ⟨⟨root', i⟩, hpair, hi⟩
    rcases List.mem_filter.mp hpair with ⟨hrevealed, hroot⟩
    have hroot : root' = root := of_decide_eq_true hroot
    have hi : i = s.deepest root := hi
    rw [hroot, hi] at hrevealed
    exact .inr (.inl hrevealed)

/-- In every run of sound steps, the settlement covers every voucher sent and not
refused, with the deepest reveal under its root, and every voucher issued signs
at least the settlement it found. -/
theorem settlement_covers {seed : Cumulative}
    (hrun : Reaches PayerRun.step (fun s e => e.Fresh s ∧ e.Sound s) (.start seed) s) :
    (∀ v ∈ s.held, v.next.amount + s.deepest v.commit.chainRoot * v.commit.chunkPrice ≤
      s.ledger.settlement.amount) ∧
    ∀ deltaBytes ratePerMb action preimages s',
      s.step (.issue deltaBytes ratePerMb action preimages true) s' →
      s.ledger.settlement.amount ≤ s'.ledger.pipeline.committed.amount := by
  have hinv : SettleInv s := by
    apply hrun.invariant (SettleInv.start seed)
    intro a e b hguard hstep ha
    exact ha.step hguard.1 hguard.2 hstep
  constructor
  · intro v hv
    have hshown := s.deepest_shown v.commit.chainRoot
    exact le_settlement (hinv.balanced.claim_small hv hshown) (hinv.balanced.top v hv _ hshown)
  · intro deltaBytes ratePerMb action preimages s' hstep
    simp only [PayerRun.step, PayerRun.apply, if_true] at hstep
    split at hstep
    · cases hstep
      exact (le_nextVoucher hinv.settlement_lt deltaBytes.toNat ratePerMb.toNat).1
    · cases hstep

/-! ## Sample runs -/

/-- A step whose soundness needs no history. -/
def PayerEvent.plain (s : PayerRun) (e : PayerEvent) : Bool :=
  decide (e.Fresh s) && match e with
    | .meter _ => s.ledger.pipeline.armed.isNone
    | .rejectVoucher _ _ => false
    | _ => true

/-- Plain steps are sound. -/
theorem PayerEvent.sound_of_plain {e : PayerEvent} (h : e.plain s = true) :
    e.Fresh s ∧ e.Sound s := by
  rcases Bool.and_eq_true_iff.mp h with ⟨hfresh, hsound⟩
  refine ⟨of_decide_eq_true hfresh, ?_⟩
  cases e with
  | meter anchored =>
    intro a ha
    rw [ha] at hsound
    cases hsound
  | rejectVoucher v generation => cases hsound
  | issue _ _ _ _ _ | reanchor | confirm _ | rejectReveal _ _ => trivial

/-- Two vouchers and a reveal, the second voucher confirmed late. -/
theorem settlement_covers_sample :
    ∃ s, Reaches PayerRun.step (fun s e => e.Fresh s ∧ e.Sound s) (.start .zero) s ∧
      s.held.length = 3 ∧ s.ledger.settlement.amount = 15 ∧
      ∀ v ∈ s.held, v.next.amount + s.deepest v.commit.chainRoot * v.commit.chunkPrice ≤
        s.ledger.settlement.amount := by
  have hrun : ∀ es s, runEvents PayerRun.apply (fun s e => e.plain s) (.start .zero) es = some s →
      Reaches PayerRun.step (fun s e => e.Fresh s ∧ e.Sound s) (.start .zero) s :=
    fun es s h => Reaches.of_runEvents (fun _ _ he => PayerEvent.sound_of_plain he) h
  have hpaid := hrun [.issue 0 10 .opened sampleLadder true, .meter (some (sampleLadder 0)),
    .issue 524288 10 .keep otherLadder false, .confirm 15, .reanchor] _ rfl
  exact ⟨_, hpaid, rfl, rfl, (settlement_covers hpaid).1⟩

/-- The voucher for one byte that a sibling left in doubt. -/
def sampleDoubt : Issue := ⟨⟨1, 1⟩, ⟨sampleLadder 0, 10⟩⟩

/-- Without the guard the settlement falls short of a voucher in doubt: a reveal
released on top of it leaves 10 where the node can redeem 11, and the refusal of
a voucher signed on top of it leaves nothing where the node can redeem 1. -/
theorem settlement_falls_short :
    (∃ s, Reaches PayerRun.step (fun s e => e.Fresh s) (.start .zero) s ∧ sampleDoubt ∈ s.held ∧
      s.ledger.settlement.amount < sampleDoubt.next.amount +
        s.deepest sampleDoubt.commit.chainRoot * sampleDoubt.commit.chunkPrice) ∧
    ∃ s, Reaches PayerRun.step (fun s e => e.Fresh s) (.start .zero) s ∧ sampleDoubt ∈ s.held ∧
      s.ledger.settlement.amount < sampleDoubt.next.amount := by
  have hrun : ∀ es s, runEvents PayerRun.apply (fun s e => decide (e.Fresh s)) (.start .zero) es =
      some s → Reaches PayerRun.step (fun s e => e.Fresh s) (.start .zero) s :=
    fun es s h => Reaches.of_runEvents (fun _ _ he => of_decide_eq_true he) h
  constructor
  · have hends : (runEvents PayerRun.apply (fun s e => decide (e.Fresh s)) (.start .zero)
        [.issue 0 10 .opened sampleLadder true, .issue 1 10 .keep otherLadder false,
          .meter (some (sampleLadder 0))]).map
        (fun s => (decide (sampleDoubt ∈ s.held), s.ledger.settlement.amount,
          s.deepest (sampleLadder 0))) = some (true, 10, 1) := by
      decide +kernel
    rcases Option.map_eq_some_iff.mp hends with ⟨s, hs, hends⟩
    simp only [Prod.mk.injEq, decide_eq_true_eq] at hends
    rcases hends with ⟨hheld, hsettlement, hdeepest⟩
    refine ⟨s, hrun _ s hs, hheld, ?_⟩
    simp [hsettlement, sampleDoubt, hdeepest]
  · have hends : (runEvents PayerRun.apply (fun s e => decide (e.Fresh s)) (.start .zero)
        [.issue 0 10 .opened sampleLadder true, .issue 1 10 .keep otherLadder false,
          .issue 1 10 .keep thirdLadder true,
          .rejectVoucher ⟨⟨2, 2⟩, ⟨sampleLadder 0, 10⟩⟩ 0]).map
        (fun s => (decide (sampleDoubt ∈ s.held), s.ledger.settlement.amount)) =
        some (true, 0) := by
      decide +kernel
    rcases Option.map_eq_some_iff.mp hends with ⟨s, hs, hends⟩
    simp only [Prod.mk.injEq, decide_eq_true_eq] at hends
    rcases hends with ⟨hheld, hsettlement⟩
    refine ⟨s, hrun _ s hs, hheld, ?_⟩
    simp [hsettlement, sampleDoubt]

end Decdn.Client
