import Decdn.Client.Ledger

/-!
# The books behind a settlement

What a payer's settlement has to cover, apart from how the ledger stores it: the
vouchers and reveals the node may hold, the signed anchor, the accrual on top of
it, the voucher in doubt, and the chain that reveals extend.

The books balance when every voucher the node may hold is below the anchor plus
the accrual, or is one of those signed since and below the voucher in doubt.
Each operation of the ledger moves the books in one of a few ways, and each of
them keeps the balance.

Main results:

- Theorem `Balanced.arm`: a voucher whose fate is open.
- Theorem `Balanced.confirm`: it becomes the anchor.
- Theorem `Balanced.reanchor` and Theorem `Balanced.meter`: the anchor again, and
  one more chunk on it.
- Theorem `Balanced.disarm` and Theorem `Balanced.settled`: without the voucher in
  doubt.
-/

namespace Decdn.Client

open Incentive
open PoolLedger (Issue)

/-! ## Books -/

/-- The amounts a settlement is made of, and what the node may hold against
them.  `since` are the vouchers signed since the anchor was committed; `armed` is
the amount of the voucher in doubt and the accrual it folded. -/
structure Books where
  held : List Issue
  since : List Issue
  revealed : List (Bytes32 × Nat)
  committed : Nat
  accrued : Nat
  armed : Option (Nat × Nat)
  chain : Option ChainEpoch

variable {b : Books} {v : Issue}

/-- The amount of the voucher in doubt. -/
def Books.armedAmount (b : Books) : Nat := (b.armed.map Prod.fst).getD 0

/-- A depth the node holds a reveal for, or the live chain's current one. -/
def Books.Shown (b : Books) (root : Bytes32) (i : Nat) : Prop :=
  i = 0 ∨ (root, i) ∈ b.revealed ∨ ∃ e, b.chain = some e ∧ e.root = root ∧ i = e.released

/-- The voucher claims at most `bound` at every depth shown. -/
def Books.Below (b : Books) (v : Issue) (bound : Nat) : Prop :=
  ∀ i, b.Shown v.commit.chainRoot i → v.next.amount + i * v.commit.chunkPrice ≤ bound

/-- A chain that reveals may extend. -/
structure Books.ChainOk (b : Books) (e : ChainEpoch) : Prop where
  price_le : e.chunkPrice ≤ u64Max
  released_le : e.released ≤ maxChainLength
  deepest : ∀ i, (e.root, i) ∈ b.revealed → i ≤ e.released
  price_eq : ∀ v ∈ b.held, v.commit.chainRoot = e.root → v.commit.chunkPrice = e.chunkPrice

/-- The books balance. -/
structure Balanced (b : Books) : Prop where
  fits : ∀ v ∈ b.held, v.next.amount ≤ u64Max ∧ v.commit.chunkPrice ≤ u64Max
  revealed_le : ∀ root i, (root, i) ∈ b.revealed → i ≤ maxChainLength
  chain : ∀ e, b.chain = some e → b.ChainOk e
  /-- The accrual pays for the chain, with or without the voucher in doubt. -/
  accrual : ∀ e, b.chain = some e →
    (b.committed ≤ u64Max → e.released * e.chunkPrice ≤ b.accrued) ∧
    ∀ amount folded, b.armed = some (amount, folded) → amount ≤ u64Max →
      e.released * e.chunkPrice ≤ b.accrued - folded
  armed : ∀ amount folded, b.armed = some (amount, folded) →
    U256.saturatingAdd b.committed folded ≤ amount
  base : ∀ v ∈ b.held, v ∉ b.since → b.Below v (b.committed + b.accrued)
  top : ∀ v ∈ b.held, b.Below v (max (b.committed + b.accrued) b.armedAmount)

/-! ## Widths -/

/-- The product of a price and an index on the wire. -/
theorem accrual_small {price i : Nat} (hprice : price ≤ u64Max) (hi : i ≤ maxChainLength) :
    i * price ≤ 2 ^ 72 := by
  have hmul : i * price ≤ maxChainLength * u64Max := Nat.mul_le_mul hi hprice
  unfold maxChainLength u64Max at hmul
  omega

/-- A depth shown is a byte. -/
theorem Balanced.shown_le {root : Bytes32} {i : Nat} (h : Balanced b) (hi : b.Shown root i) :
    i ≤ maxChainLength := by
  rcases hi with rfl | hmem | ⟨e, he, -, rfl⟩
  · exact Nat.zero_le _
  · exact h.revealed_le root i hmem
  · exact (h.chain e he).released_le

/-- What a held voucher claims is far below the 256-bit bound. -/
theorem Balanced.claim_small {i : Nat} (h : Balanced b) (hv : v ∈ b.held)
    (hi : b.Shown v.commit.chainRoot i) :
    v.next.amount + i * v.commit.chunkPrice ≤ 2 ^ 73 := by
  rcases h.fits v hv with ⟨hamount, hprice⟩
  have hmul := accrual_small hprice (h.shown_le hi)
  unfold u64Max at hamount
  omega

/-! ## Fewer vouchers -/

/-- Books with fewer vouchers held balance. -/
theorem Balanced.drop {held : List Issue} (h : Balanced b) (hsub : ∀ v ∈ held, v ∈ b.held) :
    Balanced { b with held := held } where
  fits v hv := h.fits v (hsub v hv)
  revealed_le := h.revealed_le
  chain e he :=
    ⟨(h.chain e he).price_le, (h.chain e he).released_le, (h.chain e he).deepest,
      fun v hv => (h.chain e he).price_eq v (hsub v hv)⟩
  accrual := h.accrual
  armed := h.armed
  base v hv := h.base v (hsub v hv)
  top v hv := h.top v (hsub v hv)

/-- Books balance with any longer list of recent vouchers. -/
theorem Balanced.since {since : List Issue} (h : Balanced b)
    (hsub : ∀ v ∈ b.held, v ∈ b.since → v ∈ since) : Balanced { b with since := since } where
  fits := h.fits
  revealed_le := h.revealed_le
  chain e he :=
    ⟨(h.chain e he).price_le, (h.chain e he).released_le, (h.chain e he).deepest,
      (h.chain e he).price_eq⟩
  accrual := h.accrual
  armed := h.armed
  base v hv hnot := h.base v hv fun hmem => hnot (hsub v hv hmem)
  top := h.top

/-- When every recent voucher is refused, the voucher in doubt can go. -/
theorem Balanced.disarm (h : Balanced b) (hnone : ∀ v ∈ b.held, v ∉ b.since) :
    Balanced { b with armed := none } where
  fits := h.fits
  revealed_le := h.revealed_le
  chain e he :=
    ⟨(h.chain e he).price_le, (h.chain e he).released_le, (h.chain e he).deepest,
      (h.chain e he).price_eq⟩
  accrual e he := ⟨(h.accrual e he).1, nofun⟩
  armed := nofun
  base := h.base
  top v hv i hi := le_trans (h.base v hv (hnone v hv) i hi) (le_max_left _ _)

/-- The vouchers older than the anchor are below the committed claim alone. -/
theorem Balanced.settled {held : List Issue} (h : Balanced b)
    (hsub : ∀ v ∈ held, v ∈ b.held ∧ v ∉ b.since) :
    Balanced { b with held := held, since := [], armed := none } := by
  have hdrop := (h.drop fun v hv => (hsub v hv).1).disarm fun v hv => (hsub v hv).2
  apply hdrop.since
  intro v hv hmem
  exact absurd hmem (hsub v hv).2

/-- Books with fewer reveals held balance. -/
theorem Balanced.unreveal {revealed : List (Bytes32 × Nat)} (h : Balanced b)
    (hsub : ∀ r ∈ revealed, r ∈ b.revealed) : Balanced { b with revealed := revealed } := by
  have hshown : ∀ root i, Books.Shown { b with revealed := revealed } root i → b.Shown root i := by
    intro root i hi
    rcases hi with hzero | hmem | hchain
    · exact .inl hzero
    · exact .inr (.inl (hsub _ hmem))
    · exact .inr (.inr hchain)
  constructor
  · exact h.fits
  · intro root i hmem
    exact h.revealed_le root i (hsub _ hmem)
  · intro e he
    exact ⟨(h.chain e he).price_le, (h.chain e he).released_le,
      fun i hmem => (h.chain e he).deepest i (hsub _ hmem), (h.chain e he).price_eq⟩
  · exact h.accrual
  · exact h.armed
  · intro v hv hnot i hi
    exact h.base v hv hnot i (hshown _ _ hi)
  · intro v hv i hi
    exact h.top v hv i (hshown _ _ hi)

/-! ## Other amounts -/

/-- More accrual, or an accrual beyond every claim, keeps the balance. -/
theorem Balanced.setAccrued {accrued : Nat} (h : Balanced b)
    (hle : b.accrued ≤ accrued ∨ 2 ^ 100 ≤ accrued) :
    Balanced { b with accrued := accrued } where
  fits := h.fits
  revealed_le := h.revealed_le
  chain e he :=
    ⟨(h.chain e he).price_le, (h.chain e he).released_le, (h.chain e he).deepest,
      (h.chain e he).price_eq⟩
  accrual e he := by
    have hsmall := accrual_small (h.chain e he).price_le (h.chain e he).released_le
    constructor
    · intro hcommitted
      have hold := (h.accrual e he).1 hcommitted
      dsimp only
      omega
    · intro amount folded harmed hamount
      have hold := (h.accrual e he).2 amount folded harmed hamount
      have hfolded := h.armed amount folded harmed
      unfold U256.saturatingAdd U256.modulus at hfolded
      unfold u64Max at hamount
      dsimp only
      omega
  armed := h.armed
  base v hv hnot i hi := by
    have hold := h.base v hv hnot i hi
    have hsmall := h.claim_small hv hi
    dsimp only
    omega
  top v hv i hi := by
    have hold := h.top v hv i hi
    have hsmall := h.claim_small hv hi
    simp only [Books.armedAmount] at hold ⊢
    omega

/-- Another chain under the same vouchers. -/
theorem Balanced.setChain {chain : Option ChainEpoch} (h : Balanced b)
    (hchain : ∀ e, chain = some e → b.ChainOk e)
    (haccrual : ∀ e, chain = some e →
      (b.committed ≤ u64Max → e.released * e.chunkPrice ≤ b.accrued) ∧
      ∀ amount folded, b.armed = some (amount, folded) → amount ≤ u64Max →
        e.released * e.chunkPrice ≤ b.accrued - folded)
    (hheld : ∀ e, chain = some e → ∀ v ∈ b.held, v.commit.chainRoot = e.root →
      (v ∉ b.since → v.next.amount + e.released * e.chunkPrice ≤ b.committed + b.accrued) ∧
      v.next.amount + e.released * e.chunkPrice ≤ max (b.committed + b.accrued) b.armedAmount) :
    Balanced { b with chain := chain } where
  fits := h.fits
  revealed_le := h.revealed_le
  chain e he :=
    ⟨(hchain e he).price_le, (hchain e he).released_le, (hchain e he).deepest,
      (hchain e he).price_eq⟩
  accrual := haccrual
  armed := h.armed
  base v hv hnot i hi := by
    rcases hi with hzero | hmem | ⟨e, he, hroot, rfl⟩
    · exact h.base v hv hnot i (.inl hzero)
    · exact h.base v hv hnot i (.inr (.inl hmem))
    · rw [(hchain e he).price_eq v hv hroot.symm]
      exact (hheld e he v hv hroot.symm).1 hnot
  top v hv i hi := by
    rcases hi with hzero | hmem | ⟨e, he, hroot, rfl⟩
    · exact h.top v hv i (.inl hzero)
    · exact h.top v hv i (.inr (.inl hmem))
    · rw [(hchain e he).price_eq v hv hroot.symm]
      exact (hheld e he v hv hroot.symm).2

/-- A chain under a new root. -/
theorem Balanced.openChain {preimages : Nat → Bytes32} {ratePerMb : Nat} (h : Balanced b)
    (hrate : ratePerMb ≤ u64Max) (hheld : ∀ v ∈ b.held, v.commit.chainRoot ≠ preimages 0)
    (hrevealed : ∀ i, (preimages 0, i) ∉ b.revealed) :
    Balanced { b with chain := some (ChainEpoch.opened preimages ratePerMb) } := by
  apply h.setChain
  · intro e he
    cases he
    exact ⟨hrate, Nat.zero_le _, fun i hmem => absurd hmem (hrevealed i),
      fun v hv hroot => absurd hroot (hheld v hv)⟩
  · intro e he
    cases he
    simp [ChainEpoch.opened]
  · intro e he v hv hroot
    cases he
    exact absurd hroot (hheld v hv)

/-! ## Moves -/

/-- What a chain shows under its own root is no deeper than its index. -/
theorem Books.ChainOk.shown_le {e : ChainEpoch} {i : Nat} (h : b.ChainOk e)
    (he : b.chain = some e) (hi : b.Shown e.root i) : i ≤ e.released := by
  rcases hi with rfl | hmem | ⟨e', he', -, rfl⟩
  · exact Nat.zero_le _
  · exact h.deepest i hmem
  · rw [he] at he'
    cases he'
    exact le_rfl

/-- A voucher in doubt replaces the last one: it claims at least the settlement,
and its chain has nothing to add. -/
theorem Balanced.arm {sent : List Issue} {next folded : Nat} (h : Balanced b)
    (hsent : ∀ v ∈ sent, v.next.amount = next ∧ v.commit = .ofSlot b.chain ∧ next ≤ u64Max)
    (hnext : ∀ x, x ≤ 2 ^ 73 → x ≤ max (b.committed + b.accrued) b.armedAmount → x ≤ next)
    (hfolded : U256.saturatingAdd b.committed folded ≤ next)
    (hchain : ∀ e, b.chain = some e → next ≤ u64Max → e.released * e.chunkPrice = 0) :
    Balanced { b with
      held := sent ++ b.held, since := sent ++ b.since, armed := some (next, folded) } where
  fits v hv := by
    rcases List.mem_append.mp hv with hnew | hold
    · rcases hsent v hnew with ⟨hamount, hcommit, hle⟩
      refine ⟨hamount ▸ hle, ?_⟩
      rw [hcommit]
      cases he : b.chain with
      | none => exact Nat.zero_le _
      | some e => exact (h.chain e he).price_le
    · exact h.fits v hold
  revealed_le := h.revealed_le
  chain e he := by
    refine ⟨(h.chain e he).price_le, (h.chain e he).released_le, (h.chain e he).deepest, ?_⟩
    intro v hv hroot
    rcases List.mem_append.mp hv with hnew | hold
    · rw [(hsent v hnew).2.1, show b.chain = some e from he]
      rfl
    · exact (h.chain e he).price_eq v hold hroot
  accrual e he := by
    refine ⟨(h.accrual e he).1, ?_⟩
    intro amount folded' harmed hamount
    cases harmed
    rw [hchain e he hamount]
    exact Nat.zero_le _
  armed amount folded' harmed := by
    cases harmed
    exact hfolded
  base v hv hnot := by
    rcases List.mem_append.mp hv with hnew | hold
    · exact absurd (List.mem_append_left _ hnew) hnot
    · exact h.base v hold fun hmem => hnot (List.mem_append_right _ hmem)
  top v hv i hi := by
    change _ ≤ max _ next
    have hi : b.Shown v.commit.chainRoot i := hi
    apply le_trans _ (le_max_right _ _)
    rcases List.mem_append.mp hv with hnew | hold
    · -- The new voucher's chain has accrued nothing under it.
      rcases hsent v hnew with ⟨hamount, hcommit, hle⟩
      rw [hamount, hcommit]
      rw [hcommit] at hi
      cases he : b.chain with
      | none => simp [ChainCommit.ofSlot, ChainCommit.sealed]
      | some e =>
        rw [he] at hi
        have hdepth : i ≤ e.released := (h.chain e he).shown_le he hi
        have hzero := hchain e he hle
        have hmul : i * e.chunkPrice ≤ e.released * e.chunkPrice := Nat.mul_le_mul_right _ hdepth
        simp only [ChainCommit.ofSlot]
        omega
    · exact hnext _ (h.claim_small hold hi) (h.top v hold i hi)

/-- The voucher in doubt becomes the anchor, and what it folded leaves the
accrual. -/
theorem Balanced.confirm {amount folded : Nat} (h : Balanced b)
    (harmed : b.armed = some (amount, folded)) :
    Balanced { b with
      since := [], committed := amount, accrued := b.accrued - folded, armed := none } := by
  have hfolded := h.armed amount folded harmed
  have hbelow : ∀ v ∈ b.held, b.Below v (amount + (b.accrued - folded)) := by
    intro v hv i hi
    have hsmall := h.claim_small hv hi
    have htop := h.top v hv i hi
    simp only [Books.armedAmount, harmed, Option.map_some, Option.getD_some] at htop
    unfold U256.saturatingAdd U256.modulus at hfolded
    omega
  constructor
  · exact h.fits
  · exact h.revealed_le
  · intro e he
    exact ⟨(h.chain e he).price_le, (h.chain e he).released_le, (h.chain e he).deepest,
      (h.chain e he).price_eq⟩
  · intro e he
    exact ⟨(h.accrual e he).2 amount folded harmed, nofun⟩
  · exact nofun
  · intro v hv _
    exact hbelow v hv
  · intro v hv i hi
    exact le_trans (hbelow v hv i hi) (le_max_left _ _)

/-- The anchor re-stated under the live root. -/
theorem Balanced.reanchor {e : ChainEpoch} (h : Balanced b) (he : b.chain = some e)
    (hamount : v.next.amount = b.committed) (hcommit : v.commit = .ofSlot b.chain)
    (hfits : b.committed ≤ u64Max) : Balanced { b with held := v :: b.held } := by
  rw [he] at hcommit
  have hbelow : b.Below v (b.committed + b.accrued) := by
    intro i hi
    rw [hcommit] at hi ⊢
    have hdepth : i ≤ e.released := (h.chain e he).shown_le he hi
    have hmul : i * e.chunkPrice ≤ e.released * e.chunkPrice := Nat.mul_le_mul_right _ hdepth
    have haccrual := (h.accrual e he).1 hfits
    simp only [ChainCommit.ofSlot]
    omega
  constructor
  · intro u hu
    rcases List.mem_cons.mp hu with rfl | hold
    · rw [hamount, hcommit]
      exact ⟨hfits, (h.chain e he).price_le⟩
    · exact h.fits u hold
  · exact h.revealed_le
  · intro e' he'
    refine ⟨(h.chain e' he').price_le, (h.chain e' he').released_le, (h.chain e' he').deepest, ?_⟩
    intro u hu hroot
    rcases List.mem_cons.mp hu with rfl | hold
    · rw [hcommit]
      rw [show b.chain = some e' from he'] at he
      cases he
      rfl
    · exact (h.chain e' he').price_eq u hold hroot
  · exact h.accrual
  · exact h.armed
  · intro u hu hnot
    rcases List.mem_cons.mp hu with rfl | hold
    · exact hbelow
    · exact h.base u hold hnot
  · intro u hu i hi
    rcases List.mem_cons.mp hu with rfl | hold
    · exact le_trans (hbelow i hi) (le_max_left _ _)
    · exact h.top u hold i hi

/-- One more chunk of the live chain, while no voucher in doubt claims more than
the anchor and the accrual. -/
theorem Balanced.meter {e : ChainEpoch} (h : Balanced b) (he : b.chain = some e)
    (hindex : e.released + 1 ≤ maxChainLength) (harmed : b.armedAmount ≤ b.committed + b.accrued) :
    Balanced { b with
      revealed := (e.root, e.released + 1) :: b.revealed
      accrued := U256.saturatingAdd b.accrued e.chunkPrice
      chain := some { e with released := e.released + 1 } } := by
  have hok := h.chain e he
  have hsmall := accrual_small hok.price_le hindex
  have hmul : (e.released + 1) * e.chunkPrice = e.released * e.chunkPrice + e.chunkPrice := by
    rw [Nat.add_mul, Nat.one_mul]
  -- The next depth costs one price more than the current one, under this root only.
  have hnext : ∀ (u : Issue) (bound : Nat), u ∈ b.held → b.Below u bound →
      bound ≤ b.committed + b.accrued →
      ∀ i, Books.Shown { b with
        revealed := (e.root, e.released + 1) :: b.revealed
        accrued := U256.saturatingAdd b.accrued e.chunkPrice
        chain := some { e with released := e.released + 1 } } u.commit.chainRoot i →
      u.next.amount + i * u.commit.chunkPrice ≤
        b.committed + U256.saturatingAdd b.accrued e.chunkPrice := by
    intro u bound hu hbelow hbound i hi
    have hdeeper : u.commit.chainRoot = e.root → i = e.released + 1 →
        u.next.amount + i * u.commit.chunkPrice ≤
          b.committed + U256.saturatingAdd b.accrued e.chunkPrice := by
      intro hroot hi
      have hold := hbelow e.released (.inr (.inr ⟨e, he, hroot.symm, rfl⟩))
      have hamount := (h.fits u hu).1
      rw [hok.price_eq u hu hroot] at hold ⊢
      rw [hi, hmul]
      unfold U256.saturatingAdd U256.modulus
      unfold u64Max at hamount
      omega
    rcases hi with hzero | hmem | ⟨e', he', hroot, hreleased⟩
    · have hold := hbelow i (.inl hzero)
      have hclaim := h.claim_small hu (.inl hzero)
      unfold U256.saturatingAdd U256.modulus
      omega
    · rcases List.mem_cons.mp hmem with hnew | hold
      · rcases Prod.mk.inj hnew with ⟨hroot, hi⟩
        exact hdeeper hroot hi
      · have hclaim := h.claim_small hu (.inr (.inl hold))
        have hold := hbelow i (.inr (.inl hold))
        unfold U256.saturatingAdd U256.modulus
        omega
    · cases he'
      exact hdeeper hroot.symm hreleased
  constructor
  · exact h.fits
  · intro root i hmem
    rcases List.mem_cons.mp hmem with hnew | hold
    · rcases Prod.mk.inj hnew with ⟨-, rfl⟩
      exact hindex
    · exact h.revealed_le root i hold
  · intro e' he'
    cases he'
    refine ⟨hok.price_le, hindex, ?_, hok.price_eq⟩
    intro i hmem
    rcases List.mem_cons.mp hmem with hnew | hold
    · rcases Prod.mk.inj hnew with ⟨-, rfl⟩
      exact le_rfl
    · exact Nat.le_succ_of_le (hok.deepest i hold)
  · intro e' he'
    cases he'
    rw [hmul]
    rw [hmul] at hsmall
    constructor
    · intro hcommitted
      have hold := (h.accrual e he).1 hcommitted
      unfold U256.saturatingAdd U256.modulus
      dsimp only
      omega
    · intro amount folded hdoubt hamount
      have hdoubt : b.armed = some (amount, folded) := hdoubt
      have hold := (h.accrual e he).2 amount folded hdoubt hamount
      have hfolded := h.armed amount folded hdoubt
      simp only [Books.armedAmount, hdoubt, Option.map_some, Option.getD_some] at harmed
      unfold U256.saturatingAdd U256.modulus at hfolded ⊢
      unfold u64Max at hamount
      dsimp only
      omega
  · exact h.armed
  · intro u hu hnot
    exact hnext u _ hu (h.base u hu hnot) le_rfl
  · intro u hu i hi
    apply le_trans _ (le_max_left _ _)
    exact hnext u _ hu (h.top u hu) (max_le le_rfl harmed) i hi

end Decdn.Client
