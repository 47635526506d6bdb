import Decdn.Client.Resume
import Decdn.Session.Reading

/-!
# Reopening a lane

A payer without a live chain opens one over what its ledger settles at, and one
that meters a chain re-states its anchor under it.  Either way the node installs
the chain only over a claim that restates the lane's anchor before anything is
proved past it, or that folds the lane's claim and pays the rate for the span.

Main results:

- Theorem `verifyVoucher_opened`, Theorem `reopens_of_verified`: which opening
  vouchers a lane installs the chain of.
- Theorem `taken_iff`: which openings a lane takes, with the reveal behind them.
- Theorem `opensOver_stands`, Theorem `opensOver_meters`: what a ledger's next
  opening claims.
-/

namespace Decdn.Session

open PaymentPool (Crypto)
open Incentive Client Node
open PoolLedger (Issue)

variable {H : Crypto} {s : LaneState} {l : PoolLedger} {c : Cumulative}
  {ratePerMb : UInt64}

/-- The wire voucher carries what an issue signs. -/
structure Writes (wire : WireVoucher) (v : Issue) : Prop where
  amount : wire.amount.toNat = v.next.amount
  bytes : wire.bytesDelivered.toNat = v.next.bytes
  root : wire.chainRoot = v.commit.chainRoot
  price : wire.chunkPrice.toNat = v.commit.chunkPrice

/-- A ledger's next opening as the node reads it: it names a chain that the lane does not hold, and
the cap covers it and the reveal behind it. -/
structure NextOpening (H : Crypto) (s : LaneState) (ratePerMb : UInt64) (l : PoolLedger)
    (chainSeed : Bytes32) (wire : WireVoucher) (sv : SignedVoucher) : Prop where
  writes : Writes wire (l.opening ratePerMb.toNat (preimageAt H chainSeed)).2
  signed : wireVoucherToSigned wire s.poolId s.signer s.provider = some sv
  root_ne_zero : wire.chainRoot ≠ 0
  root_ne : wire.chainRoot ≠ s.chain.chainRoot
  within_cap : l.settlement.amount + ratePerMb.toNat ≤ s.cap

/-- The lane takes it: the voucher, its chain and the next reveal of that chain, unless the chain
is spent. -/
def Taken (H : Crypto) (s : LaneState) (ratePerMb : UInt64) (l : PoolLedger) (chainSeed : Bytes32)
    (wire : WireVoucher) (sv : SignedVoucher) (cumulativeBytes : Nat)
    (walked : Option (Nat × Bytes32)) : Prop :=
  ∃ verified, verifyVoucher s cumulativeBytes sv wire ratePerMb = .ok verified ∧
    verified.nextState.chain.chainRoot = wire.chainRoot ∧
    ((l.opening ratePerMb.toNat (preimageAt H chainSeed)).1.meterRead (some wire.chainRoot) =
        .exhausted ∨
      ∃ released chunkPrice next applied,
        (l.opening ratePerMb.toNat (preimageAt H chainSeed)).1.meterRead (some wire.chainRoot) =
          .released released chunkPrice ∧
        verified.nextState.advancePreimageVerified H released.chainRoot (.ofNat released.index)
          released.preimage walked
          (LaneState.walk H (.ofNat released.index) released.preimage walked) =
            .ok (next, applied) ∧
        applied.advanced = true)

/-- A claim is the lane's own anchor, with nothing proved past it. -/
structure Restates (s : LaneState) (c : Cumulative) : Prop where
  amount : c.amount = s.lastAmount
  bytes : c.bytes = s.lastBytesDelivered
  unproved : s.chain.verifiedIndex = 0

/-- A claim folds the lane's claim, and pays the rate for what it adds to the anchor. -/
structure Folds (s : LaneState) (ratePerMb : UInt64) (c : Cumulative) : Prop where
  amount_lt : s.lastAmount < c.amount
  bytes_le : s.lastBytesDelivered ≤ c.bytes
  owed_le : s.owed ≤ c.amount
  owedBytes_le : s.owedBytes ≤ c.bytes
  paid : verifyRate (c.amount - s.lastAmount) (c.bytes - s.lastBytesDelivered) ratePerMb.toNat
    defaultToleranceBps = .ok ()

/-- A claim that the lane opens a chain over. -/
def Reopens (s : LaneState) (ratePerMb : UInt64) (c : Cumulative) : Prop :=
  Restates s c ∨ Folds s ratePerMb c

/-- The signed voucher is what the wire carries. -/
theorem signed_writes {wire : WireVoucher} {sv : SignedVoucher} {v : Issue} (hv : Writes wire v)
    (hsv : wireVoucherToSigned wire s.poolId s.signer s.provider = some sv) :
    sv.voucher.amount = v.next.amount ∧ sv.voucher.bytesDelivered = v.next.bytes ∧
      sv.voucher.chainRoot = v.commit.chainRoot ∧ sv.voucher.chunkPrice = v.commit.chunkPrice := by
  unfold wireVoucherToSigned at hsv
  rw [Option.map_eq_some_iff] at hsv
  rcases hsv with ⟨signature, -, rfl⟩
  exact ⟨hv.amount, hv.bytes, hv.root, hv.price⟩

/-- A voucher of nothing more signs the claim it is over, when it fits the wire. -/
theorem opened_next {ratePerMb : Nat}
    (hamount : (nextVoucher (c.plus .zero) 0 ratePerMb).amount ≤ u64Max)
    (hbytes : (nextVoucher (c.plus .zero) 0 ratePerMb).bytes ≤ u64Max) :
    nextVoucher (c.plus .zero) 0 ratePerMb = c ∧ c.plus .zero = c := by
  have hzero : (U256.saturatingMul 0 ratePerMb + (mbBytes - 1)) / mbBytes = 0 := by
    unfold U256.saturatingMul mbBytes
    rw [Nat.zero_mul]
    omega
  unfold nextVoucher Cumulative.plus at hamount hbytes ⊢
  rw [hzero] at hamount ⊢
  unfold Cumulative.zero U256.saturatingAdd U256.modulus at *
  unfold u64Max at hamount hbytes
  dsimp only at hamount hbytes ⊢
  cases c with
  | mk bytes amount =>
    dsimp only at hamount hbytes ⊢
    constructor
    · congr 1
      · omega
      · omega
    · congr 1
      · omega
      · omega

/-- The lane after it has taken an opening voucher. -/
structure Opened (s : LaneState) (root : Bytes32) (ratePerMb : UInt64) (c : Cumulative)
    (s' : LaneState) : Prop where
  chain : s'.chain = LaneChain.opened root ratePerMb.toNat
  amount : s'.lastAmount = c.amount
  cap : s'.cap = s.cap

variable {wire : WireVoucher} {sv : SignedVoucher} {root : Bytes32}

/-- An opening over a claim that the lane opens a chain over is taken. -/
theorem verifyVoucher_opened (hwire : WireLane s)
    (hv : Writes wire ⟨c, ⟨root, ratePerMb.toNat⟩⟩)
    (hsv : wireVoucherToSigned wire s.poolId s.signer s.provider = some sv) (hzero : root ≠ 0)
    (hfresh : root ≠ s.chain.chainRoot) (hcap : c.amount ≤ s.cap)
    (hc : Reopens s ratePerMb c) (cumulativeBytes : Nat) :
    ∃ verified, verifyVoucher s cumulativeBytes sv wire ratePerMb = .ok verified ∧
      Opened s root ratePerMb c verified.nextState := by
  rcases signed_writes hv hsv with ⟨hamount, hbytes, hroot, hprice⟩
  dsimp only at hamount hbytes hroot hprice
  have hwireAmount : wire.amount.toNat = c.amount := hv.amount
  have hwireBytes : wire.bytesDelivered.toNat = c.bytes := hv.bytes
  rcases hc with hrestates | hfolds
  · have howed : s.owed = s.lastAmount := by
      rw [hwire.owed_eq.1, hrestates.unproved]
      exact Nat.add_zero _
    have hregress : s.advancePresigned sv =
        .error (.amountRegression s.lastAmount sv.voucher.amount) :=
      advancePresigned_regress (le_of_eq (hamount.trans hrestates.amount))
        fun heq => .inr (.inr (by rw [howed, heq]))
    have hadopt : s.adoptChain sv = some { s with
        chain := LaneChain.opened sv.voucher.chainRoot sv.voucher.chunkPrice
        lastSignature := some sv.signature } := by
      unfold LaneState.adoptChain
      dsimp only
      rw [if_neg (by rw [hroot]; exact hzero), if_neg (by rw [hroot]; exact fun h => hfresh h.symm),
        if_neg (by rw [hrestates.unproved]; exact Nat.lt_irrefl 0), if_neg]
      rw [hamount, hbytes, hrestates.amount, hrestates.bytes]
      simp
    refine ⟨⟨(s.adoptChain sv).getD s, cumulativeBytes, wire.amount⟩, ?_, ?_⟩
    · unfold verifyVoucher
      rw [hregress]
      dsimp only
      rw [if_neg]
      rw [hwireAmount, hwireBytes, hrestates.amount, hrestates.bytes]
      simp
    · dsimp only
      rw [hadopt, hroot, hprice]
      exact ⟨rfl, hrestates.amount.symm, rfl⟩
  · have hroll := advancePresigned_roll
      (show sv.voucher.chainRoot ≠ s.chain.chainRoot by rw [hroot]; exact hfresh)
      (by rw [hamount]; exact hfolds.amount_lt) (by rw [hbytes]; exact hfolds.bytes_le)
      (by rw [hamount]; exact hcap) (by rw [hamount]; exact hfolds.owed_le)
      (by rw [hbytes]; exact hfolds.owedBytes_le)
    have hrate : verifyRate (sv.voucher.amount - s.lastAmount)
        (sv.voucher.bytesDelivered - s.lastBytesDelivered) ratePerMb.toNat
        defaultToleranceBps = .ok () := by
      rw [hamount, hbytes]
      exact hfolds.paid
    generalize hrolled : ({ s with
        chain := LaneChain.opened sv.voucher.chainRoot sv.voucher.chunkPrice
        lastAmount := sv.voucher.amount
        lastBytesDelivered := sv.voucher.bytesDelivered
        lastSignature := some sv.signature } : LaneState) = rolled at hroll
    refine ⟨⟨rolled, max rolled.owedBytes wire.bytesDelivered.toNat, wire.amount⟩, ?_, ?_⟩
    · unfold verifyVoucher
      rw [hroll]
      dsimp only
      rw [hrate]
    · dsimp only
      rw [← hrolled, hroot, hprice]
      exact ⟨rfl, hamount, rfl⟩

/-- A lane that takes a voucher's chain opens it over the voucher's claim. -/
theorem reopens_of_verified {verified : VerifiedVoucher} {cumulativeBytes : Nat}
    (hv : Writes wire ⟨c, ⟨root, ratePerMb.toNat⟩⟩)
    (hsv : wireVoucherToSigned wire s.poolId s.signer s.provider = some sv)
    (hfresh : root ≠ s.chain.chainRoot)
    (h : verifyVoucher s cumulativeBytes sv wire ratePerMb = .ok verified)
    (hadopted : verified.nextState.chain.chainRoot = root) : Reopens s ratePerMb c := by
  rcases signed_writes hv hsv with ⟨hamount, hbytes, hroot, -⟩
  dsimp only at hamount hbytes hroot
  unfold verifyVoucher at h
  split at h
  · rename_i next applied hadvance
    split at h
    · rename_i hrate
      rcases advancePresigned_cases hadvance with ⟨rfl, hbump | hroll⟩
      · exact absurd (hroot.symm.trans hbump.root_eq) hfresh
      · rw [hamount, hbytes] at hrate
        exact .inr ⟨hamount ▸ hroll.amount_lt, hbytes ▸ hroll.bytes_le, hamount ▸ hroll.folds,
          hbytes ▸ hroll.folds_bytes, hrate⟩
    · cases h
    · cases h
  · split at h
    · cases h
    · cases h
      cases hadopt : s.adoptChain sv with
      | none =>
        rw [hadopt] at hadopted
        exact absurd hadopted.symm hfresh
      | some s' =>
        rcases adoptChain_cases hadopt with hanchor | hreopen
        · exact absurd (hroot.symm.trans hanchor.root_eq.symm) hfresh
        · exact .inl ⟨hamount.symm.trans hreopen.amount_eq, hbytes.symm.trans hreopen.bytes_eq,
            hreopen.unproved⟩
  · split at h <;> cases h

/-- A preimage under the new chain is folded. -/
theorem reveal_opened {s' : LaneState} {preimage : Bytes32} {depth : Nat}
    (h : Opened s root ratePerMb c s') (hzero : root ≠ 0) (hdepth : depth < maxChainLength)
    (hwalks : hashForward H preimage (depth + 1) = root)
    (hcap : c.amount + depth * ratePerMb.toNat + ratePerMb.toNat ≤ s.cap)
    (walked : Option (Nat × Bytes32)) :
    ∃ next applied,
      s'.advancePreimageVerified H root (.ofNat (depth + 1)) preimage walked
        (LaneState.walk H (.ofNat (depth + 1)) preimage walked) = .ok (next, applied) ∧
      applied.advanced = true := by
  have hsmall := toNat_le_u64Max ratePerMb
  unfold maxChainLength at hdepth
  unfold u64Max at hsmall
  have hindex : (UInt8.ofNat (depth + 1)).toNat = depth + 1 := by
    rw [UInt8.toNat_ofNat']
    omega
  have hprice : s'.chain.chunkPrice = ratePerMb.toNat := by rw [h.chain]; rfl
  have hunproved : s'.chain.verifiedIndex = 0 := by rw [h.chain]; rfl
  have hchainRoot : root = s'.chain.chainRoot := by rw [h.chain]; rfl
  have htip : s'.chain.tip = root := by rw [h.chain]; rfl
  have hproduct : ratePerMb.toNat * (depth + 1) ≤ 18446744073709551615 * 256 :=
    Nat.mul_le_mul hsmall (by omega)
  have hmul : U256.wrappingMul s'.chain.chunkPrice (depth + 1) =
      depth * ratePerMb.toNat + ratePerMb.toNat := by
    rw [hprice, U256.wrappingMul_eq (by unfold U256.modulus; omega), Nat.mul_comm, Nat.succ_mul]
  have hclaimed := U256.saturatingAdd_le c.amount (depth * ratePerMb.toNat + ratePerMb.toNat)
  have hdeeper := advancePreimageVerified_deeper (s := s') walked hzero hchainRoot
    (by rw [hunproved, hindex]; exact Nat.succ_pos _)
    (by rw [hunproved, hindex, htip]; exact hwalks)
    (by
      unfold LaneChain.accrued
      dsimp only
      rw [hindex, hmul, h.amount, h.cap]
      omega)
  refine ⟨_, _, hdeeper, ?_⟩
  have hbytes : U256.wrappingMul chunkBytes (depth + 1) ≠ 0 := by
    unfold U256.wrappingMul U256.modulus chunkBytes
    omega
  unfold Applied.advanced
  rw [hunproved, hindex, Nat.sub_zero, Bool.or_eq_true, decide_eq_true_eq, decide_eq_true_eq]
  exact .inr hbytes

/-- An opening over a claim, under a ladder released to some depth, is taken exactly when the lane
opens a chain over the claim. -/
theorem taken_iff {chainSeed ladder : Bytes32} {depth cumulativeBytes : Nat}
    {walked : Option (Nat × Bytes32)} (hwire : WireLane s)
    (hv : Writes wire ⟨c, ⟨preimageAt H ladder 0, ratePerMb.toNat⟩⟩)
    (hsv : wireVoucherToSigned wire s.poolId s.signer s.provider = some sv)
    (hzero : wire.chainRoot ≠ 0) (hfresh : wire.chainRoot ≠ s.chain.chainRoot)
    (hepoch : (l.opening ratePerMb.toNat (preimageAt H chainSeed)).1.epoch =
      some ⟨preimageAt H ladder, ratePerMb.toNat, depth⟩)
    (hcap : c.amount + depth * ratePerMb.toNat + ratePerMb.toNat ≤ s.cap) :
    Taken H s ratePerMb l chainSeed wire sv cumulativeBytes walked ↔ Reopens s ratePerMb c := by
  have hroot := hv.root
  dsimp only at hroot
  rw [hroot] at hzero hfresh
  constructor
  · rintro ⟨verified, hok, hadopted, -⟩
    rw [hroot] at hadopted
    exact reopens_of_verified hv hsv hfresh hok hadopted
  · intro hreopens
    rcases verifyVoucher_opened hwire hv hsv hzero hfresh (by omega) hreopens cumulativeBytes with
      ⟨verified, hok, hopened⟩
    have hadopted : verified.nextState.chain.chainRoot = wire.chainRoot := by
      rw [hopened.chain, hroot]
      unfold LaneChain.opened
      dsimp only
    refine ⟨verified, hok, hadopted, ?_⟩
    have hanchored : some wire.chainRoot =
        some (ChainEpoch.mk (preimageAt H ladder) ratePerMb.toNat depth).root := by
      rw [hroot, root_mk]
    rw [hanchored]
    by_cases hless : depth < maxChainLength
    · have hwalks : hashForward H (preimageAt H ladder (depth + 1)) (depth + 1) =
          preimageAt H ladder 0 := by
        have hwalked : hashForward H (preimageAt H ladder (depth + 1)) (depth + 1 - 0) =
            preimageAt H ladder 0 :=
          hashForward_preimageAt ladder (Nat.zero_le _) (Nat.succ_le_of_lt hless)
        rwa [Nat.sub_zero] at hwalked
      rcases reveal_opened hopened hzero hless hwalks hcap walked with
        ⟨next, applied, hreveal, hmoved⟩
      refine .inr ⟨_, _, next, applied, meterRead_eq hepoch hless, ?_, hmoved⟩
      dsimp only
      rw [root_mk]
      exact hreveal
    · exact .inl (meterRead_spent hepoch hless)

/-- A ledger's next opening states a claim: the lane takes it exactly when it opens a chain over
that claim. -/
def OpensOver (H : Crypto) (s : LaneState) (ratePerMb : UInt64) (l : PoolLedger)
    (c : Cumulative) : Prop :=
  ∀ (chainSeed : Bytes32) (wire : WireVoucher) (sv : SignedVoucher) (cumulativeBytes : Nat)
    (walked : Option (Nat × Bytes32)), NextOpening H s ratePerMb l chainSeed wire sv →
      (Taken H s ratePerMb l chainSeed wire sv cumulativeBytes walked ↔ Reopens s ratePerMb c)

/-- A ledger that stands at a claim opens over it. -/
theorem opensOver_stands (hwire : WireLane s) (hstands : StandsAt l c) :
    OpensOver H s ratePerMb l c := by
  intro chainSeed wire sv cumulativeBytes walked hnext
  rcases opening_stands hstands ratePerMb.toNat (preimageAt H chainSeed) with ⟨hissue, hepoch⟩
  have hwrites := hnext.writes
  rw [hissue] at hwrites
  rcases opened_next (by rw [← hwrites.amount]; exact toNat_le_u64Max _)
    (by rw [← hwrites.bytes]; exact toNat_le_u64Max _) with ⟨hclaim, hplus⟩
  rw [hclaim] at hwrites
  have hcap := hnext.within_cap
  have hsettled : l.settlement = c := by
    unfold PoolLedger.settlement Pipeline.settlement Pipeline.owed
    rw [hstands.armed, hstands.committed, hstands.accrued]
    exact hplus
  rw [hsettled] at hcap
  exact taken_iff hwire hwrites hnext.signed hnext.root_ne_zero hnext.root_ne hepoch (by omega)

/-- A ledger that meters a chain opens over its anchor. -/
theorem opensOver_meters {seed : Cumulative} {chainSeed : Bytes32} {depth : Nat}
    (hwire : WireLane s) (hmeters : MetersChain H ratePerMb seed chainSeed depth l) :
    OpensOver H s ratePerMb l l.pipeline.committed := by
  intro chainSeed' wire sv cumulativeBytes walked hnext
  have hopening := opening_meters hmeters (preimageAt H chainSeed')
  have hwrites := hnext.writes
  rw [hopening] at hwrites
  have hamount : wire.amount.toNat = l.pipeline.committed.amount := hwrites.amount
  have hsmall := toNat_le_u64Max wire.amount
  have hcap := hnext.within_cap
  rcases accrual_lt hmeters.depth_le ratePerMb with ⟨-, haccrual⟩
  have hsettled : l.settlement.amount =
      l.pipeline.committed.amount + depth * ratePerMb.toNat := by
    have hrate := toNat_le_u64Max ratePerMb
    have hproduct : depth * ratePerMb.toNat ≤ maxChainLength * u64Max :=
      Nat.mul_le_mul hmeters.depth_le hrate
    rw [hmeters.untouched.settlement_eq]
    unfold Pipeline.owed Cumulative.plus
    rw [hmeters.accrued]
    refine U256.saturatingAdd_eq ?_
    unfold maxChainLength at hproduct
    unfold u64Max at hsmall hproduct
    unfold U256.modulus
    dsimp only
    omega
  rw [hsettled] at hcap
  exact taken_iff hwire hwrites hnext.signed hnext.root_ne_zero hnext.root_ne
    (by rw [hopening]; exact hmeters.epoch) hcap

end Decdn.Session
