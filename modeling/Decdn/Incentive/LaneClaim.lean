import Decdn.Incentive.LaneSpec
import Decdn.PaymentPool.Solvency

/-!
# The lane's claim over a run

What a lane is owed is its signed anchor plus `verified_index * chunk_price`,
and every event changes another half of it.  The byte axis never shrinks.  The
money axis keeps its value under every event except one: a voucher under the
live root brings its own price and keeps the frontier, so a price cut that the
raise of the anchor does not cover takes value away.

Main results:

- Theorem `WireLane.step`: on the wire's 64-bit vouchers no counter of a lane
  overflows.
- Theorem `claim_mono_iff`: exactly when an accepted step keeps the claim, and
  that runs of such steps keep it.
-/

namespace Decdn.Incentive

open PaymentPool (Crypto)

variable {H : Crypto} {s s₀ s' : LaneState} {e : LaneEvent}

/-! ## Lanes fed from the wire -/

/-- The vouchers of an event fit the wire. -/
def LaneEvent.FitsWire (_ : LaneState) : LaneEvent → Prop
  | .presigned sv => sv.voucher.FitsWire
  | .adopt sv => sv.voucher.FitsWire
  | _ => True

/-- The bounds of a lane that has only seen the wire's vouchers; without a
signature it has seen none. -/
structure WireLane (s : LaneState) : Prop where
  unsigned : s.lastSignature = none → s.Fresh
  amount_le : s.lastAmount ≤ u64Max
  bytes_le : s.lastBytesDelivered ≤ u64Max
  price_le : s.chain.chunkPrice ≤ u64Max
  index_le : s.chain.verifiedIndex ≤ 255

/-- A fresh lane satisfies the bounds. -/
theorem WireLane.of_fresh (h : s.Fresh) : WireLane s where
  unsigned _ := h
  amount_le := by rw [h.lastAmount]; exact Nat.zero_le _
  bytes_le := by rw [h.lastBytesDelivered]; exact Nat.zero_le _
  price_le := by rw [h.chain]; exact Nat.zero_le _
  index_le := by rw [h.chain]; exact Nat.zero_le _

/-- Every accepted event keeps the bounds. -/
theorem WireLane.step (h : WireLane s) (hwire : e.FitsWire s) (hstep : s.step H e s') :
    WireLane s' := by
  cases LaneState.step_cases hstep with
  | covered => exact h
  | bump hb =>
    rw [hb.state_eq]
    exact ⟨fun hsig => by simp at hsig, hwire.amount_le, hwire.bytesDelivered_le,
      hwire.chunkPrice_le, h.index_le⟩
  | roll hr =>
    rw [hr.state_eq]
    exact ⟨fun hsig => by simp at hsig, hwire.amount_le, hwire.bytesDelivered_le,
      hwire.chunkPrice_le, Nat.zero_le _⟩
  | anchor ha =>
    rw [ha.state_eq]
    exact ⟨fun hsig => by simp at hsig, hwire.amount_le, hwire.bytesDelivered_le,
      hwire.chunkPrice_le, h.index_le⟩
  | reopen hr =>
    rw [hr.state_eq]
    exact ⟨fun hsig => by simp at hsig, h.amount_le, h.bytes_le, hwire.chunkPrice_le,
      Nat.zero_le _⟩
  | @reveal _ root preimage index _ _ hr =>
    rw [hr.state_eq]
    refine ⟨fun hsig => ?_, h.amount_le, h.bytes_le, h.price_le, ?_⟩
    · -- A lane without a signature tracks no root a reveal could name.
      have hnone := (h.unsigned hsig).chain
      have hroot := hr.root_eq
      rw [hnone] at hroot
      exact absurd hroot hr.root_ne_zero
    · have := index.toNat_lt
      dsimp only
      omega
  | clamp =>
    refine ⟨fun hsig => ?_, h.amount_le, h.bytes_le, h.price_le, h.index_le⟩
    have hfresh := h.unsigned hsig
    exact ⟨hfresh.lastAmount, hfresh.lastBytesDelivered, hfresh.lastSignature, hfresh.chain⟩

/-- Below the bounds a lane is owed its anchor plus its frontier, with no
wrap-around. -/
theorem WireLane.owed_eq (h : WireLane s) :
    s.owed = s.lastAmount + s.chain.chunkPrice * s.chain.verifiedIndex ∧
      s.owedBytes = s.lastBytesDelivered + chunkBytes * s.chain.verifiedIndex := by
  have hamount := h.amount_le
  have hbytes := h.bytes_le
  have hindex := h.index_le
  have hproduct : s.chain.chunkPrice * s.chain.verifiedIndex ≤ u64Max * 255 :=
    Nat.mul_le_mul h.price_le hindex
  unfold u64Max at hamount hbytes hproduct
  cases hsig : s.lastSignature with
  | none =>
    have hfresh := h.unsigned hsig
    rw [(owed_of_unsigned hsig).1, (owed_of_unsigned hsig).2, hfresh.lastAmount,
      hfresh.lastBytesDelivered, hfresh.chain]
    exact ⟨rfl, rfl⟩
  | some signature =>
    rw [(owed_of_signed hsig).1, (owed_of_signed hsig).2]
    unfold LaneChain.accrued LaneChain.accruedBytes
    have hprice : s.chain.chunkPrice * s.chain.verifiedIndex < U256.modulus := by
      unfold U256.modulus
      omega
    have hchunk : chunkBytes * s.chain.verifiedIndex < U256.modulus := by
      unfold chunkBytes U256.modulus
      omega
    rw [U256.wrappingMul_eq hprice, U256.wrappingMul_eq hchunk]
    constructor
    · apply U256.wrappingAdd_eq
      unfold U256.modulus
      omega
    · apply U256.wrappingAdd_eq
      unfold chunkBytes U256.modulus
      omega

/-- The byte claim of a wire lane is far below the 256-bit modulus. -/
theorem WireLane.owedBytes_lt (h : WireLane s) : s.owedBytes < 2 ^ 65 := by
  rw [h.owed_eq.2]
  have hbytes := h.bytes_le
  have hindex := h.index_le
  unfold u64Max at hbytes
  unfold chunkBytes
  omega

/-- An adopted voucher leaves the byte claim where it was. -/
theorem WireLane.adopt_owedBytes {sv : SignedVoucher} (h : WireLane s)
    (h' : WireLane s') (hadopt : s.adoptChain sv = some s') : s'.owedBytes = s.owedBytes := by
  rcases adoptChain_cases hadopt with hanchor | hreopen
  · have hroot := hanchor.root_eq
    rw [(h.unsigned hanchor.unsigned).chain] at hroot
    exact absurd hroot.symm hanchor.root_ne_zero
  · rw [h.owed_eq.2, h'.owed_eq.2, hreopen.unproved, hreopen.state_eq]
    rfl

/-! ## The money axis -/

/-- A voucher under the live root raises the anchor by at least what its price
cut takes from the frontier. -/
def LaneEvent.Covers (s : LaneState) : LaneEvent → Prop
  | .presigned sv =>
    sv.voucher.chainRoot = s.chain.chainRoot →
      s.chain.verifiedIndex * (s.chain.chunkPrice - sv.voucher.chunkPrice) ≤
        sv.voucher.amount - s.lastAmount
  | _ => True

/-- The cut of a price against a raise of the anchor, without subtraction. -/
theorem cut_le_raise_iff {index price price' amount amount' : Nat} (h : amount < amount') :
    index * (price - price') ≤ amount' - amount ↔
      amount + price * index ≤ amount' + price' * index := by
  rw [Nat.mul_sub, Nat.mul_comm index price, Nat.mul_comm index price']
  omega

/-- What one accepted event does to the claim of a lane within the bounds. -/
theorem WireLane.claim_step (h : WireLane s) (hwire : e.FitsWire s) (hstep : s.step H e s') :
    s.owedBytes ≤ s'.owedBytes ∧ (s.owed ≤ s'.owed ↔ e.Covers s) ∧
      (s'.chain.chainRoot ≠ s.chain.chainRoot →
        s.owed ≤ s'.lastAmount ∧ s.owedBytes ≤ s'.lastBytesDelivered) := by
  have hbefore := h.owed_eq
  have hafter := (h.step hwire hstep).owed_eq
  cases LaneState.step_cases hstep with
  | covered he =>
    refine ⟨le_rfl, ⟨fun _ => ?_, fun _ => le_rfl⟩, fun hne => absurd rfl hne⟩
    cases he <;> trivial
  | bump hb =>
    rw [hb.state_eq] at hafter ⊢
    have hbytes := hb.bytes_le
    refine ⟨?_, ?_, fun hne => absurd rfl hne⟩
    · rw [hbefore.2, hafter.2]
      dsimp only
      omega
    · rw [hbefore.1, hafter.1]
      simp only [LaneEvent.Covers, hb.root_eq, true_implies]
      exact (cut_le_raise_iff hb.amount_lt).symm
  | roll hr =>
    have hamount : s'.lastAmount = _ := congrArg LaneState.lastAmount hr.state_eq
    have hbytes : s'.lastBytesDelivered = _ := congrArg LaneState.lastBytesDelivered hr.state_eq
    have hindex : s'.chain.verifiedIndex = 0 := by rw [hr.state_eq]; rfl
    rw [hindex, hamount, hbytes, Nat.mul_zero, Nat.mul_zero, Nat.add_zero, Nat.add_zero] at hafter
    rw [hafter.1, hafter.2, hamount, hbytes]
    refine ⟨hr.folds_bytes, ?_, fun _ => ⟨hr.folds, hr.folds_bytes⟩⟩
    exact ⟨fun _ heq => absurd heq hr.root_ne, fun _ => hr.folds⟩
  | anchor ha =>
    rcases owed_of_unsigned ha.unsigned with ⟨howed, hbytes⟩
    rw [howed, hbytes]
    refine ⟨Nat.zero_le _, ?_, fun _ => ⟨Nat.zero_le _, Nat.zero_le _⟩⟩
    exact ⟨fun _ => trivial, fun _ => Nat.zero_le _⟩
  | reopen hr =>
    have hamount : s'.lastAmount = s.lastAmount := by rw [hr.state_eq]
    have hbytes : s'.lastBytesDelivered = s.lastBytesDelivered := by rw [hr.state_eq]
    have hindex : s'.chain.verifiedIndex = 0 := by rw [hr.state_eq]; rfl
    rw [hindex, hamount, hbytes, Nat.mul_zero, Nat.mul_zero, Nat.add_zero, Nat.add_zero] at hafter
    rw [hr.unproved, Nat.mul_zero, Nat.mul_zero, Nat.add_zero, Nat.add_zero] at hbefore
    rw [hbefore.1, hbefore.2, hafter.1, hafter.2, hamount, hbytes]
    exact ⟨le_rfl, ⟨fun _ => trivial, fun _ => le_rfl⟩, fun _ => ⟨le_rfl, le_rfl⟩⟩
  | @reveal _ root preimage index _ he hr =>
    have hdeeper := hr.deeper
    rw [hr.state_eq] at hafter ⊢
    rw [hbefore.1, hbefore.2, hafter.1, hafter.2]
    refine ⟨?_, ⟨fun _ => ?_, fun _ => ?_⟩, fun hne => absurd rfl hne⟩
    · unfold chunkBytes
      dsimp only
      omega
    · cases he <;> trivial
    · exact Nat.add_le_add_left (Nat.mul_le_mul_left _ (Nat.le_of_lt hdeeper)) _
  | clamp =>
    rw [hbefore.1, hbefore.2, hafter.1, hafter.2]
    exact ⟨le_rfl, ⟨fun _ => trivial, fun _ => le_rfl⟩, fun hne => absurd rfl hne⟩

/-! ## Runs -/

/-- A lane reached from a fresh one by the wire's vouchers is within the bounds. -/
theorem WireLane.of_reaches (hfresh : s₀.Fresh)
    (hrun : Reaches (LaneState.step H) (fun s e => e.FitsWire s) s₀ s) : WireLane s :=
  hrun.invariant (WireLane.of_fresh hfresh) fun _ _ _ hwire hstep h => h.step hwire hstep

/-- In every reachable lane an accepted step keeps the byte claim, keeps the
money claim exactly when a voucher under the live root covers its own price cut,
and retires a chain only for a voucher that folds it; over runs of such steps
neither claim ever shrinks. -/
theorem claim_mono_iff (hfresh : s₀.Fresh)
    (hrun : Reaches (LaneState.step H) (fun s e => e.FitsWire s) s₀ s) :
    (∀ e s', e.FitsWire s → s.step H e s' →
      s.owedBytes ≤ s'.owedBytes ∧ (s.owed ≤ s'.owed ↔ e.Covers s) ∧
        (s'.chain.chainRoot ≠ s.chain.chainRoot →
          s.owed ≤ s'.lastAmount ∧ s.owedBytes ≤ s'.lastBytesDelivered)) ∧
    (∀ t, Reaches (LaneState.step H) (fun s e => e.FitsWire s ∧ e.Covers s) s t →
      s.owed ≤ t.owed ∧ s.owedBytes ≤ t.owedBytes) := by
  have hlane := WireLane.of_reaches hfresh hrun
  constructor
  · intro e s' hwire hstep
    exact hlane.claim_step hwire hstep
  · intro t hmore
    constructor
    · apply hmore.measure_le hlane
      · intro a e b hguard hstep ha
        exact ha.step hguard.1 hstep
      · intro a e b hguard hstep ha
        exact (ha.claim_step hguard.1 hstep).2.1.mpr hguard.2
    · apply hmore.measure_le hlane
      · intro a e b hguard hstep ha
        exact ha.step hguard.1 hstep
      · intro a e b hguard hstep ha
        exact (ha.claim_step hguard.1 hstep).1

/-! ## A sample lane

One chain of depth one: the preimage is the zero word and the root its keccak. -/

/-- The root of the sample chain. -/
def sampleRoot : Bytes32 :=
  0x290decd9548b62a8d60345a988386fc84ba6bc95484008f6362f93160ef3e563

/-- A fresh lane with a spending cap of 1000 units. -/
def sampleLane : LaneState where
  poolId := 1
  signer := 2
  provider := 3
  cap := 1000
  expiry := 4000000000

/-- A voucher of the sample chain. -/
def sampleSigned (amount bytesDelivered chunkPrice : Nat) : SignedVoucher where
  voucher :=
    { poolId := 1
      signer := 2
      provider := 3
      amount := amount
      bytesDelivered := bytesDelivered
      chainRoot := sampleRoot
      chunkPrice := chunkPrice }
  signature := ⟨1, 1, false⟩

/-- Signature recovery of the sample vouchers: both digests recover signer `2`. -/
def sampleEcdsa : Ecdsa where
  recoverAddress digest _ := if digest = 3 ∨ digest = BitVec.ofNat 256 (2 ^ 44 + 2) then some 2
    else none

/-- The sample lane after an opening voucher of one unit at price 10. -/
def sampleOpened : LaneState :=
  { sampleLane with
    lastAmount := 1
    lastSignature := some ⟨1, 1, false⟩
    chain := LaneChain.opened sampleRoot 10 }

/-- The sample lane after one reveal on that chain. -/
def sampleRevealed : LaneState :=
  { sampleOpened with chain := ⟨sampleRoot, 10, 1, 0⟩ }

/-- The sample lane gets there under any guard that lets both proofs pass. -/
theorem sampleRevealed_reaches {guard : LaneState → LaneEvent → Prop}
    (hopen : guard sampleLane (.presigned (sampleSigned 1 0 10)))
    (hreveal : guard sampleOpened (.preimage sampleRoot 1 0)) :
    Reaches (LaneState.step PaymentPool.sampleCrypto) guard sampleLane sampleRevealed := by
  have hfirst : sampleLane.step PaymentPool.sampleCrypto (.presigned (sampleSigned 1 0 10))
      sampleOpened := rfl
  have hsecond : sampleOpened.step PaymentPool.sampleCrypto (.preimage sampleRoot 1 0)
      sampleRevealed := rfl
  exact ((Reaches.refl _).tail hopen hfirst).tail hreveal hsecond

/-- A voucher under the live root at a lower price lowers what the lane is owed
from 11 units to 3. -/
theorem owed_shrinks_on_reprice :
    Reaches (LaneState.step PaymentPool.sampleCrypto) (fun s e => e.FitsWire s) sampleLane
        sampleRevealed ∧
      (sampleSigned 2 0 1).voucher.FitsWire ∧ sampleRevealed.owed = 11 ∧
      ∃ s', sampleRevealed.step PaymentPool.sampleCrypto (.presigned (sampleSigned 2 0 1)) s' ∧
        s'.owed = 3 := by
  refine ⟨sampleRevealed_reaches ⟨by decide, by decide, by decide⟩ trivial,
    ⟨by decide, by decide, by decide⟩, rfl, ?_⟩
  exact ⟨_, rfl, rfl⟩

/-- A voucher that cuts the price by 9 and raises the anchor by 11 keeps the
claim of the sample lane. -/
theorem claim_mono_iff_sample :
    ∃ s', sampleRevealed.step PaymentPool.sampleCrypto (.presigned (sampleSigned 12 0 1)) s' ∧
      sampleRevealed.owed ≤ s'.owed := by
  have hfresh : sampleLane.Fresh := ⟨rfl, rfl, rfl, rfl⟩
  have hwire : LaneEvent.FitsWire sampleRevealed (.presigned (sampleSigned 12 0 1)) :=
    ⟨by decide, by decide, by decide⟩
  have hrun : Reaches (LaneState.step PaymentPool.sampleCrypto) (fun s e => e.FitsWire s)
      sampleLane sampleRevealed :=
    sampleRevealed_reaches ⟨by decide, by decide, by decide⟩ trivial
  refine ⟨_, rfl, ?_⟩
  refine ((claim_mono_iff hfresh hrun).1 _ _ hwire rfl).2.1.mpr fun _ => ?_
  decide

end Decdn.Incentive
