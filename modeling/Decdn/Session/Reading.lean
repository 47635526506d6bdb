import Decdn.Session.Chronicle

/-!
# Reading an honest proof

The node's side of the joint invariant: a lane that stands at a position of the
journal takes every item of it, moves to the position the abstract reader moves
to, and credits the stream what the item is worth.

Main results:

- Theorem `PayerAt.verifyVoucher`: a voucher of the journal passes.
- Theorem `PayerAt.commitVoucher`: it is accepted and credited.
- Theorem `PayerAt.commitOnePreimage`: so is a reveal.
-/

namespace Decdn.Session

open PaymentPool (Crypto)
open Incentive Client Node
open PoolLedger (Issue)

variable {ι : Type*} {t : Terms ι} {C : Chronicle ι} {roots : List Bytes32} {l : PoolLedger}
  {P : Position} {lane : LaneDeliveryState} {e : Entry} {v : Issue}

/-! ## Facts of the journal -/

/-- Only the sealed epoch has the zero root. -/
theorem PayerAt.root_eq_zero (h : PayerAt t C roots l) {k : Nat} (hk : k ≤ C.top) :
    (C.chains k).root = 0 ↔ k = 0 := by
  have hzero : (C.chains 0).root = 0 := by
    rw [h.sealed]
    rfl
  constructor
  · intro hroot
    exact h.distinct k 0 hk (Nat.zero_le _) (hroot.trans hzero.symm)
  · rintro rfl
    exact hzero

/-- The price of an epoch. -/
theorem PayerAt.price_eq (h : PayerAt t C roots l) {k : Nat} (hk : k ≤ C.top) :
    (C.chains k).chunkPrice = if k = 0 then 0 else t.ratePerMb.toNat := by
  split
  · rename_i hzero
    rw [hzero, h.sealed]
    rfl
  · exact h.price k (by omega) hk

/-- An entry's epoch is one of the journal. -/
theorem PayerAt.epoch_le (h : PayerAt t C roots l) (he : e ∈ C.journal.entries) :
    e.epoch ≤ C.top :=
  (h.ordered.precedes_last he).epoch_le

/-- What a position has accrued under its epoch's price. -/
theorem PayerAt.index_mul_price (h : PayerAt t C roots l) (hP : P.In C.journal) :
    P.index * (C.chains P.entry.epoch).chunkPrice = P.index * t.ratePerMb.toNat := by
  rw [h.price_eq (h.epoch_le hP.entry_mem)]
  split
  · rename_i hzero
    have hindex := hP.index_le
    rw [hzero, h.ordered.ticks_zero] at hindex
    rw [Nat.le_zero.mp hindex, Nat.zero_mul, Nat.zero_mul]
  · rfl

/-- A position claims no more than the cap, and its bytes are small. -/
theorem PayerAt.position_le (h : PayerAt t C roots l) (hP : P.In C.journal) :
    P.entry.amount + P.index * t.ratePerMb.toNat ≤ t.lane.cap ∧ P.index ≤ maxChainLength ∧
      P.entry.bytes ≤ u64Max := by
  refine ⟨?_, le_trans hP.index_le (h.ticks_le _), h.bytes_le _ hP.entry_mem⟩
  exact le_trans (h.ordered.le_front hP).2.1 h.claim_le

/-- The lane's accruals at a position do not wrap. -/
theorem PayerAt.laneChain_accrued (h : PayerAt t C roots l) (hP : P.In C.journal) :
    (C.laneChain P).accrued = P.index * t.ratePerMb.toNat ∧
      (C.laneChain P).accruedBytes = P.index * chunkBytes := by
  rcases h.position_le hP with ⟨hclaim, hindex, -⟩
  have hcap := t.cap_le
  unfold maxChainLength at hindex
  unfold u64Max at hcap
  constructor
  · unfold LaneChain.accrued
    simp only [Chronicle.laneChain]
    rw [U256.wrappingMul_eq, Nat.mul_comm, h.index_mul_price hP]
    rw [Nat.mul_comm, h.index_mul_price hP]
    unfold U256.modulus
    omega
  · unfold LaneChain.accruedBytes
    simp only [Chronicle.laneChain]
    rw [U256.wrappingMul_eq, Nat.mul_comm]
    unfold U256.modulus chunkBytes
    omega

/-! ## The lane's claim -/

/-- The lane is owed what its position is worth. -/
theorem LaneAt.owed (hlane : LaneAt t C P lane) (h : PayerAt t C roots l)
    (hP : P.In C.journal) :
    lane.state.owed = P.amount t.tariff ∧ lane.state.owedBytes = P.bytes t.tariff := by
  rcases h.position_le hP with ⟨hclaim, hindex, hbytes⟩
  rcases h.laneChain_accrued hP with ⟨haccrued, haccruedBytes⟩
  have hcap := t.cap_le
  have hstate := hlane.state_eq
  have hamount : lane.state.lastAmount = P.entry.amount := by rw [hstate]
  have hlast : lane.state.lastBytesDelivered = P.entry.bytes := by rw [hstate]
  have hchain : lane.state.chain = C.laneChain P := by rw [hstate]
  cases hsig : lane.state.lastSignature with
  | none =>
    rcases hlane.unsigned hsig with ⟨hepoch, hzero, hzeroBytes⟩
    have hticks := hP.index_le
    rw [hepoch, h.ordered.ticks_zero] at hticks
    have hindex : P.index = 0 := Nat.le_zero.mp hticks
    rw [(owed_of_unsigned hsig).1, (owed_of_unsigned hsig).2]
    simp [Position.amount, Position.bytes, hzero, hzeroBytes, hindex]
  | some signature =>
    rw [(owed_of_signed hsig).1, (owed_of_signed hsig).2, hamount, hlast, hchain, haccrued,
      haccruedBytes]
    unfold u64Max at hcap hbytes
    unfold maxChainLength at hindex
    constructor
    · rw [U256.wrappingAdd_eq]
      · rfl
      · unfold U256.modulus
        omega
    · rw [U256.wrappingAdd_eq]
      · rfl
      · unfold U256.modulus chunkBytes
        omega

/-! ## Credits -/

/-- A credit within the headroom is paid in full. -/
theorem creditAdvance_full {paid due watermark : Nat} (hdue : due ≤ u64Max)
    (hroom : paid + due ≤ watermark) (hwidth : watermark < U256.modulus) :
    creditAdvance paid due watermark = some (paid + due, due) := by
  have hmin : min (paid + due) watermark - paid = due := by omega
  have hnew : min (paid + due) watermark = paid + due := by omega
  unfold creditAdvance
  dsimp only
  rw [U256.wrappingAdd_eq (by omega), hmin, hnew, if_pos hdue]

/-- So is a stale one. -/
theorem creditStale_full {paid due watermark : Nat} (hdue : due ≤ u64Max)
    (hroom : paid + due ≤ watermark) (hwidth : watermark < U256.modulus) :
    creditStale paid due watermark = .paid (paid + due) due := by
  unfold creditStale
  rw [creditAdvance_full hdue hroom hwidth]
  exact if_pos rfl

/-- A position's bytes are far from wrapping. -/
theorem PayerAt.bytes_lt (h : PayerAt t C roots l) (hP : P.In C.journal) :
    P.bytes t.tariff < U256.modulus := by
  rcases h.position_le hP with ⟨-, hindex, hbytes⟩
  simp only [Position.bytes, Terms.tariff]
  unfold maxChainLength at hindex
  unfold u64Max at hbytes
  unfold U256.modulus chunkBytes
  omega

/-! ## Rates -/

/-- The rate check compares the two scaled products. -/
theorem verifyRate_eq_ok {amount bytes rate tolerance lhs rhs : Nat} (hbytes : bytes ≠ 0)
    (hlhs : ((U256.checkedMul amount bytesPerMb).bind fun v => U256.checkedMul v bpsScale) =
      some lhs)
    (hrhs : ((U256.checkedMul bytes rate).bind fun v =>
      U256.checkedMul v (bpsScale - min tolerance bpsScale)) = some rhs)
    (hle : rhs ≤ lhs) : verifyRate amount bytes rate tolerance = .ok () := by
  unfold verifyRate
  simp only [if_neg hbytes, hlhs, hrhs]
  exact if_pos hle

/-- Money that covers the quantity passes the rate check. -/
theorem verifyRate_ok {amount bytes rate tolerance : Nat} (hbytes : bytes ≠ 0)
    (hamountLe : amount ≤ 256 * u64Max) (hbytesLe : bytes ≤ u64Max) (hrateLe : rate ≤ u64Max)
    (hpaid : bytes * rate ≤ amount * bytesPerMb) :
    verifyRate amount bytes rate tolerance = .ok () := by
  have hmul : bytes * rate ≤ u64Max * u64Max := Nat.mul_le_mul hbytesLe hrateLe
  have hscaled : bytes * rate * (bpsScale - min tolerance bpsScale) ≤
      amount * bytesPerMb * bpsScale := Nat.mul_le_mul hpaid (Nat.sub_le _ _)
  have hpart : amount * bytesPerMb ≤ amount * bytesPerMb * bpsScale := by
    unfold bpsScale
    omega
  have hsmall : amount * bytesPerMb * bpsScale < U256.modulus := by
    unfold u64Max at hamountLe
    unfold bytesPerMb bpsScale U256.modulus
    omega
  have hsmall' : bytes * rate < U256.modulus := by
    unfold u64Max at hmul
    unfold U256.modulus
    omega
  apply verifyRate_eq_ok hbytes _ _ hscaled
  · rw [U256.checkedMul_eq (lt_of_le_of_lt hpart hsmall), Option.bind_some,
      U256.checkedMul_eq hsmall]
  · rw [U256.checkedMul_eq hsmall', Option.bind_some,
      U256.checkedMul_eq (lt_of_le_of_lt hscaled hsmall)]

/-! ## Vouchers -/

/-- The counters survive the wire. -/
theorem Carried.wire (h : Carried C v e) (t : Terms ι) :
    (t.wire v).amount.toNat = e.amount ∧ (t.wire v).bytesDelivered.toNat = e.bytes ∧
      (t.wire v).chainRoot = (C.chains e.epoch).root ∧
      (t.wire v).chunkPrice.toNat = (C.chains e.epoch).chunkPrice := by
  rcases of_decide_eq_true h.fits with ⟨hamount, hbytes, hprice⟩
  rw [h.next] at hamount hbytes
  rw [h.commit] at hprice
  have hround : ∀ n ≤ u64Max, (UInt64.ofNat n).toNat = n := by
    intro n hn
    unfold u64Max at hn
    rw [UInt64.toNat_ofNat']
    omega
  simp only [Terms.wire, h.next, h.commit]
  exact ⟨hround _ hamount, hround _ hbytes, rfl, hround _ hprice⟩

/-- The node widens the wire voucher to the one the payer signed. -/
theorem Carried.signed (h : Carried C v e) (hlane : LaneAt t C P lane) :
    wireVoucherToSigned (t.wire v) lane.state.poolId lane.state.signer lane.state.provider =
      some ⟨t.voucherOf v, t.sign (t.voucherOf v)⟩ := by
  rcases h.wire t with ⟨hamount, hbytes, hroot, hprice⟩
  have hstate := hlane.state_eq
  have hpool : lane.state.poolId = t.lane.poolId := by rw [hstate]
  have hsigner : lane.state.signer = t.lane.signer := by rw [hstate]
  have hprovider : lane.state.provider = t.lane.provider := by rw [hstate]
  unfold wireVoucherToSigned
  rw [hamount, hbytes, hroot, hprice, hpool, hsigner, hprovider]
  simp only [Terms.wire, Terms.voucherOf, Option.map_some, h.next, h.commit, Chronicle.commit]

/-- The payer's signatures verify. -/
theorem Terms.verifySigner (t : Terms ι) (v : Issue) (H : Crypto) (K : Ecdsa) (hH : H = t.env.H)
    (hK : K = t.env.K) :
    SignedVoucher.verifySigner H K ⟨t.voucherOf v, t.sign (t.voucherOf v)⟩ t.lane.signer =
      .ok () := by
  subst hH
  subst hK
  have hrecover : SignedVoucher.recoverSigner t.env.H t.env.K
      ⟨t.voucherOf v, t.sign (t.voucherOf v)⟩ = .ok t.lane.signer := by
    unfold SignedVoucher.recoverSigner
    dsimp only
    rw [t.canonical, t.recovers (t.voucherOf v) rfl]
    rfl
  unfold SignedVoucher.verifySigner
  rw [hrecover]
  simp [bind, Except.bind, pure, Except.pure]

/-- A voucher carries the quoted price. -/
theorem Carried.price (h : Carried C v e) (hpayer : PayerAt t C roots l)
    (he : e ∈ C.journal.entries) : chunkPriceMatchesQuote (t.wire v) t.ratePerMb = true := by
  have hk := hpayer.epoch_le he
  rcases h.wire t with ⟨-, -, hroot, hprice⟩
  unfold chunkPriceMatchesQuote
  apply decide_eq_true
  rw [hroot]
  rw [hpayer.price_eq hk] at hprice
  apply UInt64.toNat_inj.mp
  rw [hprice]
  by_cases hzero : e.epoch = 0
  · rw [if_pos hzero, if_pos ((hpayer.root_eq_zero hk).mpr hzero)]
    rfl
  · rw [if_neg hzero, if_neg fun hroot => hzero ((hpayer.root_eq_zero hk).mp hroot)]

/-- The lane as a voucher that advances it leaves it. -/
theorem LaneAt.advance {signature : Signature} {index paid : Nat} (hlane : LaneAt t C P lane) :
    LaneAt t C ⟨e, index⟩ ⟨{ lane.state with
      chain := C.laneChain ⟨e, index⟩
      lastAmount := e.amount
      lastBytesDelivered := e.bytes
      lastSignature := some signature }, Position.bytes t.tariff ⟨e, index⟩, paid⟩ where
  state_eq := by rw [hlane.state_eq]
  unsigned := nofun
  cumulative := rfl

/-- A voucher above the lane's anchor is taken, in its epoch or as a roll. -/
theorem PayerAt.advancePresigned (hpayer : PayerAt t C roots l) (hlane : LaneAt t C P lane)
    (hP : P.In C.journal) (he : e ∈ C.journal.entries) (hcarried : Carried C v e)
    (hlt : P.entry.amount < e.amount) :
    lane.state.advancePresigned ⟨t.voucherOf v, t.sign (t.voucherOf v)⟩ =
      .ok ({ lane.state with
        chain := C.laneChain (P.read (.entry e))
        lastAmount := e.amount
        lastBytesDelivered := e.bytes
        lastSignature := some (t.sign (t.voucherOf v)) },
        ⟨e.amount - P.entry.amount, e.bytes - P.entry.bytes⟩) := by
  have hprec := hpayer.ordered.precedes_of_behind hP he (.inl hlt)
  have hamount : (t.voucherOf v).amount = e.amount := by rw [Terms.voucherOf, hcarried.next]
  have hbytes : (t.voucherOf v).bytesDelivered = e.bytes := by rw [Terms.voucherOf, hcarried.next]
  have hroot : (t.voucherOf v).chainRoot = (C.chains e.epoch).root := by
    rw [Terms.voucherOf, hcarried.commit]
    rfl
  have hprice : (t.voucherOf v).chunkPrice = (C.chains e.epoch).chunkPrice := by
    rw [Terms.voucherOf, hcarried.commit]
    rfl
  have hlast : lane.state.lastAmount = P.entry.amount := by rw [hlane.state_eq]
  have hlastBytes : lane.state.lastBytesDelivered = P.entry.bytes := by rw [hlane.state_eq]
  have hchain : lane.state.chain = C.laneChain P := by rw [hlane.state_eq]
  have hcap : lane.state.cap = t.lane.cap := by rw [hlane.state_eq]
  have hin : (P.read (.entry e)).In C.journal := hP.read he
  have hread : P.read (.entry e) = ⟨e, if e.epoch = P.entry.epoch then P.index else 0⟩ :=
    if_pos (.inl hlt)
  rw [hread] at hin ⊢
  by_cases hepoch : e.epoch = P.entry.epoch
  · -- The same epoch keeps its index.
    rw [if_pos hepoch] at hin ⊢
    have hkept : ({ lane.state.chain with chunkPrice := (t.voucherOf v).chunkPrice } : LaneChain) =
        C.laneChain ⟨e, P.index⟩ := by
      rw [hchain, hprice]
      simp only [Chronicle.laneChain, hepoch]
    have hclaim : U256.saturatingAdd (t.voucherOf v).amount
        (C.laneChain ⟨e, P.index⟩).accrued ≤ lane.state.cap := by
      rw [(hpayer.laneChain_accrued hin).1, hamount, hcap]
      exact le_trans (U256.saturatingAdd_le _ _) (hpayer.position_le hin).1
    rw [advancePresigned_bump]
    · simp only [hkept, hamount, hbytes, hlast, hlastBytes]
    · rw [hroot, hchain, hepoch]
      rfl
    · rw [hlast, hamount]
      exact hlt
    · rw [hlastBytes, hbytes]
      exact hprec.bytes_le
    · rw [hamount, hcap]
      exact le_trans (Nat.le_add_right _ _) (hpayer.position_le hin).1
    · rw [hkept]
      exact hclaim
  · rw [if_neg hepoch] at hin ⊢
    have hlater : P.entry.epoch < e.epoch := lt_of_le_of_ne hprec.epoch_le (Ne.symm hepoch)
    have hfolds := hprec.folds hlater
    have hindex := hP.index_le
    have hmoney : P.index * t.ratePerMb.toNat ≤
        C.journal.ticks P.entry.epoch * t.ratePerMb.toNat := Nat.mul_le_mul_right _ hindex
    have hquantity : P.index * chunkBytes ≤ C.journal.ticks P.entry.epoch * chunkBytes :=
      Nat.mul_le_mul_right _ hindex
    rcases hlane.owed hpayer hP with ⟨howed, howedBytes⟩
    have hopened : LaneChain.opened (t.voucherOf v).chainRoot (t.voucherOf v).chunkPrice =
        C.laneChain ⟨e, 0⟩ := by
      rw [hroot, hprice]
      rfl
    rw [advancePresigned_roll]
    · simp only [hopened, hamount, hbytes, hlast, hlastBytes]
    · rw [hroot, hchain]
      intro hsame
      exact hepoch (hpayer.distinct _ _ (hpayer.epoch_le he) (hpayer.epoch_le hP.entry_mem) hsame)
    · rw [hlast, hamount]
      exact hlt
    · rw [hlastBytes, hbytes]
      exact hprec.bytes_le
    · rw [hamount, hcap]
      exact le_trans (Nat.le_add_right _ _) (hpayer.position_le hin).1
    · rw [howed, hamount]
      simp only [Position.amount, Terms.tariff] at hfolds ⊢
      omega
    · rw [howedBytes, hbytes]
      simp only [Position.bytes, Terms.tariff] at hfolds ⊢
      omega

/-- Two entries of one amount are of one epoch, or the older is sealed. -/
theorem PayerAt.same_amount {x y : Entry} (hpayer : PayerAt t C roots l)
    (hx : x ∈ C.journal.entries) (hy : y ∈ C.journal.entries) (heq : x.amount = y.amount) :
    x.bytes = y.bytes ∧ (x.epoch < y.epoch → x.epoch = 0) := by
  rcases hpayer.ordered.comparable hx hy with hprec | hprec
  · refine ⟨hprec.tie.mp heq, fun hlt => ?_⟩
    have hstrict := hprec.strict
    omega
  · have hle := hprec.epoch_le
    exact ⟨(hprec.tie.mp heq.symm).symm, fun hlt => by omega⟩

/-- A sealed position has no index. -/
theorem PayerAt.index_eq_zero (hpayer : PayerAt t C roots l) (hP : P.In C.journal)
    (hzero : P.entry.epoch = 0) : P.index = 0 := by
  have hindex := hP.index_le
  rw [hzero, hpayer.ordered.ticks_zero] at hindex
  exact Nat.le_zero.mp hindex

/-- A voucher at or below the lane's anchor regresses; it is no under-fold. -/
theorem PayerAt.regresses (hpayer : PayerAt t C roots l) (hlane : LaneAt t C P lane)
    (hP : P.In C.journal) (he : e ∈ C.journal.entries) (hcarried : Carried C v e)
    (hle : e.amount ≤ P.entry.amount) :
    lane.state.advancePresigned ⟨t.voucherOf v, t.sign (t.voucherOf v)⟩ =
      .error (.amountRegression P.entry.amount e.amount) := by
  have hamount : (t.voucherOf v).amount = e.amount := by rw [Terms.voucherOf, hcarried.next]
  have hroot : (t.voucherOf v).chainRoot = (C.chains e.epoch).root := by
    rw [Terms.voucherOf, hcarried.commit]
    rfl
  have hlast : lane.state.lastAmount = P.entry.amount := by rw [hlane.state_eq]
  have hchain : lane.state.chain = C.laneChain P := by rw [hlane.state_eq]
  rw [advancePresigned_regress]
  · rw [hlast, hamount]
  · rw [hlast, hamount]
    exact hle
  · intro heq
    rw [hlast, hamount] at heq
    rw [hroot, hchain, hamount]
    rcases Nat.lt_trichotomy e.epoch P.entry.epoch with hlt | hsame | hgt
    · -- An older epoch at the same amount is the sealed one.
      have hzero := (hpayer.same_amount he hP.entry_mem heq).2 hlt
      exact .inl ((hpayer.root_eq_zero (hpayer.epoch_le he)).mpr hzero)
    · right; left
      rw [hsame]
      rfl
    · -- The lane itself is sealed, so the voucher folds all it is owed.
      have hzero := (hpayer.same_amount hP.entry_mem he heq.symm).2 hgt
      right; right
      rw [(hlane.owed hpayer hP).1, Position.amount, hpayer.index_eq_zero hP hzero, heq]
      simp

/-- At the same amount, the first chain of a sealed lane is opened. -/
theorem PayerAt.reopens (hpayer : PayerAt t C roots l) (hlane : LaneAt t C P lane)
    (hP : P.In C.journal) (he : e ∈ C.journal.entries) (hcarried : Carried C v e)
    (heq : e.amount = P.entry.amount) (hlater : P.entry.epoch < e.epoch) :
    lane.state.adoptChain ⟨t.voucherOf v, t.sign (t.voucherOf v)⟩ =
      some { lane.state with
        chain := C.laneChain ⟨e, 0⟩
        lastAmount := e.amount
        lastBytesDelivered := e.bytes
        lastSignature := some (t.sign (t.voucherOf v)) } := by
  have hamount : (t.voucherOf v).amount = e.amount := by rw [Terms.voucherOf, hcarried.next]
  have hbytes : (t.voucherOf v).bytesDelivered = e.bytes := by rw [Terms.voucherOf, hcarried.next]
  have hroot : (t.voucherOf v).chainRoot = (C.chains e.epoch).root := by
    rw [Terms.voucherOf, hcarried.commit]
    rfl
  have hprice : (t.voucherOf v).chunkPrice = (C.chains e.epoch).chunkPrice := by
    rw [Terms.voucherOf, hcarried.commit]
    rfl
  rcases hpayer.same_amount hP.entry_mem he heq.symm with ⟨hsame, hsealed⟩
  have hlast : lane.state.lastAmount = e.amount := by rw [hlane.state_eq, heq]
  have hlastBytes : lane.state.lastBytesDelivered = e.bytes := by
    rw [hlane.state_eq]
    exact hsame
  have hchain : lane.state.chain = C.laneChain P := by rw [hlane.state_eq]
  have hindex : lane.state.chain.verifiedIndex = 0 := by
    rw [hchain]
    exact hpayer.index_eq_zero hP (hsealed hlater)
  have hopened : LaneChain.opened (t.voucherOf v).chainRoot (t.voucherOf v).chunkPrice =
      C.laneChain ⟨e, 0⟩ := by
    rw [hroot, hprice]
    rfl
  have hzero : (t.voucherOf v).chainRoot ≠ 0 := by
    rw [hroot]
    intro hroot
    have hk := (hpayer.root_eq_zero (hpayer.epoch_le he)).mp hroot
    omega
  have hne : lane.state.chain.chainRoot ≠ (t.voucherOf v).chainRoot := by
    rw [hchain, hroot]
    intro hsameRoot
    have hk := hpayer.distinct _ _ (hpayer.epoch_le hP.entry_mem) (hpayer.epoch_le he) hsameRoot
    omega
  unfold LaneState.adoptChain
  dsimp only
  have hmark : ¬ ((t.voucherOf v).amount ≠ lane.state.lastAmount ∨
      (t.voucherOf v).bytesDelivered ≠ lane.state.lastBytesDelivered) := by
    rw [hlast, hlastBytes, hamount, hbytes]
    simp
  rw [if_neg hzero, if_neg hne, if_neg (by omega), if_neg hmark, hopened, ← hlast, ← hlastBytes]

/-- A voucher of the lane's own past changes nothing. -/
theorem PayerAt.adopts_nothing (hpayer : PayerAt t C roots l) (hlane : LaneAt t C P lane)
    (hP : P.In C.journal) (he : e ∈ C.journal.entries) (hcarried : Carried C v e)
    (hpast : ¬ P.Behind e) :
    lane.state.adoptChain ⟨t.voucherOf v, t.sign (t.voucherOf v)⟩ = none := by
  have hamount : (t.voucherOf v).amount = e.amount := by rw [Terms.voucherOf, hcarried.next]
  have hroot : (t.voucherOf v).chainRoot = (C.chains e.epoch).root := by
    rw [Terms.voucherOf, hcarried.commit]
    rfl
  have hlast : lane.state.lastAmount = P.entry.amount := by rw [hlane.state_eq]
  have hchain : lane.state.chain.chainRoot = (C.chains P.entry.epoch).root := by
    rw [hlane.state_eq]
    rfl
  unfold LaneState.adoptChain
  dsimp only
  split
  · rfl
  · rename_i hzero
    split
    · rename_i hsame
      split
      · rfl
      · -- An unsigned lane is sealed, and this voucher is not.
        rename_i hunsigned
        have hsig : lane.state.lastSignature = none := by simpa using hunsigned
        have hsealed : (C.chains P.entry.epoch).root = 0 := by
          rw [(hlane.unsigned hsig).1]
          exact (hpayer.root_eq_zero (Nat.zero_le _)).mpr rfl
        exact absurd (hsame.symm.trans (hchain.trans hsealed)) hzero
    · rename_i hother
      split
      · rfl
      · split
        · rfl
        · rename_i hmark
          simp only [not_or, not_not] at hmark
          rw [hamount, hlast] at hmark
          unfold Position.Behind at hpast
          have hne : e.epoch ≠ P.entry.epoch := by
            intro hsame
            rw [hchain, hroot, hsame] at hother
            exact hother rfl
          have hlt : e.epoch < P.entry.epoch := by omega
          have hk := (hpayer.same_amount he hP.entry_mem hmark.1).2 hlt
          rw [hroot] at hzero
          exact absurd ((hpayer.root_eq_zero (hpayer.epoch_le he)).mpr hk) hzero

/-- Every voucher of the journal passes, and leaves the lane at the position the
reader moves to. -/
theorem PayerAt.verifyVoucher (hpayer : PayerAt t C roots l) (hlane : LaneAt t C P lane)
    (hP : P.In C.journal) (he : e ∈ C.journal.entries) (hcarried : Carried C v e) (paid : Nat) :
    ∃ verified, Node.verifyVoucher lane.state lane.bytesDeliveredCumulative
        ⟨t.voucherOf v, t.sign (t.voucherOf v)⟩ (t.wire v) t.ratePerMb = .ok verified ∧
      verified.newBytes = (P.read (.entry e)).bytes t.tariff ∧
      LaneAt t C (P.read (.entry e)) ⟨verified.nextState, verified.newBytes, paid⟩ := by
  have hin : (P.read (.entry e)).In C.journal := hP.read he
  rcases hcarried.wire t with ⟨hwire, hwireBytes, -, -⟩
  have hlastBytes : lane.state.lastBytesDelivered = P.entry.bytes := by rw [hlane.state_eq]
  rcases Nat.lt_or_ge P.entry.amount e.amount with hlt | hle
  · have hprec := hpayer.ordered.precedes_of_behind hP he (.inl hlt)
    have hread : P.read (.entry e) = ⟨e, if e.epoch = P.entry.epoch then P.index else 0⟩ :=
      if_pos (.inl hlt)
    have hentry : (P.read (.entry e)).entry = e := by rw [hread]
    have hnew : LaneAt t C (P.read (.entry e)) ⟨{ lane.state with
        chain := C.laneChain (P.read (.entry e))
        lastAmount := e.amount
        lastBytesDelivered := e.bytes
        lastSignature := some (t.sign (t.voucherOf v)) },
        (P.read (.entry e)).bytes t.tariff, paid⟩ := by
      rw [hread]
      exact hlane.advance
    have hcap := t.cap_le
    have hposition := hpayer.position_le hin
    rw [hentry] at hposition
    have hrate : Node.verifyRate (e.amount - P.entry.amount) (e.bytes - P.entry.bytes)
        t.ratePerMb.toNat defaultToleranceBps = .ok () := by
      have htie := hprec.tie
      have hbytes := hprec.bytes_le
      apply verifyRate_ok
      · omega
      · omega
      · omega
      · exact toNat_le_u64Max _
      · exact hprec.rate
    have howed := (hnew.owed hpayer hin).2
    have hmax : max ((P.read (.entry e)).bytes t.tariff) e.bytes =
        (P.read (.entry e)).bytes t.tariff := by
      apply max_eq_left
      rw [hread]
      exact Nat.le_add_right _ _
    refine ⟨⟨_, (P.read (.entry e)).bytes t.tariff, (t.wire v).amount⟩, ?_, rfl, hnew⟩
    unfold Node.verifyVoucher
    rw [hpayer.advancePresigned hlane hP he hcarried hlt]
    dsimp only at howed ⊢
    rw [hrate]
    dsimp only
    rw [howed, hwireBytes, hmax]
  · have hverify : ∀ next : LaneState,
        (lane.state.adoptChain ⟨t.voucherOf v, t.sign (t.voucherOf v)⟩).getD lane.state = next →
        Node.verifyVoucher lane.state lane.bytesDeliveredCumulative
          ⟨t.voucherOf v, t.sign (t.voucherOf v)⟩ (t.wire v) t.ratePerMb =
          .ok ⟨next, lane.bytesDeliveredCumulative, (t.wire v).amount⟩ := by
      intro next hnext
      have hbytes : ¬ (e.amount = P.entry.amount ∧ e.bytes ≠ P.entry.bytes) := by
        rintro ⟨heq, hne⟩
        exact hne (hpayer.same_amount he hP.entry_mem heq).1
      unfold Node.verifyVoucher
      rw [hpayer.regresses hlane hP he hcarried hle]
      dsimp only
      rw [hwire, hwireBytes, hlastBytes, if_neg hbytes, hnext]
    by_cases hbehind : P.Behind e
    · -- The same amount in a later epoch: the lane was sealed and takes the chain.
      have heq : e.amount = P.entry.amount := by
        unfold Position.Behind at hbehind
        omega
      have hlater : P.entry.epoch < e.epoch := by
        unfold Position.Behind at hbehind
        omega
      rcases hpayer.same_amount hP.entry_mem he heq.symm with ⟨hsame, hsealed⟩
      have hread : P.read (.entry e) = ⟨e, 0⟩ := by
        simp only [Position.read]
        rw [if_pos hbehind, if_neg (by omega)]
      have hcumulative : lane.bytesDeliveredCumulative = Position.bytes t.tariff ⟨e, 0⟩ := by
        rw [hlane.cumulative, Position.bytes, Position.bytes,
          hpayer.index_eq_zero hP (hsealed hlater), hsame]
      have hadopt := congrArg (Option.getD · lane.state)
        (hpayer.reopens hlane hP he hcarried heq hlater)
      refine ⟨_, hverify _ hadopt, ?_, ?_⟩
      · rw [hread]
        exact hcumulative
      · rw [hread]
        dsimp only
        rw [hcumulative]
        exact hlane.advance
    · have hread : P.read (.entry e) = P := if_neg hbehind
      refine ⟨_, hverify lane.state ?_, ?_, ?_⟩
      · rw [hpayer.adopts_nothing hlane hP he hcarried hbehind]
        rfl
      · rw [hread]
        exact hlane.cumulative
      · rw [hread]
        exact ⟨hlane.state_eq, hlane.unsigned, hlane.cumulative⟩

/-- Every voucher of the journal is accepted, and credits the stream in full. -/
theorem PayerAt.commitVoucher {now : Nat} {owed : OwedChunk} (hpayer : PayerAt t C roots l)
    (hlane : LaneAt t C P lane) (hP : P.In C.journal) (he : e ∈ C.journal.entries)
    (hcarried : Carried C v e) (anchor : StreamAnchor)
    (hexpiry : NodeEnv.insideExpiryMargin { t.env with now := now } t.lane.expiry = false)
    (hroom : lane.paidCredited + voucherCreditDelta (t.wire v) owed ≤
      (P.read (.entry e)).bytes t.tariff) :
    ∃ lane', Node.commitVoucher { t.env with now := now } lane anchor (t.wire v) t.ratePerMb owed =
        ⟨lane', .adopt (C.chains e.epoch).root,
          .continued (voucherCreditDelta (t.wire v) owed)⟩ ∧
      LaneAt t C (P.read (.entry e)) lane' ∧
      lane'.paidCredited = lane.paidCredited + voucherCreditDelta (t.wire v) owed := by
  rcases hpayer.verifyVoucher hlane hP he hcarried
    (lane.paidCredited + voucherCreditDelta (t.wire v) owed) with ⟨verified, hok, hbytes, hnew⟩
  have hlt := hpayer.bytes_lt (hP.read he : (P.read (.entry e)).In C.journal)
  have hdue : voucherCreditDelta (t.wire v) owed ≤ u64Max :=
    le_trans (voucherCreditDelta_le _ _) (le_trans owed.remaining_le owed.len_le)
  have hexpiry' : lane.state.expiry = t.lane.expiry := by rw [hlane.state_eq]
  have hsigner : lane.state.signer = t.lane.signer := by rw [hlane.state_eq]
  have hverified := t.verifySigner v t.env.H t.env.K rfl rfl
  rw [← hbytes] at hroom hlt
  refine ⟨⟨verified.nextState, verified.newBytes,
    lane.paidCredited + voucherCreditDelta (t.wire v) owed⟩, ?_, hnew, rfl⟩
  unfold Node.commitVoucher
  dsimp only
  rw [if_neg (by simp [hcarried.price hpayer he]), hcarried.signed hlane]
  dsimp only
  rw [hsigner, hverified]
  dsimp only
  rw [hexpiry', hexpiry, if_neg Bool.false_ne_true, hok]
  dsimp only
  rw [creditStale_full hdue hroom hlt, creditAdvance_full hdue hroom hlt]
  dsimp only
  rw [ite_self, t.record_eq, (hcarried.wire t).2.2.1]
  rfl

/-! ## Reveals -/

/-- Every reveal of an epoch the node has reached is accepted and credits the
stream in full. -/
theorem PayerAt.commitOnePreimage {now k : Nat} {owed : OwedChunk} {released : Released}
    (walked : Option (Nat × Bytes32)) (hpayer : PayerAt t C roots l)
    (hlane : LaneAt t C P lane) (hP : P.In C.journal)
    (hin : Item.In C.journal (.tick k released.index)) (hpos : 0 < released.index)
    (hpreimage : released.preimage = (C.chains k).preimages released.index)
    (hreached : k ≤ P.entry.epoch)
    (hexpiry : NodeEnv.insideExpiryMargin { t.env with now := now } t.lane.expiry = false)
    (hroom : lane.paidCredited + owed.remaining ≤
      (P.read (.tick k released.index)).bytes t.tariff) :
    ∃ lane', Node.commitOnePreimage { t.env with now := now } lane
        (.adopt (C.chains k).root) (.ofNat released.index) released.preimage walked owed =
        ⟨lane', .adopt (C.chains k).root, .continued owed.remaining⟩ ∧
      LaneAt t C (P.read (.tick k released.index)) lane' ∧
      lane'.paidCredited = lane.paidCredited + owed.remaining := by
  have htop : k ≤ C.top := hin.2
  have hmax : released.index ≤ maxChainLength := le_trans hin.1 (hpayer.ticks_le k)
  have hindex : (UInt8.ofNat released.index).toNat = released.index := by
    unfold maxChainLength at hmax
    rw [UInt8.toNat_ofNat']
    omega
  have hopen : 0 < k := by
    rcases Nat.eq_zero_or_pos k with rfl | hopen
    · have hsold := hin.1
      rw [hpayer.ordered.ticks_zero] at hsold
      omega
    · exact hopen
  have hroot : (C.chains k).root ≠ 0 := by
    intro hzero
    have hk := (hpayer.root_eq_zero htop).mp hzero
    omega
  have hnotZero : UInt8.ofNat released.index ≠ 0 := by
    intro hzero
    rw [hzero] at hindex
    exact absurd hindex.symm (Nat.pos_iff_ne_zero.mp hpos)
  have hchain : lane.state.chain = C.laneChain P := by rw [hlane.state_eq]
  have hlast : lane.state.lastAmount = P.entry.amount := by rw [hlane.state_eq]
  have hcap : lane.state.cap = t.lane.cap := by rw [hlane.state_eq]
  have hexpiry' : lane.state.expiry = t.lane.expiry := by rw [hlane.state_eq]
  have hdue : owed.remaining ≤ u64Max := le_trans owed.remaining_le owed.len_le
  have hinRead : (P.read (.tick k released.index)).In C.journal := hP.read hin
  have hlt := hpayer.bytes_lt hinRead
  have hanchor : (StreamAnchor.adopt (C.chains k).root).root = some (C.chains k).root :=
    if_neg hroot
  unfold Node.commitOnePreimage
  dsimp only
  rw [if_neg hnotZero, hanchor]
  dsimp only
  rw [hexpiry', hexpiry, if_neg Bool.false_ne_true]
  by_cases hdeeper : k = P.entry.epoch ∧ P.index < released.index
  · -- Deeper under the live root: the preimage walks to the lane's tip.
    have hread : P.read (.tick k released.index) = ⟨P.entry, released.index⟩ := if_pos hdeeper
    rw [hread] at hinRead hlt hroom ⊢
    rcases hdeeper with ⟨rfl, hdeeper⟩
    have hmoved : ({ lane.state.chain with
        verifiedIndex := (UInt8.ofNat released.index).toNat
        tip := released.preimage } : LaneChain) = C.laneChain ⟨P.entry, released.index⟩ := by
      rw [hchain, hindex, hpreimage]
      rfl
    have hwalks : hashForward t.env.H released.preimage
        ((UInt8.ofNat released.index).toNat - lane.state.chain.verifiedIndex) =
        lane.state.chain.tip := by
      rcases hpayer.ladder _ hopen htop with ⟨seed, hseed⟩
      rw [hindex, hchain, hpreimage, hseed]
      simp only [Chronicle.laneChain, hseed]
      exact hashForward_preimageAt seed (le_of_lt hdeeper) hmax
    have hclaim : U256.saturatingAdd lane.state.lastAmount
        (C.laneChain ⟨P.entry, released.index⟩).accrued ≤ lane.state.cap := by
      rw [(hpayer.laneChain_accrued hinRead).1, hlast, hcap]
      exact le_trans (U256.saturatingAdd_le _ _) (hpayer.position_le hinRead).1
    have hadvance : lane.state.advancePreimageVerified t.env.H (C.chains P.entry.epoch).root
        (.ofNat released.index) released.preimage walked
        (LaneState.walk t.env.H (.ofNat released.index) released.preimage walked) = _ :=
      advancePreimageVerified_deeper walked hroot (by rw [hchain]; rfl)
        (by rw [hindex, hchain]; exact hdeeper) hwalks (by rw [hmoved]; exact hclaim)
    rw [hmoved, hindex, hchain] at hadvance
    have hnew : LaneAt t C ⟨P.entry, released.index⟩
        ⟨{ lane.state with chain := C.laneChain ⟨P.entry, released.index⟩ },
          Position.bytes t.tariff ⟨P.entry, released.index⟩,
          lane.paidCredited + owed.remaining⟩ := by
      refine ⟨?_, hlane.unsigned, rfl⟩
      rw [hlane.state_eq]
    have howed := (hnew.owed hpayer hinRead).2
    have hmoves : Applied.advanced
        ⟨U256.wrappingMul (C.laneChain P).chunkPrice (released.index - P.index),
          U256.wrappingMul chunkBytes (released.index - P.index)⟩ = true := by
      have hbytes : U256.wrappingMul chunkBytes (released.index - P.index) ≠ 0 := by
        unfold maxChainLength at hmax
        rw [U256.wrappingMul_eq]
        · unfold chunkBytes
          omega
        · unfold chunkBytes U256.modulus
          omega
      simp [Applied.advanced, hbytes]
    refine ⟨_, ?_, hnew, rfl⟩
    rw [hadvance]
    dsimp only at howed ⊢
    rw [show (C.laneChain P).verifiedIndex = P.index from rfl, hmoves, if_neg (by simp), howed,
      creditAdvance_full hdue hroom hlt]
    dsimp only
    rw [t.record_eq]
    rfl
  · -- Covered already, or of an epoch the lane has left: the headroom pays.
    have hread : P.read (.tick k released.index) = P := if_neg hdeeper
    rw [hread] at hlt hroom ⊢
    have hcovered : (C.chains k).root ≠ lane.state.chain.chainRoot ∨
        (UInt8.ofNat released.index).toNat ≤ lane.state.chain.verifiedIndex := by
      rw [hchain, hindex]
      rcases Nat.lt_or_ge k P.entry.epoch with hbefore | hsame
      · left
        intro hsameRoot
        have heq := hpayer.distinct _ _ htop (hpayer.epoch_le hP.entry_mem) hsameRoot
        omega
      · right
        change released.index ≤ P.index
        omega
    have howed := (hlane.owed hpayer hP).2
    have hnew : LaneAt t C P { lane with paidCredited := lane.paidCredited + owed.remaining } :=
      ⟨hlane.state_eq, hlane.unsigned, hlane.cumulative⟩
    refine ⟨_, ?_, hnew, rfl⟩
    rw [advancePreimageVerified_covered walked _ hcovered]
    dsimp only
    rw [show Applied.advanced {} = false from rfl, if_pos rfl, howed,
      creditStale_full hdue hroom hlt]

end Decdn.Session
