import Decdn.PaymentPool.Contract

/-!
# Vouchers and hash chains

The off-chain side of a payment: `voucher.rs`, `chain.rs`, `sig_canon.rs` and
the wire bridge of the incentive crate.  A voucher signs a cumulative anchor and
heads a hash chain, and every released preimage of the chain is worth one chunk
over the anchor.

Amounts are 256-bit words off-chain; the wire and the contract carry 64 bits.

Main results:

- Theorem `verifyForward_trans`: a preimage that reaches a verified tip reaches
  whatever the tip reaches.
- Theorem `verifyForward_preimageAt`: the released preimages of one seed verify
  against each other.
- Theorem `packChainMeter_eq_ok`: the packed word's two fields.
-/

namespace Decdn.Incentive

open PaymentPool (Crypto)

variable {H : Crypto}

/-! ## Vouchers -/

/-- An ECDSA signature: `r`, `s` and the recovery bit. -/
structure Signature where
  r : Bytes32
  s : Bytes32
  v : Bool
deriving DecidableEq, Repr

/-- `secp256k1n / 2`, the largest canonical `s`. -/
def halfOrder : Nat :=
  0x7fffffffffffffffffffffffffffffff5d576e7357a4501ddfe92f46681b20a0

/-- `is_high_s`: the contract would refuse this signature. -/
def isHighS (sig : Signature) : Bool :=
  decide (halfOrder < sig.s.toNat)

/-- `Voucher`: the signed typed data. -/
structure Voucher where
  poolId : Bytes32
  signer : Address
  provider : Address
  amount : Nat
  bytesDelivered : Nat
  chainRoot : Bytes32
  chunkPrice : Nat
deriving DecidableEq, Repr

/-- A voucher with its signature. -/
structure SignedVoucher where
  voucher : Voucher
  signature : Signature
deriving DecidableEq, Repr

/-- Why a signature was refused. -/
inductive VoucherError where
  | invalidSignature
  | wrongSigner (expected recovered : Address)
deriving DecidableEq, Repr

/-- `recover_address_from_prehash`; `none` is a malformed signature. -/
structure Ecdsa where
  recoverAddress : Bytes32 → Signature → Option Address

/-- `Voucher::signing_hash`. -/
def Voucher.signingHash (H : Crypto) (v : Voucher) : Bytes32 :=
  H.voucherDigest v.poolId v.signer v.provider v.amount v.bytesDelivered v.chainRoot v.chunkPrice

/-- `SignedVoucher::recover_signer`: canonical signatures only. -/
def SignedVoucher.recoverSigner (H : Crypto) (K : Ecdsa) (sv : SignedVoucher) :
    Except VoucherError Address :=
  if isHighS sv.signature then .error .invalidSignature
  else
    match K.recoverAddress (sv.voucher.signingHash H) sv.signature with
    | none => .error .invalidSignature
    | some recovered => .ok recovered

/-- `SignedVoucher::verify_signer`. -/
def SignedVoucher.verifySigner (H : Crypto) (K : Ecdsa) (sv : SignedVoucher)
    (expected : Address) : Except VoucherError Unit := do
  let recovered ← sv.recoverSigner H K
  if recovered = expected then return ()
  else .error (.wrongSigner expected recovered)

/-! ## The wire -/

/-- The voucher as the wire carries it.  `signature` is `none` when the bytes do
not parse. -/
structure WireVoucher where
  signature : Option Signature
  amount : UInt64
  bytesDelivered : UInt64
  chainRoot : Bytes32
  chunkPrice : UInt64
deriving DecidableEq, Repr

/-- `wire_voucher_to_signed`: widen the counters and add the lane's identity. -/
def wireVoucherToSigned (wire : WireVoucher) (poolId : Bytes32) (signer provider : Address) :
    Option SignedVoucher :=
  wire.signature.map fun signature =>
    { voucher :=
        { poolId := poolId
          signer := signer
          provider := provider
          amount := wire.amount.toNat
          bytesDelivered := wire.bytesDelivered.toNat
          chainRoot := wire.chainRoot
          chunkPrice := wire.chunkPrice.toNat }
      signature := signature }

/-- A voucher whose three counters fit the wire. -/
structure Voucher.FitsWire (v : Voucher) : Prop where
  amount_le : v.amount ≤ u64Max
  bytesDelivered_le : v.bytesDelivered ≤ u64Max
  chunkPrice_le : v.chunkPrice ≤ u64Max

/-- Every voucher read from the wire fits it. -/
theorem fitsWire_of_wire {wire : WireVoucher} {poolId : Bytes32} {signer provider : Address}
    {sv : SignedVoucher} (h : wireVoucherToSigned wire poolId signer provider = some sv) :
    sv.voucher.FitsWire := by
  unfold wireVoucherToSigned at h
  rw [Option.map_eq_some_iff] at h
  rcases h with ⟨signature, -, rfl⟩
  exact ⟨toNat_le_u64Max _, toNat_le_u64Max _, toNat_le_u64Max _⟩

/-! ## Hash chains -/

/-- `CHUNK_BYTES`: the bytes one chain tick pays for. -/
def chunkBytes : Nat := 1048576

theorem chunkBytes_pos : 0 < chunkBytes := by decide

/-- `MAX_CHAIN_LENGTH`. -/
def maxChainLength : Nat := 255

/-- `hash_forward`. -/
def hashForward (H : Crypto) (value : Bytes32) (steps : Nat) : Bytes32 :=
  H.keccak256^[steps] value

/-- `root_from_seed`: the chain head, at index `0`. -/
def rootFromSeed (H : Crypto) (seed : Bytes32) : Bytes32 :=
  hashForward H seed maxChainLength

/-- `preimage_at`: the value to release at `index`. -/
def preimageAt (H : Crypto) (seed : Bytes32) (index : Nat) : Bytes32 :=
  hashForward H seed (maxChainLength - index)

/-- `verify_forward`. -/
def verifyForward (H : Crypto) (preimage : Bytes32) (steps : Nat) (tip : Bytes32) : Bool :=
  decide (hashForward H preimage steps = tip)

/-- The root is the preimage at index `0`. -/
theorem preimageAt_zero (seed : Bytes32) : preimageAt H seed 0 = rootFromSeed H seed := rfl

/-- Walking to a tip and on from it is one walk. -/
theorem verifyForward_trans {preimage tip root : Bytes32} {m n : Nat}
    (h : verifyForward H preimage m tip = true) (h' : hashForward H tip n = root) :
    hashForward H preimage (n + m) = root := by
  unfold verifyForward at h
  rw [decide_eq_true_eq] at h
  unfold hashForward at h h' ⊢
  rw [Function.iterate_add_apply, h, h']

/-- A deeper preimage of a seed walks to every shallower one. -/
theorem hashForward_preimageAt (seed : Bytes32) {i j : Nat} (hij : i ≤ j)
    (hj : j ≤ maxChainLength) :
    hashForward H (preimageAt H seed j) (j - i) = preimageAt H seed i := by
  unfold preimageAt hashForward
  rw [← Function.iterate_add_apply]
  congr 1
  omega

/-- A deeper preimage of a seed verifies against every shallower one. -/
theorem verifyForward_preimageAt (seed : Bytes32) {i j : Nat} (hij : i ≤ j)
    (hj : j ≤ maxChainLength) :
    verifyForward H (preimageAt H seed j) (j - i) (preimageAt H seed i) = true := by
  unfold verifyForward
  rw [decide_eq_true_eq]
  exact hashForward_preimageAt seed hij hj

/-! ## The packed meter word -/

/-- Why a value does not fit the contract's 64-bit fields. -/
inductive WidthError where
  | priceExceedsWireWidth
  | poolField (what : String) (value : Nat)
deriving DecidableEq, Repr

/-- `pack_chain_meter`: the price above the one-byte index. -/
def packChainMeter (chunkPrice chainIndex : Nat) : Except WidthError Nat :=
  if chunkPrice ≤ u64Max then .ok ((chunkPrice <<< 8) ||| chainIndex)
  else .error .priceExceedsWireWidth

/-- A packed word has a clear reserved span, and its two fields unpack to what
was packed. -/
theorem packChainMeter_eq_ok {chunkPrice chainIndex meter : Nat} (hindex : chainIndex < 256)
    (h : packChainMeter chunkPrice chainIndex = .ok meter) :
    chunkPrice ≤ u64Max ∧ meter < 2 ^ 72 ∧ meter >>> 72 = 0 ∧
      (meter >>> 8) % 2 ^ 64 = chunkPrice ∧ meter % 2 ^ 8 = chainIndex := by
  unfold packChainMeter at h
  split at h
  · rename_i hprice
    have hsum : (chunkPrice <<< 8) ||| chainIndex = chunkPrice * 256 + chainIndex := by
      rw [← Nat.shiftLeft_add_eq_or_of_lt (by simpa using hindex), Nat.shiftLeft_eq]
    obtain rfl := Except.ok.inj h
    unfold u64Max at hprice
    rw [hsum, Nat.shiftRight_eq_div_pow, Nat.shiftRight_eq_div_pow]
    refine ⟨?_, ?_, ?_, ?_, ?_⟩
    · unfold u64Max
      omega
    all_goals omega
  · cases h

end Decdn.Incentive
