import Decdn.Foundations.BigEndian
import Decdn.Foundations.Wire
import Decdn.Incentive.Lane

/-!
# The stored lane record

How the node keeps one lane on disk (`pool_store.rs`): the lane is the key, and the row
holds everything else.  The row is written by `postcard`, which this file takes as a
lawful format; `postcardLane` is one.

Main results:

- Theorem `laneKeyParts_laneKeyBytes` and Theorem `laneKeyBytes_laneKeyParts`: lanes and
  keys correspond.
- Theorem `intoState_ofState`: a lane comes back from its row.
- Theorem `lane_record_codec`: so does a lane that was read and written again, while a
  row with a malformed signature or cut short is refused.
-/

namespace Decdn.Node.LaneRecord

open Incentive (LaneKey StoreError)

/-! ## Lanes -/

/-- `LaneChain`. -/
structure LaneChain where
  chainRoot : Bytes32
  chunkPrice : BitVec 256
  verifiedIndex : UInt8
  tip : Bytes32
deriving DecidableEq

/-- `LaneState`, with its signatures as bytes.  The lane's own fields are its key. -/
structure LaneState extends LaneKey where
  cap : BitVec 256
  expiry : UInt64
  registeredUntil : UInt64
  ownerSig : Option (Vector UInt8 65)
  paidCumulative : BitVec 256
  lastAmount : BitVec 256
  lastBytesDelivered : BitVec 256
  lastSignature : Option (Vector UInt8 65)
  chain : LaneChain
deriving DecidableEq

/-- `LaneState::hydrate`. -/
def LaneState.hydrate (poolId : Bytes32) (signer provider : Address) (cap : BitVec 256)
    (expiry : UInt64) (lastAmount lastBytesDelivered : BitVec 256)
    (lastSignature : Option (Vector UInt8 65)) (chain : LaneChain) : LaneState where
  poolId := poolId
  signer := signer
  provider := provider
  cap := cap
  expiry := expiry
  registeredUntil := 0
  ownerSig := none
  paidCumulative := 0
  lastAmount := lastAmount
  lastBytesDelivered := lastBytesDelivered
  lastSignature := lastSignature
  chain := chain

/-! ## Keys -/

/-- `LANE_KEY_LEN`. -/
def laneKeyLen : Nat := 72

/-- `lane_key_bytes`. -/
def laneKeyBytes (key : LaneKey) : Vector UInt8 laneKeyLen :=
  ⟨((toBeBytes (n := 32) key.poolId).toList ++ (toBeBytes (n := 20) key.signer).toList ++
    (toBeBytes (n := 20) key.provider).toList).toArray, by simp [laneKeyLen]⟩

/-- `n` bytes from `start` on. -/
def slice (bytes : Vector UInt8 laneKeyLen) (start n : Nat) (h : start + n ≤ laneKeyLen) :
    Vector UInt8 n :=
  ⟨((bytes.toList.drop start).take n).toArray, by simp; omega⟩

/-- `lane_key_parts`. -/
def laneKeyParts (bytes : Vector UInt8 laneKeyLen) : Bytes32 × Address × Address :=
  (fromBeBytes (slice bytes 0 32 (by decide)), fromBeBytes (slice bytes 32 20 (by decide)),
    fromBeBytes (slice bytes 52 20 (by decide)))

/-! ## Rows -/

/-- `SUPPORTED_SCHEMA_VERSION`. -/
def supportedSchemaVersion : UInt32 := 1

/-- `StoredLaneState`. -/
structure StoredLaneState where
  schemaVersion : UInt32
  lastAmount : Vector UInt8 32
  lastBytesDelivered : Vector UInt8 32
  signature : Wire.Blob
  cap : Vector UInt8 32
  expiry : UInt64
  registeredUntil : UInt64
  chainRoot : Vector UInt8 32
  chunkPrice : Vector UInt8 32
  verifiedIndex : UInt8
  tip : Vector UInt8 32
  ownerSig : Wire.Blob
  paidCumulative : Vector UInt8 32

/-- A signature on disk: its bytes, or none. -/
def storedSignature : Option (Vector UInt8 65) → Wire.Blob
  | some signature => ⟨signature.toList, by rw [Vector.length_toList]; decide⟩
  | none => ⟨[], by decide⟩

/-- `StoredLaneState::from`. -/
def StoredLaneState.ofState (state : LaneState) : StoredLaneState where
  schemaVersion := supportedSchemaVersion
  lastAmount := toBeBytes (n := 32) state.lastAmount
  lastBytesDelivered := toBeBytes (n := 32) state.lastBytesDelivered
  signature := storedSignature state.lastSignature
  cap := toBeBytes (n := 32) state.cap
  expiry := state.expiry
  registeredUntil := state.registeredUntil
  ownerSig := storedSignature state.ownerSig
  paidCumulative := toBeBytes (n := 32) state.paidCumulative
  chainRoot := toBeBytes (n := 32) state.chain.chainRoot
  chunkPrice := toBeBytes (n := 32) state.chain.chunkPrice
  verifiedIndex := state.chain.verifiedIndex
  tip := toBeBytes (n := 32) state.chain.tip

/-- `decode_signature`. -/
def decodeSignature (bytes : List UInt8) (poolId : Bytes32) (what : String) :
    Except StoreError (Option (Vector UInt8 65)) :=
  if bytes.isEmpty then .ok none
  else if h : bytes.length = 65 then .ok (some ⟨bytes.toArray, h⟩)
  else
    let len := bytes.length
    .error (.corrupt (some poolId) s!"stored {what} signature is {len} bytes, expected 0 or 65")

/-- `StoredLaneState::into_state`. -/
def StoredLaneState.intoState (stored : StoredLaneState) (poolId : Bytes32)
    (signer provider : Address) : Except StoreError LaneState :=
  if supportedSchemaVersion < stored.schemaVersion then
    .error (.unsupportedSchema stored.schemaVersion supportedSchemaVersion)
  else do
    let lastSignature ← decodeSignature stored.signature.1 poolId "voucher"
    let ownerSig ← decodeSignature stored.ownerSig.1 poolId "owner capability"
    let state := LaneState.hydrate poolId signer provider (fromBeBytes stored.cap) stored.expiry
      (fromBeBytes stored.lastAmount) (fromBeBytes stored.lastBytesDelivered) lastSignature
      ⟨fromBeBytes stored.chainRoot, fromBeBytes stored.chunkPrice, stored.verifiedIndex,
        fromBeBytes stored.tip⟩
    pure { state with
      registeredUntil := stored.registeredUntil
      ownerSig := ownerSig
      paidCumulative := fromBeBytes stored.paidCumulative }

/-- What the store uses of `postcard`: the format of a row, and the text of a failure. -/
structure Postcard where
  row : Wire StoredLaneState
  failure : List UInt8 → String

/-- `decode_record`.  The warning for a long trailer is left out. -/
def decodeRecord (postcard : Postcard) (keyBytes : Vector UInt8 laneKeyLen)
    (valueBytes : List UInt8) : Except StoreError LaneState :=
  let (poolId, signer, provider) := laneKeyParts keyBytes
  match postcard.row.take valueBytes with
  | some (stored, _) => stored.intoState poolId signer provider
  | none =>
    let err := postcard.failure valueBytes
    .error (.corrupt (some poolId) s!"postcard decode failed: {err}")

/-- The row of a lane. -/
def encodeRecord (postcard : Postcard) (state : LaneState) : List UInt8 :=
  postcard.row.put (.ofState state)

/-! ## Keys and lanes -/

/-- The parts of a key are those of its lane. -/
theorem laneKeyParts_laneKeyBytes (key : LaneKey) :
    laneKeyParts (laneKeyBytes key) = (key.poolId, key.signer, key.provider) := by
  have hpool : slice (laneKeyBytes key) 0 32 (by decide) = toBeBytes (n := 32) key.poolId := by
    apply Vector.toList_inj.mp
    simp [slice, laneKeyBytes]
  have hsigner : slice (laneKeyBytes key) 32 20 (by decide) = toBeBytes (n := 20) key.signer := by
    apply Vector.toList_inj.mp
    simp [slice, laneKeyBytes]
  have hprovider : slice (laneKeyBytes key) 52 20 (by decide) =
      toBeBytes (n := 20) key.provider := by
    apply Vector.toList_inj.mp
    have hpast : (toBeBytes (n := 32) key.poolId).toList.drop 52 = [] :=
      List.drop_eq_nil_of_le (by simp)
    simp [slice, laneKeyBytes, List.drop_append, hpast]
  unfold laneKeyParts
  rw [hpool, hsigner, hprovider]
  simp only [fromBeBytes_toBeBytes]

/-- A key is that of its parts. -/
theorem laneKeyBytes_laneKeyParts (bytes : Vector UInt8 laneKeyLen) :
    laneKeyBytes ⟨(laneKeyParts bytes).1, (laneKeyParts bytes).2.1, (laneKeyParts bytes).2.2⟩ =
      bytes := by
  apply Vector.toList_inj.mp
  unfold laneKeyBytes laneKeyParts
  simp only [toBeBytes_fromBeBytes]
  have hlen : bytes.toList.length = 72 := Vector.length_toList
  change bytes.toList.take 32 ++ (bytes.toList.drop 32).take 20 ++ (bytes.toList.drop 52).take 20 =
    bytes.toList
  generalize bytes.toList = l at hlen
  have hlast : (l.drop 52).take 20 = (l.drop 32).drop 20 := by
    rw [List.drop_drop, List.take_of_length_le (by rw [List.length_drop]; omega)]
  rw [hlast, List.append_assoc, List.take_append_drop, List.take_append_drop]

/-! ## Rows and lanes -/

/-- A signature comes back from disk. -/
theorem decodeSignature_stored (signature : Option (Vector UInt8 65)) (poolId : Bytes32)
    (what : String) : decodeSignature (storedSignature signature).1 poolId what = .ok signature := by
  cases signature with
  | none => rfl
  | some signature =>
    have hlen : signature.toList.length = 65 := Vector.length_toList
    have hpresent : signature.toList.isEmpty = false := by
      cases hlist : signature.toList with
      | nil => rw [hlist] at hlen; cases hlen
      | cons b bytes => rfl
    have hback : (⟨signature.toList.toArray, hlen⟩ : Vector UInt8 65) = signature :=
      Vector.toList_inj.mp rfl
    unfold decodeSignature storedSignature
    dsimp only
    rw [hpresent, if_neg (by simp), dif_pos hlen, hback]

/-- A signature is refused exactly when its length is wrong. -/
theorem decodeSignature_error {bytes : List UInt8} (poolId : Bytes32) (what : String)
    (h : bytes.length ≠ 0 ∧ bytes.length ≠ 65) :
    ∃ detail, decodeSignature bytes poolId what = .error (.corrupt (some poolId) detail) := by
  have hpresent : bytes.isEmpty = false := by
    cases bytes with
    | nil => exact absurd rfl h.1
    | cons b bytes => rfl
  unfold decodeSignature
  rw [hpresent, if_neg (by simp), dif_neg h.2]
  exact ⟨_, rfl⟩

/-- A lane comes back from its row. -/
theorem intoState_ofState (state : LaneState) :
    (StoredLaneState.ofState state).intoState state.poolId state.signer state.provider =
      .ok state := by
  unfold StoredLaneState.intoState StoredLaneState.ofState
  dsimp only
  rw [if_neg (by decide), decodeSignature_stored, decodeSignature_stored]
  simp only [fromBeBytes_toBeBytes]
  rfl

/-- A row gives a lane of its key. -/
theorem key_of_intoState {stored : StoredLaneState} {poolId : Bytes32} {signer provider : Address}
    {state : LaneState} (h : stored.intoState poolId signer provider = .ok state) :
    state.toLaneKey = ⟨poolId, signer, provider⟩ := by
  unfold StoredLaneState.intoState at h
  split at h
  · cases h
  · cases hvoucher : decodeSignature stored.signature.1 poolId "voucher" with
    | error e =>
      rw [hvoucher] at h
      cases h
    | ok lastSignature =>
      cases howner : decodeSignature stored.ownerSig.1 poolId "owner capability" with
      | error e =>
        rw [hvoucher, howner] at h
        cases h
      | ok ownerSig =>
        rw [hvoucher, howner] at h
        cases h
        rfl

/-- A row with a malformed signature is refused. -/
theorem intoState_malformed {stored : StoredLaneState} (poolId : Bytes32)
    (signer provider : Address)
    (h : (stored.signature.1.length ≠ 0 ∧ stored.signature.1.length ≠ 65) ∨
      (stored.ownerSig.1.length ≠ 0 ∧ stored.ownerSig.1.length ≠ 65)) :
    ∃ e, stored.intoState poolId signer provider = .error e := by
  unfold StoredLaneState.intoState
  split
  · exact ⟨_, rfl⟩
  · cases hvoucher : decodeSignature stored.signature.1 poolId "voucher" with
    | error e => exact ⟨e, rfl⟩
    | ok lastSignature =>
      rcases h with hbad | hbad
      · rcases decodeSignature_error poolId "voucher" hbad with ⟨detail, herror⟩
        exact absurd (hvoucher.symm.trans herror) (by simp)
      · rcases decodeSignature_error poolId "owner capability" hbad with ⟨detail, herror⟩
        rw [herror]
        exact ⟨_, rfl⟩

/-! ## The codec -/

/-- A row that the store wrote gives the lane back. -/
theorem decodeRecord_encodeRecord {P : Postcard} (h : P.row.Lawful) (state : LaneState) :
    decodeRecord P (laneKeyBytes state.toLaneKey) (encodeRecord P state) = .ok state := by
  unfold decodeRecord encodeRecord
  rw [laneKeyParts_laneKeyBytes, h.take_put]
  exact intoState_ofState state

/-- Lanes come back from their key and row, also when they were read and written again; a row
with a malformed signature, and a row without its last fields, is refused. -/
theorem lane_record_codec {P : Postcard} (h : P.row.Lawful) :
    (∀ state : LaneState,
      laneKeyParts (laneKeyBytes state.toLaneKey) = (state.poolId, state.signer, state.provider) ∧
        decodeRecord P (laneKeyBytes state.toLaneKey) (encodeRecord P state) = .ok state) ∧
    Function.Injective laneKeyBytes ∧
    (∀ keyBytes valueBytes state, decodeRecord P keyBytes valueBytes = .ok state →
      laneKeyBytes state.toLaneKey = keyBytes ∧
        decodeRecord P keyBytes (encodeRecord P state) = .ok state) ∧
    (∀ keyBytes valueBytes stored rest, P.row.take valueBytes = some (stored, rest) →
      (stored.signature.1.length ≠ 0 ∧ stored.signature.1.length ≠ 65) ∨
        (stored.ownerSig.1.length ≠ 0 ∧ stored.ownerSig.1.length ≠ 65) →
      ∃ e, decodeRecord P keyBytes valueBytes = .error e) ∧
    ∀ keyBytes stored older missing, P.row.put stored = older ++ missing → missing ≠ [] →
      ∃ detail, decodeRecord P keyBytes older =
        .error (.corrupt (some (laneKeyParts keyBytes).1) detail) := by
  refine ⟨fun state => ⟨laneKeyParts_laneKeyBytes _, decodeRecord_encodeRecord h state⟩, ?_, ?_, ?_,
    ?_⟩
  · intro key key' hbytes
    have hparts := congrArg laneKeyParts hbytes
    rw [laneKeyParts_laneKeyBytes, laneKeyParts_laneKeyBytes] at hparts
    cases key
    cases key'
    simpa using hparts
  · intro keyBytes valueBytes state hdecode
    have hkey : laneKeyBytes state.toLaneKey = keyBytes := by
      unfold decodeRecord at hdecode
      dsimp only at hdecode
      split at hdecode
      · rw [key_of_intoState hdecode]
        exact laneKeyBytes_laneKeyParts keyBytes
      · cases hdecode
    exact ⟨hkey, hkey ▸ decodeRecord_encodeRecord h state⟩
  · intro keyBytes valueBytes stored rest htake hmalformed
    unfold decodeRecord
    rw [htake]
    exact intoState_malformed _ _ _ hmalformed
  · intro keyBytes stored older missing hput hmissing
    unfold decodeRecord
    rw [h.whole stored older missing hput hmissing]
    exact ⟨_, rfl⟩

/-! ## The format of `postcard` -/

/-- The fields of a row in order. -/
def rowFields := Wire.word32.pair <| (Wire.raw 32).pair <| (Wire.raw 32).pair <| Wire.bytes.pair <|
  (Wire.raw 32).pair <| Wire.word64.pair <| Wire.word64.pair <| (Wire.raw 32).pair <|
  (Wire.raw 32).pair <| Wire.byte.pair <| (Wire.raw 32).pair <| Wire.bytes.pair (Wire.raw 32)

/-- The row format: the fields one after another. -/
def postcardLane : Postcard where
  row := rowFields.map
    (fun (schemaVersion, lastAmount, lastBytesDelivered, signature, cap, expiry, registeredUntil,
        chainRoot, chunkPrice, verifiedIndex, tip, ownerSig, paidCumulative) =>
      { schemaVersion, lastAmount, lastBytesDelivered, signature, cap, expiry, registeredUntil,
        chainRoot, chunkPrice, verifiedIndex, tip, ownerSig, paidCumulative })
    fun r => (r.schemaVersion, r.lastAmount, r.lastBytesDelivered, r.signature, r.cap, r.expiry,
      r.registeredUntil, r.chainRoot, r.chunkPrice, r.verifiedIndex, r.tip, r.ownerSig,
      r.paidCumulative)
  failure _ := "Hit the end of buffer, expected more data"

/-- It is lawful. -/
theorem lawful_postcardLane : postcardLane.row.Lawful := by
  have hfields : rowFields.Lawful :=
    Wire.lawful_word32.pair <| (Wire.lawful_raw 32).pair <| (Wire.lawful_raw 32).pair <|
    Wire.lawful_bytes.pair <| (Wire.lawful_raw 32).pair <| Wire.lawful_word64.pair <|
    Wire.lawful_word64.pair <| (Wire.lawful_raw 32).pair <| (Wire.lawful_raw 32).pair <|
    Wire.lawful_byte.pair <| (Wire.lawful_raw 32).pair <| Wire.lawful_bytes.pair (Wire.lawful_raw 32)
  unfold postcardLane
  dsimp only
  apply hfields.map
  intro r
  rfl

/-- A lane with a voucher, five chunks of a chain, and a redemption. -/
def sampleLane : LaneState where
  poolId := 1
  signer := 2
  provider := 3
  cap := 1000
  expiry := 4000000000
  registeredUntil := 4000000000
  ownerSig := none
  paidCumulative := 100
  lastAmount := 300
  lastBytesDelivered := 70000
  lastSignature := some (Vector.replicate 65 7)
  chain := ⟨4, 10, 5, 6⟩

theorem lane_record_codec_sample :
    (encodeRecord postcardLane sampleLane).length = 303 ∧
      decodeRecord postcardLane (laneKeyBytes sampleLane.toLaneKey)
        (encodeRecord postcardLane sampleLane) = .ok sampleLane :=
  ⟨by decide +kernel, ((lane_record_codec lawful_postcardLane).1 sampleLane).2⟩

/-- A row of the time before `paid_cumulative` is refused, not read with a default. -/
theorem older_row_refused :
    decodeRecord postcardLane (laneKeyBytes sampleLane.toLaneKey)
        ((encodeRecord postcardLane sampleLane).take (303 - 32)) =
      .error (.corrupt (some 1)
        "postcard decode failed: Hit the end of buffer, expected more data") := by
  decide +kernel

end Decdn.Node.LaneRecord
