import Decdn.Foundations.BigEndian
import Decdn.Foundations.WireLists
import Decdn.Incentive.BuyerPool
import Decdn.Incentive.Lane
import Mathlib.Data.List.Sort

/-!
# The buyer's records on disk

How a buyer keeps its pools and its delegate lanes in the tables of
`crates/incentive/src/buyer_pool_table.rs`.  A pool is a row under its id, with its lanes in
the order of signer and provider; a row repeats its id, and its lanes leave theirs out.  A
delegate lane is a row of its own, under a key that starts with the deployment, the pool and
the signer.  The rows are written by `postcard`, which this file takes as a lawful format.

Main results:

- Theorem `decodeRecord_encodeRecord`: a pool comes back from its row.
- Theorem `delegateKey_injective` and Theorem `delegateKey_between`: the keys of the lanes of
  one signer are those between two bounds.
-/

namespace Decdn.Incentive.BuyerStore

open BuyerPool

/-! ## Pools -/

/-- `Deployment`. -/
structure Deployment where
  chainId : UInt64
  paymentPool : Address
deriving DecidableEq

/-- `BuyerPoolState`: the pool, and the spend view of its lanes. -/
structure PoolRow where
  poolId : Bytes32
  deployment : Deployment
  owner : Address
  token : Address
  spend : BuyerPoolState LaneKey

/-- Both totals are 256-bit words. -/
def Words (progress : BuyerLaneProgress) : Prop :=
  progress.lastAmount < U256.modulus ∧ progress.lastBytes < U256.modulus

/-- The amounts are 256-bit words, and each lane is one of the pool. -/
structure ProperSpend (poolId : Bytes32) (spend : BuyerPoolState LaneKey) : Prop where
  deposit : spend.deposit < U256.modulus
  elsewhere : spend.redeemedElsewhere < U256.modulus
  lanes : ∀ lane progress, spend.lanes.get lane = some progress →
    lane.poolId = poolId ∧ Words progress

def PoolRow.Proper (row : PoolRow) : Prop := ProperSpend row.poolId row.spend

/-- Two spend views that differ in the order of the lanes only. -/
structure SameSpend (spend other : BuyerPoolState LaneKey) : Prop where
  deposit : spend.deposit = other.deposit
  elsewhere : spend.redeemedElsewhere = other.redeemedElsewhere
  lanes : ∀ lane, spend.lanes.get lane = other.lanes.get lane

/-- Two rows of one pool that differ in the order of the lanes only. -/
structure PoolRow.Same (row other : PoolRow) : Prop where
  poolId : row.poolId = other.poolId
  deployment : row.deployment = other.deployment
  owner : row.owner = other.owner
  token : row.token = other.token
  spend : SameSpend row.spend other.spend

theorem PoolRow.Same.refl (row : PoolRow) : row.Same row :=
  ⟨rfl, rfl, rfl, rfl, rfl, rfl, fun _ => rfl⟩

theorem PoolRow.Same.trans {a b c : PoolRow} (hab : a.Same b) (hbc : b.Same c) : a.Same c :=
  ⟨hab.poolId.trans hbc.poolId, hab.deployment.trans hbc.deployment, hab.owner.trans hbc.owner,
    hab.token.trans hbc.token, hab.spend.deposit.trans hbc.spend.deposit,
    hab.spend.elsewhere.trans hbc.spend.elsewhere,
    fun lane => (hab.spend.lanes lane).trans (hbc.spend.lanes lane)⟩

/-- A row that differs from a proper one in the order of the lanes only is proper. -/
theorem PoolRow.Same.proper {row other : PoolRow} (h : row.Same other) (hother : other.Proper) :
    row.Proper where
  deposit := h.spend.deposit ▸ hother.deposit
  elsewhere := h.spend.elsewhere ▸ hother.elsewhere
  lanes lane progress hget := by
    rw [h.poolId]
    exact hother.lanes lane progress (h.spend.lanes lane ▸ hget)

/-! ## Stored records -/

/-- An amount in 32 bytes. -/
def amountBytes (n : Nat) : Vector UInt8 32 := toBeBytes (n := 32) (BitVec.ofNat 256 n)

/-- The amount that 32 bytes write. -/
def amountOf (bytes : Vector UInt8 32) : Nat := (fromBeBytes bytes).toNat

theorem amountOf_amountBytes {n : Nat} (h : n < U256.modulus) :
    amountOf (amountBytes n) = n := by
  unfold amountOf amountBytes
  rw [fromBeBytes_toBeBytes, BitVec.toNat_ofNat]
  exact Nat.mod_eq_of_lt h

def idBytes (id : Bytes32) : Vector UInt8 32 := toBeBytes (n := 32) id

def addressBytes (address : Address) : Vector UInt8 20 := toBeBytes (n := 20) address

def addressOf (bytes : Vector UInt8 20) : Address := fromBeBytes (n := 20) bytes

@[simp] theorem addressOf_addressBytes (address : Address) :
    addressOf (addressBytes address) = address := fromBeBytes_toBeBytes (n := 20) address

theorem idBytes_injective : Function.Injective idBytes := by
  intro a b h
  have hback := congrArg (fromBeBytes (n := 32)) h
  unfold idBytes at hback
  rwa [fromBeBytes_toBeBytes, fromBeBytes_toBeBytes] at hback

theorem addressBytes_injective : Function.Injective addressBytes := by
  intro a b h
  have hback := congrArg addressOf h
  rwa [addressOf_addressBytes, addressOf_addressBytes] at hback

/-- `StoredLane`. -/
structure StoredLane where
  signer : Vector UInt8 20
  provider : Vector UInt8 20
  lastAmount : Vector UInt8 32
  lastBytes : Vector UInt8 32

/-- `StoredBuyerPoolState`. -/
structure StoredBuyerPoolState where
  schemaVersion : UInt32
  poolId : Vector UInt8 32
  chainId : Vector UInt8 8
  paymentPool : Vector UInt8 20
  owner : Vector UInt8 20
  token : Vector UInt8 20
  deposit : Vector UInt8 32
  lanes : List StoredLane
  redeemedElsewhere : Vector UInt8 32

/-- `StoredDelegateLane`. -/
structure StoredDelegateLane where
  schemaVersion : UInt32
  lastAmount : Vector UInt8 32
  lastBytes : Vector UInt8 32

/-- `BUYER_SUPPORTED_SCHEMA_VERSION`. -/
def buyerSupportedSchemaVersion : UInt32 := 1

/-- `DELEGATE_LANE_SCHEMA_VERSION`. -/
def delegateLaneSchemaVersion : UInt32 := 1

/-- What the store uses of `postcard`, the formats of the rows and the text of a failure, and
the checksummed text of an address. -/
structure Postcard where
  pool : Wire StoredBuyerPoolState
  lane : Wire StoredDelegateLane
  failure : List UInt8 → String
  addressText : Address → String

/-- What the store relies on. -/
structure Postcard.Lawful (P : Postcard) : Prop where
  pool : P.pool.Lawful
  lane : P.lane.Lawful

/-! ## Pool records -/

def StoredLane.ofEntry (entry : LaneKey × BuyerLaneProgress) : StoredLane where
  signer := addressBytes entry.1.signer
  provider := addressBytes entry.1.provider
  lastAmount := amountBytes entry.2.lastAmount
  lastBytes := amountBytes entry.2.lastBytes

def StoredLane.entry (poolId : Bytes32) (stored : StoredLane) : LaneKey × BuyerLaneProgress :=
  (⟨poolId, addressOf stored.signer, addressOf stored.provider⟩,
    ⟨amountOf stored.lastAmount, amountOf stored.lastBytes⟩)

/-- The order of the lanes in a record. -/
def StoredLane.le (a b : StoredLane) : Bool :=
  let rank := fun l : StoredLane => (ofBigEndian l.signer.toList, ofBigEndian l.provider.toList)
  decide ((rank a).1 < (rank b).1 ∨ (rank a).1 = (rank b).1 ∧ (rank a).2 ≤ (rank b).2)

/-- `StoredBuyerPoolState::from`. -/
def StoredBuyerPoolState.ofRow (row : PoolRow) : StoredBuyerPoolState where
  schemaVersion := buyerSupportedSchemaVersion
  poolId := idBytes row.poolId
  chainId := toBeBytes (n := 8) row.deployment.chainId.toBitVec
  paymentPool := addressBytes row.deployment.paymentPool
  owner := addressBytes row.owner
  token := addressBytes row.token
  deposit := amountBytes row.spend.deposit
  lanes := (row.spend.lanes.entries.map StoredLane.ofEntry).mergeSort StoredLane.le
  redeemedElsewhere := amountBytes row.spend.redeemedElsewhere

/-- The map of some entries, the last one of a key. -/
def collect (entries : List (LaneKey × BuyerLaneProgress)) : HashMap LaneKey BuyerLaneProgress :=
  entries.foldl (fun lanes entry => lanes.insert entry.1 entry.2) .empty

/-- `StoredBuyerPoolState::into_state`. -/
def StoredBuyerPoolState.intoState (stored : StoredBuyerPoolState) (poolId : Bytes32) :
    Except StoreError PoolRow :=
  if stored.schemaVersion ≠ buyerSupportedSchemaVersion then
    .error (.unsupportedSchema stored.schemaVersion buyerSupportedSchemaVersion)
  else .ok
    { poolId
      deployment := ⟨⟨fromBeBytes (n := 8) stored.chainId⟩, addressOf stored.paymentPool⟩
      owner := addressOf stored.owner
      token := addressOf stored.token
      spend :=
        { deposit := amountOf stored.deposit
          lanes := collect (stored.lanes.map (StoredLane.entry poolId))
          redeemedElsewhere := amountOf stored.redeemedElsewhere } }

/-- `encode_record`. -/
def encodeRecord (P : Postcard) (row : PoolRow) : List UInt8 := P.pool.put (.ofRow row)

/-- An id in the text of an error. -/
def hexId (id : Bytes32) : String := "0x" ++ id.toHex

/-- `decode_record`.  The warning for a long trailer is left out. -/
def decodeRecord (P : Postcard) (keyBytes : Vector UInt8 32) (valueBytes : List UInt8) :
    Except StoreError PoolRow :=
  let poolId : Bytes32 := fromBeBytes (n := 32) keyBytes
  let id := hexId poolId
  match P.pool.take valueBytes with
  | none =>
    let err := P.failure valueBytes
    .error (.corrupt (some poolId) s!"buyer record postcard decode failed (pool_id {id}): {err}")
  | some (stored, _) =>
    if stored.poolId ≠ keyBytes then
      .error (.corrupt (some poolId) s!"buyer record pool_id {id} does not match table key")
    else stored.intoState poolId

/-! ## Delegate lanes -/

/-- `Deployment::to_bytes`. -/
def Deployment.toBytes (deployment : Deployment) : Vector UInt8 28 :=
  toBeBytes (n := 8) deployment.chainId.toBitVec ++ addressBytes deployment.paymentPool

/-- `delegate_signer_prefix`. -/
def delegateSignerPrefix (deployment : Deployment) (poolId : Bytes32) (signer : Address) :
    Vector UInt8 80 :=
  deployment.toBytes ++ idBytes poolId ++ addressBytes signer

/-- `delegate_lane_key`. -/
def delegateLaneKey (head : Vector UInt8 80) (tail : Vector UInt8 20) : Vector UInt8 100 :=
  head ++ tail

/-- `delegate_key`. -/
def delegateKey (deployment : Deployment) (lane : LaneKey) : Vector UInt8 100 :=
  delegateLaneKey (delegateSignerPrefix deployment lane.poolId lane.signer)
    (addressBytes lane.provider)

/-- The last bytes of a key: the provider. -/
def keyProvider (key : Vector UInt8 100) : Address := addressOf (key.drop 80)

/-- `encode_delegate_lane`. -/
def encodeDelegateLane (P : Postcard) (progress : BuyerLaneProgress) : List UInt8 :=
  P.lane.put
    { schemaVersion := delegateLaneSchemaVersion
      lastAmount := amountBytes progress.lastAmount
      lastBytes := amountBytes progress.lastBytes }

/-- `decode_delegate_lane`. -/
def decodeDelegateLane (P : Postcard) (lane : LaneKey) (bytes : List UInt8) :
    Except StoreError BuyerLaneProgress :=
  let id := hexId lane.poolId
  let signer := P.addressText lane.signer
  let provider := P.addressText lane.provider
  let corrupt := fun why : String => StoreError.corrupt (some lane.poolId)
    s!"delegate lane record (pool_id {id}, signer {signer}, provider {provider}) {why}"
  match P.lane.take bytes with
  | none =>
    let err := P.failure bytes
    .error (corrupt s!"postcard decode failed: {err}")
  | some (stored, remainder) =>
    if !remainder.isEmpty then
      let len := remainder.length
      .error (corrupt s!"has {len} trailing bytes")
    else if stored.schemaVersion ≠ delegateLaneSchemaVersion then
      .error (.unsupportedSchema stored.schemaVersion delegateLaneSchemaVersion)
    else .ok ⟨amountOf stored.lastAmount, amountOf stored.lastBytes⟩

/-! ## A pool comes back from its row -/

theorem get_collect {entries : List (LaneKey × BuyerLaneProgress)}
    (hnodup : (entries.map Prod.fst).Nodup) (lane : LaneKey) (progress : BuyerLaneProgress) :
    (collect entries).get lane = some progress ↔ (lane, progress) ∈ entries := by
  unfold collect
  induction entries using List.reverseRecOn with
  | nil => simp
  | append_singleton entries entry ih =>
    rw [List.map_append, List.nodup_append] at hnodup
    rw [List.foldl_append, List.foldl_cons, List.foldl_nil, HashMap.get_insert, List.mem_append,
      List.mem_singleton, ← ih hnodup.1]
    by_cases heq : lane = entry.1
    · subst heq
      have hout : ∀ other, (entry.1, other) ∉ entries := fun other hmem =>
        hnodup.2.2 entry.1 (List.mem_map.mpr ⟨_, hmem, rfl⟩) entry.1 (by simp) rfl
      rw [if_pos rfl, ih hnodup.1]
      constructor
      · intro hsome
        exact .inr (Prod.ext rfl (Option.some.inj hsome).symm)
      · rintro (hold | hnew)
        · exact absurd hold (hout progress)
        · rw [← hnew]
    · rw [if_neg heq]
      constructor
      · exact fun hold => .inl hold
      · rintro (hold | hnew)
        · exact hold
        · exact absurd (congrArg Prod.fst hnew) heq

/-- The lanes of a proper pool come back. -/
theorem entry_ofEntry {row : PoolRow} (hproper : row.Proper)
    {entry : LaneKey × BuyerLaneProgress} (hmem : entry ∈ row.spend.lanes.entries) :
    StoredLane.entry row.poolId (StoredLane.ofEntry entry) = entry := by
  rcases entry with ⟨lane, progress⟩
  rcases hproper.lanes lane progress (HashMap.get_eq_some.mpr hmem) with ⟨hpool, hamount, hbytes⟩
  unfold StoredLane.entry StoredLane.ofEntry
  dsimp only
  rw [addressOf_addressBytes, addressOf_addressBytes, amountOf_amountBytes hamount,
    amountOf_amountBytes hbytes, ← hpool]

/-- The lanes that are read back, in the order of the record. -/
theorem entries_perm {row : PoolRow} (hproper : row.Proper) :
    List.Perm ((StoredBuyerPoolState.ofRow row).lanes.map (StoredLane.entry row.poolId))
      row.spend.lanes.entries := by
  have hsorted := (List.mergeSort_perm (row.spend.lanes.entries.map StoredLane.ofEntry)
    StoredLane.le).map (StoredLane.entry row.poolId)
  have hback : (row.spend.lanes.entries.map StoredLane.ofEntry).map (StoredLane.entry row.poolId) =
      row.spend.lanes.entries := by
    rw [List.map_map]
    calc row.spend.lanes.entries.map (StoredLane.entry row.poolId ∘ StoredLane.ofEntry)
        = row.spend.lanes.entries.map id :=
          List.map_congr_left fun entry hmem => entry_ofEntry hproper hmem
      _ = row.spend.lanes.entries := List.map_id _
  rwa [hback] at hsorted

/-- A proper pool comes back from its row. -/
theorem decodeRecord_encodeRecord {P : Postcard} (hP : P.Lawful) {row : PoolRow}
    (hproper : row.Proper) :
    ∃ back, decodeRecord P (idBytes row.poolId) (encodeRecord P row) = .ok back ∧
      back.Same row := by
  have hid : fromBeBytes (n := 32) (idBytes row.poolId) = row.poolId := fromBeBytes_toBeBytes _
  have hperm := entries_perm hproper
  have hnodup : (((StoredBuyerPoolState.ofRow row).lanes.map
      (StoredLane.entry row.poolId)).map Prod.fst).Nodup :=
    (hperm.map Prod.fst).nodup_iff.mpr row.spend.lanes.nodup
  unfold decodeRecord encodeRecord
  dsimp only
  rw [hP.pool.take_put, hid]
  dsimp only
  rw [if_neg (fun h => h rfl)]
  unfold StoredBuyerPoolState.intoState
  rw [if_neg (fun h => h rfl)]
  refine ⟨_, rfl, rfl, ?_, addressOf_addressBytes _, addressOf_addressBytes _,
    ⟨amountOf_amountBytes hproper.deposit, amountOf_amountBytes hproper.elsewhere,
      fun lane => ?_⟩⟩
  · have hchain : (⟨fromBeBytes (n := 8) (toBeBytes (n := 8) row.deployment.chainId.toBitVec)⟩ :
        UInt64) = row.deployment.chainId := by
      rw [fromBeBytes_toBeBytes]
    have hpool := addressOf_addressBytes row.deployment.paymentPool
    change Deployment.mk _ _ = row.deployment
    exact congrArg₂ Deployment.mk hchain hpool
  · apply Option.ext
    intro progress
    rw [get_collect hnodup, hperm.mem_iff]
    exact HashMap.get_eq_some.symm

/-- A delegate lane comes back from its row. -/
theorem decodeDelegateLane_encodeDelegateLane {P : Postcard} (hP : P.Lawful) (lane : LaneKey)
    {progress : BuyerLaneProgress} (hwords : Words progress) :
    decodeDelegateLane P lane (encodeDelegateLane P progress) = .ok progress := by
  unfold decodeDelegateLane encodeDelegateLane
  dsimp only
  rw [hP.lane.take_put]
  dsimp only
  rw [if_neg (by simp), if_neg (fun h => h rfl), amountOf_amountBytes hwords.1,
    amountOf_amountBytes hwords.2]

/-! ## The order of the keys -/

/-- The rank of a key in the order of its bytes. -/
def keyRank {n : Nat} (key : Vector UInt8 n) : Nat := ofBigEndian key.toList

theorem keyRank_injective {n : Nat} : Function.Injective (keyRank (n := n)) := by
  intro a b h
  have hback := congrArg (toBigEndian n) h
  unfold keyRank at hback
  have ha := toBigEndian_ofBigEndian a.toList
  have hb := toBigEndian_ofBigEndian b.toList
  rw [Vector.length_toList] at ha hb
  rw [ha, hb] at hback
  exact Vector.toList_inj.mp hback

theorem keyRank_delegateLaneKey (head : Vector UInt8 80) (tail : Vector UInt8 20) :
    keyRank (delegateLaneKey head tail) = keyRank head * 256 ^ 20 + keyRank tail := by
  unfold keyRank delegateLaneKey
  rw [Vector.toList_append, ofBigEndian_concat, Vector.length_toList]

theorem keyRank_lt (tail : Vector UInt8 20) : keyRank tail < 256 ^ 20 := by
  have hlt := ofBigEndian_lt tail.toList
  rwa [Vector.length_toList] at hlt

theorem delegateSignerPrefix_inj {deployment other : Deployment} {poolId id : Bytes32}
    {signer account : Address}
    (h : delegateSignerPrefix deployment poolId signer = delegateSignerPrefix other id account) :
    deployment = other ∧ poolId = id ∧ signer = account := by
  unfold delegateSignerPrefix Deployment.toBytes at h
  have hlist := congrArg Vector.toList h
  simp only [Vector.toList_append] at hlist
  rcases List.append_inj hlist (by simp) with ⟨hhead, hsigner⟩
  rcases List.append_inj hhead (by simp) with ⟨hdeployment, hid⟩
  rcases List.append_inj hdeployment (by simp) with ⟨hchain, hpool⟩
  refine ⟨?_, idBytes_injective (Vector.toList_inj.mp hid),
    addressBytes_injective (Vector.toList_inj.mp hsigner)⟩
  have hword := congrArg (fromBeBytes (n := 8)) (Vector.toList_inj.mp hchain)
  rw [fromBeBytes_toBeBytes, fromBeBytes_toBeBytes] at hword
  cases deployment
  cases other
  exact congrArg₂ Deployment.mk (UInt64.toBitVec_inj.mp hword)
    (addressBytes_injective (Vector.toList_inj.mp hpool))

theorem delegateLaneKey_inj {head other : Vector UInt8 80} {tail last : Vector UInt8 20}
    (h : delegateLaneKey head tail = delegateLaneKey other last) : head = other ∧ tail = last := by
  unfold delegateLaneKey at h
  have hlist := congrArg Vector.toList h
  rw [Vector.toList_append, Vector.toList_append] at hlist
  rcases List.append_inj hlist (by simp) with ⟨hhead, htail⟩
  exact ⟨Vector.toList_inj.mp hhead, Vector.toList_inj.mp htail⟩

/-- A lane and its deployment are told from its key. -/
theorem delegateKey_injective {deployment other : Deployment} {lane key : LaneKey}
    (h : delegateKey deployment lane = delegateKey other key) :
    deployment = other ∧ lane = key := by
  unfold delegateKey at h
  rcases delegateLaneKey_inj h with ⟨hhead, htail⟩
  rcases delegateSignerPrefix_inj hhead with ⟨hdeployment, hid, hsigner⟩
  cases lane
  cases key
  simp only [LaneKey.mk.injEq]
  exact ⟨hdeployment, hid, hsigner, addressBytes_injective htail⟩

@[simp] theorem keyProvider_delegateKey (deployment : Deployment) (lane : LaneKey) :
    keyProvider (delegateKey deployment lane) = lane.provider := by
  have hdrop : (delegateKey deployment lane).drop 80 = addressBytes lane.provider := by
    apply Vector.toList_inj.mp
    rw [Vector.toList_drop]
    unfold delegateKey delegateLaneKey
    rw [Vector.toList_append, List.drop_left' (by simp)]
  unfold keyProvider
  rw [hdrop, addressOf_addressBytes]

/-- The keys of the lanes of one signer are those between two bounds. -/
theorem delegateKey_between (deployment other : Deployment) (poolId : Bytes32)
    (signer : Address) (lane : LaneKey) :
    keyRank (delegateLaneKey (delegateSignerPrefix deployment poolId signer)
        (Vector.replicate 20 0x00)) ≤ keyRank (delegateKey other lane) ∧
      keyRank (delegateKey other lane) ≤
        keyRank (delegateLaneKey (delegateSignerPrefix deployment poolId signer)
          (Vector.replicate 20 0xff)) ↔
    other = deployment ∧ lane.poolId = poolId ∧ lane.signer = signer := by
  have hfirst : keyRank (Vector.replicate 20 (0x00 : UInt8)) = 0 := by decide
  have hlast : keyRank (Vector.replicate 20 (0xff : UInt8)) + 1 = 256 ^ 20 := by decide
  have htail := keyRank_lt (addressBytes lane.provider)
  unfold delegateKey
  rw [keyRank_delegateLaneKey, keyRank_delegateLaneKey, keyRank_delegateLaneKey]
  generalize hhead : delegateSignerPrefix deployment poolId signer = head
  generalize hother : delegateSignerPrefix other lane.poolId lane.signer = key
  constructor
  · intro hbetween
    have hsame : key = head := keyRank_injective (by omega)
    rw [← hhead, ← hother] at hsame
    exact delegateSignerPrefix_inj hsame
  · rintro ⟨rfl, rfl, rfl⟩
    rw [← hhead, hother]
    omega

/-! ## The format of `postcard` -/

/-- The fields of a lane in order. -/
def laneFields := (Wire.raw 20).pair <| (Wire.raw 20).pair <| (Wire.raw 32).pair (Wire.raw 32)

def storedLane : Wire StoredLane :=
  laneFields.map
    (fun (signer, provider, lastAmount, lastBytes) => { signer, provider, lastAmount, lastBytes })
    fun l => (l.signer, l.provider, l.lastAmount, l.lastBytes)

/-- The fields of a pool in order. -/
def poolFields := Wire.word32.pair <| (Wire.raw 32).pair <| (Wire.raw 8).pair <|
  (Wire.raw 20).pair <| (Wire.raw 20).pair <| (Wire.raw 20).pair <| (Wire.raw 32).pair <|
  (Wire.list storedLane).pair (Wire.raw 32)

/-- The fields of a delegate lane in order. -/
def delegateFields := Wire.word32.pair <| (Wire.raw 32).pair (Wire.raw 32)

/-- The row formats: the fields one after another. -/
def postcardRows : Postcard where
  pool := poolFields.map
    (fun (schemaVersion, poolId, chainId, paymentPool, owner, token, deposit, lanes,
        redeemedElsewhere) =>
      { schemaVersion, poolId, chainId, paymentPool, owner, token, deposit, lanes,
        redeemedElsewhere })
    fun r => (r.schemaVersion, r.poolId, r.chainId, r.paymentPool, r.owner, r.token, r.deposit,
      r.lanes, r.redeemedElsewhere)
  lane := delegateFields.map
    (fun (schemaVersion, lastAmount, lastBytes) => { schemaVersion, lastAmount, lastBytes })
    fun l => (l.schemaVersion, l.lastAmount, l.lastBytes)
  failure _ := "Hit the end of buffer, expected more data"
  addressText address := "0x" ++ address.toHex

/-- They are lawful. -/
theorem lawful_postcardRows : postcardRows.Lawful where
  pool := by
    have hlane : storedLane.Lawful := by
      unfold storedLane laneFields
      apply ((Wire.lawful_raw 20).pair <| (Wire.lawful_raw 20).pair <|
        (Wire.lawful_raw 32).pair (Wire.lawful_raw 32)).map
      intro l
      rfl
    have hfields : poolFields.Lawful :=
      Wire.lawful_word32.pair <| (Wire.lawful_raw 32).pair <| (Wire.lawful_raw 8).pair <|
      (Wire.lawful_raw 20).pair <| (Wire.lawful_raw 20).pair <| (Wire.lawful_raw 20).pair <|
      (Wire.lawful_raw 32).pair <| hlane.list.pair (Wire.lawful_raw 32)
    unfold postcardRows
    dsimp only
    apply hfields.map
    intro r
    rfl
  lane := by
    have hfields : delegateFields.Lawful :=
      Wire.lawful_word32.pair <| (Wire.lawful_raw 32).pair (Wire.lawful_raw 32)
    unfold postcardRows
    dsimp only
    apply hfields.map
    intro l
    rfl

end Decdn.Incentive.BuyerStore
