import Decdn.Foundations.OrderedTables
import Decdn.Incentive.BuyerRecord

/-!
# The two stores of a buyer

The trait `BuyerPoolStore` has two implementations: the tables of a file
(`crates/incentive/src/buyer_pool_table.rs`), where each operation is one write transaction,
and the maps of a process (`MemoryBuyerPoolStore`, `crates/incentive/src/buyer_pool.rs`).  A
table that was never opened reads as an empty one.  How the store behind the tables keeps
their rows is a parameter.  The salt of the lane signer is left out, and so are the failures of
the backend.
-/

namespace Decdn.Incentive.BuyerStore

open BuyerPool

/-! ## What the operations answer -/

inductive AdvanceOutcome where
  | advanced
  | unknownPool
  | poolMismatch
  | regressed (err : BuyerProgressError)
deriving DecidableEq

inductive DepositOutcome where
  | added (deposit : Nat)
  | unknownPool
  | poolMismatch
deriving DecidableEq

/-- `BuyerLoad`. -/
structure BuyerLoad where
  pools : List PoolRow
  skipped : List Bytes32

/-! ## Changes of a row -/

/-- What an operation makes of a row: its answer, and the row that it leaves in place of the
old one, unless it refuses. -/
abbrev RowChange (α : Type) := PoolRow → α × Option PoolRow

/-- `BuyerLaneProgress::rebased`. -/
def rebased (anchor totals : BuyerLaneProgress) : BuyerLaneProgress :=
  if anchor.lastAmount ≤ totals.lastAmount ∧ anchor.lastBytes ≤ totals.lastBytes then totals
  else anchor

/-- `BuyerPoolState::rebase_lane`. -/
def rebaseLane (spend : BuyerPoolState LaneKey) (lane : LaneKey)
    (anchor totals : BuyerLaneProgress) : BuyerPoolState LaneKey :=
  { spend with lanes := spend.lanes.insert lane (rebased anchor totals) }

/-- The part of `write_lane` that changes the row. -/
def laneChange
    (apply : BuyerPoolState LaneKey → Except BuyerProgressError (BuyerPoolState LaneKey)) :
    RowChange AdvanceOutcome := fun row =>
  match apply row.spend with
  | .error err => (.regressed err, none)
  | .ok spend => (.advanced, some { row with spend })

/-- The part of `add_deposit` that changes the row. -/
def depositChange (additional : Nat) : RowChange DepositOutcome := fun row =>
  let deposit := U256.saturatingAdd row.spend.deposit additional
  (.added deposit, some { row with spend := { row.spend with deposit } })

/-! ## The tables of a file -/

/-- The store behind the tables: `redb`, with the types of its three tables. -/
structure Redb where
  pools : TableOps (keyRank (n := 32)) (List UInt8)
  ownerIndex : TableOps (keyRank (n := 20)) (Vector UInt8 32)
  delegateLanes : TableOps (keyRank (n := 100)) (List UInt8)

/-- `BuyerPoolTable`: the rows of the pools, the index of the owners, and the delegate lanes. -/
structure BuyerPoolTable (D : Redb) where
  pools : D.pools.Table := D.pools.empty
  ownerIndex : D.ownerIndex.Table := D.ownerIndex.empty
  delegateLanes : D.delegateLanes.Table := D.delegateLanes.empty

namespace BuyerPoolTable

variable {D : Redb} (P : Postcard) (t : BuyerPoolTable D)

/-- `BuyerPoolTable::record`. -/
def record (row : PoolRow) : BuyerPoolTable D :=
  let encoded := encodeRecord P row
  let primaryKey := idBytes row.poolId
  { t with
    pools := D.pools.insert t.pools primaryKey encoded
    ownerIndex := D.ownerIndex.insert t.ownerIndex (addressBytes row.owner) primaryKey }

/-- `BuyerPoolTable::forget`. -/
def forget (owner : Address) : BuyerPoolTable D :=
  let indexKey := addressBytes owner
  match D.ownerIndex.get t.ownerIndex indexKey with
  | none => t
  | some primaryKey =>
    { t with
      ownerIndex := D.ownerIndex.erase t.ownerIndex indexKey
      pools := D.pools.erase t.pools primaryKey }

/-- `BuyerPoolTable::forget_if_pool`. -/
def forgetIfPool (owner : Address) (poolId : Bytes32) : Bool × BuyerPoolTable D :=
  let indexKey := addressBytes owner
  let primaryKey := idBytes poolId
  match D.ownerIndex.get t.ownerIndex indexKey with
  | none => (false, t)
  | some mapped =>
    if mapped = primaryKey then
      (true,
        { t with
          ownerIndex := D.ownerIndex.erase t.ownerIndex indexKey
          pools := D.pools.erase t.pools primaryKey })
    else (false, t)

/-- The shared body of `write_lane` and `add_deposit`: the owner index still maps to the pool,
the committed row is changed and written back. -/
def changeRow {α : Type} (unknownPool poolMismatch : α) (owner : Address) (poolId : Bytes32)
    (change : RowChange α) : Except StoreError (α × BuyerPoolTable D) :=
  let primaryKey := idBytes poolId
  match D.ownerIndex.get t.ownerIndex (addressBytes owner) with
  | none => .ok (unknownPool, t)
  | some mapped =>
    if mapped ≠ primaryKey then .ok (poolMismatch, t)
    else
      match D.pools.get t.pools primaryKey with
      | none => .ok (unknownPool, t)
      | some value =>
        match decodeRecord P primaryKey value with
        | .error err => .error err
        | .ok row =>
          match change row with
          | (answer, none) => .ok (answer, t)
          | (answer, some row) =>
            .ok (answer, { t with pools := D.pools.insert t.pools primaryKey (encodeRecord P row) })

/-- `BuyerPoolTable::write_lane`. -/
def writeLane (owner : Address) (poolId : Bytes32)
    (apply : BuyerPoolState LaneKey → Except BuyerProgressError (BuyerPoolState LaneKey)) :
    Except StoreError (AdvanceOutcome × BuyerPoolTable D) :=
  t.changeRow P .unknownPool .poolMismatch owner poolId (laneChange apply)

/-- `BuyerPoolTable::add_deposit`. -/
def addDeposit (owner : Address) (poolId : Bytes32) (additional : Nat) :
    Except StoreError (DepositOutcome × BuyerPoolTable D) :=
  t.changeRow P .unknownPool .poolMismatch owner poolId (depositChange additional)

/-- `BuyerPoolTable::advance_delegate_progress`. -/
def advanceDelegateProgress (deployment : Deployment) (lane : LaneKey)
    (totals : BuyerLaneProgress) : Except StoreError (AdvanceOutcome × BuyerPoolTable D) :=
  let key := delegateKey deployment lane
  let write := fun recorded =>
    match BuyerLaneProgress.advanced recorded totals with
    | .error err => (.regressed err, t)
    | .ok progress =>
      let delegateLanes := D.delegateLanes.insert t.delegateLanes key (encodeDelegateLane P progress)
      (.advanced, { t with delegateLanes })
  match D.delegateLanes.get t.delegateLanes key with
  | none => .ok (write none)
  | some value =>
    match decodeDelegateLane P lane value with
    | .error err => .error err
    | .ok recorded => .ok (write (some recorded))

/-- `BuyerPoolTable::rebase_delegate_progress`. -/
def rebaseDelegateProgress (deployment : Deployment) (lane : LaneKey)
    (anchor totals : BuyerLaneProgress) : BuyerPoolTable D :=
  { t with
    delegateLanes := D.delegateLanes.insert t.delegateLanes (delegateKey deployment lane)
      (encodeDelegateLane P (rebased anchor totals)) }

/-- `BuyerPoolTable::get_by_pool_id`. -/
def getByPoolId (poolId : Bytes32) : Except StoreError (Option PoolRow) :=
  match D.pools.get t.pools (idBytes poolId) with
  | none => .ok none
  | some value => (decodeRecord P (idBytes poolId) value).map some

/-- `BuyerPoolTable::get_by_owner`. -/
def getByOwner (owner : Address) : Except StoreError (Option PoolRow) :=
  match D.ownerIndex.get t.ownerIndex (addressBytes owner) with
  | none => .ok none
  | some primaryKey =>
    match D.pools.get t.pools primaryKey with
    | none => .ok none
    | some value => (decodeRecord P primaryKey value).map some

/-- A row that cannot be decoded is skipped. -/
def loadEntry (load : BuyerLoad) (entry : Vector UInt8 32 × List UInt8) : BuyerLoad :=
  match decodeRecord P entry.1 entry.2 with
  | .ok row => { load with pools := load.pools ++ [row] }
  | .error _ => { load with skipped := load.skipped ++ [fromBeBytes (n := 32) entry.1] }

/-- `load_all_from`. -/
def loadAll : BuyerLoad := (D.pools.entries t.pools).foldl (loadEntry P) ⟨[], []⟩

/-- `BuyerPoolTable::delegate_lanes`. -/
def delegateLanesOf (deployment : Deployment) (poolId : Bytes32) (signer : Address) :
    Except StoreError (List (Address × BuyerLaneProgress)) :=
  let head := delegateSignerPrefix deployment poolId signer
  let first := delegateLaneKey head (Vector.replicate 20 0x00)
  let last := delegateLaneKey head (Vector.replicate 20 0xff)
  (D.delegateLanes.range t.delegateLanes first last).mapM fun entry => do
    let lane : LaneKey := ⟨poolId, signer, keyProvider entry.1⟩
    let progress ← decodeDelegateLane P lane entry.2
    return (lane.provider, progress)

end BuyerPoolTable

/-! ## The maps of a process -/

/-- `MemoryInner`. -/
structure MemoryBuyerPoolStore where
  pools : HashMap Bytes32 PoolRow := .empty
  ownerIndex : HashMap Address Bytes32 := .empty
  delegateLanes : HashMap (Deployment × LaneKey) BuyerLaneProgress := .empty

namespace MemoryBuyerPoolStore

variable (m : MemoryBuyerPoolStore)

def record (row : PoolRow) : MemoryBuyerPoolStore :=
  { m with
    ownerIndex := m.ownerIndex.insert row.owner row.poolId
    pools := m.pools.insert row.poolId row }

def forget (owner : Address) : MemoryBuyerPoolStore :=
  match m.ownerIndex.get owner with
  | none => m
  | some poolId =>
    { m with ownerIndex := m.ownerIndex.erase owner, pools := m.pools.erase poolId }

def forgetIfPool (owner : Address) (poolId : Bytes32) : Bool × MemoryBuyerPoolStore :=
  if m.ownerIndex.get owner = some poolId then
    (true, { m with ownerIndex := m.ownerIndex.erase owner, pools := m.pools.erase poolId })
  else (false, m)

/-- The shared body of the operations that change a row. -/
def changeRow {α : Type} (unknownPool poolMismatch : α) (owner : Address) (poolId : Bytes32)
    (change : RowChange α) : α × MemoryBuyerPoolStore :=
  match m.ownerIndex.get owner with
  | none => (unknownPool, m)
  | some mapped =>
    if mapped ≠ poolId then (poolMismatch, m)
    else
      match m.pools.get poolId with
      | none => (unknownPool, m)
      | some row =>
        match change row with
        | (answer, none) => (answer, m)
        | (answer, some row) => (answer, { m with pools := m.pools.insert poolId row })

def writeLane (owner : Address) (poolId : Bytes32)
    (apply : BuyerPoolState LaneKey → Except BuyerProgressError (BuyerPoolState LaneKey)) :
    AdvanceOutcome × MemoryBuyerPoolStore :=
  m.changeRow .unknownPool .poolMismatch owner poolId (laneChange apply)

def addDeposit (owner : Address) (poolId : Bytes32) (additional : Nat) :
    DepositOutcome × MemoryBuyerPoolStore :=
  m.changeRow .unknownPool .poolMismatch owner poolId (depositChange additional)

def advanceDelegateProgress (deployment : Deployment) (lane : LaneKey)
    (totals : BuyerLaneProgress) : AdvanceOutcome × MemoryBuyerPoolStore :=
  match BuyerLaneProgress.advanced (m.delegateLanes.get (deployment, lane)) totals with
  | .error err => (.regressed err, m)
  | .ok progress =>
    (.advanced, { m with delegateLanes := m.delegateLanes.insert (deployment, lane) progress })

def rebaseDelegateProgress (deployment : Deployment) (lane : LaneKey)
    (anchor totals : BuyerLaneProgress) : MemoryBuyerPoolStore :=
  { m with delegateLanes := m.delegateLanes.insert (deployment, lane) (rebased anchor totals) }

def getByPoolId (poolId : Bytes32) : Option PoolRow := m.pools.get poolId

def getByOwner (owner : Address) : Option PoolRow :=
  (m.ownerIndex.get owner).bind m.pools.get

def loadAll : BuyerLoad := ⟨m.pools.entries.map Prod.snd, []⟩

/-- The order of the delegate lanes that are read: that of the providers. -/
def providerLe (a b : Address × BuyerLaneProgress) : Bool := decide (a.1.toNat ≤ b.1.toNat)

/-- `MemoryBuyerPoolStore::delegate_lanes`. -/
def delegateLanesOf (deployment : Deployment) (poolId : Bytes32) (signer : Address) :
    List (Address × BuyerLaneProgress) :=
  let mine := m.delegateLanes.entries.filter fun entry =>
    decide (entry.1.1 = deployment ∧ entry.1.2.poolId = poolId ∧ entry.1.2.signer = signer)
  (mine.map fun entry => (entry.1.2.provider, entry.2)).mergeSort providerLe

end MemoryBuyerPoolStore

/-! ## Runs -/

/-- The operations of the trait `BuyerPoolStore` that write. -/
inductive Op where
  | record (row : PoolRow)
  | forget (owner : Address)
  | forgetIfPool (owner : Address) (poolId : Bytes32)
  | advanceProgress (owner : Address) (poolId : Bytes32) (lane : LaneKey) (bytes amount : Nat)
  | rebaseProgress (owner : Address) (poolId : Bytes32) (lane : LaneKey)
      (anchor totals : BuyerLaneProgress)
  | seedProgress (owner : Address) (poolId : Bytes32) (lane : LaneKey) (bytes amount : Nat)
  | addDeposit (owner : Address) (poolId : Bytes32) (additional : Nat)
  | advanceDelegateProgress (deployment : Deployment) (lane : LaneKey)
      (totals : BuyerLaneProgress)
  | rebaseDelegateProgress (deployment : Deployment) (lane : LaneKey)
      (anchor totals : BuyerLaneProgress)

/-- What an operation answers. -/
inductive Answer where
  | done
  | deleted (deleted : Bool)
  | advance (outcome : AdvanceOutcome)
  | deposit (outcome : DepositOutcome)
deriving DecidableEq

/-- What the callers promise: the amounts are 256-bit words, and a lane is one of the pool that
it is written to. -/
def Op.Proper : Op → Prop
  | .record row => row.Proper
  | .advanceProgress _ poolId lane bytes amount => lane.poolId = poolId ∧ Words ⟨amount, bytes⟩
  | .rebaseProgress _ poolId lane anchor totals =>
    lane.poolId = poolId ∧ Words anchor ∧ Words totals
  | .seedProgress _ poolId lane bytes amount => lane.poolId = poolId ∧ Words ⟨amount, bytes⟩
  | .advanceDelegateProgress _ _ totals => Words totals
  | .rebaseDelegateProgress _ _ anchor totals => Words anchor ∧ Words totals
  | _ => True

/-- An operation on the tables.  A failure aborts its transaction. -/
def BuyerPoolTable.step {D : Redb} (P : Postcard) (t : BuyerPoolTable D) :
    Op → Except StoreError (Answer × BuyerPoolTable D)
  | .record row => .ok (.done, t.record P row)
  | .forget owner => .ok (.done, t.forget owner)
  | .forgetIfPool owner poolId => .ok ((t.forgetIfPool owner poolId).map .deleted id)
  | .advanceProgress owner poolId lane bytes amount =>
    (t.writeLane P owner poolId (·.advanceLane lane bytes amount)).map (Prod.map .advance id)
  | .rebaseProgress owner poolId lane anchor totals =>
    (t.writeLane P owner poolId fun spend => .ok (rebaseLane spend lane anchor totals)).map
      (Prod.map .advance id)
  | .seedProgress owner poolId lane bytes amount =>
    (t.writeLane P owner poolId (·.seedLane lane bytes amount)).map (Prod.map .advance id)
  | .addDeposit owner poolId additional =>
    (t.addDeposit P owner poolId additional).map (Prod.map .deposit id)
  | .advanceDelegateProgress deployment lane totals =>
    (t.advanceDelegateProgress P deployment lane totals).map (Prod.map .advance id)
  | .rebaseDelegateProgress deployment lane anchor totals =>
    .ok (.advance .advanced, t.rebaseDelegateProgress P deployment lane anchor totals)

/-- An operation on the maps. -/
def MemoryBuyerPoolStore.step (m : MemoryBuyerPoolStore) : Op → Answer × MemoryBuyerPoolStore
  | .record row => (.done, m.record row)
  | .forget owner => (.done, m.forget owner)
  | .forgetIfPool owner poolId => (m.forgetIfPool owner poolId).map .deleted id
  | .advanceProgress owner poolId lane bytes amount =>
    (m.writeLane owner poolId (·.advanceLane lane bytes amount)).map .advance id
  | .rebaseProgress owner poolId lane anchor totals =>
    (m.writeLane owner poolId fun spend => .ok (rebaseLane spend lane anchor totals)).map
      .advance id
  | .seedProgress owner poolId lane bytes amount =>
    (m.writeLane owner poolId (·.seedLane lane bytes amount)).map .advance id
  | .addDeposit owner poolId additional =>
    (m.addDeposit owner poolId additional).map .deposit id
  | .advanceDelegateProgress deployment lane totals =>
    (m.advanceDelegateProgress deployment lane totals).map .advance id
  | .rebaseDelegateProgress deployment lane anchor totals =>
    (.advance .advanced, m.rebaseDelegateProgress deployment lane anchor totals)

/-- Some operations on the tables, with their answers. -/
def BuyerPoolTable.run {D : Redb} (P : Postcard) (t : BuyerPoolTable D) :
    List Op → List (Except StoreError Answer) × BuyerPoolTable D
  | [] => ([], t)
  | op :: rest =>
    match t.step P op with
    | .error err =>
      let (answers, t) := BuyerPoolTable.run P t rest
      (.error err :: answers, t)
    | .ok (answer, t) =>
      let (answers, t) := BuyerPoolTable.run P t rest
      (.ok answer :: answers, t)

/-- Some operations on the maps, with their answers. -/
def MemoryBuyerPoolStore.run (m : MemoryBuyerPoolStore) :
    List Op → List Answer × MemoryBuyerPoolStore
  | [] => ([], m)
  | op :: rest =>
    let (answer, m) := m.step op
    let (answers, m) := MemoryBuyerPoolStore.run m rest
    (answer :: answers, m)

end Decdn.Incentive.BuyerStore
