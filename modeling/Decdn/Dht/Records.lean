import Decdn.Dht.Keyspace
import Decdn.Foundations.Words
import Mathlib.Data.Finset.Max
import Mathlib.Data.List.MinMax

/-!
# The record store

The receiver of content records keeps each record in three indexes: the list of
holders of a hash, the global order of acceptance, and the number of records of
a publisher.  This file models the store and its operations as the code writes
them, with the error lines they log.

Main definitions:

- `RecordStore`, `RecordStore.insertAt`, `RecordStore.providersAt` and
  `RecordStore.gc`: the store and its operations.
- `Op` and `RecordStore.run`: sequences of operations from the empty store.
-/

namespace Decdn.Dht

/-! ## Records -/

/-- `Coverage`, a bitmap of discovery blocks. -/
structure Coverage where
  blocks : List UInt8
  deriving DecidableEq

/-- `OriginAttestation`. -/
structure OriginAttestation where
  ratePerMb : UInt64
  totalBytes : UInt64
  timestampUs : UInt64
  slashSig : List UInt8
  deriving DecidableEq

/-- `AttestedBy`: a verified attestation and the operator it recovered to. -/
structure AttestedBy where
  attestation : OriginAttestation
  signer : Address
  deriving DecidableEq

/-- `HolderEntry`: one record of a hash. -/
structure HolderEntry where
  holder : NodeId
  receiveUs : UInt64
  sequence : UInt64
  expiryUs : UInt64
  coverage : Coverage
  attestation : OriginAttestation
  signer : Address
  deriving DecidableEq

/-- `Provider`: a record as a requester sees it. -/
structure Provider where
  node : NodeId
  coverage : Coverage
  attestation : OriginAttestation
  deriving DecidableEq

/-- `InsertOutcome`. -/
inductive InsertOutcome where
  | inserted
  | refreshed
  | rejectedQuotaExceeded
  deriving DecidableEq, Repr

/-- `RecordStoreConfig`. -/
structure RecordStoreConfig where
  maxRecordsPerPublisher : Nat
  maxRecordsGlobal : Nat
  maxProvidersPerHash : Nat
  ttlUs : UInt64

/-- A key of the global order. -/
structure LruKey where
  receiveUs : UInt64
  sequence : UInt64
  hash : ContentHash
  holder : NodeId
  deriving DecidableEq

/-- The fields of a key in the order they are compared. -/
def LruKey.toLexOrder (k : LruKey) : Nat ×ₗ Nat ×ₗ ContentHash ×ₗ NodeId :=
  toLex (k.receiveUs.toNat, toLex (k.sequence.toNat, toLex (k.hash, k.holder)))

theorem LruKey.toLexOrder_injective : Function.Injective LruKey.toLexOrder := by
  rintro ⟨receiveUs, sequence, hash, holder⟩ ⟨receiveUs', sequence', hash', holder'⟩ h
  simp only [LruKey.toLexOrder, EmbeddingLike.apply_eq_iff_eq, Prod.mk.injEq,
    UInt64.toNat_inj] at h
  rw [LruKey.mk.injEq]
  exact h

instance : LinearOrder LruKey := LinearOrder.lift' LruKey.toLexOrder LruKey.toLexOrder_injective

/-- The error lines the store logs when an index names a record another one lacks. -/
inductive StoreFault where
  | orphanedKey (key : LruKey)
  | positionWithoutEntry (holder : NodeId) (hash : ContentHash) (idx : Nat)

/-- `RecordStore`.  A hash without an entry in `byHash`, and a publisher without one in
`byPublisherCount`, has no record. -/
structure RecordStore where
  cfg : RecordStoreConfig
  byHash : ContentHash → Option (List HolderEntry)
  byPublisherCount : NodeId → Option Nat
  globalLru : Finset LruKey
  nextSequence : UInt64
  logged : List StoreFault

namespace RecordStore

/-- `RecordStore::new`. -/
def new (cfg : RecordStoreConfig) : RecordStore where
  cfg := cfg
  byHash := fun _ => none
  byPublisherCount := fun _ => none
  globalLru := ∅
  nextSequence := 0
  logged := []

/-- The first key of the global order. -/
def firstKey (s : RecordStore) : Option LruKey :=
  if h : s.globalLru.Nonempty then some (s.globalLru.min' h) else none

/-- `publisher_record_count`. -/
def publisherRecordCount (s : RecordStore) (holder : NodeId) : Nat :=
  (s.byPublisherCount holder).getD 0

/-! ## Single records -/

/-- `Vec::swap_remove`: the last entry takes the place of the removed one. -/
def swapRemove {α : Type} (xs : List α) (i : Nat) : List α :=
  match xs.getLast? with
  | none => []
  | some last => (xs.set i last).dropLast

/-- `decrement_publisher_count`. -/
def decrementPublisherCount (counts : NodeId → Option Nat) (holder : NodeId) :
    NodeId → Option Nat :=
  match counts holder with
  | none => counts
  | some c => Function.update counts holder (if c - 1 = 0 then none else some (c - 1))

/-- `add_entry`. -/
def addEntry (s : RecordStore) (holder : NodeId) (hash : ContentHash) (coverage : Coverage)
    (attested : AttestedBy) (receiveUs sequence : UInt64) : RecordStore :=
  let expiryUs := U64.wordAdd receiveUs s.cfg.ttlUs
  let entry : HolderEntry :=
    ⟨holder, receiveUs, sequence, expiryUs, coverage, attested.attestation, attested.signer⟩
  { s with
    byHash := Function.update s.byHash hash (some ((s.byHash hash).getD [] ++ [entry]))
    globalLru := insert ⟨receiveUs, sequence, hash, holder⟩ s.globalLru
    byPublisherCount :=
      Function.update s.byPublisherCount holder (some ((s.byPublisherCount holder).getD 0 + 1)) }

/-- `remove_entry`. -/
def removeEntry (s : RecordStore) (holder : NodeId) (hash : ContentHash) :
    RecordStore × Option HolderEntry :=
  match s.byHash hash with
  | none => (s, none)
  | some entries =>
    match entries.findIdx? fun e => e.holder = holder with
    | none => (s, none)
    | some idx =>
      match entries[idx]? with
      | none => ({ s with logged := s.logged ++ [.positionWithoutEntry holder hash idx] }, none)
      | some removed =>
        let entries := swapRemove entries idx
        ({ s with
            byHash := Function.update s.byHash hash (if entries = [] then none else some entries)
            globalLru :=
              s.globalLru.erase ⟨removed.receiveUs, removed.sequence, hash, removed.holder⟩
            byPublisherCount := decrementPublisherCount s.byPublisherCount removed.holder },
          some removed)

/-- `evict_globally_oldest`. -/
def evictGloballyOldest (s : RecordStore) : RecordStore :=
  match s.firstKey with
  | none => s
  | some key => (s.removeEntry key.holder key.hash).1

/-! ## Operations -/

/-- The holder `insert_at` evicts to keep a hash within its provider cap. -/
def evictHolder (s : RecordStore) (hash : ContentHash) : Option NodeId := do
  let entries ← s.byHash hash
  if s.cfg.maxProvidersPerHash ≤ entries.length then
    let oldest ← entries.argmin fun e => e.receiveUs.toNat
    return oldest.holder
  else none

/-- The evictions `insert_at` owes before it puts in a new record of the hash.  The provider cap
comes first, so that one insert never evicts twice. -/
def makeRoom (s : RecordStore) (hash : ContentHash) : RecordStore :=
  let (s, growsGlobal) :=
    match s.evictHolder hash with
    | some oldHolder => ((s.removeEntry oldHolder hash).1, false)
    | none => (s, true)
  if growsGlobal ∧ s.cfg.maxRecordsGlobal ≤ s.globalLru.card then s.evictGloballyOldest else s

/-- `insert_at`. -/
def insertAt (s : RecordStore) (holder : NodeId) (hash : ContentHash) (coverage : Coverage)
    (attested : AttestedBy) (receiveUs : UInt64) : RecordStore × InsertOutcome :=
  let sequence := s.nextSequence
  let s := { s with nextSequence := s.nextSequence + 1 }
  match s.removeEntry holder hash with
  | (s, some _) => (s.addEntry holder hash coverage attested receiveUs sequence, .refreshed)
  | (s, none) =>
    if s.cfg.maxRecordsPerPublisher ≤ s.publisherRecordCount holder then
      (s, .rejectedQuotaExceeded)
    else
      ((s.makeRoom hash).addEntry holder hash coverage attested receiveUs sequence, .inserted)

/-- `scrub_hash_expired`. -/
def scrubHashExpired (s : RecordStore) (hash : ContentHash) (nowUs : UInt64) :
    RecordStore × Nat :=
  match s.byHash hash with
  | none => (s, 0)
  | some entries =>
    let expired := (entries.filter fun e => e.expiryUs ≤ nowUs).map HolderEntry.holder
    (expired.foldl (fun s holder => (s.removeEntry holder hash).1) s, expired.length)

/-- `providers_at`. -/
def providersAt (s : RecordStore) (hash : ContentHash) (nowUs : UInt64) (admits : Address → Bool) :
    RecordStore × List Provider :=
  let s := (s.scrubHashExpired hash nowUs).1
  (s, ((s.byHash hash).map fun entries =>
    (entries.filter fun e => admits e.signer).map fun e =>
      ⟨e.holder, e.coverage, e.attestation⟩).getD [])

/-- The front walk of `gc`, for at most `fuel` keys. -/
def gcLoop (nowUs : UInt64) : Nat → RecordStore → RecordStore × Nat
  | 0, s => (s, 0)
  | fuel + 1, s =>
    match s.firstKey with
    | none => (s, 0)
    | some key =>
      let expiryUs := U64.wordAdd key.receiveUs s.cfg.ttlUs
      if nowUs < expiryUs then (s, 0)
      else
        let s :=
          match s.removeEntry key.holder key.hash with
          | (s, some _) => s
          | (s, none) =>
            { s with
              globalLru := s.globalLru.erase key
              logged := s.logged ++ [.orphanedKey key] }
        let (s, removed) := gcLoop nowUs fuel s
        (s, removed + 1)

/-- `gc`.  Where the indexes agree every turn of the walk takes a key off the order, so as many
turns as keys suffice. -/
def gc (s : RecordStore) (nowUs : UInt64) : RecordStore × Nat :=
  gcLoop nowUs (s.globalLru.card + 1) s

end RecordStore

/-! ## Runs -/

/-- An operation on the store. -/
inductive Op where
  | insertAt (holder : NodeId) (hash : ContentHash) (coverage : Coverage) (attested : AttestedBy)
      (receiveUs : UInt64)
  | providersAt (hash : ContentHash) (nowUs : UInt64) (admits : Address → Bool)
  | gc (nowUs : UInt64)

/-- The store after an operation. -/
def RecordStore.apply (s : RecordStore) : Op → RecordStore
  | .insertAt holder hash coverage attested receiveUs =>
    (s.insertAt holder hash coverage attested receiveUs).1
  | .providersAt hash nowUs admits => (s.providersAt hash nowUs admits).1
  | .gc nowUs => (s.gc nowUs).1

/-- The store after a sequence of operations on an empty one. -/
def RecordStore.run (cfg : RecordStoreConfig) (ops : List Op) : RecordStore :=
  ops.foldl RecordStore.apply (RecordStore.new cfg)

end Decdn.Dht
