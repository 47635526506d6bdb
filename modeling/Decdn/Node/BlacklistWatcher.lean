import Decdn.ContentBlacklist.EventLog
import Decdn.Foundations.Fallible
import Decdn.Foundations.Runs
import Mathlib.Data.Finset.Image

/-!
# The blacklist watcher

The watcher of `crates/node/src/blacklist_watcher.rs`, with the parts of the cache engine
and of `crates/node/src/content_deny.rs` that it writes.  It enumerates the deny-set of the
ContentBlacklist contract at a pinned block, follows the contract's events from there on,
folds later enumerations in, and evicts what is in scope for its operator.

A set is its finite set of members, or its membership test where nothing enumerates it.  What the
provider answers to the reads of an enumeration is a record of answers; the answers to the scope
reads and the outcome of the evictions of a pass are functions.

Main definitions:

- Definition `bootstrapSnapshot`: the enumeration, and when it is abandoned.
- Definition `WatcherState.foldReenumeration`: a snapshot under the newer changes of the tail.
- Definition `recheck` and Definition `rescan`: enforcement.
- Definition `handleLog`: the tail.
- Theorem `rescan_invariant`: the invariant rule of a pass.
-/

namespace Decdn.Node.BlacklistWatcher

open ContentBlacklist (Event)

abbrev Hash := Bytes32

/-- A `(region, hash)` entry. -/
abbrev Entry := Bytes32 × Hash

/-! ## Enumeration -/

def blacklistEnumPageSize : Nat := 100

/-- Why an enumeration is abandoned. -/
inductive SnapshotError where
  | read (call : String)
  | addressCountMismatch (seen count block : Nat)
  | hashCountMismatch (region : Bytes32) (seen count block : Nat)
deriving DecidableEq

/-- What the provider answers to the reads of one enumeration; `none` is a failed read. -/
structure Reads where
  snapshotBlock : Option Nat
  scopeRegions : Option (List Bytes32)
  blacklistedHashCount : Bytes32 → Option Nat
  blacklistedHashes : Bytes32 → Nat → Nat → Option (List Hash)
  blacklistedAddressCount : Option Nat
  blacklistedAddresses : Nat → Nat → Option (List Address)
  isOriginBlacklisted : Address → Option Bool
  isOperatorBlacklisted : Address → Option Bool

/-- A read that must succeed. -/
def required {α : Type} (call : String) : Option α → Except SnapshotError α
  | some a => .ok a
  | none => .error (.read call)

/-- The paging loop.  A page that is not empty moves the offset, so `count` turns are enough. -/
def readPages {α : Type} [DecidableEq α] (count : Nat)
    (page : Nat → Except SnapshotError (List α)) :
    Nat → Nat → Finset α → Except SnapshotError (Finset α)
  | 0, _, raw => .ok raw
  | turns + 1, offset, raw =>
    if offset < count then do
      let batch ← page offset
      if batch.isEmpty then .ok raw
      else readPages count page turns (offset + batch.length) (raw ∪ batch.toFinset)
    else .ok raw

/-- The union predicate; the operator list is read only when the origin list does not deny. -/
def Reads.denied (reads : Reads) (a : Address) : Option Bool :=
  match reads.isOriginBlacklisted a with
  | none => none
  | some true => some true
  | some false => reads.isOperatorBlacklisted a

/-- `enumerate_address_union`. -/
def enumerateAddressUnion (reads : Reads) (block : Nat) :
    Except SnapshotError (Finset Address) := do
  let count ← required "blacklistedAddressCount" reads.blacklistedAddressCount
  let raw ← readPages count
    (fun offset => required "blacklistedAddresses"
      (reads.blacklistedAddresses offset blacklistEnumPageSize)) count 0 ∅
  if raw.card ≠ count then .error (.addressCountMismatch raw.card count block)
  else if (raw.filter fun a => reads.denied a = none) = ∅ then
    .ok (raw.filter fun a => reads.denied a = some true)
  else .error (.read "isOriginBlacklisted")

/-- `enumerate_region_hashes`. -/
def enumerateRegionHashes (reads : Reads) (block : Nat) (region : Bytes32) :
    Except SnapshotError (Finset Hash) := do
  let count ← required "blacklistedHashCount" (reads.blacklistedHashCount region)
  let hashes ← readPages count
    (fun offset => required "blacklistedHashes"
      (reads.blacklistedHashes region offset blacklistEnumPageSize)) count 0 ∅
  if hashes.card ≠ count then .error (.hashCountMismatch region hashes.card count block)
  else .ok hashes

/-- `enumerate_known`. -/
def enumerateKnown (reads : Reads) (block : Nat) : Except SnapshotError (Finset Entry) := do
  let regions ← required "getScopeRegions" reads.scopeRegions
  regions.foldlM (fun known region => do
    let hashes ← enumerateRegionHashes reads block region
    pure (known ∪ hashes.image (Prod.mk region))) ∅

/-- `BootstrapSnapshot`. -/
structure BootstrapSnapshot where
  block : Nat
  origins : Finset Address
  known : Finset Entry

/-- `bootstrap_snapshot`. -/
def bootstrapSnapshot (reads : Reads) : Except SnapshotError BootstrapSnapshot := do
  let block ← required "snapshotBlock" reads.snapshotBlock
  let origins ← enumerateAddressUnion reads block
  let known ← enumerateKnown reads block
  pure ⟨block, origins, known⟩

/-! ## State -/

/-- `WatcherState`, with the chain part of the origin deny-set. -/
structure WatcherState where
  known : Finset Entry := ∅
  chainOrigins : Address → Bool := fun _ => false
  originChanges : Address → Option (Nat × Bool) := fun _ => none
  removedEntries : Entry → Option Nat := fun _ => none

/-- `WatcherState::add_entry`. -/
def WatcherState.addEntry (st : WatcherState) (entry : Entry) : WatcherState :=
  { st with known := insert entry st.known }

/-- `WatcherState::remove_entry`. -/
def WatcherState.removeEntry (st : WatcherState) (entry : Entry) (block : Nat) : WatcherState :=
  { st with
    known := st.known.erase entry
    removedEntries := Function.update st.removedEntries entry (some block) }

/-- `WatcherState::drop_hash`. -/
def WatcherState.dropHash (st : WatcherState) (hash : Hash) : WatcherState :=
  { st with known := st.known.filter fun entry => entry.2 ≠ hash }

/-- `WatcherState::distinct_hashes`. -/
def WatcherState.distinctHashes (st : WatcherState) : Finset Hash := st.known.image Prod.snd

/-- `WatcherState::set_origin`. -/
def WatcherState.setOrigin (st : WatcherState) (origin : Address) (blacklisted : Bool)
    (block : Nat) : WatcherState :=
  { st with
    chainOrigins := Function.update st.chainOrigins origin blacklisted
    originChanges := Function.update st.originChanges origin (some (block, blacklisted)) }

/-- `WatcherState::fold_reenumeration`. -/
def WatcherState.foldReenumeration (st : WatcherState) (snapshot : BootstrapSnapshot) :
    WatcherState :=
  let originChanges := fun a =>
    (st.originChanges a).filter fun change => decide (snapshot.block < change.1)
  let removedEntries := fun entry =>
    (st.removedEntries entry).filter fun block => decide (snapshot.block < block)
  { known := st.known ∪ snapshot.known.filter fun entry => removedEntries entry = none
    chainOrigins := fun a =>
      match originChanges a with
      | some change => change.2
      | none => decide (a ∈ snapshot.origins)
    originChanges := originChanges
    removedEntries := removedEntries }

/-! ## The cache -/

/-- The refusals of the cache engine.  Only `evictedLog` survives a restart; `withheld` stands for
the local deny-list and quarantine. -/
structure Cache where
  evictedLog : Finset Hash := ∅
  evicted : Finset Hash := ∅
  chainDenied : Finset Hash := ∅
  withheld : Hash → Bool := fun _ => false

/-- `CacheEngine::refuses`. -/
def Cache.refuses (c : Cache) (hash : Hash) : Bool :=
  c.withheld hash || decide (hash ∈ c.chainDenied) || decide (hash ∈ c.evicted)

/-- `deny_hash`. -/
def Cache.deny (c : Cache) (hash : Hash) : Cache :=
  { c with chainDenied := insert hash c.chainDenied }

/-- `undeny_hash`. -/
def Cache.undeny (c : Cache) (hash : Hash) : Cache :=
  { c with chainDenied := c.chainDenied.erase hash }

/-- How an eviction ends.  One that fails may have reached the log. -/
inductive EvictResult where
  | done
  | failed (logged : Bool)
deriving DecidableEq

/-- `CacheEngine::evict`: the log first, then the set. -/
def Cache.evict (c : Cache) (hash : Hash) : EvictResult → Cache
  | .done => { c with
      evictedLog := insert hash c.evictedLog
      evicted := insert hash c.evicted }
  | .failed true => { c with evictedLog := insert hash c.evictedLog }
  | .failed false => c

/-- A restart reads the log back. -/
def Cache.reopen (c : Cache) : Cache where
  evictedLog := c.evictedLog
  evicted := c.evictedLog
  withheld := c.withheld

/-! ## Enforcement -/

/-- `Recheck`. -/
inductive Recheck where
  | evicted
  | noAction
  | failedScope
  | failedEvict
deriving DecidableEq

/-- The answers a pass meets: `isHashBlacklistedForOperator`, or `none`, and the evictions. -/
structure Oracle where
  scope : Hash → Option Bool
  evict : Hash → EvictResult

/-- `recheck`. -/
def recheck (oracle : Oracle) (st : WatcherState) (c : Cache) (hash : Hash) :
    WatcherState × Cache × Recheck :=
  if hash ∈ c.evicted then
    -- An evicted hash is recorded as denied by governance when its scope can be read.
    let c := if hash ∉ c.chainDenied ∧ oracle.scope hash = some true then c.deny hash else c
    (st.dropHash hash, c, .noAction)
  else
    match oracle.scope hash with
    | some true =>
      let c := (c.deny hash).evict hash (oracle.evict hash)
      match oracle.evict hash with
      | .done => (st.dropHash hash, c, .evicted)
      | .failed _ => (st, c, .failedEvict)
    | some false => (st, c, .noAction)
    | none => (st, c, .failedScope)

/-- `OnScopeFailure`. -/
inductive OnScopeFailure where
  | continue
  | stop
deriving DecidableEq

/-- The loop of `rescan`, cancelled before the hash number `cancelAt` if any.  The last component
is `clean`. -/
def rescan (oracle : Oracle) (onScopeFailure : OnScopeFailure) :
    List Hash → Option Nat → WatcherState → Cache → Bool → WatcherState × Cache × Bool
  | [], _, st, c, clean => (st, c, clean)
  | _ :: _, some 0, st, c, _ => (st, c, false)
  | hash :: rest, cancelAt, st, c, clean =>
    match recheck oracle st c hash with
    | (st, c, .evicted) =>
      rescan oracle onScopeFailure rest (cancelAt.map Nat.pred) st c clean
    | (st, c, .noAction) =>
      rescan oracle onScopeFailure rest (cancelAt.map Nat.pred) st c clean
    | (st, c, .failedEvict) =>
      rescan oracle onScopeFailure rest (cancelAt.map Nat.pred) st c false
    | (st, c, .failedScope) =>
      if onScopeFailure = .stop then (st, c, false)
      else rescan oracle onScopeFailure rest (cancelAt.map Nat.pred) st c false

/-- What every re-check keeps, a pass keeps. -/
theorem rescan_invariant {oracle : Oracle} {mode : OnScopeFailure} (P : WatcherState → Cache → Prop)
    {order : List Hash} {cancelAt : Option Nat} {st : WatcherState} {c : Cache} {clean : Bool}
    (hstep : ∀ st c hash, hash ∈ order → P st c →
      P (recheck oracle st c hash).1 (recheck oracle st c hash).2.1) (hinit : P st c) :
    P (rescan oracle mode order cancelAt st c clean).1
      (rescan oracle mode order cancelAt st c clean).2.1 := by
  fun_induction rescan oracle mode order cancelAt st c clean with
  | case1 => exact hinit
  | case2 => exact hinit
  | case3 hash rest cancelAt st c clean _ st' c' hcheck ih =>
    have hnext := hstep st c hash List.mem_cons_self hinit
    rw [hcheck] at hnext
    exact ih (fun st c h hh => hstep st c h (List.mem_cons_of_mem _ hh)) hnext
  | case4 hash rest cancelAt st c clean _ st' c' hcheck ih =>
    have hnext := hstep st c hash List.mem_cons_self hinit
    rw [hcheck] at hnext
    exact ih (fun st c h hh => hstep st c h (List.mem_cons_of_mem _ hh)) hnext
  | case5 hash rest cancelAt st c clean _ st' c' hcheck ih =>
    have hnext := hstep st c hash List.mem_cons_self hinit
    rw [hcheck] at hnext
    exact ih (fun st c h hh => hstep st c h (List.mem_cons_of_mem _ hh)) hnext
  | case6 hash rest cancelAt st c clean _ st' c' hcheck =>
    have hnext := hstep st c hash List.mem_cons_self hinit
    rw [hcheck] at hnext
    exact hnext
  | case7 hash rest cancelAt st c clean _ st' c' hcheck _ ih =>
    have hnext := hstep st c hash List.mem_cons_self hinit
    rw [hcheck] at hnext
    exact ih (fun st c h hh => hstep st c h (List.mem_cons_of_mem _ hh)) hnext

/-- `on_removed_log`, with `lift_deny_if_out_of_scope`. -/
def onRemovedLog (oracle : Oracle) (st : WatcherState) (c : Cache) (entry : Entry) (block : Nat) :
    WatcherState × Cache :=
  (st.removeEntry entry block,
    if entry.2 ∈ c.chainDenied ∧ oracle.scope entry.2 = some false then c.undeny entry.2 else c)

/-- `handle_log`: what an event of the contract does. -/
def handleLog (oracle : Oracle) (st : WatcherState) (c : Cache) (block : Nat) :
    Event → WatcherState × Cache
  | .hashBlacklisted region hash _ =>
    let (st, c, _) := recheck oracle (st.addEntry (region, hash)) c hash
    (st, c)
  | .hashRemoved region hash => onRemovedLog oracle st c (region, hash) block
  | .originBlacklistUpdated origin blacklisted => (st.setOrigin origin blacklisted block, c)
  | .operatorBlacklisted operator => (st.setOrigin operator true block, c)
  | .operatorBlacklistCleared operator => (st.setOrigin operator false block, c)
  | _ => (st, c)

/-- `enumerate_and_enforce`: the watcher after a clean pass, and the cache. -/
def enumerateAndEnforce (oracle : Oracle) (snapshot : BootstrapSnapshot) (order : List Hash)
    (c : Cache) : Option WatcherState × Cache :=
  let st : WatcherState := {
    known := snapshot.known
    chainOrigins := fun a => decide (a ∈ snapshot.origins) }
  match rescan oracle .stop order none st c true with
  | (st, c, true) => (some st, c)
  | (_, c, false) => (none, c)

end Decdn.Node.BlacklistWatcher
