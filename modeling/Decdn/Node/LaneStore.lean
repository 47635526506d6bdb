import Decdn.Foundations.Runs
import Decdn.Incentive.Lane
import Mathlib.Data.Finset.Basic
import Mathlib.Logic.Function.Basic

/-!
# The lane store

The write-behind store of the node's lanes, `PersistentPoolStateStore` of
`pool_store.rs`: a working set of slots, a work-list of dirty keys and a disk
table.  A write changes its slot and then pushes its key; a flush drains the
work-list, clones the slots out one by one, commits them in one transaction, and
requeues or reaps.  Each of these is a step of its own, because no lock spans two
of them, and any number of flush calls may run.

The steps carry proof-only counters: every write of a key makes its next
version, and the disk row, a completed write and a flush's start are known by
version.

Main definitions:

- Definition `LaneStore.write`: `record`, `set_registered_until`,
  `set_paid_cumulative` and `forget`.
- Definition `LaneStore.apply`: one step of a write or of a flush call.
- Definition `StoreEvent.Exclusive`: no flush starts while another runs.
-/

namespace Decdn.Node

open Incentive

/-! ## State -/

/-- `LaneSlot`. -/
inductive LaneSlot where
  | live (state : LaneState)
  | tombstoned
deriving DecidableEq, Repr

/-- The row a slot stands for: a tombstone is an absent row. -/
def LaneSlot.row : LaneSlot → Option LaneState
  | .live state => some state
  | .tombstoned => none

/-- A slot cloned out by a flush, with the version it had. -/
structure Saved where
  version : Nat
  slot : LaneSlot
deriving DecidableEq, Repr

/-- Where one `flush` call stands. -/
inductive FlushPhase where
  | idle
  /-- Popping keys off the work-list. -/
  | draining (drained : Finset LaneKey)
  /-- Cloning the slots of the drained keys, those in `todo` still to come. -/
  | snapshotting (drained todo : Finset LaneKey) (saved : LaneKey → Option Saved)
  /-- Pushing keys back after a failure. -/
  | requeuing (left : Finset LaneKey)
  /-- Removing the tombstones whose rows are gone. -/
  | reaping (left : Finset LaneKey)
  | returned (ok : Bool)

/-- The store, the writes that have not pushed their key yet, and the flush
calls.  From `version` on the fields are proof-only. -/
structure LaneStore where
  lanes : LaneKey → Option LaneSlot
  dirty : List LaneKey
  disk : LaneKey → Option LaneState
  unpushed : List (LaneKey × Nat)
  phase : Nat → FlushPhase
  /-- The number of writes to a key so far. -/
  version : LaneKey → Nat
  /-- The row each version of a key stands for. -/
  history : LaneKey → Nat → Option LaneState
  /-- The version the disk row holds. -/
  diskVersion : LaneKey → Nat
  /-- The newest version whose write has completed. -/
  completed : LaneKey → Nat
  /-- The completed versions when a flush call started. -/
  seen : Nat → LaneKey → Nat

/-- A store just opened: the working set is hydrated from disk. -/
def LaneStore.opened (disk : LaneKey → Option LaneState) : LaneStore where
  lanes key := (disk key).map .live
  dirty := []
  disk := disk
  unpushed := []
  phase _ := .idle
  version _ := 0
  history key _ := disk key
  diskVersion _ := 0
  completed _ := 0
  seen _ _ := 0

/-! ## Writes -/

/-- The buffered writes of the store. -/
inductive StoreWrite where
  | record (state : LaneState)
  | setRegisteredUntil (key : LaneKey) (registeredUntil : Nat)
  | setPaidCumulative (key : LaneKey) (paidCumulative : Nat)
  | forget (key : LaneKey)

/-- What `record` keeps of the live row it replaces. -/
def mergeRecord (existing next : LaneState) : LaneState :=
  { next with
    registeredUntil := max next.registeredUntil existing.registeredUntil
    ownerSig := if next.ownerSig.isNone then existing.ownerSig else next.ownerSig
    paidCumulative := max next.paidCumulative existing.paidCumulative }

/-- Replace one slot; the key is pushed by a later step. -/
def LaneStore.setSlot (s : LaneStore) (key : LaneKey) (slot : LaneSlot) : LaneStore :=
  { s with
    lanes := Function.update s.lanes key (some slot)
    unpushed := (key, s.version key + 1) :: s.unpushed
    version := Function.update s.version key (s.version key + 1)
    history := Function.update s.history key
      (Function.update (s.history key) (s.version key + 1) slot.row) }

/-- The slot half of a write.  The two setters do nothing without a live row or
without a raise. -/
def LaneStore.write (s : LaneStore) : StoreWrite → LaneStore
  | .record state =>
    match s.lanes state.key with
    | some (.live existing) => s.setSlot state.key (.live (mergeRecord existing state))
    | _ => s.setSlot state.key (.live state)
  | .setRegisteredUntil key registeredUntil =>
    match s.lanes key with
    | some (.live state) =>
      if state.registeredUntil < registeredUntil then
        s.setSlot key (.live { state with registeredUntil := registeredUntil })
      else s
    | _ => s
  | .setPaidCumulative key paidCumulative =>
    match s.lanes key with
    | some (.live state) =>
      if state.paidCumulative < paidCumulative then
        s.setSlot key (.live { state with paidCumulative := paidCumulative })
      else s
    | _ => s
  | .forget key => s.setSlot key .tombstoned

/-- The other half: `dirty.push`, after which the write has completed. -/
def LaneStore.pushKey (s : LaneStore) (key : LaneKey) (version : Nat) : LaneStore :=
  { s with
    unpushed := s.unpushed.erase (key, version)
    dirty := s.dirty ++ [key]
    completed := Function.update s.completed key (max (s.completed key) version) }

/-! ## Steps -/

/-- The steps of the writers and of the flush calls. -/
inductive StoreEvent where
  | write (w : StoreWrite)
  | push (key : LaneKey) (version : Nat)
  | start (f : Nat)
  | pop (f : Nat)
  | drained (f : Nat)
  | snapshot (f : Nat) (key : LaneKey)
  | encodeFail (f : Nat)
  | commit (f : Nat)
  | commitFail (f : Nat)
  | requeue (f : Nat) (key : LaneKey)
  | reap (f : Nat) (key : LaneKey)
  | finish (f : Nat)

/-- Move one flush call to its next phase. -/
def LaneStore.setPhase (s : LaneStore) (f : Nat) (phase : FlushPhase) : LaneStore :=
  { s with phase := Function.update s.phase f phase }

/-- `commit_snapshot`: all saved rows in one transaction. -/
def LaneStore.commitSnapshot (s : LaneStore) (saved : LaneKey → Option Saved) : LaneStore :=
  { s with
    disk := fun key =>
      match saved key with
      | some row => row.slot.row
      | none => s.disk key
    diskVersion := fun key =>
      match saved key with
      | some row => row.version
      | none => s.diskVersion key }

/-- `remove_if` of a tombstoned slot.  The row is absent on disk already, so the
disk stands at the removed version. -/
def LaneStore.removeTombstone (s : LaneStore) (key : LaneKey) : LaneStore :=
  match s.lanes key with
  | some .tombstoned =>
    { s with
      lanes := Function.update s.lanes key none
      diskVersion := Function.update s.diskVersion key (s.version key) }
  | _ => s

/-- A saved slot that is a tombstone. -/
def isTombstone : Option Saved → Bool
  | some ⟨_, .tombstoned⟩ => true
  | _ => false

/-- One step, if it is enabled. -/
def LaneStore.apply (s : LaneStore) : StoreEvent → Option LaneStore
  | .write w => some (s.write w)
  | .push key version =>
    if (key, version) ∈ s.unpushed then some (s.pushKey key version) else none
  | .start f =>
    match s.phase f with
    | .idle | .returned _ =>
      some { s.setPhase f (.draining ∅) with seen := Function.update s.seen f s.completed }
    | _ => none
  | .pop f =>
    match s.phase f, s.dirty with
    | .draining drained, key :: dirty =>
      some { s.setPhase f (.draining (insert key drained)) with dirty := dirty }
    | _, _ => none
  | .drained f =>
    match s.phase f, s.dirty with
    | .draining drained, [] =>
      if drained = ∅ then some (s.setPhase f (.returned true))
      else some (s.setPhase f (.snapshotting drained drained fun _ => none))
    | _, _ => none
  | .snapshot f key =>
    match s.phase f with
    | .snapshotting drained todo saved =>
      if key ∈ todo then
        some (s.setPhase f (.snapshotting drained (todo.erase key)
          (match s.lanes key with
          | some slot => Function.update saved key (some ⟨s.version key, slot⟩)
          | none => saved)))
      else none
    | _ => none
  | .encodeFail f =>
    match s.phase f with
    | .snapshotting drained _ _ => some (s.setPhase f (.requeuing drained))
    | _ => none
  | .commit f =>
    match s.phase f with
    | .snapshotting drained todo saved =>
      if todo = ∅ then
        some ((s.commitSnapshot saved).setPhase f
          (.reaping (drained.filter fun key => isTombstone (saved key))))
      else none
    | _ => none
  | .commitFail f =>
    match s.phase f with
    | .snapshotting drained todo saved =>
      if todo = ∅ then
        some (s.setPhase f (.requeuing (drained.filter fun key => (saved key).isSome)))
      else none
    | _ => none
  | .requeue f key =>
    match s.phase f with
    | .requeuing left =>
      if key ∈ left then
        some { s.setPhase f (.requeuing (left.erase key)) with dirty := s.dirty ++ [key] }
      else none
    | _ => none
  | .reap f key =>
    match s.phase f with
    | .reaping left =>
      if key ∈ left then some ((s.removeTombstone key).setPhase f (.reaping (left.erase key)))
      else none
    | _ => none
  | .finish f =>
    match s.phase f with
    | .requeuing left => if left = ∅ then some (s.setPhase f (.returned false)) else none
    | .reaping left => if left = ∅ then some (s.setPhase f (.returned true)) else none
    | _ => none

/-- One enabled step. -/
def LaneStore.step (s : LaneStore) (e : StoreEvent) (s' : LaneStore) : Prop :=
  s.apply e = some s'

/-! ## Exclusive flushes -/

/-- The call is between its start and its return. -/
def FlushPhase.busy : FlushPhase → Bool
  | .idle | .returned _ => false
  | _ => true

/-- A flush call starts only while no other runs. -/
def StoreEvent.Exclusive (s : LaneStore) : StoreEvent → Prop
  | .start _ => ∀ g, (s.phase g).busy = false
  | _ => True

/-- The step starts a flush call. -/
def StoreEvent.isStart : StoreEvent → Bool
  | .start _ => true
  | _ => false

/-- Every other step is exclusive. -/
theorem StoreEvent.exclusive_of_not_isStart {s : LaneStore} {e : StoreEvent}
    (h : (!e.isStart) = true) : e.Exclusive s := by
  cases e with
  | start f => cases h
  | _ => trivial

end Decdn.Node
