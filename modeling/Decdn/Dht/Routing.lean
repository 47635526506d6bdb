import Decdn.Dht.Keyspace
import Mathlib.Data.List.FinRange
import Mathlib.Logic.Function.Basic

/-!
# The routing table

A node keeps the peers it knows in 256 buckets by their distance, each in order
of recency, and beside them the peers whose dial timed out.  This file models
the table and its operations.  Instants are nanoseconds, and the staker set of a
call is the test of membership it answers.

Main definitions:

- `RoutingTable`, `insertActive`, `remove`, `markUnreachable`, `coolingPeers` and
  `closestWhere`: the table and its operations.
- `RoutingTable.run` and `lastSeen`: histories of operations.
-/

namespace Decdn.Dht

/-! ## The table -/

/-- `K_BUCKET_SIZE`, equal to `MAX_CLOSER_NODES`. -/
def kBucketSize : Nat := 20

/-- `DIAL_FAILURE_COOLDOWN`. -/
def dialFailureCooldown : Nat := 300 * 10 ^ 9

/-- `RoutingTable`. -/
structure RoutingTable where
  selfId : NodeId
  buckets : Fin keyspaceBits → List NodeId
  cooling : NodeId → Option Nat

namespace RoutingTable

/-- `RoutingTable::new`. -/
def new (selfId : NodeId) : RoutingTable where
  selfId := selfId
  buckets := fun _ => []
  cooling := fun _ => none

/-- The bucket at the index of a peer's distance, which `get_mut` looks up. -/
def slot (t : RoutingTable) (peer : NodeId) : Option (Fin keyspaceBits) :=
  match bucketIndex (xorDistance t.selfId peer) with
  | none => none
  | some idx => if h : idx < keyspaceBits then some ⟨idx, h⟩ else none

/-- `is_cooling`. -/
def isCooling (t : RoutingTable) (peer : NodeId) (now : Nat) : Bool :=
  match t.cooling peer with
  | none => false
  | some skipUntil => now < skipUntil

/-- `bucket_of`. -/
def bucketOf (t : RoutingTable) (peer : NodeId) : Option (List NodeId) :=
  if peer = t.selfId then none else (t.slot peer).map t.buckets

/-- `insert_evicting`. -/
def insertEvicting (t : RoutingTable) (peer : NodeId) (victim : Nat) : RoutingTable × Bool :=
  if peer = t.selfId then (t, false)
  else
    match t.slot peer with
    | none => (t, false)
    | some idx =>
      let bucket := t.buckets idx
      let t := { t with cooling := Function.update t.cooling peer none }
      match bucket.findIdx? fun p => p = peer with
      | some pos =>
        -- already present: move to the tail
        let bucket := bucket.eraseIdx pos ++ bucket[pos]?.toList
        ({ t with buckets := Function.update t.buckets idx bucket }, false)
      | none =>
        let bucket :=
          if kBucketSize ≤ bucket.length then
            bucket.eraseIdx (if victim < bucket.length then victim else 0)
          else bucket
        ({ t with buckets := Function.update t.buckets idx (bucket ++ [peer]) }, true)

/-- `insert_active`. -/
def insertActive (t : RoutingTable) (peer : NodeId) (isActive : NodeId → Bool) (now : Nat) :
    RoutingTable × Bool :=
  if !isActive peer then (t, false)
  else
    let victim := ((t.bucketOf peer).bind fun bucket =>
      bucket.findIdx? fun p => !isActive p || t.isCooling p now).getD 0
    t.insertEvicting peer victim

/-- `remove`. -/
def remove (t : RoutingTable) (peer : NodeId) : RoutingTable × Bool :=
  if peer = t.selfId then (t, false)
  else
    match t.slot peer with
    | none => (t, false)
    | some idx =>
      let bucket := t.buckets idx
      let t := { t with cooling := Function.update t.cooling peer none }
      match bucket.findIdx? fun p => p = peer with
      | some pos => ({ t with buckets := Function.update t.buckets idx (bucket.eraseIdx pos) }, true)
      | none => (t, false)

/-- `mark_unreachable`. -/
def markUnreachable (t : RoutingTable) (peer : NodeId) (now : Nat) : RoutingTable × Bool :=
  if peer = t.selfId then (t, false)
  else
    ({ t with cooling := Function.update t.cooling peer (some (now + dialFailureCooldown)) }, true)

/-- `cooling_peers`: the table without the lapsed skips, and the test of membership of the set
it returns. -/
def coolingPeers (t : RoutingTable) (now : Nat) : RoutingTable × (NodeId → Bool) :=
  let cooling := fun peer => (t.cooling peer).filter fun skipUntil => now < skipUntil
  ({ t with cooling := cooling }, fun peer => (cooling peer).isSome)

/-- `iter_peers`. -/
def iterPeers (t : RoutingTable) : List NodeId := (List.finRange keyspaceBits).flatMap t.buckets

/-- `closest_where`. -/
def closestWhere (t : RoutingTable) (target : Point) (n : Nat) (keep : NodeId → Bool) :
    List NodeId :=
  let scored := (t.iterPeers.filter keep).map fun p => (p, xorDistanceBytes p.asBytes target)
  let scored := scored.mergeSort fun a b => decide (a.2 ≤ b.2)
  (scored.take n).map Prod.fst

end RoutingTable

/-! ## Histories -/

/-- An operation on the table, with the staker set and the instant of the call. -/
inductive TableOp where
  | insertActive (peer : NodeId) (isActive : NodeId → Bool) (now : Nat)
  | remove (peer : NodeId)
  | markUnreachable (peer : NodeId) (now : Nat)
  | coolingPeers (now : Nat)

/-- The table after an operation. -/
def RoutingTable.apply (t : RoutingTable) : TableOp → RoutingTable
  | .insertActive peer isActive now => (t.insertActive peer isActive now).1
  | .remove peer => (t.remove peer).1
  | .markUnreachable peer now => (t.markUnreachable peer now).1
  | .coolingPeers now => (t.coolingPeers now).1

/-- The table after a history, newest operation first. -/
def RoutingTable.run (selfId : NodeId) : List TableOp → RoutingTable
  | [] => .new selfId
  | op :: earlier => (run selfId earlier).apply op

/-- The operation is an insert or a refresh of the peer that succeeds. -/
def TableOp.touches (selfId : NodeId) (peer : NodeId) : TableOp → Prop
  | .insertActive p isActive _ => p = peer ∧ isActive p ∧ p ≠ selfId
  | _ => False

instance (selfId peer : NodeId) (op : TableOp) : Decidable (op.touches selfId peer) :=
  match op with
  | .insertActive _ _ _ => inferInstanceAs (Decidable (_ ∧ _ ∧ _))
  | .remove _ => inferInstanceAs (Decidable False)
  | .markUnreachable _ _ => inferInstanceAs (Decidable False)
  | .coolingPeers _ => inferInstanceAs (Decidable False)

/-- The number of operations up to the last successful insert or refresh of the peer, zero
without any. -/
def lastSeen (selfId : NodeId) : List TableOp → NodeId → Nat
  | [], _ => 0
  | op :: earlier, peer =>
    if op.touches selfId peer then earlier.length + 1 else lastSeen selfId earlier peer

end Decdn.Dht
