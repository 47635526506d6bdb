import Decdn.Dht.Keyspace
import Decdn.Foundations.RecentMap
import Decdn.Foundations.Words
import Mathlib.Data.List.Sort

/-!
# The origin directory of a node

`crates/node/src/dht/chain_origin_directory.rs` and `crates/node/src/dht/lazy_origin_cache.rs`:
a namespace is resolved to the nodes of its seated operators.  The operators are read from the
chain on the first request and kept for a while, an empty answer for a shorter one; who of
them is denied, bound to a node and active is looked up on every request.

Main definitions:

- Definition `resolve`: the nodes of some operators.
- Definition `OriginDirectory.lookup` and Definition `OriginDirectory.fetched`: the two halves of
  `lookup_origins`, before and after the read of the chain.

Main results:

- Theorem `mem_resolve`: who is resolved.
- Theorem `lookup_sound`: what a request answers without a read.
- Theorem `lookup_kept`: when a request reads no chain.
-/

namespace Decdn.Origins

open Dht

/-! ## Resolving -/

/-- What the node knows of operators at one moment: its deny-set, the reverse binding of the
capacity-bond projection and the active set. -/
structure Knowledge where
  isOriginDenied : Address → Bool
  operatorToNode : Address → Option NodeId
  isActive : NodeId → Bool

/-- `Vec::dedup`: drop an item that repeats the one before it. -/
def dedup : List NodeId → List NodeId
  | [] => []
  | [n] => [n]
  | n :: n' :: rest => if n = n' then dedup (n' :: rest) else n :: dedup (n' :: rest)

/-- `resolve_active`. -/
def resolveActive (K : Knowledge) (operators : List Address) : List NodeId :=
  dedup (((operators.filterMap K.operatorToNode).filter fun n => K.isActive n).mergeSort)

/-- `ChainOriginDirectory::resolve`. -/
def resolve (K : Knowledge) (operators : List Address) : List NodeId :=
  resolveActive K (operators.filter fun op => !K.isOriginDenied op)

theorem mem_dedup (ns : List NodeId) (n : NodeId) : n ∈ dedup ns ↔ n ∈ ns := by
  induction ns using dedup.induct with
  | case1 => exact Iff.rfl
  | case2 m => exact Iff.rfl
  | case3 m rest ih =>
    rw [dedup, if_pos rfl, ih, List.mem_cons (l := m :: rest)]
    exact ⟨.inr, fun h => h.elim (fun heq => heq ▸ List.mem_cons_self) id⟩
  | case4 m m' rest hne ih =>
    rw [dedup, if_neg hne, List.mem_cons, ih, List.mem_cons (l := m' :: rest)]

/-- A sorted list without repeats in a row ascends. -/
theorem dedup_ascending {ns : List NodeId} (h : ns.Pairwise (· ≤ ·)) :
    (dedup ns).Pairwise (· < ·) := by
  induction ns using dedup.induct with
  | case1 => exact List.Pairwise.nil
  | case2 m => exact List.pairwise_singleton _ m
  | case3 m rest ih =>
    rw [dedup, if_pos rfl]
    exact ih (List.pairwise_cons.mp h).2
  | case4 m m' rest hne ih =>
    rw [dedup, if_neg hne, List.pairwise_cons]
    rcases List.pairwise_cons.mp h with ⟨hfirst, hrest⟩
    refine ⟨fun n hn => ?_, ih hrest⟩
    have hlt : m < m' := lt_of_le_of_ne (hfirst m' List.mem_cons_self) hne
    rcases List.mem_cons.mp ((mem_dedup _ n).mp hn) with rfl | hn'
    · exact hlt
    · exact lt_of_lt_of_le hlt ((List.pairwise_cons.mp hrest).1 n hn')

/-- A node is resolved exactly when it is active and bound to one of the operators that is not
denied. -/
theorem mem_resolve (K : Knowledge) (operators : List Address) (n : NodeId) :
    n ∈ resolve K operators ↔ K.isActive n = true ∧
      ∃ op ∈ operators, K.isOriginDenied op = false ∧ K.operatorToNode op = some n := by
  unfold resolve resolveActive
  rw [mem_dedup, List.mem_mergeSort, List.mem_filter, List.mem_filterMap, and_comm]
  refine and_congr_right fun _ => ?_
  constructor
  · rintro ⟨op, hop, hnode⟩
    rcases List.mem_filter.mp hop with ⟨hop, hallowed⟩
    exact ⟨op, hop, by simpa using hallowed, hnode⟩
  · rintro ⟨op, hop, hallowed, hnode⟩
    exact ⟨op, List.mem_filter.mpr ⟨hop, by simpa using hallowed⟩, hnode⟩

/-- The nodes are in ascending order, each once. -/
theorem resolve_ascending (K : Knowledge) (operators : List Address) :
    (resolve K operators).Pairwise (· < ·) := by
  apply dedup_ascending
  have hsorted := List.pairwise_mergeSort
    (fun (a b c : NodeId) (hab : decide (a ≤ b) = true) (hbc : decide (b ≤ c) = true) => by simpa using le_trans (of_decide_eq_true hab) (of_decide_eq_true hbc))
    (fun a b => by simpa using le_total a b)
    (((operators.filter fun op => !K.isOriginDenied op).filterMap K.operatorToNode).filter
      fun n => K.isActive n)
  exact hsorted.imp fun h => of_decide_eq_true h

/-! ## The cache -/

/-- The cache of the operators read from the chain, by namespace. -/
structure OriginDirectory where
  cache : RecentMap Nat (List Address)
  positiveTtl : Nat
  negativeTtl : Nat

/-- `ChainOriginDirectory::new`. -/
def OriginDirectory.new (cacheCapacity positiveTtl negativeTtl : Nat) : OriginDirectory :=
  ⟨RecentMap.new cacheCapacity, positiveTtl, negativeTtl⟩

/-- How long an answer of the chain is kept: an empty one for the negative time. -/
def OriginDirectory.ttl (d : OriginDirectory) (operators : List Address) : Nat :=
  if operators = [] then d.negativeTtl else d.positiveTtl

/-- `lookup_origins` up to the read of the chain: an answer, or `none` if the chain is read.
Namespace 0 is neither read nor kept. -/
def OriginDirectory.lookup (d : OriginDirectory) (K : Knowledge) (now namespaceId : Nat) :
    Option (List NodeId) × OriginDirectory :=
  if namespaceId = 0 then (some [], d)
  else
    match d.cache.get now namespaceId with
    | (some operators, cache) => (some (resolve K operators), { d with cache := cache })
    | (none, cache) => (none, { d with cache := cache })

/-- `lookup_origins` after the read: a failed one resolves nothing and is not kept. -/
def OriginDirectory.fetched (d : OriginDirectory) (K : Knowledge) (now namespaceId : Nat)
    (answer : Option (List Address)) : List NodeId × OriginDirectory :=
  match answer with
  | none => ([], d)
  | some operators =>
    (resolve K operators,
      { d with cache := d.cache.insert namespaceId ⟨operators, now + d.ttl operators⟩ })

/-- One half of a request.  Requests run side by side, so the halves come in any order. -/
inductive Event where
  | lookup (K : Knowledge) (now namespaceId : Nat)
  | fetched (K : Knowledge) (now namespaceId : Nat) (answer : Option (List Address))

/-- The time of an event. -/
def Event.time : Event → Nat
  | .lookup _ now _ | .fetched _ now _ _ => now

/-- The namespace of an event. -/
def Event.namespaceId : Event → Nat
  | .lookup _ _ namespaceId | .fetched _ _ namespaceId _ => namespaceId

/-- The directory after one event. -/
def OriginDirectory.apply (d : OriginDirectory) : Event → OriginDirectory
  | .lookup K now namespaceId => (d.lookup K now namespaceId).2
  | .fetched K now namespaceId answer => (d.fetched K now namespaceId answer).2

/-- The directory after a run. -/
def runEvents (cacheCapacity positiveTtl negativeTtl : Nat) (es : List Event) : OriginDirectory :=
  es.foldl OriginDirectory.apply (.new cacheCapacity positiveTtl negativeTtl)

/-- The use an event makes of the cache. -/
def Event.use (positiveTtl negativeTtl : Nat) : Event → Option (RecentMap.Use Nat (List Address))
  | .lookup _ now namespaceId => if namespaceId = 0 then none else some (.read now namespaceId)
  | .fetched _ _ _ none => none
  | .fetched _ now namespaceId (some operators) =>
    some (.store namespaceId
      ⟨operators, now + if operators = [] then negativeTtl else positiveTtl⟩)

variable {cacheCapacity positiveTtl negativeTtl : Nat}

/-- The cache after a run is the cache after the uses the run made of it. -/
theorem runEvents_eq (es : List Event) :
    runEvents cacheCapacity positiveTtl negativeTtl es =
      ⟨RecentMap.run cacheCapacity (es.filterMap (Event.use positiveTtl negativeTtl)), positiveTtl,
        negativeTtl⟩ := by
  induction es using List.reverseRecOn with
  | nil => rfl
  | append_singleton es e ih =>
    rw [runEvents, List.foldl_append, List.foldl_cons, List.foldl_nil, ← runEvents, ih,
      List.filterMap_append]
    cases e with
    | lookup K now namespaceId =>
      by_cases hzero : namespaceId = 0
      · simp [OriginDirectory.apply, OriginDirectory.lookup, Event.use, hzero]
      · have hfilter : [Event.lookup K now namespaceId].filterMap
            (Event.use positiveTtl negativeTtl) = [.read now namespaceId] := by
          simp [Event.use, hzero]
        rw [hfilter, RecentMap.run_concat]
        simp only [OriginDirectory.apply, OriginDirectory.lookup, if_neg hzero]
        split
        · rename_i operators cache hget
          rw [RecentMap.use, hget]
        · rename_i cache hget
          rw [RecentMap.use, hget]
    | fetched K now namespaceId answer =>
      cases answer with
      | none =>
        have hfilter : [Event.fetched K now namespaceId none].filterMap
            (Event.use positiveTtl negativeTtl) = [] := by
          simp [Event.use]
        rw [hfilter, List.append_nil]
        rfl
      | some operators =>
        have hfilter : [Event.fetched K now namespaceId (some operators)].filterMap
            (Event.use positiveTtl negativeTtl) = [.store namespaceId
              ⟨operators, now + if operators = [] then negativeTtl else positiveTtl⟩] := by
          simp [Event.use]
        rw [hfilter, RecentMap.run_concat]
        rfl

/-- What a request finds in the cache. -/
theorem lookup_eq (es : List Event) (K : Knowledge) {now namespaceId : Nat}
    (hzero : namespaceId ≠ 0) :
    ((runEvents cacheCapacity positiveTtl negativeTtl es).lookup K now namespaceId).1 =
      ((RecentMap.run cacheCapacity (es.filterMap (Event.use positiveTtl negativeTtl))).get now
        namespaceId).1.map (resolve K) := by
  rw [runEvents_eq, OriginDirectory.lookup, if_neg hzero]
  simp only
  split <;> rename_i hget <;> rw [hget] <;> rfl

/-- A read of a namespace that was kept. -/
def Event.Stores (namespaceId : Nat) : Event → Prop
  | .fetched _ _ namespaceId' (some _) => namespaceId' = namespaceId
  | _ => False

/-- Which events use the cache. -/
theorem Event.use_cases {e : Event} {u : RecentMap.Use Nat (List Address)}
    (h : e.use positiveTtl negativeTtl = some u) :
    (∃ K now namespaceId, e = .lookup K now namespaceId ∧ u = .read now namespaceId) ∨
    ∃ K now namespaceId operators, e = .fetched K now namespaceId (some operators) ∧
      u = .store namespaceId
        ⟨operators, now + if operators = [] then negativeTtl else positiveTtl⟩ := by
  cases e with
  | lookup K now namespaceId =>
    change (if namespaceId = 0 then none else some (RecentMap.Use.read now namespaceId)) = _ at h
    split at h
    · cases h
    · exact .inl ⟨K, now, namespaceId, rfl, (Option.some.inj h).symm⟩
  | fetched K now namespaceId answer =>
    cases answer with
    | none => cases h
    | some operators => exact .inr ⟨K, now, namespaceId, operators, rfl, (Option.some.inj h).symm⟩

/-- What a request answers without a read, for a namespace other than 0: the last operators
read for the namespace, within their time, resolved by what the node knows at the request.  The
nodes are those active ones that are bound to an operator the node does not deny, each once and
in ascending order. -/
theorem lookup_sound (es : List Event) (K : Knowledge) {now namespaceId : Nat}
    {nodes : List NodeId} (hzero : namespaceId ≠ 0)
    (h : ((runEvents cacheCapacity positiveTtl negativeTtl es).lookup K now namespaceId).1 =
      some nodes) :
    ∃ before K' t operators after,
      es = before ++ .fetched K' t namespaceId (some operators) :: after ∧
      (∀ e ∈ after, ¬ e.Stores namespaceId) ∧
      now < t + (if operators = [] then negativeTtl else positiveTtl) ∧
      (∀ n, n ∈ nodes ↔ K.isActive n = true ∧
        ∃ op ∈ operators, K.isOriginDenied op = false ∧ K.operatorToNode op = some n) ∧
      nodes.Pairwise (· < ·) := by
  rw [lookup_eq es K hzero] at h
  rcases Option.map_eq_some_iff.mp h with ⟨operators, hget, rfl⟩
  rcases RecentMap.stored_of_get hget with ⟨usesBefore, usesAfter, expiry, huses, hkeeps, hlive⟩
  rcases List.filterMap_eq_append_iff.mp huses with ⟨before₁, rest, rfl, -, hrest⟩
  rcases List.filterMap_eq_cons_iff.mp hrest with ⟨before₂, e, after, rfl, -, he, hafter⟩
  rcases Event.use_cases he with ⟨_, _, _, -, hread⟩ | ⟨K', t, _, operators, rfl, hstore⟩
  · cases hread
  rcases RecentMap.Use.store.inj hstore with ⟨rfl, hvalue⟩
  rcases Timed.mk.inj hvalue with ⟨rfl, rfl⟩
  refine ⟨before₁ ++ before₂, K', t, operators, after, by simp, ?_, hlive, mem_resolve K operators,
    resolve_ascending K operators⟩
  intro e he hstores
  cases e with
  | lookup => exact hstores
  | fetched K'' t' namespaceId' answer =>
    cases answer with
    | none => exact hstores
    | some operators' =>
      have hmem : RecentMap.Use.store namespaceId' ⟨operators', t' +
          if operators' = [] then negativeTtl else positiveTtl⟩ ∈ usesAfter :=
        hafter ▸ List.mem_filterMap.mpr ⟨_, he, rfl⟩
      exact hkeeps _ hmem hstores

/-- Every operator allowed, bound to one node, and active. -/
def sampleKnowledge : Knowledge where
  isOriginDenied _ := false
  operatorToNode _ := some ⟨⟨Vector.replicate nodeIdLen 5⟩⟩
  isActive _ := true

theorem lookup_sound_sample :
    ∃ before K' t operators after,
      [Event.fetched sampleKnowledge 0 1 (some [7])] =
        before ++ .fetched K' t 1 (some operators) :: after ∧
      (∀ e ∈ after, ¬ e.Stores 1) ∧
      10 < t + (if operators = [] then 50 else 100) ∧
      (∀ n, n ∈ resolve sampleKnowledge [7] ↔ sampleKnowledge.isActive n = true ∧
        ∃ op ∈ operators, sampleKnowledge.isOriginDenied op = false ∧
          sampleKnowledge.operatorToNode op = some n) ∧
      (resolve sampleKnowledge [7]).Pairwise (· < ·) :=
  @lookup_sound 4 100 50 [.fetched sampleKnowledge 0 1 (some [7])] sampleKnowledge 10 1
    (resolve sampleKnowledge [7]) one_ne_zero rfl

/-- When a request reads no chain: within the time of the last operators read for the
namespace, if fewer other namespaces than the cache has room for were asked for since.  So who
wants a second read of a namespace has to ask for as many others. -/
theorem lookup_kept (before after : List Event) (K K' : Knowledge) {t now namespaceId : Nat}
    (operators : List Address) (hzero : namespaceId ≠ 0)
    (hlast : ∀ e ∈ after, ¬ e.Stores namespaceId) (htime : ∀ e ∈ after, e.time ≤ now)
    (hlive : now < t + (if operators = [] then negativeTtl else positiveTtl))
    (hroom : ((after.map Event.namespaceId).toFinset.erase namespaceId).card <
      max cacheCapacity 1) :
    ((runEvents cacheCapacity positiveTtl negativeTtl
        (before ++ .fetched K' t namespaceId (some operators) :: after)).lookup K now
      namespaceId).1 = some (resolve K operators) := by
  have huses : (before ++ .fetched K' t namespaceId (some operators) :: after).filterMap
      (Event.use positiveTtl negativeTtl) =
      before.filterMap (Event.use positiveTtl negativeTtl) ++ .store namespaceId
        ⟨operators, t + if operators = [] then negativeTtl else positiveTtl⟩ ::
        after.filterMap (Event.use positiveTtl negativeTtl) := by
    rw [List.filterMap_append, List.filterMap_cons]
    rfl
  have hkeeps : ∀ u ∈ after.filterMap (Event.use positiveTtl negativeTtl),
      u.Keeps namespaceId := by
    intro u hu
    rcases List.mem_filterMap.mp hu with ⟨e, he, heu⟩
    rcases Event.use_cases heu with ⟨_, _, _, -, rfl⟩ | ⟨_, _, namespaceId', _, rfl, rfl⟩
    · trivial
    · exact hlast _ he
  have hreads : ∀ now', .read now' namespaceId ∈
      after.filterMap (Event.use positiveTtl negativeTtl) →
      now' < t + if operators = [] then negativeTtl else positiveTtl := by
    intro now' hu
    rcases List.mem_filterMap.mp hu with ⟨e, he, heu⟩
    rcases Event.use_cases heu with ⟨_, _, _, rfl, hread⟩ | ⟨_, _, _, _, -, hstore⟩
    · rcases RecentMap.Use.read.inj hread with ⟨rfl, -⟩
      exact Nat.lt_of_le_of_lt (htime _ he) hlive
    · cases hstore
  have hother : RecentMap.otherKeys namespaceId
      (after.filterMap (Event.use positiveTtl negativeTtl)) ⊆
      (after.map Event.namespaceId).toFinset.erase namespaceId := by
    refine Finset.erase_subset_erase _ fun k hk => ?_
    rcases List.mem_map.mp (List.mem_toFinset.mp hk) with ⟨u, hu, rfl⟩
    rcases List.mem_filterMap.mp hu with ⟨e, he, heu⟩
    refine List.mem_toFinset.mpr (List.mem_map.mpr ⟨e, he, ?_⟩)
    rcases Event.use_cases heu with ⟨_, _, _, rfl, rfl⟩ | ⟨_, _, _, _, rfl, rfl⟩ <;> rfl
  have hget := RecentMap.get_of_stored (v := ⟨operators,
      t + if operators = [] then negativeTtl else positiveTtl⟩)
    (before.filterMap (Event.use positiveTtl negativeTtl)) hkeeps hreads
    (Nat.lt_of_le_of_lt (Finset.card_le_card hother) hroom) hlive
  rw [lookup_eq _ K hzero, huses, hget]
  rfl

/-- An empty answer is still there after a request for another namespace. -/
theorem lookup_kept_sample :
    ((runEvents 2 100 50 ([] ++ .fetched sampleKnowledge 0 1 (some []) ::
        [.lookup sampleKnowledge 20 3])).lookup sampleKnowledge 30 1).1 =
      some (resolve sampleKnowledge []) :=
  lookup_kept [] [.lookup sampleKnowledge 20 3] sampleKnowledge sampleKnowledge [] one_ne_zero
    (by simp [Event.Stores]) (by simp [Event.time]) (by decide) (by decide)

end Decdn.Origins
