import Decdn.Dht.Routing
import Mathlib.Data.List.Nodup

/-!
# Placement and recency in the routing table

Every operation either leaves the peers of a bucket alone, takes one out, or puts
one at the tail, after taking at most one out.  The buckets therefore stay in
the order of the last successful insert or refresh of their peers, and the
victim of a full bucket is read off that order.

Main results:

- Theorem `insertEvicting_spec`: what an insert does to its bucket.
- Theorem `run_ordered`: every history keeps placement, size and recency.
- Theorem `closestWhere_spec`: the nearest peers, by the sort of their distances.
- Theorem `routing_table_sound`: every history, every insert and every query.
-/

namespace Decdn.Dht

namespace RoutingTable

variable {t : RoutingTable} {selfId peer : NodeId}

/-! ## Lists of distinct peers -/

theorem eraseIdx_findIdx {bucket : List NodeId} {pos : Nat}
    (h : (bucket.findIdx? fun p => p = peer) = some pos) :
    bucket.eraseIdx pos = bucket.erase peer ∧ bucket[pos]? = some peer := by
  rcases List.findIdx?_eq_some_iff_getElem.mp h with ⟨hpos, hpeer, -⟩
  have hfound : bucket[pos] = peer := of_decide_eq_true hpeer
  constructor
  · rw [List.erase_eq_eraseP, List.eraseP_eq_eraseIdx]
    have hsame : (bucket.findIdx? fun p => peer == p) = some pos := by
      rw [← h]
      congr 1
      funext p
      rw [Bool.eq_iff_iff, beq_iff_eq, decide_eq_true_iff]
      exact eq_comm
    rw [hsame]
  · rw [List.getElem?_eq_getElem hpos, hfound]

/-- What is left of distinct peers without the one at a position. -/
theorem mem_eraseIdx {bucket : List NodeId} {i : Nat} (hnodup : bucket.Nodup)
    (hi : i < bucket.length) {p : NodeId} :
    p ∈ bucket.eraseIdx i ↔ p ∈ bucket ∧ p ≠ bucket[i] := by
  rw [← hnodup.erase_getElem i hi, hnodup.mem_erase_iff]
  exact and_comm

/-! ## Inserts -/

/-- Every other peer has a bucket. -/
theorem slot_eq_some (h : peer ≠ t.selfId) : ∃ idx, t.slot peer = some idx := by
  unfold slot
  split
  · rename_i hnone
    exact absurd (xorDistance_value_eq_zero (bucketIndex_eq_none.mp hnone)).symm h
  · rename_i idx hidx
    rw [dif_pos (bucketIndex_lt hidx)]
    exact ⟨_, rfl⟩

/-- An insert puts the peer at the tail of its bucket: behind the others if it was there, behind
all if there is room, and behind all but the victim otherwise. -/
theorem insertEvicting_spec (hself : peer ≠ t.selfId) (victim : Nat) :
    ∃ idx rest, t.slot peer = some idx ∧
      (t.insertEvicting peer victim).1 =
        { t with
          cooling := Function.update t.cooling peer none
          buckets := Function.update t.buckets idx (rest ++ [peer]) } ∧
      ((peer ∈ t.buckets idx ∧ rest = (t.buckets idx).erase peer ∧
          (t.insertEvicting peer victim).2 = false) ∨
        (peer ∉ t.buckets idx ∧ (t.buckets idx).length < kBucketSize ∧ rest = t.buckets idx ∧
          (t.insertEvicting peer victim).2 = true) ∨
        (peer ∉ t.buckets idx ∧ kBucketSize ≤ (t.buckets idx).length ∧
          rest = (t.buckets idx).eraseIdx
            (if victim < (t.buckets idx).length then victim else 0) ∧
          (t.insertEvicting peer victim).2 = true)) := by
  rcases slot_eq_some hself with ⟨idx, hslot⟩
  unfold insertEvicting
  rw [if_neg hself, hslot]
  dsimp only
  cases hfind : (t.buckets idx).findIdx? fun p => p = peer with
  | some pos =>
    rcases eraseIdx_findIdx hfind with ⟨herase, hget⟩
    have hmem : peer ∈ t.buckets idx := List.mem_of_getElem? hget
    refine ⟨idx, (t.buckets idx).erase peer, rfl, ?_, .inl ⟨hmem, rfl, rfl⟩⟩
    dsimp only
    rw [herase, hget]
    rfl
  | none =>
    have hmem : peer ∉ t.buckets idx := by
      intro hmem
      have hnot := List.findIdx?_eq_none_iff.mp hfind peer hmem
      exact of_decide_eq_false hnot rfl
    by_cases hfull : kBucketSize ≤ (t.buckets idx).length
    · refine ⟨idx, _, rfl, ?_, .inr (.inr ⟨hmem, hfull, rfl, rfl⟩)⟩
      dsimp only
      rw [if_pos hfull]
    · refine ⟨idx, _, rfl, ?_, .inr (.inl ⟨hmem, Nat.lt_of_not_le hfull, rfl, rfl⟩)⟩
      dsimp only
      rw [if_neg hfull]

/-! ## Recency -/

theorem lastSeen_cons (op : TableOp) (ops : List TableOp) (p : NodeId) :
    lastSeen selfId (op :: ops) p =
      if op.touches selfId p then ops.length + 1 else lastSeen selfId ops p :=
  rfl

theorem lastSeen_le (ops : List TableOp) (p : NodeId) : lastSeen selfId ops p ≤ ops.length := by
  induction ops with
  | nil => exact Nat.zero_le _
  | cons op earlier ih =>
    rw [lastSeen_cons, List.length_cons]
    split
    · exact le_rfl
    · omega

/-- The placement, the size and the order of the buckets after a history. -/
structure Ordered (selfId : NodeId) (ops : List TableOp) (t : RoutingTable) : Prop where
  self : t.selfId = selfId
  placed : ∀ {i p}, p ∈ t.buckets i → t.slot p = some i
  other : ∀ {i p}, p ∈ t.buckets i → p ≠ selfId
  size : ∀ i, (t.buckets i).length ≤ kBucketSize
  recency : ∀ i, (t.buckets i).Pairwise fun p q => lastSeen selfId ops p < lastSeen selfId ops q

theorem Ordered.nodup {ops : List TableOp} (h : Ordered selfId ops t) (i : Fin keyspaceBits) :
    (t.buckets i).Nodup :=
  (h.recency i).imp fun hlt heq => absurd (heq ▸ hlt) (lt_irrefl _)

/-- An operation that touches no peer and takes peers out of buckets at most. -/
theorem Ordered.thinned {ops : List TableOp} {op : TableOp} {t' : RoutingTable}
    (h : Ordered selfId ops t) (hop : ∀ p, ¬ op.touches selfId p) (hself : t'.selfId = t.selfId)
    (hbuckets : ∀ i, (t'.buckets i).Sublist (t.buckets i)) : Ordered selfId (op :: ops) t' := by
  have hseen : lastSeen selfId (op :: ops) = lastSeen selfId ops := by
    funext p
    exact if_neg (hop p)
  have hslot : t'.slot = t.slot := by
    funext p
    unfold slot
    rw [hself]
  refine ⟨hself.trans h.self, ?_, ?_, ?_, ?_⟩
  · intro i p hp
    rw [hslot]
    exact h.placed ((hbuckets i).subset hp)
  · intro i p hp
    exact h.other ((hbuckets i).subset hp)
  · intro i
    exact le_trans (hbuckets i).length_le (h.size i)
  · intro i
    rw [hseen]
    exact (h.recency i).sublist (hbuckets i)

/-- What an insert keeps of its bucket: some of the others, in order, with room for one. -/
theorem insertEvicting_rest {ops : List TableOp} (h : Ordered selfId ops t)
    (hself : peer ≠ t.selfId) (victim : Nat) :
    ∃ idx rest, t.slot peer = some idx ∧
      (t.insertEvicting peer victim).1 =
        { t with
          cooling := Function.update t.cooling peer none
          buckets := Function.update t.buckets idx (rest ++ [peer]) } ∧
      rest.Sublist (t.buckets idx) ∧ peer ∉ rest ∧ rest.length < kBucketSize := by
  rcases insertEvicting_spec hself victim with ⟨idx, rest, hslot, htable, hcases⟩
  refine ⟨idx, rest, hslot, htable, ?_⟩
  have hsize := h.size idx
  rcases hcases with ⟨hmem, rfl, -⟩ | ⟨hmem, hroom, rfl, -⟩ | ⟨hmem, hfull, rfl, -⟩
  · refine ⟨List.erase_sublist, (h.nodup idx).not_mem_erase, ?_⟩
    have hpos := List.length_pos_of_mem hmem
    rw [List.length_erase_of_mem hmem]
    omega
  · exact ⟨List.Sublist.refl _, hmem, hroom⟩
  · refine ⟨List.eraseIdx_sublist _ _, ?_, ?_⟩
    · intro hin
      exact hmem ((List.eraseIdx_sublist _ _).subset hin)
    · have hpos : 0 < kBucketSize := by decide
      have hvictim : (if victim < (t.buckets idx).length then victim else 0) <
          (t.buckets idx).length := by
        split
        · assumption
        · omega
      rw [List.length_eraseIdx_of_lt hvictim]
      omega

/-- A successful insert or refresh puts the peer behind every peer seen before. -/
theorem Ordered.inserted {ops : List TableOp} (h : Ordered selfId ops t) {isActive : NodeId → Bool}
    (now victim : Nat) (hactive : isActive peer) (hself : peer ≠ selfId) :
    Ordered selfId (.insertActive peer isActive now :: ops) (t.insertEvicting peer victim).1 := by
  have hseen : ∀ p, lastSeen selfId (.insertActive peer isActive now :: ops) p =
      if p = peer then ops.length + 1 else lastSeen selfId ops p := by
    intro p
    rw [lastSeen_cons]
    by_cases hp : p = peer
    · subst hp
      rw [if_pos ⟨rfl, hactive, hself⟩, if_pos rfl]
    · rw [if_neg hp, if_neg]
      rintro ⟨rfl, -⟩
      exact hp rfl
  have hnot : peer ≠ t.selfId := by
    rw [h.self]
    exact hself
  rcases insertEvicting_rest h hnot victim with ⟨idx, rest, hslot, htable, hsub, hout, hroom⟩
  rw [htable]
  refine ⟨h.self, ?_, ?_, ?_, ?_⟩
  · intro i p hp
    dsimp only at hp
    by_cases hi : i = idx
    · subst hi
      rw [Function.update_self] at hp
      rcases List.mem_append.mp hp with hp | hp
      · exact h.placed (hsub.subset hp)
      · rw [List.mem_singleton.mp hp]
        exact hslot
    · rw [Function.update_of_ne hi] at hp
      exact h.placed hp
  · intro i p hp
    dsimp only at hp
    by_cases hi : i = idx
    · subst hi
      rw [Function.update_self] at hp
      rcases List.mem_append.mp hp with hp | hp
      · exact h.other (hsub.subset hp)
      · rw [List.mem_singleton.mp hp]
        exact hself
    · rw [Function.update_of_ne hi] at hp
      exact h.other hp
  · intro i
    dsimp only
    by_cases hi : i = idx
    · subst hi
      rw [Function.update_self, List.length_append, List.length_singleton]
      exact hroom
    · rw [Function.update_of_ne hi]
      exact h.size i
  · intro i
    -- peers other than the inserted one keep their place in the order
    have hkept : ∀ bucket : List NodeId, bucket.Sublist (t.buckets i) → peer ∉ bucket →
        bucket.Pairwise fun p q =>
          lastSeen selfId (.insertActive peer isActive now :: ops) p <
            lastSeen selfId (.insertActive peer isActive now :: ops) q := by
      intro bucket hbucket hne
      refine List.Pairwise.imp_of_mem ?_ ((h.recency i).sublist hbucket)
      intro p q hp hq hlt
      rw [hseen, hseen, if_neg (ne_of_mem_of_not_mem hp hne), if_neg (ne_of_mem_of_not_mem hq hne)]
      exact hlt
    dsimp only
    by_cases hi : i = idx
    · subst hi
      rw [Function.update_self, List.pairwise_append]
      refine ⟨hkept rest hsub hout, List.pairwise_singleton _ _, ?_⟩
      intro p hp q hq
      have hle : lastSeen selfId ops p ≤ ops.length := lastSeen_le ops p
      rw [List.mem_singleton.mp hq, hseen, hseen, if_pos rfl,
        if_neg (ne_of_mem_of_not_mem hp hout)]
      omega
    · rw [Function.update_of_ne hi]
      refine hkept _ (List.Sublist.refl _) ?_
      intro hin
      have hplaced := h.placed hin
      rw [hslot, Option.some.injEq] at hplaced
      exact hi hplaced.symm

/-! ## Histories -/

/-- An inactive or own id changes nothing. -/
theorem insertActive_refused {isActive : NodeId → Bool} (now : Nat)
    (h : ¬ (isActive peer ∧ peer ≠ t.selfId)) : t.insertActive peer isActive now = (t, false) := by
  unfold insertActive insertEvicting
  by_cases hactive : isActive peer
  · have hself : peer = t.selfId := by
      by_contra hne
      exact h ⟨hactive, hne⟩
    simp only [hactive, Bool.not_true, Bool.false_eq_true, if_false, if_pos hself]
  · simp only [hactive, Bool.not_false, if_true]

theorem remove_sublist (t : RoutingTable) (peer : NodeId) :
    (t.remove peer).1.selfId = t.selfId ∧
      ∀ i, ((t.remove peer).1.buckets i).Sublist (t.buckets i) := by
  unfold remove
  split
  · exact ⟨rfl, fun _ => List.Sublist.refl _⟩
  · split
    · exact ⟨rfl, fun _ => List.Sublist.refl _⟩
    · rename_i idx _
      dsimp only
      split
      · refine ⟨rfl, ?_⟩
        intro i
        dsimp only
        by_cases hi : i = idx
        · subst hi
          rw [Function.update_self]
          exact List.eraseIdx_sublist _ _
        · rw [Function.update_of_ne hi]
      · exact ⟨rfl, fun _ => List.Sublist.refl _⟩

theorem markUnreachable_buckets (t : RoutingTable) (peer : NodeId) (now : Nat) :
    (t.markUnreachable peer now).1.selfId = t.selfId ∧
      (t.markUnreachable peer now).1.buckets = t.buckets := by
  unfold markUnreachable
  split
  · exact ⟨rfl, rfl⟩
  · exact ⟨rfl, rfl⟩

/-- Every operation keeps placement, size and recency. -/
theorem Ordered.apply {ops : List TableOp} (h : Ordered selfId ops t) (op : TableOp) :
    Ordered selfId (op :: ops) (t.apply op) := by
  cases op with
  | insertActive peer isActive now =>
    by_cases hgo : isActive peer ∧ peer ≠ t.selfId
    · have hself : peer ≠ selfId := by
        rw [← h.self]
        exact hgo.2
      unfold RoutingTable.apply insertActive
      simp only [hgo.1, Bool.not_true, Bool.false_eq_true, if_false]
      exact h.inserted now _ hgo.1 hself
    · have hsame : t.apply (.insertActive peer isActive now) = t :=
        congrArg Prod.fst (insertActive_refused now hgo)
      rw [hsame]
      refine h.thinned ?_ rfl fun _ => List.Sublist.refl _
      rintro p ⟨rfl, hactive, hself⟩
      rw [h.self] at hgo
      exact hgo ⟨hactive, hself⟩
  | remove peer =>
    rcases remove_sublist t peer with ⟨hself, hsub⟩
    exact h.thinned (fun _ => id) hself hsub
  | markUnreachable peer now =>
    rcases markUnreachable_buckets t peer now with ⟨hself, hbuckets⟩
    refine h.thinned (fun _ => id) hself fun i => ?_
    unfold RoutingTable.apply
    rw [hbuckets]
  | coolingPeers now => exact h.thinned (fun _ => id) rfl fun _ => List.Sublist.refl _

/-- Every history keeps placement, size and recency. -/
theorem run_ordered (selfId : NodeId) (ops : List TableOp) :
    Ordered selfId ops (run selfId ops) := by
  induction ops with
  | nil =>
    refine ⟨rfl, ?_, ?_, fun _ => Nat.zero_le _, fun _ => List.Pairwise.nil⟩
    · intro i p hp
      cases hp
    · intro i p hp
      cases hp
  | cons op earlier ih => exact ih.apply op

/-! ## Victims -/

/-- The peer is in a bucket of the table. -/
def Stored (t : RoutingTable) (p : NodeId) : Prop := ∃ i, p ∈ t.buckets i

/-- The peer is unbonded or cooling. -/
def Expendable (t : RoutingTable) (isActive : NodeId → Bool) (now : Nat) (p : NodeId) : Prop :=
  ¬ isActive p ∨ t.isCooling p now

/-- The victim of a bucket: its least recently seen expendable peer, or the least recently seen
of all where none is expendable. -/
structure Victim (t : RoutingTable) (isActive : NodeId → Bool) (now : Nat) (seen : NodeId → Nat)
    (bucket : List NodeId) (v : NodeId) : Prop where
  mem : v ∈ bucket
  expendable : (∃ q ∈ bucket, t.Expendable isActive now q) →
    t.Expendable isActive now v ∧
      ∀ q ∈ bucket, t.Expendable isActive now q → seen v ≤ seen q
  oldest : (¬ ∃ q ∈ bucket, t.Expendable isActive now q) → ∀ q ∈ bucket, seen v ≤ seen q

/-- In an ordered list an earlier position is seen no later. -/
theorem seen_le {seen : NodeId → Nat} {bucket : List NodeId}
    (h : bucket.Pairwise fun p q => seen p < seen q) {i j : Nat} (hij : i ≤ j)
    (hj : j < bucket.length) : seen bucket[i] ≤ seen bucket[j] := by
  rcases Nat.lt_or_eq_of_le hij with hlt | rfl
  · exact le_of_lt (List.pairwise_iff_getElem.mp h i j _ hj hlt)
  · exact le_rfl

/-- The position the insert computes is that of the victim. -/
theorem victim_spec {isActive : NodeId → Bool} {now : Nat} {seen : NodeId → Nat}
    {bucket : List NodeId} (h : bucket.Pairwise fun p q => seen p < seen q)
    (hne : 0 < bucket.length) :
    ∃ hv : (bucket.findIdx? fun p => !isActive p || t.isCooling p now).getD 0 < bucket.length,
      t.Victim isActive now seen bucket
        bucket[(bucket.findIdx? fun p => !isActive p || t.isCooling p now).getD 0] := by
  have hbad : ∀ p, (!isActive p || t.isCooling p now) = true ↔ t.Expendable isActive now p := by
    intro p
    unfold Expendable
    rw [Bool.or_eq_true, Bool.not_eq_true', Bool.not_eq_true]
  cases hfind : bucket.findIdx? fun p => !isActive p || t.isCooling p now with
  | none =>
    refine ⟨hne, List.getElem_mem hne, ?_, ?_⟩
    · rintro ⟨q, hq, hexpendable⟩
      have hnot := List.findIdx?_eq_none_iff.mp hfind q hq
      rw [(hbad q).mpr hexpendable] at hnot
      cases hnot
    · intro _ q hq
      rcases List.mem_iff_getElem.mp hq with ⟨j, hj, rfl⟩
      exact seen_le h (Nat.zero_le j) hj
  | some i =>
    rcases List.findIdx?_eq_some_iff_getElem.mp hfind with ⟨hi, hexpendable, hbefore⟩
    refine ⟨hi, List.getElem_mem hi, ?_, ?_⟩
    · intro _
      refine ⟨(hbad _).mp hexpendable, ?_⟩
      intro q hq hq'
      rcases List.mem_iff_getElem.mp hq with ⟨j, hj, rfl⟩
      refine seen_le h ?_ hj
      by_contra hlt
      exact hbefore j (Nat.lt_of_not_le hlt) ((hbad _).mpr hq')
    · intro hnone
      exact absurd ⟨_, List.getElem_mem hi, (hbad _).mp hexpendable⟩ hnone

/-! ## One insert -/

/-- What an insert does to the peers of the table. -/
structure InsertSpec (ops : List TableOp) (t : RoutingTable) (peer : NodeId)
    (isActive : NodeId → Bool) (now : Nat) (t' : RoutingTable) (fresh : Bool) : Prop where
  inserted : fresh = true ↔ isActive peer ∧ peer ≠ t.selfId ∧ ¬ t.Stored peer
  stored : isActive peer → peer ≠ t.selfId → t'.Stored peer
  others : ∀ p, t'.Stored p → t.Stored p ∨ p = peer
  evicted : ∀ v, t.Stored v → ¬ t'.Stored v →
    fresh = true ∧ ∃ i, t.slot peer = some i ∧ kBucketSize ≤ (t.buckets i).length ∧
      t.Victim isActive now (lastSeen t.selfId ops) (t.buckets i) v
  single : ∀ v w, t.Stored v → ¬ t'.Stored v → t.Stored w → ¬ t'.Stored w → v = w

theorem stored_update {idx : Fin keyspaceBits} {bucket : List NodeId} {p : NodeId}
    {cooling : NodeId → Option Nat} :
    Stored { t with cooling := cooling, buckets := Function.update t.buckets idx bucket } p ↔
      p ∈ bucket ∨ ∃ i, i ≠ idx ∧ p ∈ t.buckets i := by
  constructor
  · rintro ⟨i, hp⟩
    dsimp only at hp
    by_cases hi : i = idx
    · subst hi
      rw [Function.update_self] at hp
      exact .inl hp
    · rw [Function.update_of_ne hi] at hp
      exact .inr ⟨i, hi, hp⟩
  · rintro (hp | ⟨i, hi, hp⟩)
    · refine ⟨idx, ?_⟩
      dsimp only
      rw [Function.update_self]
      exact hp
    · refine ⟨i, ?_⟩
      dsimp only
      rw [Function.update_of_ne hi]
      exact hp

theorem insertActive_spec {ops : List TableOp} (h : Ordered selfId ops t) (peer : NodeId)
    (isActive : NodeId → Bool) (now : Nat) :
    InsertSpec ops t peer isActive now (t.insertActive peer isActive now).1
      (t.insertActive peer isActive now).2 := by
  by_cases hgo : isActive peer ∧ peer ≠ t.selfId
  · rcases hgo with ⟨hactive, hself⟩
    unfold insertActive
    simp only [hactive, Bool.not_true, Bool.false_eq_true, if_false]
    rcases insertEvicting_spec hself (((t.bucketOf peer).bind fun bucket =>
      bucket.findIdx? fun p => !isActive p || t.isCooling p now).getD 0) with
      ⟨idx, rest, hslot, htable, hcases⟩
    have hbucket : t.bucketOf peer = some (t.buckets idx) := by
      unfold bucketOf
      rw [if_neg hself, hslot]
      rfl
    have hplace : t.Stored peer ↔ peer ∈ t.buckets idx := by
      constructor
      · rintro ⟨i, hi⟩
        have hplaced := h.placed hi
        rw [hslot, Option.some.injEq] at hplaced
        rwa [hplaced]
      · intro hmem
        exact ⟨idx, hmem⟩
    have hsub : rest.Sublist (t.buckets idx) := by
      rcases hcases with ⟨-, rfl, -⟩ | ⟨-, -, rfl, -⟩ | ⟨-, -, rfl, -⟩
      · exact List.erase_sublist
      · exact List.Sublist.refl _
      · exact List.eraseIdx_sublist _ _
    -- a peer that is gone was the victim of a full bucket
    have hgone : ∀ v, t.Stored v →
        ¬ Stored { t with
          cooling := Function.update t.cooling peer none
          buckets := Function.update t.buckets idx (rest ++ [peer]) } v →
        ((t.insertEvicting peer (((t.bucketOf peer).bind fun bucket =>
            bucket.findIdx? fun p => !isActive p || t.isCooling p now).getD 0)).2 = true ∧
          kBucketSize ≤ (t.buckets idx).length) ∧
        ∃ hv : ((t.buckets idx).findIdx? fun p => !isActive p || t.isCooling p now).getD 0 <
            (t.buckets idx).length,
          v = (t.buckets idx)[((t.buckets idx).findIdx? fun p =>
            !isActive p || t.isCooling p now).getD 0] ∧
          t.Victim isActive now (lastSeen selfId ops) (t.buckets idx) v := by
      intro v hstored hlost
      rw [stored_update, not_or, List.mem_append, not_or, List.mem_singleton] at hlost
      rcases hlost with ⟨⟨hrest, hne⟩, helse⟩
      have hin : v ∈ t.buckets idx := by
        rcases hstored with ⟨i, hi⟩
        by_cases hidx : i = idx
        · rwa [hidx] at hi
        · exact absurd ⟨i, hidx, hi⟩ helse
      rcases hcases with ⟨-, rfl, -⟩ | ⟨-, -, rfl, -⟩ | ⟨-, hfull, rfl, hfresh⟩
      · exact absurd (List.mem_erase_of_ne hne |>.mpr hin) hrest
      · exact absurd hin hrest
      · refine ⟨⟨hfresh, hfull⟩, ?_⟩
        have hpos : 0 < (t.buckets idx).length := List.length_pos_of_mem hin
        rcases victim_spec (t := t) (h.recency idx) hpos with ⟨hv, hvictim⟩
        rw [hbucket, Option.bind_some, if_pos hv, mem_eraseIdx (h.nodup idx) hv, not_and,
          not_not] at hrest
        have hv' := hrest hin
        rw [hv']
        exact ⟨hv, rfl, hvictim⟩
    rw [htable]
    refine ⟨?_, ?_, ?_, ?_, ?_⟩
    · rw [hplace]
      rcases hcases with ⟨hmem, -, hfresh⟩ | ⟨hmem, -, -, hfresh⟩ | ⟨hmem, -, -, hfresh⟩
      · rw [hfresh]
        exact ⟨fun hfalse => absurd hfalse Bool.false_ne_true, fun hnot => absurd hmem hnot.2.2⟩
      · exact ⟨fun _ => ⟨hactive, hself, hmem⟩, fun _ => hfresh⟩
      · exact ⟨fun _ => ⟨hactive, hself, hmem⟩, fun _ => hfresh⟩
    · intro _ _
      exact stored_update.mpr (.inl (List.mem_append.mpr (.inr (List.mem_singleton.mpr rfl))))
    · intro p hp
      rcases stored_update.mp hp with hp | ⟨i, -, hp⟩
      · rcases List.mem_append.mp hp with hp | hp
        · exact .inl ⟨idx, hsub.subset hp⟩
        · exact .inr (List.mem_singleton.mp hp)
      · exact .inl ⟨i, hp⟩
    · intro v hstored hlost
      rcases hgone v hstored hlost with ⟨⟨hfresh, hfull⟩, -, -, hvictim⟩
      rw [h.self]
      exact ⟨hfresh, idx, hslot, hfull, hvictim⟩
    · intro v w hv hlost hw hlost'
      rcases hgone v hv hlost with ⟨-, hlt, heq, -⟩
      rcases hgone w hw hlost' with ⟨-, hlt', heq', -⟩
      rw [heq, heq']
  · rw [insertActive_refused now hgo]
    refine ⟨?_, ?_, fun p hp => .inl hp, ?_, ?_⟩
    · constructor
      · intro hfalse
        exact absurd hfalse Bool.false_ne_true
      · rintro ⟨hactive, hself, -⟩
        exact absurd ⟨hactive, hself⟩ hgo
    · intro hactive hself
      exact absurd ⟨hactive, hself⟩ hgo
    · intro v hv hlost
      exact absurd hv hlost
    · intro v w hv hlost
      exact absurd hv hlost

/-! ## Queries -/

/-- The distance of a peer from a target. -/
def distance (target : Point) (p : NodeId) : Point := xorDistanceBytes p.asBytes target

theorem distance_injective (target : Point) : Function.Injective (distance target) := by
  rintro ⟨p⟩ ⟨q⟩ h
  rw [NodeId.mk.injEq]
  exact xorDistanceBytes_left_injective h

theorem mem_iterPeers {p : NodeId} : p ∈ t.iterPeers ↔ t.Stored p := by
  unfold iterPeers Stored
  rw [List.mem_flatMap]
  constructor
  · rintro ⟨i, -, hp⟩
    exact ⟨i, hp⟩
  · rintro ⟨i, hp⟩
    exact ⟨i, List.mem_finRange i, hp⟩

/-- No peer is stored twice. -/
theorem Ordered.nodup_iterPeers {ops : List TableOp} (h : Ordered selfId ops t) :
    t.iterPeers.Nodup := by
  unfold iterPeers
  rw [List.nodup_flatMap]
  refine ⟨fun i _ => h.nodup i, ?_⟩
  refine (List.nodup_finRange keyspaceBits).imp ?_
  intro i j hne p hi hj
  have hslot := h.placed hi
  rw [h.placed hj, Option.some.injEq] at hslot
  exact hne hslot.symm

/-- The sort puts distinct peers in strictly increasing distance. -/
theorem sorted_by_distance {peers : List NodeId} (hnodup : peers.Nodup) (target : Point) :
    ∃ all : List NodeId, all.Perm peers ∧
      all.Pairwise (fun p q => distance target p < distance target q) ∧
      ∀ n, (((peers.map fun p => (p, xorDistanceBytes p.asBytes target)).mergeSort
        fun a b => decide (a.2 ≤ b.2)).take n).map Prod.fst = all.take n := by
  let scored := peers.map fun p => (p, xorDistanceBytes p.asBytes target)
  let sorted := scored.mergeSort fun a b => decide (a.2 ≤ b.2)
  have hperm : sorted.Perm scored := List.mergeSort_perm _ _
  have hsorted : sorted.Pairwise fun a b => decide (a.2 ≤ b.2) = true := by
    apply List.pairwise_mergeSort
    · intro a b c hab hbc
      exact decide_eq_true (le_trans (of_decide_eq_true hab) (of_decide_eq_true hbc))
    · intro a b
      rw [Bool.or_eq_true, decide_eq_true_iff, decide_eq_true_iff]
      exact le_total a.2 b.2
  have hfst : (sorted.map Prod.fst).Perm peers := by
    have hscored : scored.map Prod.fst = peers := by
      rw [List.map_map]
      exact List.map_id _
    rw [← hscored]
    exact hperm.map Prod.fst
  have hdistance : ∀ a ∈ sorted, a.2 = distance target a.1 := by
    intro a ha
    rcases List.mem_map.mp (hperm.mem_iff.mp ha) with ⟨p, -, rfl⟩
    rfl
  have hdistinct : sorted.Pairwise fun a b => a.1 ≠ b.1 :=
    List.pairwise_map.mp (hfst.nodup_iff.mpr hnodup)
  refine ⟨sorted.map Prod.fst, hfst, ?_, fun n => List.map_take⟩
  rw [List.pairwise_map]
  refine (hsorted.and hdistinct).imp_of_mem ?_
  rintro a b ha hb ⟨hle, hne⟩
  rw [← hdistance a ha, ← hdistance b hb]
  refine lt_of_le_of_ne (of_decide_eq_true hle) ?_
  intro heq
  rw [hdistance a ha, hdistance b hb] at heq
  exact hne (distance_injective target heq)

/-- The answer to a query is the `n` nearest of the stored peers it keeps, or all of them if
there are fewer, nearest first. -/
structure Nearest (t : RoutingTable) (target : Point) (n : Nat) (keep : NodeId → Bool)
    (answer : List NodeId) : Prop where
  kept : ∀ p ∈ answer, t.Stored p ∧ keep p
  sorted : answer.Pairwise fun p q => distance target p < distance target q
  length : answer.length = min n (t.iterPeers.filter keep).length
  nearest : ∀ p ∈ answer, ∀ q, t.Stored q → keep q → q ∉ answer →
    distance target p < distance target q

theorem closestWhere_spec {ops : List TableOp} (h : Ordered selfId ops t) (target : Point)
    (n : Nat) (keep : NodeId → Bool) :
    Nearest t target n keep (t.closestWhere target n keep) := by
  rcases sorted_by_distance (h.nodup_iterPeers.filter keep) target with
    ⟨all, hperm, hsorted, htake⟩
  have hanswer : t.closestWhere target n keep = all.take n := htake n
  have hmem : ∀ p, p ∈ all ↔ t.Stored p ∧ keep p := by
    intro p
    rw [hperm.mem_iff, List.mem_filter, mem_iterPeers]
  rw [hanswer]
  refine ⟨?_, ?_, ?_, ?_⟩
  · intro p hp
    exact (hmem p).mp (List.mem_of_mem_take hp)
  · exact hsorted.sublist (List.take_sublist n all)
  · rw [List.length_take, hperm.length_eq]
  · intro p hp q hq hkeep hout
    have hsplit := hsorted
    rw [← List.take_append_drop n all, List.pairwise_append] at hsplit
    have hall : q ∈ all.take n ++ all.drop n := by
      rw [List.take_append_drop]
      exact (hmem q).mpr ⟨hq, hkeep⟩
    rcases List.mem_append.mp hall with hin | hdrop
    · exact absurd hin hout
    · exact hsplit.2.2 p hp q hdrop

/-! ## The table over its histories -/

/-- After any history of inserts, removals, marks and sweeps, with any staker set and instant at
each call: a stored peer sits only in the bucket of its distance; none is stored twice, and the
own id never; no bucket is over its size, and each is in the order of the last successful insert
or refresh; an insert evicts at most one peer, the victim of a full bucket, and a refresh none;
and a query returns the nearest peers it keeps, nearest first. -/
theorem routing_table_sound (selfId : NodeId) (ops : List TableOp) :
    (∀ i p, p ∈ (run selfId ops).buckets i →
      bucketIndex (xorDistance selfId p) = some i.val ∧ p ≠ selfId) ∧
    (run selfId ops).iterPeers.Nodup ∧
    (∀ i, ((run selfId ops).buckets i).length ≤ kBucketSize ∧
      ((run selfId ops).buckets i).Pairwise
        fun p q => lastSeen selfId ops p < lastSeen selfId ops q) ∧
    (∀ peer isActive now, InsertSpec ops (run selfId ops) peer isActive now
      ((run selfId ops).insertActive peer isActive now).1
      ((run selfId ops).insertActive peer isActive now).2) ∧
    ∀ target n keep, Nearest (run selfId ops) target n keep
      ((run selfId ops).closestWhere target n keep) := by
  have hordered := run_ordered selfId ops
  refine ⟨?_, hordered.nodup_iterPeers, fun i => ⟨hordered.size i, hordered.recency i⟩,
    fun peer isActive now => insertActive_spec hordered peer isActive now,
    fun target n keep => closestWhere_spec hordered target n keep⟩
  intro i p hp
  refine ⟨?_, hordered.other hp⟩
  have hslot := hordered.placed hp
  unfold slot at hslot
  rw [hordered.self] at hslot
  split at hslot
  · cases hslot
  · rename_i idx hidx
    split at hslot
    · cases hslot
      exact hidx
    · cases hslot

end RoutingTable

end Decdn.Dht
