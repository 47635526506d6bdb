import Decdn.Foundations.Dealing
import Decdn.Node.PlanLane

/-!
# The chunks of a redemption sweep

How a sweep packs the lanes it planned into transactions
(`reconcile_onchain_watermarks`, `chunk_redemptions` and `group_by_pool` of
`payment_settlement.rs`).  The lanes are sorted by falling value and dealt in turn
to the fewest chunks that keep to the cap; a chunk below the floor is dropped, and
its lanes wait for a later sweep.

Main results:

- Theorem `groupByPool_eq`: one batch for each pool, with what its lanes submit.
- Theorem `chunk_redemptions_partition`: the chunks and the deferred lanes hold
  every planned lane once.
-/

namespace Decdn.Node

open PaymentPool (PoolBatch)
open Incentive
open Dealing

variable {plans lanes chunk : List PlannedLane} {floor maxVouchers : Nat}

/-! ## Planned lanes -/

/-- What planning leaves of a lane: no more unredeemed than owed, and owed no more than the words
of its claim can say. -/
structure Payable (p : PlannedLane) : Prop where
  unredeemed_le : p.unredeemed ≤ p.owed
  owed_le : p.owed ≤ 256 * u64Max

/-- The planner plans such lanes. -/
theorem planLane_payable {s : LaneState} (hindex : s.chain.verifiedIndex < 256)
    {paid : LaneKey → Nat} {selfAddress : Address} {status : RegistrationStatus}
    {planned : PlannedLane} (h : planLane s paid selfAddress status = .ok (some planned)) :
    Payable planned := by
  rcases planLane_voucher h with ⟨claim, hclaim, hvoucher⟩
  have hchain : claim.chain = s.chain := by
    unfold LaneState.liveClaim at hclaim
    rcases Option.map_eq_some_iff.mp hclaim with ⟨signature, -, rfl⟩
    rfl
  rcases claimVoucher_eq_ok (hchain ▸ hindex) hvoucher with ⟨hamount, -, -, -, hprice, -, -, -⟩
  have hamountLe := toNat_le_u64Max planned.voucher.cumulative
  have hvalue : claim.value ≤ 256 * u64Max := by
    have hmul : claim.chain.chunkPrice * claim.chain.verifiedIndex ≤ u64Max * 255 :=
      Nat.mul_le_mul hprice (by rw [hchain]; omega)
    have haccrued : claim.chain.accrued ≤ u64Max * 255 := (Nat.mod_le _ _).trans hmul
    have hadd : claim.value ≤ claim.amount + claim.chain.accrued := Nat.mod_le _ _
    omega
  have hplanned : planned.owed = claim.value ∧
      planned.unredeemed = claim.value - paid s.key := by
    unfold planLane at h
    rw [hclaim] at h
    split at h
    · cases h
    dsimp only at h
    split at h
    · cases h
    split at h
    · cases h
    split at h
    · simp only [bind_eq_ok, pure_eq_ok, Option.some.injEq] at h
      rcases h with ⟨voucher, -, rfl⟩
      exact ⟨rfl, rfl⟩
    · split at h
      · cases h
      · simp only [bind_eq_ok, pure_eq_ok, Option.some.injEq] at h
        rcases h with ⟨-, -, voucher, -, rfl⟩
        exact ⟨rfl, rfl⟩
  rcases hplanned with ⟨howed, hunredeemed⟩
  exact ⟨by rw [howed, hunredeemed]; exact Nat.sub_le _ _, by rw [howed]; exact hvalue⟩

/-- `reconcile_plans`: drop what the chain shows settled, and count the rest against its fresh
watermark. -/
def reconcilePlans : List PlannedLane → List Nat → List PlannedLane × Nat
  | [], _ => ([], 0)
  | plan :: rest, [] =>
    let (kept, skipped) := reconcilePlans rest []
    (plan :: kept, skipped)
  | plan :: rest, onchain :: more =>
    let (kept, skipped) := reconcilePlans rest more
    if plan.owed ≤ onchain then (kept, skipped + 1)
    else ({ plan with unredeemed := plan.owed - onchain } :: kept, skipped)

/-- Reconciling keeps them so. -/
theorem reconcilePlans_payable (h : ∀ p ∈ plans, Payable p) (onchainPaid : List Nat) :
    ∀ p ∈ (reconcilePlans plans onchainPaid).1, Payable p := by
  induction plans generalizing onchainPaid with
  | nil => exact nofun
  | cons plan rest ih =>
    have hplan := h plan List.mem_cons_self
    have hrest := fun onchainPaid => ih (fun p hp => h p (List.mem_cons_of_mem _ hp)) onchainPaid
    intro p hp
    cases onchainPaid with
    | nil =>
      rcases List.mem_cons.mp hp with rfl | hp
      · exact hplan
      · exact hrest [] p hp
    | cons onchain more =>
      unfold reconcilePlans at hp
      dsimp only at hp
      split at hp
      · exact hrest more p hp
      · rcases List.mem_cons.mp hp with rfl | hp
        · exact ⟨Nat.sub_le _ _, hplan.owed_le⟩
        · exact hrest more p hp

/-! ## Chunks -/

/-- The value a chunk is filtered by. -/
def chunkValue (chunk : List PlannedLane) : Nat :=
  chunk.foldl (fun acc lane => U256.wrappingAdd acc lane.unredeemed) 0

/-- The buckets of `chunk_redemptions`: the lanes by falling value, dealt in turn. -/
def redemptionBuckets (plans : List PlannedLane) (maxVouchers : Nat) : List (List PlannedLane) :=
  if plans.isEmpty then []
  else
    let cap := max maxVouchers 1
    let k := (plans.length + cap - 1) / cap
    deal k (plans.mergeSort fun a b => decide (b.unredeemed ≤ a.unredeemed))

/-- `chunk_redemptions`. -/
def chunkRedemptions (plans : List PlannedLane) (floor maxVouchers : Nat) :
    List (List PlannedLane) :=
  (redemptionBuckets plans maxVouchers).filter fun bucket => decide (floor ≤ chunkValue bucket)

/-- The lanes it drops, which a later sweep plans again. -/
def deferredLanes (plans : List PlannedLane) (floor maxVouchers : Nat) : List PlannedLane :=
  ((redemptionBuckets plans maxVouchers).filter
    fun bucket => !decide (floor ≤ chunkValue bucket)).flatten

/-- The sum does not wrap. -/
theorem chunkValue_eq (h : ∀ p ∈ chunk, Payable p) (hlength : chunk.length < 2 ^ 64) :
    chunkValue chunk = (chunk.map PlannedLane.unredeemed).sum := by
  have hsum : ∀ (lanes : List PlannedLane) (acc bound : Nat), (∀ p ∈ lanes, Payable p) →
      acc + lanes.length * (256 * u64Max) ≤ bound → bound < U256.modulus →
      lanes.foldl (fun acc lane => U256.wrappingAdd acc lane.unredeemed) acc =
        acc + (lanes.map PlannedLane.unredeemed).sum := by
    intro lanes
    induction lanes with
    | nil => exact fun acc _ _ _ _ => rfl
    | cons lane rest ih =>
      intro acc bound hpayable hbound hsmall
      have hlane := hpayable lane List.mem_cons_self
      have hvalue := hlane.unredeemed_le.trans hlane.owed_le
      rw [List.length_cons, Nat.succ_mul] at hbound
      rw [List.foldl_cons, List.map_cons, List.sum_cons]
      rw [U256.wrappingAdd_eq (by omega)]
      rw [ih _ bound (fun p hp => hpayable p (List.mem_cons_of_mem _ hp)) (by omega) hsmall]
      exact Nat.add_assoc _ _ _
  have hlanes : chunk.length * (256 * u64Max) ≤ 2 ^ 64 * (256 * u64Max) :=
    Nat.mul_le_mul_right _ (le_of_lt hlength)
  have hsmall : 2 ^ 64 * (256 * u64Max) < U256.modulus := by
    unfold u64Max U256.modulus
    omega
  have hvalue := hsum chunk 0 (2 ^ 64 * (256 * u64Max)) h (by omega) hsmall
  rwa [Nat.zero_add] at hvalue

/-- The buckets hold every lane once. -/
theorem redemptionBuckets_perm : (redemptionBuckets plans maxVouchers).flatten.Perm plans := by
  unfold redemptionBuckets
  split
  · rename_i hempty
    rw [List.isEmpty_iff.mp hempty]
    rfl
  · rename_i hsome
    have hlength : 0 < plans.length :=
      List.length_pos_iff.mpr fun hnil => hsome (List.isEmpty_iff.mpr hnil)
    have hcap : 0 < max maxVouchers 1 := lt_of_lt_of_le Nat.one_pos (Nat.le_max_right _ _)
    have hk : 0 < (plans.length + max maxVouchers 1 - 1) / max maxVouchers 1 :=
      Nat.div_pos (by omega) hcap
    exact (flatten_deal_perm hk _).trans (List.mergeSort_perm _ _)

/-- No bucket holds more lanes than the cap. -/
theorem length_redemptionBuckets {bucket : List PlannedLane}
    (h : bucket ∈ redemptionBuckets plans maxVouchers) : bucket.length ≤ max maxVouchers 1 := by
  unfold redemptionBuckets at h
  split at h
  · cases h
  · have hcap : 0 < max maxVouchers 1 := lt_of_lt_of_le Nat.one_pos (Nat.le_max_right _ _)
    generalize max maxVouchers 1 = cap at h hcap ⊢
    refine length_le_of_mem_deal ?_ h
    rw [List.length_mergeSort]
    have hround := Nat.div_add_mod (plans.length + cap - 1) cap
    have hmod := Nat.mod_lt (plans.length + cap - 1) hcap
    rw [Nat.mul_comm cap] at hround
    omega

/-- Taking a list of lists apart by a test keeps what it holds. -/
theorem filter_flatten_perm {α : Type} (p : List α → Bool) (buckets : List (List α)) :
    ((buckets.filter p).flatten ++ (buckets.filter fun b => !p b).flatten).Perm
      buckets.flatten := by
  rw [← List.flatten_append]
  exact (List.filter_append_perm p buckets).flatten

/-! ## Batches -/

/-- `PoolBatch` of a pool: what its lanes submit. -/
def batchOf (lanes : List PlannedLane) (pool : Bytes32) : PoolBatch where
  poolId := pool
  capabilities := (lanes.filter fun lane => decide (lane.poolId = pool)).filterMap (·.register)
  vouchers := (lanes.filter fun lane => decide (lane.poolId = pool)).map (·.voucher)

/-- One lane of `group_by_pool`: it rides in its pool's batch, or opens one. -/
def addToBatch (lane : PlannedLane) : List PoolBatch → List PoolBatch
  | [] => [⟨lane.poolId, lane.register.toList, [lane.voucher]⟩]
  | batch :: rest =>
    if batch.poolId = lane.poolId then
      { batch with
        capabilities := batch.capabilities ++ lane.register.toList
        vouchers := batch.vouchers ++ [lane.voucher] } :: rest
    else batch :: addToBatch lane rest

/-- `group_by_pool`. -/
def groupByPool (lanes : List PlannedLane) : List PoolBatch :=
  lanes.foldl (fun batches lane => addToBatch lane batches) []

/-- A lane of another pool leaves a batch alone. -/
theorem batchOf_concat_other {lane : PlannedLane} {pool : Bytes32} (h : lane.poolId ≠ pool) :
    batchOf (lanes ++ [lane]) pool = batchOf lanes pool := by
  unfold batchOf
  rw [List.filter_append, List.filter_cons_of_neg (by simpa using h), List.filter_nil,
    List.append_nil]

/-- A lane of the pool rides in its batch. -/
theorem batchOf_concat_self {lane : PlannedLane} :
    batchOf (lanes ++ [lane]) lane.poolId =
      ⟨lane.poolId, (batchOf lanes lane.poolId).capabilities ++ lane.register.toList,
        (batchOf lanes lane.poolId).vouchers ++ [lane.voucher]⟩ := by
  unfold batchOf
  rw [List.filter_append, List.filter_cons_of_pos (by simp), List.filter_nil,
    List.filterMap_append, List.map_append]
  cases hregister : lane.register with
  | none => simp [hregister]
  | some reg => simp [hregister]

/-- One lane more, in a list of batches with one for each pool met so far. -/
theorem addToBatch_batchOf {lane : PlannedLane} {order : List Bytes32}
    (hnodup : order.Nodup) (hnew : lane.poolId ∉ order → ∀ l ∈ lanes, l.poolId ≠ lane.poolId) :
    addToBatch lane (order.map (batchOf lanes)) =
      (if lane.poolId ∈ order then order else order ++ [lane.poolId]).map
        (batchOf (lanes ++ [lane])) := by
  induction order with
  | nil =>
    have hnone : lanes.filter (fun l => decide (l.poolId = lane.poolId)) = [] := by
      rw [List.filter_eq_nil_iff]
      intro l hl
      simpa using hnew List.not_mem_nil l hl
    rw [if_neg List.not_mem_nil, List.nil_append, List.map_singleton, batchOf_concat_self]
    unfold batchOf
    rw [hnone]
    rfl
  | cons pool rest ih =>
    rcases List.nodup_cons.mp hnodup with ⟨hout, hrest⟩
    rw [List.map_cons]
    unfold addToBatch
    by_cases hpool : pool = lane.poolId
    · subst hpool
      have hid : (batchOf lanes lane.poolId).poolId = lane.poolId := rfl
      rw [if_pos hid, if_pos List.mem_cons_self, List.map_cons, batchOf_concat_self]
      congr 1
      refine List.map_congr_left fun p hp => (batchOf_concat_other ?_).symm
      rintro rfl
      exact hout hp
    · rw [if_neg (by exact hpool), ih hrest fun hnot => hnew fun hmem =>
        (List.mem_cons.mp hmem).elim (fun heq => hpool heq.symm) hnot]
      have hhead : batchOf (lanes ++ [lane]) pool = batchOf lanes pool :=
        batchOf_concat_other fun heq => hpool heq.symm
      by_cases hmem : lane.poolId ∈ rest
      · rw [if_pos hmem, if_pos (List.mem_cons_of_mem _ hmem), List.map_cons, hhead]
      · rw [if_neg hmem, if_neg, List.cons_append, List.map_cons, hhead]
        rintro (_ | ⟨_, hin⟩)
        · exact hpool rfl
        · exact hmem hin

/-- One batch for each pool, with what its lanes submit. -/
theorem groupByPool_eq (lanes : List PlannedLane) :
    ∃ order : List Bytes32, order.Nodup ∧
      (∀ pool, pool ∈ order ↔ ∃ lane ∈ lanes, lane.poolId = pool) ∧
      groupByPool lanes = order.map (batchOf lanes) := by
  induction lanes using List.reverseRecOn with
  | nil => exact ⟨[], List.nodup_nil, by simp, rfl⟩
  | append_singleton lanes lane ih =>
    rcases ih with ⟨order, hnodup, hpools, hbatches⟩
    have hnew : lane.poolId ∉ order → ∀ l ∈ lanes, l.poolId ≠ lane.poolId :=
      fun hout l hl heq => hout ((hpools _).mpr ⟨l, hl, heq⟩)
    have hstep : groupByPool (lanes ++ [lane]) = addToBatch lane (groupByPool lanes) := by
      unfold groupByPool
      rw [List.foldl_append]
      rfl
    refine ⟨if lane.poolId ∈ order then order else order ++ [lane.poolId], ?_, ?_, ?_⟩
    · split
      · exact hnodup
      · rename_i hout
        rw [← List.concat_eq_append]
        exact hnodup.concat hout
    · intro pool
      have hsplit : (∃ l ∈ lanes ++ [lane], l.poolId = pool) ↔
          pool ∈ order ∨ lane.poolId = pool := by
        rw [hpools pool]
        simp only [List.mem_append, List.mem_singleton, or_and_right, exists_or, exists_eq_left]
      rw [hsplit]
      split
      · rename_i hin
        exact ⟨.inl, fun h => h.elim id (· ▸ hin)⟩
      · rw [List.mem_append, List.mem_singleton, eq_comm (a := pool)]
    · rw [hstep, hbatches, addToBatch_batchOf hnodup hnew]

/-! ## The plan -/

/-- The chunks and the deferred lanes hold every planned lane once; a chunk keeps within the cap
and clears the floor, and its batches submit its lanes by pool; a lane that reaches the floor by
itself is not deferred. -/
theorem chunk_redemptions_partition (hpayable : ∀ p ∈ plans, Payable p)
    (hlength : plans.length < 2 ^ 64) :
    ((chunkRedemptions plans floor maxVouchers).flatten ++
        deferredLanes plans floor maxVouchers).Perm plans ∧
      (∀ chunk ∈ chunkRedemptions plans floor maxVouchers,
        chunk.length ≤ max maxVouchers 1 ∧ floor ≤ (chunk.map PlannedLane.unredeemed).sum ∧
        ∃ order : List Bytes32, order.Nodup ∧
          (∀ pool, pool ∈ order ↔ ∃ lane ∈ chunk, lane.poolId = pool) ∧
          groupByPool chunk = order.map (batchOf chunk)) ∧
      ∀ lane ∈ deferredLanes plans floor maxVouchers, lane.unredeemed < floor := by
  have hvalue : ∀ bucket ∈ redemptionBuckets plans maxVouchers,
      chunkValue bucket = (bucket.map PlannedLane.unredeemed).sum := by
    intro bucket hbucket
    have hsub := List.sublist_flatten_of_mem hbucket
    have hperm := @redemptionBuckets_perm plans maxVouchers
    apply chunkValue_eq
    · exact fun p hp => hpayable p (hperm.mem_iff.mp (hsub.subset hp))
    · exact lt_of_le_of_lt (hsub.length_le.trans (le_of_eq hperm.length_eq)) hlength
  refine ⟨?_, ?_, ?_⟩
  · exact (filter_flatten_perm _ _).trans redemptionBuckets_perm
  · intro chunk hchunk
    rcases List.mem_filter.mp hchunk with ⟨hbucket, hfloor⟩
    rw [decide_eq_true_eq, hvalue chunk hbucket] at hfloor
    exact ⟨length_redemptionBuckets hbucket, hfloor, groupByPool_eq chunk⟩
  · intro lane hlane
    rcases List.mem_flatten.mp hlane with ⟨bucket, hbucket, hmem⟩
    rcases List.mem_filter.mp hbucket with ⟨hbucket, hbelow⟩
    rw [Bool.not_eq_true', decide_eq_false_iff_not, hvalue bucket hbucket] at hbelow
    have hle := List.le_sum_of_mem (List.mem_map_of_mem (f := PlannedLane.unredeemed) hmem)
    omega

/-- A lane of one of two signers in a pool. -/
def samplePlanned (poolId : Bytes32) (signer : Address) (owed : UInt64) : PlannedLane where
  poolId := poolId
  key := ⟨poolId, signer, 3⟩
  owed := owed.toNat
  unredeemed := owed.toNat
  voucher := ⟨signer, owed, 0, 0, 0, 0, 0, 0⟩
  register := none

/-- Four lanes of two pools. -/
def samplePlans : List PlannedLane :=
  [samplePlanned 7 1 100, samplePlanned 8 1 70, samplePlanned 8 2 30, samplePlanned 7 2 5]

theorem redemptionBuckets_samplePlans :
    redemptionBuckets samplePlans 3 =
      [[samplePlanned 7 1 100, samplePlanned 8 2 30],
        [samplePlanned 8 1 70, samplePlanned 7 2 5]] := by
  have hsorted : (samplePlans.mergeSort fun a b => decide (b.unredeemed ≤ a.unredeemed)) =
      samplePlans := List.mergeSort_of_pairwise (by decide)
  unfold redemptionBuckets
  rw [hsorted]
  decide

/-- The first chunk takes lanes of both pools and is submitted in two batches; the second is below
the floor and waits. -/
theorem chunk_redemptions_partition_sample :
    chunkRedemptions samplePlans 120 3 = [[samplePlanned 7 1 100, samplePlanned 8 2 30]] ∧
      deferredLanes samplePlans 120 3 = [samplePlanned 8 1 70, samplePlanned 7 2 5] ∧
      ((chunkRedemptions samplePlans 120 3).flatten ++ deferredLanes samplePlans 120 3).Perm
        samplePlans ∧
      ∃ order : List Bytes32, order.Nodup ∧ (∀ pool, pool ∈ order ↔ pool = 7 ∨ pool = 8) ∧
        groupByPool [samplePlanned 7 1 100, samplePlanned 8 2 30] =
          order.map (batchOf [samplePlanned 7 1 100, samplePlanned 8 2 30]) := by
  have hpayable : ∀ p ∈ samplePlans, Payable p := by
    intro p hp
    simp only [samplePlans, List.mem_cons, List.not_mem_nil, or_false] at hp
    rcases hp with rfl | rfl | rfl | rfl <;> exact ⟨Nat.le_refl _, by decide⟩
  have hchunks : chunkRedemptions samplePlans 120 3 =
      [[samplePlanned 7 1 100, samplePlanned 8 2 30]] := by
    unfold chunkRedemptions
    rw [redemptionBuckets_samplePlans]
    decide
  have hdeferred : deferredLanes samplePlans 120 3 =
      [samplePlanned 8 1 70, samplePlanned 7 2 5] := by
    unfold deferredLanes
    rw [redemptionBuckets_samplePlans]
    decide
  rcases @chunk_redemptions_partition samplePlans 120 3 hpayable (by decide) with
    ⟨hperm, hfits, -⟩
  refine ⟨hchunks, hdeferred, hperm, ?_⟩
  rw [hchunks] at hfits
  rcases (hfits _ List.mem_cons_self).2.2 with ⟨order, hnodup, hmem, hbatches⟩
  refine ⟨order, hnodup, fun pool => (hmem pool).trans ?_, hbatches⟩
  simp [samplePlanned, eq_comm]

/-- A cap of no lanes is taken for a cap of one: the sample lane is still submitted. -/
theorem zero_cap_chunk : ∃ planned,
    planLane sampleRevealed (fun _ => 0) 3 .registered = .ok (some planned) ∧
      ∃ chunk ∈ chunkRedemptions [planned] 0 0, ¬chunk.length ≤ 0 := by
  have hplan : ∃ planned,
      planLane sampleRevealed (fun _ => 0) 3 .registered = .ok (some planned) := ⟨_, rfl⟩
  rcases hplan with ⟨planned, hplan⟩
  have hsorted : ([planned].mergeSort fun a b => decide (b.unredeemed ≤ a.unredeemed)) =
      [planned] := by
    rw [List.mergeSort_singleton]
  have hbuckets : redemptionBuckets [planned] 0 = [[planned]] := by
    unfold redemptionBuckets
    rw [hsorted, List.isEmpty_cons, if_neg Bool.false_ne_true, List.length_singleton]
    dsimp only
    rw [Nat.max_eq_right (Nat.zero_le 1), Nat.add_sub_cancel, Nat.div_self Nat.one_pos]
    rfl
  refine ⟨planned, hplan, [planned], ?_, Nat.not_succ_le_zero 0⟩
  unfold chunkRedemptions
  rw [hbuckets]
  exact List.mem_filter.mpr ⟨List.mem_singleton.mpr rfl, decide_eq_true (Nat.zero_le _)⟩

end Decdn.Node
