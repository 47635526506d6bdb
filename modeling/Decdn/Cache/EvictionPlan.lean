import Decdn.Foundations.HashMaps
import Decdn.Foundations.Loops
import Decdn.Foundations.Words
import Mathlib

/-!
# Eviction plans

The eviction policies of `crates/cache/src/policy`: a plan is computed from the candidates,
their sizes and their segments.  A map is its list of entries in the order in which it
iterates; the sorts are stable; the byte counters are 64-bit words, and the sum of the
probation footprint wraps as it does in a release build.

Main results:

- Theorem `lru_planned`, `tinyLfu_planned`: what a plan of each policy lists, and where each
  of its passes stops.
- Theorem `plans_safe_and_minimal`: these, and the two policies agree where nothing is in
  probation and all frequencies are equal.
- Theorem `promotes_beyond_candidates`: a plan that promotes what is no candidate, and a
  footprint whose sum wraps.
-/

namespace Decdn.Cache.Policy

open U64

variable {Hash Instant : Type*} [DecidableEq Hash]

/-! ## The context of a sweep -/

/-- Where an admitted blob is stored. -/
inductive Segment where
  | probation
  | main
deriving DecidableEq

/-- Everything a policy needs to plan one sweep. -/
structure EvictionContext (Hash Instant : Type*) where
  candidates : HashMap Hash Instant
  sizes : HashMap Hash UInt64 := .empty
  segments : HashMap Hash Segment := .empty
  totalBytes : UInt64
  targetBytes : UInt64
  budget : UInt64
  cacheBytes : UInt64

/-- What leaves, in order, and what moves to another segment. -/
structure EvictionPlan (Hash : Type*) where
  evict : List Hash := []
  promote : List (Hash × Segment) := []
deriving DecidableEq

/-- The releases that a sweep has planned, and the bytes that they free. -/
structure Releases (Hash : Type*) where
  evict : List Hash := []
  freed : UInt64 := 0

namespace EvictionContext

variable (ctx : EvictionContext Hash Instant)

/-- The closure `size`. -/
def size (h : Hash) : UInt64 := (ctx.sizes.get h).getD 0

/-- The body of the loops: `freed.saturating_add`, `evict.push`. -/
def release (s : Releases Hash) (h : Hash) : Releases Hash where
  evict := s.evict ++ [h]
  freed := wordAdd s.freed (ctx.size h)

/-- `evict.len() as u64 >= ctx.budget`. -/
def spent (evict : List Hash) : Bool := ctx.budget.toNat ≤ evict.length

/-- `ctx.total_bytes.saturating_sub(freed) <= ctx.target_bytes`. -/
def targetMet (freed : UInt64) : Bool :=
  (wordSub ctx.totalBytes freed).toNat ≤ ctx.targetBytes.toNat

/-- The loop for the global target, over the hashes in their order. -/
def releaseToTarget (s : Releases Hash) (ranked : List Hash) : Releases Hash :=
  forUntil (fun s => ctx.targetMet s.freed || ctx.spent s.evict) ctx.release s ranked

end EvictionContext

/-! ## The policies -/

section
variable [LinearOrder Instant]

namespace LruEviction

variable (ctx : EvictionContext Hash Instant)

/-- The key of the sort: oldest access first, equal recencies largest first. -/
def key (e : Hash × Instant) : Instant ×ₗ Natᵒᵈ :=
  toLex (e.2, OrderDual.toDual (ctx.size e.1).toNat)

def ordered : List (Hash × Instant) :=
  ctx.candidates.entries.insertionSort fun a b => key ctx a ≤ key ctx b

/-- `LruEviction::plan`. -/
def plan : EvictionPlan Hash where
  evict := (ctx.releaseToTarget {} ((ordered ctx).map Prod.fst)).evict
  promote := []

end LruEviction

/-- The policy, over what its estimator answers. -/
structure TinyLfuEviction (Hash : Type*) where
  freq : Hash → Nat
  promotionThreshold : Nat
  probationTargetPct : UInt64

namespace TinyLfuEviction

variable (policy : TinyLfuEviction Hash) (ctx : EvictionContext Hash Instant)

/-- `u64::saturating_mul`. -/
def saturatingMul (a b : UInt64) : UInt64 := UInt64.ofNat (min (a.toNat * b.toNat) u64Max)

/-- A candidate with its frequency, as the two sorts take it. -/
def score (e : Hash × Instant) : Hash × Nat × Instant := (e.1, policy.freq e.1, e.2)

/-- The key of both sorts: least frequent, then oldest, then largest. -/
def key (e : Hash × Nat × Instant) : Nat ×ₗ Instant ×ₗ Natᵒᵈ :=
  toLex (e.2.1, toLex (e.2.2, OrderDual.toDual (ctx.size e.1).toNat))

def sorted (members : List (Hash × Nat × Instant)) : List (Hash × Nat × Instant) :=
  members.insertionSort fun a b => key ctx a ≤ key ctx b

/-- Pass 1: the members of probation that clear the threshold, whether or not they are
candidates. -/
def promote : List (Hash × Segment) :=
  (ctx.segments.entries.filter fun e =>
    e.2 = .probation ∧ policy.promotionThreshold ≤ policy.freq e.1).map
    fun e => (e.1, .main)

/-- The set `promoted`. -/
def promoted : List Hash := (policy.promote ctx).map Prod.fst

def probationLimit : UInt64 := saturatingMul ctx.cacheBytes policy.probationTargetPct / 100

def inProbation (h : Hash) : Bool :=
  ctx.segments.get h = some .probation ∧ h ∉ policy.promoted ctx

def probationMembers : List (Hash × Nat × Instant) :=
  (ctx.candidates.entries.filter fun e => policy.inProbation ctx e.1).map policy.score

def probationFootprint : UInt64 :=
  ((policy.probationMembers ctx).map fun m => ctx.size m.1).sum

/-- The state of pass 2. -/
structure CapPass (Hash : Type*) extends Releases Hash where
  remaining : UInt64

/-- The body of the loop of pass 2. -/
def capStep (s : CapPass Hash) (h : Hash) : CapPass Hash :=
  { ctx.release s.toReleases h with remaining := wordSub s.remaining (ctx.size h) }

/-- The loop of pass 2. -/
def capLoop (s : CapPass Hash) (ranked : List Hash) : CapPass Hash :=
  forUntil (fun s => s.remaining.toNat ≤ (policy.probationLimit ctx).toNat || ctx.spent s.evict)
    (capStep ctx) s ranked

/-- Pass 2: what leaves to bound the footprint of probation.  The source keeps the set
`evicted` beside the list; both hold the same hashes. -/
def capped : Releases Hash :=
  if (policy.probationLimit ctx).toNat < (policy.probationFootprint ctx).toNat then
    (policy.capLoop ctx { remaining := policy.probationFootprint ctx }
      ((sorted ctx (policy.probationMembers ctx)).map Prod.fst)).toReleases
  else {}

/-- The candidates of pass 3. -/
def scored (evicted : List Hash) : List (Hash × Nat × Instant) :=
  sorted ctx ((ctx.candidates.entries.filter fun e =>
    e.1 ∉ evicted ∧ e.1 ∉ policy.promoted ctx).map policy.score)

/-- `TinyLfuEviction::plan`. -/
def plan : EvictionPlan Hash where
  evict :=
    let capped := policy.capped ctx
    (ctx.releaseToTarget capped ((policy.scored ctx capped.evict).map Prod.fst)).evict
  promote := policy.promote ctx

end TinyLfuEviction

end

/-! ## What a plan promises -/

/-- The bytes of these hashes. -/
def EvictionContext.bytes (ctx : EvictionContext Hash Instant) (hashes : List Hash) : Nat :=
  (hashes.map fun h => (ctx.size h).toNat).sum

/-- The hashes of the unpromoted candidates in probation. -/
def TinyLfuEviction.members (policy : TinyLfuEviction Hash)
    (ctx : EvictionContext Hash Instant) : List Hash :=
  (ctx.candidates.entries.map Prod.fst).filter (policy.inProbation ctx)

/-- What leaves are candidates, each once, no more of them than the budget, and none of them
is promoted. -/
structure Safe (ctx : EvictionContext Hash Instant) (plan : EvictionPlan Hash) : Prop where
  candidate : ∀ h ∈ plan.evict, (ctx.candidates.get h).isSome
  once : plan.evict.Nodup
  withinBudget : plan.evict.length ≤ ctx.budget.toNat
  promotedOnce : (plan.promote.map Prod.fst).Nodup
  disjoint : ∀ h ∈ plan.evict, h ∉ plan.promote.map Prod.fst

/-- After the releases `before`, the hashes taken are the shortest prefix of the ranking that
meets the target or spends the budget, or the whole ranking. -/
structure TargetPass (ctx : EvictionContext Hash Instant) (before ranking taken : List Hash) :
    Prop where
  isPrefix : taken <+: ranking
  goesOn : ∀ init, init <+: taken → init ≠ taken →
    ctx.targetBytes.toNat < ctx.totalBytes.toNat - ctx.bytes (before ++ init) ∧
      (before ++ init).length < ctx.budget.toNat
  ends : taken = ranking ∨
    ctx.totalBytes.toNat - ctx.bytes (before ++ taken) ≤ ctx.targetBytes.toNat ∨
    ctx.budget.toNat ≤ (before ++ taken).length

section
variable [LinearOrder Instant]

/-- Oldest access first, then largest. -/
def Older (ctx : EvictionContext Hash Instant) (a b : Hash × Instant) : Prop :=
  a.2 < b.2 ∨ a.2 = b.2 ∧ ctx.size b.1 ≤ ctx.size a.1

/-- Least frequent first, then oldest access, then largest. -/
def Colder (policy : TinyLfuEviction Hash) (ctx : EvictionContext Hash Instant)
    (a b : Hash × Instant) : Prop :=
  policy.freq a.1 < policy.freq b.1 ∨ policy.freq a.1 = policy.freq b.1 ∧ Older ctx a b

/-- A ranking: these entries, each as often, in this order. -/
def Ranking (before : Hash × Instant → Hash × Instant → Prop)
    (entries : List (Hash × Instant)) (ranking : List Hash) : Prop :=
  ∃ ranked : List (Hash × Instant), ranked.Perm entries ∧ ranked.Pairwise before ∧
    ranked.map Prod.fst = ranking

/-- What a plan of `LruEviction` promises. -/
structure LruPlanned (ctx : EvictionContext Hash Instant) (plan : EvictionPlan Hash) :
    Prop where
  safe : Safe ctx plan
  promotes : plan.promote = []
  target : ∃ ranking, Ranking (Older ctx) ctx.candidates.entries ranking ∧
    TargetPass ctx [] ranking plan.evict

/-- What pass 2 promises: it releases a prefix of the ranking of the unpromoted candidates in
probation, and those it keeps hold at most their share, unless the budget ran out. -/
structure Capped (policy : TinyLfuEviction Hash) (ctx : EvictionContext Hash Instant)
    (capped : List Hash) : Prop where
  ranked : ∃ ranking, Ranking (Colder policy ctx)
    (ctx.candidates.entries.filter fun e => policy.inProbation ctx e.1) ranking ∧
      capped <+: ranking
  share : ctx.bytes (policy.members ctx) < 2 ^ 64 →
    ctx.bytes ((policy.members ctx).filter (· ∉ capped)) * 100 ≤
        ctx.cacheBytes.toNat * policy.probationTargetPct.toNat ∨
      ctx.budget.toNat ≤ capped.length

/-- What a plan of `TinyLfuEviction` promises. -/
structure TinyLfuPlanned (policy : TinyLfuEviction Hash) (ctx : EvictionContext Hash Instant)
    (plan : EvictionPlan Hash) : Prop where
  safe : Safe ctx plan
  promotes : ∀ h segment, (h, segment) ∈ plan.promote ↔ segment = .main ∧
    ctx.segments.get h = some .probation ∧ policy.promotionThreshold ≤ policy.freq h
  passes : ∃ capped taken, plan.evict = capped ++ taken ∧ Capped policy ctx capped ∧
    ∃ ranking, Ranking (Colder policy ctx)
      (ctx.candidates.entries.filter fun e =>
        e.1 ∉ capped ∧ e.1 ∉ plan.promote.map Prod.fst) ranking ∧
      TargetPass ctx capped ranking taken

end

/-! ## The loop for the global target -/

section
variable (ctx : EvictionContext Hash Instant)

theorem bytes_append (hashes more : List Hash) :
    ctx.bytes (hashes ++ more) = ctx.bytes hashes + ctx.bytes more := by
  simp [EvictionContext.bytes]

@[simp] theorem foldl_release_evict (hashes : List Hash) (s : Releases Hash) :
    (hashes.foldl ctx.release s).evict = s.evict ++ hashes := by
  induction hashes generalizing s with
  | nil => simp
  | cons h rest ih => simp [ih, EvictionContext.release]

/-- The counter holds what its releases free, as far as a word can. -/
def Releases.Counted (s : Releases Hash) : Prop :=
  s.freed.toNat = min u64Max (ctx.bytes s.evict)

theorem Releases.Counted.release {s : Releases Hash} (hs : s.Counted ctx) (h : Hash) :
    (ctx.release s h).Counted ctx := by
  have hone : ctx.bytes [h] = (ctx.size h).toNat := by simp [EvictionContext.bytes]
  show (wordAdd s.freed (ctx.size h)).toNat = min u64Max (ctx.bytes (s.evict ++ [h]))
  rw [wordAdd, saturatingAdd, toNat_ofNat (Nat.min_le_right _ _), hs, bytes_append, hone]
  omega

theorem Releases.Counted.foldl {s : Releases Hash} (hs : s.Counted ctx) (hashes : List Hash) :
    (hashes.foldl ctx.release s).Counted ctx := by
  induction hashes generalizing s with
  | nil => exact hs
  | cons h rest ih => exact ih (hs.release ctx h)

/-- The saturated counter decides the target as an exact one would. -/
theorem Releases.Counted.targetMet_iff {s : Releases Hash} (hs : s.Counted ctx) :
    ctx.targetMet s.freed = true ↔
      ctx.totalBytes.toNat - ctx.bytes s.evict ≤ ctx.targetBytes.toNat := by
  have htotal := toNat_le_u64Max ctx.totalBytes
  rw [EvictionContext.targetMet, decide_eq_true_iff, toNat_wordSub, hs]
  omega

/-- The loop releases the shortest prefix of its ranking that will do. -/
theorem releaseToTarget_spec {s : Releases Hash} (hs : s.Counted ctx) (ranking : List Hash) :
    ∃ taken, (ctx.releaseToTarget s ranking).evict = s.evict ++ taken ∧
      TargetPass ctx s.evict ranking taken := by
  rcases forUntil_broke (fun s => ctx.targetMet s.freed || ctx.spent s.evict) ctx.release s
    ranking with ⟨taken, htaken, heq⟩
  refine ⟨taken, ?_, htaken.isPrefix, ?_, ?_⟩
  · rw [EvictionContext.releaseToTarget, heq, foldl_release_evict]
  · intro init hinit hne
    have hgo := htaken.goesOn init hinit hne
    rw [Bool.or_eq_false_iff, ← Bool.not_eq_true, (hs.foldl ctx init).targetMet_iff,
      foldl_release_evict, EvictionContext.spent, decide_eq_false_iff_not] at hgo
    exact ⟨Nat.lt_of_not_le hgo.1, Nat.lt_of_not_le hgo.2⟩
  · refine htaken.ends.imp_right fun hstop => ?_
    rw [Bool.or_eq_true, (hs.foldl ctx taken).targetMet_iff, foldl_release_evict,
      EvictionContext.spent, decide_eq_true_iff] at hstop
    exact hstop

variable {ctx} {before ranking taken : List Hash}

/-- Without its last release, a pass would leave the target unmet. -/
theorem TargetPass.dropLast (h : TargetPass ctx before ranking taken) (hne : taken ≠ []) :
    ctx.targetBytes.toNat < ctx.totalBytes.toNat - ctx.bytes (before ++ taken.dropLast) ∧
      (before ++ taken.dropLast).length < ctx.budget.toNat := by
  refine h.goesOn _ (List.dropLast_prefix taken) fun heq => ?_
  have hlength := congrArg List.length heq
  have hpos := List.length_pos_iff.mpr hne
  rw [List.length_dropLast] at hlength
  omega

/-- A pass keeps within the budget. -/
theorem TargetPass.within (h : TargetPass ctx before ranking taken)
    (hbefore : before.length ≤ ctx.budget.toNat) :
    (before ++ taken).length ≤ ctx.budget.toNat := by
  by_cases hne : taken = []
  · rwa [hne, List.append_nil]
  · have hlast := (h.dropLast hne).2
    have hpos := List.length_pos_iff.mpr hne
    rw [List.length_append, List.length_dropLast] at hlast
    rw [List.length_append]
    omega

end

/-! ## Rankings -/

section
variable {ctx : EvictionContext Hash Instant}

/-- A stable sort by a key sorts by it. -/
theorem pairwise_sortBy {α κ : Type*} [LinearOrder κ] (key : α → κ) (list : List α) :
    (list.insertionSort fun a b => key a ≤ key b).Pairwise fun a b => key a ≤ key b := by
  have : Std.Total fun a b : α => key a ≤ key b := ⟨fun _ _ => le_total _ _⟩
  have : IsTrans α fun a b => key a ≤ key b := ⟨fun _ _ _ => le_trans⟩
  exact List.pairwise_insertionSort _ list

omit [DecidableEq Hash] in
/-- A ranking of some of the candidates lists each of them once, and no others. -/
theorem Ranking.nodup {before : Hash × Instant → Hash × Instant → Prop}
    {chosen : Hash × Instant → Bool} {ranking : List Hash}
    (h : Ranking before (ctx.candidates.entries.filter chosen) ranking) : ranking.Nodup := by
  rcases h with ⟨ranked, hperm, -, rfl⟩
  refine (hperm.map Prod.fst).nodup_iff.mpr ?_
  exact ctx.candidates.nodup.sublist (List.filter_sublist.map Prod.fst)

omit [DecidableEq Hash] in
theorem Ranking.mem_iff {before : Hash × Instant → Hash × Instant → Prop}
    {entries : List (Hash × Instant)} {ranking : List Hash} (h : Ranking before entries ranking)
    (a : Hash) : a ∈ ranking ↔ ∃ t, (a, t) ∈ entries := by
  rcases h with ⟨ranked, hperm, -, rfl⟩
  simp [hperm.mem_iff]

end

section
variable [LinearOrder Instant] (policy : TinyLfuEviction Hash)
  (ctx : EvictionContext Hash Instant)

theorem lruKey_le_iff (a b : Hash × Instant) :
    LruEviction.key ctx a ≤ LruEviction.key ctx b ↔ Older ctx a b := by
  rw [LruEviction.key, LruEviction.key, Prod.Lex.toLex_le_toLex, OrderDual.toDual_le_toDual,
    ← UInt64.le_iff_toNat_le]
  rfl

theorem tinyLfuKey_le_iff (a b : Hash × Instant) :
    TinyLfuEviction.key ctx (policy.score a) ≤ TinyLfuEviction.key ctx (policy.score b) ↔
      Colder policy ctx a b := by
  rw [Colder, ← lruKey_le_iff]
  exact Prod.Lex.toLex_le_toLex

/-- The order of the LRU policy. -/
theorem lru_ranking :
    Ranking (Older ctx) ctx.candidates.entries ((LruEviction.ordered ctx).map Prod.fst) := by
  refine ⟨LruEviction.ordered ctx, List.perm_insertionSort _ _, ?_, rfl⟩
  exact (pairwise_sortBy (LruEviction.key ctx) ctx.candidates.entries).imp
    fun h => (lruKey_le_iff ctx _ _).mp h

/-- The order of both passes of the TinyLFU policy, over the entries they choose. -/
theorem tinyLfu_ranking (entries : List (Hash × Instant)) :
    Ranking (Colder policy ctx) entries
      ((TinyLfuEviction.sorted ctx (entries.map policy.score)).map Prod.fst) := by
  have hsort : TinyLfuEviction.sorted ctx (entries.map policy.score) =
      (entries.insertionSort fun a b =>
        TinyLfuEviction.key ctx (policy.score a) ≤ TinyLfuEviction.key ctx (policy.score b)).map
        policy.score :=
    (List.map_insertionSort _ _ policy.score entries fun _ _ _ _ => Iff.rfl).symm
  refine ⟨entries.insertionSort fun a b =>
    TinyLfuEviction.key ctx (policy.score a) ≤ TinyLfuEviction.key ctx (policy.score b),
    List.perm_insertionSort _ entries, ?_, ?_⟩
  · exact (pairwise_sortBy (fun e => TinyLfuEviction.key ctx (policy.score e)) entries).imp
      fun h => (tinyLfuKey_le_iff policy ctx _ _).mp h
  · rw [hsort, List.map_map]
    rfl

end

/-! ## Pass 2: the cap on probation -/

section
variable {policy : TinyLfuEviction Hash}
  {ctx : EvictionContext Hash Instant}

theorem map_probationMembers :
    (policy.probationMembers ctx).map Prod.fst = policy.members ctx := by
  rw [TinyLfuEviction.probationMembers, TinyLfuEviction.members, List.map_map, List.filter_map]
  rfl

/-- A sum of words that fits is exact. -/
theorem toNat_sum {words : List UInt64} (h : (words.map UInt64.toNat).sum < 2 ^ 64) :
    words.sum.toNat = (words.map UInt64.toNat).sum := by
  induction words with
  | nil => rfl
  | cons w rest ih =>
    rw [List.map_cons, List.sum_cons] at h ⊢
    rw [List.sum_cons, UInt64.toNat_add, ih (by omega), Nat.mod_eq_of_lt h]

theorem probationFootprint_eq (h : ctx.bytes (policy.members ctx) < 2 ^ 64) :
    (policy.probationFootprint ctx).toNat = ctx.bytes (policy.members ctx) := by
  have hbytes : ctx.bytes (policy.members ctx) =
      (((policy.probationMembers ctx).map fun m => ctx.size m.1).map UInt64.toNat).sum := by
    rw [← map_probationMembers, EvictionContext.bytes, List.map_map, List.map_map]
    rfl
  rw [hbytes] at h ⊢
  exact toNat_sum h

omit [DecidableEq Hash] in
/-- What the limit of probation is worth. -/
theorem probationLimit_le (policy : TinyLfuEviction Hash) (ctx : EvictionContext Hash Instant) :
    (policy.probationLimit ctx).toNat * 100 ≤
      ctx.cacheBytes.toNat * policy.probationTargetPct.toNat := by
  have hdiv : (policy.probationLimit ctx).toNat =
      min (ctx.cacheBytes.toNat * policy.probationTargetPct.toNat) u64Max / 100 := by
    rw [TinyLfuEviction.probationLimit, UInt64.toNat_div, TinyLfuEviction.saturatingMul,
      toNat_ofNat (Nat.min_le_right _ _)]
    rfl
  rw [hdiv]
  exact (Nat.div_mul_le_self _ _).trans (Nat.min_le_left _ _)

theorem foldl_capStep_releases (hashes : List Hash) (s : TinyLfuEviction.CapPass Hash) :
    (hashes.foldl (TinyLfuEviction.capStep ctx) s).toReleases =
      hashes.foldl ctx.release s.toReleases := by
  induction hashes generalizing s with
  | nil => rfl
  | cons h rest ih => exact ih _

theorem foldl_capStep_remaining (hashes : List Hash) (s : TinyLfuEviction.CapPass Hash) :
    (hashes.foldl (TinyLfuEviction.capStep ctx) s).remaining.toNat =
      s.remaining.toNat - ctx.bytes hashes := by
  induction hashes generalizing s with
  | nil => simp [EvictionContext.bytes]
  | cons h rest ih =>
    have hcons : ctx.bytes (h :: rest) = (ctx.size h).toNat + ctx.bytes rest := rfl
    rw [List.foldl_cons, ih, TinyLfuEviction.capStep, toNat_wordSub, hcons]
    omega

/-- Among the members, what is taken and what is kept hold all their bytes. -/
theorem bytes_taken_add_kept {taken : List Hash} (hnodup : taken.Nodup)
    (hsub : ∀ h ∈ taken, h ∈ policy.members ctx) :
    ctx.bytes taken + ctx.bytes ((policy.members ctx).filter (· ∉ taken)) =
      ctx.bytes (policy.members ctx) := by
  have hmembers : (policy.members ctx).Nodup := ctx.candidates.nodup.filter _
  have htaken : taken.Perm ((policy.members ctx).filter (· ∈ taken)) := by
    refine (List.perm_ext_iff_of_nodup hnodup (hmembers.filter _)).mpr fun h => ?_
    rw [List.mem_filter, decide_eq_true_iff]
    exact ⟨fun hmem => ⟨hsub h hmem, hmem⟩, fun hmem => hmem.2⟩
  have hbytes : ∀ {a b : List Hash}, a.Perm b → ctx.bytes a = ctx.bytes b :=
    fun hperm => (hperm.map _).sum_eq
  have hkept : (policy.members ctx).filter (· ∉ taken) =
      (policy.members ctx).filter fun h => !decide (h ∈ taken) :=
    List.filter_congr fun h _ => decide_not
  rw [hkept, hbytes htaken, ← bytes_append]
  exact hbytes (List.filter_append_perm _ _)

/-- Before the loop of pass 2 nothing is released. -/
theorem counted_empty : ({} : Releases Hash).Counted ctx := by
  show (0 : UInt64).toNat = min u64Max (ctx.bytes [])
  simp [EvictionContext.bytes]

/-- The loop of pass 2 releases a prefix of its ranking, within the budget, and stops where
the footprint is at the limit, the budget is spent or the ranking ends. -/
theorem capLoop_spec (policy : TinyLfuEviction Hash) (ctx : EvictionContext Hash Instant)
    (footprint : UInt64) (ranking : List Hash) :
    ∃ taken, taken <+: ranking ∧
      (policy.capLoop ctx { remaining := footprint } ranking).toReleases =
        taken.foldl ctx.release {} ∧
      taken.length ≤ ctx.budget.toNat ∧
      (taken = ranking ∨
        footprint.toNat - ctx.bytes taken ≤ (policy.probationLimit ctx).toNat ∨
        ctx.budget.toNat ≤ taken.length) := by
  have hevict : ∀ hashes : List Hash, (hashes.foldl (TinyLfuEviction.capStep ctx)
      { remaining := footprint }).evict = hashes := by
    intro hashes
    rw [foldl_capStep_releases, foldl_release_evict, List.nil_append]
  rcases forUntil_broke (fun s : TinyLfuEviction.CapPass Hash =>
      s.remaining.toNat ≤ (policy.probationLimit ctx).toNat || ctx.spent s.evict)
    (TinyLfuEviction.capStep ctx) { remaining := footprint } ranking with ⟨taken, htaken, heq⟩
  refine ⟨taken, htaken.isPrefix, ?_, ?_, ?_⟩
  · rw [TinyLfuEviction.capLoop, heq, foldl_capStep_releases]
  · by_cases hne : taken = []
    · rw [hne]
      exact Nat.zero_le _
    · have hlength : taken.dropLast.length = taken.length - 1 := List.length_dropLast
      have hpos := List.length_pos_iff.mpr hne
      have hgo := htaken.goesOn _ (List.dropLast_prefix taken) fun h => by
        rw [h] at hlength
        omega
      simp only [Bool.or_eq_false_iff, hevict, EvictionContext.spent,
        decide_eq_false_iff_not] at hgo
      omega
  · refine htaken.ends.imp_right fun hstop => ?_
    simpa only [Bool.or_eq_true, hevict, EvictionContext.spent, decide_eq_true_iff,
      foldl_capStep_remaining] using hstop

variable [LinearOrder Instant]

/-- The releases of pass 2 are counted, within the budget, and as it promises. -/
theorem capped_spec (policy : TinyLfuEviction Hash) (ctx : EvictionContext Hash Instant) :
    (policy.capped ctx).Counted ctx ∧
      (policy.capped ctx).evict.length ≤ ctx.budget.toNat ∧
      Capped policy ctx (policy.capped ctx).evict := by
  let ranking := (TinyLfuEviction.sorted ctx (policy.probationMembers ctx)).map Prod.fst
  have hranking : Ranking (Colder policy ctx)
      (ctx.candidates.entries.filter fun e => policy.inProbation ctx e.1) ranking :=
    tinyLfu_ranking policy ctx _
  have hmem : ∀ h, h ∈ ranking ↔ h ∈ policy.members ctx := by
    intro h
    rw [hranking.mem_iff, TinyLfuEviction.members]
    simp only [List.mem_filter, List.mem_map, Prod.exists, exists_and_right, exists_eq_right]
  have hlimit := probationLimit_le policy ctx
  rw [TinyLfuEviction.capped]
  split
  case isTrue hover =>
    rcases capLoop_spec policy ctx (policy.probationFootprint ctx) ranking
      with ⟨taken, hinit, hrel, hbudget, hends⟩
    rw [hrel, foldl_release_evict, List.nil_append]
    refine ⟨counted_empty.foldl ctx taken, hbudget, ⟨ranking, hranking, hinit⟩,
      fun hfits => ?_⟩
    have hsplit := bytes_taken_add_kept (hranking.nodup.sublist hinit.sublist)
      fun h hh => (hmem h).mp (hinit.subset hh)
    rw [probationFootprint_eq hfits] at hends
    rcases hends with rfl | hlow | hspent
    · -- every member is taken
      have hnone : (policy.members ctx).filter (· ∉ ranking) = [] := by
        refine List.filter_eq_nil_iff.mpr fun h hh => ?_
        rw [decide_eq_true_iff, not_not]
        exact (hmem h).mpr hh
      left
      rw [hnone]
      exact Nat.zero_le _
    · left
      omega
    · exact .inr hspent
  case isFalse hover =>
    refine ⟨counted_empty, Nat.zero_le _, ⟨ranking, hranking, List.nil_prefix⟩,
      fun hfits => ?_⟩
    have hall : (policy.members ctx).filter (· ∉ ([] : List Hash)) = policy.members ctx :=
      List.filter_eq_self.mpr fun h _ => by simp
    rw [probationFootprint_eq hfits] at hover
    left
    rw [hall]
    omega

end

/-! ## The plans -/

/-- What the first pass promotes. -/
theorem mem_promote {policy : TinyLfuEviction Hash} {ctx : EvictionContext Hash Instant}
    {h : Hash} {segment : Segment} : (h, segment) ∈ policy.promote ctx ↔ segment = .main ∧
      ctx.segments.get h = some .probation ∧ policy.promotionThreshold ≤ policy.freq h := by
  rw [HashMap.get_eq_some, TinyLfuEviction.promote]
  simp only [List.mem_map, List.mem_filter, decide_eq_true_iff, Prod.exists, Prod.mk.injEq]
  constructor
  · rintro ⟨a, b, ⟨hmem, rfl, hfreq⟩, rfl, rfl⟩
    exact ⟨rfl, hmem, hfreq⟩
  · rintro ⟨rfl, hmem, hfreq⟩
    exact ⟨h, .probation, ⟨hmem, rfl, hfreq⟩, rfl, rfl⟩

omit [DecidableEq Hash] in
/-- No hash is promoted twice. -/
theorem promoted_nodup (policy : TinyLfuEviction Hash) (ctx : EvictionContext Hash Instant) :
    (policy.promoted ctx).Nodup := by
  rw [TinyLfuEviction.promoted, TinyLfuEviction.promote, List.map_map]
  exact ctx.segments.nodup.sublist (List.filter_sublist.map Prod.fst)

section
variable [LinearOrder Instant]

/-- The plan of `LruEviction`, for every context. -/
theorem lru_planned (ctx : EvictionContext Hash Instant) :
    LruPlanned ctx (LruEviction.plan ctx) := by
  rcases releaseToTarget_spec ctx counted_empty ((LruEviction.ordered ctx).map Prod.fst)
    with ⟨taken, hevict, hpass⟩
  have hplan : (LruEviction.plan ctx).evict = taken := hevict
  have hranking := lru_ranking ctx
  have hall : Ranking (Older ctx) (ctx.candidates.entries.filter fun _ => true)
      ((LruEviction.ordered ctx).map Prod.fst) := by
    rwa [List.filter_true]
  have hnodup := hall.nodup
  refine ⟨⟨?_, ?_, ?_, List.nodup_nil, fun h _ => List.not_mem_nil⟩, rfl, _, hranking, ?_⟩
  · intro h hh
    rw [hplan] at hh
    rcases (hranking.mem_iff h).mp (hpass.isPrefix.subset hh) with ⟨t, ht⟩
    rw [HashMap.get_eq_some.mpr ht]
    rfl
  · rw [hplan]
    exact hnodup.sublist hpass.isPrefix.sublist
  · rw [hplan]
    exact hpass.within (Nat.zero_le _)
  · rw [hplan]
    exact hpass

/-- The plan of `TinyLfuEviction`, for every context and every frequency function. -/
theorem tinyLfu_planned (policy : TinyLfuEviction Hash) (ctx : EvictionContext Hash Instant) :
    TinyLfuPlanned policy ctx (policy.plan ctx) := by
  rcases capped_spec policy ctx with ⟨hcounted, hbudget, hcapped⟩
  rcases hcapped.ranked with ⟨first, hfirst, hinit⟩
  rcases releaseToTarget_spec ctx hcounted
    ((policy.scored ctx (policy.capped ctx).evict).map Prod.fst) with ⟨taken, hevict, hpass⟩
  have hplan : (policy.plan ctx).evict = (policy.capped ctx).evict ++ taken := hevict
  have hranking := tinyLfu_ranking policy ctx (ctx.candidates.entries.filter fun e =>
    e.1 ∉ (policy.capped ctx).evict ∧ e.1 ∉ policy.promoted ctx)
  have htaken : ∀ h ∈ taken, (∃ t, (h, t) ∈ ctx.candidates.entries) ∧
      h ∉ (policy.capped ctx).evict ∧ h ∉ policy.promoted ctx := by
    intro h hh
    rcases (hranking.mem_iff h).mp (hpass.isPrefix.subset hh) with ⟨t, ht⟩
    rw [List.mem_filter, decide_eq_true_iff] at ht
    exact ⟨⟨t, ht.1⟩, ht.2⟩
  have hcap : ∀ h ∈ (policy.capped ctx).evict, (∃ t, (h, t) ∈ ctx.candidates.entries) ∧
      h ∉ policy.promoted ctx := by
    intro h hh
    rcases (hfirst.mem_iff h).mp (hinit.subset hh) with ⟨t, ht⟩
    rw [List.mem_filter, TinyLfuEviction.inProbation, decide_eq_true_iff] at ht
    exact ⟨⟨t, ht.1⟩, ht.2.2⟩
  refine ⟨⟨?_, ?_, ?_, promoted_nodup policy ctx, ?_⟩, fun h segment => mem_promote,
    (policy.capped ctx).evict, taken, hplan, hcapped, _, hranking, hpass⟩
  · intro h hh
    rw [hplan, List.mem_append] at hh
    rcases hh.elim (fun hh => (hcap h hh).1) (fun hh => (htaken h hh).1) with ⟨t, ht⟩
    rw [HashMap.get_eq_some.mpr ht]
    rfl
  · rw [hplan, List.nodup_append']
    refine ⟨hfirst.nodup.sublist hinit.sublist,
      hranking.nodup.sublist hpass.isPrefix.sublist, ?_⟩
    intro h hh htake
    exact (htaken h htake).2.1 hh
  · rw [hplan]
    exact hpass.within hbudget
  · intro h hh
    rw [hplan, List.mem_append] at hh
    exact hh.elim (fun hh => (hcap h hh).2) (fun hh => (htaken h hh).2.2)

/-! ## Where the policies agree -/

/-- What a full tie shares: the last access and the size. -/
def EvictionContext.tie (ctx : EvictionContext Hash Instant) (h : Hash) :
    Option Instant × Nat :=
  (ctx.candidates.get h, (ctx.size h).toNat)

/-- Nothing in probation, and all frequencies equal. -/
structure Inert (policy : TinyLfuEviction Hash) (ctx : EvictionContext Hash Instant) :
    Prop where
  noProbation : ∀ h, ctx.segments.get h ≠ some .probation
  sameFreq : ∀ a ∈ ctx.candidates.entries, ∀ b ∈ ctx.candidates.entries,
    policy.freq a.1 = policy.freq b.1

/-- Then the policies plan the same. -/
theorem Inert.plan_eq {policy : TinyLfuEviction Hash} {ctx : EvictionContext Hash Instant}
    (h : Inert policy ctx) : policy.plan ctx = LruEviction.plan ctx := by
  have hpromote : policy.promote ctx = [] := by
    refine List.eq_nil_iff_forall_not_mem.mpr fun e he => ?_
    exact h.noProbation e.1 (mem_promote.mp he).2.1
  have hmembers : policy.members ctx = [] := by
    refine List.filter_eq_nil_iff.mpr fun a _ => ?_
    simp [TinyLfuEviction.inProbation, h.noProbation a]
  have hcapped : policy.capped ctx = {} := by
    have hzero : ctx.bytes (policy.members ctx) = 0 := by rw [hmembers]; rfl
    have hfootprint : (policy.probationFootprint ctx).toNat = ctx.bytes (policy.members ctx) :=
      probationFootprint_eq (by omega)
    exact if_neg (by omega)
  have hchosen : (ctx.candidates.entries.filter fun e =>
      e.1 ∉ ([] : List Hash) ∧ e.1 ∉ policy.promoted ctx) = ctx.candidates.entries := by
    refine List.filter_eq_self.mpr fun e _ => ?_
    simp [TinyLfuEviction.promoted, hpromote]
  have hscored : policy.scored ctx [] = (LruEviction.ordered ctx).map policy.score := by
    rw [TinyLfuEviction.scored, hchosen]
    refine (List.map_insertionSort _ _ policy.score _ fun a ha b hb => ?_).symm
    rw [tinyLfuKey_le_iff, lruKey_le_iff, Colder]
    simp [h.sameFreq a ha b hb]
  have hhashes : (policy.scored ctx []).map Prod.fst =
      (LruEviction.ordered ctx).map Prod.fst := by
    rw [hscored, List.map_map]
    rfl
  simp only [TinyLfuEviction.plan, LruEviction.plan, hcapped, hpromote, hhashes]

/-- A plan of `LruEviction` is the same, up to full ties, however the candidates iterate. -/
theorem lru_tie (ctx : EvictionContext Hash Instant) (candidates : HashMap Hash Instant)
    (hperm : candidates.entries.Perm ctx.candidates.entries) :
    (LruEviction.plan { ctx with candidates }).evict.map ctx.tie =
      (LruEviction.plan ctx).evict.map ctx.tie := by
  let other : EvictionContext Hash Instant := { ctx with candidates }
  have hties : ∀ list : List (Hash × Instant), (∀ e ∈ list, e ∈ ctx.candidates.entries) →
      (list.map Prod.fst).map ctx.tie = (list.map (LruEviction.key ctx)).map fun k =>
        (some (ofLex k).1, OrderDual.ofDual (ofLex k).2) := by
    intro list hlist
    rw [List.map_map, List.map_map]
    refine List.map_congr_left fun e he => ?_
    show (ctx.candidates.get e.1, _) = (some e.2, _)
    rw [HashMap.get_eq_some.mpr (hlist e he)]
    rfl
  have hkeys : (LruEviction.ordered other).map (LruEviction.key ctx) =
      (LruEviction.ordered ctx).map (LruEviction.key ctx) := by
    have hsame : (LruEviction.ordered other).Perm (LruEviction.ordered ctx) :=
      ((List.perm_insertionSort _ _).trans hperm).trans (List.perm_insertionSort _ _).symm
    refine List.Perm.eq_of_pairwise' (r := (· ≤ ·)) ?_ ?_ (hsame.map _)
    · exact List.pairwise_map.mpr (pairwise_sortBy (LruEviction.key ctx) candidates.entries)
    · exact List.pairwise_map.mpr
        (pairwise_sortBy (LruEviction.key ctx) ctx.candidates.entries)
  have horder : List.Forall₂ (fun a b => ctx.tie a = ctx.tie b)
      ((LruEviction.ordered other).map Prod.fst) ((LruEviction.ordered ctx).map Prod.fst) := by
    have heq : ((LruEviction.ordered other).map Prod.fst).map ctx.tie =
        ((LruEviction.ordered ctx).map Prod.fst).map ctx.tie := by
      rw [hties, hties, hkeys]
      · exact fun e he => (List.perm_insertionSort _ _).mem_iff.mp he
      · exact fun e he => hperm.mem_iff.mp ((List.perm_insertionSort _ _).mem_iff.mp he)
    rw [← List.forall₂_eq_eq_eq, List.forall₂_map_left_iff, List.forall₂_map_right_iff] at heq
    exact heq
  refine (forUntil_related (R := fun s t : Releases Hash =>
    s.evict.map ctx.tie = t.evict.map ctx.tie ∧ s.freed = t.freed) ?_ ?_ horder
    ⟨rfl, rfl⟩).1
  · rintro s t ⟨hevict, hfreed⟩
    have hlength := congrArg List.length hevict
    rw [List.length_map, List.length_map] at hlength
    rw [EvictionContext.spent, EvictionContext.spent, hlength, hfreed]
    rfl
  · rintro s t a b ⟨hevict, hfreed⟩ hab
    have hsize : ctx.size a = ctx.size b := UInt64.toNat_inj.mp (congrArg Prod.snd hab)
    constructor
    · simp [EvictionContext.release, hevict, hab]
    · show wordAdd s.freed (ctx.size a) = wordAdd t.freed (ctx.size b)
      rw [hfreed, hsize]

/-- Every plan of both policies is safe and stops as early as it may, and where nothing is in
probation and all frequencies are equal, the policies plan the same; over another order of
iteration, the same up to full ties. -/
theorem plans_safe_and_minimal (policy : TinyLfuEviction Hash)
    (ctx : EvictionContext Hash Instant) :
    LruPlanned ctx (LruEviction.plan ctx) ∧
    TinyLfuPlanned policy ctx (policy.plan ctx) ∧
    (Inert policy ctx → policy.plan ctx = LruEviction.plan ctx ∧
      ∀ candidates : HashMap Hash Instant,
        candidates.entries.Perm ctx.candidates.entries →
        (policy.plan { ctx with candidates }).promote = [] ∧
        (policy.plan { ctx with candidates }).evict.map ctx.tie =
          (LruEviction.plan ctx).evict.map ctx.tie) := by
  refine ⟨lru_planned ctx, tinyLfu_planned policy ctx, fun h => ⟨h.plan_eq, ?_⟩⟩
  intro candidates hperm
  have hother : Inert policy { ctx with candidates } :=
    ⟨h.noProbation, fun a ha b hb =>
      h.sameFreq a (hperm.mem_iff.mp ha) b (hperm.mem_iff.mp hb)⟩
  rw [hother.plan_eq]
  exact ⟨rfl, lru_tie ctx candidates hperm⟩

end

/-! ## Runs -/

/-- One candidate, and a hot hash in probation that is no candidate. -/
def pinnedProbation : EvictionContext Nat Nat where
  candidates := ⟨[(1, 0)], by decide⟩
  segments := ⟨[(2, .probation)], by decide⟩
  totalBytes := 0
  targetBytes := 0
  budget := 0
  cacheBytes := 1000

/-- Two cold candidates in probation whose sizes sum to what a word cannot hold. -/
def hugeProbation : EvictionContext Nat Nat where
  candidates := ⟨[(1, 0), (2, 0)], by decide⟩
  sizes := ⟨[(1, 9223372036854775808), (2, 9223372036854775808)], by decide⟩
  segments := ⟨[(1, .probation), (2, .probation)], by decide⟩
  totalBytes := 10
  targetBytes := 1000
  budget := 100
  cacheBytes := 1000

/-- Every hash with this frequency, a threshold of two sightings, a tenth for probation. -/
def flatPolicy (frequency : Nat) : TinyLfuEviction Nat := ⟨fun _ => frequency, 2, 10⟩

/-- A hash that is no candidate is promoted, beyond a budget of zero; and where the footprint
wraps, probation keeps more than its share with the budget unspent. -/
theorem promotes_beyond_candidates :
    (pinnedProbation.candidates.get 2 = none ∧
      ((flatPolicy 3).plan pinnedProbation).promote = [(2, .main)] ∧
      pinnedProbation.budget = 0) ∧
    (((flatPolicy 0).plan hugeProbation).evict = [] ∧
      ((flatPolicy 0).plan hugeProbation).promote = [] ∧
      hugeProbation.cacheBytes.toNat * (flatPolicy 0).probationTargetPct.toNat <
        hugeProbation.bytes ((flatPolicy 0).members hugeProbation) * 100) := by
  decide +kernel

/-- Two candidates of which the older one reaches the target. -/
def twoCandidates : EvictionContext Nat Nat where
  candidates := ⟨[(1, 5), (2, 3)], by decide⟩
  sizes := ⟨[(1, 10), (2, 20)], by decide⟩
  totalBytes := 30
  targetBytes := 15
  budget := 4
  cacheBytes := 100

theorem plans_safe_and_minimal_sample :
    (flatPolicy 0).plan twoCandidates = ⟨[2], []⟩ ∧
      (flatPolicy 0).plan twoCandidates = LruEviction.plan twoCandidates := by
  have hinert : Inert (flatPolicy 0) twoCandidates :=
    ⟨fun _ => nofun, fun _ _ _ _ => rfl⟩
  exact ⟨by decide +kernel, ((plans_safe_and_minimal (flatPolicy 0) twoCandidates).2.2
    hinert).1⟩

end Decdn.Cache.Policy
