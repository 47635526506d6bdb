import Decdn.Foundations.Overlay
import Decdn.Node.BlacklistWatcher
import Mathlib.Logic.Relation

/-!
# The blacklist watcher on its chain

A chain without reorganisations gives the contract at the end of each block; its log is the
concatenation of the events of the blocks.  The system mines blocks, hands the log to the tail
one event at a time, folds enumerations in, runs enforcement passes, and crashes and boots.

Main results:

- Theorem `Chain.ledger`: the log with the union of the two address lists as its truth.
- Theorem `Chain.enumerateAddressUnion_reads`: an honest enumeration reads that union.
-/

namespace Decdn.Node.BlacklistWatcher

open ContentBlacklist (Event Sets Reachable replay projection isOriginBlacklisted)

variable {L : Sets}

/-! ## The chain -/

/-- The contract and the bonds at the end of each block, up to a last one. -/
structure Chain (L : Sets) where
  last : Nat
  world : Nat → ContentBlacklist.World
  bond : Nat → CapacityBond.State
  reachable : Reachable L (world 0)
  follows : ∀ n, Relation.ReflTransGen (ContentBlacklist.Step L) (world n) (world (n + 1))

variable {C : Chain L}

/-- The events of the whole chain. -/
def Chain.log (C : Chain L) : List Event := (C.world C.last).contract.log

/-- The number of events up to a block. -/
def Chain.through (C : Chain L) (n : Nat) : Nat := (C.world n).contract.log.length

/-- The first block from `n` on that is past event `i`. -/
def Chain.blockFrom (C : Chain L) (i : Nat) : Nat → Nat → Nat
  | 0, n => n
  | fuel + 1, n => if i < C.through n then n else C.blockFrom i fuel (n + 1)

/-- The block of event `i`. -/
def Chain.block (C : Chain L) (i : Nat) : Nat := C.blockFrom i C.last 0

/-- The provider's answers at block `n`. -/
def Chain.reads (C : Chain L) (operator : Address) (n : Nat) : Reads where
  snapshotBlock := some n
  scopeRegions := some (ContentBlacklist.getScopeRegions (C.bond n) (C.world n).now operator)
  blacklistedHashCount := fun region => some ((C.world n).contract.regionHashes region).length
  blacklistedHashes := fun region offset limit =>
    some (ContentBlacklist.blacklistedHashes (C.world n).contract region offset limit)
  blacklistedAddressCount := some (C.world n).contract.blacklistedAddrs.length
  blacklistedAddresses := fun offset limit =>
    some (ContentBlacklist.blacklistedAddresses (C.world n).contract offset limit)
  isOriginBlacklisted := fun a => some (isOriginBlacklisted (C.world n).contract (C.world n).now a)
  isOperatorBlacklisted := fun a => some ((C.world n).contract.isOperatorBlacklisted a)

/-- `isHashBlacklistedForOperator` at block `n`. -/
def Chain.inScope (C : Chain L) (operator : Address) (n : Nat) (hash : Hash) : Bool :=
  ContentBlacklist.isHashBlacklistedForOperator (C.world n).contract (C.bond n) (C.world n).now
    hash operator

/-! ## The system -/

/-- The chain's head, the tail's position, the last folded snapshot, the watcher unless the node is
down, the cache, and the entries delivered since the last boot. -/
structure World where
  head : Nat := 0
  applied : Nat := 0
  snapshotBlock : Nat := 0
  watcher : Option WatcherState := none
  cache : Cache := {}
  delivered : Finset Entry := ∅

inductive Action where
  | mine
  | tail (oracle : Oracle)
  | resync (reads : Reads)
  | rescan (oracle : Oracle) (order : List Hash) (cancelAt : Option Nat)
  | withhold (withheld : Hash → Bool)
  | crash
  | boot (reads : Reads) (oracle : Oracle) (order : List Hash)

/-- The order in which a pass visits the hashes. -/
def visits (order : List Hash) (hashes : Finset Hash) : Bool :=
  decide (order.Nodup ∧ order.toFinset = hashes)

/-- The entries one event delivers. -/
def deliveredBy : Event → Finset Entry
  | .hashBlacklisted region hash _ => {(region, hash)}
  | _ => ∅

/-- One event at the tail. -/
def World.tail (C : Chain L) (w : World) (st : WatcherState) (oracle : Oracle) : Option World :=
  if w.applied < C.through w.head then
    match C.log[w.applied]? with
    | some e =>
      let (st, c) := handleLog oracle st w.cache (C.block w.applied) e
      some { w with
        applied := w.applied + 1
        watcher := some st
        cache := c
        delivered := w.delivered ∪ deliveredBy e }
    | none => none
  else none

/-- The events the tail starts behind: those of the blocks before the snapshot's. -/
def Chain.before (C : Chain L) : Nat → Nat
  | 0 => 0
  | n + 1 => C.through n

/-- One boot attempt. -/
def World.boot (C : Chain L) (w : World) (snapshot : BootstrapSnapshot) (oracle : Oracle)
    (order : List Hash) : World :=
  match enumerateAndEnforce oracle snapshot order w.cache with
  | (some st, c) => { w with
      applied := C.before snapshot.block
      snapshotBlock := snapshot.block
      watcher := some st
      cache := c
      delivered := snapshot.known }
  | (none, c) => { w with cache := c }

def World.apply (C : Chain L) (w : World) : Action → Option World
  | .mine => if w.head < C.last then some { w with head := w.head + 1 } else none
  | .tail oracle => w.watcher.bind fun st => w.tail C st oracle
  | .resync reads => w.watcher.bind fun st =>
    match bootstrapSnapshot reads with
    | .ok snapshot => some { w with
        snapshotBlock := snapshot.block
        watcher := some (st.foldReenumeration snapshot)
        delivered := w.delivered ∪ snapshot.known }
    -- A failed enumeration keeps the current deny-set.
    | .error _ => some w
  | .rescan oracle order cancelAt => w.watcher.bind fun st =>
    if visits order st.distinctHashes then
      let (st, c, _) := rescan oracle .continue order cancelAt st w.cache true
      some { w with watcher := some st, cache := c }
    else none
  | .withhold withheld => some { w with cache := { w.cache with withheld := withheld } }
  | .crash => some { w with watcher := none, cache := w.cache.reopen, delivered := ∅ }
  | .boot reads oracle order =>
    if w.watcher.isSome then none
    else
      match bootstrapSnapshot reads with
      | .ok snapshot =>
        if visits order (snapshot.known.image Prod.snd) then some (w.boot C snapshot oracle order)
        else none
      | .error _ => some w

def Step (C : Chain L) (w : World) (a : Action) (w' : World) : Prop := w.apply C a = some w'

/-! ## The log of a chain -/

theorem Chain.steps (C : Chain L) {m n : Nat} (h : m ≤ n) :
    Relation.ReflTransGen (ContentBlacklist.Step L) (C.world m) (C.world n) := by
  induction n with
  | zero =>
    rw [Nat.le_zero.mp h]
  | succ n ih =>
    rcases Nat.lt_or_eq_of_le h with hlt | rfl
    · exact (ih (Nat.le_of_lt_succ hlt)).trans (C.follows n)
    · exact .refl

theorem reachable_of_steps {v w : ContentBlacklist.World} (hv : Reachable L v)
    (h : Relation.ReflTransGen (ContentBlacklist.Step L) v w) : Reachable L w := by
  induction h with
  | refl => exact hv
  | tail _ hstep ih => exact ih.step hstep

theorem Chain.reachable_world (C : Chain L) (n : Nat) : Reachable L (C.world n) :=
  reachable_of_steps C.reachable (C.steps (Nat.zero_le n))

theorem log_grows {v w : ContentBlacklist.World}
    (h : Relation.ReflTransGen (ContentBlacklist.Step L) v w) :
    v.contract.log <+: w.contract.log := by
  induction h with
  | refl => exact List.prefix_refl _
  | tail _ hstep ih =>
    rcases hstep.reports with ⟨new, hlog, -⟩
    rw [hlog]
    exact ih.trans (List.prefix_append _ _)

theorem Chain.through_mono (C : Chain L) {m n : Nat} (h : m ≤ n) :
    C.through m ≤ C.through n :=
  (log_grows (C.steps h)).length_le

theorem Chain.take_through (C : Chain L) {n : Nat} (h : n ≤ C.last) :
    C.log.take (C.through n) = (C.world n).contract.log :=
  (List.prefix_iff_eq_take.mp (log_grows (C.steps h))).symm

theorem Chain.blockFrom_le_iff (C : Chain L) {i : Nat} (hi : i < C.through C.last) (fuel n m : Nat)
    (hfuel : n + fuel = C.last) (hbefore : ∀ k < n, C.through k ≤ i) :
    C.blockFrom i fuel n ≤ m ↔ i < C.through m := by
  induction fuel generalizing n with
  | zero =>
    rw [Chain.blockFrom]
    have hn : n = C.last := hfuel
    constructor
    · intro hle
      exact Nat.lt_of_lt_of_le hi (C.through_mono (hn ▸ hle))
    · intro hlt
      by_contra hle
      exact absurd hlt (Nat.not_lt.mpr (hbefore m (Nat.not_le.mp hle)))
  | succ fuel ih =>
    rw [Chain.blockFrom]
    split
    · rename_i hpast
      constructor
      · intro hle
        exact Nat.lt_of_lt_of_le hpast (C.through_mono hle)
      · intro hlt
        by_contra hle
        exact absurd hlt (Nat.not_lt.mpr (hbefore m (Nat.not_le.mp hle)))
    · rename_i hpast
      refine ih (n + 1) (by omega) ?_
      intro k hk
      rcases Nat.lt_or_eq_of_le (Nat.le_of_lt_succ hk) with hlt | rfl
      · exact hbefore k hlt
      · exact Nat.not_lt.mp hpast

theorem Chain.block_le_iff (C : Chain L) {i : Nat} (hi : i < C.log.length) (n : Nat) :
    C.block i ≤ n ↔ i < C.through n :=
  C.blockFrom_le_iff hi C.last 0 n (Nat.zero_add _) fun k hk => absurd hk (Nat.not_lt_zero k)

/-! ## The address lists -/

/-- The union of the two lists after the first `p` events. -/
def Chain.denied (C : Chain L) (p : Nat) (a : Address) : Bool :=
  (replay (C.log.take p)).origin a || (replay (C.log.take p)).operator a

/-- The address whose denial an event may change. -/
def touchedBy : Event → Option Address
  | .originBlacklistUpdated a _ => some a
  | .operatorBlacklisted a => some a
  | .operatorBlacklistCleared a => some a
  | _ => none

theorem replay_take_succ (C : Chain L) {p : Nat} {e : Event} (h : C.log[p]? = some e) :
    replay (C.log.take (p + 1)) = (replay (C.log.take p)).apply e := by
  rw [List.take_add_one, h, replay, List.foldl_append]
  rfl

theorem replay_take_end (C : Chain L) {p : Nat} (h : C.log[p]? = none) :
    replay (C.log.take (p + 1)) = replay (C.log.take p) := by
  rw [List.take_add_one, h]
  rw [Option.toList_none, List.append_nil]

/-- An event leaves the lists of other addresses alone. -/
theorem apply_lists (q : ContentBlacklist.Projection) {e : Event} {a : Address}
    (h : touchedBy e ≠ some a) :
    (q.apply e).origin a = q.origin a ∧ (q.apply e).operator a = q.operator a := by
  unfold ContentBlacklist.Projection.apply
  split
  · exact ⟨rfl, rfl⟩
  · exact ⟨rfl, rfl⟩
  · rename_i b
    refine ⟨rfl, Function.update_of_ne ?_ _ _⟩
    rintro rfl
    exact h rfl
  · rename_i b
    refine ⟨rfl, Function.update_of_ne ?_ _ _⟩
    rintro rfl
    exact h rfl
  · rename_i b v
    refine ⟨Function.update_of_ne ?_ _ _, rfl⟩
    rintro rfl
    exact h rfl
  · exact ⟨rfl, rfl⟩

/-- The log with the union of the two lists as its truth. -/
def Chain.ledger (C : Chain L) : Ledger Address Bool Address where
  length := C.log.length
  truth := C.denied
  block := C.block
  through := C.through
  group := id
  touched := fun i => (C.log[i]?).bind touchedBy
  through_mono := C.through_mono
  block_le_iff := C.block_le_iff
  frame := by
    intro i a h
    unfold Chain.denied
    cases he : C.log[i]? with
    | none => rw [replay_take_end C he]
    | some e =>
      rw [he] at h
      rcases apply_lists (a := a) (replay (C.log.take i)) h with ⟨horigin, hoperator⟩
      rw [replay_take_succ C he, horigin, hoperator]

/-- No emergency origin has lapsed at the end of a block. -/
def Chain.NoLapse (C : Chain L) : Prop :=
  ∀ n a, isOriginBlacklisted (C.world n).contract (C.world n).now a =
    (C.world n).contract.originBlacklisted a

/-- The union of the two lists at the end of a block. -/
theorem Chain.denied_through (C : Chain L) (hlapse : C.NoLapse) {n : Nat} (h : n ≤ C.last)
    (a : Address) :
    C.denied (C.through n) a = (isOriginBlacklisted (C.world n).contract (C.world n).now a ||
      (C.world n).contract.isOperatorBlacklisted a) := by
  unfold Chain.denied
  rw [C.take_through h, ← (C.reachable_world n).projection, hlapse n a]
  rfl

/-! ## Honest enumerations -/

/-- Reading the pages of a list gives its members. -/
theorem readPages_page {α : Type} [DecidableEq α] (xs : List α) {limit : Nat} (hlimit : 0 < limit)
    (turns offset : Nat) (raw : Finset α) (hturns : xs.length ≤ offset + turns) :
    readPages xs.length (fun o => .ok (page xs o limit)) turns offset raw =
      .ok (raw ∪ (xs.drop offset).toFinset) := by
  induction turns generalizing offset raw with
  | zero =>
    rw [Nat.add_zero] at hturns
    rw [readPages, List.drop_eq_nil_of_le hturns, List.toFinset_nil, Finset.union_empty]
  | succ turns ih =>
    rw [readPages]
    split
    · rename_i hlt
      have hpage := page_eq xs offset limit
      have hlength : (page xs offset limit).length = min limit (xs.length - offset) := by
        rw [hpage, List.length_take, List.length_drop]
      have hnonempty : (page xs offset limit).isEmpty = false := by
        rw [List.isEmpty_eq_false_iff, ← List.length_pos_iff, hlength]
        omega
      simp only [bind, Except.bind, hnonempty, Bool.false_eq_true, if_false]
      rw [ih _ _ (by rw [hlength]; omega), Finset.union_assoc, ← List.toFinset_append, hpage,
        List.length_take, List.length_drop]
      have hrest : (xs.drop offset).take limit ++
          xs.drop (offset + min limit (xs.length - offset)) = xs.drop offset := by
        rw [List.take_eq_take_min, List.length_drop, ← List.drop_drop, List.take_append_drop]
      rw [hrest]
    · rename_i hge
      rw [List.drop_eq_nil_of_le (Nat.not_lt.mp hge), List.toFinset_nil, Finset.union_empty]

/-- An enumeration of the chain's answers finds the union of the two lists. -/
theorem Chain.enumerateAddressUnion_reads (C : Chain L) (operator : Address) (n block : Nat) :
    ∃ origins, enumerateAddressUnion (C.reads operator n) block = .ok origins ∧
      ∀ a, a ∈ origins ↔ (isOriginBlacklisted (C.world n).contract (C.world n).now a ||
        (C.world n).contract.isOperatorBlacklisted a) = true := by
  have hlisted := (C.reachable_world n).inv.listed
  have hdenied : ∀ a, (C.reads operator n).denied a =
      some (isOriginBlacklisted (C.world n).contract (C.world n).now a ||
        (C.world n).contract.isOperatorBlacklisted a) := by
    intro a
    unfold Reads.denied Chain.reads
    dsimp only
    cases isOriginBlacklisted (C.world n).contract (C.world n).now a with
    | false => rfl
    | true => rfl
  have hraw := readPages_page (C.world n).contract.blacklistedAddrs
    (show 0 < blacklistEnumPageSize by decide) (C.world n).contract.blacklistedAddrs.length 0 ∅
    (by omega)
  rw [List.drop_zero, Finset.empty_union] at hraw
  refine ⟨(C.world n).contract.blacklistedAddrs.toFinset.filter
    fun a => (C.reads operator n).denied a = some true, ?_, ?_⟩
  · unfold enumerateAddressUnion
    simp only [bind_eq_ok]
    refine ⟨_, rfl, _, hraw, ?_⟩
    rw [if_neg, if_pos]
    · rw [Finset.filter_eq_empty_iff]
      intro a _
      rw [hdenied a]
      exact Option.some_ne_none _
    · rw [List.toFinset_card_of_nodup hlisted.nodup, ne_eq, not_not]
  · intro a
    rw [Finset.mem_filter, List.mem_toFinset, hdenied a, Option.some.injEq]
    refine ⟨fun h => h.2, fun h => ⟨hlisted.mem a ?_, h⟩⟩
    rwa [Bool.or_eq_true] at h

/-- A successful enumeration of the chain's answers at a block. -/
theorem Chain.bootstrapSnapshot_reads {C : Chain L} {operator : Address} {n : Nat}
    {snapshot : BootstrapSnapshot} (h : bootstrapSnapshot (C.reads operator n) = .ok snapshot) :
    snapshot.block = n ∧ ∀ a, a ∈ snapshot.origins ↔
      (isOriginBlacklisted (C.world n).contract (C.world n).now a ||
        (C.world n).contract.isOperatorBlacklisted a) = true := by
  simp only [bootstrapSnapshot, bind_eq_ok, pure_eq_ok] at h
  rcases h with ⟨block, hblock, origins, horigins, known, -, rfl⟩
  rcases C.enumerateAddressUnion_reads operator n block with ⟨origins', horigins', hmem⟩
  rw [horigins'] at horigins
  rcases Except.ok.inj horigins with rfl
  exact ⟨(Except.ok.inj hblock).symm, hmem⟩

/-! ## Chains by evaluation -/

/-- One call, or nothing if it reverts. -/
def nextWorld (L : Sets) (w : ContentBlacklist.World)
    (call : ContentBlacklist.Tx × ContentBlacklist.Call) : ContentBlacklist.World :=
  (w.apply L call).getD w

theorem nextWorld_steps (w : ContentBlacklist.World)
    (call : ContentBlacklist.Tx × ContentBlacklist.Call) :
    Relation.ReflTransGen (ContentBlacklist.Step L) w (nextWorld L w call) := by
  unfold nextWorld
  cases hcall : w.apply L call with
  | none => exact .refl
  | some w' => exact .single (ContentBlacklist.World.apply_step hcall)

/-- A chain with one call a block, over fixed bonds. -/
def Chain.ofCalls (w : ContentBlacklist.World) (hw : Reachable L w)
    (calls : List (ContentBlacklist.Tx × ContentBlacklist.Call)) (bond : CapacityBond.State) :
    Chain L where
  last := calls.length
  world := fun n => (calls.take n).foldl (nextWorld L) w
  bond := fun _ => bond
  reachable := hw
  follows := by
    intro n
    rw [List.take_add_one, List.foldl_append]
    cases calls[n]? with
    | none => exact .refl
    | some call => exact nextWorld_steps _ call

/-- The actions of the sample runs: every read answers, nothing is in scope unless said so, and
evictions succeed. -/
inductive SampleAction where
  | mine
  | tail
  | resync (n : Nat)
  | crash
  | boot (n : Nat)

/-- Scope reads that find nothing, and evictions that succeed. -/
def idleOracle : Oracle := ⟨fun _ => some false, fun _ => .done⟩

def SampleAction.toAction (C : Chain L) (operator : Address) : SampleAction → Action
  | .mine => .mine
  | .tail => .tail idleOracle
  | .resync n => .resync (C.reads operator n)
  | .crash => .crash
  | .boot n => .boot (C.reads operator n) idleOracle []

end Decdn.Node.BlacklistWatcher
