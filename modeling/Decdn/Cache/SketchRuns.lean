import Decdn.Cache.Sketch
import Mathlib.Data.List.Sort
import Mathlib.Data.List.Induction
import Mathlib.Data.List.GetD
import Mathlib.Data.List.Count

/-!
# The lazy sketch against the eager one

Every counter of the sketch is an aged counter: its value is determined by how many
sightings of each epoch touch it and by the epoch its shard is caught up to.  The lazy
and the eager sketch both hold that value, so they answer alike whatever reads and cold
shards come between.

Main results:

- Theorem `Tracks.commit`: committing a sighting keeps the counters on the aged value,
  exactly when it comes in order, from above when it comes late.
- Theorem `Coupled.run`: the lazy and the eager sketch stay coupled through every sequence
  of calls.
- Theorem `Coupled.estimate_eq`: coupled sketches give the same estimates.
- Theorem `Coupled.own_le_estimate`: an estimate is at least the key's own aged count.
-/

namespace Decdn.Cache.Sketch

/-! ## Sightings -/

/-- One counted access: the epoch of its slot and its key. -/
structure Sighting where
  epoch : Nat
  key : Hash
deriving DecidableEq

/-- How many sightings of epoch `e` touch cell `i`. -/
def hits (cols i : Nat) (log : List Sighting) (e : Nat) : Nat :=
  log.countP fun x => decide (x.epoch = e ∧ Touches cols x.key i)

/-- The sightings of a shard. -/
def routed (count j : Nat) (log : List Sighting) : List Sighting :=
  log.filter fun x => decide (shardIdx count x.key = j)

/-- A further sighting that touches the cell is one more hit in its epoch. -/
theorem hits_append_touches {cols i : Nat} {log : List Sighting} {x : Sighting}
    (h : Touches cols x.key i) :
    hits cols i (log ++ [x]) =
      Function.update (hits cols i log) x.epoch (hits cols i log x.epoch + 1) := by
  funext e
  by_cases he : e = x.epoch
  · subst he
    simp [hits, h]
  · rw [Function.update_of_ne he]
    simp [hits, Ne.symm he]

/-- A further sighting elsewhere changes nothing. -/
theorem hits_append_other {cols i : Nat} {log : List Sighting} {x : Sighting}
    (h : ¬ Touches cols x.key i) : hits cols i (log ++ [x]) = hits cols i log := by
  funext e
  simp [hits, h]

/-- There are no hits after the last epoch. -/
theorem hits_eq_zero {cols i e E : Nat} {log : List Sighting} (h : ∀ x ∈ log, x.epoch ≤ E)
    (he : E < e) : hits cols i log e = 0 := by
  unfold hits
  rw [List.countP_eq_zero]
  intro x hx hhit
  have hle := h x hx
  have heq := (of_decide_eq_true hhit).1
  omega

/-- The order of the sightings does not matter. -/
theorem hits_perm {cols i : Nat} {log log' : List Sighting} (h : log.Perm log') :
    hits cols i log = hits cols i log' := by
  funext e
  exact h.countP_eq _

/-! ## Counters that follow the aged value -/

/-- A comparison of counters that halving and counting respect. -/
structure Compatible (R : Nat → Nat → Prop) : Prop where
  zero : R 0 0
  div : ∀ {a b} k, R a b → R (a / 2 ^ k) (b / 2 ^ k)
  bump : ∀ {a b}, R a b → R (Decdn.bump u8Max a) (Decdn.bump u8Max b)

/-- Equality is respected. -/
theorem compatible_eq : Compatible (· = ·) where
  zero := rfl
  div := fun _ h => by rw [h]
  bump := fun h => by rw [h]

/-- Being at least is respected. -/
theorem compatible_ge : Compatible (fun a b => b ≤ a) where
  zero := Nat.le_refl 0
  div := fun _ h => Nat.div_le_div_right h
  bump := fun h => by
    simp only [Decdn.bump]
    omega

/-- The counters of a shard compare to the aged counts of its sightings. -/
structure Shard.Tracks (R : Nat → Nat → Prop) (cols : Nat) (log : List Sighting) (sh : Shard) :
    Prop where
  cols_eq : sh.sketch.cols = cols
  length_eq : sh.sketch.counters.length = rows * cols
  byte : ∀ (i c : Nat), sh.sketch.counters[i]? = some c → c ≤ u8Max
  caught : ∀ x ∈ log, x.epoch ≤ sh.epoch
  counts : ∀ (i c : Nat), sh.sketch.counters[i]? = some c →
    R c (aged u8Max (hits cols i log) sh.epoch)

variable {R : Nat → Nat → Prop} {cols : Nat} {log : List Sighting} {sh : Shard}

/-- A shift by more than a `u32` is still a shift to zero. -/
theorem shr_min (c times : Nat) : shr c (min times u32Max) = shr c times := by
  unfold shr u32Max
  by_cases h : times < 8
  · rw [Nat.min_eq_left (by omega)]
  · rw [if_neg h, if_neg (by omega)]

/-- Catching up keeps the comparison. -/
theorem Shard.Tracks.catchUp (hR : Compatible R) (h : sh.Tracks R cols log) (epoch : Nat) :
    (Sketch.catchUp sh epoch).Tracks R cols log := by
  unfold Sketch.catchUp
  dsimp only
  split
  · exact h
  · rename_i hpos
    refine ⟨?_, ?_, ?_, ?_, ?_⟩
    · simpa using h.cols_eq
    · simpa using h.length_eq
    · intro i c' hc'
      rw [CountMinSketch.halve_getElem?, Option.map_eq_some_iff] at hc'
      rcases hc' with ⟨c, hc, rfl⟩
      rw [shr_eq_div (h.byte i c hc)]
      exact Nat.le_trans (Nat.div_le_self _ _) (h.byte i c hc)
    · intro x hx
      have := h.caught x hx
      change x.epoch ≤ epoch
      omega
    · intro i c' hc'
      rw [CountMinSketch.halve_getElem?, Option.map_eq_some_iff] at hc'
      rcases hc' with ⟨c, hc, rfl⟩
      rw [shr_min, shr_eq_div (h.byte i c hc)]
      -- the skipped windows hold no sighting of the shard
      have hskip : aged u8Max (hits cols i log) epoch =
          aged u8Max (hits cols i log) sh.epoch / 2 ^ (epoch - sh.epoch) := by
        have hsum : epoch = sh.epoch + (epoch - sh.epoch) := by omega
        conv_lhs => rw [hsum]
        exact aged_skip fun j hlo _ => hits_eq_zero h.caught hlo
      rw [hskip]
      exact hR.div _ (h.counts i c hc)

/-- Catching up never turns the epoch back, and reaches the epoch asked for. -/
theorem catchUp_epoch (sh : Shard) (epoch : Nat) : (catchUp sh epoch).epoch = max sh.epoch epoch := by
  unfold catchUp
  dsimp only
  split
  · omega
  · change epoch = max sh.epoch epoch
    omega

/-- Counting a sighting keeps the comparison: exactly if it is of the shard's epoch, and
from above if the comparison allows the aged value to fall. -/
theorem Shard.Tracks.increment (hR : Compatible R) (hcols : 0 < cols) (h : sh.Tracks R cols log)
    {x : Sighting} (hle : x.epoch ≤ sh.epoch)
    (hlate : x.epoch = sh.epoch ∨ ∀ {a b b'}, R a b → b' ≤ b → R a b') :
    Shard.Tracks R cols (log ++ [x]) { sh with sketch := sh.sketch.increment x.key } := by
  have hpos : 0 < sh.sketch.cols := by
    rw [h.cols_eq]
    exact hcols
  refine ⟨?_, ?_, ?_, ?_, ?_⟩
  · simpa using h.cols_eq
  · simpa using h.length_eq
  · intro i c' hc'
    rw [CountMinSketch.increment_getElem? _ hpos, Option.map_eq_some_iff] at hc'
    rcases hc' with ⟨c, hc, rfl⟩
    have := h.byte i c hc
    unfold bump
    split <;> omega
  · intro y hy
    rcases List.mem_append.1 hy with hy | hy
    · exact h.caught y hy
    · rw [List.mem_singleton.1 hy]
      exact hle
  · intro i c' hc'
    rw [CountMinSketch.increment_getElem? _ hpos, Option.map_eq_some_iff] at hc'
    rcases hc' with ⟨c, hc, rfl⟩
    have hcount := h.counts i c hc
    rw [h.cols_eq]
    by_cases ht : Touches cols x.key i
    · rw [if_pos ht, hits_append_touches ht]
      rcases hlate with heq | hlax
      · change R _ (aged u8Max _ sh.epoch)
        rw [heq, aged_update_last]
        exact hR.bump hcount
      · exact hlax (hR.bump hcount) (aged_update_le u8Max _ x.epoch sh.epoch)
    · rw [if_neg ht, hits_append_other ht]
      exact hcount

/-- Only which sightings there are matters, not their order. -/
theorem Shard.Tracks.perm {log' : List Sighting} (h : sh.Tracks R cols log) (hp : log.Perm log') :
    sh.Tracks R cols log' where
  cols_eq := h.cols_eq
  length_eq := h.length_eq
  byte := h.byte
  caught := fun x hx => h.caught x (hp.mem_iff.2 hx)
  counts := fun i c hc => by
    rw [← hits_perm hp]
    exact h.counts i c hc

/-- Two shards on the same sightings and epoch hold the same counters. -/
theorem Shard.Tracks.sketch_eq {sh' : Shard} (h : sh.Tracks (· = ·) cols log)
    (h' : sh'.Tracks (· = ·) cols log) (hepoch : sh.epoch = sh'.epoch) : sh.sketch = sh'.sketch := by
  have hcounters : sh.sketch.counters = sh'.sketch.counters := by
    apply List.ext_getElem (by rw [h.length_eq, h'.length_eq])
    intro i hi hi'
    have hc := h.counts i _ (List.getElem?_eq_getElem hi)
    have hc' := h'.counts i _ (List.getElem?_eq_getElem hi')
    rw [hc, hc', hepoch]
  have hcols : sh.sketch.cols = sh'.sketch.cols := by rw [h.cols_eq, h'.cols_eq]
  cases hs : sh.sketch
  cases hs' : sh'.sketch
  simp_all

/-! ## Sharded sketches -/

/-- Every shard follows the sightings routed to it. -/
def Tracks (R : Nat → Nat → Prop) (cols : Nat) (log : List Sighting) (s : ShardedCountMinSketch) :
    Prop :=
  ∀ (j : Nat) (sh : Shard), s.shards[j]? = some sh → sh.Tracks R cols (routed s.shards.length j log)

/-- The sighting of another shard is not routed here. -/
theorem routed_append_other {count j : Nat} {x : Sighting} (h : shardIdx count x.key ≠ j) :
    routed count j (log ++ [x]) = routed count j log := by
  simp [routed, h]

/-- The sighting of this shard comes last. -/
theorem routed_append_self (count : Nat) (x : Sighting) :
    routed count (shardIdx count x.key) (log ++ [x]) =
      routed count (shardIdx count x.key) log ++ [x] := by
  simp [routed]

@[simp]
theorem commit_length (s : ShardedCountMinSketch) (epoch : Nat) (key : Hash) :
    (s.commit epoch key).shards.length = s.shards.length := by
  simp [ShardedCountMinSketch.commit]

/-- A shard after a commit: the key's own shard caught up and counted, the others as before. -/
theorem commit_shard {s : ShardedCountMinSketch} {epoch j : Nat} {key : Hash} {sh' : Shard}
    (h : (s.commit epoch key).shards[j]? = some sh') :
    (j ≠ shardIdx s.shards.length key ∧ s.shards[j]? = some sh') ∨
    (j = shardIdx s.shards.length key ∧ ∃ sh, s.shards[j]? = some sh ∧
      sh' = { catchUp sh epoch with sketch := (catchUp sh epoch).sketch.increment key }) := by
  simp only [ShardedCountMinSketch.commit, List.getElem?_modify] at h
  by_cases hj : shardIdx s.shards.length key = j
  · right
    refine ⟨hj.symm, ?_⟩
    simp only [hj, if_true, Option.map_eq_map, Option.map_eq_some_iff] at h
    rcases h with ⟨sh, hsh, rfl⟩
    exact ⟨sh, hsh, rfl⟩
  · left
    simp only [hj, if_false, Option.map_eq_map, Option.map_id'] at h
    exact ⟨fun heq => hj heq.symm, h⟩

/-- Committing a sighting keeps every shard on its aged counts: exactly when no shard is
ahead of it, from above when the comparison allows a late one. -/
theorem Tracks.commit (hR : Compatible R) (hcols : 0 < cols) {s : ShardedCountMinSketch}
    (h : Tracks R cols log s) (x : Sighting)
    (hlate : (∀ sh ∈ s.shards, sh.epoch ≤ x.epoch) ∨ ∀ {a b b'}, R a b → b' ≤ b → R a b') :
    Tracks R cols (log ++ [x]) (s.commit x.epoch x.key) := by
  intro j sh' hsh'
  rw [commit_length]
  rcases commit_shard hsh' with ⟨hj, hsh⟩ | ⟨rfl, sh, hsh, rfl⟩
  · rw [routed_append_other (fun heq => hj heq.symm)]
    exact h j sh' hsh
  · rw [routed_append_self]
    have hepoch := catchUp_epoch sh x.epoch
    apply ((h _ sh hsh).catchUp hR x.epoch).increment hR hcols
    · omega
    · rcases hlate with hle | hlax
      · left
        have := hle sh (List.mem_of_getElem? hsh)
        omega
      · right
        exact hlax

/-- A shard after a read: the key's own shard caught up, the others as before. -/
theorem read_shard {s : ShardedCountMinSketch} {epoch j : Nat} {key : Hash} {sh' : Shard}
    (h : (s.read epoch key).2.shards[j]? = some sh') :
    s.shards[j]? = some sh' ∨
    ∃ sh, s.shards[j]? = some sh ∧ sh' = catchUp sh epoch := by
  unfold ShardedCountMinSketch.read at h
  split at h
  · exact Or.inl h
  · rename_i sh hsh
    dsimp only at h
    rw [List.getElem?_set] at h
    split at h
    · rename_i hj
      subst hj
      split at h
      · cases h
        exact Or.inr ⟨sh, hsh, rfl⟩
      · cases h
    · exact Or.inl h

@[simp]
theorem read_length (s : ShardedCountMinSketch) (epoch : Nat) (key : Hash) :
    (s.read epoch key).2.shards.length = s.shards.length := by
  unfold ShardedCountMinSketch.read
  split <;> simp

/-- Reading keeps every shard on its aged counts. -/
theorem Tracks.read (hR : Compatible R) {s : ShardedCountMinSketch} (h : Tracks R cols log s)
    (epoch : Nat) (key : Hash) : Tracks R cols log (s.read epoch key).2 := by
  intro j sh' hsh'
  rw [read_length]
  rcases read_shard hsh' with hsh | ⟨sh, hsh, rfl⟩
  · exact h j sh' hsh
  · exact (h j sh hsh).catchUp hR epoch

/-! ## The lazy and the eager sketch side by side -/

/-- A call on the sketch. -/
inductive Op
  | increment (key : Hash)
  | estimate (key : Hash)
deriving DecidableEq

/-- The lazy sketch after a call. -/
def ShardedCountMinSketch.step (s : ShardedCountMinSketch) : Op → ShardedCountMinSketch
  | .increment key => s.increment key
  | .estimate key => (s.estimate key).2

/-- The eager sketch after a call. -/
def EagerSketch.step (s : EagerSketch) : Op → EagerSketch
  | .increment key => s.increment key
  | .estimate _ => s

/-- The lazy sketch after a sequence of calls. -/
def runLazy (cols : Nat) (ops : List Op) : ShardedCountMinSketch :=
  ops.foldl ShardedCountMinSketch.step (ShardedCountMinSketch.new cols)

/-- The eager sketch after a sequence of calls. -/
def runEager (cols : Nat) (ops : List Op) : EagerSketch :=
  ops.foldl EagerSketch.step (EagerSketch.new cols)

/-- The observations in a sequence of calls. -/
def observationsIn (ops : List Op) : Nat :=
  ops.countP fun op => match op with
    | .increment _ => true
    | .estimate _ => false

/-- A single key's own aged count: the observation count, and the key's increments
saturated at a byte and halved once per elapsed window. -/
def ownStep (window : Nat) (key : Hash) (s : Nat × Nat) : Op → Nat × Nat
  | .increment k =>
    let halved := if (s.1 + 1) % window = 0 then s.2 / 2 else s.2
    (s.1 + 1, if k = key then bump u8Max halved else halved)
  | .estimate _ => s

/-- The own aged count of `key` after a sequence of calls. -/
def ownCount (cols : Nat) (key : Hash) (ops : List Op) : Nat :=
  (ops.foldl (ownStep (windowOf cols) key) (0, 0)).2

/-- How many sightings of epoch `e` are of `key` itself. -/
def ownHits (key : Hash) (log : List Sighting) (e : Nat) : Nat :=
  log.countP fun x => decide (x.epoch = e ∧ x.key = key)

/-- The eager shards are on the aged counts of the current epoch. -/
def EagerTracks (cols : Nat) (log : List Sighting) (s : EagerSketch) : Prop :=
  ∀ (j : Nat) (sketch : CountMinSketch), s.shards[j]? = some sketch →
    (Shard.mk sketch (s.observations / s.window)).Tracks (· = ·) cols
      (routed s.shards.length j log)

/-- The epoch moves on exactly when the count crosses a multiple of the window. -/
theorem epoch_succ (n w : Nat) :
    (n + 1) / w = if (n + 1) % w = 0 then n / w + 1 else n / w := by
  rw [Nat.succ_div]
  by_cases h : (n + 1) % w = 0
  · rw [if_pos (Nat.dvd_of_mod_eq_zero h), if_pos h]
  · rw [if_neg (fun hd => h (Nat.mod_eq_zero_of_dvd hd)), if_neg h]
    rfl

/-- Halving every counter at a boundary is catching up by one epoch. -/
theorem EagerTracks.tick {s : EagerSketch} (h : EagerTracks cols log s) :
    EagerTracks cols log s.tick := by
  intro j sketch hsketch
  unfold EagerSketch.tick at hsketch ⊢
  dsimp only at hsketch ⊢
  rw [epoch_succ]
  by_cases hcross : (s.observations + 1) % s.window = 0
  · simp only [hcross, if_true, List.length_map, List.getElem?_map, Option.map_eq_some_iff]
      at hsketch ⊢
    rcases hsketch with ⟨before, hbefore, rfl⟩
    have hcaught := (h j before hbefore).catchUp compatible_eq (s.observations / s.window + 1)
    simpa [catchUp, u32Max] using hcaught
  · simp only [hcross, if_false] at hsketch ⊢
    exact h j sketch hsketch

/-- Counting a sighting keeps the eager shards on the aged counts. -/
theorem EagerTracks.increment (hcols : 0 < cols) {s : EagerSketch} (h : EagerTracks cols log s)
    (key : Hash) :
    EagerTracks cols (log ++ [⟨(s.observations + 1) / s.window, key⟩]) (s.increment key) := by
  have htick := h.tick
  have hlen : s.tick.shards.length = s.shards.length := by
    unfold EagerSketch.tick
    dsimp only
    split <;> simp
  intro j sketch hsketch
  simp only [EagerSketch.increment, List.getElem?_modify, Option.map_eq_map] at hsketch
  simp only [EagerSketch.increment, List.length_modify]
  change (Shard.mk sketch ((s.observations + 1) / s.window)).Tracks _ _ _
  rw [hlen]
  by_cases hj : shardIdx s.shards.length key = j
  · simp only [hj, if_true, Option.map_eq_some_iff] at hsketch
    rcases hsketch with ⟨before, hbefore, rfl⟩
    have hbase := htick j before hbefore
    rw [hlen] at hbase
    subst hj
    rw [routed_append_self s.shards.length ⟨(s.observations + 1) / s.window, key⟩]
    exact hbase.increment compatible_eq hcols (Nat.le_refl _) (Or.inl rfl)
  · simp only [hj, if_false, Option.map_id'] at hsketch
    have hbase := htick j sketch hsketch
    rw [hlen] at hbase
    rw [routed_append_other (by exact hj)]
    exact hbase

/-- The lazy and the eager sketch count the same sightings; the lazy shards may be behind
the clock but never ahead of it. -/
structure Coupled (cols : Nat) (log : List Sighting) (n : Nat) (s : ShardedCountMinSketch)
    (t : EagerSketch) : Prop where
  lazy_tracks : Tracks (· = ·) (max (perShard cols) 1) log s
  eager_tracks : EagerTracks (max (perShard cols) 1) log t
  lazy_length : s.shards.length = shardCount cols
  eager_length : t.shards.length = shardCount cols
  lazy_window : s.window = windowOf cols
  eager_window : t.window = windowOf cols
  lazy_clock : s.observations = n
  eager_clock : t.observations = n
  behind : ∀ sh ∈ s.shards, sh.epoch ≤ n / windowOf cols

/-- A new shard is on the aged counts of no sightings. -/
theorem Shard.Tracks.new (hR : Compatible R) (cols : Nat) :
    Shard.Tracks R (max cols 1) [] ⟨CountMinSketch.new cols, 0⟩ where
  cols_eq := rfl
  length_eq := by simp [CountMinSketch.new]
  byte := by
    intro i c hc
    simp only [CountMinSketch.new, List.getElem?_replicate] at hc
    split at hc <;> simp at hc
    omega
  caught := by simp
  counts := by
    intro i c hc
    simp only [CountMinSketch.new, List.getElem?_replicate] at hc
    split at hc <;> simp at hc
    subst hc
    simpa [aged, hits] using hR.zero

/-- A new sketch follows the empty log. -/
theorem Tracks.new (hR : Compatible R) (cols : Nat) :
    Tracks R (max (perShard cols) 1) [] (ShardedCountMinSketch.new cols) := by
  intro j sh hsh
  simp only [ShardedCountMinSketch.new, List.getElem?_replicate] at hsh
  split at hsh
  · cases hsh
    exact Shard.Tracks.new hR _
  · cases hsh

/-- New sketches are coupled. -/
theorem Coupled.new (cols : Nat) :
    Coupled cols [] 0 (ShardedCountMinSketch.new cols) (EagerSketch.new cols) where
  lazy_tracks := Tracks.new compatible_eq cols
  eager_tracks := by
    intro j sketch hsketch
    simp only [EagerSketch.new, List.getElem?_replicate] at hsketch
    split at hsketch
    · cases hsketch
      simpa [EagerSketch.new, routed] using Shard.Tracks.new compatible_eq (perShard cols)
    · cases hsketch
  lazy_length := by simp [ShardedCountMinSketch.new]
  eager_length := by simp [EagerSketch.new]
  lazy_window := rfl
  eager_window := rfl
  lazy_clock := rfl
  eager_clock := rfl
  behind := by
    intro sh hsh
    rw [List.eq_of_mem_replicate hsh]
    exact Nat.zero_le _

/-- While the clock has not wrapped, `increment` commits at the next slot. -/
theorem increment_eq {s : ShardedCountMinSketch} (h : s.observations + 1 < 2 ^ 64) (key : Hash) :
    s.increment key =
      ({ s with observations := s.observations + 1 } : ShardedCountMinSketch).commit
        ((s.observations + 1) / s.window) key := by
  have hobserved : min (s.observations + 1) u64Max = s.observations + 1 := by
    unfold u64Max
    omega
  simp only [ShardedCountMinSketch.increment, ShardedCountMinSketch.claimSlot, hobserved]
  rw [Nat.mod_eq_of_lt h]

/-- The epoch of a shard after a commit is its own or the committed one. -/
theorem commit_epoch_le {s : ShardedCountMinSketch} {epoch bound : Nat} {key : Hash}
    (h : ∀ sh ∈ s.shards, sh.epoch ≤ bound) (he : epoch ≤ bound) :
    ∀ sh ∈ (s.commit epoch key).shards, sh.epoch ≤ bound := by
  intro sh' hsh'
  rcases List.getElem?_of_mem hsh' with ⟨j, hj⟩
  rcases commit_shard hj with ⟨-, hsh⟩ | ⟨-, sh, hsh, rfl⟩
  · exact h sh' (List.mem_of_getElem? hsh)
  · have hold := h sh (List.mem_of_getElem? hsh)
    have hepoch := catchUp_epoch sh epoch
    change (catchUp sh epoch).epoch ≤ bound
    omega

/-- The epoch of a shard after a read is its own or the loaded one. -/
theorem read_epoch_le {s : ShardedCountMinSketch} {epoch bound : Nat} {key : Hash}
    (h : ∀ sh ∈ s.shards, sh.epoch ≤ bound) (he : epoch ≤ bound) :
    ∀ sh ∈ (s.read epoch key).2.shards, sh.epoch ≤ bound := by
  intro sh' hsh'
  rcases List.getElem?_of_mem hsh' with ⟨j, hj⟩
  rcases read_shard hj with hsh | ⟨sh, hsh, rfl⟩
  · exact h sh' (List.mem_of_getElem? hsh)
  · have hold := h sh (List.mem_of_getElem? hsh)
    have hepoch := catchUp_epoch sh epoch
    omega

@[simp]
theorem read_observations (s : ShardedCountMinSketch) (epoch : Nat) (key : Hash) :
    (s.read epoch key).2.observations = s.observations := by
  unfold ShardedCountMinSketch.read
  split <;> rfl

@[simp]
theorem read_window (s : ShardedCountMinSketch) (epoch : Nat) (key : Hash) :
    (s.read epoch key).2.window = s.window := by
  unfold ShardedCountMinSketch.read
  split <;> rfl

/-- Counting a sighting in both sketches keeps them coupled. -/
theorem Coupled.increment {n : Nat} {s : ShardedCountMinSketch} {t : EagerSketch}
    (h : Coupled cols log n s t) (hn : n + 1 < 2 ^ 64) (key : Hash) :
    Coupled cols (log ++ [⟨(n + 1) / windowOf cols, key⟩]) (n + 1) (s.increment key)
      (t.increment key) := by
  have hpos : 0 < max (perShard cols) 1 := by omega
  have hgrow : n / windowOf cols ≤ (n + 1) / windowOf cols := Nat.div_le_div_right (by omega)
  have hbehind : ∀ sh ∈ s.shards, sh.epoch ≤ (n + 1) / windowOf cols := fun sh hsh =>
    Nat.le_trans (h.behind sh hsh) hgrow
  have hclock := h.lazy_clock
  rw [increment_eq (by omega) key, h.lazy_clock, h.lazy_window]
  refine ⟨?_, ?_, ?_, ?_, ?_, ?_, rfl, ?_, ?_⟩
  · exact Tracks.commit compatible_eq hpos
      (s := { shards := s.shards, observations := n + 1, window := windowOf cols })
      h.lazy_tracks ⟨(n + 1) / windowOf cols, key⟩ (Or.inl hbehind)
  · have heager := h.eager_tracks.increment hpos key
    rw [h.eager_clock, h.eager_window] at heager
    exact heager
  · simpa using h.lazy_length
  · have hlen := h.eager_length
    simp only [EagerSketch.increment, EagerSketch.tick, List.length_modify]
    split <;> simpa using hlen
  · rfl
  · exact h.eager_window
  · change t.observations + 1 = n + 1
    rw [h.eager_clock]
  · exact commit_epoch_le hbehind (Nat.le_refl _)

/-- A read of the lazy sketch keeps the sketches coupled. -/
theorem Coupled.estimate {n : Nat} {s : ShardedCountMinSketch} {t : EagerSketch}
    (h : Coupled cols log n s t) (key : Hash) : Coupled cols log n (s.estimate key).2 t := by
  have hepoch : s.observations / s.window = n / windowOf cols := by
    rw [h.lazy_clock, h.lazy_window]
  unfold ShardedCountMinSketch.estimate
  rw [hepoch]
  refine ⟨?_, h.eager_tracks, ?_, h.eager_length, ?_, h.eager_window, ?_, h.eager_clock, ?_⟩
  · exact h.lazy_tracks.read compatible_eq _ key
  · simpa using h.lazy_length
  · simpa using h.lazy_window
  · simpa using h.lazy_clock
  · exact read_epoch_le h.behind (Nat.le_refl _)

/-- A key's own count is the aged count of its own sightings. -/
theorem own_step {window n v : Nat} {key k : Hash}
    (hlog : ∀ x ∈ log, x.epoch ≤ n / window) (h : v = aged u8Max (ownHits key log) (n / window)) :
    (ownStep window key (n, v) (.increment k)).2 =
      aged u8Max (ownHits key (log ++ [⟨(n + 1) / window, k⟩])) ((n + 1) / window) := by
  have hhalved : (if (n + 1) % window = 0 then v / 2 else v) =
      aged u8Max (ownHits key log) ((n + 1) / window) := by
    rw [epoch_succ]
    split
    · rw [aged_skip (k := 1), h, Nat.pow_one]
      intro i hlo _
      unfold ownHits
      rw [List.countP_eq_zero]
      intro x hx hhit
      have hle := hlog x hx
      have heq := (of_decide_eq_true hhit).1
      omega
    · exact h
  simp only [ownStep, hhalved]
  by_cases hk : k = key
  · rw [if_pos hk, ← aged_update_last]
    congr 1
    funext e
    by_cases he : e = (n + 1) / window
    · subst he
      simp [ownHits, hk]
    · rw [Function.update_of_ne he]
      simp [ownHits, Ne.symm he]
  · rw [if_neg hk]
    congr 1
    funext e
    simp [ownHits, hk]

/-- Both sketches and a key's own count, along a sequence of calls. -/
theorem Coupled.run (cols : Nat) (key : Hash) (ops : List Op) (hn : observationsIn ops < 2 ^ 64) :
    ∃ log, Coupled cols log (observationsIn ops) (runLazy cols ops) (runEager cols ops) ∧
      (∀ x ∈ log, x.epoch ≤ observationsIn ops / windowOf cols) ∧
      ops.foldl (ownStep (windowOf cols) key) (0, 0) =
        (observationsIn ops,
          aged u8Max (ownHits key log) (observationsIn ops / windowOf cols)) := by
  induction ops using List.reverseRecOn with
  | nil =>
    refine ⟨[], Coupled.new cols, by simp, ?_⟩
    simp [observationsIn, aged, ownHits]
  | append_singleton ops op ih =>
    cases op with
    | estimate k =>
      have hcount : observationsIn (ops ++ [.estimate k]) = observationsIn ops := by
        simp [observationsIn]
      rw [hcount] at hn ⊢
      rcases ih hn with ⟨log, hcoupled, hlog, hown⟩
      refine ⟨log, ?_, hlog, ?_⟩
      · have hread := hcoupled.estimate k
        simpa [runLazy, runEager, ShardedCountMinSketch.step, EagerSketch.step] using hread
      · simpa [ownStep] using hown
    | increment k =>
      have hcount : observationsIn (ops ++ [.increment k]) = observationsIn ops + 1 := by
        simp [observationsIn]
      rw [hcount] at hn ⊢
      rcases ih (by omega) with ⟨log, hcoupled, hlog, hown⟩
      have hgrow : observationsIn ops / windowOf cols ≤ (observationsIn ops + 1) / windowOf cols :=
        Nat.div_le_div_right (by omega)
      refine ⟨log ++ [⟨(observationsIn ops + 1) / windowOf cols, k⟩], ?_, ?_, ?_⟩
      · have hboth := hcoupled.increment hn k
        simpa [runLazy, runEager, ShardedCountMinSketch.step, EagerSketch.step] using hboth
      · intro x hx
        rcases List.mem_append.1 hx with hx | hx
        · exact Nat.le_trans (hlog x hx) hgrow
        · rw [List.mem_singleton.1 hx]
      · rw [List.foldl_append, hown, List.foldl_cons, List.foldl_nil]
        exact Prod.ext rfl (own_step hlog rfl)

/-- The lazy estimate reads the same counters as the eager one. -/
theorem Coupled.estimate_eq {n : Nat} {s : ShardedCountMinSketch} {t : EagerSketch}
    (h : Coupled cols log n s t) (key : Hash) : (s.estimate key).1 = t.estimate key := by
  have hepoch : s.observations / s.window = n / windowOf cols := by
    rw [h.lazy_clock, h.lazy_window]
  have hlen : s.shards.length = t.shards.length := by rw [h.lazy_length, h.eager_length]
  unfold ShardedCountMinSketch.estimate ShardedCountMinSketch.read EagerSketch.estimate
  rw [hepoch, ← hlen]
  have hsome : s.shards[shardIdx s.shards.length key]?.isSome =
      t.shards[shardIdx s.shards.length key]?.isSome := by
    grind
  cases hlazy : s.shards[shardIdx s.shards.length key]? with
  | none =>
    cases heager : t.shards[shardIdx s.shards.length key]? with
    | none => rfl
    | some sketch => simp [hlazy, heager] at hsome
  | some sh =>
    cases heager : t.shards[shardIdx s.shards.length key]? with
    | none => simp [hlazy, heager] at hsome
    | some sketch =>
      have hcaught := (h.lazy_tracks _ sh hlazy).catchUp compatible_eq (n / windowOf cols)
      have hsketch := h.eager_tracks _ sketch heager
      rw [h.eager_clock, h.eager_window, ← hlen] at hsketch
      have hbehind := h.behind sh (List.mem_of_getElem? hlazy)
      have heq := hcaught.sketch_eq hsketch (by
        rw [catchUp_epoch]
        change max sh.epoch (n / windowOf cols) = n / windowOf cols
        omega)
      dsimp only at heq ⊢
      rw [heq]

/-- There is always a shard. -/
theorem shardCount_pos (cols : Nat) : 0 < shardCount cols := by
  unfold shardCount shardsMax
  omega

/-- The estimate of a key is at least the aged count of its own sightings. -/
theorem Coupled.own_le_estimate {n : Nat} {s : ShardedCountMinSketch} {t : EagerSketch}
    (h : Coupled cols log n s t) (key : Hash) :
    aged u8Max (ownHits key log) (n / windowOf cols) ≤ t.estimate key := by
  have hidx : shardIdx t.shards.length key < t.shards.length := by
    rw [h.eager_length]
    exact Nat.mod_lt _ (shardCount_pos cols)
  unfold EagerSketch.estimate
  rw [List.getElem?_eq_getElem hidx]
  have htracks := h.eager_tracks _ _ (List.getElem?_eq_getElem hidx)
  rw [h.eager_clock, h.eager_window] at htracks
  apply CountMinSketch.le_estimate (aged_le_cap _ _ _)
  intro row hrow
  have hcols := htracks.cols_eq
  have hlength := htracks.length_eq
  dsimp only at hcols hlength
  have hcell : cell (max (perShard cols) 1) key row < rows * max (perShard cols) 1 := by
    have hmod := Nat.mod_lt (wordAt key (row * sliceBytes))
      (show 0 < max (perShard cols) 1 by omega)
    have hrows : (row + 1) * max (perShard cols) 1 ≤ rows * max (perShard cols) 1 :=
      Nat.mul_le_mul_right _ hrow
    rw [Nat.add_mul, Nat.one_mul] at hrows
    unfold cell
    omega
  rw [hcols, List.getD_eq_getElem _ _ (by rw [hlength]; exact hcell)]
  have hcount := htracks.counts _ _ (List.getElem?_eq_getElem (by
    dsimp only
    rw [hlength]
    exact hcell))
  dsimp only at hcount
  rw [hcount]
  apply aged_mono
  intro e _
  -- a sighting of the key is routed to its shard and touches its cell in every row
  unfold ownHits hits routed
  rw [List.countP_filter]
  apply List.countP_mono_left
  intro x _ hx
  rcases of_decide_eq_true hx with ⟨hxe, hxk⟩
  simp [hxe, hxk, touches_cell _ key hrow]

end Decdn.Cache.Sketch
