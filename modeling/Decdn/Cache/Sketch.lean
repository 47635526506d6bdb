import Decdn.Foundations.Aging
import Decdn.Foundations.Words
import Mathlib.Data.List.Basic

/-!
# The sharded, lazily aged frequency sketch

The model of `crates/cache/src/policy/sketch.rs`.  A count-min sketch has four rows of
saturating byte counters.  `ShardedCountMinSketch` splits the columns over shards and
halves a shard only when it is next touched, by as many windows as the node-wide
observation clock has passed since.  `increment` is `claimSlot`, the atomic
`fetch_add`, followed by `commit`, the part under the shard's lock.

`EagerSketch` is the reference: the same layout, but every counter of every shard is
halved at the moment the observation count crosses a multiple of the window.

Main results:

- Theorem `CountMinSketch.increment_getElem?`: an increment raises exactly the cells the
  key touches.
- Theorem `CountMinSketch.halve_getElem?`: halving `t` times divides by `2 ^ t`.
- Theorem `CountMinSketch.le_estimate`: the estimate is bounded below by what bounds
  all of the key's cells.
-/

namespace Decdn.Cache.Sketch

/-! ## Keys and layout -/

/-- A 32-byte hash. -/
structure Hash where
  bytes : List UInt8
  length_eq : bytes.length = 32
deriving DecidableEq

/-- `ROWS`. -/
def rows : Nat := 4

/-- `SHARDS`. -/
def shardsMax : Nat := 16

/-- `SLICE_BYTES`. -/
def sliceBytes : Nat := 4

/-- `SHARD_SLICE_START`. -/
def shardSliceStart : Nat := rows * sliceBytes

/-- `AGING_WINDOW_PER_COL`. -/
def agingWindowPerCol : Nat := 10

/-- The largest `u8`. -/
def u8Max : Nat := 255

/-- `word_at`: the little-endian word at `start`, zero where the key is too short. -/
def wordAt (key : Hash) (start : Nat) : Nat :=
  let slice := if start + sliceBytes ≤ key.bytes.length then
    (key.bytes.drop start).take sliceBytes else []
  let byte := fun i => (slice.getD i 0).toNat
  byte 0 + 2 ^ 8 * byte 1 + 2 ^ 16 * byte 2 + 2 ^ 24 * byte 3

/-! ## One count-min sketch -/

/-- `CountMinSketch`: `rows * cols` byte counters, row-major. -/
structure CountMinSketch where
  cols : Nat
  counters : List Nat
deriving DecidableEq, Repr

/-- `CountMinSketch::new`. -/
def CountMinSketch.new (cols : Nat) : CountMinSketch where
  cols := max cols 1
  counters := List.replicate (rows * max cols 1) 0

/-- The counter of `key` in `row`. -/
def cell (cols : Nat) (key : Hash) (row : Nat) : Nat :=
  row * cols + wordAt key (row * sliceBytes) % cols

/-- `CountMinSketch::increment`. -/
def CountMinSketch.increment (s : CountMinSketch) (key : Hash) : CountMinSketch :=
  (List.range rows).foldl
    (fun s row => { s with counters := s.counters.modify (cell s.cols key row) (bump u8Max) }) s

/-- `checked_shr(times).unwrap_or(0)` on a byte. -/
def shr (c times : Nat) : Nat := if times < 8 then c >>> times else 0

/-- `CountMinSketch::halve`. -/
def CountMinSketch.halve (s : CountMinSketch) (times : Nat) : CountMinSketch :=
  if times = 0 then s else { s with counters := s.counters.map fun c => shr c times }

/-- `CountMinSketch::estimate`. -/
def CountMinSketch.estimate (s : CountMinSketch) (key : Hash) : Nat :=
  (List.range rows).foldl (fun m row => min m (s.counters.getD (cell s.cols key row) 0)) u8Max

/-! ## The sharded sketch -/

/-- `Shard`: the counters and the epoch they are caught up to. -/
structure Shard where
  sketch : CountMinSketch
  epoch : Nat
deriving DecidableEq, Repr

/-- `ShardedCountMinSketch`. -/
structure ShardedCountMinSketch where
  shards : List Shard
  observations : Nat
  window : Nat
deriving DecidableEq, Repr

/-- The number of shards a width of `cols` is spread over. -/
def shardCount (cols : Nat) : Nat := min shardsMax (max cols 1)

/-- The columns of each shard, rounded up. -/
def perShard (cols : Nat) : Nat := (max cols 1 + shardCount cols - 1) / shardCount cols

/-- Observations per aging window. -/
def windowOf (cols : Nat) : Nat :=
  max (min (min (perShard cols * shardCount cols) u64Max * agingWindowPerCol) u64Max) 1

/-- `ShardedCountMinSketch::new`. -/
def ShardedCountMinSketch.new (cols : Nat) : ShardedCountMinSketch where
  shards := List.replicate (shardCount cols) ⟨CountMinSketch.new (perShard cols), 0⟩
  observations := 0
  window := windowOf cols

/-- The index `shard_of` picks among `count` shards. -/
def shardIdx (count : Nat) (key : Hash) : Nat := wordAt key shardSliceStart % count

/-- `catch_up`. -/
def catchUp (shard : Shard) (epoch : Nat) : Shard :=
  let elapsed := epoch - shard.epoch
  if elapsed = 0 then shard
  else ⟨shard.sketch.halve (min elapsed u32Max), epoch⟩

/-- The atomic half of `increment`: the slot on the node-wide clock, and the clock after. -/
def ShardedCountMinSketch.claimSlot (s : ShardedCountMinSketch) : Nat × ShardedCountMinSketch :=
  (min (s.observations + 1) u64Max, { s with observations := (s.observations + 1) % 2 ^ 64 })

/-- The half of `increment` under the shard's lock. -/
def ShardedCountMinSketch.commit (s : ShardedCountMinSketch) (epoch : Nat) (key : Hash) :
    ShardedCountMinSketch :=
  { s with
    shards := s.shards.modify (shardIdx s.shards.length key) fun shard =>
      let caught := catchUp shard epoch
      { caught with sketch := caught.sketch.increment key } }

/-- `ShardedCountMinSketch::increment`. -/
def ShardedCountMinSketch.increment (s : ShardedCountMinSketch) (key : Hash) :
    ShardedCountMinSketch :=
  s.claimSlot.2.commit (s.claimSlot.1 / s.window) key

/-- The half of `estimate` under the shard's lock: reading ages the shard too. -/
def ShardedCountMinSketch.read (s : ShardedCountMinSketch) (epoch : Nat) (key : Hash) :
    Nat × ShardedCountMinSketch :=
  match s.shards[shardIdx s.shards.length key]? with
  | none => (0, s)
  | some shard =>
    ((catchUp shard epoch).sketch.estimate key,
      { s with shards := s.shards.set (shardIdx s.shards.length key) (catchUp shard epoch) })

/-- `ShardedCountMinSketch::estimate`: the value and the sketch it leaves. -/
def ShardedCountMinSketch.estimate (s : ShardedCountMinSketch) (key : Hash) :
    Nat × ShardedCountMinSketch :=
  s.read (s.observations / s.window) key

/-! ## The eager reference -/

/-- The same shards without epochs, on an exact observation count. -/
structure EagerSketch where
  shards : List CountMinSketch
  observations : Nat
  window : Nat
deriving DecidableEq, Repr

/-- The reference with the layout of a width of `cols`. -/
def EagerSketch.new (cols : Nat) : EagerSketch where
  shards := List.replicate (shardCount cols) (CountMinSketch.new (perShard cols))
  observations := 0
  window := windowOf cols

/-- Every counter is halved when the observation count crosses a multiple of the window. -/
def EagerSketch.tick (s : EagerSketch) : EagerSketch :=
  { s with
    observations := s.observations + 1
    shards := if (s.observations + 1) % s.window = 0 then
      s.shards.map fun sketch => sketch.halve 1 else s.shards }

/-- Count one sighting of `key`. -/
def EagerSketch.increment (s : EagerSketch) (key : Hash) : EagerSketch :=
  { s.tick with
    shards := s.tick.shards.modify (shardIdx s.shards.length key) fun sketch =>
      sketch.increment key }

/-- The estimate of `key`; reading changes nothing. -/
def EagerSketch.estimate (s : EagerSketch) (key : Hash) : Nat :=
  match s.shards[shardIdx s.shards.length key]? with
  | none => 0
  | some sketch => sketch.estimate key

/-! ## Cells -/

/-- `key` counts in cell `i`. -/
def Touches (cols : Nat) (key : Hash) (i : Nat) : Prop :=
  i = cell cols key 0 ∨ i = cell cols key 1 ∨ i = cell cols key 2 ∨ i = cell cols key 3

instance (cols : Nat) (key : Hash) (i : Nat) : Decidable (Touches cols key i) :=
  inferInstanceAs (Decidable (_ ∨ _ ∨ _ ∨ _))

/-- A key touches its cell in every row. -/
theorem touches_cell (cols : Nat) (key : Hash) {row : Nat} (h : row < rows) :
    Touches cols key (cell cols key row) := by
  unfold rows at h
  have hrow : row = 0 ∨ row = 1 ∨ row = 2 ∨ row = 3 := by omega
  rcases hrow with rfl | rfl | rfl | rfl <;> simp [Touches]

/-- The cells of two rows differ. -/
theorem cell_lt_cell {cols : Nat} (hcols : 0 < cols) (key : Hash) (r r' : Nat) (h : r < r') :
    cell cols key r < cell cols key r' := by
  have hmod := Nat.mod_lt (wordAt key (r * sliceBytes)) hcols
  have hrow : (r + 1) * cols ≤ r' * cols := Nat.mul_le_mul_right cols h
  rw [Nat.add_mul, Nat.one_mul] at hrow
  unfold cell
  omega

@[simp]
theorem CountMinSketch.increment_cols (s : CountMinSketch) (key : Hash) :
    (s.increment key).cols = s.cols := rfl

@[simp]
theorem CountMinSketch.increment_length (s : CountMinSketch) (key : Hash) :
    (s.increment key).counters.length = s.counters.length := by
  simp [CountMinSketch.increment, rows, List.range_succ]

/-- An increment raises exactly the cells the key touches. -/
theorem CountMinSketch.increment_getElem? (s : CountMinSketch) (hcols : 0 < s.cols) (key : Hash)
    (i : Nat) :
    (s.increment key).counters[i]? =
      s.counters[i]?.map fun c => if Touches s.cols key i then bump u8Max c else c := by
  have h01 := cell_lt_cell hcols key 0 1 (by decide)
  have h12 := cell_lt_cell hcols key 1 2 (by decide)
  have h23 := cell_lt_cell hcols key 2 3 (by decide)
  simp only [CountMinSketch.increment, rows, List.range_succ, List.range_zero, List.nil_append,
    List.cons_append, List.foldl_cons, List.foldl_nil, List.getElem?_modify, Option.map_eq_map,
    Option.map_map]
  -- the four cells are distinct, so at most one of the four updates hits `i`
  congr 1
  funext c
  simp only [Function.comp, Touches]
  by_cases h0 : i = cell s.cols key 0
  · subst h0
    simp [Nat.ne_of_gt h01, Nat.ne_of_gt (h01.trans h12), Nat.ne_of_gt ((h01.trans h12).trans h23)]
  · by_cases h1 : i = cell s.cols key 1
    · subst h1
      simp [Nat.ne_of_lt h01, Nat.ne_of_gt h12, Nat.ne_of_gt (h12.trans h23)]
    · by_cases h2 : i = cell s.cols key 2
      · subst h2
        simp [Nat.ne_of_lt (h01.trans h12), Nat.ne_of_lt h12, Nat.ne_of_gt h23]
      · simp [h0, h1, h2, Ne.symm h0, Ne.symm h1, Ne.symm h2, eq_comm]

/-- A byte shifted by any number of halvings is the quotient. -/
theorem shr_eq_div {c : Nat} (hc : c ≤ u8Max) (times : Nat) : shr c times = c / 2 ^ times := by
  unfold shr
  split
  · exact Nat.shiftRight_eq_div_pow c times
  · rename_i hbig
    have hpow : 2 ^ 8 ≤ 2 ^ times := Nat.pow_le_pow_right (by decide) (by omega)
    symm
    apply Nat.div_eq_of_lt
    unfold u8Max at hc
    omega

@[simp]
theorem CountMinSketch.halve_cols (s : CountMinSketch) (times : Nat) :
    (s.halve times).cols = s.cols := by
  unfold CountMinSketch.halve
  split <;> rfl

@[simp]
theorem CountMinSketch.halve_length (s : CountMinSketch) (times : Nat) :
    (s.halve times).counters.length = s.counters.length := by
  unfold CountMinSketch.halve
  split <;> simp

/-- Halving `t` times is a shift of every counter. -/
theorem CountMinSketch.halve_getElem? (s : CountMinSketch) (times i : Nat) :
    (s.halve times).counters[i]? = s.counters[i]?.map fun c => shr c times := by
  unfold CountMinSketch.halve
  split
  · rename_i hzero
    subst hzero
    simp [shr]
  · simp

/-- What bounds every cell of the key from below bounds its estimate. -/
theorem CountMinSketch.le_estimate {s : CountMinSketch} {key : Hash} {v : Nat} (hv : v ≤ u8Max)
    (h : ∀ row < rows, v ≤ s.counters.getD (cell s.cols key row) 0) : v ≤ s.estimate key := by
  have h0 := h 0 (by decide)
  have h1 := h 1 (by decide)
  have h2 := h 2 (by decide)
  have h3 := h 3 (by decide)
  simp only [CountMinSketch.estimate, rows, List.range_succ, List.range_zero, List.nil_append,
    List.cons_append, List.foldl_cons, List.foldl_nil]
  simp only [Nat.le_min]
  exact ⟨⟨⟨⟨hv, h0⟩, h1⟩, h2⟩, h3⟩

end Decdn.Cache.Sketch
