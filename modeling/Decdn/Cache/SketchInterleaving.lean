import Decdn.Cache.SketchRuns
import Decdn.Foundations.Runs

/-!
# The sketch under interleaving

An increment takes its slot on the node-wide clock before it takes the shard's lock, so
increments may commit out of slot order and reads may carry a stale epoch.  A late
commit finds the shard already halved and counts in full: the counters stay at or above
the run of the same increments in slot order.

Main results:

- Theorem `Interleaved.step`: no interleaving lowers a counter below its aged count.
- Theorem `sequential_le`: every counter is at least what the run in slot order holds.
- Theorem `lazy_aging`: lazy aging refines eager aging, sequentially and interleaved, for
  fewer than `2 ^ 64` observations.
- Theorem `wrapped_clock_stops_aging`: past `2 ^ 64` observations the clock starts over and
  the lazy sketch no longer ages.
-/

namespace Decdn.Cache.Sketch

variable {cols : Nat} {log : List Sighting}

/-! ## Increments split at the lock -/

/-- An increment between its `fetch_add` and its shard lock. -/
structure Ticket where
  slot : Nat
  epoch : Nat
  key : Hash
deriving DecidableEq

/-- The sighting a ticket commits. -/
def Ticket.sighting (t : Ticket) : Sighting := ⟨t.epoch, t.key⟩

/-- The sketch among its callers: the number of slots claimed, the increments and reads
that hold a slot or an epoch but not yet the lock, and the increments committed so far. -/
structure World where
  sketch : ShardedCountMinSketch
  claimed : Nat
  pending : List Ticket
  loaded : List (Nat × Hash)
  applied : List Ticket

/-- A new sketch without callers. -/
def World.new (cols : Nat) : World where
  sketch := ShardedCountMinSketch.new cols
  claimed := 0
  pending := []
  loaded := []
  applied := []

/-- The atomic pieces of `increment` and `estimate`. -/
inductive Event
  | claim (key : Hash)
  | commit (t : Ticket)
  | load (key : Hash)
  | read (epoch : Nat) (key : Hash)

/-- One piece, when some caller is at it. -/
def World.apply (w : World) : Event → Option World
  | .claim key =>
    some { w with
      sketch := w.sketch.claimSlot.2
      claimed := w.claimed + 1
      pending := ⟨w.claimed + 1, w.sketch.claimSlot.1 / w.sketch.window, key⟩ :: w.pending }
  | .commit t =>
    if t ∈ w.pending then
      some { w with
        sketch := w.sketch.commit t.epoch t.key
        pending := w.pending.erase t
        applied := w.applied ++ [t] }
    else none
  | .load key =>
    some { w with loaded := (w.sketch.observations / w.sketch.window, key) :: w.loaded }
  | .read epoch key =>
    if (epoch, key) ∈ w.loaded then
      some { w with
        sketch := (w.sketch.read epoch key).2
        loaded := w.loaded.erase (epoch, key) }
    else none

/-- The step relation of the callers. -/
def Step (w : World) (e : Event) (w' : World) : Prop := w.apply e = some w'

/-- The committed increments in the order of their slots. -/
def slotOrder (ts : List Ticket) : List Ticket :=
  ts.mergeSort fun a b => decide (a.slot ≤ b.slot)

/-- The sequential run of the committed increments: each is run from start to end with the
clock at its own slot, in slot order. -/
def sequential (cols : Nat) (ts : List Ticket) : ShardedCountMinSketch :=
  (slotOrder ts).foldl
    (fun s t => ({ s with observations := t.slot - 1 } : ShardedCountMinSketch).increment t.key)
    (ShardedCountMinSketch.new cols)

/-- What holds of the callers whatever the order of their pieces. -/
structure Interleaved (cols : Nat) (w : World) : Prop where
  tracks : Tracks (fun a b => b ≤ a) (max (perShard cols) 1)
    (w.applied.map Ticket.sighting) w.sketch
  length_eq : w.sketch.shards.length = shardCount cols
  window_eq : w.sketch.window = windowOf cols
  clock_eq : w.sketch.observations = w.claimed
  behind : ∀ sh ∈ w.sketch.shards, sh.epoch ≤ w.claimed / windowOf cols
  loaded_le : ∀ x ∈ w.loaded, x.1 ≤ w.claimed / windowOf cols
  tickets : ∀ t ∈ w.pending ++ w.applied,
    1 ≤ t.slot ∧ t.slot ≤ w.claimed ∧ t.epoch = t.slot / windowOf cols
  slots : ((w.pending ++ w.applied).map Ticket.slot).Perm (List.range' 1 w.claimed)

/-- A new sketch satisfies the invariant. -/
theorem Interleaved.new (cols : Nat) : Interleaved cols (World.new cols) where
  tracks := Tracks.new compatible_ge cols
  length_eq := by simp [World.new, ShardedCountMinSketch.new]
  window_eq := rfl
  clock_eq := rfl
  behind := (Coupled.new cols).behind
  loaded_le := by simp [World.new]
  tickets := by simp [World.new]
  slots := by simp [World.new]

/-- Claiming the next slot. -/
theorem Interleaved.claim {w : World} (h : Interleaved cols w) (hn : w.claimed + 1 < 2 ^ 64)
    (key : Hash) {w' : World} (hstep : Step w (.claim key) w') : Interleaved cols w' := by
  have hclock := h.clock_eq
  have hobserved : w.sketch.claimSlot.1 = w.claimed + 1 := by
    simp only [ShardedCountMinSketch.claimSlot, hclock, u64Max]
    omega
  have hafter : w.sketch.claimSlot.2 = { w.sketch with observations := w.claimed + 1 } := by
    simp only [ShardedCountMinSketch.claimSlot, hclock]
    rw [Nat.mod_eq_of_lt hn]
  have hgrow : w.claimed / windowOf cols ≤ (w.claimed + 1) / windowOf cols :=
    Nat.div_le_div_right (by omega)
  unfold Step World.apply at hstep
  cases hstep
  simp only [hobserved, hafter, h.window_eq]
  refine ⟨h.tracks, h.length_eq, rfl, rfl, ?_, ?_, ?_, ?_⟩
  · intro sh hsh
    exact Nat.le_trans (h.behind sh hsh) hgrow
  · intro x hx
    exact Nat.le_trans (h.loaded_le x hx) hgrow
  · intro t ht
    rcases List.mem_cons.1 ht with rfl | ht
    · simp
    · have hold := h.tickets t ht
      exact ⟨hold.1, Nat.le_succ_of_le hold.2.1, hold.2.2⟩
  · rw [List.cons_append, List.map_cons, List.range'_concat]
    refine (List.Perm.cons _ h.slots).trans ?_
    rw [Nat.one_mul, Nat.add_comm 1]
    exact (List.perm_append_singleton _ _).symm

/-- Committing a claimed increment, in or out of order. -/
theorem Interleaved.commit {w w' : World} (h : Interleaved cols w) {t : Ticket}
    (hstep : Step w (.commit t) w') : Interleaved cols w' := by
  unfold Step World.apply at hstep
  dsimp only at hstep
  split at hstep
  · rename_i hmem
    cases hstep
    have hpos : 0 < max (perShard cols) 1 := by omega
    have hticket := h.tickets t (List.mem_append_left _ hmem)
    have hepoch : t.epoch ≤ w.claimed / windowOf cols := by
      rw [hticket.2.2]
      exact Nat.div_le_div_right hticket.2.1
    have hsame : (w.pending.erase t ++ (w.applied ++ [t])).Perm (w.pending ++ w.applied) := by
      rw [← List.append_assoc]
      refine (List.perm_append_singleton t _).trans ?_
      rw [← List.cons_append]
      exact (List.perm_cons_erase hmem).symm.append_right _
    refine ⟨?_, ?_, h.window_eq, h.clock_eq, ?_, h.loaded_le, ?_, ?_⟩
    · dsimp only
      rw [List.map_append, List.map_singleton]
      apply h.tracks.commit compatible_ge hpos t.sighting
      right
      intro a b b' hab hb
      exact Nat.le_trans hb hab
    · simpa using h.length_eq
    · exact commit_epoch_le h.behind hepoch
    · intro u hu
      exact h.tickets u (hsame.mem_iff.1 hu)
    · exact (hsame.map _).trans h.slots
  · cases hstep

/-- Every piece keeps the invariant while the clock has not wrapped. -/
theorem Interleaved.step {w w' : World} {e : Event} (h : Interleaved cols w)
    (hstep : Step w e w') (hn : w'.claimed < 2 ^ 64) : Interleaved cols w' := by
  cases e with
  | claim key =>
    apply h.claim _ key hstep
    cases hstep
    exact hn
  | commit t => exact h.commit hstep
  | load key =>
    cases hstep
    refine ⟨h.tracks, h.length_eq, h.window_eq, h.clock_eq, h.behind, ?_, h.tickets, h.slots⟩
    intro x hx
    rcases List.mem_cons.1 hx with rfl | hx
    · change w.sketch.observations / w.sketch.window ≤ _
      rw [h.clock_eq, h.window_eq]
    · exact h.loaded_le x hx
  | read epoch key =>
    unfold Step World.apply at hstep
    dsimp only at hstep
    split at hstep
    · rename_i hmem
      cases hstep
      have hepoch := h.loaded_le _ hmem
      refine ⟨?_, ?_, ?_, ?_, ?_, ?_, h.tickets, h.slots⟩
      · exact h.tracks.read compatible_ge epoch key
      · simpa using h.length_eq
      · simpa using h.window_eq
      · simpa using h.clock_eq
      · exact read_epoch_le h.behind hepoch
      · intro x hx
        exact h.loaded_le x (List.mem_of_mem_erase hx)
    · cases hstep

/-- No piece gives a slot back. -/
theorem claimed_le {w w' : World} {e : Event} (hstep : Step w e w') : w.claimed ≤ w'.claimed := by
  cases e with
  | claim key =>
    cases hstep
    exact Nat.le_succ _
  | commit t =>
    unfold Step World.apply at hstep
    dsimp only at hstep
    split at hstep <;> cases hstep
    exact Nat.le_refl _
  | load key =>
    cases hstep
    exact Nat.le_refl _
  | read epoch key =>
    unfold Step World.apply at hstep
    dsimp only at hstep
    split at hstep <;> cases hstep
    exact Nat.le_refl _

/-- The invariant along every run. -/
theorem Interleaved.run {w : World} (hrun : Reaches Step (fun _ _ => True) (World.new cols) w)
    (hn : w.claimed < 2 ^ 64) : Interleaved cols w := by
  have hall : w.claimed < 2 ^ 64 → Interleaved cols w := by
    apply hrun.invariant (I := fun v => v.claimed < 2 ^ 64 → Interleaved cols v)
    · intro _
      exact Interleaved.new cols
    · intro a e b _ hstep ih hb
      have hle := claimed_le hstep
      exact (ih (by omega)).step hstep hb
  exact hall hn

/-- No piece turns the epoch of a shard back. -/
theorem epoch_le_step {w w' : World} {e : Event} (hstep : Step w e w') {j : Nat} {sh sh' : Shard}
    (hsh : w.sketch.shards[j]? = some sh) (hsh' : w'.sketch.shards[j]? = some sh') :
    sh.epoch ≤ sh'.epoch := by
  have hsame : w'.sketch.shards = w.sketch.shards → sh.epoch ≤ sh'.epoch := by
    intro heq
    rw [heq, hsh] at hsh'
    cases hsh'
    exact Nat.le_refl _
  cases e with
  | claim key =>
    cases hstep
    exact hsame rfl
  | commit t =>
    unfold Step World.apply at hstep
    dsimp only at hstep
    split at hstep <;> cases hstep
    rcases commit_shard hsh' with ⟨-, hold⟩ | ⟨-, old, hold, rfl⟩
    · rw [hsh] at hold
      cases hold
      exact Nat.le_refl _
    · rw [hsh] at hold
      cases hold
      have hepoch := catchUp_epoch sh t.epoch
      change sh.epoch ≤ (catchUp sh t.epoch).epoch
      omega
  | load key =>
    cases hstep
    exact hsame rfl
  | read epoch key =>
    unfold Step World.apply at hstep
    dsimp only at hstep
    split at hstep <;> cases hstep
    rcases read_shard hsh' with hold | ⟨old, hold, rfl⟩
    · rw [hsh] at hold
      cases hold
      exact Nat.le_refl _
    · rw [hsh] at hold
      cases hold
      have hepoch := catchUp_epoch sh epoch
      omega

/-! ## The run in slot order -/

/-- A run in slot order is on the aged counts exactly, and every shard stands at the epoch
of one of its own sightings. -/
structure InOrder (cols : Nat) (log : List Sighting) (bound : Nat) (s : ShardedCountMinSketch) :
    Prop where
  tracks : Tracks (· = ·) (max (perShard cols) 1) log s
  length_eq : s.shards.length = shardCount cols
  window_eq : s.window = windowOf cols
  behind : ∀ sh ∈ s.shards, sh.epoch ≤ bound
  anchored : ∀ (j : Nat) (sh : Shard), s.shards[j]? = some sh →
    sh.epoch = 0 ∨ ∃ x ∈ routed (shardCount cols) j log, x.epoch = sh.epoch

/-- The next increment in slot order. -/
theorem InOrder.increment {s : ShardedCountMinSketch} {bound : Nat} (h : InOrder cols log bound s)
    {t : Ticket} (hslot : 1 ≤ t.slot) (hn : t.slot < 2 ^ 64)
    (hepoch : t.epoch = t.slot / windowOf cols) (hbound : bound ≤ t.epoch) :
    InOrder cols (log ++ [t.sighting]) t.epoch
      (({ s with observations := t.slot - 1 } : ShardedCountMinSketch).increment t.key) := by
  have hpos : 0 < max (perShard cols) 1 := by omega
  have hnext : t.slot - 1 + 1 = t.slot := by omega
  have hbehind : ∀ sh ∈ s.shards, sh.epoch ≤ t.epoch := fun sh hsh =>
    Nat.le_trans (h.behind sh hsh) hbound
  rw [increment_eq (by simp only [hnext]; exact hn)]
  simp only [hnext, h.window_eq, ← hepoch]
  refine ⟨?_, ?_, rfl, ?_, ?_⟩
  · exact Tracks.commit compatible_eq hpos (s := { s with observations := t.slot, window := _ })
      h.tracks t.sighting (Or.inl hbehind)
  · simpa using h.length_eq
  · exact commit_epoch_le hbehind (Nat.le_refl _)
  · intro j sh' hsh'
    have hlen := h.length_eq
    rcases commit_shard hsh' with ⟨hj, hsh⟩ | ⟨hj, sh, hsh, rfl⟩
    · rcases h.anchored j sh' hsh with hzero | ⟨x, hx, hxe⟩
      · exact Or.inl hzero
      · refine Or.inr ⟨x, ?_, hxe⟩
        simp only [routed, List.filter_append, List.mem_append]
        exact Or.inl hx
    · right
      refine ⟨t.sighting, ?_, ?_⟩
      · dsimp only at hj
        rw [hlen] at hj
        simp [routed, Ticket.sighting, hj]
      · have hold := hbehind sh (List.mem_of_getElem? hsh)
        have hcaught := catchUp_epoch sh t.epoch
        change t.epoch = (catchUp sh t.epoch).epoch
        omega

/-- Increments whose slots go up keep the run in order. -/
theorem InOrder.foldl (ts : List Ticket) {s : ShardedCountMinSketch} {bound : Nat}
    (h : InOrder cols log bound s) (hsorted : ts.Pairwise fun a b => a.slot ≤ b.slot)
    (hts : ∀ t ∈ ts, 1 ≤ t.slot ∧ t.slot < 2 ^ 64 ∧ t.epoch = t.slot / windowOf cols ∧
      bound ≤ t.epoch) :
    ∃ bound', InOrder cols (log ++ ts.map Ticket.sighting) bound' (ts.foldl
      (fun s t => ({ s with observations := t.slot - 1 } : ShardedCountMinSketch).increment t.key)
      s) := by
  induction ts generalizing s log bound with
  | nil => exact ⟨bound, by simpa using h⟩
  | cons t ts ih =>
    rw [List.pairwise_cons] at hsorted
    rcases hts t (by simp) with ⟨hslot, hn, hepoch, hbound⟩
    have hnext := h.increment hslot hn hepoch hbound
    have hrest := ih hnext hsorted.2 (fun u hu => by
      have hu' := hts u (by simp [hu])
      refine ⟨hu'.1, hu'.2.1, hu'.2.2.1, ?_⟩
      rw [hepoch, hu'.2.2.1]
      exact Nat.div_le_div_right (hsorted.1 u hu))
    simpa using hrest

/-- Sorting by slot gives the same tickets. -/
theorem slotOrder_perm (ts : List Ticket) : (slotOrder ts).Perm ts :=
  List.mergeSort_perm ts _

/-- Sorting by slot puts the slots in order. -/
theorem slotOrder_sorted (ts : List Ticket) :
    (slotOrder ts).Pairwise fun a b => a.slot ≤ b.slot := by
  have hsorted : (slotOrder ts).Pairwise fun a b => decide (a.slot ≤ b.slot) = true := by
    apply List.pairwise_mergeSort
    · intro a b c hab hbc
      simp only [decide_eq_true_eq] at hab hbc ⊢
      omega
    · intro a b
      simp only [Bool.or_eq_true, decide_eq_true_eq]
      omega
  exact hsorted.imp fun h => of_decide_eq_true h

/-- The sequential run of the committed increments is in order. -/
theorem sequential_inOrder {w : World} (h : Interleaved cols w) (hn : w.claimed < 2 ^ 64) :
    ∃ bound, InOrder cols ((slotOrder w.applied).map Ticket.sighting) bound
      (sequential cols w.applied) := by
  have hstart : InOrder cols [] 0 (ShardedCountMinSketch.new cols) := by
    have hnew := Coupled.new cols
    refine ⟨hnew.lazy_tracks, hnew.lazy_length, rfl, ?_, ?_⟩
    · simpa using hnew.behind
    · intro j sh hsh
      have := hnew.behind sh (List.mem_of_getElem? hsh)
      left
      simpa using this
  have hfold := hstart.foldl (slotOrder w.applied) (slotOrder_sorted _) (fun t ht => by
    have hmem := (slotOrder_perm w.applied).mem_iff.1 ht
    have hticket := h.tickets t (List.mem_append_right _ hmem)
    exact ⟨hticket.1, by omega, hticket.2.2, Nat.zero_le _⟩)
  simpa [sequential] using hfold

/-- A run without gaps sets the clock to where it stands. -/
theorem foldl_increment (ts : List Ticket) (s : ShardedCountMinSketch)
    (hslots : ts.map Ticket.slot = List.range' (s.observations + 1) ts.length)
    (hn : s.observations + ts.length < 2 ^ 64) :
    ts.foldl (fun s t =>
      ({ s with observations := t.slot - 1 } : ShardedCountMinSketch).increment t.key) s =
      (ts.map Ticket.key).foldl ShardedCountMinSketch.increment s := by
  induction ts generalizing s with
  | nil => rfl
  | cons t ts ih =>
    simp only [List.map_cons, List.length_cons, List.range'_succ, List.cons.injEq] at hslots hn
    rcases hslots with ⟨hslot, hslots⟩
    have hclock : ({ s with observations := t.slot - 1 } : ShardedCountMinSketch) = s := by
      rw [hslot, Nat.add_sub_cancel]
    have hobs : (s.increment t.key).observations = s.observations + 1 := by
      rw [increment_eq (by omega)]
      rfl
    simp only [List.foldl_cons, List.map_cons, hclock]
    apply ih
    · rw [hobs]
      exact hslots
    · rw [hobs]
      omega

/-- Once every claimed increment is committed, the sequential run is the plain one. -/
theorem sequential_eq_increments {w : World} (h : Interleaved cols w) (hn : w.claimed < 2 ^ 64)
    (hdone : w.pending = []) :
    sequential cols w.applied =
      ((slotOrder w.applied).map Ticket.key).foldl ShardedCountMinSketch.increment
        (ShardedCountMinSketch.new cols) := by
  have hslots := h.slots
  rw [hdone, List.nil_append] at hslots
  have hlen : w.applied.length = w.claimed := by simpa using hslots.length_eq
  have hperm : ((slotOrder w.applied).map Ticket.slot).Perm (List.range' 1 w.claimed) :=
    ((slotOrder_perm w.applied).map _).trans hslots
  have heq : (slotOrder w.applied).map Ticket.slot = List.range' 1 w.claimed := by
    have hsorted : ((slotOrder w.applied).map Ticket.slot).Pairwise (· ≤ ·) := by
      rw [List.pairwise_map]
      exact slotOrder_sorted _
    have hrange : (List.range' 1 w.claimed).Pairwise (· ≤ ·) :=
      List.Pairwise.imp Nat.le_of_lt List.pairwise_lt_range'
    exact List.Perm.eq_of_pairwise (fun a b _ _ => Nat.le_antisymm) hsorted hrange hperm
  have hcount : (slotOrder w.applied).length = w.claimed := by
    rw [(slotOrder_perm w.applied).length_eq, hlen]
  apply foldl_increment
  · rw [hcount]
    exact heq
  · rw [hcount]
    change 0 + w.claimed < 2 ^ 64
    omega

/-- In every reachable state each counter is at least what the run in slot order holds
once it is aged to the same epoch. -/
theorem sequential_le {w : World} (h : Interleaved cols w) (hn : w.claimed < 2 ^ 64) {j : Nat}
    {sh : Shard} (hsh : w.sketch.shards[j]? = some sh) :
    ∃ seq, (sequential cols w.applied).shards[j]? = some seq ∧ seq.epoch ≤ sh.epoch ∧
      ∀ i, (catchUp seq sh.epoch).sketch.counters.getD i 0 ≤ sh.sketch.counters.getD i 0 := by
  rcases sequential_inOrder h hn with ⟨bound, horder⟩
  have hlen : j < (sequential cols w.applied).shards.length := by
    have := (List.getElem?_eq_some_iff.1 hsh).1
    rw [horder.length_eq, ← h.length_eq]
    exact this
  refine ⟨(sequential cols w.applied).shards[j], List.getElem?_eq_getElem hlen, ?_, ?_⟩
  · have htracks := h.tracks j sh hsh
    rcases horder.anchored j _ (List.getElem?_eq_getElem hlen) with hzero | ⟨x, hx, hxe⟩
    · omega
    · rw [← hxe]
      apply htracks.caught
      rw [h.length_eq]
      exact (((slotOrder_perm w.applied).map Ticket.sighting).filter _).mem_iff.1 hx
  · intro i
    have hconc := h.tracks j sh hsh
    have hseq := ((horder.tracks j _ (List.getElem?_eq_getElem hlen)).perm
      (((slotOrder_perm w.applied).map Ticket.sighting).filter _)).catchUp compatible_eq sh.epoch
    rw [horder.length_eq, ← h.length_eq] at hseq
    have hepoch : (catchUp (sequential cols w.applied).shards[j] sh.epoch).epoch = sh.epoch := by
      rw [catchUp_epoch]
      rcases horder.anchored j _ (List.getElem?_eq_getElem hlen) with hzero | ⟨x, hx, hxe⟩
      · omega
      · have hle := hconc.caught x (by
          rw [h.length_eq]
          exact (((slotOrder_perm w.applied).map Ticket.sighting).filter _).mem_iff.1 hx)
        omega
    by_cases hi : i < rows * max (perShard cols) 1
    · rw [List.getD_eq_getElem _ _ (by rw [hseq.length_eq]; exact hi),
        List.getD_eq_getElem _ _ (by rw [hconc.length_eq]; exact hi)]
      have hs := hseq.counts i _ (List.getElem?_eq_getElem (by rw [hseq.length_eq]; exact hi))
      have hc := hconc.counts i _ (List.getElem?_eq_getElem (by rw [hconc.length_eq]; exact hi))
      rw [hs, hepoch]
      exact hc
    · rw [List.getD_eq_default _ _ (by rw [hseq.length_eq]; omega)]
      exact Nat.zero_le _

/-! ## The refinement -/

/-- For every width and every run of fewer than `2 ^ 64` observations: each estimate is the
eager one, at least the key's own aged count; and when increments and reads are split at
the shard lock and interleaved in any order, no counter falls below the run of the
committed increments in slot order, no shard gets ahead of the clock, and none goes back. -/
theorem lazy_aging (cols : Nat) :
    (∀ (ops : List Op) (key : Hash), observationsIn ops < 2 ^ 64 →
      ((runLazy cols ops).estimate key).1 = (runEager cols ops).estimate key ∧
      ownCount cols key ops ≤ ((runLazy cols ops).estimate key).1) ∧
    (∀ w, Reaches Step (fun _ _ => True) (World.new cols) w → w.claimed < 2 ^ 64 →
      (∀ (j : Nat) (sh : Shard), w.sketch.shards[j]? = some sh →
        sh.epoch ≤ w.claimed / windowOf cols ∧
        ∃ seq, (sequential cols w.applied).shards[j]? = some seq ∧ seq.epoch ≤ sh.epoch ∧
          ∀ i, (catchUp seq sh.epoch).sketch.counters.getD i 0 ≤
            sh.sketch.counters.getD i 0) ∧
      (w.pending = [] → sequential cols w.applied =
        ((slotOrder w.applied).map Ticket.key).foldl ShardedCountMinSketch.increment
          (ShardedCountMinSketch.new cols)) ∧
      (∀ e w' (j : Nat) (sh sh' : Shard), Step w e w' → w.sketch.shards[j]? = some sh →
        w'.sketch.shards[j]? = some sh' → sh.epoch ≤ sh'.epoch)) := by
  constructor
  · intro ops key hn
    rcases Coupled.run cols key ops hn with ⟨log, hcoupled, -, hown⟩
    have hsame := hcoupled.estimate_eq key
    refine ⟨hsame, ?_⟩
    rw [hsame]
    unfold ownCount
    rw [hown]
    exact hcoupled.own_le_estimate key
  · intro w hrun hn
    have hinv := Interleaved.run hrun hn
    refine ⟨?_, ?_, ?_⟩
    · intro j sh hsh
      have hbehind := hinv.behind sh (List.mem_of_getElem? hsh)
      exact ⟨hbehind, sequential_le hinv hn hsh⟩
    · intro hdone
      exact sequential_eq_increments hinv hn hdone
    · intro e w' j sh sh' hstep hsh hsh'
      exact epoch_le_step hstep hsh hsh'

/-- The key of all zero bytes. -/
def zeroHash : Hash := ⟨List.replicate 32 0, by simp⟩

/-- Ten increments of a sketch whose window is ten; the ninth commits after the tenth. -/
def lateCommit : List Event :=
  ((List.range' 1 8).flatMap fun slot => [.claim zeroHash, .commit ⟨slot, 0, zeroHash⟩]) ++
    [.claim zeroHash, .claim zeroHash, .commit ⟨10, 1, zeroHash⟩, .commit ⟨9, 0, zeroHash⟩]

/-- What a run leaves: its shards, and how many increments it committed and left open. -/
def World.counts (w : World) : List Shard × Nat × Nat :=
  (w.sketch.shards, w.applied.length, w.pending.length)

/-- The theorem at a sketch of one column: twelve sightings and a read, and a late commit that
counts in full, over the run of the same ten increments one after the other. -/
theorem lazy_aging_twelve :
    (((runLazy 1 (List.replicate 12 (.increment zeroHash))).estimate zeroHash).1 =
        (runEager 1 (List.replicate 12 (.increment zeroHash))).estimate zeroHash ∧
      ownCount 1 zeroHash (List.replicate 12 (.increment zeroHash)) ≤
        ((runLazy 1 (List.replicate 12 (.increment zeroHash))).estimate zeroHash).1) ∧
      ∃ w seq, Reaches Step (fun _ _ => True) (World.new 1) w ∧
        w.counts = ([⟨⟨1, [6, 6, 6, 6]⟩, 1⟩], 10, 0) ∧
        (((slotOrder w.applied).map Ticket.key).foldl ShardedCountMinSketch.increment
          (ShardedCountMinSketch.new 1)).shards[0]? = some seq ∧
        ∀ i, (catchUp seq 1).sketch.counters.getD i 0 ≤ [6, 6, 6, 6].getD i 0 := by
  refine ⟨(lazy_aging 1).1 _ zeroHash (by decide), ?_⟩
  have hcounts : (runEvents World.apply (fun _ _ => true) (World.new 1) lateCommit).map
      (fun w => (w.counts, w.claimed)) = some (([⟨⟨1, [6, 6, 6, 6]⟩, 1⟩], 10, 0), 10) := by
    decide +kernel
  rcases Option.map_eq_some_iff.mp hcounts with ⟨w, hw, hvalues⟩
  rcases Prod.mk.inj hvalues with ⟨hvalues, hclaimed⟩
  have hrun : Reaches Step (fun _ _ => True) (World.new 1) w :=
    Reaches.of_runEvents (fun _ _ _ => trivial) hw
  rcases (lazy_aging 1).2 w hrun (by rw [hclaimed]; decide) with ⟨hbound, hquiet, -⟩
  have hshard : w.sketch.shards[0]? = some ⟨⟨1, [6, 6, 6, 6]⟩, 1⟩ := by
    rw [show w.sketch.shards = _ from congrArg Prod.fst hvalues]
    rfl
  have hpending : w.pending = [] :=
    List.eq_nil_of_length_eq_zero (congrArg (fun counts => counts.2.2) hvalues)
  rcases (hbound 0 _ hshard).2 with ⟨seq, hseq, -, hle⟩
  rw [hquiet hpending] at hseq
  exact ⟨w, seq, hrun, hvalues, hseq, hle⟩

/-! ## Past the end of the clock -/

/-- A one-column shard with one value in all its rows. -/
def flat (v : Nat) : CountMinSketch := ⟨1, [v, v, v, v]⟩

theorem flat_increment (v : Nat) : (flat v).increment zeroHash = flat (bump u8Max v) := by
  simp only [flat, CountMinSketch.increment, rows, List.range_succ, List.range_zero,
    List.nil_append, List.cons_append, List.foldl_cons, List.foldl_nil, cell, Nat.mod_one]
  rfl

theorem flat_halve (v : Nat) : (flat v).halve 1 = flat (v / 2) := by
  simp [flat, CountMinSketch.halve, shr, Nat.shiftRight_eq_div_pow]

theorem flat_estimate {v : Nat} (hv : v ≤ u8Max) : (flat v).estimate zeroHash = v := by
  simp only [flat, CountMinSketch.estimate, rows, List.range_succ, List.range_zero,
    List.nil_append, List.cons_append, List.foldl_cons, List.foldl_nil, cell, Nat.mod_one]
  simp
  exact hv

/-- A one-column lazy sketch. -/
def flatLazy (v epoch n : Nat) : ShardedCountMinSketch := ⟨[⟨flat v, epoch⟩], n, 10⟩

/-- A one-column eager sketch. -/
def flatEager (v n : Nat) : EagerSketch := ⟨[flat v], n, 10⟩

/-- An increment at an epoch the shard has reached only counts. -/
theorem flatLazy_increment {v epoch n : Nat} (h : min (n + 1) u64Max / 10 ≤ epoch) :
    (flatLazy v epoch n).increment zeroHash =
      flatLazy (bump u8Max v) epoch ((n + 1) % 2 ^ 64) := by
  have hcaught : catchUp ⟨flat v, epoch⟩ (min (n + 1) u64Max / 10) = ⟨flat v, epoch⟩ := by
    unfold catchUp
    dsimp only
    rw [if_pos (by omega)]
  simp only [flatLazy, ShardedCountMinSketch.increment, ShardedCountMinSketch.claimSlot,
    ShardedCountMinSketch.commit, shardIdx, List.length_singleton, Nat.mod_one,
    List.modify_zero_cons, hcaught, flat_increment]

/-- An increment that opens the next epoch halves first. -/
theorem flatLazy_increment_next {v epoch n : Nat} (h : min (n + 1) u64Max / 10 = epoch + 1) :
    (flatLazy v epoch n).increment zeroHash =
      flatLazy (bump u8Max (v / 2)) (epoch + 1) ((n + 1) % 2 ^ 64) := by
  have hcaught : catchUp ⟨flat v, epoch⟩ (min (n + 1) u64Max / 10) = ⟨flat (v / 2), epoch + 1⟩ := by
    rw [h]
    simp [catchUp, u32Max, flat_halve]
  simp only [flatLazy, ShardedCountMinSketch.increment, ShardedCountMinSketch.claimSlot,
    ShardedCountMinSketch.commit, shardIdx, List.length_singleton, Nat.mod_one,
    List.modify_zero_cons, hcaught, flat_increment]

/-- The eager sketch only counts between two boundaries. -/
theorem flatEager_increment {v n : Nat} (h : (n + 1) % 10 ≠ 0) :
    (flatEager v n).increment zeroHash = flatEager (bump u8Max v) (n + 1) := by
  simp only [flatEager, EagerSketch.increment, EagerSketch.tick, h, if_false, shardIdx,
    List.length_singleton, Nat.mod_one, List.modify_zero_cons, flat_increment]

/-- The eager sketch halves at a boundary. -/
theorem flatEager_increment_next {v n : Nat} (h : (n + 1) % 10 = 0) :
    (flatEager v n).increment zeroHash = flatEager (bump u8Max (v / 2)) (n + 1) := by
  simp only [flatEager, EagerSketch.increment, EagerSketch.tick, h, if_true, shardIdx,
    List.length_singleton, Nat.mod_one, List.map_cons, List.map_nil, List.modify_zero_cons,
    flat_halve, flat_increment]

/-- A read at an epoch the shard has reached. -/
theorem flatLazy_estimate {v epoch n : Nat} (hv : v ≤ u8Max) (h : n / 10 ≤ epoch) :
    ((flatLazy v epoch n).estimate zeroHash).1 = v := by
  have hcaught : catchUp ⟨flat v, epoch⟩ (n / 10) = ⟨flat v, epoch⟩ := by
    unfold catchUp
    dsimp only
    rw [if_pos (by omega)]
  simp only [flatLazy, ShardedCountMinSketch.estimate, ShardedCountMinSketch.read, shardIdx,
    List.length_singleton, Nat.mod_one, List.getElem?_cons_zero, hcaught, flat_estimate hv]

theorem flatEager_estimate {v n : Nat} (hv : v ≤ u8Max) :
    (flatEager v n).estimate zeroHash = v := by
  simp only [flatEager, EagerSketch.estimate, shardIdx, List.length_singleton, Nat.mod_one,
    List.getElem?_cons_zero, flat_estimate hv]

/-- Up to the last slot of the clock both sketches hold one value. -/
theorem flat_runs (n : Nat) (hn : n < 2 ^ 64) :
    ∃ v, runLazy 1 (List.replicate n (.increment zeroHash)) = flatLazy v (n / 10) n ∧
      runEager 1 (List.replicate n (.increment zeroHash)) = flatEager v n := by
  induction n with
  | zero => exact ⟨0, rfl, rfl⟩
  | succ n ih =>
    rcases ih (by omega) with ⟨v, hlazy, heager⟩
    have hobserved : min (n + 1) u64Max = n + 1 := by
      unfold u64Max
      omega
    simp only [runLazy, runEager, List.replicate_succ', List.foldl_append, List.foldl_cons,
      List.foldl_nil] at hlazy heager ⊢
    rw [hlazy, heager]
    change ∃ v', (flatLazy v (n / 10) n).increment zeroHash = _ ∧
      (flatEager v n).increment zeroHash = _
    by_cases hcross : (n + 1) % 10 = 0
    · have hepoch : (n + 1) / 10 = n / 10 + 1 := by omega
      refine ⟨bump u8Max (v / 2), ?_, ?_⟩
      · rw [flatLazy_increment_next (by rw [hobserved]; exact hepoch), hepoch,
          Nat.mod_eq_of_lt hn]
      · exact flatEager_increment_next hcross
    · have hepoch : (n + 1) / 10 = n / 10 := by omega
      refine ⟨bump u8Max v, ?_, ?_⟩
      · rw [flatLazy_increment (by rw [hobserved]; exact Nat.le_of_eq hepoch), hepoch,
          Nat.mod_eq_of_lt hn]
      · exact flatEager_increment hcross

/-- After `2 ^ 64` observations the clock starts again at zero; the shard is then far ahead
of it, and the halving that the eager sketch makes four observations later is lost. -/
theorem wrapped_clock_stops_aging :
    ∃ (cols : Nat) (ops : List Op) (key : Hash),
      ((runLazy cols ops).estimate key).1 ≠ (runEager cols ops).estimate key := by
  rcases flat_runs (2 ^ 64 - 1) (by decide) with ⟨v, hlazy, heager⟩
  refine ⟨1, List.replicate (2 ^ 64 - 1) (.increment zeroHash) ++
    List.replicate 5 (.increment zeroHash), zeroHash, ?_⟩
  have hclock : (((((2 ^ 64 - 1 + 1) % 2 ^ 64 + 1) % 2 ^ 64 + 1) % 2 ^ 64 + 1) % 2 ^ 64 + 1) %
      2 ^ 64 = 4 := by
    omega
  have hobserved : 2 ^ 64 - 1 + 1 + 1 + 1 + 1 + 1 = 2 ^ 64 + 4 := by
    omega
  have hlazy5 : runLazy 1 (List.replicate (2 ^ 64 - 1) (.increment zeroHash) ++
      List.replicate 5 (.increment zeroHash)) =
      flatLazy (bump u8Max (bump u8Max (bump u8Max (bump u8Max (bump u8Max v)))))
        ((2 ^ 64 - 1) / 10) 4 := by
    unfold runLazy at hlazy ⊢
    rw [List.foldl_append, hlazy]
    simp only [List.replicate_succ, List.replicate_zero, List.foldl_cons, List.foldl_nil,
      ShardedCountMinSketch.step]
    rw [flatLazy_increment (by decide), flatLazy_increment (by decide),
      flatLazy_increment (by decide), flatLazy_increment (by decide),
      flatLazy_increment (by decide), hclock]
  have heager5 : runEager 1 (List.replicate (2 ^ 64 - 1) (.increment zeroHash) ++
      List.replicate 5 (.increment zeroHash)) =
      flatEager (bump u8Max (bump u8Max (bump u8Max (bump u8Max (bump u8Max v))) / 2))
        (2 ^ 64 + 4) := by
    unfold runEager at heager ⊢
    rw [List.foldl_append, heager]
    simp only [List.replicate_succ, List.replicate_zero, List.foldl_cons, List.foldl_nil,
      EagerSketch.step]
    rw [flatEager_increment (by decide), flatEager_increment (by decide),
      flatEager_increment (by decide), flatEager_increment (by decide),
      flatEager_increment_next (by decide), hobserved]
  have hbyte : ∀ u, bump u8Max u ≤ u8Max := fun u => Nat.min_le_right _ _
  rw [hlazy5, heager5, flatLazy_estimate (hbyte _) (by decide), flatEager_estimate (hbyte _)]
  simp only [bump, u8Max]
  omega

end Decdn.Cache.Sketch
