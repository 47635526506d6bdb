import Decdn.Foundations.Runs
import Mathlib.Data.List.Basic
import Mathlib.Tactic.Cases

/-!
# The debounced checkpoint store

The store that buffers watcher checkpoints and writes them down now and then
(`DebouncedCheckpointStore` of `payment_settlement.rs`).  Each key has its own
bookkeeping, made when the key is first recorded.  The store below may fail to
read, refuse a write, or take a write and still report a failure, and the clock
may read anything.

Main results:

- Theorem `record_good`, `flush_good`: one call keeps what a key buffers and what is
  written down between the start and the highest recorded block.
- Theorem `debounced_checkpoint`: after any calls nothing runs ahead or back, and a
  flush that succeeds writes the highest recorded block.
-/

namespace Decdn.Node

/-! ## The bookkeeping of one key -/

/-- `DebounceState`. -/
structure DebounceState where
  lastPersisted : Option Nat
  lastPersistAt : Nat
  pending : Option Nat
  seeded : Bool
deriving DecidableEq, Repr

/-- The thresholds of `with_params`. -/
structure DebounceParams where
  flushBlocks : Nat
  flushInterval : Nat
deriving DecidableEq, Repr

/-- How a write on the inner store ends: it is done, it is refused without a trace, or it is done
and reported as failed. -/
inductive WriteOutcome where
  | done
  | refused
  | unconfirmed
deriving DecidableEq, Repr

/-- What a call meets: the clock when the key's entry is made, when the thresholds are checked and
after a write, whether the inner store can be read, and how a write on it ends. -/
structure Surroundings where
  createdAt : Nat
  checkedAt : Nat
  writtenAt : Nat
  readable : Bool
  write : WriteOutcome
deriving DecidableEq, Repr

/-- Which call on the inner store failed. -/
inductive InnerFault where
  | load
  | record
deriving DecidableEq, Repr

/-- One key: the checkpoint on the inner store, and the bookkeeping in memory. -/
structure CheckpointSlot where
  persisted : Option Nat
  entry : Option DebounceState
deriving DecidableEq, Repr

/-- `persist_locked`: forward a block to the inner store and reset the window; a failed write leaves
the bookkeeping as it is. -/
def persistLocked (persisted : Option Nat) (state : DebounceState) (block : Nat)
    (env : Surroundings) : CheckpointSlot × Except InnerFault Unit :=
  match env.write with
  | .done =>
    (⟨some block, some { state with
      lastPersisted := some block, lastPersistAt := env.writtenAt, pending := none }⟩, .ok ())
  | .refused => (⟨persisted, some state⟩, .error .record)
  | .unconfirmed => (⟨some block, some state⟩, .error .record)

/-- `load_checkpoint`. -/
def CheckpointSlot.load (slot : CheckpointSlot) (env : Surroundings) :
    Except InnerFault (Option Nat) :=
  if env.readable then
    .ok (match slot.persisted, slot.entry.bind (·.pending) with
      | some a, some b => some (max a b)
      | a, b => a.or b)
  else .error .load

/-- The entry a key starts with. -/
def DebounceState.opened (env : Surroundings) : DebounceState :=
  ⟨none, env.createdAt, none, false⟩

/-- What follows the seeding of `record_checkpoint`: raise the buffered block, and write it down if
a threshold is met. -/
def recordSeeded (p : DebounceParams) (persisted : Option Nat) (state : DebounceState)
    (firstRecord : Bool) (block : Nat) (env : Surroundings) :
    CheckpointSlot × Except InnerFault Unit :=
  let highest := max ((max state.pending state.lastPersisted).getD 0) block
  let buffered := { state with pending := some highest }
  if state.lastPersisted = some highest then (⟨persisted, some buffered⟩, .ok ())
  else
    let blocksAhead := highest - state.lastPersisted.getD 0
    let elapsed := env.checkedAt - state.lastPersistAt
    if firstRecord ∨ p.flushBlocks ≤ blocksAhead ∨ p.flushInterval ≤ elapsed then
      persistLocked persisted buffered highest env
    else (⟨persisted, some buffered⟩, .ok ())

/-- `record_checkpoint`. -/
def CheckpointSlot.record (p : DebounceParams) (slot : CheckpointSlot) (block : Nat)
    (env : Surroundings) : CheckpointSlot × Except InnerFault Unit :=
  let state := slot.entry.getD (DebounceState.opened env)
  if state.seeded then recordSeeded p slot.persisted state false block env
  else if env.readable then
    recordSeeded p slot.persisted
      { state with lastPersisted := slot.persisted, seeded := true } true block env
  else (⟨slot.persisted, some state⟩, .error .load)

/-- `flush_checkpoint`. -/
def CheckpointSlot.flush (slot : CheckpointSlot) (env : Surroundings) :
    CheckpointSlot × Except InnerFault Unit :=
  match slot.entry with
  | none => (slot, .ok ())
  | some state =>
    match state.pending with
    | some block =>
      if state.lastPersisted ≠ some block then persistLocked slot.persisted state block env
      else (slot, .ok ())
    | none => (slot, .ok ())

/-! ## The highest recorded block -/

/-- A checkpoint is not behind itself. -/
theorem le_self (a : Option Nat) : a ≤ a := by
  cases a with
  | none => exact Option.none_le
  | some x => exact Option.some_le_some.mpr (Nat.le_refl x)

/-- Being behind carries over. -/
theorem le_through {a b c : Option Nat} (hab : a ≤ b) (hbc : b ≤ c) : a ≤ c := by
  cases a with
  | none => exact Option.none_le
  | some x =>
    cases b with
    | none => exact absurd hab Option.not_some_le_none
    | some y =>
      cases c with
      | none => exact absurd hbc Option.not_some_le_none
      | some z =>
        exact Option.some_le_some.mpr
          (Nat.le_trans (Option.some_le_some.mp hab) (Option.some_le_some.mp hbc))

/-- The higher of two is the one in front. -/
theorem max_eq_of_le {a b : Option Nat} (h : a ≤ b) : max b a = b :=
  Option.max_eq_right (fun _ _ => Nat.max_eq_left) h

/-- The highest of the checkpoint found at the start and the blocks recorded since. -/
def highestRecorded (start : Option Nat) (blocks : List Nat) : Option Nat :=
  blocks.foldl (fun highest block => max highest (some block)) start

theorem highestRecorded_concat (start : Option Nat) (blocks : List Nat) (block : Nat) :
    highestRecorded start (blocks ++ [block]) =
      max (highestRecorded start blocks) (some block) := by
  unfold highestRecorded
  rw [List.foldl_append]
  rfl

/-- What the code writes for the highest of two optional blocks and one more. -/
theorem max_some_eq (highest : Option Nat) (block : Nat) :
    max highest (some block) = some (max (highest.getD 0) block) := by
  cases highest with
  | none => exact congrArg some (Nat.zero_max block).symm
  | some a => rfl

/-- A block is the highest that a seeded key knows of: it is buffered above what is written down, or
it is written down and the buffer is empty. -/
def CheckpointSlot.Tops (top : Nat) (slot : CheckpointSlot) : Prop :=
  ∃ state, slot.entry = some state ∧ state.seeded = true ∧
    (state.pending = some top ∧ state.lastPersisted ≤ slot.persisted ∧ slot.persisted ≤ some top ∨
      state.pending = none ∧ state.lastPersisted = some top ∧ slot.persisted = some top)

/-- A key in order: nothing is recorded before the seeding, and afterwards the key knows of the
highest recorded block. -/
def CheckpointSlot.Good (start : Option Nat) (blocks : List Nat) (slot : CheckpointSlot) : Prop :=
  (blocks = [] ∧ slot.persisted = start ∧ ∀ state, slot.entry = some state →
    state.seeded = false ∧ state.pending = none) ∨
  ∃ top, highestRecorded start blocks = some top ∧ slot.Tops top

/-! ## One call -/

/-- What a write can do: it is confirmed and empties the buffer, or it fails and leaves the buffer
for another try. -/
theorem persistLocked_spec {persisted : Option Nat} {top : Nat} (state : DebounceState)
    (hseeded : state.seeded = true) (hpending : state.pending = some top)
    (hlow : state.lastPersisted ≤ persisted) (hhigh : persisted ≤ some top) (env : Surroundings) :
    (persistLocked persisted state top env).1.Tops top ∧
      persisted ≤ (persistLocked persisted state top env).1.persisted ∧
      ((persistLocked persisted state top env).2 = .ok () ∧
          (persistLocked persisted state top env).1.persisted = some top ∨
        (persistLocked persisted state top env).2 = .error .record ∧
          (persistLocked persisted state top env).1.entry = some state) := by
  unfold persistLocked
  cases hwrite : env.write with
  | done => exact ⟨⟨_, rfl, hseeded, .inr ⟨rfl, rfl, rfl⟩⟩, hhigh, .inl ⟨rfl, rfl⟩⟩
  | refused =>
    exact ⟨⟨state, rfl, hseeded, .inl ⟨hpending, hlow, hhigh⟩⟩, le_self _, .inr ⟨rfl, rfl⟩⟩
  | unconfirmed =>
    have hlow' : state.lastPersisted ≤ some top := le_through hlow hhigh
    exact ⟨⟨state, rfl, hseeded, .inl ⟨hpending, hlow', le_self _⟩⟩, hhigh,
      .inr ⟨rfl, rfl⟩⟩

/-- What a seeded key does with a block: the highest block goes to the buffer or below, and a write
that fails leaves it in the buffer. -/
theorem recordSeeded_spec (p : DebounceParams) {persisted : Option Nat} (state : DebounceState)
    (firstRecord : Bool) {known : Option Nat} (block : Nat) (env : Surroundings)
    (hseeded : state.seeded = true) (hknown : max state.pending state.lastPersisted = known)
    (hlow : state.lastPersisted ≤ persisted) (hhigh : persisted ≤ known) :
    ∃ top, max known (some block) = some top ∧
      (recordSeeded p persisted state firstRecord block env).1.Tops top ∧
      persisted ≤ (recordSeeded p persisted state firstRecord block env).1.persisted ∧
      ((recordSeeded p persisted state firstRecord block env).2 = .ok () ∨
        (recordSeeded p persisted state firstRecord block env).2 = .error .record ∧
          ∃ kept, (recordSeeded p persisted state firstRecord block env).1.entry = some kept ∧
            kept.pending = some top ∧ kept.lastPersistAt = state.lastPersistAt) := by
  have htop := max_some_eq known block
  refine ⟨_, htop, ?_⟩
  unfold recordSeeded
  rw [hknown]
  dsimp only
  generalize max (known.getD 0) block = top at htop ⊢
  have hhigh' : persisted ≤ some top := by
    rw [← htop]
    exact le_through hhigh (Option.left_le_max Nat.le_refl Nat.le_max_left)
  have hbuffered : (⟨persisted, some { state with pending := some top }⟩ : CheckpointSlot).Tops
      top := ⟨_, rfl, hseeded, .inl ⟨rfl, hlow, hhigh'⟩⟩
  split
  · exact ⟨hbuffered, le_self _, .inl rfl⟩
  · split
    · rcases persistLocked_spec { state with pending := some top } hseeded rfl hlow hhigh' env with
      ⟨htops, hle, ⟨hok, -⟩ | ⟨herror, hentry⟩⟩
      · exact ⟨htops, hle, .inl hok⟩
      · exact ⟨htops, hle, .inr ⟨herror, _, hentry, rfl, rfl⟩⟩
    · exact ⟨hbuffered, le_self _, .inl rfl⟩

variable {p : DebounceParams} {start : Option Nat} {blocks : List Nat} {slot : CheckpointSlot}
  {env : Surroundings}

/-- `record_checkpoint` on a key in order.  A key whose stored checkpoint cannot be read takes
nothing; any other takes the block, and a write that fails leaves the highest block buffered. -/
theorem record_good (p : DebounceParams) (env : Surroundings) (h : slot.Good start blocks)
    (block : Nat) :
    slot.persisted ≤ (slot.record p block env).1.persisted ∧
      ((slot.record p block env).2 = .error .load ∧
          (slot.record p block env).1.persisted = slot.persisted ∧
          (slot.record p block env).1.Good start blocks ∨
        (slot.record p block env).1.Good start (blocks ++ [block]) ∧
          ((slot.record p block env).2 = .ok () ∨
            (slot.record p block env).2 = .error .record ∧
              ∃ kept, (slot.record p block env).1.entry = some kept ∧
                kept.pending = highestRecorded start (blocks ++ [block]))) := by
  unfold CheckpointSlot.record
  rcases h with ⟨rfl, hstart, hfresh⟩ | ⟨top, hhighest, state, hentry, hseeded, hplace⟩
  · -- nothing recorded so far: the entry, if there is one, is not seeded
    have hstate : (slot.entry.getD (DebounceState.opened env)).seeded = false ∧
        (slot.entry.getD (DebounceState.opened env)).pending = none := by
      cases hentry : slot.entry with
      | none => exact ⟨rfl, rfl⟩
      | some state => exact hfresh state hentry
    generalize slot.entry.getD (DebounceState.opened env) = state at hstate
    rcases hstate with ⟨hunseeded, hempty⟩
    dsimp only
    rw [hunseeded, if_neg Bool.false_ne_true]
    split
    · have hknown : max state.pending slot.persisted = start := by
        rw [hempty, hstart]
        exact Option.max_none_left
      rcases recordSeeded_spec p { state with lastPersisted := slot.persisted, seeded := true } true
        block env rfl hknown (le_self _) (by rw [hstart]; exact le_self _)
        with ⟨top, htop, htops, hle, hresult⟩
      have hhighest : highestRecorded start ([] ++ [block]) = some top := by
        rw [highestRecorded_concat]
        exact htop
      refine ⟨hle, .inr ⟨.inr ⟨top, hhighest, htops⟩, ?_⟩⟩
      rcases hresult with hok | ⟨herror, kept, hkept, hpending, -⟩
      · exact .inl hok
      · exact .inr ⟨herror, kept, hkept, by rw [hpending, hhighest]⟩
    · refine ⟨le_self _, .inl ⟨rfl, rfl, .inl ⟨rfl, hstart, ?_⟩⟩⟩
      rintro _ ⟨rfl⟩
      exact ⟨hunseeded, hempty⟩
  · rw [hentry, Option.getD_some]
    dsimp only
    rw [if_pos hseeded]
    have hplaces : max state.pending state.lastPersisted = some top ∧
        state.lastPersisted ≤ slot.persisted ∧ slot.persisted ≤ some top := by
      rcases hplace with ⟨hpending, hlow, hhigh⟩ | ⟨hpending, hlast, hpersisted⟩
      · rw [hpending]
        exact ⟨max_eq_of_le (le_through hlow hhigh), hlow, hhigh⟩
      · rw [hpending, hlast, hpersisted]
        exact ⟨rfl, le_self _, le_self _⟩
    rcases hplaces with ⟨hknown, hlow, hhigh⟩
    rcases recordSeeded_spec p state false block env hseeded hknown hlow hhigh with
      ⟨next, hnext, htops, hle, hresult⟩
    have hhighest' : highestRecorded start (blocks ++ [block]) = some next := by
      rw [highestRecorded_concat, hhighest, hnext]
    refine ⟨hle, .inr ⟨.inr ⟨next, hhighest', htops⟩, ?_⟩⟩
    rcases hresult with hok | ⟨herror, kept, hkept, hpending, -⟩
    · exact .inl hok
    · exact .inr ⟨herror, kept, hkept, by rw [hpending, hhighest']⟩

/-- `flush_checkpoint` on a key in order: it succeeds only with the highest block written down. -/
theorem flush_good (env : Surroundings) (h : slot.Good start blocks) :
    (slot.flush env).1.Good start blocks ∧ slot.persisted ≤ (slot.flush env).1.persisted ∧
      ((slot.flush env).2 = .ok () ∧
          (slot.flush env).1.persisted = highestRecorded start blocks ∨
        (slot.flush env).2 = .error .record ∧ (slot.flush env).1.entry = slot.entry ∧
          ∃ kept, slot.entry = some kept ∧ kept.pending = highestRecorded start blocks) := by
  unfold CheckpointSlot.flush
  rcases h with ⟨rfl, hstart, hfresh⟩ | ⟨top, hhighest, state, hentry, hseeded, hplace⟩
  · cases hentry : slot.entry with
    | none => exact ⟨.inl ⟨rfl, hstart, hfresh⟩, le_self _, .inl ⟨rfl, hstart⟩⟩
    | some state =>
      dsimp only
      rw [(hfresh state hentry).2]
      exact ⟨.inl ⟨rfl, hstart, hfresh⟩, le_self _, .inl ⟨rfl, hstart⟩⟩
  · rw [hentry]
    dsimp only
    rcases hplace with ⟨hpending, hlow, hhigh⟩ | ⟨hpending, hlast, hpersisted⟩
    · rw [hpending]
      dsimp only
      split
      · rcases persistLocked_spec state hseeded hpending hlow hhigh env with
          ⟨htops, hle, ⟨hok, hdone⟩ | ⟨herror, hkept⟩⟩
        · exact ⟨.inr ⟨top, hhighest, htops⟩, hle, .inl ⟨hok, hdone.trans hhighest.symm⟩⟩
        · exact ⟨.inr ⟨top, hhighest, htops⟩, hle,
            .inr ⟨herror, hkept, state, rfl, hpending.trans hhighest.symm⟩⟩
      · rename_i hsame
        rw [not_not] at hsame
        have hdone : slot.persisted = some top := by
          rw [hsame] at hlow
          cases hpersisted : slot.persisted with
          | none =>
            rw [hpersisted] at hlow
            exact absurd hlow Option.not_some_le_none
          | some x =>
            rw [hpersisted] at hlow hhigh
            rw [Nat.le_antisymm (Option.some_le_some.mp hhigh) (Option.some_le_some.mp hlow)]
        exact ⟨.inr ⟨top, hhighest, state, hentry, hseeded, .inl ⟨hpending, hlow, hhigh⟩⟩,
          le_self _, .inl ⟨rfl, hdone.trans hhighest.symm⟩⟩
    · rw [hpending]
      exact ⟨.inr ⟨top, hhighest, state, hentry, hseeded, .inr ⟨hpending, hlast, hpersisted⟩⟩,
        le_self _, .inl ⟨rfl, hpersisted.trans hhighest.symm⟩⟩

/-- `load_checkpoint` on a key in order: the highest recorded block. -/
theorem load_good (h : slot.Good start blocks) (hreadable : env.readable = true) :
    slot.load env = .ok (max slot.persisted (slot.entry.bind (·.pending))) ∧
      slot.load env = .ok (highestRecorded start blocks) := by
  have hmax : slot.load env = .ok (max slot.persisted (slot.entry.bind (·.pending))) := by
    unfold CheckpointSlot.load
    rw [if_pos hreadable]
    cases slot.persisted <;> cases slot.entry.bind (·.pending) <;> rfl
  refine ⟨hmax, hmax.trans (congrArg _ ?_)⟩
  rcases h with ⟨rfl, hstart, hfresh⟩ | ⟨top, hhighest, state, hentry, -, hplace⟩
  · have hempty : slot.entry.bind (·.pending) = none := by
      cases hentry : slot.entry with
      | none => rfl
      | some state => exact (hfresh state hentry).2
    rw [hempty, hstart]
    exact Option.max_none_right
  · rw [hentry, hhighest, Option.bind_some]
    rcases hplace with ⟨hpending, -, hhigh⟩ | ⟨hpending, -, hpersisted⟩
    · rw [hpending]
      exact Option.max_eq_left (fun _ _ => Nat.max_eq_right) hhigh
    · rw [hpending, hpersisted]
      rfl

/-- A flush whose write goes through succeeds. -/
theorem flush_done (hwrite : env.write = .done) : (slot.flush env).2 = .ok () := by
  unfold CheckpointSlot.flush persistLocked
  rw [hwrite]
  split
  · rfl
  · split
    · split
      · rfl
      · rfl
    · rfl

/-! ## Sequences of calls -/

/-- A call on the store, with what it meets. -/
inductive CheckpointCall (κ : Type) where
  | record (key : κ) (block : Nat) (env : Surroundings)
  | load (key : κ) (env : Surroundings)
  | flush (key : κ) (env : Surroundings)

/-- The store, and the blocks each key has recorded since the start. -/
structure DebouncedStore (κ : Type) where
  slots : κ → CheckpointSlot
  recorded : κ → List Nat

variable {κ : Type} [DecidableEq κ]

/-- A store made over the checkpoints it finds. -/
def DebouncedStore.new (found : κ → Option Nat) : DebouncedStore κ :=
  ⟨fun key => ⟨found key, none⟩, fun _ => []⟩

/-- One call.  A block counts as recorded unless the call fails to read the key's stored
checkpoint. -/
def DebouncedStore.call (p : DebounceParams) (s : DebouncedStore κ) :
    CheckpointCall κ → DebouncedStore κ
  | .record key block env =>
    let (slot, result) := (s.slots key).record p block env
    ⟨Function.update s.slots key slot,
      if result = .error .load then s.recorded
      else Function.update s.recorded key (s.recorded key ++ [block])⟩
  | .load _ _ => s
  | .flush key env => ⟨Function.update s.slots key ((s.slots key).flush env).1, s.recorded⟩

/-- Every key is in order. -/
def DebouncedStore.Good (found : κ → Option Nat) (s : DebouncedStore κ) : Prop :=
  ∀ key, (s.slots key).Good (found key) (s.recorded key)

/-- A call keeps every key in order and takes no checkpoint back. -/
theorem call_good {found : κ → Option Nat} {s : DebouncedStore κ} (h : s.Good found)
    (c : CheckpointCall κ) :
    (s.call p c).Good found ∧
      ∀ key, (s.slots key).persisted ≤ ((s.call p c).slots key).persisted := by
  cases c with
  | load key env => exact ⟨h, fun key => le_self _⟩
  | flush key env =>
    have hflush := flush_good env (h key)
    constructor
    · intro other
      unfold DebouncedStore.call
      dsimp only
      by_cases hkey : other = key
      · subst hkey
        rw [Function.update_self]
        exact hflush.1
      · rw [Function.update_of_ne hkey]
        exact h other
    · intro other
      unfold DebouncedStore.call
      dsimp only
      by_cases hkey : other = key
      · subst hkey
        rw [Function.update_self]
        exact hflush.2.1
      · rw [Function.update_of_ne hkey]
        exact le_self _
  | record key block env =>
    rcases record_good p env (h key) block with ⟨hle, hresult⟩
    constructor
    · intro other
      unfold DebouncedStore.call
      dsimp only
      by_cases hkey : other = key
      · subst hkey
        rw [Function.update_self]
        rcases hresult with ⟨herror, -, hgood⟩ | ⟨hgood, hresult⟩
        · rw [if_pos herror]
          exact hgood
        · have hno : ((s.slots other).record p block env).2 ≠ .error .load := by
            rcases hresult with hok | ⟨herror, -⟩
            · rw [hok]
              exact nofun
            · rw [herror]
              exact nofun
          rw [if_neg hno, Function.update_self]
          exact hgood
      · rw [Function.update_of_ne hkey]
        have hsame : (if ((s.slots key).record p block env).2 = .error .load then s.recorded
            else Function.update s.recorded key (s.recorded key ++ [block])) other =
              s.recorded other := by
          split
          · rfl
          · exact Function.update_of_ne hkey _ _
        rw [hsame]
        exact h other
    · intro other
      unfold DebouncedStore.call
      dsimp only
      by_cases hkey : other = key
      · subst hkey
        rw [Function.update_self]
        exact hle
      · rw [Function.update_of_ne hkey]
        exact le_self _

/-- After any calls, with the inner store failing anywhere and any clock: the written checkpoint is
not above the highest recorded block and no call takes it back, a load gives the higher of the
written and the buffered block, a flush that succeeds leaves the highest recorded block written, and
a failed write leaves it buffered, where a flush that gets through writes it. -/
theorem debounced_checkpoint (found : κ → Option Nat) {s : DebouncedStore κ}
    (hrun : Reaches (fun s c t => t = s.call p c) (fun _ _ => True) (.new found) s) (key : κ) :
    (s.slots key).persisted ≤ highestRecorded (found key) (s.recorded key) ∧
      (∀ c, (s.slots key).persisted ≤ ((s.call p c).slots key).persisted) ∧
      (∀ env, env.readable = true →
        (s.slots key).load env =
            .ok (max (s.slots key).persisted ((s.slots key).entry.bind (·.pending))) ∧
          (s.slots key).load env = .ok (highestRecorded (found key) (s.recorded key))) ∧
      (∀ env, ((s.slots key).flush env).2 = .ok () → ((s.slots key).flush env).1.persisted =
        highestRecorded (found key) (s.recorded key)) ∧
      (∀ env, ((s.slots key).flush env).2 ≠ .ok () →
        ((s.slots key).flush env).1.entry = (s.slots key).entry ∧
          ∃ kept, (s.slots key).entry = some kept ∧
            kept.pending = highestRecorded (found key) (s.recorded key)) ∧
      (∀ block env, ((s.slots key).record p block env).2 = .error .record →
        ∃ kept, ((s.slots key).record p block env).1.entry = some kept ∧
          kept.pending = highestRecorded (found key) (s.recorded key ++ [block]) ∧
          ∀ retry, retry.write = .done →
            (((s.slots key).record p block env).1.flush retry).1.persisted = kept.pending) := by
  have hgood : s.Good found := by
    refine hrun.invariant (I := fun s => s.Good found) ?_ ?_
    · exact fun key => .inl ⟨rfl, rfl, nofun⟩
    · rintro a c b - rfl ha
      exact (call_good ha c).1
  have hkey := hgood key
  refine ⟨?_, fun c => (call_good hgood c).2 key, fun env hreadable => load_good hkey hreadable,
    ?_, ?_, ?_⟩
  · rcases hkey with ⟨hnone, hstart, -⟩ | ⟨top, hhighest, state, -, -, hplace⟩
    · rw [hnone, hstart]
      exact le_self _
    · rw [hhighest]
      rcases hplace with ⟨-, -, hhigh⟩ | ⟨-, -, hpersisted⟩
      · exact hhigh
      · rw [hpersisted]
        exact le_self _
  · intro env hok
    rcases flush_good env hkey with ⟨-, -, ⟨-, hdone⟩ | ⟨herror, -⟩⟩
    · exact hdone
    · rw [herror] at hok
      cases hok
  · intro env hfail
    rcases flush_good env hkey with ⟨-, -, ⟨hok, -⟩ | ⟨-, hkept⟩⟩
    · exact absurd hok hfail
    · exact hkept
  · intro block env herror
    rcases (record_good p env hkey block).2 with ⟨hload, -⟩ | ⟨hnext, hresult⟩
    · rw [herror] at hload
      cases hload
    · rcases hresult with hok | ⟨-, kept, hentry, hpending⟩
      · rw [herror] at hok
        cases hok
      · refine ⟨kept, hentry, hpending, fun retry hwrite => ?_⟩
        rcases flush_good retry hnext with ⟨-, -, ⟨-, hdone⟩ | ⟨hrefused, -⟩⟩
        · rw [hdone, hpending]
        · rw [flush_done hwrite] at hrefused
          cases hrefused

/-- An inner store that answers, and ends a write as told. -/
def sampleSurroundings (write : WriteOutcome) : Surroundings := ⟨0, 1, 1, true, write⟩

/-- Block 5 is written at once, block 8 is buffered, and a flush of it is refused. -/
def sampleCheckpoints : DebouncedStore Bool :=
  (((DebouncedStore.new fun _ => none).call ⟨10, 60⟩
      (.record true 5 (sampleSurroundings .done))).call ⟨10, 60⟩
      (.record true 8 (sampleSurroundings .done))).call ⟨10, 60⟩
    (.flush true (sampleSurroundings .refused))

/-- A load gives the buffered block 8 while 5 is written, and the next flush writes it. -/
theorem debounced_checkpoint_sample :
    (sampleCheckpoints.slots true).persisted = some 5 ∧
      (sampleCheckpoints.slots true).load (sampleSurroundings .done) = .ok (some 8) ∧
      ((sampleCheckpoints.slots true).flush (sampleSurroundings .done)).1.persisted = some 8 := by
  have hrun : Reaches (fun s c t => t = s.call ⟨10, 60⟩ c) (fun _ _ => True)
      (.new fun _ => none) sampleCheckpoints :=
    (((Reaches.refl _).tail trivial rfl).tail trivial rfl).tail trivial rfl
  rcases debounced_checkpoint _ hrun true with ⟨-, -, hload, hflush, -, -⟩
  exact ⟨by decide, (hload (sampleSurroundings .done) rfl).2,
    hflush (sampleSurroundings .done) (flush_done rfl)⟩

end Decdn.Node
