import Decdn.Foundations.FiniteMaps
import Decdn.Foundations.Runs
import Decdn.Foundations.Words
import Mathlib.Data.List.Sort

/-!
# The eviction driver

The driver of `crates/node/src/runtime/eviction.rs`.  It cannot free disk itself:
it drops the tags that protect blobs, and a garbage collection deletes them later.
So it keeps `pendingReclaim`, the bytes it has released and not seen go, and reads
a drop of the raw total as a collection.

The store holds, for each hash, its bytes on disk and whether a tag protects them.
Between two ticks, fills, operator evictions and collections happen in any order;
the model adds up what they moved since the last measurement.

Main results:

- Theorem `reconciled_le_awaiting_iff`: exactly when a tick's bookkeeping stays within
  what is awaiting collection.
- Theorem `sweep_spec`: a sweep credits what it released, and stops at the target.
- Theorem `eviction_accounting`: the driver over every run in which no traffic hides a
  collection.
- Theorem `masked_collection_drifts`: a run in which it does.
-/

namespace Decdn.Node.Eviction

open Finset
open U64 (saturatingAdd)

variable {Hash : Type*} [DecidableEq Hash] [Fintype Hash]

/-! ## The store -/

/-- The bytes on disk of each hash, and whether a tag protects them. -/
structure Store (Hash : Type*) where
  size : Hash → Nat := fun _ => 0
  guarded : Hash → Bool := fun _ => false

/-- All bytes on disk. -/
def Store.total (s : Store Hash) : Nat := ∑ h, s.size h

/-- The bytes that the next collection may delete. -/
def Store.awaiting (s : Store Hash) : Nat := ∑ h, if s.guarded h then 0 else s.size h

/-- The bytes that stay after a full collection. -/
def Store.kept (s : Store Hash) : Nat := ∑ h, if s.guarded h then s.size h else 0

/-- The tag of a hash is dropped. -/
def Store.unguard (s : Store Hash) (hash : Hash) : Store Hash :=
  { s with guarded := Function.update s.guarded hash false }

/-- A fill writes bytes and protects the hash; a released blob is protected again. -/
def Store.fill (s : Store Hash) (hash : Hash) (bytes : Nat) : Store Hash where
  size := Function.update s.size hash (s.size hash + bytes)
  guarded := Function.update s.guarded hash true

/-- A collection deletes some of the unprotected blobs. -/
def Store.collect (s : Store Hash) (victims : Hash → Bool) : Store Hash :=
  { s with size := fun h => if victims h && !s.guarded h then 0 else s.size h }

/-! ## The driver -/

/-- The inputs of the ceiling. -/
structure Ceiling where
  configLimitBytes : Nat
  headroomBytes : Nat
  highWaterPct : Nat
  targetPct : Nat

/-- The state kept between ticks. -/
structure DriverState where
  evicting : Bool := false
  pendingReclaim : Nat := 0
  lastRaw : Option Nat := none

/-- `pct_of`. -/
def pctOf (base pct : Nat) : Nat := min u64Max (base * pct / 100)

/-- `effective_cap`. -/
def effectiveCap (configLimitBytes footprint freeBytes headroomBytes : Nat) : Nat :=
  let diskCeiling := saturatingAdd footprint (freeBytes - headroomBytes)
  if configLimitBytes < diskCeiling then configLimitBytes else diskCeiling

/-- `reconcile`: the driver's state and the effective footprint. -/
def reconcile (d : DriverState) (raw : Nat) : DriverState × Nat :=
  let pending :=
    match d.lastRaw with
    | some prev => if raw < prev then d.pendingReclaim - (prev - raw) else d.pendingReclaim
    | none => d.pendingReclaim
  ({ d with pendingReclaim := pending, lastRaw := some raw }, raw - pending)

/-- What a policy is given.  A candidate comes with its last access. -/
structure EvictionContext (Hash : Type*) where
  candidates : List (Hash × Nat)
  sizes : Hash → Nat
  totalBytes : Nat
  targetBytes : Nat
  budget : Nat
  cacheBytes : Nat

/-- An eviction policy: the hashes to release, in order. -/
abbrev Policy (Hash : Type*) := EvictionContext Hash → List Hash

/-- The outcome of `release_for_eviction` where a tag is there. -/
inductive Outcome where
  | refused
  | dropped
  | failed
deriving DecidableEq

/-- What a tick meets: its measurement, its free-disk reading, the candidates, and how each
release goes. -/
structure Probe (Hash : Type*) where
  measured : Bool
  freeBytes : Nat
  candidates : List (Hash × Nat)
  outcome : Hash → Outcome

/-- The configuration of the driver. -/
structure Params (Hash : Type*) where
  ceiling : Ceiling
  budget : Nat
  policy : Policy Hash

/-- One release of a sweep.  A hash without a tag, or pinned, returns `Ok(0)`. -/
def releaseOne (sizes : Hash → Nat) (outcome : Hash → Outcome) (acc : Store Hash × Nat)
    (hash : Hash) : Store Hash × Nat :=
  if outcome hash = .dropped ∧ acc.1.guarded hash = true then
    (acc.1.unguard hash, saturatingAdd acc.2 (sizes hash))
  else acc

/-- `sweep`: the store after it and the bytes released. -/
def sweep (P : Params Hash) (store : Store Hash) (probe : Probe Hash)
    (effective targetBytes cacheBytes : Nat) : Store Hash × Nat :=
  if probe.candidates.isEmpty then (store, 0)
  else
    (P.policy ⟨probe.candidates, store.size, effective, targetBytes, P.budget, cacheBytes⟩).foldl
      (releaseOne store.size probe.outcome) (store, 0)

/-- The raw total a tick measures. -/
def measure (store : Store Hash) : Nat := min u64Max store.total

/-- The two marks of a tick. -/
def cap (P : Params Hash) (store : Store Hash) (freeBytes : Nat) : Nat :=
  effectiveCap P.ceiling.configLimitBytes (measure store) freeBytes P.ceiling.headroomBytes

def highWaterBytes (P : Params Hash) (store : Store Hash) (freeBytes : Nat) : Nat :=
  pctOf (cap P store freeBytes) P.ceiling.highWaterPct

def targetBytes (P : Params Hash) (store : Store Hash) (freeBytes : Nat) : Nat :=
  pctOf (cap P store freeBytes) P.ceiling.targetPct

/-- The sweep of a tick and its booking. -/
def sweepTick (P : Params Hash) (store : Store Hash) (d : DriverState) (probe : Probe Hash)
    (effective : Nat) : Store Hash × DriverState :=
  let (store', freed) := sweep P store probe effective (targetBytes P store probe.freeBytes)
    (cap P store probe.freeBytes)
  (store', { d with evicting := true, pendingReclaim := saturatingAdd d.pendingReclaim freed })

/-- `tick`, once the store is measured. -/
def tick (P : Params Hash) (store : Store Hash) (d : DriverState) (probe : Probe Hash) :
    Store Hash × DriverState :=
  let (d, effective) := reconcile d (measure store)
  if d.evicting then
    if effective ≤ targetBytes P store probe.freeBytes then (store, { d with evicting := false })
    else sweepTick P store d probe effective
  else if effective ≤ highWaterBytes P store probe.freeBytes then (store, d)
  else sweepTick P store d probe effective

/-! ## The policy that ships by default -/

/-- The loop of `LruEviction::plan` over the ordered candidates. -/
def lruLoop (sizes : Hash → Nat) (totalBytes targetBytes budget : Nat) :
    List Hash → List Hash → Nat → List Hash
  | [], evict, _ => evict
  | h :: rest, evict, freed =>
    if totalBytes - freed ≤ targetBytes then evict
    else if budget ≤ evict.length then evict
    else lruLoop sizes totalBytes targetBytes budget rest (evict ++ [h])
      (saturatingAdd freed (sizes h))

/-- `LruEviction::plan`: oldest access first, equal ones largest first. -/
def lruPlan : Policy Hash := fun ctx =>
  let ordered := ctx.candidates.insertionSort fun a b =>
    a.2 < b.2 ∨ (a.2 = b.2 ∧ ctx.sizes b.1 ≤ ctx.sizes a.1)
  lruLoop ctx.sizes ctx.totalBytes ctx.targetBytes ctx.budget (ordered.map Prod.fst) [] 0

/-! ## The system -/

/-- What happened to the store since the last measurement, in bytes: written by fills, deleted by
collections, released by operator evictions, and protected again. -/
structure Traffic where
  wrote : Nat := 0
  collected : Nat := 0
  evicted : Nat := 0
  refetched : Nat := 0

/-- The store, the driver and, for the last measurement, what followed it and what was then
awaiting beyond the driver's books. -/
structure World (Hash : Type*) where
  store : Store Hash
  driver : DriverState := {}
  since : Traffic := {}
  slack : Nat := 0

inductive Event (Hash : Type*) where
  | fill (hash : Hash) (bytes : Nat)
  | collect (victims : Hash → Bool)
  | evict (hash : Hash)
  | tick (probe : Probe Hash)

/-- One event.  A volume holds no more than 2^64 - 1 bytes. -/
def World.apply (P : Params Hash) (w : World Hash) : Event Hash → Option (World Hash)
  | .fill hash bytes =>
    let store := w.store.fill hash bytes
    if store.total ≤ u64Max then
      some { w with
        store := store
        since := { w.since with
          wrote := w.since.wrote + bytes
          refetched := w.since.refetched +
            (if w.store.guarded hash then 0 else w.store.size hash) } }
    else none
  | .collect victims =>
    let store := w.store.collect victims
    some { w with
      store := store
      since := { w.since with
        collected := w.since.collected + (w.store.total - store.total) } }
  | .evict hash =>
    some { w with
      store := w.store.unguard hash
      since := { w.since with
        evicted := w.since.evicted +
          (if w.store.guarded hash then w.store.size hash else 0) } }
  | .tick probe =>
    -- A failed measurement skips the tick.
    if probe.measured then
      let (store, driver) := tick P w.store w.driver probe
      some {
        store := store
        driver := driver
        slack := store.awaiting - driver.pendingReclaim }
    else some w

def Step (P : Params Hash) (w : World Hash) (e : Event Hash) (w' : World Hash) : Prop :=
  w.apply P e = some w'

/-- The traffic before a tick hides no collection: what was protected again, and the smaller of
what was written and what was collected, are covered by operator evictions and the slack. -/
def Unmasked (w : World Hash) : Event Hash → Prop
  | .tick probe => probe.measured = true → w.driver.lastRaw ≠ none →
    w.since.refetched + min w.since.wrote w.since.collected ≤ w.since.evicted + w.slack
  | _ => True

variable {P : Params Hash} {w w' : World Hash} {e : Event Hash} {s : Store Hash}

/-! ## Totals of the store -/

omit [DecidableEq Hash] in
theorem total_eq (s : Store Hash) : s.total = s.kept + s.awaiting := by
  unfold Store.total Store.kept Store.awaiting
  rw [← sum_add_distrib]
  apply sum_congr rfl
  intro h _
  split <;> omega

/-- A release moves the bytes of one hash from kept to awaiting. -/
theorem awaiting_unguard (s : Store Hash) (hash : Hash) :
    (s.unguard hash).awaiting = s.awaiting + if s.guarded hash then s.size hash else 0 := by
  have hchange := sum_change (f := fun h => if s.guarded h then 0 else s.size h)
    (g := fun h => if (s.unguard hash).guarded h then 0 else (s.unguard hash).size h) hash
    (fun h hne => by simp only [Store.unguard, Function.update_of_ne hne])
  simp only [Store.unguard, Function.update_self] at hchange
  unfold Store.awaiting
  split <;> simp_all [Store.unguard]

theorem total_fill (s : Store Hash) (hash : Hash) (bytes : Nat) :
    (s.fill hash bytes).total = s.total + bytes := by
  have hchange := sum_change (f := s.size) (g := (s.fill hash bytes).size) hash
    (fun h hne => by simp only [Store.fill, Function.update_of_ne hne])
  simp only [Store.fill, Function.update_self] at hchange
  unfold Store.total
  simp only [Store.fill]
  omega

theorem awaiting_fill (s : Store Hash) (hash : Hash) (bytes : Nat) :
    (s.fill hash bytes).awaiting + (if s.guarded hash then 0 else s.size hash) = s.awaiting := by
  have hchange := sum_change (f := fun h => if s.guarded h then 0 else s.size h)
    (g := fun h => if (s.fill hash bytes).guarded h then 0 else (s.fill hash bytes).size h) hash
    (fun h hne => by simp only [Store.fill, Function.update_of_ne hne])
  simp only [Store.fill, Function.update_self, if_true] at hchange
  unfold Store.awaiting
  simp only [Store.fill]
  omega

omit [DecidableEq Hash] in
/-- A collection takes as much from the total as from what awaits it. -/
theorem collect_totals (s : Store Hash) (victims : Hash → Bool) :
    (s.collect victims).total ≤ s.total ∧
      (s.collect victims).awaiting + (s.total - (s.collect victims).total) = s.awaiting := by
  have hkept : (s.collect victims).kept = s.kept := by
    unfold Store.kept Store.collect
    apply sum_congr rfl
    intro h _
    dsimp only
    cases s.guarded h <;> simp
  have hle : (s.collect victims).awaiting ≤ s.awaiting := by
    unfold Store.awaiting Store.collect
    apply sum_le_sum
    intro h _
    dsimp only
    split
    · exact Nat.le_refl _
    · split
      · exact Nat.zero_le _
      · exact Nat.le_refl _
  have hbefore := total_eq s
  have hafter := total_eq (s.collect victims)
  omega

/-! ## Sweeps -/

/-- What the releases of a list do to a store, with a count of the bytes. -/
structure Released (s : Store Hash) (acc : Store Hash × Nat) : Prop where
  size : acc.1.size = s.size
  booked : acc.1.awaiting = s.awaiting + acc.2

theorem Released.one {acc : Store Hash × Nat} (h : Released s acc) (hfits : s.total ≤ u64Max)
    (outcome : Hash → Outcome) (hash : Hash) :
    Released s (releaseOne s.size outcome acc hash) ∧
      (releaseOne s.size outcome acc hash).2 ≤ acc.2 + s.size hash := by
  unfold releaseOne
  split
  · rename_i hgo
    have hunguard := awaiting_unguard acc.1 hash
    rw [hgo.2, if_pos rfl, h.size, h.booked] at hunguard
    have htotal := total_eq (acc.1.unguard hash)
    have hsame : (acc.1.unguard hash).total = s.total := by
      unfold Store.total Store.unguard
      rw [h.size]
    -- What is released is on disk, so the sum does not saturate.
    have hsum : saturatingAdd acc.2 (s.size hash) = acc.2 + s.size hash := by
      unfold saturatingAdd
      omega
    dsimp only
    rw [hsum]
    refine ⟨⟨h.size, ?_⟩, Nat.le_refl _⟩
    change (acc.1.unguard hash).awaiting = s.awaiting + (acc.2 + s.size hash)
    omega
  · exact ⟨h, Nat.le_add_right _ _⟩

theorem Released.foldl (hfits : s.total ≤ u64Max) (outcome : Hash → Outcome) (hashes : List Hash)
    {acc : Store Hash × Nat} (h : Released s acc) :
    Released s (hashes.foldl (releaseOne s.size outcome) acc) ∧
      (hashes.foldl (releaseOne s.size outcome) acc).2 ≤ acc.2 + (hashes.map s.size).sum := by
  induction hashes generalizing acc with
  | nil => exact ⟨h, Nat.le_add_right _ _⟩
  | cons hash hashes ih =>
    rcases h.one hfits outcome hash with ⟨hone, hle⟩
    rcases ih hone with ⟨hrest, hsum⟩
    simp only [List.foldl_cons, List.map_cons, List.sum_cons]
    exact ⟨hrest, by omega⟩

/-- A policy that plans no release once the target is reached. -/
def Stops (policy : Policy Hash) : Prop :=
  ∀ ctx first last, ctx.totalBytes ≤ u64Max → policy ctx = first ++ [last] →
    ctx.targetBytes + (first.map ctx.sizes).sum < ctx.totalBytes

/-- A sweep credits what it released, and a stopping policy overshoots by less than a blob. -/
theorem sweep_spec (hfits : s.total ≤ u64Max) (probe : Probe Hash)
    {effective : Nat} (heffective : effective ≤ u64Max) (target cacheBytes : Nat) :
    Released s (sweep P s probe effective target cacheBytes) ∧
      (Stops P.policy → (sweep P s probe effective target cacheBytes).2 ≠ 0 →
        ∃ hash, (sweep P s probe effective target cacheBytes).2 + target ≤
          effective + s.size hash) := by
  have hstart : Released s (s, 0) := ⟨rfl, rfl⟩
  unfold sweep
  split
  · exact ⟨hstart, fun _ hzero => absurd rfl hzero⟩
  · rcases hstart.foldl hfits probe.outcome
      (P.policy ⟨probe.candidates, s.size, effective, target, P.budget, cacheBytes⟩) with
      ⟨hreleased, hle⟩
    refine ⟨hreleased, fun hstops hsome => ?_⟩
    rcases List.eq_nil_or_concat
      (P.policy ⟨probe.candidates, s.size, effective, target, P.budget, cacheBytes⟩) with
      hnil | ⟨first, last, hlast⟩
    · rw [hnil] at hsome
      exact absurd rfl hsome
    · rw [List.concat_eq_append] at hlast
      have hstop := hstops _ first last heffective hlast
      rw [hlast] at hle ⊢
      rw [List.map_append, List.sum_append] at hle
      simp only [List.map_singleton, List.sum_singleton] at hle
      dsimp only at hstop
      exact ⟨last, by omega⟩

omit [DecidableEq Hash] [Fintype Hash] in
/-- The loop of the default policy plans a release only while the target is not reached. -/
theorem lruLoop_stops {sizes : Hash → Nat} {total target budget : Nat} (rest evict : List Hash)
    (hinv : ∀ first last, evict = first ++ [last] → target + (first.map sizes).sum < total)
    (first : List Hash) (last : Hash)
    (h : lruLoop sizes total target budget rest evict (min u64Max (evict.map sizes).sum) =
      first ++ [last]) (hfits : total ≤ u64Max) : target + (first.map sizes).sum < total := by
  induction rest generalizing evict with
  | nil => exact hinv first last h
  | cons hash rest ih =>
    unfold lruLoop at h
    split at h
    · exact hinv first last h
    · rename_i hover
      split at h
      · exact hinv first last h
      · have hfreed : saturatingAdd (min u64Max (evict.map sizes).sum) (sizes hash) =
            min u64Max ((evict ++ [hash]).map sizes).sum := by
          rw [List.map_append, List.sum_append]
          simp only [saturatingAdd, List.map_singleton, List.sum_singleton]
          omega
        rw [hfreed] at h
        refine ih (evict ++ [hash]) ?_ h
        intro first' last' heq
        rcases List.append_inj' heq rfl with ⟨rfl, -⟩
        omega

omit [DecidableEq Hash] [Fintype Hash] in
theorem lruPlan_stops : Stops (lruPlan : Policy Hash) := by
  intro ctx first last hfits h
  refine lruLoop_stops _ [] ?_ first last h hfits
  intro first' last' heq
  exact absurd heq.symm (List.append_ne_nil_of_right_ne_nil _ (List.cons_ne_nil _ _))

/-! ## Bookkeeping -/

/-- The traffic since the last measurement accounts for the difference to it. -/
structure Inv (w : World Hash) : Prop where
  fits : w.store.total ≤ u64Max
  fresh : w.driver.lastRaw = none → w.driver.pendingReclaim = 0
  raw : ∀ prev ∈ w.driver.lastRaw, w.store.total + w.since.collected = prev + w.since.wrote
  books : w.driver.lastRaw ≠ none →
    w.store.awaiting + w.since.collected + w.since.refetched =
      w.driver.pendingReclaim + w.slack + w.since.evicted

omit [DecidableEq Hash] in
/-- The bookkeeping of a tick stays within what awaits collection exactly when the traffic hides
no collection. -/
theorem reconciled_le_awaiting_iff (hinv : Inv w) {prev : Nat}
    (hprev : w.driver.lastRaw = some prev) :
    (reconcile w.driver (measure w.store)).1.pendingReclaim ≤ w.store.awaiting ↔
      w.since.refetched + min w.since.wrote w.since.collected ≤ w.since.evicted + w.slack := by
  have hraw := hinv.raw prev hprev
  have hbooks := hinv.books (by rw [hprev]; exact Option.some_ne_none prev)
  have hfits := hinv.fits
  have hmeasure : measure w.store = w.store.total := by
    unfold measure
    omega
  simp only [reconcile, hprev, hmeasure]
  split <;> omega

/-- The books after a tick that was measured. -/
theorem tick_cases (P : Params Hash) (store : Store Hash) (d : DriverState) (probe : Probe Hash) :
    (tick P store d probe).2.lastRaw = some (measure store) ∧
    ((tick P store d probe).1 = store ∧ (tick P store d probe).2.pendingReclaim =
        (reconcile d (measure store)).1.pendingReclaim ∨
      ∃ swept, swept = sweep P store probe (reconcile d (measure store)).2
          (targetBytes P store probe.freeBytes) (cap P store probe.freeBytes) ∧
        (tick P store d probe).1 = swept.1 ∧ (tick P store d probe).2.pendingReclaim =
          saturatingAdd (reconcile d (measure store)).1.pendingReclaim swept.2) := by
  unfold tick sweepTick
  dsimp only
  split
  · split
    · exact ⟨rfl, .inl ⟨rfl, rfl⟩⟩
    · exact ⟨rfl, .inr ⟨_, rfl, rfl, rfl⟩⟩
  · split
    · exact ⟨rfl, .inl ⟨rfl, rfl⟩⟩
    · exact ⟨rfl, .inr ⟨_, rfl, rfl, rfl⟩⟩

omit [DecidableEq Hash] in
theorem measure_eq (hinv : Inv w) : measure w.store = w.store.total := by
  have hfits := hinv.fits
  unfold measure
  omega

omit [DecidableEq Hash] in
/-- The bookkeeping of a tick whose traffic hides nothing. -/
theorem Inv.reconciled (hinv : Inv w) {probe : Probe Hash} (hmeasured : probe.measured = true)
    (hguard : Unmasked w (.tick probe)) :
    (reconcile w.driver (measure w.store)).1.pendingReclaim ≤ w.store.awaiting := by
  cases hprev : w.driver.lastRaw with
  | none =>
    simp only [reconcile, hprev, hinv.fresh hprev]
    exact Nat.zero_le _
  | some prev =>
    rw [reconciled_le_awaiting_iff hinv hprev]
    exact hguard hmeasured (by rw [hprev]; exact Option.some_ne_none prev)

/-- What a measured tick books: the bytes it released, on both sides. -/
theorem Inv.tick (hinv : Inv w) {probe : Probe Hash} (hmeasured : probe.measured = true)
    (hguard : Unmasked w (.tick probe)) :
    ∃ freed, (tick P w.store w.driver probe).1.size = w.store.size ∧
      (tick P w.store w.driver probe).1.awaiting = w.store.awaiting + freed ∧
      (tick P w.store w.driver probe).2.pendingReclaim =
        (reconcile w.driver (measure w.store)).1.pendingReclaim + freed ∧
      (Stops P.policy → freed ≠ 0 → ∃ hash,
        freed + targetBytes P w.store probe.freeBytes ≤
          (reconcile w.driver (measure w.store)).2 + w.store.size hash) := by
  have hle := hinv.reconciled hmeasured hguard
  have hfits := hinv.fits
  rcases (tick_cases P w.store w.driver probe).2 with ⟨hstore, hpending⟩ |
    ⟨swept, hswept, hstore, hpending⟩
  · rw [hstore, hpending]
    exact ⟨0, rfl, rfl, rfl, fun _ hzero => absurd rfl hzero⟩
  · have heffective : (reconcile w.driver (measure w.store)).2 ≤ u64Max := by
      rw [measure_eq hinv]
      exact Nat.le_trans (Nat.sub_le _ _) hfits
    rcases sweep_spec (P := P) hfits probe heffective (targetBytes P w.store probe.freeBytes)
      (cap P w.store probe.freeBytes) with ⟨hreleased, hstop⟩
    rw [← hswept] at hreleased hstop
    have htotal := total_eq swept.1
    have hsame : swept.1.total = w.store.total := by
      unfold Store.total
      rw [hreleased.size]
    have hbooked := hreleased.booked
    have hsum : saturatingAdd (reconcile w.driver (measure w.store)).1.pendingReclaim swept.2 =
        (reconcile w.driver (measure w.store)).1.pendingReclaim + swept.2 := by
      unfold saturatingAdd
      omega
    rw [hstore, hpending, hsum]
    exact ⟨swept.2, hreleased.size, hbooked, rfl, hstop⟩

/-- A measured tick starts a new account. -/
theorem Inv.after_tick (hinv : Inv w) {probe : Probe Hash} (hmeasured : probe.measured = true)
    (hguard : Unmasked w (.tick probe)) (h : Step P w (.tick probe) w') :
    w'.store = (Eviction.tick P w.store w.driver probe).1 ∧
      w'.driver = (Eviction.tick P w.store w.driver probe).2 ∧
      w'.since = {} ∧ w'.slack = w'.store.awaiting - w'.driver.pendingReclaim ∧
      w'.driver.pendingReclaim ≤ w'.store.awaiting ∧ Inv w' := by
  rcases hinv.tick (P := P) hmeasured hguard with ⟨freed, hsize, hawaiting, hpending, -⟩
  have hle := hinv.reconciled hmeasured hguard
  have hlast := (tick_cases P w.store w.driver probe).1
  have hfits := hinv.fits
  have htotal : (Eviction.tick P w.store w.driver probe).1.total = w.store.total := by
    unfold Store.total
    rw [hsize]
  simp only [Step, World.apply, hmeasured, if_true] at h
  rcases Option.some.inj h with rfl
  refine ⟨rfl, rfl, rfl, rfl, by dsimp only; omega, ?_⟩
  constructor
  · dsimp only
    omega
  · intro hnone
    rw [hlast] at hnone
    cases hnone
  · intro prev hprev
    rw [Option.mem_def, hlast] at hprev
    rcases Option.some.inj hprev with rfl
    dsimp only
    rw [htotal, measure_eq hinv]
  · intro _
    dsimp only
    omega

/-- Every event keeps the account. -/
theorem Inv.step (hinv : Inv w) (hguard : Unmasked w e) (h : Step P w e w') : Inv w' := by
  cases e with
  | fill hash bytes =>
    simp only [Step, World.apply] at h
    split at h
    · rename_i hroom
      rcases Option.some.inj h with rfl
      have htotal := total_fill w.store hash bytes
      have hawaiting := awaiting_fill w.store hash bytes
      refine ⟨hroom, hinv.fresh, ?_, ?_⟩
      · intro prev hprev
        have hraw := hinv.raw prev hprev
        dsimp only
        omega
      · intro hsome
        have hbooks := hinv.books hsome
        dsimp only
        omega
    · cases h
  | collect victims =>
    rcases Option.some.inj h with rfl
    rcases collect_totals w.store victims with ⟨hle, hawaiting⟩
    have hfits := hinv.fits
    refine ⟨by dsimp only; omega, hinv.fresh, ?_, ?_⟩
    · intro prev hprev
      have hraw := hinv.raw prev hprev
      dsimp only
      omega
    · intro hsome
      have hbooks := hinv.books hsome
      dsimp only
      omega
  | evict hash =>
    rcases Option.some.inj h with rfl
    have hawaiting := awaiting_unguard w.store hash
    refine ⟨hinv.fits, hinv.fresh, hinv.raw, ?_⟩
    intro hsome
    have hbooks := hinv.books hsome
    dsimp only
    omega
  | tick probe =>
    by_cases hmeasured : probe.measured = true
    · exact (hinv.after_tick hmeasured hguard h).2.2.2.2.2
    · simp only [Step, World.apply, hmeasured] at h
      rcases Option.some.inj h with rfl
      exact hinv

/-! ## Quiet runs -/

/-- The effective footprint the next tick decides on. -/
def effective (w : World Hash) : Nat := (reconcile w.driver (measure w.store)).2

/-- Ticks with nothing in between. -/
def runTicks (P : Params Hash) (w : World Hash) (probes : List (Probe Hash)) :
    Option (World Hash) :=
  runEvents (World.apply P) (fun _ _ => true) w (probes.map .tick)

omit [DecidableEq Hash] in
/-- The target depends on the store only by its total. -/
theorem targetBytes_congr {s s' : Store Hash} (h : s'.size = s.size) (freeBytes : Nat) :
    targetBytes P s' freeBytes = targetBytes P s freeBytes := by
  have hmeasure : measure s' = measure s := by
    unfold measure Store.total
    rw [h]
  unfold targetBytes cap
  rw [hmeasure]

/-- Ticks over a quiet store release at most what leads from the effective footprint to the
target of some tick, and one blob. -/
theorem quiet_released (hstops : Stops P.policy) (probes : List (Probe Hash)) (hinv : Inv w)
    (hguard : ∀ probe, Unmasked w (.tick probe)) (h : runTicks P w probes = some w') :
    w'.store.size = w.store.size ∧ w.store.awaiting ≤ w'.store.awaiting ∧
      (w'.store.awaiting ≠ w.store.awaiting → ∃ probe ∈ probes, ∃ hash,
        w'.store.awaiting - w.store.awaiting + targetBytes P w.store probe.freeBytes ≤
          effective w + w.store.size hash) := by
  induction probes generalizing w with
  | nil =>
    rcases Option.some.inj h with rfl
    exact ⟨rfl, Nat.le_refl _, fun hne => absurd rfl hne⟩
  | cons probe rest ih =>
    simp only [runTicks, List.map_cons, runEvents, if_true] at h
    split at h
    · rename_i u hstep
      by_cases hmeasured : probe.measured = true
      · rcases hinv.after_tick hmeasured (hguard probe) hstep with
          ⟨hstore, hdriver, hsince, hslack, hle, hinv'⟩
        rcases hinv.tick (P := P) hmeasured (hguard probe) with
          ⟨freed, hsize, hawaiting, hpending, hstop⟩
        rw [← hstore] at hsize hawaiting
        rw [← hdriver] at hpending
        have hquiet : ∀ probe', Unmasked u (.tick probe') := by
          intro probe' _ _
          rw [hsince]
          exact Nat.zero_le _
        rcases ih hinv' hquiet h with ⟨hsize', hmono, hrest⟩
        have htotal : u.store.total = w.store.total := by
          unfold Store.total
          rw [hsize]
        -- Nothing came in between, so the footprint fell by what was released.
        have hlast : u.driver.lastRaw = some (measure u.store) := by
          rw [hdriver, (tick_cases P w.store w.driver probe).1, measure_eq hinv, measure_eq hinv',
            htotal]
        have hafter : effective u = measure u.store - u.driver.pendingReclaim := by
          simp [effective, reconcile, hlast]
        have hbefore : effective w = measure w.store -
            (reconcile w.driver (measure w.store)).1.pendingReclaim := rfl
        have hmeasure := measure_eq hinv
        have hmeasure' := measure_eq hinv'
        have hparts := total_eq u.store
        have heffective : effective u = effective w - freed := by omega
        have hkept : freed ≤ effective w := by omega
        refine ⟨by rw [hsize', hsize], by omega, ?_⟩
        intro hne
        by_cases hmore : w'.store.awaiting = u.store.awaiting
        · rcases hstop hstops (by omega) with ⟨hash, hbound⟩
          refine ⟨probe, List.mem_cons_self, hash, ?_⟩
          change freed + _ ≤ effective w + _ at hbound
          omega
        · rcases hrest hmore with ⟨probe', hmem, hash, hbound⟩
          rw [targetBytes_congr hsize, heffective, hsize] at hbound
          exact ⟨probe', List.mem_cons_of_mem _ hmem, hash, by omega⟩
      · simp only [World.apply, hmeasured] at hstep
        rcases Option.some.inj hstep with rfl
        rcases ih hinv hguard h with ⟨hsize, hmono, hrest⟩
        refine ⟨hsize, hmono, fun hne => ?_⟩
        rcases hrest hne with ⟨probe', hmem, hash, hbound⟩
        exact ⟨probe', List.mem_cons_of_mem _ hmem, hash, hbound⟩
    · cases h

/-! ## The driver over whole runs -/

/-- Eviction accounting, over every run in which no traffic hides a collection.  Each measured tick
decides on a footprint that is not below what stays after collection, and so is idle above the
high-water mark for no byte that nobody reclaims; it books what it released, within what awaits
collection; once latched, it releases nothing at or below the target; and over a quiet store it
releases no more than leads to the target, and one blob. -/
theorem eviction_accounting {store : Store Hash} (hstops : Stops P.policy)
    (hfits : store.total ≤ u64Max) (h : Reaches (Step P) Unmasked ⟨store, {}, {}, 0⟩ w) :
    (∀ probe w', probe.measured = true → Unmasked w (.tick probe) → Step P w (.tick probe) w' →
      (reconcile w.driver (measure w.store)).1.pendingReclaim ≤ w.store.awaiting ∧
      w.store.kept ≤ effective w ∧
      (w.driver.evicting = false → effective w ≤ highWaterBytes P w.store probe.freeBytes →
        w'.store = w.store ∧ w.store.kept ≤ highWaterBytes P w.store probe.freeBytes) ∧
      (w.driver.evicting = true → effective w ≤ targetBytes P w.store probe.freeBytes →
        w'.store = w.store) ∧
      (∃ freed, w'.store.size = w.store.size ∧
        w'.store.awaiting = w.store.awaiting + freed ∧ w'.driver.pendingReclaim =
          (reconcile w.driver (measure w.store)).1.pendingReclaim + freed) ∧
      w'.driver.pendingReclaim ≤ w'.store.awaiting) ∧
    (∀ probes w', (∀ probe, Unmasked w (.tick probe)) → runTicks P w probes = some w' →
      w'.store.awaiting ≠ w.store.awaiting → ∃ probe ∈ probes, ∃ hash,
        w'.store.awaiting - w.store.awaiting + targetBytes P w.store probe.freeBytes ≤
          effective w + w.store.size hash) := by
  have hinv : Inv w := by
    refine h.invariant ⟨hfits, fun _ => rfl, ?_, fun hsome => absurd rfl hsome⟩
      fun _ _ _ hguard hstep ha => ha.step hguard hstep
    intro prev hprev
    cases hprev
  refine ⟨?_, fun probes w' hguard hrun hne =>
    (quiet_released hstops probes hinv hguard hrun).2.2 hne⟩
  intro probe w' hmeasured hguard hstep
  have hle := hinv.reconciled hmeasured hguard
  rcases hinv.after_tick hmeasured hguard hstep with ⟨hstore, hdriver, -, -, hle', -⟩
  rcases hinv.tick (P := P) hmeasured hguard with ⟨freed, hsize, hawaiting, hpending, -⟩
  rw [← hstore] at hsize hawaiting
  rw [← hdriver] at hpending
  have hkept : w.store.kept ≤ effective w := by
    have hbefore : effective w = measure w.store -
        (reconcile w.driver (measure w.store)).1.pendingReclaim := rfl
    have hmeasure := measure_eq hinv
    have hparts := total_eq w.store
    omega
  refine ⟨hle, hkept, ?_, ?_, ⟨freed, hsize, hawaiting, hpending⟩, hle'⟩
  · intro hlatch hidle
    refine ⟨?_, Nat.le_trans hkept hidle⟩
    change (reconcile w.driver (measure w.store)).2 ≤ _ at hidle
    have hnot : (reconcile w.driver (measure w.store)).1.evicting = false := hlatch
    rw [hstore, Eviction.tick]
    dsimp only
    rw [hnot, if_neg Bool.false_ne_true, if_pos hidle]
  · intro hlatch hdone
    change (reconcile w.driver (measure w.store)).2 ≤ _ at hdone
    have hset : (reconcile w.driver (measure w.store)).1.evicting = true := hlatch
    rw [hstore, Eviction.tick]
    dsimp only
    rw [hset, if_pos rfl, if_pos hdone]

/-- A limit of 100 bytes, high-water mark 80, target 60. -/
def sampleParams : Params (Fin 4) where
  ceiling := ⟨100, 0, 80, 60⟩
  budget := 16
  policy := lruPlan

/-- A measured tick on a large disk, with the blobs as candidates in order. -/
def sampleProbe : Probe (Fin 4) where
  measured := true
  freeBytes := 1000
  candidates := [(0, 0), (1, 1), (2, 2), (3, 3)]
  outcome := fun _ => .dropped

/-- Three blobs of 30 bytes. -/
def sampleStore : Store (Fin 4) where
  size := fun h => if h.val < 3 then 30 else 0
  guarded := fun h => decide (h.val < 3)

/-- A tick releases a blob, a collection deletes it, and the next tick books that. -/
theorem eviction_accounting_sample :
    ∃ w w' : World (Fin 4), Reaches (Step sampleParams) Unmasked ⟨sampleStore, {}, {}, 0⟩ w ∧
      Step sampleParams w (.tick sampleProbe) w' ∧ w.store.awaiting = 0 ∧
      w'.driver.pendingReclaim ≤ w'.store.awaiting := by
  have hrun : ((World.apply sampleParams ⟨sampleStore, {}, {}, 0⟩ (.tick sampleProbe)).bind
      fun u => (World.apply sampleParams u (.collect fun _ => true)).bind fun w =>
        (World.apply sampleParams w (.tick sampleProbe)).map fun _ =>
          (w.store.awaiting, w.since.refetched + min w.since.wrote w.since.collected)) =
      some (0, 0) := by
    decide +kernel
  rcases Option.bind_eq_some_iff.mp hrun with ⟨u, hu, hrest⟩
  rcases Option.bind_eq_some_iff.mp hrest with ⟨w, hw, hlast⟩
  rcases Option.map_eq_some_iff.mp hlast with ⟨w', hw', hfacts⟩
  rcases Prod.mk.inj hfacts with ⟨hawaiting, hquiet⟩
  have hfits : sampleStore.total ≤ u64Max := by decide
  have hguard : Unmasked w (.tick sampleProbe) := by
    intro _ _
    rw [hquiet]
    exact Nat.zero_le _
  have hreach : Reaches (Step sampleParams) Unmasked ⟨sampleStore, {}, {}, 0⟩ w := by
    refine .tail (e := .collect fun _ => true)
      (.tail (e := .tick sampleProbe) (.refl _) ?_ hu) trivial hw
    intro _ hsome
    exact absurd rfl hsome
  exact ⟨w, w', hreach, hw', hawaiting,
    ((eviction_accounting lruPlan_stops hfits hreach).1 sampleProbe w' rfl hguard hw').2.2.2.2.2⟩

/-- The driver releases one blob; a collection deletes it while as much is written.  The books
still expect the bytes, and the driver is idle at 90 bytes that nobody will reclaim. -/
theorem masked_collection_drifts :
    ∃ w w' : World (Fin 4),
      Reaches (Step sampleParams) (fun _ _ => True) ⟨sampleStore, {}, {}, 0⟩ w ∧
      Step sampleParams w (.tick sampleProbe) w' ∧
      w.store.awaiting = 0 ∧ highWaterBytes sampleParams w.store sampleProbe.freeBytes = 80 ∧
      w.store.kept = 90 ∧ effective w = 60 ∧ w'.driver.pendingReclaim = 30 ∧
      w'.store.awaiting = 0 := by
  have hrun : ((runEvents (World.apply sampleParams) (fun _ _ => true)
      ⟨sampleStore, {}, {}, 0⟩
      [.tick sampleProbe, .collect fun _ => true, .fill 3 30]).bind fun w =>
        (World.apply sampleParams w (.tick sampleProbe)).map fun w' =>
        (w.store.awaiting, highWaterBytes sampleParams w.store sampleProbe.freeBytes,
          w.store.kept, effective w, w'.driver.pendingReclaim, w'.store.awaiting)) =
      some (0, 80, 90, 60, 30, 0) := by
    decide +kernel
  rcases Option.bind_eq_some_iff.mp hrun with ⟨w, hw, hrest⟩
  rcases Option.map_eq_some_iff.mp hrest with ⟨w', hw', hfacts⟩
  simp only [Prod.mk.injEq] at hfacts
  exact ⟨w, w', Reaches.of_runEvents (fun _ _ _ => trivial) hw, hw', hfacts⟩

end Decdn.Node.Eviction
