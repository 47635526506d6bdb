import Decdn.Node.LaneStore

/-!
# Durability of the lane store

A key drained by one flush and not yet committed is invisible to every other
flush, and two commits may land in the other order than their snapshots were
taken.  When no two flush calls overlap neither happens: a returned flush has
put every write completed before its start on disk, the disk never goes back to
an older version, and a failed commit leaves every unsaved key on the work-list.

Main results:

- Theorem `StoreInv.step`: one exclusive step keeps the invariant.
- Theorem `flush_durable`: the three properties over every exclusive run.
-/

namespace Decdn.Node

open Incentive

variable {s s' : LaneStore} {f : Nat} {key : LaneKey}

/-! ## The invariant -/

/-- The versions, the working set and the disk agree. -/
structure Versions (s : LaneStore) : Prop where
  disk_le : ∀ k, s.diskVersion k ≤ s.version k
  completed_le : ∀ k, s.completed k ≤ s.version k
  unpushed_le : ∀ k n, (k, n) ∈ s.unpushed → n ≤ s.version k
  seen_le : ∀ f k, s.seen f k ≤ s.version k
  current : ∀ k, (s.lanes k).bind LaneSlot.row = s.history k (s.version k)
  disk_eq : ∀ k, s.disk k = s.history k (s.diskVersion k)
  absent : ∀ k, s.lanes k = none → s.diskVersion k = s.version k

/-- The call will bring version `n` of the key to disk, or hand the key back. -/
def FlushPhase.Covers (phase : FlushPhase) (k : LaneKey) (n : Nat) : Prop :=
  match phase with
  | .draining drained => k ∈ drained
  | .snapshotting _ todo saved => k ∈ todo ∨ ∃ row, saved k = some row ∧ n ≤ row.version
  | .requeuing left => k ∈ left
  | _ => False

/-- What one flush call has secured of the writes it saw at its start. -/
def PhaseOk (s : LaneStore) (f : Nat) : Prop :=
  match s.phase f with
  | .idle | .requeuing _ | .returned false => True
  | .draining drained => ∀ k, s.seen f k ≤ s.diskVersion k ∨ k ∈ s.dirty ∨ k ∈ drained
  | .snapshotting drained todo saved =>
    todo ⊆ drained ∧
      (∀ k row, saved k = some row → k ∈ drained ∧ s.diskVersion k ≤ row.version ∧
        row.version ≤ s.version k ∧ row.slot.row = s.history k row.version) ∧
      ∀ k, s.seen f k ≤ s.diskVersion k ∨ k ∈ todo ∨
        ∃ row, saved k = some row ∧ s.seen f k ≤ row.version
  | .reaping left =>
    (∀ k ∈ left, s.disk k = none) ∧ ∀ k, s.seen f k ≤ s.diskVersion k
  | .returned true => ∀ k, s.seen f k ≤ s.diskVersion k

/-- The invariant of exclusive runs. -/
structure StoreInv (s : LaneStore) : Prop where
  versions : Versions s
  single : ∀ f g, (s.phase f).busy = true → (s.phase g).busy = true → f = g
  covered : ∀ k, k ∈ s.dirty ∨ s.completed k ≤ s.diskVersion k ∨
    ∃ f, (s.phase f).Covers k (s.completed k)
  phases : ∀ f, PhaseOk s f

/-- A store just opened satisfies the invariant. -/
theorem StoreInv.opened (disk : LaneKey → Option LaneState) : StoreInv (LaneStore.opened disk) where
  versions :=
    { disk_le := fun _ => le_rfl
      completed_le := fun _ => le_rfl
      unpushed_le := fun _ _ h => absurd h List.not_mem_nil
      seen_le := fun _ _ => le_rfl
      current := fun k => by
        cases h : disk k with
        | none => simp [LaneStore.opened, h]
        | some state => simp [LaneStore.opened, h, LaneSlot.row]
      disk_eq := fun _ => rfl
      absent := fun _ _ => rfl }
  single f g h := by simp [LaneStore.opened, FlushPhase.busy] at h
  covered k := .inr (.inl le_rfl)
  phases f := trivial

/-! ## Writes and pushes -/

/-- Replacing a slot makes a new version and touches nothing a flush has
secured. -/
theorem StoreInv.setSlot (h : StoreInv s) (key : LaneKey) (slot : LaneSlot) :
    StoreInv (s.setSlot key slot) := by
  have hv := h.versions
  have hgrow : ∀ k, s.version k ≤ (s.setSlot key slot).version k := by
    intro k
    by_cases hk : k = key
    · subst hk
      simp [LaneStore.setSlot]
    · simp [LaneStore.setSlot, hk]
  -- Versions already made keep their rows.
  have hkeep : ∀ k n, n ≤ s.version k → (s.setSlot key slot).history k n = s.history k n := by
    intro k n hn
    by_cases hk : k = key
    · subst hk
      have hne : n ≠ s.version k + 1 := by omega
      simp [LaneStore.setSlot, hne]
    · simp [LaneStore.setSlot, hk]
  refine ⟨⟨?_, ?_, ?_, ?_, ?_, ?_, ?_⟩, h.single, h.covered, ?_⟩
  · intro k
    exact le_trans (hv.disk_le k) (hgrow k)
  · intro k
    exact le_trans (hv.completed_le k) (hgrow k)
  · intro k n hmem
    rcases List.mem_cons.mp hmem with heq | hmem
    · obtain ⟨rfl, rfl⟩ := Prod.mk.inj heq
      simp [LaneStore.setSlot]
    · exact le_trans (hv.unpushed_le k n hmem) (hgrow k)
  · intro f k
    exact le_trans (hv.seen_le f k) (hgrow k)
  · intro k
    by_cases hk : k = key
    · subst hk
      simp [LaneStore.setSlot]
    · simpa [LaneStore.setSlot, hk] using hv.current k
  · intro k
    rw [show (s.setSlot key slot).disk k = s.disk k from rfl, hv.disk_eq k]
    exact (hkeep k _ (hv.disk_le k)).symm
  · intro k hnone
    by_cases hk : k = key
    · subst hk
      simp [LaneStore.setSlot] at hnone
    · simp only [LaneStore.setSlot, Function.update_of_ne hk] at hnone ⊢
      exact hv.absent k hnone
  · intro f
    have hphase := h.phases f
    unfold PhaseOk at hphase ⊢
    rw [show (s.setSlot key slot).phase f = s.phase f from rfl]
    split at hphase
    · trivial
    · trivial
    · trivial
    · exact hphase
    · refine ⟨hphase.1, ?_, hphase.2.2⟩
      intro k row hrow
      rcases hphase.2.1 k row hrow with ⟨hmem, hdisk, hle, hrow⟩
      exact ⟨hmem, hdisk, le_trans hle (hgrow k), by rw [hkeep k _ hle]; exact hrow⟩
    · exact hphase
    · exact hphase

/-- Every write keeps the invariant. -/
theorem StoreInv.write (h : StoreInv s) (w : StoreWrite) : StoreInv (s.write w) := by
  cases w with
  | record state =>
    unfold LaneStore.write
    dsimp only
    split
    · exact h.setSlot _ _
    · exact h.setSlot _ _
  | setRegisteredUntil key registeredUntil =>
    unfold LaneStore.write
    dsimp only
    split
    · split
      · exact h.setSlot _ _
      · exact h
    · exact h
  | setPaidCumulative key paidCumulative =>
    unfold LaneStore.write
    dsimp only
    split
    · split
      · exact h.setSlot _ _
      · exact h
    · exact h
  | forget key => exact h.setSlot _ _

/-- A write does not reach the disk. -/
theorem LaneStore.write_diskVersion (s : LaneStore) (w : StoreWrite) (k : LaneKey) :
    (s.write w).diskVersion k = s.diskVersion k := by
  cases w with
  | record state =>
    unfold LaneStore.write
    dsimp only
    split <;> rfl
  | setRegisteredUntil key registeredUntil =>
    unfold LaneStore.write
    dsimp only
    split
    · split <;> rfl
    · rfl
  | setPaidCumulative key paidCumulative =>
    unfold LaneStore.write
    dsimp only
    split
    · split <;> rfl
    · rfl
  | forget key => rfl

/-- Pushing a key completes its write and puts it on the work-list. -/
theorem StoreInv.push {n : Nat} (h : StoreInv s) (hmem : (key, n) ∈ s.unpushed) :
    StoreInv (s.pushKey key n) := by
  have hv := h.versions
  refine ⟨⟨hv.disk_le, ?_, ?_, hv.seen_le, hv.current, hv.disk_eq, hv.absent⟩, h.single, ?_, ?_⟩
  · intro k
    by_cases hk : k = key
    · subst hk
      simpa [LaneStore.pushKey] using ⟨hv.completed_le k, hv.unpushed_le k n hmem⟩
    · simpa [LaneStore.pushKey, hk] using hv.completed_le k
  · intro k m hm
    exact hv.unpushed_le k m (List.mem_of_mem_erase hm)
  · intro k
    by_cases hk : k = key
    · exact .inl (by simp [LaneStore.pushKey, hk])
    · rcases h.covered k with hdirty | hdisk | hflush
      · exact .inl (List.mem_append_left _ hdirty)
      · exact .inr (.inl (by simpa [LaneStore.pushKey, hk] using hdisk))
      · exact .inr (.inr (by simpa [LaneStore.pushKey, hk] using hflush))
  · intro f
    have hphase := h.phases f
    unfold PhaseOk at hphase ⊢
    rw [show (s.pushKey key n).phase f = s.phase f from rfl]
    split at hphase
    · trivial
    · trivial
    · trivial
    · intro k
      rcases hphase k with hdisk | hdirty | hdrained
      · exact .inl hdisk
      · exact .inr (.inl (List.mem_append_left _ hdirty))
      · exact .inr (.inr hdrained)
    · exact hphase
    · exact hphase
    · exact hphase

/-! ## Flush steps -/

/-- A call that is not running covers nothing. -/
theorem FlushPhase.Covers.busy {phase : FlushPhase} {n : Nat} (h : phase.Covers key n) :
    phase.busy = true := by
  cases phase with
  | idle => exact h.elim
  | draining => rfl
  | snapshotting => rfl
  | requeuing => rfl
  | reaping => rfl
  | returned => exact h.elim

/-- While a call runs, it alone covers what is neither queued nor on disk. -/
theorem StoreInv.covered_by (h : StoreInv s) (hbusy : (s.phase f).busy = true) (k : LaneKey) :
    k ∈ s.dirty ∨ s.completed k ≤ s.diskVersion k ∨ (s.phase f).Covers k (s.completed k) := by
  rcases h.covered k with hdirty | hdisk | ⟨g, hcovers⟩
  · exact .inl hdirty
  · exact .inr (.inl hdisk)
  · rw [h.single f g hbusy hcovers.busy]
    exact .inr (.inr hcovers)

/-- What a call that is not running has secured outlasts every step of others. -/
theorem PhaseOk.of_not_busy (h : PhaseOk s f) (hidle : (s.phase f).busy = false)
    (hphase : s'.phase f = s.phase f) (hseen : s'.seen f = s.seen f)
    (hgrow : ∀ k, s.diskVersion k ≤ s'.diskVersion k) : PhaseOk s' f := by
  unfold PhaseOk at h ⊢
  rw [hphase, hseen]
  cases hcase : s.phase f with
  | idle => trivial
  | draining | snapshotting | requeuing | reaping => simp [hcase, FlushPhase.busy] at hidle
  | returned ok =>
    rw [hcase] at h
    cases ok with
    | false => trivial
    | true =>
      intro k
      exact le_trans (h k) (hgrow k)

/-- A step of the one running call keeps the invariant once its own phase, the
versions and the coverage are settled. -/
theorem StoreInv.of_flush (h : StoreInv s) (hbusy : (s.phase f).busy = true)
    (hothers : ∀ g, g ≠ f → s'.phase g = s.phase g) (hseen : s'.seen = s.seen)
    (hgrow : ∀ k, s.diskVersion k ≤ s'.diskVersion k) (hversions : Versions s')
    (hcovered : ∀ k, k ∈ s'.dirty ∨ s'.completed k ≤ s'.diskVersion k ∨
      (s'.phase f).Covers k (s'.completed k))
    (hok : PhaseOk s' f) : StoreInv s' := by
  have hidle : ∀ g, g ≠ f → (s.phase g).busy = false := by
    intro g hg
    by_contra hrun
    exact hg (h.single g f (by simpa using hrun) hbusy)
  have hone : ∀ g, (s'.phase g).busy = true → g = f := by
    intro g hrun
    by_contra hg
    rw [hothers g hg, hidle g hg] at hrun
    cases hrun
  refine ⟨hversions, ?_, ?_, ?_⟩
  · intro g g' hg hg'
    rw [hone g hg, hone g' hg']
  · intro k
    rcases hcovered k with hdirty | hdisk | hflush
    · exact .inl hdirty
    · exact .inr (.inl hdisk)
    · exact .inr (.inr ⟨f, hflush⟩)
  · intro g
    by_cases hg : g = f
    · exact hg ▸ hok
    · exact (h.phases g).of_not_busy (hidle g hg) (hothers g hg) (by rw [hseen]) hgrow

/-- Moving a call to another phase changes no version. -/
theorem Versions.setPhase (h : Versions s) (f : Nat) (phase : FlushPhase) :
    Versions (s.setPhase f phase) :=
  ⟨h.disk_le, h.completed_le, h.unpushed_le, h.seen_le, h.current, h.disk_eq, h.absent⟩

/-- Neither does a change of the work-list. -/
theorem Versions.setDirty (h : Versions s) (dirty : List LaneKey) :
    Versions { s with dirty := dirty } :=
  ⟨h.disk_le, h.completed_le, h.unpushed_le, h.seen_le, h.current, h.disk_eq, h.absent⟩

/-- A running call keeps the invariant when it moves to a phase that still
covers its keys. -/
theorem StoreInv.setPhase {phase : FlushPhase} (h : StoreInv s) (hbusy : (s.phase f).busy = true)
    (hcovers : ∀ k, (s.phase f).Covers k (s.completed k) →
      k ∈ s.dirty ∨ s.completed k ≤ s.diskVersion k ∨ phase.Covers k (s.completed k))
    (hok : PhaseOk (s.setPhase f phase) f) : StoreInv (s.setPhase f phase) := by
  refine h.of_flush hbusy ?_ rfl (fun _ => le_rfl) (h.versions.setPhase f phase) ?_ hok
  · intro g hg
    exact Function.update_of_ne hg _ _
  · intro k
    rw [show (s.setPhase f phase).phase f = phase from Function.update_self _ _ _]
    rcases h.covered_by hbusy k with hdirty | hdisk | hflush
    · exact .inl hdirty
    · exact .inr (.inl hdisk)
    · exact hcovers k hflush

/-- A call starts while no other runs: every completed write is on the work-list
or on disk. -/
theorem StoreInv.start (h : StoreInv s) (hidle : ∀ g, (s.phase g).busy = false) :
    StoreInv { s.setPhase f (.draining ∅) with seen := Function.update s.seen f s.completed } := by
  have hv := h.versions
  have hqueued : ∀ k, k ∈ s.dirty ∨ s.completed k ≤ s.diskVersion k := by
    intro k
    rcases h.covered k with hdirty | hdisk | ⟨g, hcovers⟩
    · exact .inl hdirty
    · exact .inr hdisk
    · have hrun := hcovers.busy
      rw [hidle g] at hrun
      cases hrun
  have hother : ∀ g, g ≠ f → Function.update s.phase f (.draining ∅) g = s.phase g :=
    fun g hg => Function.update_of_ne hg _ _
  refine ⟨⟨hv.disk_le, hv.completed_le, hv.unpushed_le, ?_, hv.current, hv.disk_eq, hv.absent⟩,
    ?_, ?_, ?_⟩
  · intro g k
    by_cases hg : g = f
    · subst hg
      simpa [LaneStore.setPhase] using hv.completed_le k
    · simpa [LaneStore.setPhase, hg] using hv.seen_le g k
  · have hone : ∀ g, (Function.update s.phase f (.draining ∅) g).busy = true → g = f := by
      intro g hrun
      by_contra hg
      rw [hother g hg, hidle g] at hrun
      cases hrun
    intro g g' hg hg'
    rw [hone g hg, hone g' hg']
  · intro k
    exact (hqueued k).imp_right .inl
  · intro g
    by_cases hg : g = f
    · subst hg
      simp only [PhaseOk, LaneStore.setPhase, Function.update_self]
      intro k
      rcases hqueued k with hdirty | hdisk
      · exact .inr (.inl hdirty)
      · exact .inl hdisk
    · exact (h.phases g).of_not_busy (hidle g) (hother g hg) (Function.update_of_ne hg _ _)
        fun _ => le_rfl

/-- Popping moves a key from the work-list to the drained set. -/
theorem StoreInv.pop {drained : Finset LaneKey} {dirty : List LaneKey} (h : StoreInv s)
    (hphase : s.phase f = .draining drained) (hdirty : s.dirty = key :: dirty) :
    StoreInv { s.setPhase f (.draining (insert key drained)) with dirty := dirty } := by
  have hbusy : (s.phase f).busy = true := by rw [hphase]; rfl
  have hmoved : ∀ k, k ∈ s.dirty → k ∈ dirty ∨ k ∈ insert key drained := by
    intro k hk
    rw [hdirty] at hk
    rcases List.mem_cons.mp hk with rfl | hk
    · exact .inr (Finset.mem_insert_self k drained)
    · exact .inl hk
  refine h.of_flush hbusy ?_ rfl (fun _ => le_rfl)
    ((h.versions.setPhase f _).setDirty dirty) ?_ ?_
  · intro g hg
    exact Function.update_of_ne hg _ _
  · intro k
    simp only [LaneStore.setPhase, Function.update_self, FlushPhase.Covers]
    rcases h.covered_by hbusy k with hk | hdisk | hflush
    · exact (hmoved k hk).imp_right .inr
    · exact .inr (.inl hdisk)
    · rw [hphase] at hflush
      exact .inr (.inr (Finset.mem_insert_of_mem hflush))
  · have hok := h.phases f
    simp only [PhaseOk, hphase] at hok
    simp only [PhaseOk, LaneStore.setPhase, Function.update_self]
    intro k
    rcases hok k with hdisk | hk | hk
    · exact .inl hdisk
    · exact .inr (hmoved k hk)
    · exact .inr (.inr (Finset.mem_insert_of_mem hk))

/-- An empty work-list ends the drain; a call that drained nothing returns. -/
theorem StoreInv.drained_none (h : StoreInv s) (hphase : s.phase f = .draining ∅)
    (hdirty : s.dirty = []) : StoreInv (s.setPhase f (.returned true)) := by
  have hok := h.phases f
  simp only [PhaseOk, hphase, hdirty] at hok
  refine h.setPhase (by rw [hphase]; rfl) ?_ ?_
  · intro k hk
    rw [hphase] at hk
    exact absurd hk (Finset.notMem_empty k)
  · simp only [PhaseOk, LaneStore.setPhase, Function.update_self]
    intro k
    simpa using hok k

/-- A call that drained keys goes on to clone their slots. -/
theorem StoreInv.drained_some {drained : Finset LaneKey} (h : StoreInv s)
    (hphase : s.phase f = .draining drained) (hdirty : s.dirty = []) :
    StoreInv (s.setPhase f (.snapshotting drained drained fun _ => none)) := by
  have hok := h.phases f
  simp only [PhaseOk, hphase, hdirty] at hok
  refine h.setPhase (by rw [hphase]; rfl) ?_ ?_
  · intro k hk
    rw [hphase] at hk
    exact .inr (.inr (.inl hk))
  · simp only [PhaseOk, LaneStore.setPhase, Function.update_self]
    refine ⟨subset_rfl, fun k row hrow => absurd hrow (by simp), ?_⟩
    intro k
    rcases hok k with hdisk | hk | hk
    · exact .inl hdisk
    · exact absurd hk List.not_mem_nil
    · exact .inr (.inl hk)

/-- Cloning one slot secures its newest version.  A key without a slot is on disk
already. -/
theorem StoreInv.snapshot {drained todo : Finset LaneKey} {saved : LaneKey → Option Saved}
    (h : StoreInv s) (hphase : s.phase f = .snapshotting drained todo saved) (hkey : key ∈ todo) :
    StoreInv (s.setPhase f (.snapshotting drained (todo.erase key)
      (match s.lanes key with
      | some slot => Function.update saved key (some ⟨s.version key, slot⟩)
      | none => saved))) := by
  have hv := h.versions
  have hok := h.phases f
  simp only [PhaseOk, hphase] at hok
  rcases hok with ⟨hsub, hsaved, hseen⟩
  have herase : ∀ k, k ≠ key → k ∈ todo → k ∈ todo.erase key :=
    fun k hk hmem => Finset.mem_erase.mpr ⟨hk, hmem⟩
  cases hslot : s.lanes key with
  | none =>
    have hdisk := hv.absent key hslot
    refine h.setPhase (by rw [hphase]; rfl) ?_ ?_
    · intro k hk
      rw [hphase] at hk
      by_cases hkk : k = key
      · subst hkk
        exact .inr (.inl (hdisk ▸ hv.completed_le k))
      · exact .inr (.inr (hk.imp_left (herase k hkk)))
    · simp only [PhaseOk, LaneStore.setPhase, Function.update_self]
      refine ⟨(Finset.erase_subset key todo).trans hsub, hsaved, ?_⟩
      intro k
      by_cases hkk : k = key
      · subst hkk
        exact .inl (hdisk ▸ hv.seen_le f k)
      · exact (hseen k).imp_right fun hk => hk.imp_left (herase k hkk)
  | some slot =>
    have hrow : slot.row = s.history key (s.version key) := by
      simpa [hslot] using hv.current key
    refine h.setPhase (by rw [hphase]; rfl) ?_ ?_
    · intro k hk
      rw [hphase] at hk
      by_cases hkk : k = key
      · subst hkk
        exact .inr (.inr (.inr ⟨_, Function.update_self _ _ _, hv.completed_le k⟩))
      · refine .inr (.inr (hk.imp (herase k hkk) ?_))
        simp only [Function.update_of_ne hkk]
        exact id
    · simp only [PhaseOk, LaneStore.setPhase, Function.update_self]
      refine ⟨(Finset.erase_subset key todo).trans hsub, ?_, ?_⟩
      · intro k row hget
        by_cases hkk : k = key
        · subst hkk
          rw [Function.update_self] at hget
          cases hget
          exact ⟨hsub hkey, hv.disk_le k, le_rfl, hrow⟩
        · rw [Function.update_of_ne hkk] at hget
          exact hsaved k row hget
      · intro k
        by_cases hkk : k = key
        · subst hkk
          exact .inr (.inr ⟨_, Function.update_self _ _ _, hv.seen_le f k⟩)
        · rw [Function.update_of_ne hkk]
          exact (hseen k).imp_right fun hk => hk.imp_left (herase k hkk)

/-- A failed encode hands every drained key back. -/
theorem StoreInv.encodeFail {drained todo : Finset LaneKey} {saved : LaneKey → Option Saved}
    (h : StoreInv s) (hphase : s.phase f = .snapshotting drained todo saved) :
    StoreInv (s.setPhase f (.requeuing drained)) := by
  have hok := h.phases f
  simp only [PhaseOk, hphase] at hok
  refine h.setPhase (by rw [hphase]; rfl) ?_ ?_
  · intro k hk
    rw [hphase] at hk
    rcases hk with htodo | ⟨row, hrow, -⟩
    · exact .inr (.inr (hok.1 htodo))
    · exact .inr (.inr (hok.2.1 k row hrow).1)
  · simp only [PhaseOk, LaneStore.setPhase, Function.update_self]

/-- A failed commit hands every cloned key back. -/
theorem StoreInv.commitFail {drained : Finset LaneKey} {saved : LaneKey → Option Saved}
    (h : StoreInv s) (hphase : s.phase f = .snapshotting drained ∅ saved) :
    StoreInv (s.setPhase f (.requeuing (drained.filter fun k => (saved k).isSome))) := by
  have hok := h.phases f
  simp only [PhaseOk, hphase] at hok
  refine h.setPhase (by rw [hphase]; rfl) ?_ ?_
  · intro k hk
    rw [hphase] at hk
    rcases hk with htodo | ⟨row, hrow, -⟩
    · exact absurd htodo (Finset.notMem_empty k)
    · exact .inr (.inr (Finset.mem_filter.mpr ⟨(hok.2.1 k row hrow).1, by simp [hrow]⟩))
  · simp only [PhaseOk, LaneStore.setPhase, Function.update_self]

/-- A commit moves every saved key forward to the version its clone had. -/
theorem StoreInv.commit {drained : Finset LaneKey} {saved : LaneKey → Option Saved}
    (h : StoreInv s) (hphase : s.phase f = .snapshotting drained ∅ saved) :
    (∀ k, s.diskVersion k ≤ (s.commitSnapshot saved).diskVersion k) ∧
    StoreInv ((s.commitSnapshot saved).setPhase f
      (.reaping (drained.filter fun k => isTombstone (saved k)))) := by
  have hv := h.versions
  have hok := h.phases f
  simp only [PhaseOk, hphase] at hok
  rcases hok with ⟨-, hsaved, hseen⟩
  have hbusy : (s.phase f).busy = true := by rw [hphase]; rfl
  have hgrow : ∀ k, s.diskVersion k ≤ (s.commitSnapshot saved).diskVersion k := by
    intro k
    cases hrow : saved k with
    | none => simp [LaneStore.commitSnapshot, hrow]
    | some row => simpa [LaneStore.commitSnapshot, hrow] using (hsaved k row hrow).2.1
  -- A version is on disk after the commit if it was before, or if the clone has it.
  have hreach : ∀ k n, (∃ row, saved k = some row ∧ n ≤ row.version) →
      n ≤ (s.commitSnapshot saved).diskVersion k := by
    rintro k n ⟨row, hrow, hle⟩
    simpa [LaneStore.commitSnapshot, hrow] using hle
  have hversions : Versions (s.commitSnapshot saved) := by
    refine ⟨?_, hv.completed_le, hv.unpushed_le, hv.seen_le, hv.current, ?_, ?_⟩
    · intro k
      cases hrow : saved k with
      | none => simpa [LaneStore.commitSnapshot, hrow] using hv.disk_le k
      | some row => simpa [LaneStore.commitSnapshot, hrow] using (hsaved k row hrow).2.2.1
    · intro k
      cases hrow : saved k with
      | none => simpa [LaneStore.commitSnapshot, hrow] using hv.disk_eq k
      | some row => simpa [LaneStore.commitSnapshot, hrow] using (hsaved k row hrow).2.2.2
    · intro k hnone
      cases hrow : saved k with
      | none => simpa [LaneStore.commitSnapshot, hrow] using hv.absent k hnone
      | some row =>
        -- An absent slot leaves the disk at the newest version, so no clone is newer.
        have hdisk := hv.absent k hnone
        have hbounds := hsaved k row hrow
        simp only [LaneStore.commitSnapshot, hrow]
        omega
  refine ⟨hgrow, h.of_flush hbusy ?_ rfl hgrow (hversions.setPhase f _) ?_ ?_⟩
  · intro g hg
    exact Function.update_of_ne hg _ _
  · intro k
    rcases h.covered_by hbusy k with hdirty | hdisk | hflush
    · exact .inl hdirty
    · exact .inr (.inl (le_trans hdisk (hgrow k)))
    · rw [hphase] at hflush
      rcases hflush with htodo | hrow
      · exact absurd htodo (Finset.notMem_empty k)
      · exact .inr (.inl (hreach k _ hrow))
  · simp only [PhaseOk, LaneStore.setPhase, Function.update_self]
    constructor
    · intro k hk
      rcases Finset.mem_filter.mp hk with ⟨-, htomb⟩
      simp only [LaneStore.commitSnapshot]
      unfold isTombstone at htomb
      split at htomb
      · rename_i hrow
        simp [hrow, LaneSlot.row]
      · cases htomb
    · intro k
      rcases hseen k with hdisk | htodo | hrow
      · exact le_trans hdisk (hgrow k)
      · exact absurd htodo (Finset.notMem_empty k)
      · exact hreach k _ hrow

/-- Pushing a key back after a failure. -/
theorem StoreInv.requeue {left : Finset LaneKey} (h : StoreInv s)
    (hphase : s.phase f = .requeuing left) :
    StoreInv { s.setPhase f (.requeuing (left.erase key)) with dirty := s.dirty ++ [key] } := by
  have hbusy : (s.phase f).busy = true := by rw [hphase]; rfl
  refine h.of_flush hbusy ?_ rfl (fun _ => le_rfl) ((h.versions.setPhase f _).setDirty _) ?_ ?_
  · intro g hg
    exact Function.update_of_ne hg _ _
  · intro k
    simp only [LaneStore.setPhase, Function.update_self, FlushPhase.Covers]
    rcases h.covered_by hbusy k with hdirty | hdisk | hflush
    · exact .inl (List.mem_append_left _ hdirty)
    · exact .inr (.inl hdisk)
    · rw [hphase] at hflush
      by_cases hk : k = key
      · exact .inl (by simp [hk])
      · exact .inr (.inr (Finset.mem_erase.mpr ⟨hk, hflush⟩))
  · simp only [PhaseOk, LaneStore.setPhase, Function.update_self]

/-- Removing a tombstone whose row is gone from disk. -/
theorem StoreInv.reap {left : Finset LaneKey} (h : StoreInv s) (hphase : s.phase f = .reaping left)
    (hkey : key ∈ left) :
    (∀ k, s.diskVersion k ≤ (s.removeTombstone key).diskVersion k) ∧
    StoreInv ((s.removeTombstone key).setPhase f (.reaping (left.erase key))) := by
  have hv := h.versions
  have hok := h.phases f
  simp only [PhaseOk, hphase] at hok
  rcases hok with ⟨hgone, hseen⟩
  have hbusy : (s.phase f).busy = true := by rw [hphase]; rfl
  have hdone : ∀ k, ¬ (s.phase f).Covers k (s.completed k) := by
    intro k hk
    rw [hphase] at hk
    exact hk
  have hrest : ∀ k ∈ left.erase key, s.disk k = none :=
    fun k hk => hgone k (Finset.mem_of_mem_erase hk)
  by_cases htomb : s.lanes key = some .tombstoned
  · have hremove : s.removeTombstone key =
        { s with
          lanes := Function.update s.lanes key none
          diskVersion := Function.update s.diskVersion key (s.version key) } := by
      simp [LaneStore.removeTombstone, htomb]
    rw [hremove]
    have hgrow : ∀ k, s.diskVersion k ≤ Function.update s.diskVersion key (s.version key) k := by
      intro k
      by_cases hk : k = key
      · subst hk
        simpa using hv.disk_le k
      · simp [hk]
    refine ⟨hgrow, h.of_flush hbusy ?_ rfl hgrow ?_ ?_ ?_⟩
    · intro g hg
      exact Function.update_of_ne hg _ _
    · apply Versions.setPhase
      have hempty : none = s.history key (s.version key) := by
        simpa [htomb, LaneSlot.row] using hv.current key
      refine ⟨?_, hv.completed_le, hv.unpushed_le, hv.seen_le, ?_, ?_, ?_⟩
      · intro k
        by_cases hk : k = key
        · subst hk
          simp
        · simpa [hk] using hv.disk_le k
      · intro k
        by_cases hk : k = key
        · subst hk
          simpa using hempty
        · simpa [hk] using hv.current k
      · intro k
        by_cases hk : k = key
        · subst hk
          simpa [hgone k hkey] using hempty
        · simpa [hk] using hv.disk_eq k
      · intro k hnone
        by_cases hk : k = key
        · subst hk
          simp
        · simp only [Function.update_of_ne hk] at hnone ⊢
          exact hv.absent k hnone
    · intro k
      rcases h.covered_by hbusy k with hdirty | hdisk | hflush
      · exact .inl hdirty
      · exact .inr (.inl (le_trans hdisk (hgrow k)))
      · exact absurd hflush (hdone k)
    · simp only [PhaseOk, LaneStore.setPhase, Function.update_self]
      exact ⟨hrest, fun k => le_trans (hseen k) (hgrow k)⟩
  · have hremove : s.removeTombstone key = s := by
      unfold LaneStore.removeTombstone
      split
      · contradiction
      · rfl
    rw [hremove]
    refine ⟨fun _ => le_rfl, h.setPhase hbusy (fun k hk => absurd hk (hdone k)) ?_⟩
    simp only [PhaseOk, LaneStore.setPhase, Function.update_self]
    exact ⟨hrest, hseen⟩

/-- A call returns when nothing is left to requeue or to reap. -/
theorem StoreInv.finish_requeuing (h : StoreInv s) (hphase : s.phase f = .requeuing ∅) :
    StoreInv (s.setPhase f (.returned false)) := by
  refine h.setPhase (by rw [hphase]; rfl) ?_ ?_
  · intro k hk
    rw [hphase] at hk
    exact absurd hk (Finset.notMem_empty k)
  · simp only [PhaseOk, LaneStore.setPhase, Function.update_self]

/-- The same for a call that has committed. -/
theorem StoreInv.finish_reaping {left : Finset LaneKey} (h : StoreInv s)
    (hphase : s.phase f = .reaping left) : StoreInv (s.setPhase f (.returned true)) := by
  have hok := h.phases f
  simp only [PhaseOk, hphase] at hok
  refine h.setPhase (by rw [hphase]; rfl) ?_ ?_
  · intro k hk
    rw [hphase] at hk
    exact hk.elim
  · simp only [PhaseOk, LaneStore.setPhase, Function.update_self]
    exact hok.2

/-! ## Runs -/

/-- One exclusive step keeps the invariant and never moves the disk back. -/
theorem StoreInv.step {e : StoreEvent} (h : StoreInv s) (hexclusive : e.Exclusive s)
    (hstep : s.step e s') : (∀ k, s.diskVersion k ≤ s'.diskVersion k) ∧ StoreInv s' := by
  unfold LaneStore.step LaneStore.apply at hstep
  cases e with
  | write w =>
    cases hstep
    exact ⟨fun k => le_of_eq (s.write_diskVersion w k).symm, h.write w⟩
  | push key version =>
    dsimp only at hstep
    split at hstep
    · rename_i hmem
      cases hstep
      exact ⟨fun _ => le_rfl, h.push hmem⟩
    · cases hstep
  | start f =>
    dsimp only at hstep
    split at hstep
    · cases hstep
      exact ⟨fun _ => le_rfl, h.start hexclusive⟩
    · cases hstep
      exact ⟨fun _ => le_rfl, h.start hexclusive⟩
    · cases hstep
  | pop f =>
    dsimp only at hstep
    split at hstep
    · rename_i drained key dirty hphase hdirty
      cases hstep
      exact ⟨fun _ => le_rfl, h.pop hphase hdirty⟩
    · cases hstep
  | drained f =>
    dsimp only at hstep
    split at hstep
    · rename_i drained hphase hdirty
      split at hstep
      · rename_i hempty
        cases hstep
        exact ⟨fun _ => le_rfl, h.drained_none (hempty ▸ hphase) hdirty⟩
      · cases hstep
        exact ⟨fun _ => le_rfl, h.drained_some hphase hdirty⟩
    · cases hstep
  | snapshot f key =>
    dsimp only at hstep
    split at hstep
    · rename_i drained todo saved hphase
      split at hstep
      · rename_i hkey
        cases hstep
        exact ⟨fun _ => le_rfl, h.snapshot hphase hkey⟩
      · cases hstep
    · cases hstep
  | encodeFail f =>
    dsimp only at hstep
    split at hstep
    · rename_i drained todo saved hphase
      cases hstep
      exact ⟨fun _ => le_rfl, h.encodeFail hphase⟩
    · cases hstep
  | commit f =>
    dsimp only at hstep
    split at hstep
    · rename_i drained todo saved hphase
      split at hstep
      · rename_i hempty
        cases hstep
        exact h.commit (hempty ▸ hphase)
      · cases hstep
    · cases hstep
  | commitFail f =>
    dsimp only at hstep
    split at hstep
    · rename_i drained todo saved hphase
      split at hstep
      · rename_i hempty
        cases hstep
        exact ⟨fun _ => le_rfl, h.commitFail (hempty ▸ hphase)⟩
      · cases hstep
    · cases hstep
  | requeue f key =>
    dsimp only at hstep
    split at hstep
    · rename_i left hphase
      split at hstep
      · cases hstep
        exact ⟨fun _ => le_rfl, h.requeue hphase⟩
      · cases hstep
    · cases hstep
  | reap f key =>
    dsimp only at hstep
    split at hstep
    · rename_i left hphase
      split at hstep
      · rename_i hkey
        cases hstep
        exact h.reap hphase hkey
      · cases hstep
    · cases hstep
  | finish f =>
    dsimp only at hstep
    split at hstep
    · rename_i left hphase
      split at hstep
      · rename_i hempty
        cases hstep
        exact ⟨fun _ => le_rfl, h.finish_requeuing (hempty ▸ hphase)⟩
      · cases hstep
    · rename_i left hphase
      split at hstep
      · cases hstep
        exact ⟨fun _ => le_rfl, h.finish_reaping hphase⟩
      · cases hstep
    · cases hstep

/-- The invariant holds in every exclusive run. -/
theorem StoreInv.of_reaches {disk : LaneKey → Option LaneState}
    (hrun : Reaches LaneStore.step StoreEvent.Exclusive (LaneStore.opened disk) s) : StoreInv s := by
  apply hrun.invariant (StoreInv.opened disk)
  intro a e b hexclusive hstep ha
  exact (ha.step hexclusive hstep).2

/-- When no two flush calls overlap: a call that returned `Ok` has every write
completed before its start on disk, at that version or a later one; the disk row
of a key never goes back to an older version; and while no call runs, after a
failed commit too, every key is on the work-list or has its newest completed
write on disk. -/
theorem flush_durable {disk : LaneKey → Option LaneState} {t : LaneStore}
    (hrun : Reaches LaneStore.step StoreEvent.Exclusive (LaneStore.opened disk) s)
    (hrest : Reaches LaneStore.step StoreEvent.Exclusive s t) (k : LaneKey) :
    (∀ f, s.phase f = .returned true → s.seen f k ≤ s.diskVersion k) ∧
      s.disk k = s.history k (s.diskVersion k) ∧ s.diskVersion k ≤ s.version k ∧
      s.diskVersion k ≤ t.diskVersion k ∧
      ((∀ f, (s.phase f).busy = false) → k ∈ s.dirty ∨ s.completed k ≤ s.diskVersion k) := by
  have hinv := StoreInv.of_reaches hrun
  refine ⟨?_, hinv.versions.disk_eq k, hinv.versions.disk_le k, ?_, ?_⟩
  · intro f hreturned
    have hok := hinv.phases f
    simp only [PhaseOk, hreturned] at hok
    exact hok k
  · apply hrest.measure_le (f := fun s => s.diskVersion k) hinv
    · intro a e b hexclusive hstep ha
      exact (ha.step hexclusive hstep).2
    · intro a e b hexclusive hstep ha
      exact (ha.step hexclusive hstep).1 k
  · intro hidle
    rcases hinv.covered k with hdirty | hdisk | ⟨f, hcovers⟩
    · exact .inl hdirty
    · exact .inr hdisk
    · have hbusy := hcovers.busy
      rw [hidle f] at hbusy
      cases hbusy

/-! ## Overlapping calls -/

/-- A lane row at some voucher amount. -/
def sampleRow (amount : Nat) : LaneState where
  poolId := 1
  signer := 2
  provider := 3
  cap := 1000
  expiry := 4000000000
  lastAmount := amount

/-- The key of every sample row. -/
def sampleKey : LaneKey := (sampleRow 0).key

/-- A write, and flush 0 drains its key; flush 1 finds the work-list empty. -/
def sampleLost : List StoreEvent :=
  [.write (.record (sampleRow 1)), .push sampleKey 1, .start 0, .pop 0, .drained 0, .start 1,
    .drained 1]

/-- Flush 0 clones the first row, flush 1 commits the second and returns. -/
def sampleOvertaken : List StoreEvent :=
  [.write (.record (sampleRow 1)), .push sampleKey 1, .start 0, .pop 0, .drained 0,
    .snapshot 0 sampleKey, .write (.record (sampleRow 2)), .push sampleKey 2, .start 1, .pop 1,
    .drained 1, .snapshot 1 sampleKey, .commit 1, .finish 1]

/-- Two overlapping flush calls break the first two properties: a call returns
`Ok` with a row written before its start absent from disk, and the older of two
clones overwrites the newer row. -/
theorem overlapping_flushes_not_durable :
    (∃ s, Reaches LaneStore.step (fun _ _ => True) (LaneStore.opened fun _ => none) s ∧
      s.phase 1 = .returned true ∧ s.seen 1 sampleKey = 1 ∧ s.version sampleKey = 1 ∧
      s.history sampleKey 1 = some (sampleRow 1) ∧ s.disk sampleKey = none) ∧
    ∃ s s', Reaches LaneStore.step (fun _ _ => True) (LaneStore.opened fun _ => none) s ∧
      s.step (.commit 0) s' ∧ s.phase 1 = .returned true ∧
      s.disk sampleKey = some (sampleRow 2) ∧ s'.disk sampleKey = some (sampleRow 1) ∧
      s'.dirty = [] := by
  have hrun : ∀ es s, runEvents LaneStore.apply (fun _ _ => true) (LaneStore.opened fun _ => none)
      es = some s → Reaches LaneStore.step (fun _ _ => True) (LaneStore.opened fun _ => none) s :=
    fun es s h => Reaches.of_runEvents (fun _ _ _ => trivial) h
  constructor
  · exact ⟨_, hrun sampleLost _ rfl, rfl, rfl, rfl, rfl, rfl⟩
  · exact ⟨_, _, hrun sampleOvertaken _ rfl, rfl, rfl, rfl, rfl, rfl⟩

/-- The write of a single flush is on disk when the flush returns. -/
theorem flush_durable_sample :
    ∃ s, Reaches LaneStore.step StoreEvent.Exclusive (LaneStore.opened fun _ => none) s ∧
      s.phase 0 = .returned true ∧ s.seen 0 sampleKey = 1 ∧ 1 ≤ s.diskVersion sampleKey := by
  -- Only the start of the call needs the guard.
  have hrun : ∀ es a s, runEvents LaneStore.apply (fun _ e => !e.isStart) a es = some s →
      Reaches LaneStore.step StoreEvent.Exclusive a s :=
    fun es a s h => Reaches.of_runEvents (fun _ e he => StoreEvent.exclusive_of_not_isStart he) h
  have hwrite := hrun [.write (.record (sampleRow 1)), .push sampleKey 1]
    (LaneStore.opened fun _ => none) _ rfl
  have hstart := hwrite.tail (show StoreEvent.Exclusive _ (.start 0) from fun _ => rfl) rfl
  have hflush := hstart.trans (hrun [.pop 0, .drained 0, .snapshot 0 sampleKey, .commit 0,
    .finish 0] _ _ rfl)
  have hdurable := flush_durable hflush (Reaches.refl _) sampleKey
  exact ⟨_, hflush, rfl, rfl, hdurable.1 0 rfl⟩

end Decdn.Node
