import Decdn.Foundations.Words
import Mathlib.Algebra.Order.BigOperators.Group.List

/-!
# Cutting wire frames

The cache exports a blob as a stream of items that line up with no frame size.
The framer of `handlers/client/delivery.rs` buffers items in the queue of
`wire.rs` until it holds the target the serve loop asks for, and cuts one frame.
Payload bytes are counted and not modelled, so an item is its length.

Main results:

- Theorem `FrameQueue.cut_cases`: a frame is never empty, and a queue that cuts
  none is empty.
- Theorem `ChunkFramer.nextFrameChunks_cases`: the next frame fits its target, and
  there is none only when the whole export is out.
-/

namespace Decdn.Node

/-! ## The queue -/

/-- `FrameQueue`: export bytes not yet cut into a frame.  Its `queued` count is the
sum of the items, and no item is empty. -/
structure FrameQueue where
  queue : List Nat
  pos : ∀ n ∈ queue, 0 < n

/-- `FrameChunks`: the slices of one frame. -/
structure FrameChunks where
  chunks : List Nat
deriving DecidableEq, Repr

/-- `FrameChunks::total`. -/
def FrameChunks.total (frame : FrameChunks) : Nat := frame.chunks.sum

namespace FrameQueue

/-- `FrameQueue::new`. -/
def new : FrameQueue := ⟨[], nofun⟩

/-- `FrameQueue::len`. -/
def len (q : FrameQueue) : Nat := q.queue.sum

/-- `FrameQueue::push`: an empty item is dropped. -/
def push (q : FrameQueue) (n : Nat) : FrameQueue :=
  if h : 0 < n then
    ⟨q.queue ++ [n], fun m hm => (List.mem_append.mp hm).elim (q.pos m) fun hone => by
      rw [List.mem_singleton.mp hone]
      exact h⟩
  else q

/-- The loop of `FrameQueue::cut`: the slices and the items that are left. -/
def cutLoop : Nat → List Nat → List Nat × List Nat
  | _, [] => ([], [])
  | remaining, front :: rest =>
    if remaining = 0 then ([], front :: rest)
    else if front ≤ remaining then
      let cut := cutLoop (remaining - front) rest
      (front :: cut.1, cut.2)
    else ([remaining], (front - remaining) :: rest)

/-- Cutting splits the bytes, and both parts hold no empty slice. -/
theorem cutLoop_spec {remaining : Nat} {items : List Nat} (hpos : ∀ n ∈ items, 0 < n)
    (hle : remaining ≤ items.sum) :
    (cutLoop remaining items).1.sum = remaining ∧
      (cutLoop remaining items).2.sum = items.sum - remaining ∧
      ((cutLoop remaining items).1 = [] ↔ remaining = 0) ∧
      ∀ n ∈ (cutLoop remaining items).2, 0 < n := by
  induction items generalizing remaining with
  | nil =>
    have hzero : remaining = 0 := by simpa using hle
    subst hzero
    exact ⟨rfl, rfl, by simp [cutLoop], nofun⟩
  | cons front rest ih =>
    rw [List.sum_cons] at hle ⊢
    have hfront := hpos front List.mem_cons_self
    unfold cutLoop
    split
    · rename_i hzero
      subst hzero
      exact ⟨rfl, by simp, by simp, hpos⟩
    · rename_i hsome
      split
      · rename_i hfits
        have hleft : remaining - front ≤ rest.sum := by omega
        have hrest := ih (fun n hn => hpos n (List.mem_cons_of_mem _ hn)) hleft
        refine ⟨?_, ?_, ?_, hrest.2.2.2⟩
        · rw [List.sum_cons, hrest.1]
          omega
        · rw [hrest.2.1]
          omega
        · simp [hsome]
      · rename_i hlong
        refine ⟨by simp, ?_, by simp [hsome], ?_⟩
        · rw [List.sum_cons]
          omega
        · intro n hn
          rcases List.mem_cons.mp hn with rfl | hn
          · omega
          · exact hpos n (List.mem_cons_of_mem _ hn)

/-- `FrameQueue::cut`: up to `target` bytes off the front. -/
def cut (q : FrameQueue) (target : Nat) : FrameQueue × Option FrameChunks :=
  let parts := cutLoop (min target q.len) q.queue
  (⟨parts.2, (cutLoop_spec q.pos (Nat.min_le_right _ _)).2.2.2⟩,
    if parts.1 = [] then none else some ⟨parts.1⟩)

/-- Pushing adds the item. -/
@[simp] theorem len_push (q : FrameQueue) (n : Nat) : (q.push n).len = q.len + n := by
  unfold push
  split
  · simp [len]
  · rename_i hzero
    have hn : n = 0 := by omega
    rw [hn, Nat.add_zero]

/-- A cut leaves the rest of the queue, and cuts a frame unless the queue is empty. -/
theorem cut_cases (q : FrameQueue) {target : Nat} (htarget : target ≠ 0) :
    ((q.cut target).2 = none ∧ q.len = 0 ∧ (q.cut target).1.len = 0) ∨
      ∃ frame, (q.cut target).2 = some frame ∧ 0 < frame.total ∧ frame.total ≤ target ∧
        frame.total + (q.cut target).1.len = q.len := by
  rcases cutLoop_spec q.pos (Nat.min_le_right target q.len) with ⟨htotal, hrest, hnone, -⟩
  by_cases hempty : q.len = 0
  · have hzero : min target q.len = 0 := by omega
    refine .inl ⟨if_pos (hnone.mpr hzero), hempty, ?_⟩
    change (cutLoop (min target q.len) q.queue).2.sum = 0
    rw [hrest]
    change q.len - min target q.len = 0
    omega
  · have hsome : (cutLoop (min target q.len) q.queue).1 ≠ [] := by
      rw [Ne, hnone]
      omega
    refine .inr ⟨_, if_neg hsome, ?_, ?_, ?_⟩
    · change 0 < (cutLoop (min target q.len) q.queue).1.sum
      omega
    · change (cutLoop (min target q.len) q.queue).1.sum ≤ target
      omega
    · change (cutLoop (min target q.len) q.queue).1.sum +
        (cutLoop (min target q.len) q.queue).2.sum = q.len
      rw [htotal, hrest]
      change min target q.len + (q.len - min target q.len) = q.len
      omega

end FrameQueue

/-! ## The framer -/

/-- Why the framer refuses a frame. -/
inductive FrameFault where
  | alreadyFaulted
  | zeroTarget
  | exportFailed
deriving DecidableEq, Repr

/-- `ChunkFramer`: the export still to come, where `none` is the store's fault, the
buffered items, and how the export ended. -/
structure ChunkFramer where
  stream : List (Option Nat)
  queue : FrameQueue
  drained : Bool
  faulted : Bool

namespace ChunkFramer

/-- `ChunkFramer::new`. -/
def new (stream : List (Option Nat)) : ChunkFramer := ⟨stream, .new, false, false⟩

/-- The fill loop of `next_frame_chunks`. -/
def fill (target : Nat) (drained : Bool) : List (Option Nat) → FrameQueue → ChunkFramer
  | stream, queue =>
    if drained ∨ target ≤ queue.len then ⟨stream, queue, drained, false⟩
    else
      match stream with
      | [] => ⟨[], queue, true, false⟩
      | none :: rest => ⟨rest, .new, drained, true⟩
      | some n :: rest => fill target drained rest (queue.push n)

/-- `next_frame_chunks`. -/
def nextFrameChunks (f : ChunkFramer) (target : Nat) :
    ChunkFramer × Except FrameFault (Option FrameChunks) :=
  if f.faulted then (f, .error .alreadyFaulted)
  else if target = 0 then (f, .error .zeroTarget)
  else
    let filled := fill target f.drained f.stream f.queue
    if filled.faulted then (filled, .error .exportFailed)
    else
      let cut := filled.queue.cut target
      ({ filled with queue := cut.1 }, .ok cut.2)

/-- The length of an export; `none` when it ends in a fault. -/
def exportBytes : List (Option Nat) → Option Nat
  | [] => some 0
  | none :: _ => none
  | some n :: rest => (exportBytes rest).map (n + ·)

/-- The bytes of all items. -/
def itemBytes (stream : List (Option Nat)) : Nat := (stream.map (Option.getD · 0)).sum

/-- A framer that may still cut frames. -/
structure Live (f : ChunkFramer) : Prop where
  unfaulted : f.faulted = false
  drained : f.drained = true → f.stream = []

/-- What is left to deliver; `none` when a fault lies ahead. -/
def left (f : ChunkFramer) : Option Nat := (exportBytes f.stream).map (f.queue.len + ·)

/-- An upper bound of what is left to deliver. -/
def bytes (f : ChunkFramer) : Nat := f.queue.len + itemBytes f.stream

/-- Filling faults, or moves items to the queue until the target or the end. -/
theorem fill_cases {target : Nat} {drained : Bool} {stream : List (Option Nat)}
    {queue : FrameQueue} (hdrained : drained = true → stream = []) :
    (fill target drained stream queue).faulted = true ∨
      Live (fill target drained stream queue) ∧
        (fill target drained stream queue).left = left ⟨stream, queue, drained, false⟩ ∧
        (fill target drained stream queue).bytes = bytes ⟨stream, queue, drained, false⟩ ∧
        (target ≤ (fill target drained stream queue).queue.len ∨
          (fill target drained stream queue).stream = []) := by
  induction stream generalizing queue with
  | nil =>
    right
    unfold fill
    split
    · exact ⟨⟨rfl, fun _ => rfl⟩, rfl, rfl, .inr rfl⟩
    · exact ⟨⟨rfl, fun _ => rfl⟩, rfl, rfl, .inr rfl⟩
  | cons item rest ih =>
    have hopen : drained = false := by
      cases drained with
      | true => cases hdrained rfl
      | false => rfl
    subst hopen
    unfold fill
    split
    · rename_i hstop
      refine .inr ⟨⟨rfl, nofun⟩, rfl, rfl, .inl ?_⟩
      simpa using hstop
    · cases item with
      | none => exact .inl rfl
      | some n =>
        have hfilled := @ih (queue.push n) nofun
        rcases hfilled with hfault | ⟨hlive, hleft, hbytes, hstop⟩
        · exact .inl hfault
        · refine .inr ⟨hlive, hleft.trans ?_, hbytes.trans ?_, hstop⟩
          · change (exportBytes rest).map ((queue.push n).len + ·) =
              ((exportBytes rest).map (n + ·)).map (queue.len + ·)
            rw [Option.map_map, FrameQueue.len_push]
            congr 1
            funext m
            exact Nat.add_assoc _ _ _
          · simp only [bytes, itemBytes, FrameQueue.len_push, List.map_cons, List.sum_cons,
              Option.getD_some]
            omega

/-- What `next_frame_chunks` can do to a live framer: fault, cut a frame within the target, or
find that the whole export is out. -/
inductive Cuts (f : ChunkFramer) (target : Nat) :
    ChunkFramer × Except FrameFault (Option FrameChunks) → Prop where
  | fault (f' : ChunkFramer) (fault : FrameFault) : Cuts f target (f', .error fault)
  | frame {f' : ChunkFramer} {frame : FrameChunks} (hlive : f'.Live) (hpos : 0 < frame.total)
      (hle : frame.total ≤ target) (hleft : f.left = f'.left.map (frame.total + ·))
      (hbytes : frame.total + f'.bytes = f.bytes) : Cuts f target (f', .ok (some frame))
  | complete {f' : ChunkFramer} (hlive : f'.Live) (hleft : f.left = some 0)
      (hleft' : f'.left = some 0) (hbytes : f'.bytes ≤ f.bytes) : Cuts f target (f', .ok none)

/-- A frame fits its target, and there is none only once the export is out. -/
theorem nextFrameChunks_cases {f : ChunkFramer} (hlive : f.Live) (target : Nat) :
    Cuts f target (f.nextFrameChunks target) := by
  unfold nextFrameChunks
  rw [hlive.unfaulted, if_neg Bool.false_ne_true]
  split
  · exact .fault _ _
  · rename_i htarget
    dsimp only
    split
    · exact .fault _ _
    · rename_i hfaulted
      have hfill := @fill_cases target f.drained f.stream f.queue hlive.drained
      rcases hfill with hfault | ⟨hfilled, hleft, hbytes, hstop⟩
      · exact absurd hfault hfaulted
      · have hleft : f.left = (fill target f.drained f.stream f.queue).left := hleft.symm
        have hbytes : (fill target f.drained f.stream f.queue).bytes = f.bytes := hbytes
        rcases (fill target f.drained f.stream f.queue).queue.cut_cases htarget with
          ⟨hnone, hempty, hrest⟩ | ⟨frame, hsome, hpos, hle, hrest⟩
        · rw [hnone]
          have hdone := hstop.resolve_left (by omega)
          refine .complete ⟨hfilled.unfaulted, hfilled.drained⟩ ?_ ?_ ?_
          · rw [hleft, left, hdone, hempty]
            rfl
          · unfold left
            dsimp only
            rw [hdone, hrest]
            rfl
          · unfold bytes at hbytes ⊢
            dsimp only
            omega
        · rw [hsome]
          refine .frame ⟨hfilled.unfaulted, hfilled.drained⟩ hpos hle ?_ ?_
          · unfold left at hleft ⊢
            rw [hleft, Option.map_map, ← hrest]
            congr 1
            funext m
            exact Nat.add_assoc _ _ _
          · unfold bytes at hbytes ⊢
            dsimp only
            omega

end ChunkFramer

end Decdn.Node
