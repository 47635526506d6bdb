import Decdn.Foundations.Runs
import Mathlib

/-!
# Ordered state writes

The queue of `crates/client/src/ordered_writes.rs`.  Any number of holders queue
writes; a worker takes them one at a time and runs each outside the lock.  The
queue and the running flag share one lock, so each of its critical sections is one
step here, and a write that runs is a step of its own between two of them: other
holders, and the write itself, may queue in between.

The model also keeps what happened: the writes in the order of their queue calls,
those that ran, and the receivers that have resolved.

Main results:

- Theorem `Inv.step`: every step keeps the queue, the worker and the order in line.
- Theorem `run_of_work`: enough steps of the worker run any queued write.
- Theorem `ordered_writes`: each write runs once and in order, and no write is stranded.
-/

namespace Decdn.Client.OrderedWrites

variable {α : Type*}

/-- A queued write, and whether a receiver awaits its result.  Its ticket is its place in
the order of the queue calls. -/
structure Write (α : Type*) where
  ticket : Nat
  body : α
  awaited : Bool

/-- A `DrainOnDrop` guard, from the queue call that made it to the end of its loop. -/
inductive Worker (α : Type*) where
  | starting
  | spawned
  | draining
  | executing (w : Write α) (sent : Bool)

/-- The write a worker is running. -/
def Worker.writes : Worker α → List (Write α)
  | .executing w _ => [w]
  | _ => []

/-- The shared state, the guards, and the history. -/
structure State (α : Type*) where
  queue : List (Write α) := []
  running : Bool := false
  workers : List (Worker α) := []
  /-- Every write queued so far. -/
  queued : List (Write α) := []
  /-- Every write that has run, to its end or to a panic. -/
  ran : List (Write α) := []
  /-- The receivers that have resolved, with a result or without. -/
  landed : List (Nat × Bool) := []

/-! ## The operations -/

/-- `queue`: push, and start a worker unless one is running. -/
def State.enqueue (s : State α) (body : α) (awaited : Bool) : State α :=
  let w : Write α := ⟨s.queued.length, body, awaited⟩
  let start := !s.running
  let s := { s with queue := s.queue ++ [w], running := true, queued := s.queued ++ [w] }
  if start then { s with workers := s.workers ++ [.starting] } else s

/-- One round of `drain` under the lock, by the worker at `k`: take a write, or stop. -/
def State.popFront (s : State α) (k : Nat) : State α :=
  match s.queue with
  | [] => { s with running := false, workers := s.workers.eraseIdx k }
  | w :: rest => { s with queue := rest, workers := s.workers.set k (.executing w false) }

/-- The end of a write.  One that panicked before its result was sent drops the sender. -/
def State.finished (s : State α) (k : Nat) (w : Write α) (sent : Bool) : State α :=
  { s with
    workers := s.workers.set k .draining
    ran := s.ran ++ [w]
    landed := if w.awaited && !sent then s.landed ++ [(w.ticket, false)] else s.landed }

/-- The events of a run, with the worker they are about. -/
inductive Event (α : Type*) where
  | queue (body : α) (awaited : Bool)
  /-- The queue call hands its guard to the blocking pool, or drops it outside a runtime. -/
  | launch (k : Nat) (inRuntime : Bool)
  /-- The pool runs the worker, or drops it; the guard drains either way. -/
  | begin (k : Nat) (dropped : Bool)
  | pop (k : Nat)
  | send (k : Nat)
  | finish (k : Nat) (panicked : Bool)

/-- The events that are a worker's own steps. -/
def Event.isWork : Event α → Prop
  | .queue .. => False
  | _ => True

/-- One event, or `none` where the worker is not at that point. -/
def State.apply (s : State α) : Event α → Option (State α)
  | .queue body awaited => some (s.enqueue body awaited)
  | .launch k inRuntime =>
    match s.workers[k]? with
    | some .starting =>
      some { s with workers := s.workers.set k (if inRuntime then .spawned else .draining) }
    | _ => none
  | .begin k _ =>
    match s.workers[k]? with
    | some .spawned => some { s with workers := s.workers.set k .draining }
    | _ => none
  | .pop k =>
    match s.workers[k]? with
    | some .draining => some (s.popFront k)
    | _ => none
  | .send k =>
    match s.workers[k]? with
    | some (.executing w false) =>
      if w.awaited then
        some { s with
          workers := s.workers.set k (.executing w true)
          landed := s.landed ++ [(w.ticket, true)] }
      else none
    | _ => none
  | .finish k panicked =>
    match s.workers[k]? with
    | some (.executing w sent) =>
      -- An awaited write that returned has sent its result.
      if w.awaited && !sent && !panicked then none else some (s.finished k w sent)
    | _ => none

/-- The step relation. -/
def Step (s : State α) (e : Event α) (t : State α) : Prop :=
  s.apply e = some t

/-! ## The invariant -/

/-- No worker and an empty queue, or one worker and the flag set. -/
inductive Manned (s : State α) : Prop where
  | idle (hrunning : s.running = false) (hworkers : s.workers = []) (hqueue : s.queue = [])
  | manned (p : Worker α) (hrunning : s.running = true) (hworkers : s.workers = [p])

structure Inv (s : State α) : Prop where
  manned : Manned s
  order : s.queued = s.ran ++ s.workers.flatMap Worker.writes ++ s.queue
  tickets : s.queued.map Write.ticket = List.range s.queued.length
  landed : ∀ r ∈ s.landed, r.1 ≤ s.ran.length

theorem Inv.init : Inv ({} : State α) :=
  ⟨.idle rfl rfl rfl, rfl, rfl, fun _ h => absurd h List.not_mem_nil⟩

variable {s t : State α} {e : Event α}

/-- What a step does when there is at most one worker. -/
inductive Move (s : State α) : Event α → State α → Prop where
  | first (body : α) (awaited : Bool) (hrunning : s.running = false) (hworkers : s.workers = [])
      (hqueue : s.queue = []) :
      Move s (.queue body awaited) { s with
        queue := [⟨s.queued.length, body, awaited⟩], running := true, workers := [.starting]
        queued := s.queued ++ [⟨s.queued.length, body, awaited⟩] }
  | behind (body : α) (awaited : Bool) (p : Worker α) (hrunning : s.running = true)
      (hworkers : s.workers = [p]) :
      Move s (.queue body awaited) { s with
        queue := s.queue ++ [⟨s.queued.length, body, awaited⟩]
        queued := s.queued ++ [⟨s.queued.length, body, awaited⟩] }
  | advance (e : Event α) (p p' : Worker α) (hrunning : s.running = true)
      (hworkers : s.workers = [p]) (hkind : (p = .starting ∧ (p' = .spawned ∨ p' = .draining)) ∨
        (p = .spawned ∧ p' = .draining)) (hwork : e.isWork) :
      Move s e { s with workers := [p'] }
  | stop (k : Nat) (hrunning : s.running = true) (hworkers : s.workers = [.draining])
      (hqueue : s.queue = []) : Move s (.pop k) { s with running := false, workers := [] }
  | take (k : Nat) (w : Write α) (rest : List (Write α)) (hrunning : s.running = true)
      (hworkers : s.workers = [.draining]) (hqueue : s.queue = w :: rest) :
      Move s (.pop k) { s with queue := rest, workers := [.executing w false] }
  | sent (k : Nat) (w : Write α) (hrunning : s.running = true)
      (hworkers : s.workers = [.executing w false]) :
      Move s (.send k) { s with
        workers := [.executing w true], landed := s.landed ++ [(w.ticket, true)] }
  | finished (k : Nat) (panicked : Bool) (w : Write α) (sent : Bool) (log : List (Nat × Bool))
      (hrunning : s.running = true) (hworkers : s.workers = [.executing w sent])
      (hlog : log = s.landed ∨ log = s.landed ++ [(w.ticket, false)]) :
      Move s (.finish k panicked) { s with
        workers := [.draining], ran := s.ran ++ [w], landed := log }

/-- The worker an event is about is the only one there is. -/
theorem Manned.worker (hmanned : Manned s) {k : Nat} {p : Worker α} (h : s.workers[k]? = some p) :
    k = 0 ∧ s.running = true ∧ s.workers = [p] := by
  cases hmanned with
  | idle hrunning hworkers hqueue =>
    rw [hworkers] at h
    cases h
  | manned q hrunning hworkers =>
    rw [hworkers] at h ⊢
    cases k with
    | zero => exact ⟨rfl, hrunning, by rw [Option.some.inj h]⟩
    | succ k => cases h

theorem Step.move (hmanned : Manned s) (h : Step s e t) : Move s e t := by
  unfold Step at h
  cases e with
  | queue body awaited =>
    rcases Option.some.inj h with rfl
    cases hmanned with
    | idle hrunning hworkers hqueue =>
      simp only [State.enqueue, hrunning, hworkers, hqueue]
      exact .first body awaited hrunning hworkers hqueue
    | manned p hrunning hworkers =>
      have hmove := Move.behind body awaited p hrunning hworkers
      rw [hrunning] at hmove
      simp only [State.enqueue, hrunning, Bool.not_true, Bool.false_eq_true, if_false]
      exact hmove
  | launch k inRuntime =>
    simp only [State.apply] at h
    split at h
    · rename_i hk
      rcases hmanned.worker hk with ⟨rfl, hrunning, hworkers⟩
      rcases Option.some.inj h with rfl
      rw [hworkers]
      refine .advance _ .starting _ hrunning hworkers (.inl ⟨rfl, ?_⟩) trivial
      cases inRuntime
      · exact .inr rfl
      · exact .inl rfl
    · cases h
  | begin k dropped =>
    simp only [State.apply] at h
    split at h
    · rename_i hk
      rcases hmanned.worker hk with ⟨rfl, hrunning, hworkers⟩
      rcases Option.some.inj h with rfl
      rw [hworkers]
      exact .advance _ .spawned _ hrunning hworkers (.inr ⟨rfl, rfl⟩) trivial
    · cases h
  | pop k =>
    simp only [State.apply] at h
    split at h
    · rename_i hk
      rcases hmanned.worker hk with ⟨rfl, hrunning, hworkers⟩
      rcases Option.some.inj h with rfl
      unfold State.popFront
      rw [hworkers]
      split
      · rename_i hqueue
        exact .stop 0 hrunning hworkers hqueue
      · rename_i w rest hqueue
        exact .take 0 w rest hrunning hworkers hqueue
    · cases h
  | send k =>
    simp only [State.apply] at h
    split at h
    · rename_i w hk
      rcases hmanned.worker hk with ⟨rfl, hrunning, hworkers⟩
      split at h
      · rcases Option.some.inj h with rfl
        rw [hworkers]
        exact .sent 0 w hrunning hworkers
      · cases h
    · cases h
  | finish k panicked =>
    simp only [State.apply] at h
    split at h
    · rename_i w sent hk
      rcases hmanned.worker hk with ⟨rfl, hrunning, hworkers⟩
      split at h
      · cases h
      · rcases Option.some.inj h with rfl
        unfold State.finished
        rw [hworkers]
        refine .finished 0 panicked w sent _ hrunning hworkers ?_
        split
        · exact .inr rfl
        · exact .inl rfl
    · cases h

/-- The write that runs is the one after those that ran. -/
theorem Inv.executing_ticket (hinv : Inv s) {w : Write α} {sent : Bool}
    (hworkers : s.workers = [.executing w sent]) : w.ticket = s.ran.length := by
  have horder := hinv.order
  rw [hworkers] at horder
  have hplace := congrArg (fun l => l[s.ran.length]?) hinv.tickets
  simp only [horder] at hplace
  simpa [Worker.writes] using hplace

/-- A queue call gives the next ticket. -/
theorem tickets_append {l : List (Write α)} (body : α) (awaited : Bool)
    (h : l.map Write.ticket = List.range l.length) :
    (l ++ [(⟨l.length, body, awaited⟩ : Write α)]).map Write.ticket =
      List.range (l ++ [(⟨l.length, body, awaited⟩ : Write α)]).length := by
  rw [List.map_append, h, List.length_append, List.length_singleton, List.range_succ]
  rfl

/-- Every step keeps the queue manned, the order and the tickets. -/
theorem Inv.step (hinv : Inv s) (h : Step s e t) : Inv t := by
  have hmove := h.move hinv.manned
  have horder := hinv.order
  cases hmove with
  | first body awaited hrunning hworkers hqueue =>
    refine ⟨.manned _ rfl rfl, ?_, tickets_append body awaited hinv.tickets, hinv.landed⟩
    rw [hworkers, hqueue] at horder
    simpa [Worker.writes] using horder
  | behind body awaited p hrunning hworkers =>
    refine ⟨.manned p hrunning hworkers, ?_, tickets_append body awaited hinv.tickets, hinv.landed⟩
    dsimp only
    rw [← List.append_assoc, ← horder]
  | advance e p p' hrunning hworkers hkind hwork =>
    refine ⟨.manned p' hrunning rfl, ?_, hinv.tickets, hinv.landed⟩
    rw [hworkers] at horder
    rcases hkind with ⟨rfl, rfl | rfl⟩ | ⟨rfl, rfl⟩
    · exact horder
    · exact horder
    · exact horder
  | stop k hrunning hworkers hqueue =>
    refine ⟨.idle rfl rfl hqueue, ?_, hinv.tickets, hinv.landed⟩
    rw [hworkers] at horder
    exact horder
  | take k w rest hrunning hworkers hqueue =>
    refine ⟨.manned _ hrunning rfl, ?_, hinv.tickets, hinv.landed⟩
    rw [hworkers, hqueue] at horder
    simpa [Worker.writes] using horder
  | sent k w hrunning hworkers =>
    refine ⟨.manned _ hrunning rfl, ?_, hinv.tickets, ?_⟩
    · rw [hworkers] at horder
      exact horder
    · intro r hr
      rcases List.mem_append.1 hr with hold | hnew
      · exact hinv.landed r hold
      · rcases List.mem_singleton.1 hnew with rfl
        exact Nat.le_of_eq (hinv.executing_ticket hworkers)
  | finished k panicked w sent log hrunning hworkers hlog =>
    have hlen : (s.ran ++ [w]).length = s.ran.length + 1 := List.length_append
    refine ⟨.manned _ hrunning rfl, ?_, hinv.tickets, ?_⟩
    · rw [hworkers] at horder
      simpa [Worker.writes] using horder
    · intro r hr
      rw [hlen]
      rcases hlog with rfl | rfl
      · exact Nat.le_succ_of_le (hinv.landed r hr)
      · rcases List.mem_append.1 hr with hold | hnew
        · exact Nat.le_succ_of_le (hinv.landed r hold)
        · rcases List.mem_singleton.1 hnew with rfl
          exact Nat.le_succ_of_le (Nat.le_of_eq (hinv.executing_ticket hworkers))

/-! ## Progress -/

/-- The steps a worker takes before it takes a write. -/
def Worker.ahead : Worker α → Nat
  | .starting => 5
  | .spawned => 4
  | .draining => 3
  | .executing _ false => 2
  | .executing _ true => 1

/-- The work left until the write with ticket `i` has run. -/
def State.workLeft (s : State α) (i : Nat) : Nat :=
  4 * (i + 1 - s.ran.length) + (s.workers.map Worker.ahead).sum

/-- While a queued write has not run, there is a worker, and it is not about to stop. -/
theorem Inv.pending (hinv : Inv s) {i : Nat} (hi : i < s.queued.length)
    (hran : ¬ i < s.ran.length) :
    ∃ p, s.workers = [p] ∧ (s.queue = [] → p.writes ≠ []) := by
  have hlen : s.queued.length = s.ran.length + (s.workers.flatMap Worker.writes).length +
      s.queue.length := by
    rw [hinv.order, List.length_append, List.length_append]
  cases hinv.manned with
  | idle hrunning hworkers hqueue =>
    rw [hworkers, hqueue] at hlen
    simp only [List.flatMap_nil, List.length_nil] at hlen
    omega
  | manned p hrunning hworkers =>
    refine ⟨p, hworkers, ?_⟩
    intro hqueue hnone
    rw [hworkers, hqueue] at hlen
    simp only [List.flatMap_cons, List.flatMap_nil, hnone, List.append_nil, List.length_nil] at hlen
    omega

/-- Work lowers what is left, and no event raises it. -/
theorem Inv.workLeft_step (hinv : Inv s) {i : Nat} (hi : i < s.queued.length)
    (hran : ¬ i < s.ran.length) (h : Step s e t) :
    i < t.ran.length ∨
      (t.workLeft i ≤ s.workLeft i ∧ (e.isWork → t.workLeft i < s.workLeft i)) := by
  rcases hinv.pending hi hran with ⟨q, hq, hbusy⟩
  have hsame : ∀ {p}, s.workers = [p] → q = p := by
    intro p hp
    rw [hq] at hp
    exact (List.cons.inj hp).1
  unfold State.workLeft
  rw [hq]
  cases h.move hinv.manned with
  | first body awaited hrunning hworkers hqueue =>
    rw [hq] at hworkers
    cases hworkers
  | behind body awaited p hrunning hworkers =>
    rw [hq]
    exact .inr ⟨Nat.le_refl _, False.elim⟩
  | advance e p p' hrunning hworkers hkind hwork =>
    rcases hsame hworkers with rfl
    right
    rcases hkind with ⟨rfl, rfl | rfl⟩ | ⟨rfl, rfl⟩
    · exact ⟨by simp [Worker.ahead], fun _ => by simp [Worker.ahead]⟩
    · exact ⟨by simp [Worker.ahead], fun _ => by simp [Worker.ahead]⟩
    · exact ⟨by simp [Worker.ahead], fun _ => by simp [Worker.ahead]⟩
  | stop k hrunning hworkers hqueue =>
    rcases hsame hworkers with rfl
    exact absurd rfl (hbusy hqueue)
  | take k w rest hrunning hworkers hqueue =>
    rcases hsame hworkers with rfl
    exact .inr ⟨by simp [Worker.ahead], fun _ => by simp [Worker.ahead]⟩
  | sent k w hrunning hworkers =>
    rcases hsame hworkers with rfl
    exact .inr ⟨by simp [Worker.ahead], fun _ => by simp [Worker.ahead]⟩
  | finished k panicked w sent log hrunning hworkers hlog =>
    rcases hsame hworkers with rfl
    have hahead : 1 ≤ (Worker.executing w sent).ahead := by
      cases sent
      · exact Nat.le_succ 1
      · exact Nat.le_refl 1
    have hlen : (s.ran ++ [w]).length = s.ran.length + 1 := List.length_append
    simp only [hlen, List.map_cons, List.map_nil, List.sum_cons, List.sum_nil, Worker.ahead]
      at hahead ⊢
    omega

/-- Every queue call is remembered. -/
theorem Step.queued_mono (hmanned : Manned s) (h : Step s e t) {w : Write α} (hw : w ∈ s.queued) :
    w ∈ t.queued := by
  cases h.move hmanned with
  | first body awaited hrunning hworkers hqueue => exact List.mem_append_left _ hw
  | behind body awaited p hrunning hworkers => exact List.mem_append_left _ hw
  | advance e p p' hrunning hworkers hkind hwork => exact hw
  | stop k hrunning hworkers hqueue => exact hw
  | take k w rest hrunning hworkers hqueue => exact hw
  | sent k w hrunning hworkers => exact hw
  | finished k panicked w sent log hrunning hworkers hlog => exact hw

/-- The ticket of a write is its place. -/
theorem Inv.ticket_eq (hinv : Inv s) {i : Nat} {w : Write α} (h : s.queued[i]? = some w) :
    w.ticket = i := by
  have hplace := congrArg (fun l => l[i]?) hinv.tickets
  simp only [List.getElem?_map, h, Option.map_some] at hplace
  rcases List.getElem?_eq_some_iff.mp hplace.symm with ⟨hlt, hget⟩
  rw [← hget, List.getElem_range]

theorem Inv.ticket_lt (hinv : Inv s) {w : Write α} (hw : w ∈ s.queued) :
    w.ticket < s.queued.length := by
  rcases List.mem_iff_getElem?.mp hw with ⟨i, hget⟩
  rw [hinv.ticket_eq hget]
  exact (List.getElem?_eq_some_iff.mp hget).1

/-- The writes that ran are those with the smallest tickets. -/
theorem Inv.mem_ran (hinv : Inv s) {w : Write α} (hw : w ∈ s.queued) :
    w ∈ s.ran ↔ w.ticket < s.ran.length := by
  have hleft : ∀ {i : Nat}, i < s.ran.length → s.queued[i]? = s.ran[i]? := by
    intro i hlt
    rw [hinv.order, List.append_assoc, List.getElem?_append_left hlt]
  constructor
  · intro hmem
    rcases List.mem_iff_getElem?.mp hmem with ⟨i, hget⟩
    rcases List.getElem?_eq_some_iff.mp hget with ⟨hlt, -⟩
    rw [hinv.ticket_eq ((hleft hlt).trans hget)]
    exact hlt
  · intro hlt
    rcases List.mem_iff_getElem?.mp hw with ⟨i, hget⟩
    rw [hinv.ticket_eq hget] at hlt
    rw [hleft hlt] at hget
    exact List.mem_iff_getElem?.mpr ⟨i, hget⟩

theorem Inv.workers_length (hinv : Inv s) : s.workers.length ≤ 1 := by
  cases hinv.manned with
  | idle hrunning hworkers hqueue =>
    rw [hworkers]
    exact Nat.zero_le 1
  | manned p hrunning hworkers =>
    rw [hworkers]
    exact Nat.le_refl 1

/-- At most four steps for each write up to the ticket, and five to get to the queue. -/
theorem Inv.workLeft_le (hinv : Inv s) (i : Nat) : s.workLeft i ≤ 4 * (i + 1) + 5 := by
  have hahead : (s.workers.map Worker.ahead).sum ≤ 5 := by
    cases hinv.manned with
    | idle hrunning hworkers hqueue =>
      rw [hworkers]
      exact Nat.zero_le 5
    | manned p hrunning hworkers =>
      rw [hworkers, List.map_singleton, List.sum_singleton]
      cases p with
      | executing w sent => cases sent <;> simp [Worker.ahead]
      | _ => simp [Worker.ahead]
  unfold State.workLeft
  omega

/-- A queued write is run by any run with enough steps of the worker. -/
theorem run_of_work (hinv : Inv s) {w : Write α} (hw : w ∈ s.queued) {n : Nat}
    (h : Counted Step Event.isWork s n t) (hn : 4 * (w.ticket + 1) + 5 < n) : w ∈ t.ran := by
  have hle := hinv.workLeft_le w.ticket
  have hkeep : ∀ (a : State α) e b, Step a e b → Inv a ∧ w ∈ a.queued →
      Inv b ∧ w ∈ b.queued := by
    rintro a e b hstep ⟨ha, hqueued⟩
    exact ⟨ha.step hstep, hstep.queued_mono ha.manned hqueued⟩
  refine h.goal (I := fun u => Inv u ∧ w ∈ u.queued) (G := fun u => w ∈ u.ran)
    (f := fun u => u.workLeft w.ticket) ⟨hinv, hw⟩ (Nat.lt_of_le_of_lt hle hn) hkeep ?_ ?_ ?_
  · -- What has run stays so.
    rintro a e b hstep ⟨ha, hqueued⟩ hran
    rcases hkeep a e b hstep ⟨ha, hqueued⟩ with ⟨hb, hqueued'⟩
    cases hstep.move ha.manned with
    | finished k panicked v sent log hrunning hworkers hlog => exact List.mem_append_left _ hran
    | _ => exact hran
  · rintro a e b hstep ⟨ha, hqueued⟩ hran
    rcases hkeep a e b hstep ⟨ha, hqueued⟩ with ⟨hb, hqueued'⟩
    rw [ha.mem_ran hqueued] at hran
    rw [hb.mem_ran hqueued']
    rcases ha.workLeft_step (ha.ticket_lt hqueued) hran hstep with hdone | hless
    · exact .inl hdone
    · exact .inr hless.1
  · rintro a e b hstep hwork ⟨ha, hqueued⟩ hran
    rcases hkeep a e b hstep ⟨ha, hqueued⟩ with ⟨hb, hqueued'⟩
    rw [ha.mem_ran hqueued] at hran
    rw [hb.mem_ran hqueued']
    rcases ha.workLeft_step (ha.ticket_lt hqueued) hran hstep with hdone | hless
    · exact .inl hdone
    · exact .inr (hless.2 hwork)

/-- A worker always has a next step: the pool runs or drops it, a write returns or panics. -/
theorem exists_work {p : Worker α} (hworkers : s.workers = [p]) :
    ∃ e t, Event.isWork e ∧ Step s e t := by
  have hget : s.workers[0]? = some p := by
    rw [hworkers]
    rfl
  cases p with
  | starting => exact ⟨.launch 0 true, _, trivial, by simp [Step, State.apply, hget]; rfl⟩
  | spawned => exact ⟨.begin 0 false, _, trivial, by simp [Step, State.apply, hget]; rfl⟩
  | draining => exact ⟨.pop 0, _, trivial, by simp [Step, State.apply, hget]; rfl⟩
  | executing w sent =>
    by_cases hsend : w.awaited = true ∧ sent = false
    · rcases hsend with ⟨hawaited, rfl⟩
      exact ⟨.send 0, _, trivial, by simp [Step, State.apply, hget, hawaited]; rfl⟩
    · refine ⟨.finish 0 false, s.finished 0 w sent, trivial, ?_⟩
      simp only [Step, State.apply, hget]
      rw [if_neg]
      simpa using hsend

/-- Ordered writes, in every reachable state, whatever panics, queues again or is dropped.  Each
queued write has run, is running or waits, in the order of the queue calls, and at most one runs;
a queue that is not empty has its worker; a resolved receiver says that every earlier write has
run; and a write that has not run yet has a next step of the worker, a bounded number of which
runs it. -/
theorem ordered_writes (h : Reaches Step (fun _ _ => True) ({} : State α) s) :
    (s.queued = s.ran ++ s.workers.flatMap Worker.writes ++ s.queue ∧
      (s.queued.map Write.ticket).Nodup ∧ s.workers.length ≤ 1) ∧
    (s.queue ≠ [] → s.running = true ∧ s.workers ≠ []) ∧
    (∀ r ∈ s.landed, ∀ w ∈ s.queued, w.ticket < r.1 → w ∈ s.ran) ∧
    ∀ w ∈ s.queued,
      (w ∉ s.ran → ∃ e t, Event.isWork e ∧ Step s e t) ∧
      ∀ n t, Counted Step Event.isWork s n t → 4 * (w.ticket + 1) + 5 < n → w ∈ t.ran := by
  have hinv : Inv s := h.invariant .init fun _ _ _ _ hstep ha => ha.step hstep
  refine ⟨⟨hinv.order, ?_, hinv.workers_length⟩, ?_, ?_, ?_⟩
  · rw [hinv.tickets]
    exact List.nodup_range
  · intro hqueue
    cases hinv.manned with
    | idle hrunning hworkers hempty => exact absurd hempty hqueue
    | manned p hrunning hworkers =>
      rw [hworkers]
      exact ⟨hrunning, List.cons_ne_nil _ _⟩
  · intro r hr w hw hlt
    exact (hinv.mem_ran hw).mpr (Nat.lt_of_lt_of_le hlt (hinv.landed r hr))
  · intro w hw
    refine ⟨?_, fun n t hrun hn => run_of_work hinv hw hrun hn⟩
    intro hran
    rw [hinv.mem_ran hw] at hran
    rcases hinv.pending (hinv.ticket_lt hw) hran with ⟨p, hworkers, -⟩
    exact exists_work hworkers

/-- A write that queues another one while it runs and then panics; the barrier of `settle`
comes after both. -/
def sampleEvents : List (Event Nat) :=
  [.queue 1 false, .launch 0 true, .begin 0 true, .pop 0, .queue 2 false, .finish 0 true,
    .queue 0 true, .pop 0, .finish 0 false, .pop 0, .send 0]

theorem ordered_writes_sample :
    ∃ s : State Nat, Reaches Step (fun _ _ => True) {} s ∧ (2, true) ∈ s.landed ∧
      ∀ w ∈ s.queued, w.ticket < 2 → w ∈ s.ran := by
  have hrun : (runEvents State.apply (fun _ _ => true) ({} : State Nat) sampleEvents).map
      (fun s => decide ((2, true) ∈ s.landed)) = some true := by
    decide +kernel
  rcases Option.map_eq_some_iff.mp hrun with ⟨s, hs, hlanded⟩
  have hreach : Reaches Step (fun _ _ => True) {} s :=
    Reaches.of_runEvents (fun _ _ _ => trivial) hs
  exact ⟨s, hreach, of_decide_eq_true hlanded,
    (ordered_writes hreach).2.2.1 (2, true) (of_decide_eq_true hlanded)⟩

end Decdn.Client.OrderedWrites
