import Decdn.Foundations.Runs
import Decdn.Foundations.Words
import Mathlib.Data.List.Count
import Mathlib.Logic.Function.Basic

/-!
# Load-shed in-flight counts

`node/src/load_shed`: a node-wide count and one shared counter per client, which an admitted
stream holds a place on until its slot drops.  An acquire looks its client's counter up and
increments it in two steps, a drop decrements the counter and prunes the map in two steps,
and any number of them interleave.

A prune that runs while an acquire holds a counter it has not incremented yet takes the
counter out of the map, and the slot is then counted where nobody looks.

Main results:

- Theorem `Inv.step`: what every undisturbed step keeps.
- Theorem `shed_counts`: without such a prune the counts are exact at rest and never below
  the live slots.
- Theorem `pruned_under_acquire`: with one, a live slot counts as none.
-/

namespace Decdn.Node.LoadShed

/-- A client's node id. -/
abbrev Client := Bytes32

/-! ## State -/

/-- `AtomicU32::fetch_add(1)`. -/
def fetchAdd (n : Nat) : Nat := (n + 1) % 2 ^ 32

/-- `ShedState`: the counters are shared cells, named by their allocation. -/
structure ShedState where
  nodeActive : Nat
  perClient : Client → Option Nat
  counters : Nat → Nat
  allocated : Nat

/-- `ShedState::new`. -/
def ShedState.new : ShedState where
  nodeActive := 0
  perClient := fun _ => none
  counters := fun _ => 0
  allocated := 0

/-- `ShedState::counts`. -/
def ShedState.counts (s : ShedState) (client : Client) : Nat × Nat :=
  (s.nodeActive, (s.perClient client).elim 0 s.counters)

/-- `ShedSlot`. -/
structure ShedSlot where
  client : Client
  counter : Nat
deriving DecidableEq

/-- The first step of `acquire`. -/
def ShedState.enter (s : ShedState) : ShedState := { s with nodeActive := fetchAdd s.nodeActive }

/-- The second step of `acquire`: the entry, inserted when vacant, and its clone. -/
def ShedState.lookup (s : ShedState) (client : Client) : ShedState × ShedSlot :=
  match s.perClient client with
  | some counter => (s, ⟨client, counter⟩)
  | none =>
    ({ s with
        perClient := Function.update s.perClient client (some s.allocated)
        counters := Function.update s.counters s.allocated 0
        allocated := s.allocated + 1 },
      ⟨client, s.allocated⟩)

/-- The third step of `acquire`. -/
def ShedState.count (s : ShedState) (slot : ShedSlot) : ShedState :=
  { s with counters := Function.update s.counters slot.counter (fetchAdd (s.counters slot.counter)) }

/-- The first step of a drop. -/
def ShedState.leave (s : ShedState) : ShedState := { s with nodeActive := s.nodeActive - 1 }

/-- The second step of a drop. -/
def ShedState.uncount (s : ShedState) (slot : ShedSlot) : ShedState :=
  { s with counters := Function.update s.counters slot.counter (s.counters slot.counter - 1) }

/-- The third step of a drop: `remove_if` the mapped counter is zero. -/
def ShedState.prune (s : ShedState) (client : Client) : ShedState :=
  match s.perClient client with
  | some counter =>
    if s.counters counter = 0 then
      { s with perClient := Function.update s.perClient client none }
    else s
  | none => s

/-! ## Policy -/

/-- `RequestClass`. -/
inductive RequestClass where
  | cacheHit
  | cacheMiss
deriving DecidableEq

/-- `ShedReason`. -/
inductive ShedReason where
  | nodeAtCapacity
  | egressSaturated
  | clientAtCapacity
deriving DecidableEq

/-- `ShedDecision`. -/
inductive ShedDecision where
  | admitted
  | shed (reason : ShedReason)
deriving DecidableEq

/-- `PressureSnapshot`. -/
structure PressureSnapshot where
  streamsInFlight : Nat
  clientStreamsInFlight : Nat
  egressBps : Nat

/-- `ResourcePressure`: its `Params` and the latch. -/
structure ResourcePressure where
  egressBudgetBps : Nat
  maxServesHigh : Nat
  maxServesLow : Nat
  perClientCap : Nat
  pressured : Bool

/-- `ResourcePressure::update_pressure`. -/
def ResourcePressure.updatePressure (p : ResourcePressure) (streamsInFlight : Nat) :
    ResourcePressure :=
  if p.maxServesHigh ≤ streamsInFlight then { p with pressured := true }
  else if streamsInFlight ≤ p.maxServesLow then { p with pressured := false }
  else p

/-- `ResourcePressure::decide`, with the latch it leaves. -/
def ResourcePressure.decide (p : ResourcePressure) (cls : RequestClass) (snap : PressureSnapshot) :
    ResourcePressure × ShedDecision :=
  let p := p.updatePressure snap.streamsInFlight
  if p.pressured = true ∧ 0 < p.perClientCap ∧ p.perClientCap ≤ snap.clientStreamsInFlight then
    (p, .shed .clientAtCapacity)
  else if 0 < p.egressBudgetBps ∧ p.egressBudgetBps ≤ snap.egressBps then
    (p, .shed .egressSaturated)
  else if p.pressured = true ∧ cls = .cacheMiss then (p, .shed .nodeAtCapacity)
  else (p, .admitted)

/-- The decision of `LoadShedController::try_admit`, on the counts it reads. -/
def ShedState.tryAdmit (s : ShedState) (p : ResourcePressure) (cls : RequestClass)
    (client : Client) (egressBps : Nat) : ResourcePressure × ShedDecision :=
  p.decide cls ⟨(s.counts client).1, (s.counts client).2, egressBps⟩

/-! ## Interleaving -/

/-- The counters with the streams at them: acquires before their lookup, acquires before
their increment, live slots, and drops before their second and third steps. -/
structure World where
  state : ShedState
  entering : List Client
  cloned : List ShedSlot
  slots : List ShedSlot
  dropping : List ShedSlot
  pruning : List Client

/-- Nothing in flight. -/
def World.new : World where
  state := ShedState.new
  entering := []
  cloned := []
  slots := []
  dropping := []
  pruning := []

/-- One step of one acquire or drop. -/
inductive Event
  | enter (client : Client)
  | lookup (client : Client)
  | count (slot : ShedSlot)
  | leave (slot : ShedSlot)
  | uncount (slot : ShedSlot)
  | prune (client : Client)

/-- The step, when some acquire or drop is at it. -/
def World.apply (w : World) : Event → Option World
  | .enter client => some { w with state := w.state.enter, entering := client :: w.entering }
  | .lookup client =>
    if client ∈ w.entering then
      some { w with
        state := (w.state.lookup client).1
        entering := w.entering.erase client
        cloned := (w.state.lookup client).2 :: w.cloned }
    else none
  | .count slot =>
    if slot ∈ w.cloned then
      some { w with
        state := w.state.count slot
        cloned := w.cloned.erase slot
        slots := slot :: w.slots }
    else none
  | .leave slot =>
    if slot ∈ w.slots then
      some { w with
        state := w.state.leave
        slots := w.slots.erase slot
        dropping := slot :: w.dropping }
    else none
  | .uncount slot =>
    if slot ∈ w.dropping then
      some { w with
        state := w.state.uncount slot
        dropping := w.dropping.erase slot
        pruning := slot.client :: w.pruning }
    else none
  | .prune client =>
    if client ∈ w.pruning then
      some { w with
        state := w.state.prune client
        pruning := w.pruning.erase client }
    else none

/-- The step relation. -/
def Step (w : World) (e : Event) (w' : World) : Prop := w.apply e = some w'

/-- No acquire or drop is in progress. -/
def World.AtRest (w : World) : Prop :=
  w.entering = [] ∧ w.cloned = [] ∧ w.dropping = [] ∧ w.pruning = []

/-- The live slots of a client. -/
def World.live (w : World) (client : Client) : Nat :=
  w.slots.countP fun slot => slot.client = client

/-- The streams that some counter may be counting. -/
def World.inFlight (w : World) : Nat :=
  w.entering.length + w.cloned.length + w.slots.length + w.dropping.length

/-- What a step must not do: remove a zero counter that an acquire has cloned and not yet
incremented, or start one more stream than a 32-bit count holds. -/
def Undisturbed (w : World) : Event → Prop
  | .enter _ => w.inFlight + 1 < 2 ^ 32
  | .prune client =>
    ∀ slot ∈ w.cloned, slot.client = client → w.state.perClient client = some slot.counter →
      w.state.counters slot.counter ≠ 0
  | _ => True

/-! ## The invariant -/

/-- What holds of the counters and the streams at them. -/
structure Inv (w : World) : Prop where
  node : w.state.nodeActive = w.entering.length + w.cloned.length + w.slots.length
  counted : ∀ k, w.state.counters k =
    w.slots.countP (fun slot => slot.counter = k) + w.dropping.countP (fun slot => slot.counter = k)
  mapped : ∀ slot ∈ w.cloned ++ w.slots ++ w.dropping,
    w.state.perClient slot.client = some slot.counter
  allocated : ∀ c k, w.state.perClient c = some k → k < w.state.allocated
  apart : ∀ c d k, w.state.perClient c = some k → w.state.perClient d = some k → c = d
  held : ∀ c k, w.state.perClient c = some k →
    w.state.counters k ≠ 0 ∨ (∃ slot ∈ w.cloned, slot.client = c) ∨ c ∈ w.pruning
  room : w.inFlight < 2 ^ 32

theorem Inv.new : Inv World.new := by
  constructor <;> simp [World.new, ShedState.new, World.inFlight]

theorem Inv.fetchAdd_node {w : World} (h : Inv w) (hroom : w.inFlight + 1 < 2 ^ 32) :
    fetchAdd w.state.nodeActive = w.state.nodeActive + 1 := by
  have hnode := h.node
  unfold World.inFlight at hroom
  unfold fetchAdd
  omega

theorem Inv.fetchAdd_counter {w : World} (h : Inv w) {slot : ShedSlot} (hslot : slot ∈ w.cloned)
    (k : Nat) : fetchAdd (w.state.counters k) = w.state.counters k + 1 := by
  have hcounted := h.counted k
  have hslots := List.countP_le_length (p := fun slot : ShedSlot => slot.counter = k) (l := w.slots)
  have hdropping :=
    List.countP_le_length (p := fun slot : ShedSlot => slot.counter = k) (l := w.dropping)
  have hpos := List.length_pos_of_mem hslot
  have hroom := h.room
  unfold World.inFlight at hroom
  unfold fetchAdd
  omega

/-- A slot that is live, or that a drop has not decremented yet, is on its counter. -/
theorem Inv.counter_ne_zero {w : World} (h : Inv w) {slot : ShedSlot}
    (hslot : slot ∈ w.slots ++ w.dropping) : w.state.counters slot.counter ≠ 0 := by
  have hpos : 0 < (w.slots ++ w.dropping).countP fun s => s.counter = slot.counter :=
    List.countP_pos_iff.mpr ⟨slot, hslot, decide_eq_true rfl⟩
  rw [List.countP_append] at hpos
  rw [h.counted]
  omega

theorem Inv.enter {w : World} (h : Inv w) (hroom : w.inFlight + 1 < 2 ^ 32) (client : Client) :
    Inv { w with state := w.state.enter, entering := client :: w.entering } where
  node := by
    have hnode := h.node
    simp only [ShedState.enter, h.fetchAdd_node hroom, List.length_cons]
    omega
  counted := h.counted
  mapped := h.mapped
  allocated := h.allocated
  apart := h.apart
  held := h.held
  room := by
    unfold World.inFlight at hroom ⊢
    simp only [List.length_cons]
    omega

theorem Inv.lookup {w : World} (h : Inv w) {client : Client} (hmem : client ∈ w.entering) :
    Inv { w with
      state := (w.state.lookup client).1
      entering := w.entering.erase client
      cloned := (w.state.lookup client).2 :: w.cloned } := by
  have hlength := List.length_erase_of_mem hmem
  have hpos := List.length_pos_of_mem hmem
  have hnode := h.node
  have hroom := h.room
  unfold World.inFlight at hroom
  unfold ShedState.lookup
  split
  · rename_i k hk
    refine ⟨?_, h.counted, ?_, h.allocated, h.apart, ?_, ?_⟩
    · simp only [List.length_cons]
      omega
    · intro slot hslot
      rcases List.mem_cons.mp hslot with rfl | hslot
      · exact hk
      · exact h.mapped slot hslot
    · intro c k hc
      rcases h.held c k hc with hne | ⟨slot, hslot, heq⟩ | hprune
      · exact .inl hne
      · exact .inr (.inl ⟨slot, List.mem_cons_of_mem _ hslot, heq⟩)
      · exact .inr (.inr hprune)
    · unfold World.inFlight
      simp only [List.length_cons]
      omega
  · rename_i hvacant
    -- The cell is new: no stream is on it and no client is mapped to it.
    have hother : ∀ c k, w.state.perClient c = some k → c ≠ client ∧ k ≠ w.state.allocated := by
      intro c k hc
      refine ⟨?_, (h.allocated c k hc).ne⟩
      rintro rfl
      rw [hvacant] at hc
      cases hc
    have hslots : ∀ slot ∈ w.cloned ++ w.slots ++ w.dropping,
        slot.client ≠ client ∧ slot.counter ≠ w.state.allocated := fun slot hslot =>
      hother _ _ (h.mapped slot hslot)
    refine ⟨?_, ?_, ?_, ?_, ?_, ?_, ?_⟩
    · simp only [List.length_cons]
      omega
    · intro k
      dsimp only
      by_cases hk : k = w.state.allocated
      · rw [hk, Function.update_self, List.countP_eq_zero.mpr, List.countP_eq_zero.mpr]
        · intro slot hslot
          have := (hslots slot (by simp [hslot])).2
          simpa using this
        · intro slot hslot
          have := (hslots slot (by simp [hslot])).2
          simpa using this
      · rw [Function.update_of_ne hk]
        exact h.counted k
    · intro slot hslot
      dsimp only at hslot ⊢
      rcases List.mem_cons.mp hslot with rfl | hslot
      · exact Function.update_self _ _ _
      · rw [Function.update_of_ne (hslots slot hslot).1]
        exact h.mapped slot hslot
    · intro c k hc
      dsimp only at hc ⊢
      by_cases hclient : c = client
      · rw [hclient, Function.update_self, Option.some.injEq] at hc
        omega
      · rw [Function.update_of_ne hclient] at hc
        have := h.allocated c k hc
        omega
    · intro c d k hc hd
      dsimp only at hc hd
      by_cases hclient : c = client
      · by_cases hother' : d = client
        · rw [hclient, hother']
        · rw [hclient, Function.update_self, Option.some.injEq] at hc
          rw [Function.update_of_ne hother'] at hd
          exact absurd hc.symm (hother d k hd).2
      · rw [Function.update_of_ne hclient] at hc
        by_cases hother' : d = client
        · rw [hother', Function.update_self, Option.some.injEq] at hd
          exact absurd hd.symm (hother c k hc).2
        · rw [Function.update_of_ne hother'] at hd
          exact h.apart c d k hc hd
    · intro c k hc
      dsimp only at hc ⊢
      by_cases hclient : c = client
      · exact .inr (.inl ⟨_, List.mem_cons_self, hclient.symm⟩)
      · rw [Function.update_of_ne hclient] at hc
        rw [Function.update_of_ne (hother c k hc).2]
        rcases h.held c k hc with hne | ⟨slot, hslot, heq⟩ | hprune
        · exact .inl hne
        · exact .inr (.inl ⟨slot, List.mem_cons_of_mem _ hslot, heq⟩)
        · exact .inr (.inr hprune)
    · unfold World.inFlight
      simp only [List.length_cons]
      omega

theorem Inv.count {w : World} (h : Inv w) {slot : ShedSlot} (hmem : slot ∈ w.cloned) :
    Inv { w with
      state := w.state.count slot
      cloned := w.cloned.erase slot
      slots := slot :: w.slots } := by
  have hlength := List.length_erase_of_mem hmem
  have hpos := List.length_pos_of_mem hmem
  have hnode := h.node
  have hroom := h.room
  have hslot := h.mapped slot (by simp [hmem])
  unfold World.inFlight at hroom
  refine ⟨?_, ?_, ?_, h.allocated, h.apart, ?_, ?_⟩
  · simp only [ShedState.count, List.length_cons]
    omega
  · intro k
    have hcounted := h.counted k
    simp only [ShedState.count, List.countP_cons]
    by_cases hk : k = slot.counter
    · rw [hk, Function.update_self, h.fetchAdd_counter hmem, ← hk, hcounted]
      simp only [decide_true, if_true]
      omega
    · rw [Function.update_of_ne hk, hcounted]
      simp only [Ne.symm hk, decide_false, Bool.false_eq_true, if_false]
      omega
  · intro s hs
    simp only [List.mem_append, List.mem_cons] at hs
    rcases hs with (hs | rfl | hs) | hs
    · exact h.mapped s (by simp [List.mem_of_mem_erase hs])
    · exact hslot
    · exact h.mapped s (by simp [hs])
    · exact h.mapped s (by simp [hs])
  · intro c k hc
    simp only [ShedState.count] at hc ⊢
    by_cases hk : k = slot.counter
    · rw [hk, Function.update_self, h.fetchAdd_counter hmem]
      exact .inl (Nat.succ_ne_zero _)
    · rw [Function.update_of_ne hk]
      rcases h.held c k hc with hne | ⟨s, hs, rfl⟩ | hprune
      · exact .inl hne
      · -- The clone that holds the entry is another one.
        refine .inr (.inl ⟨s, (List.mem_erase_of_ne ?_).mpr hs, rfl⟩)
        rintro rfl
        exact hk (Option.some.inj (hc.symm.trans hslot))
      · exact .inr (.inr hprune)
  · unfold World.inFlight
    simp only [List.length_cons]
    omega

theorem Inv.leave {w : World} (h : Inv w) {slot : ShedSlot} (hmem : slot ∈ w.slots) :
    Inv { w with
      state := w.state.leave
      slots := w.slots.erase slot
      dropping := slot :: w.dropping } := by
  have hlength := List.length_erase_of_mem hmem
  have hpos := List.length_pos_of_mem hmem
  have hnode := h.node
  have hroom := h.room
  unfold World.inFlight at hroom
  refine ⟨?_, ?_, ?_, h.allocated, h.apart, h.held, ?_⟩
  · simp only [ShedState.leave]
    omega
  · intro k
    have hcounted := h.counted k
    have hperm := (List.perm_cons_erase hmem).countP_eq fun s => decide (s.counter = k)
    rw [List.countP_cons] at hperm
    simp only [ShedState.leave, List.countP_cons]
    omega
  · intro s hs
    simp only [List.mem_append, List.mem_cons] at hs
    rcases hs with (hs | hs) | rfl | hs
    · exact h.mapped s (by simp [hs])
    · exact h.mapped s (by simp [List.mem_of_mem_erase hs])
    · exact h.mapped s (by simp [hmem])
    · exact h.mapped s (by simp [hs])
  · unfold World.inFlight
    simp only [List.length_cons]
    omega

theorem Inv.uncount {w : World} (h : Inv w) {slot : ShedSlot} (hmem : slot ∈ w.dropping) :
    Inv { w with
      state := w.state.uncount slot
      dropping := w.dropping.erase slot
      pruning := slot.client :: w.pruning } := by
  have hlength := List.length_erase_of_mem hmem
  have hroom := h.room
  have hslot := h.mapped slot (by simp [hmem])
  unfold World.inFlight at hroom
  refine ⟨h.node, ?_, ?_, h.allocated, h.apart, ?_, ?_⟩
  · intro k
    have hcounted := h.counted k
    have hperm := (List.perm_cons_erase hmem).countP_eq fun s => decide (s.counter = k)
    rw [List.countP_cons] at hperm
    simp only [ShedState.uncount]
    by_cases hk : k = slot.counter
    · rw [hk] at hcounted hperm ⊢
      rw [Function.update_self]
      simp only [decide_true, if_true] at hperm
      omega
    · rw [Function.update_of_ne hk]
      simp only [Ne.symm hk, decide_false, Bool.false_eq_true, if_false] at hperm
      omega
  · intro s hs
    simp only [List.mem_append] at hs
    rcases hs with (hs | hs) | hs
    · exact h.mapped s (by simp [hs])
    · exact h.mapped s (by simp [hs])
    · exact h.mapped s (by simp [List.mem_of_mem_erase hs])
  · intro c k hc
    simp only [ShedState.uncount] at hc ⊢
    by_cases hk : k = slot.counter
    · -- Its own client prunes next.
      rw [h.apart c slot.client k hc (hk ▸ hslot)]
      exact .inr (.inr List.mem_cons_self)
    · rw [Function.update_of_ne hk]
      rcases h.held c k hc with hne | hclone | hprune
      · exact .inl hne
      · exact .inr (.inl hclone)
      · exact .inr (.inr (List.mem_cons_of_mem _ hprune))
  · unfold World.inFlight
    dsimp only
    omega

theorem Inv.prune {w : World} (h : Inv w) {client : Client}
    (hclones : ∀ slot ∈ w.cloned, slot.client = client →
      w.state.perClient client = some slot.counter → w.state.counters slot.counter ≠ 0) :
    Inv { w with
      state := w.state.prune client
      pruning := w.pruning.erase client } := by
  -- An entry of another client keeps what held it.
  have hkept : ∀ c k, c ≠ client → w.state.perClient c = some k →
      w.state.counters k ≠ 0 ∨ (∃ slot ∈ w.cloned, slot.client = c) ∨
        c ∈ w.pruning.erase client := by
    intro c k hne hc
    rcases h.held c k hc with hcount | hclone | hprune
    · exact .inl hcount
    · exact .inr (.inl hclone)
    · exact .inr (.inr ((List.mem_erase_of_ne hne).mpr hprune))
  unfold ShedState.prune
  split
  · rename_i k hk
    split
    · rename_i hzero
      have hother : ∀ slot ∈ w.cloned ++ w.slots ++ w.dropping, slot.client ≠ client := by
        rintro slot hslot rfl
        have hcounter := h.mapped slot hslot
        rcases Option.some.inj (hk.symm.trans hcounter) with rfl
        rw [List.append_assoc] at hslot
        rcases List.mem_append.mp hslot with hclone | hcounted
        · exact hclones slot hclone rfl hcounter hzero
        · exact h.counter_ne_zero hcounted hzero
      refine ⟨h.node, h.counted, ?_, ?_, ?_, ?_, h.room⟩
      · intro slot hslot
        dsimp only at hslot ⊢
        rw [Function.update_of_ne (hother slot hslot)]
        exact h.mapped slot hslot
      · intro c k hc
        dsimp only at hc ⊢
        by_cases hclient : c = client
        · rw [hclient, Function.update_self] at hc
          cases hc
        · rw [Function.update_of_ne hclient] at hc
          exact h.allocated c k hc
      · intro c d k hc hd
        dsimp only at hc hd
        by_cases hclient : c = client
        · rw [hclient, Function.update_self] at hc
          cases hc
        · by_cases hclient' : d = client
          · rw [hclient', Function.update_self] at hd
            cases hd
          · rw [Function.update_of_ne hclient] at hc
            rw [Function.update_of_ne hclient'] at hd
            exact h.apart c d k hc hd
      · intro c k hc
        dsimp only at hc ⊢
        by_cases hclient : c = client
        · rw [hclient, Function.update_self] at hc
          cases hc
        · rw [Function.update_of_ne hclient] at hc
          exact hkept c k hclient hc
    · rename_i hcount
      refine ⟨h.node, h.counted, h.mapped, h.allocated, h.apart, ?_, h.room⟩
      intro c k' hc
      by_cases hclient : c = client
      · rw [hclient, hk, Option.some.injEq] at hc
        exact .inl (hc ▸ hcount)
      · exact hkept c k' hclient hc
  · rename_i hvacant
    refine ⟨h.node, h.counted, h.mapped, h.allocated, h.apart, ?_, h.room⟩
    intro c k hc
    refine hkept c k ?_ hc
    rintro rfl
    rw [hvacant] at hc
    cases hc

/-- Every undisturbed step keeps the invariant. -/
theorem Inv.step {w w' : World} {e : Event} (h : Inv w) (hguard : Undisturbed w e)
    (hstep : Step w e w') : Inv w' := by
  unfold Step at hstep
  cases e with
  | enter client =>
    rcases Option.some.inj hstep with rfl
    exact h.enter hguard client
  | lookup client =>
    rw [World.apply, Option.ite_none_right_eq_some] at hstep
    rcases hstep with ⟨hmem, heq⟩
    rcases Option.some.inj heq with rfl
    exact h.lookup hmem
  | count slot =>
    rw [World.apply, Option.ite_none_right_eq_some] at hstep
    rcases hstep with ⟨hmem, heq⟩
    rcases Option.some.inj heq with rfl
    exact h.count hmem
  | leave slot =>
    rw [World.apply, Option.ite_none_right_eq_some] at hstep
    rcases hstep with ⟨hmem, heq⟩
    rcases Option.some.inj heq with rfl
    exact h.leave hmem
  | uncount slot =>
    rw [World.apply, Option.ite_none_right_eq_some] at hstep
    rcases hstep with ⟨hmem, heq⟩
    rcases Option.some.inj heq with rfl
    exact h.uncount hmem
  | prune client =>
    rw [World.apply, Option.ite_none_right_eq_some] at hstep
    rcases hstep with ⟨-, heq⟩
    rcases Option.some.inj heq with rfl
    exact h.prune hguard

theorem Inv.of_reaches {w : World} (h : Reaches Step Undisturbed World.new w) : Inv w :=
  h.invariant Inv.new fun _ _ _ hguard hstep hinv => hinv.step hguard hstep

/-! ## The counts -/

/-- The mapped counter's own slots are the client's. -/
theorem Inv.live_eq {w : World} (h : Inv w) {client : Client} {k : Nat}
    (hk : w.state.perClient client = some k) :
    w.live client = w.slots.countP fun slot => slot.counter = k := by
  unfold World.live
  apply List.countP_congr
  intro slot hslot
  have hmapped := h.mapped slot (by simp [hslot])
  rw [decide_eq_true_iff, decide_eq_true_iff]
  constructor
  · rintro rfl
    exact Option.some.inj (hmapped.symm.trans hk)
  · rintro rfl
    exact h.apart _ _ _ hmapped hk

theorem Inv.live_eq_zero {w : World} (h : Inv w) {client : Client}
    (hvacant : w.state.perClient client = none) : w.live client = 0 := by
  unfold World.live
  rw [List.countP_eq_zero]
  intro slot hslot
  rw [decide_eq_true_iff]
  rintro rfl
  have hmapped := h.mapped slot (by simp [hslot])
  rw [hvacant] at hmapped
  cases hmapped

/-- The count of a client never misses a live slot. -/
theorem Inv.live_le {w : World} (h : Inv w) (client : Client) :
    w.live client ≤ (w.state.counts client).2 := by
  unfold ShedState.counts
  cases hk : w.state.perClient client with
  | none =>
    rw [h.live_eq_zero hk]
    exact Nat.zero_le _
  | some k =>
    have hcounted := h.counted k
    have hlive := h.live_eq hk
    simp only [Option.elim_some]
    omega

theorem Inv.counts_eq {w : World} (h : Inv w) (hrest : w.AtRest) (client : Client) :
    w.state.counts client = (w.slots.length, w.live client) := by
  rcases hrest with ⟨hentering, hcloned, hdropping, -⟩
  have hnode := h.node
  rw [hentering, hcloned, List.length_nil, List.length_nil, Nat.zero_add] at hnode
  unfold ShedState.counts
  cases hk : w.state.perClient client with
  | none =>
    rw [h.live_eq_zero hk, hnode]
    rfl
  | some k =>
    have hcounted := h.counted k
    rw [hdropping, List.countP_nil, Nat.add_zero, ← h.live_eq hk] at hcounted
    rw [hnode, Option.elim_some, hcounted]

theorem Inv.live_pos {w : World} (h : Inv w) (hrest : w.AtRest) {client : Client}
    (hmapped : w.state.perClient client ≠ none) : 0 < w.live client := by
  have hcounts := h.counts_eq hrest client
  rcases hrest with ⟨-, hcloned, -, hpruning⟩
  cases hk : w.state.perClient client with
  | none => exact absurd hk hmapped
  | some k =>
    have hheld := h.held client k hk
    simp only [hcloned, hpruning, List.not_mem_nil, false_and, exists_false, or_false] at hheld
    unfold ShedState.counts at hcounts
    rw [hk, Option.elim_some, Prod.mk.injEq] at hcounts
    omega

/-! ## The cap -/

/-- The slots of a client, with its acquires in progress. -/
def World.claimed (w : World) (client : Client) : Nat :=
  w.entering.countP (fun c => c = client) + w.cloned.countP (fun slot => slot.client = client) +
    w.live client

/-- A client that opens one stream at a time, each admitted under pressure. -/
def OneAtATime (cap : Nat) (client : Client) (w : World) : Event → Prop
  | .enter c =>
    c = client →
      w.entering.countP (fun c => c = client) = 0 ∧
      w.cloned.countP (fun slot => slot.client = client) = 0 ∧
      ∃ p cls egressBps, p.perClientCap = cap ∧
        (w.state.tryAdmit p cls client egressBps).1.pressured = true ∧
        (w.state.tryAdmit p cls client egressBps).2 = .admitted
  | _ => True

theorem updatePressure_perClientCap (p : ResourcePressure) (n : Nat) :
    (p.updatePressure n).perClientCap = p.perClientCap := by
  unfold ResourcePressure.updatePressure
  split
  · rfl
  · split <;> rfl

/-- Under pressure a client at its cap is shed. -/
theorem below_cap_of_admit {s : ShedState} {p : ResourcePressure} {cls : RequestClass}
    {client : Client} {egressBps : Nat} (hcap : 0 < p.perClientCap)
    (hpressed : (s.tryAdmit p cls client egressBps).1.pressured = true)
    (hadmitted : (s.tryAdmit p cls client egressBps).2 = .admitted) :
    (s.counts client).2 < p.perClientCap := by
  unfold ShedState.tryAdmit ResourcePressure.decide at hpressed hadmitted
  simp only [updatePressure_perClientCap] at hpressed hadmitted
  split at hadmitted
  · cases hadmitted
  · rename_i hbelow
    rw [if_neg hbelow] at hpressed
    by_contra hle
    refine hbelow ⟨?_, hcap, Nat.not_lt.mp hle⟩
    split at hpressed
    · exact hpressed
    · split at hpressed <;> exact hpressed

theorem claimed_step {w w' : World} {e : Event} {cap : Nat} {client : Client} (h : Inv w)
    (hcap : 0 < cap) (hguard : OneAtATime cap client w e) (hstep : Step w e w')
    (hle : w.claimed client ≤ cap) : w'.claimed client ≤ cap := by
  unfold Step at hstep
  unfold World.claimed World.live at hle ⊢
  cases e with
  | enter c =>
    rcases Option.some.inj hstep with rfl
    simp only [List.countP_cons]
    by_cases hc : c = client
    · rcases hguard hc with ⟨hentering, hcloned, p, cls, egressBps, hp, hpressed, hadmitted⟩
      have hbelow := below_cap_of_admit (hp.symm ▸ hcap) hpressed hadmitted
      have hlive := h.live_le client
      unfold World.live at hlive
      simp only [hc, decide_true, if_true]
      omega
    · simp only [hc, decide_false, Bool.false_eq_true, if_false]
      omega
  | lookup c =>
    rw [World.apply, Option.ite_none_right_eq_some] at hstep
    rcases hstep with ⟨hmem, heq⟩
    rcases Option.some.inj heq with rfl
    have hperm := (List.perm_cons_erase hmem).countP_eq fun c => decide (c = client)
    have hclient : (w.state.lookup c).2.client = c := by
      unfold ShedState.lookup
      split <;> rfl
    rw [List.countP_cons] at hperm
    simp only [List.countP_cons, hclient]
    omega
  | count slot =>
    rw [World.apply, Option.ite_none_right_eq_some] at hstep
    rcases hstep with ⟨hmem, heq⟩
    rcases Option.some.inj heq with rfl
    have hperm := (List.perm_cons_erase hmem).countP_eq fun s => decide (s.client = client)
    rw [List.countP_cons] at hperm
    simp only [List.countP_cons]
    omega
  | leave slot =>
    rw [World.apply, Option.ite_none_right_eq_some] at hstep
    rcases hstep with ⟨hmem, heq⟩
    rcases Option.some.inj heq with rfl
    have hperm := (List.perm_cons_erase hmem).countP_eq fun s => decide (s.client = client)
    rw [List.countP_cons] at hperm
    dsimp only
    omega
  | uncount slot =>
    rw [World.apply, Option.ite_none_right_eq_some] at hstep
    rcases hstep with ⟨-, heq⟩
    rcases Option.some.inj heq with rfl
    exact hle
  | prune c =>
    rw [World.apply, Option.ite_none_right_eq_some] at hstep
    rcases hstep with ⟨-, heq⟩
    rcases Option.some.inj heq with rfl
    exact hle

theorem live_le_cap {w : World} {cap : Nat} {client : Client} (hcap : 0 < cap)
    (h : Reaches Step (fun w e => Undisturbed w e ∧ OneAtATime cap client w e) World.new w) :
    w.live client ≤ cap := by
  have hboth : Inv w ∧ w.claimed client ≤ cap := by
    refine h.invariant (I := fun w => Inv w ∧ w.claimed client ≤ cap)
      ⟨Inv.new, Nat.zero_le _⟩ ?_
    rintro a e b ⟨hquiet, hone⟩ hstep ⟨hinv, hle⟩
    exact ⟨hinv.step hquiet hstep, claimed_step hinv hcap hone hstep hle⟩
  have hle := hboth.2
  unfold World.claimed at hle
  omega

/-- In every run whose steps are undisturbed the counts are exact: at rest the node count is
the number of live slots, each client's count is the number of its live slots and the map
has entries for clients with a live slot only; at every moment a live slot is on the counter
in the map, each counter holds its increments not undone yet, and a client that opens its
streams one at a time under pressure stays within the cap. -/
theorem shed_counts {w : World} (h : Reaches Step Undisturbed World.new w) :
    (w.AtRest → ∀ client,
      w.state.counts client = (w.slots.length, w.live client) ∧
      (w.state.perClient client ≠ none → 0 < w.live client)) ∧
    (∀ slot ∈ w.slots, w.state.perClient slot.client = some slot.counter) ∧
    (∀ k, w.state.counters k = w.slots.countP (fun slot => slot.counter = k) +
      w.dropping.countP (fun slot => slot.counter = k)) ∧
    ∀ cap client, 0 < cap →
      Reaches Step (fun w e => Undisturbed w e ∧ OneAtATime cap client w e) World.new w →
      w.live client ≤ cap := by
  have hinv := Inv.of_reaches h
  refine ⟨?_, ?_, hinv.counted, ?_⟩
  · intro hrest client
    exact ⟨hinv.counts_eq hrest client, hinv.live_pos hrest⟩
  · intro slot hslot
    exact hinv.mapped slot (by simp [hslot])
  · intro cap client hcap hrun
    exact live_le_cap hcap hrun

/-- Two streams of one client open and the first closes. -/
def sampleEvents : List Event :=
  [.enter 7, .lookup 7, .count ⟨7, 0⟩, .enter 7, .lookup 7, .count ⟨7, 0⟩, .leave ⟨7, 0⟩,
    .uncount ⟨7, 0⟩, .prune 7]

/-- The second stream looks the counter up before the first one prunes it. -/
def disturbedEvents : List Event :=
  [.enter 7, .lookup 7, .count ⟨7, 0⟩, .leave ⟨7, 0⟩, .uncount ⟨7, 0⟩, .enter 7, .lookup 7,
    .prune 7, .count ⟨7, 0⟩, .enter 7, .lookup 7, .count ⟨7, 1⟩]

/-- A client prunes while no acquire of its own holds a clone. -/
def quiet (w : World) : Event → Bool
  | .enter _ => w.inFlight + 1 < 2 ^ 32
  | .prune client => w.cloned.all fun slot => slot.client ≠ client
  | _ => true

theorem undisturbed_of_quiet (w : World) (e : Event) (h : quiet w e = true) :
    Undisturbed w e := by
  cases e with
  | enter client =>
    have hroom : w.inFlight + 1 < 2 ^ 32 := of_decide_eq_true h
    exact hroom
  | prune client =>
    intro slot hslot hclient
    have hne := of_decide_eq_true (List.all_eq_true.mp h slot hslot)
    exact absurd hclient hne
  | _ => trivial

/-- What an observer reads after the listed steps. -/
def observed (allowed : World → Event → Bool) (es : List Event) : Option (Bool × Nat × Nat × Nat) :=
  (runEvents World.apply allowed World.new es).map fun w =>
    (w.entering.isEmpty && w.cloned.isEmpty && w.dropping.isEmpty && w.pruning.isEmpty,
      w.live 7, w.state.counts 7)

theorem AtRest.of_isEmpty {w : World} (h : (w.entering.isEmpty && w.cloned.isEmpty &&
    w.dropping.isEmpty && w.pruning.isEmpty) = true) : w.AtRest := by
  simp only [Bool.and_eq_true, List.isEmpty_iff] at h
  exact ⟨h.1.1.1, h.1.1.2, h.1.2, h.2⟩

/-- A live slot is left on a counter that is no longer in the map: two streams of one client
are live and the client's count is one. -/
theorem pruned_under_acquire :
    ∃ w, Reaches Step (fun _ _ => True) World.new w ∧ w.AtRest ∧
      w.live 7 = 2 ∧ w.state.counts 7 = (2, 1) := by
  have hseen : observed (fun _ _ => true) disturbedEvents = some (true, 2, 2, 1) := by
    decide
  unfold observed at hseen
  rw [Option.map_eq_some_iff] at hseen
  rcases hseen with ⟨w, hrun, hw⟩
  rw [Prod.mk.injEq, Prod.mk.injEq] at hw
  exact ⟨w, Reaches.of_runEvents (fun _ _ _ => trivial) hrun, AtRest.of_isEmpty hw.1, hw.2⟩

/-- Two streams of which one closes again leave the count exact. -/
theorem shed_counts_sample :
    ∃ w : World, w.AtRest ∧ w.live 7 = 1 ∧ w.state.counts 7 = (w.slots.length, w.live 7) := by
  have hseen : observed quiet sampleEvents = some (true, 1, 1, 1) := by
    decide
  unfold observed at hseen
  rw [Option.map_eq_some_iff] at hseen
  rcases hseen with ⟨w, hrun, hw⟩
  rw [Prod.mk.injEq, Prod.mk.injEq] at hw
  have hreach := Reaches.of_runEvents undisturbed_of_quiet hrun
  have hrest := AtRest.of_isEmpty hw.1
  exact ⟨w, hrest, hw.2.1, ((shed_counts hreach).1 hrest 7).1⟩

end Decdn.Node.LoadShed
