import Decdn.Origins.Seats

/-!
# The index of the assigned namespaces

Consumers page the set of assigned namespaces instead of replaying events, so it must hold
exactly the namespaces with a seated operator.  The events in turn tell every seat, and each
of them was justified when it was emitted.

Main definitions:

- Definition `seatedIn`: whether a log leaves an operator seated.
- Definition `Event.Justified`: what the contract checked before it emitted an event.

Main results:

- Theorem `Inv.step`: every transaction keeps the index and the log true to the seats.
- Theorem `assigned_exact`: the index is exact and its pages miss nothing.
- Theorem `seats_justified`: every seat has its event, and every event its reason.
- Theorem `ownership_by_consent`: namespaces change hands on the owner's word only.
-/

namespace Decdn.OriginAssignment

variable {L : Sets} {ownerOf : Nat → Address} {tx : Tx} {s s' : State} {w w' : World}

/-! ## What the events tell -/

/-- The seat an event changes, and whether the operator is seated after it. -/
def Event.seatChange : Event → Option (Bool × Nat × Address)
  | .originAdded namespaceId operator _ => some (true, namespaceId, operator)
  | .originRemoved namespaceId operator _ | .inactiveOriginPruned namespaceId operator _ =>
    some (false, namespaceId, operator)
  | _ => none

/-- One event of a replay. -/
def replaySeat (namespaceId : Nat) (operator : Address) (seated : Bool) (e : Event) : Bool :=
  match e.seatChange with
  | some (change, id, op) => if id = namespaceId ∧ op = operator then change else seated
  | none => seated

/-- Whether a log leaves an operator seated: its last event about the seat decides. -/
def seatedIn (log : List Event) (namespaceId : Nat) (operator : Address) : Bool :=
  log.foldl (replaySeat namespaceId operator) false

@[simp]
theorem seatedIn_concat (log : List Event) (e : Event) (namespaceId : Nat) (operator : Address) :
    seatedIn (log ++ [e]) namespaceId operator =
      replaySeat namespaceId operator (seatedIn log namespaceId operator) e := by
  simp [seatedIn]

/-- What the contract checked before it emitted an event. -/
def Event.Justified (ownerOf : Nat → Address) (tx : Tx) (s : State) : Event → Prop
  | .originAdded namespaceId operator caller =>
    caller = tx.sender ∧ Admits ownerOf tx s namespaceId operator
  | .originRemoved namespaceId operator caller =>
    caller = tx.sender ∧ operator ∈ s.origins namespaceId ∧
      (tx.isGovernance tx.sender = true ∨ ownerOf namespaceId = tx.sender)
  | .inactiveOriginPruned namespaceId operator pruner =>
    pruner = tx.sender ∧ operator ∈ s.origins namespaceId ∧ tx.isActive operator = false
  | _ => True

/-! ## The invariant -/

/-- The index, the bounds and the log agree with the seats. -/
structure Indexed (s : State) : Prop where
  nodup : ∀ namespaceId, (s.origins namespaceId).Nodup
  nodup_assigned : s.assignedNamespaces.Nodup
  mem_assigned : ∀ namespaceId,
    namespaceId ∈ s.assignedNamespaces ↔ s.origins namespaceId ≠ []
  cap_le : s.maxOriginsPerNamespace ≤ maxOriginsCeiling
  length_le : ∀ namespaceId, (s.origins namespaceId).length ≤ maxOriginsCeiling
  replayed : ∀ namespaceId operator,
    operator ∈ s.origins namespaceId ↔ seatedIn s.log namespaceId operator = true

/-- An event that changes no seat leaves the replay alone. -/
theorem seatedIn_other (log : List Event) {e : Event} (h : e.seatChange = none)
    (namespaceId : Nat) (operator : Address) :
    seatedIn (log ++ [e]) namespaceId operator = seatedIn log namespaceId operator := by
  rw [seatedIn_concat]
  unfold replaySeat
  rw [h]

/-- An operator takes a seat. -/
theorem Indexed.seated (h : Indexed s) {namespaceId : Nat} {operator : Address}
    (hadmits : Admits ownerOf tx s namespaceId operator) :
    Indexed (State.emit { s with
      origins := Function.update s.origins namespaceId
        (L.addresses.add (s.origins namespaceId) operator)
      assignedNamespaces := L.ids.add s.assignedNamespaces namespaceId }
      (.originAdded namespaceId operator tx.sender)) where
  nodup := by
    intro id
    simp only [State.emit]
    by_cases hid : id = namespaceId
    · subst hid
      rw [Function.update_self]
      exact L.addresses.nodup_add operator (h.nodup id)
    · rw [Function.update_of_ne hid]
      exact h.nodup id
  nodup_assigned := L.ids.nodup_add namespaceId h.nodup_assigned
  mem_assigned := by
    intro id
    simp only [State.emit]
    rw [L.ids.mem_add _ _ h.nodup_assigned]
    by_cases hid : id = namespaceId
    · subst hid
      have hmem : operator ∈ L.addresses.add (s.origins id) operator :=
        (L.addresses.mem_add _ _ (h.nodup id)).mpr (.inl rfl)
      rw [Function.update_self]
      exact ⟨fun _ => List.ne_nil_of_mem hmem, fun _ => .inl rfl⟩
    · rw [Function.update_of_ne hid, h.mem_assigned]
      exact ⟨fun hor => hor.resolve_left hid, .inr⟩
  cap_le := h.cap_le
  length_le := by
    intro id
    simp only [State.emit]
    by_cases hid : id = namespaceId
    · subst hid
      rw [Function.update_self, L.addresses.length_add (h.nodup id) hadmits.fresh]
      exact Nat.le_trans hadmits.room h.cap_le
    · rw [Function.update_of_ne hid]
      exact h.length_le id
  replayed := by
    intro id op
    simp only [State.emit, seatedIn_concat, replaySeat, Event.seatChange]
    by_cases hid : id = namespaceId
    · subst hid
      rw [Function.update_self, L.addresses.mem_add _ _ (h.nodup id), h.replayed]
      by_cases hop : op = operator
      · subst hop
        simp
      · simp [hop, Ne.symm hop]
    · rw [Function.update_of_ne hid, h.replayed, if_neg fun hboth => hid hboth.1.symm]

/-- An operator leaves a seat. -/
theorem Indexed.unseated (h : Indexed s) {namespaceId : Nat} {operator : Address} {e : Event}
    (hchange : e.seatChange = some (false, namespaceId, operator)) :
    Indexed (State.emit (pruneEmptyNamespace L { s with
      origins := Function.update s.origins namespaceId
        (L.addresses.remove (s.origins namespaceId) operator) } namespaceId) e) := by
  have horigins : ∀ t : State, (pruneEmptyNamespace L t namespaceId).origins = t.origins := by
    intro t
    unfold pruneEmptyNamespace
    split <;> rfl
  have hcap : ∀ t : State, (pruneEmptyNamespace L t namespaceId).maxOriginsPerNamespace =
      t.maxOriginsPerNamespace := by
    intro t
    unfold pruneEmptyNamespace
    split <;> rfl
  have hlog : ∀ t : State, (pruneEmptyNamespace L t namespaceId).log = t.log := by
    intro t
    unfold pruneEmptyNamespace
    split <;> rfl
  have hnodup := L.addresses.nodup_remove operator (h.nodup namespaceId)
  refine ⟨?_, ?_, ?_, ?_, ?_, ?_⟩
  · intro id
    simp only [State.emit, horigins]
    by_cases hid : id = namespaceId
    · subst hid
      rw [Function.update_self]
      exact hnodup
    · rw [Function.update_of_ne hid]
      exact h.nodup id
  · simp only [State.emit, pruneEmptyNamespace]
    split
    · exact L.ids.nodup_remove namespaceId h.nodup_assigned
    · exact h.nodup_assigned
  · intro id
    simp only [State.emit, horigins]
    simp only [pruneEmptyNamespace, Function.update_self]
    by_cases hid : id = namespaceId
    · subst hid
      rw [Function.update_self]
      split
      · rename_i hempty
        rw [List.length_eq_zero_iff] at hempty
        simp [L.ids.mem_remove _ _ h.nodup_assigned, hempty]
      · rename_i hleft
        have hkept : L.addresses.remove (s.origins id) operator ≠ [] :=
          fun hnil => hleft (by rw [hnil]; rfl)
        have hsome : s.origins id ≠ [] := by
          rcases List.exists_mem_of_ne_nil _ hkept with ⟨op, hop⟩
          exact List.ne_nil_of_mem ((L.addresses.mem_remove _ _ (h.nodup id)).mp hop).1
        simp [h.mem_assigned, hkept, hsome]
    · rw [Function.update_of_ne hid]
      split
      · simp [L.ids.mem_remove _ _ h.nodup_assigned, h.mem_assigned, hid]
      · exact h.mem_assigned id
  · simp only [State.emit, hcap]
    exact h.cap_le
  · intro id
    simp only [State.emit, horigins]
    by_cases hid : id = namespaceId
    · subst hid
      rw [Function.update_self]
      exact Nat.le_trans (L.addresses.length_remove_le operator (h.nodup id)) (h.length_le id)
    · rw [Function.update_of_ne hid]
      exact h.length_le id
  · intro id op
    simp only [State.emit, horigins, hlog, seatedIn_concat, replaySeat, hchange]
    by_cases hid : id = namespaceId
    · subst hid
      rw [Function.update_self, L.addresses.mem_remove _ _ (h.nodup id), h.replayed]
      by_cases hop : op = operator
      · subst hop
        simp
      · simp [hop, Ne.symm hop]
    · rw [Function.update_of_ne hid, h.replayed, if_neg fun hboth => hid hboth.1.symm]

/-- Every call keeps the index. -/
theorem Indexed.move (h : Indexed s) (hmove : Move L ownerOf tx s s') : Indexed s' := by
  cases hmove with
  | seated hadmits => exact h.seated hadmits
  | unseated hseated hcause =>
    rcases hcause with ⟨rfl, -⟩ | ⟨rfl, -⟩
    · exact h.unseated rfl
    · exact h.unseated rfl
  | setMax hfloor hceiling =>
    exact ⟨h.nodup, h.nodup_assigned, h.mem_assigned, hceiling, h.length_le, fun id op => by
      simp only [State.emit]
      rw [seatedIn_other _ rfl]
      exact h.replayed id op⟩
  | setPolicy hzero =>
    exact ⟨h.nodup, h.nodup_assigned, h.mem_assigned, h.cap_le, h.length_le, fun id op => by
      simp only [State.emit]
      rw [seatedIn_other _ rfl]
      exact h.replayed id op⟩

/-! ## Runs -/

/-- What holds of both contracts at every moment. -/
structure Inv (w : World) : Prop where
  registry : PublisherRegistry.Inv w.registry
  indexed : Indexed w.seats
  owned : ∀ namespaceId, w.seats.origins namespaceId ≠ [] → w.registry.ownerOf namespaceId ≠ 0

/-- Only the owner of a namespace opens its set. -/
theorem Move.origins_ne_nil (hmove : Move L ownerOf tx s s') {namespaceId : Nat}
    (h : s'.origins namespaceId ≠ []) :
    s.origins namespaceId ≠ [] ∨ ownerOf namespaceId = tx.sender := by
  cases hmove with
  | @seated id operator hadmits =>
    by_cases hid : namespaceId = id
    · subst hid
      exact .inr hadmits.owner
    · simp only [State.emit, Function.update_of_ne hid] at h
      exact .inl h
  | @unseated id operator e hseated hcause =>
    left
    by_cases hid : namespaceId = id
    · subst hid
      exact List.ne_nil_of_mem hseated
    · simp only [State.emit, pruneEmptyNamespace] at h
      split at h <;> simpa only [Function.update_of_ne hid] using h
  | setMax hfloor hceiling => exact .inl h
  | setPolicy hzero => exact .inl h

theorem default_le : defaultMaxOrigins ≤ maxOriginsCeiling := by decide

theorem Inv.deployed {s : State} {capacityBond publisherRegistry vettingPolicy admin : Address}
    (h : deploy tx capacityBond publisherRegistry vettingPolicy admin = .ok s) :
    Inv ⟨tx.timestamp, {}, s⟩ := by
  unfold deploy at h
  split at h
  · cases h
  · split at h
    · cases h
    · rcases Except.ok.inj h with rfl
      refine ⟨.deployed, ⟨fun _ => List.nodup_nil, List.nodup_nil, ?_, default_le, ?_, ?_⟩,
        fun _ hne => absurd rfl hne⟩
      · intro id
        simp
      · intro id
        exact Nat.zero_le _
      · intro id op
        simp [seatedIn]

/-- Every transaction keeps the invariant. -/
theorem Inv.step (hinv : Inv w) (h : Step L w w') : Inv w' := by
  cases h with
  | registry tx c hnow hexec =>
    have hmove := PublisherRegistry.exec_move hexec
    refine ⟨hinv.registry.move hmove, hinv.indexed, fun id hid => ?_⟩
    have hnext := (hinv.registry.created id).mp (hinv.owned id hid)
    exact ((hinv.registry.move hmove).created id).mpr
      ⟨hnext.1, hnext.2.trans hmove.nextNamespaceId_le⟩
  | seats tx c hnow hexec =>
    have hmove := exec_move hexec
    refine ⟨hinv.registry, hinv.indexed.move hmove, fun id hid => ?_⟩
    rcases hmove.origins_ne_nil hid with hold | howner
    · exact hinv.owned id hold
    · rw [howner]
      exact tx.sender_ne_zero

theorem Reachable.inv (h : Reachable L w) : Inv w := by
  induction h with
  | deployed tx capacityBond publisherRegistry vettingPolicy admin h => exact .deployed h
  | step _ hstep ih => exact ih.step hstep

/-- A call emits one event, for a reason. -/
theorem Move.log (h : Move L ownerOf tx s s') :
    ∃ e : Event, e.Justified ownerOf tx s ∧ s'.log = s.log ++ [e] := by
  cases h with
  | @seated id operator hadmits => exact ⟨.originAdded id operator tx.sender, ⟨rfl, hadmits⟩, rfl⟩
  | @unseated id operator e hseated hcause =>
    refine ⟨e, ?_, ?_⟩
    · rcases hcause with ⟨rfl, hallowed⟩ | ⟨rfl, hinactive⟩
      · exact ⟨rfl, hseated, hallowed⟩
      · exact ⟨rfl, hseated, hinactive⟩
    · simp only [State.emit, pruneEmptyNamespace]
      split <;> rfl
  | @setMax cap hfloor hceiling =>
    exact ⟨.maxOriginsPerNamespaceUpdated s.maxOriginsPerNamespace cap, trivial, rfl⟩
  | @setPolicy newPolicy hzero =>
    exact ⟨.vettingPolicyUpdated s.vettingPolicy newPolicy, trivial, rfl⟩

/-- An event was emitted on the way to `w`: a transaction found the log `before`, passed the checks
of the event and left it at the end of the log, and the run went on from there to `w`. -/
def Emitted (L : Sets) (w : World) (before : List Event) (e : Event) : Prop :=
  ∃ (w₀ : World) (tx : Tx) (c : Call) (s₁ : State), Reachable L w₀ ∧ w₀.seats.log = before ∧
    w₀.now ≤ tx.timestamp ∧ exec L w₀.registry.ownerOf tx w₀.seats c = .ok s₁ ∧
    s₁.log = before ++ [e] ∧ e.Justified w₀.registry.ownerOf tx w₀.seats ∧
    Relation.ReflTransGen (Step L) { w₀ with now := tx.timestamp, seats := s₁ } w

theorem Emitted.step {before : List Event} {e : Event} (h : Emitted L w before e)
    (hstep : Step L w w') : Emitted L w' before e := by
  rcases h with ⟨w₀, tx, c, s₁, hw₀, hlog, hnow, hexec, happend, hjustified, hrun⟩
  exact ⟨w₀, tx, c, s₁, hw₀, hlog, hnow, hexec, happend, hjustified, hrun.tail hstep⟩

/-- Every event of the log was justified when it was emitted. -/
theorem Reachable.emitted (h : Reachable L w) {before after : List Event} {e : Event}
    (hlog : w.seats.log = before ++ e :: after) : Emitted L w before e := by
  induction h generalizing after with
  | deployed tx capacityBond publisherRegistry vettingPolicy admin h =>
    unfold deploy at h
    split at h
    · cases h
    · split at h
      · cases h
      · rcases Except.ok.inj h with rfl
        simp at hlog
  | @step w w' hreach hstep ih =>
    cases hstep with
    | registry tx c hnow hexec => exact (ih hlog).step (.registry tx c hnow hexec)
    | seats tx c hnow hexec =>
      rcases (exec_move hexec).log with ⟨last, hjustified, happend⟩
      simp only [happend] at hlog
      rcases List.eq_nil_or_concat after with rfl | ⟨rest, last', rfl⟩
      · rcases List.append_inj' hlog rfl with ⟨hbefore, htail⟩
        rcases List.singleton_inj.mp htail with rfl
        rw [hbefore] at happend
        exact ⟨w, tx, c, _, hreach, hbefore, hnow, hexec, happend, hjustified, .refl⟩
      · rw [List.concat_eq_append, ← List.cons_append, ← List.append_assoc] at hlog
        exact (ih (List.append_inj' hlog rfl).1).step (.seats tx c hnow hexec)

/-- A seated operator has an addition in the log, and no event about its seat since. -/
theorem exists_added {log : List Event} {namespaceId : Nat} {operator : Address}
    (h : seatedIn log namespaceId operator = true) :
    ∃ before caller after, log = before ++ .originAdded namespaceId operator caller :: after ∧
      ∀ e ∈ after, ∀ change, e.seatChange ≠ some (change, namespaceId, operator) := by
  induction log using List.reverseRecOn with
  | nil => cases h
  | append_singleton log e ih =>
    rw [seatedIn_concat] at h
    by_cases habout : ∃ change, e.seatChange = some (change, namespaceId, operator)
    · rcases habout with ⟨change, hchange⟩
      rw [replaySeat, hchange] at h
      simp only [and_self, if_true] at h
      subst h
      cases e with
      | originAdded id op caller =>
        simp only [Event.seatChange, Option.some.injEq, Prod.mk.injEq, true_and] at hchange
        rcases hchange with ⟨rfl, rfl⟩
        exact ⟨log, caller, [], rfl, fun e he => absurd he List.not_mem_nil⟩
      | _ => simp [Event.seatChange] at hchange
    · have hkept : replaySeat namespaceId operator (seatedIn log namespaceId operator) e =
          seatedIn log namespaceId operator := by
        unfold replaySeat
        split
        · rename_i change id op hchange
          rw [if_neg]
          rintro ⟨rfl, rfl⟩
          exact habout ⟨change, hchange⟩
        · rfl
      rw [hkept] at h
      rcases ih h with ⟨before, caller, after, rfl, hafter⟩
      refine ⟨before, caller, after ++ [e], by simp, ?_⟩
      intro e' he' change hchange
      rcases List.mem_append.mp he' with he' | he'
      · exact hafter e' he' change hchange
      · rw [List.mem_singleton.mp he'] at hchange
        exact habout ⟨change, hchange⟩

/-! ## Main results -/

/-- In every reachable world the index holds exactly the namespaces with a seat, its pages show
each of them once, each set is duplicate free and within the ceiling of the cap, and only
namespaces that were created, and so not namespace 0, have seats. -/
theorem assigned_exact (h : Reachable L w) :
    (∀ namespaceId, namespaceId ∈ w.seats.assignedNamespaces ↔
      w.seats.origins namespaceId ≠ []) ∧
    (∀ limit k, w.seats.assignedNamespaces.length ≤ k * limit → ∀ namespaceId,
      (pages w.seats.assignedNamespaces limit k).count namespaceId =
        if w.seats.origins namespaceId = [] then 0 else 1) ∧
    (∀ namespaceId, (w.seats.origins namespaceId).Nodup ∧
      (w.seats.origins namespaceId).length ≤ maxOriginsCeiling) ∧
    ∀ namespaceId, w.seats.origins namespaceId ≠ [] →
      0 < namespaceId ∧ namespaceId ≤ w.registry.nextNamespaceId := by
  have hinv := h.inv
  refine ⟨hinv.indexed.mem_assigned, ?_,
    fun id => ⟨hinv.indexed.nodup id, hinv.indexed.length_le id⟩,
    fun id hid => (hinv.registry.created id).mp (hinv.owned id hid)⟩
  intro limit k hreach id
  rw [count_pages hinv.indexed.nodup_assigned hreach]
  by_cases hid : w.seats.origins id = []
  · rw [if_pos hid, if_neg fun hmem => (hinv.indexed.mem_assigned id).mp hmem hid]
  · rw [if_neg hid, if_pos ((hinv.indexed.mem_assigned id).mpr hid)]

/-- In every reachable world each seat was taken by the owner of the namespace at that time, who
was vetted, for an operator that was active then, below the cap of then; the seat was not given
up since.  Every event, also those that ended a seat, was left by a transaction of the run that
passed its checks. -/
theorem seats_justified (h : Reachable L w) :
    (∀ namespaceId, ∀ operator ∈ w.seats.origins namespaceId, ∃ before caller after,
      w.seats.log = before ++ .originAdded namespaceId operator caller :: after ∧
      (∀ e ∈ after, ∀ change, e.seatChange ≠ some (change, namespaceId, operator)) ∧
      Emitted L w before (.originAdded namespaceId operator caller)) ∧
    ∀ before e after, w.seats.log = before ++ e :: after → Emitted L w before e := by
  refine ⟨fun id op hop => ?_, fun before e after hlog => h.emitted hlog⟩
  rcases exists_added ((h.inv.indexed.replayed id op).mp hop) with
    ⟨before, caller, after, hlog, hafter⟩
  exact ⟨before, caller, after, hlog, hafter, h.emitted hlog⟩

open PublisherRegistry in
/-- In every reachable world the counts that the cap is checked against are exact, exactly the
ids handed out have owners, the events tell the owners and the pending transfers, and a
namespace changed hands only when the owner of that time had named the successor, nothing else
had happened to the namespace since, and a time lock of a day or more was over. -/
theorem ownership_by_consent (h : Reachable L w) :
    (∀ account, account ≠ 0 →
      w.registry.namespaceCount account =
        owned w.registry.ownerOf w.registry.nextNamespaceId account) ∧
    (∀ id, w.registry.ownerOf id ≠ 0 ↔ 0 < id ∧ id ≤ w.registry.nextNamespaceId) ∧
    replay w.registry.log = ⟨w.registry.ownerOf, w.registry.pendingTransfer⟩ ∧
    ∀ before now id source target after,
      w.registry.log = before ++ (now, .namespaceTransferred id source target) :: after →
      (replay before).owner id = source ∧ Consented before now id source target := by
  have hinv := h.inv.registry
  exact ⟨hinv.counts, hinv.created, hinv.replayed, fun _ _ _ _ _ _ hlog => hinv.consented hlog⟩

/-! ## A sample run -/

/-- Sets kept by appending. -/
def sampleSets : Sets := ⟨SetOps.ofLists, SetOps.ofLists⟩

/-- A registry transaction. -/
def sampleRegistryTx (sender : Address) (timestamp : Nat)
    (hsender : decide (sender ≠ 0) = true := by exact Eq.refl true) : PublisherRegistry.Tx where
  sender := sender
  sender_ne_zero := ne_zero_of_check hsender
  timestamp := timestamp
  isGovernance := fun _ => false

/-- A transaction of account 5 at time 100: everybody is vetted and active. -/
def sampleTx : Tx where
  sender := 5
  sender_ne_zero := ne_zero_of_check (Eq.refl true)
  timestamp := 100
  isGovernance := fun _ => false
  isVetted := fun _ _ => some true
  isActive := fun _ => true
  codeLength := fun _ => 1

/-- Account 5 creates namespace 1, seats operator 4 in it and hands it to account 7. -/
theorem sample_seated : ∃ w, Reachable sampleSets w ∧ w.seats.origins 1 = [4] ∧
    w.registry.ownerOf 1 = 7 ∧ w.seats.log = [.originAdded 1 4 5] ∧
    w.registry.log =
      [(100, .namespaceCreated 1 5), (200, .namespaceTransferInitiated 1 5 7 605000)] ++
        [(605000, .namespaceTransferred 1 5 7)] := by
  have hdeployed : Reachable sampleSets ⟨100, {}, { vettingPolicy := 3 }⟩ :=
    .deployed sampleTx 1 2 3 9 rfl
  have hrun : (do
      let r₁ ← (PublisherRegistry.exec (sampleRegistryTx 5 100) {} .createNamespace).toOption
      let s ← (exec sampleSets r₁.ownerOf sampleTx { vettingPolicy := 3 } (.addOrigin 1 4)).toOption
      let r₂ ← (PublisherRegistry.exec (sampleRegistryTx 5 200) r₁
        (.initiateNamespaceTransfer 1 7)).toOption
      let r₃ ← (PublisherRegistry.exec (sampleRegistryTx 7 605000) r₂
        (.finalizeNamespaceTransfer 1)).toOption
      return (s.origins 1, r₃.ownerOf 1, s.log, r₃.log)) =
      some ([4], 7, [.originAdded 1 4 5],
        [(100, .namespaceCreated 1 5), (200, .namespaceTransferInitiated 1 5 7 605000)] ++
          [(605000, .namespaceTransferred 1 5 7)]) := by
    decide +kernel
  simp only [Option.bind_eq_bind, Option.bind_eq_some_iff, toOption_eq_some, Option.pure_def,
    Option.some.injEq, Prod.mk.injEq] at hrun
  rcases hrun with ⟨r₁, hcreate, s, hseat, r₂, hinitiate, r₃, hfinalize, hvalues⟩
  have hcreated := hdeployed.step (.registry _ _ (Nat.le_refl _) hcreate)
  have hseated := hcreated.step (.seats _ _ (Nat.le_refl _) hseat)
  have hinitiated := hseated.step (.registry _ _ (Nat.le_of_ble_eq_true rfl) hinitiate)
  have htransferred := hinitiated.step (.registry _ _ (Nat.le_of_ble_eq_true rfl) hfinalize)
  exact ⟨_, htransferred, hvalues⟩

theorem assigned_exact_sample : ∃ w, Reachable sampleSets w ∧ 1 ∈ w.seats.assignedNamespaces := by
  rcases sample_seated with ⟨w, hw, hseats, -⟩
  refine ⟨w, hw, ((assigned_exact hw).1 1).mpr ?_⟩
  rw [hseats]
  exact List.cons_ne_nil _ _

/-- Account 7 owns namespace 1 because account 5 had named it a week before. -/
theorem ownership_by_consent_sample : ∃ w before, Reachable sampleSets w ∧
    w.registry.ownerOf 1 = 7 ∧ PublisherRegistry.Consented before 605000 1 5 7 ∧
    w.registry.log = before ++ [(605000, .namespaceTransferred 1 5 7)] := by
  rcases sample_seated with ⟨w, hw, -, howner, -, hlog⟩
  exact ⟨w, _, hw, howner, ((ownership_by_consent hw).2.2.2 _ _ _ _ _ [] hlog).2, hlog⟩

/-- Operator 4 keeps the seat that account 5 gave it, also under the new owner. -/
theorem seats_justified_sample : ∃ w before caller after, Reachable sampleSets w ∧
    w.registry.ownerOf 1 = 7 ∧ w.seats.log = before ++ .originAdded 1 4 caller :: after ∧
    Emitted sampleSets w before (.originAdded 1 4 caller) := by
  rcases sample_seated with ⟨w, hw, hseats, howner, -⟩
  have hseat : 4 ∈ w.seats.origins 1 := by
    rw [hseats]
    exact List.mem_cons_self
  rcases (seats_justified hw).1 1 4 hseat with ⟨before, caller, after, hlog, -, hemitted⟩
  exact ⟨w, before, caller, after, hw, howner, hlog, hemitted⟩

end Decdn.OriginAssignment
