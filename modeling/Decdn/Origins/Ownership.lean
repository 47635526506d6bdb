import Decdn.Origins.Namespaces
import Decdn.Foundations.FiniteMaps

/-!
# Ownership of namespaces

The owners and the pending transfers are what the events tell of, and every event is true to
the events before it: a transfer happens on the word of the owner, given at least the time
lock's floor before.  The counts that the cap is checked against are exact.

Main definitions:

- Definition `replay`: the owners and the pending transfers that a log tells of.
- Definition `Event.Lawful`: an event that is true to the events before it.

Main results:

- Theorem `Inv.move`: every call keeps the counts exact and the events lawful.
- Theorem `Inv.consented`: every transfer had the consent of the owner of that time.
-/

namespace Decdn.PublisherRegistry

open Finset

variable {tx : Tx} {s s' : State}

/-! ## What a log tells -/

/-- Owners and pending transfers. -/
structure Deeds where
  owner : Nat → Address := fun _ => 0
  transfer : Nat → PendingTransfer := fun _ => {}

/-- What one event tells. -/
def Deeds.apply (d : Deeds) : Event → Deeds
  | .namespaceCreated id owner => { d with owner := Function.update d.owner id owner }
  | .namespaceTransferInitiated id _ target readyAt =>
    { d with transfer := Function.update d.transfer id ⟨target, readyAt⟩ }
  | .namespaceTransferred id _ target =>
    { d with
      owner := Function.update d.owner id target
      transfer := Function.update d.transfer id {} }
  | .namespaceTransferCancelled id _ => { d with transfer := Function.update d.transfer id {} }
  | _ => d

/-- What a log tells. -/
def replay (log : List (Nat × Event)) : Deeds := log.foldl (fun d e => d.apply e.2) {}

@[simp]
theorem replay_concat (log : List (Nat × Event)) (e : Nat × Event) :
    replay (log ++ [e]) = (replay log).apply e.2 := by
  simp [replay]

/-- The namespace an event is about. -/
def Event.subject : Event → Option Nat
  | .namespaceCreated id _ | .namespaceTransferInitiated id _ _ _ | .namespaceTransferred id _ _
  | .namespaceTransferCancelled id _ => some id
  | _ => none

/-- The event at time `now` is true to the events before it. -/
def Event.Lawful (before : List (Nat × Event)) (now : Nat) : Event → Prop
  | .namespaceCreated id owner => (replay before).owner id = 0 ∧ owner ≠ 0
  | .namespaceTransferInitiated id source target readyAt =>
    (replay before).owner id = source ∧ source ≠ 0 ∧ target ≠ 0 ∧
      now + transferTimelockFloor ≤ readyAt
  | .namespaceTransferred id source target =>
    (replay before).owner id = source ∧ source ≠ 0 ∧ target ≠ 0 ∧
      ∃ readyAt ≤ now, (replay before).transfer id = ⟨target, readyAt⟩
  | .namespaceTransferCancelled id owner => (replay before).owner id = owner ∧ owner ≠ 0
  | _ => True

/-- An event about another namespace tells nothing of this one. -/
theorem Deeds.apply_of_ne (d : Deeds) {e : Event} {id : Nat} (h : e.subject ≠ some id) :
    (d.apply e).owner id = d.owner id ∧ (d.apply e).transfer id = d.transfer id := by
  cases e with
  | maxNamespacesPerPublisherUpdated | namespaceTransferTimelockUpdated => exact ⟨rfl, rfl⟩
  | _ =>
    have hne : id ≠ _ := fun heq => h (congrArg some heq.symm)
    simp [Deeds.apply, Function.update_of_ne hne]

/-- A pending transfer was asked for by the owner, and no event since is about the namespace. -/
theorem initiated_of_pending {log : List (Nat × Event)} {id readyAt : Nat} {target : Address}
    (hlawful : ∀ before e after, log = before ++ e :: after → e.2.Lawful before e.1)
    (htarget : target ≠ 0) (h : (replay log).transfer id = ⟨target, readyAt⟩) :
    ∃ before start after,
      log = before ++ (start, .namespaceTransferInitiated id ((replay log).owner id) target readyAt)
        :: after ∧
      (∀ e ∈ after, e.2.subject ≠ some id) ∧ start + transferTimelockFloor ≤ readyAt := by
  induction log using List.reverseRecOn with
  | nil =>
    exact absurd (congrArg PendingTransfer.newOwner h).symm htarget
  | append_singleton log e ih =>
    have hlog : ∀ before e' after, log = before ++ e' :: after → e'.2.Lawful before e'.1 := by
      intro before e' after heq
      exact hlawful before e' (after ++ [e]) (by rw [heq, List.append_assoc, List.cons_append])
    have hlast := hlawful log e [] rfl
    rw [replay_concat] at h ⊢
    by_cases hsubject : e.2.subject = some id
    · -- The last event is about the namespace: only a request leaves a transfer pending.
      rcases e with ⟨start, e⟩
      cases e with
      | namespaceCreated id' owner =>
        rcases Option.some.inj hsubject with rfl
        rcases ih hlog h with ⟨before, start', after, heq, -, -⟩
        exact absurd hlast.1 (hlog _ _ _ heq).2.1
      | namespaceTransferInitiated id' source target' readyAt' =>
        rcases Option.some.inj hsubject with rfl
        simp only [Deeds.apply, Function.update_self, PendingTransfer.mk.injEq] at h
        rcases h with ⟨rfl, rfl⟩
        refine ⟨log, start, [], ?_, fun e he => absurd he List.not_mem_nil, hlast.2.2.2⟩
        rw [show ((replay log).apply
          (.namespaceTransferInitiated id' source target' readyAt')).owner id' = source
          from hlast.1]
      | namespaceTransferred id' source target' =>
        rcases Option.some.inj hsubject with rfl
        simp only [Deeds.apply, Function.update_self, PendingTransfer.mk.injEq] at h
        exact absurd h.1.symm htarget
      | namespaceTransferCancelled id' owner =>
        rcases Option.some.inj hsubject with rfl
        simp only [Deeds.apply, Function.update_self, PendingTransfer.mk.injEq] at h
        exact absurd h.1.symm htarget
      | maxNamespacesPerPublisherUpdated | namespaceTransferTimelockUpdated => cases hsubject
    · have hkept := (replay log).apply_of_ne hsubject
      rw [hkept.2] at h
      rcases ih hlog h with ⟨before, start, after, heq, hafter, hfloor⟩
      refine ⟨before, start, after ++ [e], ?_, ?_, hfloor⟩
      · rw [hkept.1, heq, List.append_assoc, List.cons_append, ← heq]
      · intro e' he'
        rcases List.mem_append.mp he' with he' | he'
        · exact hafter e' he'
        · rw [List.mem_singleton.mp he']
          exact hsubject

/-! ## The invariant -/

/-- How many of the ids up to `n` an account owns. -/
def owned (owners : Nat → Address) (n : Nat) (account : Address) : Nat :=
  ∑ id ∈ range (n + 1), if owners id = account then 1 else 0

/-- The counts are exact and the log tells the truth. -/
structure Inv (s : State) : Prop where
  created : ∀ id, s.ownerOf id ≠ 0 ↔ 0 < id ∧ id ≤ s.nextNamespaceId
  counts : ∀ account, account ≠ 0 →
    s.namespaceCount account = owned s.ownerOf s.nextNamespaceId account
  pending : ∀ id, (s.pendingTransfer id).newOwner ≠ 0 → s.ownerOf id ≠ 0
  timelock : transferTimelockFloor ≤ s.namespaceTransferTimelock
  replayed : replay s.log = ⟨s.ownerOf, s.pendingTransfer⟩
  lawful : ∀ before e after, s.log = before ++ e :: after → e.2.Lawful before e.1

/-- One more lawful event at the end of a log. -/
theorem lawful_concat {log : List (Nat × Event)} {now : Nat} {e : Event}
    (h : ∀ before e after, log = before ++ e :: after → e.2.Lawful before e.1)
    (hlast : e.Lawful log now) :
    ∀ before e' after, log ++ [(now, e)] = before ++ e' :: after → e'.2.Lawful before e'.1 := by
  intro before e' after heq
  rcases List.eq_nil_or_concat after with rfl | ⟨rest, last, rfl⟩
  · rcases List.append_inj' heq rfl with ⟨rfl, htail⟩
    rcases List.singleton_inj.mp htail with rfl
    exact hlast
  · rw [List.concat_eq_append, ← List.cons_append, ← List.append_assoc] at heq
    rcases List.append_inj' heq rfl with ⟨rfl, -⟩
    exact h before e' rest rfl

/-- A new owner of one namespace. -/
theorem owned_update (owners : Nat → Address) {n id : Nat} (hid : id ≤ n)
    (target account : Address) :
    owned (Function.update owners id target) n account +
        (if owners id = account then 1 else 0) =
      owned owners n account + (if target = account then 1 else 0) := by
  have hchange := sum_change_on (f := fun i => if owners i = account then 1 else 0)
    (g := fun i => if Function.update owners id target i = account then 1 else 0)
    (mem_range.mpr (Nat.lt_succ_of_le hid))
    (fun i _ hi => by rw [Function.update_of_ne hi])
  simp only [Function.update_self] at hchange
  exact hchange

/-- The next namespace gets its owner. -/
theorem owned_succ {owners : Nat → Address} {n : Nat} (target account : Address) :
    owned (Function.update owners (n + 1) target) (n + 1) account =
      owned owners n account + (if target = account then 1 else 0) := by
  have hold : ∀ i ∈ range (n + 1),
      (if Function.update owners (n + 1) target i = account then 1 else 0) =
        if owners i = account then 1 else 0 := by
    intro i hi
    rw [Function.update_of_ne (Nat.ne_of_lt (mem_range.mp hi))]
  have hlast : (if Function.update owners (n + 1) target (n + 1) = account then 1 else 0) =
      if target = account then 1 else 0 := by
    rw [Function.update_self]
  unfold owned
  rw [sum_range_succ, sum_congr rfl hold, hlast]

/-- The freshly deployed contract. -/
theorem Inv.deployed : Inv {} where
  created := by
    intro id
    simp only [ne_eq, not_true, false_iff]
    omega
  counts := by
    intro account haccount
    unfold owned
    rw [sum_eq_zero fun id _ => if_neg (Ne.symm haccount)]
  pending := fun id h => absurd rfl h
  timelock := by decide
  replayed := rfl
  lawful := by
    intro before e after h
    simp at h

/-- The counts after one namespace moves. -/
theorem moveCount_eq {counts : Address → Nat} {source : Address} (hpositive : 0 < counts source)
    (target account : Address) :
    moveCount counts source target account + (if source = account then 1 else 0) =
      counts account + (if target = account then 1 else 0) := by
  unfold moveCount
  by_cases htarget : target = account
  · subst htarget
    rw [Function.update_self, if_pos rfl]
    by_cases hsource : source = target
    · subst hsource
      rw [Function.update_self, if_pos rfl]
      omega
    · rw [Function.update_of_ne (Ne.symm hsource), if_neg hsource]
  · rw [Function.update_of_ne (Ne.symm htarget), if_neg htarget]
    by_cases hsource : source = account
    · subst hsource
      rw [Function.update_self, if_pos rfl]
      omega
    · rw [Function.update_of_ne (Ne.symm hsource), if_neg hsource]

/-- Every call keeps the invariant. -/
theorem Inv.move (hinv : Inv s) (h : Move tx s s') : Inv s' := by
  have hsender := tx.sender_ne_zero
  cases h with
  | created hcap hfits =>
    have hfresh : s.ownerOf (s.nextNamespaceId + 1) = 0 := by
      by_contra hne
      have := (hinv.created _).mp hne
      omega
    refine ⟨?_, ?_, ?_, hinv.timelock, ?_, lawful_concat hinv.lawful ⟨?_, hsender⟩⟩
    · intro id
      simp only [State.emit]
      by_cases hid : id = s.nextNamespaceId + 1
      · subst hid
        rw [Function.update_self]
        exact ⟨fun _ => ⟨Nat.succ_pos _, Nat.le_refl _⟩, fun _ => hsender⟩
      · rw [Function.update_of_ne hid, hinv.created]
        omega
    · intro account haccount
      have hold := hinv.counts account haccount
      simp only [State.emit]
      rw [owned_succ, ← hold]
      by_cases heq : tx.sender = account
      · subst heq
        rw [Function.update_self, if_pos rfl]
      · rw [Function.update_of_ne (Ne.symm heq), if_neg heq, Nat.add_zero]
    · intro id hid
      simp only [State.emit] at hid ⊢
      by_cases heq : id = s.nextNamespaceId + 1
      · subst heq
        rw [Function.update_self]
        exact hsender
      · rw [Function.update_of_ne heq]
        exact hinv.pending id hid
    · simp [State.emit, hinv.replayed, Deeds.apply]
    · rw [hinv.replayed]
      exact hfresh
  | @initiated namespaceId newOwner howner htarget =>
    refine ⟨hinv.created, hinv.counts, ?_, hinv.timelock, ?_,
      lawful_concat hinv.lawful ⟨?_, hsender, htarget, ?_⟩⟩
    · intro id hid
      simp only [State.emit] at hid ⊢
      by_cases heq : id = namespaceId
      · subst heq
        rw [howner]
        exact hsender
      · rw [Function.update_of_ne heq] at hid
        exact hinv.pending id hid
    · simp [State.emit, hinv.replayed, Deeds.apply]
    · rw [hinv.replayed]
      exact howner
    · exact Nat.add_le_add_left hinv.timelock _
  | @transferred namespaceId readyAt hpending hready hpositive hcap =>
    have howned : s.ownerOf namespaceId ≠ 0 := by
      apply hinv.pending
      rw [hpending]
      exact hsender
    have hid := (hinv.created _).mp howned
    refine ⟨?_, ?_, ?_, hinv.timelock, ?_,
      lawful_concat hinv.lawful ⟨?_, howned, hsender, readyAt, hready, ?_⟩⟩
    · intro id
      simp only [State.emit]
      by_cases heq : id = namespaceId
      · subst heq
        rw [Function.update_self]
        exact ⟨fun _ => hid, fun _ => hsender⟩
      · rw [Function.update_of_ne heq, hinv.created]
    · intro account haccount
      have hold := hinv.counts account haccount
      have hcount := moveCount_eq hpositive tx.sender account
      have hsum := owned_update s.ownerOf hid.2 tx.sender account
      simp only [State.emit]
      omega
    · intro id hpend
      simp only [State.emit] at hpend ⊢
      by_cases heq : id = namespaceId
      · subst heq
        rw [Function.update_self]
        exact hsender
      · rw [Function.update_of_ne heq] at hpend ⊢
        exact hinv.pending id hpend
    · simp [State.emit, hinv.replayed, Deeds.apply]
    · rw [hinv.replayed]
    · rw [hinv.replayed]
      exact hpending
  | @cancelled namespaceId howner =>
    refine ⟨hinv.created, hinv.counts, ?_, hinv.timelock, ?_,
      lawful_concat hinv.lawful ⟨?_, hsender⟩⟩
    · intro id hid
      simp only [State.emit] at hid ⊢
      by_cases heq : id = namespaceId
      · subst heq
        rw [howner]
        exact hsender
      · rw [Function.update_of_ne heq] at hid
        exact hinv.pending id hid
    · simp [State.emit, hinv.replayed, Deeds.apply]
    · rw [hinv.replayed]
      exact howner
  | setMax hceiling =>
    exact ⟨hinv.created, hinv.counts, hinv.pending, hinv.timelock,
      by simp [State.emit, hinv.replayed, Deeds.apply], lawful_concat hinv.lawful trivial⟩
  | setTimelock hfloor =>
    exact ⟨hinv.created, hinv.counts, hinv.pending, hfloor,
      by simp [State.emit, hinv.replayed, Deeds.apply], lawful_concat hinv.lawful trivial⟩

/-- Ids are handed out once and never taken back. -/
theorem Move.nextNamespaceId_le (h : Move tx s s') : s.nextNamespaceId ≤ s'.nextNamespaceId := by
  cases h with
  | created hcap hfits => exact Nat.le_succ _
  | initiated howner htarget => exact Nat.le_refl _
  | transferred hpending hready hpositive hcap => exact Nat.le_refl _
  | cancelled howner => exact Nat.le_refl _
  | setMax hceiling => exact Nat.le_refl _
  | setTimelock hfloor => exact Nat.le_refl _

/-- The owner named its successor, and the time lock ran from then on. -/
def Consented (before : List (Nat × Event)) (now id : Nat) (source target : Address) : Prop :=
  ∃ earlier start between readyAt,
    before = earlier ++ (start, .namespaceTransferInitiated id source target readyAt) :: between ∧
    (∀ e ∈ between, e.2.subject ≠ some id) ∧
    start + transferTimelockFloor ≤ readyAt ∧ readyAt ≤ now

/-- Every transfer in the log had the consent of the owner of that time. -/
theorem Inv.consented (hinv : Inv s) {before after : List (Nat × Event)} {now id : Nat}
    {source target : Address}
    (hlog : s.log = before ++ (now, .namespaceTransferred id source target) :: after) :
    (replay before).owner id = source ∧ Consented before now id source target := by
  rcases hinv.lawful _ _ _ hlog with ⟨hsource, -, htarget, readyAt, hready, hpending⟩
  have hbefore : ∀ earlier e rest, before = earlier ++ e :: rest → e.2.Lawful earlier e.1 := by
    intro earlier e rest heq
    refine hinv.lawful earlier e (rest ++ (now, .namespaceTransferred id source target) :: after) ?_
    rw [hlog, heq, List.append_assoc, List.cons_append]
  rcases initiated_of_pending hbefore htarget hpending with
    ⟨earlier, start, between, hsplit, hbetween, hfloor⟩
  rw [hsource] at hsplit
  exact ⟨hsource, earlier, start, between, readyAt, hsplit, hbetween, hfloor, hready⟩

end Decdn.PublisherRegistry
