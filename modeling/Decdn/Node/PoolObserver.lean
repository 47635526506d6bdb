import Decdn.Foundations.Runs
import Decdn.Node.PoolReplay

/-!
# The pool view tracks the chain

An observer folds the logs of a history from a start position, re-delivers any
suffix it has folded, seeds absent pools from `getPool` reads at any block, and
anchors seeded pools at reads at any block.  The steps interleave freely, also in
the middle of a replay.

Main results:

- Theorem `Reaches.follows`: every pool is followed in every reachable state.
- Theorem `Reaches.steady`: along steady runs the deposit and the lanes of a pool are
  at the folded frontier, also in the middle of a replay.
- Theorem `projection_tracks`: a pool folded from its opening equals the chain, a
  seeded pool never understates what is left, and replaying a folded suffix changes
  nothing.
-/

namespace Decdn.Node.PoolView

open PaymentPool (LaneSettled Event Pool)
open Finset

/-! ## The observer -/

/-- The watcher's sink and the admit path, around one projection.  `entered` and
`seededAt` only keep a record: where a read last brought a pool in or took it out,
and the block of the read that seeded it. -/
structure Observer where
  projection : PoolProjection
  /-- The first log the watcher scans. -/
  start : Nat
  /-- How many logs of the history have been folded. -/
  position : Nat
  /-- The next log to deliver; below `position` during a replay. -/
  cursor : Nat
  /-- The cursor when a read last brought the pool in or took it out; `start` for a
  pool that a log brought in or took out. -/
  entered : Bytes32 → Nat
  seededAt : Bytes32 → Nat

/-- What can happen to the projection. -/
inductive Action where
  | fold
  | rewind (k : Nat)
  | resolve (q : Bytes32) (block : Nat)
  | reanchor (block : Nat) (batch : List Bytes32)

namespace Observer

/-- An observer that starts at log `start` with an empty projection. -/
def begin (start : Nat) : Observer where
  projection _ := none
  start := start
  position := start
  cursor := start
  entered _ := start
  seededAt _ := 0

variable (H : History) (s : Observer)

/-- Deliver one log. -/
def fold (l : Log) : Observer :=
  let projection := handleLog s.projection (some l.block) l.event
  { s with
    projection := projection
    position := max s.position (s.cursor + 1)
    cursor := s.cursor + 1
    entered := fun q =>
      if (projection q).isSome = (s.projection q).isSome then s.entered q else s.start }

/-- `resolve`: the admit path's `getPool`, answered from the chain at `block`. -/
def resolve (q : Bytes32) (block : Nat) : Observer :=
  match H.readAt q block with
  | none => s
  | some (owner, read) =>
    if (s.projection q).isSome then s
    else
      { s with
        projection := recordResolved s.projection owner read
        entered := Function.update s.entered q s.cursor
        seededAt := Function.update s.seededAt q block }

/-- `reanchor_pools`: anchor the batch at reads pinned at `block`, and forget the
pools those reads find closed. -/
def reanchorPools (block : Nat) (batch : List Bytes32) : Observer :=
  let reads := batch.filterMap fun q => (H.readAt q block).map Prod.snd
  let closed := batch.filter fun q => H.closedAt q block
  { s with
    projection := closed.foldl forget (reanchor s.projection block reads).1
    entered := fun q => if q ∈ closed then s.cursor else s.entered q }

/-- One action, if it is enabled. -/
def apply : Action → Option Observer
  | .fold => (H.logs[s.cursor]?).map s.fold
  | .rewind k => if s.start ≤ k ∧ k ≤ s.cursor then some { s with cursor := k } else none
  | .resolve q block => some (s.resolve H q block)
  | .reanchor block batch => some (s.reanchorPools H block batch)

/-- One step of the observer. -/
def Step (s : Observer) (a : Action) (t : Observer) : Prop :=
  s.apply H a = some t

/-- No read that seeds `q` is behind a top-up the observer has already passed. -/
def Timely (q : Bytes32) (s : Observer) : Action → Prop
  | .resolve p block => p = q → s.projection q = none → (H.readAt q block).isSome →
    H.deposit q s.position ≤ H.deposit q (H.upTo block)
  | _ => True

/-- A timely step after which nothing of `q` has to be delivered again that a later log has
superseded: at most one log of the suffix moves its deposit, and its opening is not in the suffix
while the pool is absent. -/
def Steady (q : Bytes32) (s : Observer) : Action → Prop
  | .fold => True
  | .rewind k =>
    (∀ i, k ≤ i → i < s.position → H.deposit q (i + 1) = H.deposit q k ∨
      H.deposit q (i + 1) = H.deposit q s.position) ∧
    (s.projection q = none → (H.account q k).pool.owner = (H.account q s.position).pool.owner)
  | .resolve p block => Timely H q s (.resolve p block)
  | .reanchor block batch => q ∈ batch → H.closedAt q block = true →
    (H.account q s.cursor).pool.owner = (H.account q s.position).pool.owner

theorem Steady.timely {H : History} {q : Bytes32} {s : Observer} {a : Action}
    (h : Steady H q s a) : Timely H q s a := by
  cases a with
  | resolve p block => exact h
  | _ => trivial

end Observer

/-! ## One step -/

variable {H : History} {q : Bytes32} {s t : Observer}

/-- What every reachable state keeps for one pool. -/
structure ObserverInv (H : History) (q : Bytes32) (s : Observer) : Prop where
  ordered : s.cursor ≤ s.position
  follows : Follows H q s.position s.cursor (s.entered q) (s.seededAt q) (s.projection q)
  opened : ∀ e, s.projection q = some e → e.snapshot = none → s.entered q = s.start

/-- A log never removes a snapshot from an entry. -/
theorem entryStep_opened {block : Nat} {e e' : PoolEntry} {event : Event}
    (h : entryStep (some block) (some e) event = some e') (hs : e'.snapshot = none) :
    e.snapshot = none := by
  cases event with
  | poolOpened id owner deposit =>
    cases h
    exact hs
  | poolToppedUp id additional newDeposit =>
    cases h
    rw [(topUp_frame e _ block).2.2.2.2.2, Option.map_eq_none_iff] at hs
    exact hs
  | poolRedeemed id provider lanes =>
    cases h
    exact (redeem_quiet provider lanes block e).opened hs
  | poolCloseInitiated id owner deadline =>
    cases h
    exact hs
  | poolReclaimed id owner refund => cases h
  | disputeWindowUpdated old new =>
    cases h
    exact hs
  | rateBoundsUpdated new =>
    cases h
    exact hs
  | minDepositUpdated old new =>
    cases h
    exact hs

/-- A log neither removes a snapshot nor creates an entry with one. -/
theorem handleLog_opened {pools : PoolProjection} {block : Nat} {event : Event} {e' : PoolEntry}
    (h : handleLog pools (some block) event q = some e') (hs : e'.snapshot = none) :
    ∀ e, pools q = some e → e.snapshot = none := by
  intro e he
  by_cases hq : eventPool event = some q
  · rw [handleLog_own pools hq, he] at h
    exact entryStep_opened h hs
  · rw [handleLog_other pools hq, he] at h
    cases h
    exact hs

/-- Delivering a log keeps the invariant. -/
theorem ObserverInv.fold (h : ObserverInv H q s) {l : Log} (hl : H.logs[s.cursor]? = some l) :
    ObserverInv H q (s.fold l) := by
  refine ⟨le_max_right _ _, ?_, ?_⟩
  · refine h.follows.fold h.ordered hl ?_
    intro hsame
    exact if_pos hsame
  · intro e' he' hs
    have he'' : handleLog s.projection (some l.block) l.event q = some e' := he'
    cases hold : s.projection q with
    | none => simp [Observer.fold, he'', hold]
    | some e =>
      have hkeep := h.opened e hold (handleLog_opened he'' hs e hold)
      simpa [Observer.fold, he'', hold] using hkeep

/-- Starting a replay keeps the invariant. -/
theorem ObserverInv.rewind (h : ObserverInv H q s) {k : Nat} (hk : k ≤ s.cursor) :
    ObserverInv H q { s with cursor := k } :=
  ⟨Nat.le_trans hk h.ordered, h.follows.rewind hk h.ordered, h.opened⟩

/-- An admit-path read keeps the invariant. -/
theorem ObserverInv.resolve (h : ObserverInv H q s) (p : Bytes32) (block : Nat) :
    ObserverInv H q (s.resolve H p block) := by
  unfold Observer.resolve
  cases hread : H.readAt p block with
  | none => exact h
  | some result =>
    rcases result with ⟨owner, read⟩
    simp only
    split
    · exact h
    · rename_i habsent
      have hnone : s.projection p = none := by simpa using habsent
      have hid : read.poolId = p := (History.readAt_eq_some hread).1
      by_cases hp : q = p
      · subst hp
        refine ⟨h.ordered, ?_, ?_⟩
        · simp only [recordResolved, hid, hnone, Function.update_self]
          exact Tracked.of_read hread
        · intro e he hs
          simp only [recordResolved, hid, hnone, Function.update_self] at he
          cases he
          cases hs
      · refine ⟨h.ordered, ?_, ?_⟩
        · simp only [recordResolved, hid, hnone, Function.update_of_ne hp]
          exact h.follows
        · simp only [recordResolved, hid, hnone, Function.update_of_ne hp]
          exact h.opened

/-- A property of one pool's entry that every accepted read keeps survives a whole
re-anchor. -/
theorem reanchor_keeps {P : Option PoolEntry → Prop} {pools : PoolProjection} (block : Nat)
    (batch : List Bytes32) (h : P (pools q))
    (hstep : ∀ owner read e snapshot, H.readAt q block = some (owner, read) →
      e.snapshot = some snapshot → e.staleReason snapshot block read = none → P (some e) →
      P (some (e.anchored snapshot block read))) :
    P ((reanchor pools block
      (batch.filterMap fun p => (H.readAt p block).map Prod.snd)).1 q) := by
  unfold reanchor
  generalize ({} : ReanchorReport) = report
  induction batch generalizing pools report with
  | nil => exact h
  | cons p batch ih =>
    rw [List.filterMap_cons]
    cases hread : H.readAt p block with
    | none => exact ih h report
    | some result =>
      rcases result with ⟨owner, read⟩
      have hid : read.poolId = p := (History.readAt_eq_some hread).1
      simp only [Option.map_some, List.foldl_cons]
      have hnext : P ((reanchorRead block (pools, report) read).1 q) := by
        unfold reanchorRead
        split
        · exact h
        · rename_i e he
          split
          · exact h
          · rename_i snapshot hs
            split
            · exact h
            · rename_i hfresh
              by_cases hp : q = p
              · subst hp
                rw [hid] at he
                simp only [hid, Function.update_self]
                have he' : pools q = some e := he
                exact hstep owner read e snapshot hread hs hfresh (he' ▸ h)
              · have hne : q ≠ read.poolId := fun heq => hp (heq.trans hid)
                simp only [Function.update_of_ne hne]
                exact h
      exact ih hnext _

/-- Forgetting a list of pools. -/
theorem forget_all (closed : List Bytes32) (pools : PoolProjection) :
    closed.foldl forget pools q = if q ∈ closed then none else pools q := by
  induction closed generalizing pools with
  | nil => simp
  | cons p closed ih =>
    rw [List.foldl_cons, ih]
    by_cases hp : q = p
    · subst hp
      simp [forget]
    · simp [forget, hp]

/-- Re-anchoring keeps the invariant. -/
theorem ObserverInv.reanchor (h : ObserverInv H q s) (block : Nat) (batch : List Bytes32) :
    ObserverInv H q (s.reanchorPools H block batch) := by
  have hfollows := reanchor_keeps block batch
    (P := Follows H q s.position s.cursor (s.entered q) (s.seededAt q)) h.follows
    (fun owner read e snapshot hread hs hfresh htracked => Tracked.anchor htracked hread hs hfresh)
  have hopened := reanchor_keeps (H := H) (q := q) block batch
    (P := fun o => ∀ e, o = some e → e.snapshot = none → s.entered q = s.start) h.opened
    (fun owner read e snapshot _ _ _ _ e' he' hs' => by
      cases he'
      cases hs')
  refine ⟨h.ordered, ?_, ?_⟩
  · simp only [Observer.reanchorPools, forget_all]
    split
    · exact fun hzero hne => absurd hzero hne
    · exact hfollows
  · simp only [Observer.reanchorPools, forget_all]
    split
    · exact fun e he => nomatch he
    · exact hopened

/-- One step keeps the invariant. -/
theorem ObserverInv.step (h : ObserverInv H q s) {a : Action} (hstep : Observer.Step H s a t) :
    ObserverInv H q t := by
  unfold Observer.Step Observer.apply at hstep
  cases a with
  | fold =>
    rcases Option.map_eq_some_iff.mp hstep with ⟨l, hl, rfl⟩
    exact h.fold hl
  | rewind k =>
    simp only at hstep
    split at hstep
    · rename_i hk
      cases hstep
      exact h.rewind hk.2
    · cases hstep
  | resolve p block =>
    cases hstep
    exact h.resolve p block
  | reanchor block batch =>
    cases hstep
    exact h.reanchor block batch

/-- An empty projection follows every pool. -/
theorem observerInv_begin (H : History) (q : Bytes32) (start : Nat) :
    ObserverInv H q (Observer.begin start) :=
  ⟨Nat.le_refl _, fun hzero hne => absurd hzero hne, fun _ he => nomatch he⟩

/-! ## Funding along timely runs -/

/-- The entry of a pool, if any, is funded. -/
def FundedAt (H : History) (q : Bytes32) (s : Observer) : Prop :=
  ∀ e, s.projection q = some e → Funded H q s.position s.cursor (s.seededAt q) e

/-- One timely step keeps the pool funded. -/
theorem FundedAt.step (h : FundedAt H q s) (hinv : ObserverInv H q s) {a : Action}
    (htimely : Observer.Timely H q s a) (hstep : Observer.Step H s a t) : FundedAt H q t := by
  unfold Observer.Step Observer.apply at hstep
  cases a with
  | fold =>
    rcases Option.map_eq_some_iff.mp hstep with ⟨l, hl, rfl⟩
    exact Funded.fold h hinv.follows hinv.ordered hl
  | rewind k =>
    simp only at hstep
    split at hstep
    · rename_i hk
      cases hstep
      exact fun e he => (h e he).rewind hk.2 hinv.ordered
    · cases hstep
  | resolve p block =>
    cases hstep
    unfold Observer.resolve
    cases hread : H.readAt p block with
    | none => exact h
    | some result =>
      rcases result with ⟨owner, read⟩
      simp only
      split
      · exact h
      · rename_i habsent
        have hnone : s.projection p = none := by simpa using habsent
        rcases History.readAt_eq_some hread with ⟨hid, -, -, hdeposit, -, -⟩
        by_cases hp : q = p
        · subst hp
          have hfull := htimely rfl hnone (by rw [hread]; rfl)
          intro e he
          simp only [recordResolved, hid, hnone, Function.update_self] at he ⊢
          cases he
          refine ⟨?_, ?_, ?_, ?_⟩
          · intro snapshot _ _
            rw [History.deposit_max, max_eq_right hfull]
            exact hdeposit
          · intro snapshot a hs ha
            cases hs
            cases ha
          · intro snapshot a hs ha
            cases hs
            cases ha
          · intro snapshot a hs ha
            cases hs
            cases ha
        · unfold FundedAt
          simp only [recordResolved, hid, hnone, Function.update_of_ne hp]
          exact h
  | reanchor block batch =>
    cases hstep
    have hkept := reanchor_keeps (H := H) (q := q) block batch
      (P := fun o => ∀ e, o = some e → Funded H q s.position s.cursor (s.seededAt q) e) h
      (fun owner read e snapshot hread hs hfresh hold e' he' => by
        cases he'
        exact (hold e rfl).anchor hread hs hfresh)
    unfold FundedAt
    simp only [Observer.reanchorPools, forget_all]
    split
    · exact fun e he => nomatch he
    · exact hkept

/-! ## Steady runs -/

/-- The deposit of an entry, and the lanes of one folded from its opening, are at the folded
frontier `n`. -/
structure Held (H : History) (q : Bytes32) (n : Nat) (e : PoolEntry) : Prop where
  opened : e.snapshot = none → e.deposit = H.deposit q n ∧
    ∀ signer provider, (H.account q n).paid signer provider ≤ e.laneTotal signer provider
  anchored : ∀ snapshot a, e.snapshot = some snapshot → snapshot.anchor = some a →
    e.deposit = H.deposit q (max n (H.upTo a))

/-- What an observer keeps for one pool as long as its steps are steady. -/
structure SteadyInv (H : History) (q : Bytes32) (s : Observer) : Prop where
  ahead : ∀ i, s.cursor ≤ i → i < s.position → H.deposit q (i + 1) = H.deposit q s.cursor ∨
    H.deposit q (i + 1) = H.deposit q s.position
  absent : s.projection q = none →
    (H.account q s.cursor).pool.owner = (H.account q s.position).pool.owner
  held : ∀ e, s.projection q = some e → Held H q s.position e

/-- With no replay half done, following the pool is enough. -/
theorem SteadyInv.of_caught (hinv : ObserverInv H q s) (hfunded : FundedAt H q s)
    (hcaught : s.cursor = s.position) : SteadyInv H q s := by
  refine ⟨fun i hlow hhigh => by omega, fun _ => by rw [hcaught], fun e he => ?_⟩
  have hfollows := hinv.follows
  rw [he, hcaught] at hfollows
  have htracked : Tracked H q _ _ _ _ e := hfollows
  have hfull := hfunded e he
  rw [hcaught] at hfull
  refine ⟨fun hs => ⟨htracked.deposits.opened hs rfl, htracked.counts.opened hs⟩, ?_⟩
  intro snapshot a hs ha
  exact hfull.anchored snapshot a hs ha rfl

/-- The owner between two records that agree on it. -/
theorem owner_between {i k n : Nat} (hik : i ≤ k) (hkn : k ≤ n)
    (h : (H.account q i).pool.owner = (H.account q n).pool.owner) :
    (H.account q k).pool.owner = (H.account q n).pool.owner := by
  by_cases hk : (H.account q k).pool.owner = 0
  · by_contra hne
    have hi : (H.account q i).pool.owner ≠ 0 := by
      rw [h]
      exact fun hzero => hne (hk.trans hzero.symm)
    exact hi (((History.later hik).owner hi).symm.trans hk)
  · exact ((History.later hkn).owner hk).symm

/-- A log that is delivered again leaves the entry of its pool at the frontier, unless a later
log has superseded its deposit. -/
theorem Held.again {j n : Nat} {l : Log} {e e' : PoolEntry} (h : Held H q n e) (hjn : j < n)
    (hl : H.logs[j]? = some l) (hq : eventPool l.event = some q)
    (hlast : H.deposit q (j + 1) = H.deposit q j ∨ H.deposit q (j + 1) = H.deposit q n)
    (hstep : entryStep (some l.block) (some e) l.event = some e') : Held H q n e' := by
  have hadmits := H.admitted j q l hl hq
  have hafter := History.account_own hl hq
  cases hevent : l.event with
  | poolOpened id owner deposit =>
    rw [hevent] at hadmits hafter hstep
    rcases Option.some.inj hstep with rfl
    rcases hadmits with ⟨hzero, -, hpos, hmax⟩
    have hnew : H.deposit q (j + 1) = deposit := by
      unfold History.deposit
      rw [hafter]
      rfl
    have hold : H.deposit q j = 0 := by
      unfold History.deposit
      rw [(History.sound j).blank hzero]
    refine ⟨fun hs => ⟨?_, (h.opened hs).2⟩, fun snapshot a hs ha => ?_⟩
    · have hs' : e.snapshot = none := hs
      change (if e.snapshot.isNone then U64.ofNatSaturating deposit else e.deposit) = _
      rw [hs', Option.isNone_none, if_pos rfl, U64.ofNatSaturating_eq hmax]
      omega
    · have hs' : e.snapshot = some snapshot := hs
      change (if e.snapshot.isNone then U64.ofNatSaturating deposit else e.deposit) = _
      rw [hs', Option.isNone_some, if_neg Bool.false_ne_true]
      exact h.anchored snapshot a hs' ha
  | poolToppedUp id additional newDeposit =>
    rw [hevent] at hstep hq
    cases hq
    change some (e.topUp (U64.ofNatSaturating newDeposit) (some l.block)) = some e' at hstep
    rcases Option.some.inj hstep with rfl
    rcases topUp_log hl hevent with ⟨hnew, hrise, -⟩
    rcases topUp_frame e (U64.ofNatSaturating newDeposit) l.block with ⟨-, hlanes, -, -, -, hsnap⟩
    refine ⟨fun hs => ?_, fun snapshot' a hs ha => ?_⟩
    · rw [hsnap, Option.map_eq_none_iff] at hs
      refine ⟨(topUp_deposit_opened _ hs).trans (by omega), ?_⟩
      unfold PoolEntry.laneTotal
      rw [hlanes]
      exact (h.opened hs).2
    · rw [hsnap, Option.map_eq_some_iff] at hs
      rcases hs with ⟨snapshot, hs, rfl⟩
      have ha' : snapshot.anchor = some a := ha
      rw [topUp_deposit_anchored _ hs ha']
      split
      · exact h.anchored snapshot a hs ha'
      · rename_i habove
        have hle : H.upTo a ≤ j :=
          Nat.le_of_not_lt fun hlt => habove ((History.lt_upTo_iff hl).mp hlt)
        rw [hnew, max_eq_left (by omega)]
        omega
  | poolRedeemed id provider lanes =>
    rw [hevent] at hstep
    cases hstep
    have hquiet := redeem_quiet provider lanes l.block e
    refine ⟨fun hs => ?_, fun snapshot' a hs ha => ?_⟩
    · rcases h.opened (hquiet.opened hs) with ⟨hdeposit, hlanes⟩
      exact ⟨hquiet.deposit.trans hdeposit,
        fun signer p => Nat.le_trans (hlanes signer p) (hquiet.lanes signer p)⟩
    · rcases hquiet.snapshot snapshot' hs with ⟨snapshot, hs, hanchor, -, -⟩
      exact hquiet.deposit.trans (h.anchored snapshot a hs (hanchor ▸ ha))
  | poolCloseInitiated id owner deadline =>
    rw [hevent] at hstep
    cases hstep
    exact ⟨h.opened, h.anchored⟩
  | poolReclaimed id owner refund => rw [hevent] at hstep; cases hstep
  | disputeWindowUpdated old new => rw [hevent] at hq; cases hq
  | rateBoundsUpdated new => rw [hevent] at hq; cases hq
  | minDepositUpdated old new => rw [hevent] at hq; cases hq

/-- Delivering a log keeps a steady pool at the frontier. -/
theorem SteadyInv.fold (h : SteadyInv H q s) (hinv : ObserverInv H q s) (hfunded : FundedAt H q s)
    {l : Log} (hl : H.logs[s.cursor]? = some l) : SteadyInv H q (s.fold l) := by
  rcases Nat.eq_or_lt_of_le hinv.ordered with heq | hlt
  · refine .of_caught (hinv.fold hl) (Funded.fold hfunded hinv.follows hinv.ordered hl) ?_
    change s.cursor + 1 = max s.position (s.cursor + 1)
    exact (max_eq_right (by omega)).symm
  · -- In the middle of a replay the frontier stays.
    have hfront : max s.position (s.cursor + 1) = s.position := max_eq_left hlt
    have hlow : H.deposit q s.cursor ≤ H.deposit q (s.cursor + 1) :=
      History.deposit_le (Nat.le_succ _)
    refine ⟨fun i hi hn => ?_, fun hnone => ?_, fun e' he' => ?_⟩
    · change s.cursor + 1 ≤ i at hi
      change i < max s.position (s.cursor + 1) at hn
      change H.deposit q (i + 1) = H.deposit q (s.cursor + 1) ∨
        H.deposit q (i + 1) = H.deposit q (max s.position (s.cursor + 1))
      rw [hfront] at hn ⊢
      have hmid : H.deposit q (s.cursor + 1) ≤ H.deposit q (i + 1) :=
        History.deposit_le (by omega)
      have hcase := h.ahead i (by omega) hn
      omega
    · change handleLog s.projection (some l.block) l.event q = none at hnone
      change (H.account q (s.cursor + 1)).pool.owner =
        (H.account q (max s.position (s.cursor + 1))).pool.owner
      rw [hfront]
      by_cases hq : eventPool l.event = some q
      · have hopen := History.owner_of_log hl hq (Nat.lt_succ_self _)
        exact ((History.later hlt).owner hopen).symm
      · rw [handleLog_other _ hq] at hnone
        exact owner_between (Nat.le_succ _) hlt (h.absent hnone)
    · change handleLog s.projection (some l.block) l.event q = some e' at he'
      change Held H q (max s.position (s.cursor + 1)) e'
      rw [hfront]
      by_cases hq : eventPool l.event = some q
      · rw [handleLog_own _ hq] at he'
        cases hold : s.projection q with
        | none =>
          -- Only an opening creates an entry, and the opening is not ahead.
          rw [hold] at he'
          have howner := h.absent hold
          have hopen := History.owner_of_log hl hq (Nat.lt_succ_self _)
          have hadmits := H.admitted s.cursor q l hl hq
          cases hevent : l.event with
          | poolOpened id owner deposit =>
            rw [hevent] at hadmits
            have hzero : (H.account q s.cursor).pool.owner = 0 := hadmits.1
            rw [hzero] at howner
            exact absurd (((History.later hlt).owner hopen).symm.trans howner.symm) hopen
          | poolReclaimed id owner refund => rw [hevent] at he'; cases he'
          | poolToppedUp id additional newDeposit => rw [hevent] at he'; cases he'
          | poolRedeemed id provider lanes => rw [hevent] at he'; cases he'
          | poolCloseInitiated id owner deadline => rw [hevent] at he'; cases he'
          | disputeWindowUpdated old new => rw [hevent] at hq; cases hq
          | rateBoundsUpdated new => rw [hevent] at hq; cases hq
          | minDepositUpdated old new => rw [hevent] at hq; cases hq
        | some e =>
          rw [hold] at he'
          exact (h.held e hold).again hlt hl hq (h.ahead s.cursor (Nat.le_refl _) hlt) he'
      · rw [handleLog_other _ hq] at he'
        exact h.held e' he'

/-- A read that seeds a pool leaves nothing to hold it to. -/
theorem SteadyInv.resolve (h : SteadyInv H q s) (p : Bytes32) (block : Nat) :
    SteadyInv H q (s.resolve H p block) := by
  unfold Observer.resolve
  cases hread : H.readAt p block with
  | none => exact h
  | some result =>
    rcases result with ⟨owner, read⟩
    simp only
    split
    · exact h
    · rename_i habsent
      have hnone : s.projection p = none := by simpa using habsent
      have hid : read.poolId = p := (History.readAt_eq_some hread).1
      by_cases hp : q = p
      · subst hp
        refine ⟨h.ahead, fun hq => ?_, fun e he => ?_⟩
        · simp [recordResolved, hid, hnone] at hq
        · simp only [recordResolved, hid, hnone, Function.update_self] at he
          cases he
          refine ⟨fun hs => absurd hs (Option.some_ne_none _), fun snapshot a hs ha => ?_⟩
          cases hs
          cases ha
      · refine ⟨h.ahead, ?_, ?_⟩
        · simp only [recordResolved, hid, hnone, Function.update_of_ne hp]
          exact h.absent
        · simp only [recordResolved, hid, hnone, Function.update_of_ne hp]
          exact h.held

/-- An accepted read holds the deposit at the newest of the frontier and the read. -/
theorem Held.anchor {n j seed block : Nat} {e : PoolEntry} {owner : Address} {read : PoolRead}
    {snapshot : Snapshot} (hfunded : Funded H q n j seed e)
    (hread : H.readAt q block = some (owner, read)) (hs : e.snapshot = some snapshot)
    (hfresh : e.staleReason snapshot block read = none) :
    Held H q n (e.anchored snapshot block read) := by
  have hfull := (hfunded.anchor hread hs hfresh).folded _ block rfl rfl block
    (staleReason_none hfresh).1
  rw [max_self] at hfull
  refine ⟨fun hnone => absurd hnone (Option.some_ne_none _), fun snapshot' a hs' ha => ?_⟩
  cases hs'
  cases ha
  rw [History.deposit_max, max_eq_right hfull]
  exact (History.readAt_eq_some hread).2.2.2.1

/-- Re-anchoring keeps a steady pool at the frontier. -/
theorem SteadyInv.reanchor (h : SteadyInv H q s) (hfunded : FundedAt H q s) {block : Nat}
    {batch : List Bytes32} (hsteady : Observer.Steady H q s (.reanchor block batch)) :
    SteadyInv H q (s.reanchorPools H block batch) := by
  have hkept := reanchor_keeps (H := H) (q := q) block batch
    (P := fun o => (o = none → s.projection q = none) ∧ ∀ e, o = some e →
      Funded H q s.position s.cursor (s.seededAt q) e ∧ Held H q s.position e)
    ⟨id, fun e he => ⟨hfunded e he, h.held e he⟩⟩
    (fun owner read e snapshot hread hs hfresh hold => by
      refine ⟨fun hnone => absurd hnone (Option.some_ne_none _), fun e' he' => ?_⟩
      cases he'
      exact ⟨(hold.2 e rfl).1.anchor hread hs hfresh, .anchor (hold.2 e rfl).1 hread hs hfresh⟩)
  refine ⟨h.ahead, ?_, ?_⟩
  · simp only [Observer.reanchorPools, forget_all]
    split
    · rename_i hclosed
      rw [List.mem_filter] at hclosed
      exact fun _ => hsteady hclosed.1 hclosed.2
    · exact fun hnone => h.absent (hkept.1 hnone)
  · simp only [Observer.reanchorPools, forget_all]
    split
    · exact fun e he => nomatch he
    · exact fun e he => (hkept.2 e he).2

/-- One steady step keeps the pool at the frontier. -/
theorem SteadyInv.step (h : SteadyInv H q s) (hinv : ObserverInv H q s) (hfunded : FundedAt H q s)
    {a : Action} (hsteady : Observer.Steady H q s a) (hstep : Observer.Step H s a t) :
    SteadyInv H q t := by
  unfold Observer.Step Observer.apply at hstep
  cases a with
  | fold =>
    rcases Option.map_eq_some_iff.mp hstep with ⟨l, hl, rfl⟩
    exact h.fold hinv hfunded hl
  | rewind k =>
    simp only at hstep
    split at hstep
    · cases hstep
      exact ⟨hsteady.1, hsteady.2, h.held⟩
    · cases hstep
  | resolve p block =>
    cases hstep
    exact h.resolve p block
  | reanchor block batch =>
    cases hstep
    exact h.reanchor hfunded hsteady

/-! ## Whole runs -/

variable {start : Nat}

/-- Every pool is followed in every reachable state. -/
theorem Reaches.follows {guard : Observer → Action → Prop}
    (h : Reaches (Observer.Step H) guard (Observer.begin start) s) : ObserverInv H q s :=
  h.invariant (I := ObserverInv H q) (observerInv_begin H q start)
    fun _ _ _ _ hstep hinv => hinv.step hstep

/-- A pool whose seeding reads are timely is funded in every reachable state. -/
theorem Reaches.funded
    (h : Reaches (Observer.Step H) (Observer.Timely H q) (Observer.begin start) s) :
    FundedAt H q s := by
  have hboth : ObserverInv H q s ∧ FundedAt H q s := by
    refine h.invariant (I := fun s => ObserverInv H q s ∧ FundedAt H q s)
      ⟨observerInv_begin H q start, fun _ he => nomatch he⟩ ?_
    rintro a e b htimely hstep ⟨hinv, hfunded⟩
    exact ⟨hinv.step hstep, hfunded.step hinv htimely hstep⟩
  exact hboth.2

/-- One more log delivered. -/
theorem Reaches.fold {guard : Observer → Action → Prop}
    (h : Reaches (Observer.Step H) guard (Observer.begin start) s) {l : Log}
    (hl : H.logs[s.cursor]? = some l) (hguard : guard s .fold) :
    Reaches (Observer.Step H) guard (Observer.begin start) (s.fold l) :=
  h.tail hguard (congrArg (Option.map s.fold) hl)

/-- A replay started. -/
theorem Reaches.rewind {guard : Observer → Action → Prop}
    (h : Reaches (Observer.Step H) guard (Observer.begin start) s) {k : Nat}
    (hk : s.start ≤ k ∧ k ≤ s.cursor) (hguard : guard s (.rewind k)) :
    Reaches (Observer.Step H) guard (Observer.begin start) { s with cursor := k } :=
  h.tail hguard (if_pos hk)

/-- Along steady runs a pool stays at the folded frontier. -/
theorem Reaches.steady
    (h : Reaches (Observer.Step H) (Observer.Steady H q) (Observer.begin start) s) :
    SteadyInv H q s := by
  have hall : ObserverInv H q s ∧ FundedAt H q s ∧ SteadyInv H q s := by
    refine h.invariant (I := fun s => ObserverInv H q s ∧ FundedAt H q s ∧ SteadyInv H q s) ?_ ?_
    · have hinv := observerInv_begin H q start
      have hfunded : FundedAt H q (Observer.begin start) := fun _ he => nomatch he
      exact ⟨hinv, hfunded, .of_caught hinv hfunded rfl⟩
    · rintro a e b hsteady hstep ⟨hinv, hfunded, hheld⟩
      exact ⟨hinv.step hstep, hfunded.step hinv hsteady.timely hstep,
        hheld.step hinv hfunded hsteady hstep⟩
  exact hall.2.2

/-- The redemptions an entry counts have all happened by the newest record it
reflects. -/
theorem Tracked.redeemed_le {n j ent seed : Nat} {e : PoolEntry}
    (h : Tracked H q n j ent seed e) :
    e.redeemed ≤ (H.account q (max n (H.upTo (e.readBlock seed)))).pool.totalRedeemed := by
  set top := H.account q (max n (H.upTo (e.readBlock seed)))
  set base := H.account q (H.upTo (e.readBlock seed))
  have htop : top.pool.totalRedeemed = ∑ signer, ∑ provider, top.paid signer provider :=
    (History.sound _).redeemed
  have hbase : base.pool.totalRedeemed = ∑ signer, ∑ provider, base.paid signer provider :=
    (History.sound _).redeemed
  have hpos : ∀ signer provider, e.laneTotal signer provider ≤ top.paid signer provider :=
    fun signer provider => Nat.le_trans (h.counts.laneTotal_le signer provider)
      ((History.later (le_max_left _ _)).paid signer provider)
  have hlow : ∀ signer provider, base.paid signer provider ≤ top.paid signer provider :=
    fun signer provider => (History.later (le_max_right _ _)).paid signer provider
  have htotal : e.totalRedeemed ≤ top.pool.totalRedeemed := by
    rw [h.counts.total, htop]
    exact sum_le_sum fun signer _ => sum_le_sum fun provider _ => hpos signer provider
  unfold PoolEntry.redeemed
  cases hs : e.snapshot with
  | none => exact htotal
  | some snapshot =>
    have hread : snapshot.redeemed = base.pool.totalRedeemed := (h.read snapshot hs).2
    have hsince : snapshot.since ≤ ∑ signer, ∑ provider,
        (e.laneTotal signer provider - base.paid signer provider) :=
      h.counts.since snapshot hs
    have hsum : ∑ signer, ∑ provider, base.paid signer provider +
        ∑ signer, ∑ provider, (e.laneTotal signer provider - base.paid signer provider) ≤
        ∑ signer, ∑ provider, top.paid signer provider := by
      rw [← sum_add_distrib]
      refine sum_le_sum fun signer _ => ?_
      rw [← sum_add_distrib]
      refine sum_le_sum fun provider _ => ?_
      have := hpos signer provider
      have := hlow signer provider
      omega
    have hcounted : snapshot.redeemed + snapshot.since ≤ top.pool.totalRedeemed := by
      omega
    exact max_le htotal (Nat.le_trans (min_le_left _ _) hcounted)

/-- A pool folded from its opening whose deposit and lanes are at the frontier equals the
chain. -/
theorem Tracked.opened_exact {n j ent seed : Nat} {e : PoolEntry} (h : Tracked H q n j ent seed e)
    (hs : e.snapshot = none) (hheld : Held H q n e) :
    e.deposit = (H.account q n).pool.deposit ∧
      e.totalRedeemed = (H.account q n).pool.totalRedeemed ∧
      ∀ signer, e.signerSpent signer = (H.account q n).spent signer := by
  rcases hheld.opened hs with ⟨hdeposit, hpaid⟩
  have hlanes : ∀ signer provider,
      e.laneTotal signer provider = (H.account q n).paid signer provider :=
    fun signer provider => Nat.le_antisymm (h.counts.laneTotal_le signer provider)
      (hpaid signer provider)
  refine ⟨hdeposit, ?_, fun signer => ?_⟩
  · rw [h.counts.total, (History.sound _).redeemed]
    simp only [hlanes]
  · rw [h.counts.spent, (History.sound _).spent]
    simp only [hlanes]

/-- A seeded pool whose deposit is at the newest of the frontier and its last read never
understates what is left. -/
theorem Tracked.remaining_le {n j ent seed : Nat} {e : PoolEntry} (h : Tracked H q n j ent seed e)
    (hfunded : Funded H q n j seed e) (hheld : Held H q n e) (hs : e.snapshot ≠ none) :
    (H.account q (max n (H.upTo (e.readBlock seed)))).pool.deposit -
      (H.account q (max n (H.upTo (e.readBlock seed)))).pool.totalRedeemed ≤
        e.status.remaining := by
  have hredeemed := h.redeemed_le
  have hdeposit : e.deposit = H.deposit q (max n (H.upTo (e.readBlock seed))) := by
    rcases Option.ne_none_iff_exists'.mp hs with ⟨snapshot, hsnap⟩
    cases ha : snapshot.anchor with
    | none =>
      have hblock : e.readBlock seed = seed := by simp [PoolEntry.readBlock, hsnap, ha]
      rw [hblock]
      exact hfunded.seeded snapshot hsnap ha
    | some a =>
      have hblock : e.readBlock seed = a := by simp [PoolEntry.readBlock, hsnap, ha]
      rw [hblock]
      exact hheld.anchored snapshot a hsnap ha
  simp only [PoolEntry.status]
  rw [hdeposit]
  exact Nat.sub_le_sub_left hredeemed _

/-- The projection tracks the chain.  In every state that steady steps of a pool reach, also in
the middle of a replay:

- a pool folded from its opening has the on-chain deposit, redemptions and per-signer spend of
  the folded prefix;
- a pool seeded from a read reports no less than what is left on chain at the newest of the
  folded prefix and the last read it took in.

Whenever no replay is half done, whatever was replayed before, the first holds as well, so does the
second if no seeding read was behind a top-up already passed, and delivering any folded suffix
again leaves every pool as it is, except that the suffix must not reach back before a read brought
the pool in or took it out. -/
theorem projection_tracks (H : History) (start : Nat) (s : Observer)
    (hrun : Reaches (Observer.Step H) (fun _ _ => True) (Observer.begin start) s) :
    (∀ q e, Reaches (Observer.Step H) (Observer.Steady H q) (Observer.begin start) s →
      s.projection q = some e →
      (e.snapshot = none → e.deposit = (H.account q s.position).pool.deposit ∧
        e.totalRedeemed = (H.account q s.position).pool.totalRedeemed ∧
        ∀ signer, signerSpent s.projection q signer = (H.account q s.position).spent signer) ∧
      (e.snapshot ≠ none →
        let newest := H.account q (max s.position (H.upTo (e.readBlock (s.seededAt q))))
        newest.pool.deposit - newest.pool.totalRedeemed ≤ e.status.remaining)) ∧
    (s.cursor = s.position →
      (∀ q e, s.projection q = some e → e.snapshot = none →
        e.deposit = (H.account q s.position).pool.deposit ∧
          e.totalRedeemed = (H.account q s.position).pool.totalRedeemed ∧
          ∀ signer, signerSpent s.projection q signer = (H.account q s.position).spent signer) ∧
      (∀ q e, Reaches (Observer.Step H) (Observer.Timely H q) (Observer.begin start) s →
        s.projection q = some e → e.snapshot ≠ none →
        let newest := H.account q (max s.position (H.upTo (e.readBlock (s.seededAt q))))
        newest.pool.deposit - newest.pool.totalRedeemed ≤ e.status.remaining) ∧
      (∀ q k, s.start ≤ k → k ≤ s.position →
        (s.entered q ≤ k ∨ ∃ e, s.projection q = some e ∧ e.snapshot = none) →
        replay H k s.position s.projection q = s.projection q)) := by
  have hspent : ∀ q e, s.projection q = some e → ∀ signer,
      signerSpent s.projection q signer = e.signerSpent signer := by
    intro q e he signer
    simp only [signerSpent, he]
  have htracked : ∀ q e, s.projection q = some e →
      Tracked H q s.position s.cursor (s.entered q) (s.seededAt q) e := by
    intro q e he
    have hfollows := (Reaches.follows (q := q) hrun).follows
    rw [he] at hfollows
    exact hfollows
  refine ⟨fun q e hsteady he => ?_, fun hcaught => ⟨fun q e he hs => ?_, ?_, ?_⟩⟩
  · have hheld := (Reaches.steady hsteady).held e he
    refine ⟨fun hs => ?_, fun hs => ?_⟩
    · simp only [hspent q e he]
      exact (htracked q e he).opened_exact hs hheld
    · have hfunded := Reaches.funded (hsteady.weaken fun _ _ => Observer.Steady.timely) e he
      exact (htracked q e he).remaining_le hfunded hheld hs
  · have hentry := htracked q e he
    simp only [hspent q e he]
    refine hentry.opened_exact hs ⟨fun _ => ?_, fun _ _ hs' => absurd (hs.symm.trans hs') (by simp)⟩
    rw [hcaught] at hentry
    exact ⟨hentry.deposits.opened hs rfl, hentry.counts.opened hs⟩
  · intro q e htimely he hs
    have hfunded := Reaches.funded htimely e he
    have hheld := SteadyInv.of_caught (Reaches.follows hrun) (Reaches.funded htimely) hcaught
    exact (htracked q e he).remaining_le hfunded (hheld.held e he) hs
  · intro q k hstart hk hcase
    have hinv := Reaches.follows (q := q) hrun
    have hfollows := hinv.follows
    rw [hcaught] at hfollows
    have hentered : s.entered q ≤ k := by
      rcases hcase with hle | ⟨e, he, hs⟩
      · exact hle
      · rw [hinv.opened e he hs]
        exact hstart
    exact replay_fixed hfollows hentered hk

/-! ## Where the projection falls behind -/

/-- A pool opened with a deposit of 100 in block 1 and topped up to 200 in block 2. -/
def toppedUpHistory : History where
  logs := [⟨1, .poolOpened 1 7 100⟩, ⟨2, .poolToppedUp 1 100 200⟩]
  ordered := by simp
  admitted := by
    intro i q l hl hq
    match i with
    | 0 =>
      cases hl
      refine ⟨rfl, by decide, by decide, by decide⟩
    | 1 =>
      cases hl
      cases hq
      refine ⟨by decide, by decide, by decide, by decide, by decide⟩
    | i + 2 => simp at hl

/-- The observer starts after the opening, passes the top-up while the pool is
absent, and then seeds the pool from a read of the block before. -/
def behindObserver (block : Nat) : Observer :=
  ((Observer.begin 1).fold ⟨2, .poolToppedUp 1 100 200⟩).resolve toppedUpHistory 1 block

/-- Both steps are steps of the observer. -/
theorem behindObserver_reaches (guard : Observer → Action → Prop) (block : Nat)
    (hfold : guard (Observer.begin 1) .fold)
    (hresolve : guard ((Observer.begin 1).fold ⟨2, .poolToppedUp 1 100 200⟩)
      (.resolve 1 block)) :
    Reaches (Observer.Step toppedUpHistory) guard (Observer.begin 1) (behindObserver block) :=
  ((Reaches.refl _).tail hfold rfl).tail hresolve rfl

/-- The observer folds both logs and delivers the opening again. -/
def replayingObserver : Observer :=
  let s := (Observer.begin 0).fold ⟨1, .poolOpened 1 7 100⟩
  let s := s.fold ⟨2, .poolToppedUp 1 100 200⟩
  Observer.fold { s with cursor := 0 } ⟨1, .poolOpened 1 7 100⟩

theorem replayingObserver_reaches :
    Reaches (Observer.Step toppedUpHistory) (fun _ _ => True) (Observer.begin 0)
      replayingObserver := by
  have hstart : Reaches (Observer.Step toppedUpHistory) (fun _ _ => True) (Observer.begin 0)
      (Observer.begin 0) := .refl _
  have hfirst := Reaches.fold hstart (l := ⟨1, .poolOpened 1 7 100⟩) rfl trivial
  have hsecond := Reaches.fold hfirst (l := ⟨2, .poolToppedUp 1 100 200⟩) rfl trivial
  have hback := Reaches.rewind hsecond (k := 0) (by decide) trivial
  exact Reaches.fold hback (l := ⟨1, .poolOpened 1 7 100⟩) rfl trivial

/-- A seed read at block 1 leaves the pool at 100 although 200 are left in the state
already folded, and delivering the top-up again changes the projection.  A pool folded from its
opening is at 100 as well while its opening is delivered again. -/
theorem seed_behind_topup :
    (Reaches (Observer.Step toppedUpHistory) (fun _ _ => True) (Observer.begin 1)
        (behindObserver 1) ∧
      (behindObserver 1).cursor = (behindObserver 1).position ∧
      (status (behindObserver 1).projection 1).map PoolStatus.remaining = some 100 ∧
      (toppedUpHistory.account 1 (behindObserver 1).position).pool.deposit -
        (toppedUpHistory.account 1 (behindObserver 1).position).pool.totalRedeemed = 200 ∧
      toppedUpHistory.upTo 1 ≤ (behindObserver 1).position ∧
      (behindObserver 1).start ≤ 1 ∧ 1 ≤ (behindObserver 1).position ∧
      replay toppedUpHistory 1 (behindObserver 1).position (behindObserver 1).projection 1 ≠
        (behindObserver 1).projection 1) ∧
    Reaches (Observer.Step toppedUpHistory) (fun _ _ => True) (Observer.begin 0)
        replayingObserver ∧
      (replayingObserver.projection 1).map (fun e => (e.snapshot, e.deposit)) =
        some (none, 100) ∧
      (toppedUpHistory.account 1 replayingObserver.position).pool.deposit = 200 := by
  refine ⟨⟨behindObserver_reaches _ 1 trivial trivial, rfl, rfl, rfl, by decide, by decide,
    by decide, ?_⟩, replayingObserver_reaches, rfl, rfl⟩
  intro heq
  have hdeposit : (replay toppedUpHistory 1 (behindObserver 1).position
      (behindObserver 1).projection 1).map PoolEntry.deposit =
      ((behindObserver 1).projection 1).map PoolEntry.deposit := by rw [heq]
  exact absurd hdeposit (by decide)

/-! ## Samples -/

/-- A pool opened with 100 that is redeemed, topped up to 200 and redeemed again. -/
def redeemedHistory : History where
  logs := [⟨1, .poolOpened 1 7 100⟩, ⟨2, .poolRedeemed 1 5 [⟨6, 40, 0⟩]⟩,
    ⟨3, .poolToppedUp 1 100 200⟩, ⟨4, .poolRedeemed 1 5 [⟨6, 60, 0⟩]⟩]
  ordered := by simp
  admitted := by
    intro i q l hl hq
    match i with
    | 0 =>
      cases hl
      refine ⟨rfl, by decide, by decide, by decide⟩
    | 1 =>
      cases hl
      cases hq
      refine ⟨by decide, by decide, ⟨by decide, trivial⟩, by decide⟩
    | 2 =>
      cases hl
      cases hq
      refine ⟨by decide, by decide, by decide, by decide, by decide⟩
    | 3 =>
      cases hl
      cases hq
      refine ⟨by decide, by decide, ⟨by decide, trivial⟩, by decide⟩
    | i + 4 => simp at hl

/-- The observer folds all four logs and delivers the top-up again, so that the last redemption
is still to come. -/
def sampleObserver : Observer :=
  let s := (Observer.begin 0).fold ⟨1, .poolOpened 1 7 100⟩
  let s := s.fold ⟨2, .poolRedeemed 1 5 [⟨6, 40, 0⟩]⟩
  let s := s.fold ⟨3, .poolToppedUp 1 100 200⟩
  let s := s.fold ⟨4, .poolRedeemed 1 5 [⟨6, 60, 0⟩]⟩
  Observer.fold { s with cursor := 2 } ⟨3, .poolToppedUp 1 100 200⟩

theorem sampleObserver_reaches (guard : Observer → Action → Prop) (hfold : ∀ s, guard s .fold)
    (hrewind : ∀ s : Observer, s.position = 4 → (s.projection 1).isSome → guard s (.rewind 2)) :
    Reaches (Observer.Step redeemedHistory) guard (Observer.begin 0) sampleObserver := by
  have hstart : Reaches (Observer.Step redeemedHistory) guard (Observer.begin 0)
      (Observer.begin 0) := .refl _
  have hfirst := Reaches.fold hstart (l := ⟨1, .poolOpened 1 7 100⟩) rfl (hfold _)
  have hsecond := Reaches.fold hfirst (l := ⟨2, .poolRedeemed 1 5 [⟨6, 40, 0⟩]⟩) rfl (hfold _)
  have hthird := Reaches.fold hsecond (l := ⟨3, .poolToppedUp 1 100 200⟩) rfl (hfold _)
  have hfourth := Reaches.fold hthird (l := ⟨4, .poolRedeemed 1 5 [⟨6, 60, 0⟩]⟩) rfl (hfold _)
  have hback := Reaches.rewind hfourth (k := 2) (by decide) (hrewind _ rfl rfl)
  exact Reaches.fold hback (l := ⟨3, .poolToppedUp 1 100 200⟩) rfl (hfold _)

/-- In the middle of a replay the pool has the deposit and the redemptions of all four logs; and a
pool seeded at the head, not behind the top-up it passed, reports what is left and stays as it is
when the suffix since its seeding is delivered again. -/
theorem projection_tracks_seed_at_head :
    (∃ e, sampleObserver.cursor < sampleObserver.position ∧
      sampleObserver.projection 1 = some e ∧ e.deposit = 200 ∧ e.totalRedeemed = 60) ∧
    ∃ e, (behindObserver 2).projection 1 = some e ∧ e.snapshot ≠ none ∧
      (toppedUpHistory.account 1 (max (behindObserver 2).position
          (toppedUpHistory.upTo (e.readBlock ((behindObserver 2).seededAt 1))))).pool.deposit -
        (toppedUpHistory.account 1 (max (behindObserver 2).position
          (toppedUpHistory.upTo (e.readBlock ((behindObserver 2).seededAt 1))))).pool.totalRedeemed
        ≤ e.status.remaining ∧
      replay toppedUpHistory 2 (behindObserver 2).position (behindObserver 2).projection 1 =
        (behindObserver 2).projection 1 := by
  constructor
  · have hrun := sampleObserver_reaches (fun _ _ => True) (fun _ => trivial) fun _ _ _ => trivial
    have hsteady := sampleObserver_reaches (Observer.Steady redeemedHistory 1) (fun _ => trivial)
      fun s hposition hsome => by
        refine ⟨?_, fun hnone => ?_⟩
        · rw [hposition]
          decide
        · rw [hnone] at hsome
          cases hsome
    have hopened : (sampleObserver.projection 1).map (fun e => e.snapshot.isNone) = some true := by
      decide
    rcases Option.map_eq_some_iff.mp hopened with ⟨e, he, hnone⟩
    have hexact := ((projection_tracks redeemedHistory 0 sampleObserver hrun).1 1 e hsteady he).1
      (Option.isNone_iff_eq_none.mp hnone)
    exact ⟨e, by decide, he, hexact.1.trans (by decide), hexact.2.1.trans (by decide)⟩
  · have hrun := behindObserver_reaches (fun _ _ => True) 2 trivial trivial
    have htimely := behindObserver_reaches (Observer.Timely toppedUpHistory 1) 2
      trivial (fun _ _ _ => by decide)
    rcases (projection_tracks toppedUpHistory 1 (behindObserver 2) hrun).2 rfl with
      ⟨-, hleft, hsame⟩
    have hseeded : (((behindObserver 2).projection 1).map fun e => e.snapshot.isSome) =
        some true := by
      decide
    rcases Option.map_eq_some_iff.mp hseeded with ⟨e, he, hsnap⟩
    have hne : e.snapshot ≠ none := by
      intro hnone
      rw [hnone] at hsnap
      cases hsnap
    exact ⟨e, he, hne, hleft 1 e htimely he hne,
      hsame 1 2 (by decide) (by decide) (Or.inl (by decide))⟩

end Decdn.Node.PoolView
