import Decdn.Node.PoolTracking

/-!
# Replaying folded logs

Delivering a folded suffix once more.  Every log of the suffix is absorbed by the
entry it belongs to, so the replay can move the deposit alone, and the invariant
of the entry brings the deposit back.  An absent pool is created again only by its
opening, and the reclaim that removed it lies in the same suffix.

Main results:

- Theorem `Absorbed.step`: an absorbed log moves the deposit alone.
- Theorem `replay_fixed`: a replay of a folded suffix leaves a pool as it was.
-/

namespace Decdn.Node.PoolView

open PaymentPool (LaneSettled Event Pool)

variable {H : History} {q : Bytes32} {n j k ent seed block : Nat} {e e' e'' : PoolEntry} {l : Log}

/-! ## One absorbed log -/

/-- `e'` is `e` up to a deposit that some read orders. -/
structure SameButDeposit (e e' : PoolEntry) : Prop where
  rest : e' = { e with deposit := e'.deposit }
  seeded : ∀ s, e.snapshot = some s → s.anchor = none → e'.deposit = e.deposit

/-- An entry is itself up to its deposit. -/
theorem SameButDeposit.refl (e : PoolEntry) : SameButDeposit e e :=
  ⟨rfl, fun _ _ _ => rfl⟩

/-- The snapshots agree. -/
theorem SameButDeposit.snapshot (h : SameButDeposit e e') : e'.snapshot = e.snapshot := by
  rw [h.rest]

/-- Two changes of the deposit in a row. -/
theorem SameButDeposit.trans (h : SameButDeposit e e') (h' : SameButDeposit e' e'') :
    SameButDeposit e e'' := by
  constructor
  · have hrest' := h'.rest
    have hrest := h.rest
    rw [hrest] at hrest'
    exact hrest'
  · intro s hs ha
    exact (h'.seeded s (h.snapshot.trans hs) ha).trans (h.seeded s hs ha)

/-- What an entry absorbs does not depend on an ordered deposit. -/
theorem SameButDeposit.absorbed (h : SameButDeposit e e') (habs : Absorbed e l) :
    Absorbed e' l := by
  have hlanes : e'.laneTotal = e.laneTotal := by rw [h.rest]; rfl
  have hlife : e'.lifecycle = e.lifecycle := by rw [h.rest]
  refine habs.mono (by rw [h.rest]) (fun _ _ => by rw [hlanes]) ?_ (fun _ _ _ _ hold =>
    hlife.trans hold)
  intro s hs
  rw [h.snapshot] at hs
  exact ⟨s, hs, Nat.le_refl _, fun ha => ⟨ha, Nat.le_of_eq (h.seeded s hs ha).symm⟩⟩

/-- Folding a block that is already folded changes nothing. -/
theorem Snapshot.foldBlock_of_le {s : Snapshot} (h : block ≤ s.foldedThrough) :
    s.foldBlock (some block) = s := by
  simp only [Snapshot.foldBlock, max_eq_left h]

/-- Folding an absorbed block changes no snapshot. -/
theorem map_foldBlock (h : ∀ s, e.snapshot = some s → block ≤ s.foldedThrough) :
    (e.snapshot.map fun s => s.foldBlock (some block)) = e.snapshot := by
  cases hs : e.snapshot with
  | none => rfl
  | some s => exact congrArg some (Snapshot.foldBlock_of_le (h s hs))

/-- A redemption none of whose lanes advances changes nothing. -/
theorem settleLanes_absorbed {provider : Address} {lanes : List LaneSettled}
    (h : ∀ lane ∈ lanes, lane.newPaidCumulative ≤ e.laneTotal lane.signer provider) :
    lanes.foldl (PoolEntry.settleLane provider (some block)) e = e := by
  induction lanes with
  | nil => rfl
  | cons lane lanes ih =>
    rw [List.foldl_cons,
      PoolEntry.settleLane_of_le (some block) (h lane List.mem_cons_self)]
    exact ih fun lane' hlane' => h lane' (List.mem_cons_of_mem lane hlane')

/-- A top-up of an absorbed log moves the deposit alone. -/
theorem topUp_absorbed (newDeposit : Nat)
    (h : ∀ s, e.snapshot = some s → block ≤ s.foldedThrough ∧
      (s.anchor = none → newDeposit ≤ e.deposit)) :
    SameButDeposit e (e.topUp newDeposit (some block)) := by
  rcases topUp_frame e newDeposit block with ⟨howner, hlanes, htotal, hspent, hlife, hsnap⟩
  rw [map_foldBlock fun s hs => (h s hs).1] at hsnap
  constructor
  · cases hentry : e.topUp newDeposit (some block) with
    | mk owner deposit totalRedeemed lanes signerSpent lifecycle snapshot =>
      rw [hentry] at howner hlanes htotal hspent hlife hsnap
      simp only at howner hlanes htotal hspent hlife hsnap
      subst howner hlanes htotal hspent hlife hsnap
      rfl
  · intro s hs ha
    rw [topUp_deposit_seeded _ hs ha]
    exact max_eq_left ((h s hs).2 ha)

/-- An absorbed log moves the deposit alone. -/
theorem Absorbed.step (h : Absorbed e l) :
    ∃ e', entryStep (some l.block) (some e) l.event = some e' ∧ SameButDeposit e e' := by
  unfold Absorbed at h
  cases hevent : l.event with
  | poolOpened id owner deposit =>
    rw [hevent] at h
    subst h
    refine ⟨_, rfl, rfl, ?_⟩
    intro s hs _
    simp [hs]
  | poolToppedUp id additional newDeposit =>
    rw [hevent] at h
    exact ⟨_, rfl, topUp_absorbed _ h⟩
  | poolRedeemed id provider lanes =>
    rw [hevent] at h
    refine ⟨e, ?_, SameButDeposit.refl e⟩
    simp only [entryStep, Option.map_some, PoolEntry.redeem]
    rw [map_foldBlock h.1]
    exact congrArg some (settleLanes_absorbed h.2)
  | poolCloseInitiated id owner deadline =>
    rw [hevent] at h
    refine ⟨e, ?_, SameButDeposit.refl e⟩
    simp only [entryStep, Option.map_some]
    rw [← h]
  | poolReclaimed id owner refund =>
    rw [hevent] at h
    exact False.elim h
  | disputeWindowUpdated old new => exact ⟨e, rfl, SameButDeposit.refl e⟩
  | rateBoundsUpdated new => exact ⟨e, rfl, SameButDeposit.refl e⟩
  | minDepositUpdated old new => exact ⟨e, rfl, SameButDeposit.refl e⟩

/-- A log that is no top-up above the anchor leaves an anchored entry's deposit. -/
theorem entryStep_deposit {s : Snapshot} {a : Nat} (hs : e.snapshot = some s)
    (ha : s.anchor = some a)
    (hcovered : ∀ id additional newDeposit, l.event = .poolToppedUp id additional newDeposit →
      l.block ≤ a)
    (hstep : entryStep (some l.block) (some e) l.event = some e') : e'.deposit = e.deposit := by
  cases hevent : l.event with
  | poolOpened id owner deposit =>
    rw [hevent] at hstep
    cases hstep
    simp [hs]
  | poolToppedUp id additional newDeposit =>
    rw [hevent] at hstep
    cases hstep
    rw [topUp_deposit_anchored _ hs ha, if_pos (hcovered id additional newDeposit hevent)]
  | poolRedeemed id provider lanes =>
    rw [hevent] at hstep
    cases hstep
    exact (redeem_quiet provider lanes l.block e).deposit
  | poolCloseInitiated id owner deadline =>
    rw [hevent] at hstep
    cases hstep
    rfl
  | poolReclaimed id owner refund =>
    rw [hevent] at hstep
    cases hstep
  | disputeWindowUpdated old new =>
    rw [hevent] at hstep
    cases hstep
    rfl
  | rateBoundsUpdated new =>
    rw [hevent] at hstep
    cases hstep
    rfl
  | minDepositUpdated old new =>
    rw [hevent] at hstep
    cases hstep
    rfl

/-! ## A replayed suffix -/

/-- Deliver the logs from `k` up to `n` once more. -/
def replay (H : History) (k n : Nat) (pools : PoolProjection) : PoolProjection :=
  ((H.logs.take n).drop k).foldl (fun pools l => handleLog pools (some l.block) l.event) pools

variable {pools : PoolProjection}

/-- Nothing is delivered from a position to itself. -/
theorem replay_self (H : History) (k : Nat) (pools : PoolProjection) :
    replay H k k pools = pools := by
  simp [replay]

/-- One more log of a replay. -/
theorem replay_succ {i : Nat} (hki : k ≤ i) (hl : H.logs[i]? = some l) :
    replay H k (i + 1) pools = handleLog (replay H k i pools) (some l.block) l.event := by
  rcases List.getElem?_eq_some_iff.mp hl with ⟨hlt, heq⟩
  have hlen : k ≤ (H.logs.take i).length := by
    rw [List.length_take]
    omega
  unfold replay
  rw [List.take_succ_eq_append_getElem hlt, List.drop_append_of_le_length hlen,
    List.foldl_append, heq]
  rfl

/-- Past the last log a replay delivers nothing. -/
theorem replay_succ_none {i : Nat} (hl : H.logs[i]? = none) :
    replay H k (i + 1) pools = replay H k i pools := by
  have hle : H.logs.length ≤ i := List.getElem?_eq_none_iff.mp hl
  unfold replay
  rw [List.take_of_length_le hle, List.take_of_length_le (Nat.le_succ_of_le hle)]

/-- The invariant of the pool holds again after the replay. -/
theorem replay_follows (h : Follows H q n n ent seed (pools q)) {i : Nat} (hki : k ≤ i)
    (hin : i ≤ n) : Follows H q n i ent seed (replay H k i pools q) := by
  induction i, hki using Nat.le_induction with
  | base =>
    rw [replay_self]
    exact h.rewind hin (Nat.le_refl n)
  | succ i hki ih =>
    have hcur := ih (Nat.le_of_succ_le hin)
    cases hl : H.logs[i]? with
    | none =>
      rw [replay_succ_none hl]
      have hlast : H.account q (i + 1) = H.account q i := History.account_succ_none hl
      have hdeposit : H.deposit q (i + 1) = H.deposit q i := by
        unfold History.deposit
        rw [hlast]
      cases hentry : replay H k i pools q with
      | none =>
        rw [hentry] at hcur
        intro hent hne
        rw [hlast] at hne
        exact hcur hent hne
      | some e =>
        rw [hentry] at hcur
        have hquiet := (Tracked.deposits hcur).quiet (Quiet.refl e) (Nat.le_of_succ_le hin) hdeposit
        rw [max_eq_left hin] at hquiet
        refine ⟨hlast ▸ Tracked.counts hcur, Tracked.read hcur, hquiet, ?_⟩
        intro m l' hm hmi hl' hq'
        rcases Nat.lt_succ_iff_lt_or_eq.mp hmi with hlt | rfl
        · exact Tracked.absorbed hcur m l' hm hlt hl' hq'
        · rw [hl] at hl'
          cases hl'
    | some l =>
      rw [replay_succ hki hl]
      have hnext := hcur.fold (Nat.le_of_succ_le hin) hl fun _ => rfl
      rwa [max_eq_left hin] at hnext

/-- A pool that is absent is absent again after the replay. -/
theorem replay_absent (h : Follows H q n n ent seed none) (hnone : pools q = none)
    (hent : ent ≤ k) (hkn : k ≤ n) : replay H k n pools q = none := by
  have hall : ∀ i, k ≤ i → i ≤ n →
      ((H.account q i).pool.owner = 0 ∨ (H.account q k).pool.owner ≠ 0 ∨
        (H.account q i).pool.status = .closed) → replay H k i pools q = none := by
    intro i hki
    induction i, hki using Nat.le_induction with
    | base =>
      intro _ _
      rw [replay_self, hnone]
    | succ i hki ih =>
      intro hin hcase
      have ih := ih (Nat.le_of_succ_le hin)
      cases hl : H.logs[i]? with
      | none =>
        rw [replay_succ_none hl]
        rw [History.account_succ_none hl] at hcase
        exact ih hcase
      | some l =>
        rw [replay_succ hki hl]
        by_cases hq : eventPool l.event = some q
        · rw [handleLog_own _ hq]
          have hadmits := H.admitted i q l hl hq
          have hafter := History.account_own hl hq
          have howner := History.owner_of_log hl hq (Nat.lt_succ_self i)
          -- The pool is open by now, so it was open at `k` or is closed here.
          have hcase := hcase.resolve_left howner
          cases hevent : l.event with
          | poolOpened id owner deposit =>
            rw [hevent] at hadmits hafter
            have hzero : (H.account q i).pool.owner = 0 := hadmits.1
            rcases hcase with hk | hclosed
            · exact absurd (History.lt_of_owner hzero hk) (Nat.not_lt.mpr hki)
            · rw [hafter] at hclosed
              cases hclosed
          | poolToppedUp id additional newDeposit =>
            rw [hevent] at hadmits hafter
            rcases hcase with hk | hclosed
            · rw [ih (Or.inr (Or.inl hk))]
              rfl
            · rw [hafter] at hclosed
              exact absurd (hadmits.2.1.symm.trans hclosed) (by simp)
          | poolRedeemed id provider lanes =>
            rw [hevent] at hadmits hafter
            rcases hcase with hk | hclosed
            · rw [ih (Or.inr (Or.inl hk))]
              rfl
            · rw [hafter] at hclosed
              have hstatus := (Account.redeem_facts hadmits.2.2.1).1.status
              exact absurd (hstatus.symm.trans hclosed) hadmits.2.1
          | poolCloseInitiated id owner deadline =>
            rw [hevent] at hadmits hafter
            rcases hcase with hk | hclosed
            · rw [ih (Or.inr (Or.inl hk))]
              rfl
            · rw [hafter] at hclosed
              cases hclosed
          | poolReclaimed id owner refund => rfl
          | disputeWindowUpdated old new =>
            rw [hevent] at hq
            cases hq
          | rateBoundsUpdated new =>
            rw [hevent] at hq
            cases hq
          | minDepositUpdated old new =>
            rw [hevent] at hq
            cases hq
        · rw [handleLog_other _ hq]
          rw [History.account_other hl hq] at hcase
          exact ih hcase
  refine hall n hkn (Nat.le_refl n) ?_
  by_cases hk : (H.account q k).pool.owner = 0
  · by_cases hn : (H.account q n).pool.owner = 0
    · exact Or.inl hn
    · refine Or.inr (Or.inr (h ?_ hn))
      by_contra hne
      exact hne ((History.later hent).owner hne ▸ hk)
  · exact Or.inr (Or.inl hk)

/-- A pool that is present stays what it is, up to its deposit, and the deposit of
an anchored entry stays too when no top-up lies above its anchor. -/
theorem replay_present (h : Tracked H q n n ent seed e) (hentry : pools q = some e)
    (hent : ent ≤ k) {i : Nat} (hki : k ≤ i) (hin : i ≤ n) :
    ∃ e', replay H k i pools q = some e' ∧ SameButDeposit e e' ∧
      ∀ s a, e.snapshot = some s → s.anchor = some a →
        H.deposit q n ≤ H.deposit q (max ent (H.upTo a)) → e'.deposit = e.deposit := by
  induction i, hki using Nat.le_induction with
  | base =>
    rw [replay_self]
    exact ⟨e, hentry, SameButDeposit.refl e, fun _ _ _ _ _ => rfl⟩
  | succ i hki ih =>
    rcases ih (Nat.le_of_succ_le hin) with ⟨e', he', hsame, hfixed⟩
    cases hl : H.logs[i]? with
    | none =>
      rw [replay_succ_none hl]
      exact ⟨e', he', hsame, hfixed⟩
    | some l =>
      rw [replay_succ hki hl]
      by_cases hq : eventPool l.event = some q
      · rw [handleLog_own _ hq, he']
        have habs := hsame.absorbed (h.absorbed i l (Nat.le_trans hent hki) hin hl hq)
        rcases habs.step with ⟨e'', hstep, hsame'⟩
        refine ⟨e'', hstep, hsame.trans hsame', ?_⟩
        intro s a hs ha hnone
        refine (entryStep_deposit (hsame.snapshot.trans hs) ha ?_ hstep).trans
          (hfixed s a hs ha hnone)
        intro id additional newDeposit hevent
        rw [hevent] at hq
        cases hq
        by_contra habove
        -- A top-up above the anchor would raise the deposit past what is allowed.
        have hread : H.upTo a ≤ i :=
          Nat.le_of_not_lt fun hlt => habove ((History.lt_upTo_iff hl).mp hlt)
        have hrise := (topUp_log hl hevent).2.1
        have hlow : H.deposit q (max ent (H.upTo a)) ≤ H.deposit q i :=
          History.deposit_le (max_le (Nat.le_trans hent hki) hread)
        have hhigh : H.deposit q (i + 1) ≤ H.deposit q n := History.deposit_le hin
        omega
      · rw [handleLog_other _ hq]
        exact ⟨e', he', hsame, hfixed⟩

/-- Replaying a suffix that starts no earlier than the pool's entry leaves the pool
as it was. -/
theorem replay_fixed (h : Follows H q n n ent seed (pools q)) (hent : ent ≤ k) (hkn : k ≤ n) :
    replay H k n pools q = pools q := by
  cases hentry : pools q with
  | none =>
    rw [hentry] at h
    exact replay_absent h hentry hent hkn
  | some e =>
    have hafter := replay_follows h hkn (Nat.le_refl n)
    rw [hentry] at h
    rcases replay_present h hentry hent hkn (Nat.le_refl n) with ⟨e', he', hsame, hfixed⟩
    rw [he'] at hafter ⊢
    have hdeposit : e'.deposit = e.deposit := by
      cases hs : e.snapshot with
      | none =>
        rw [(Tracked.deposits hafter).opened (hsame.snapshot.trans hs) rfl,
          (Tracked.deposits h).opened hs rfl]
      | some s =>
        cases ha : s.anchor with
        | none => exact hsame.seeded s hs ha
        | some a =>
          rcases Nat.lt_or_ge (H.deposit q (max ent (H.upTo a))) (H.deposit q n) with hlt | hge
          · rw [(Tracked.deposits hafter).anchored s a (hsame.snapshot.trans hs) ha hlt rfl,
              (Tracked.deposits h).anchored s a hs ha hlt rfl]
          · exact hfixed s a hs ha hge
    rw [hsame.rest, hdeposit]

end Decdn.Node.PoolView
