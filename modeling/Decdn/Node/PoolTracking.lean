import Decdn.Node.PoolCounts

/-!
# Entries of the pool view against the chain

The invariant of one entry compares it with three records of the chain: the one at
the cursor `j`, the one at the furthest position `n` folded, and the one the
entry's last read was taken from.  Every part of it is stated so that moving the
cursor back, which starts a replay, keeps it.

Main results:

- Theorem `Follows.fold`: folding the next log keeps an entry in step with the
  chain.
- Theorem `Tracked.anchor` and Theorem `Tracked.of_read`: so does taking a read.
- Theorem `Funded.fold`: the deposit of a seeded entry never falls behind, once
  the read that seeded it was not behind.
-/

namespace Decdn.Node.PoolView

open PaymentPool (LaneSettled Event Pool)

variable {H : History} {q : Bytes32} {n j k ent seed block : Nat} {e e' : PoolEntry} {l : Log}

/-! ## The effect of a top-up -/

/-- A top-up touches the deposit and the folded block only. -/
theorem topUp_frame (e : PoolEntry) (newDeposit block : Nat) :
    let e' := e.topUp newDeposit (some block)
    e'.owner = e.owner ∧ e'.lanes = e.lanes ∧ e'.totalRedeemed = e.totalRedeemed ∧
      e'.signerSpent = e.signerSpent ∧ e'.lifecycle = e.lifecycle ∧
      e'.snapshot = e.snapshot.map fun s => s.foldBlock (some block) := by
  unfold PoolEntry.topUp
  cases hs : e.snapshot with
  | none => exact ⟨rfl, rfl, rfl, rfl, rfl, rfl⟩
  | some s =>
    simp only
    split
    · exact ⟨rfl, rfl, rfl, rfl, rfl, rfl⟩
    · split
      · exact ⟨rfl, rfl, rfl, rfl, rfl, rfl⟩
      · exact ⟨rfl, rfl, rfl, rfl, rfl, rfl⟩

/-- A pool folded from its opening takes the new deposit. -/
theorem topUp_deposit_opened (newDeposit : Nat) (hs : e.snapshot = none) :
    (e.topUp newDeposit (some block)).deposit = newDeposit := by
  simp only [PoolEntry.topUp, hs]

/-- Before it is anchored, a seeded pool's deposit only rises. -/
theorem topUp_deposit_seeded (newDeposit : Nat) {s : Snapshot} (hs : e.snapshot = some s)
    (ha : s.anchor = none) :
    (e.topUp newDeposit (some block)).deposit = max e.deposit newDeposit := by
  simp [PoolEntry.topUp, hs, Snapshot.covers, ha]

/-- An anchored pool takes the new deposit unless its read counts it. -/
theorem topUp_deposit_anchored (newDeposit : Nat) {s : Snapshot} {a : Nat}
    (hs : e.snapshot = some s) (ha : s.anchor = some a) :
    (e.topUp newDeposit (some block)).deposit =
      if block ≤ a then e.deposit else newDeposit := by
  by_cases hle : block ≤ a
  · simp [PoolEntry.topUp, hs, Snapshot.covers, ha, hle]
  · simp [PoolEntry.topUp, hs, Snapshot.covers, ha, hle]

/-- The new deposit a top-up log carries is the chain's. -/
theorem topUp_log (hl : H.logs[j]? = some l) {additional newDeposit : Nat}
    (hevent : l.event = .poolToppedUp q additional newDeposit) :
    U64.ofNatSaturating newDeposit = H.deposit q (j + 1) ∧
      H.deposit q j < H.deposit q (j + 1) ∧ (H.account q j).pool.owner ≠ 0 := by
  have hq : eventPool l.event = some q := by rw [hevent]; rfl
  have hadmits := H.admitted j q l hl hq
  have hafter := History.account_own hl hq
  rw [hevent] at hadmits hafter
  rcases hadmits with ⟨hne, -, hpos, hnew, hmax⟩
  have hdeposit : H.deposit q (j + 1) = newDeposit := by
    unfold History.deposit
    rw [hafter]
    rfl
  rw [hdeposit, U64.ofNatSaturating_eq hmax]
  refine ⟨rfl, ?_, hne⟩
  unfold History.deposit History.account
  omega

/-! ## Deposits -/

/-- What an entry's deposit owes to the chain, whatever read seeded it.  The
clauses say nothing while a top-up that the entry takes in is still ahead of the
cursor. -/
structure Deposits (H : History) (q : Bytes32) (n j ent : Nat) (e : PoolEntry) : Prop where
  opened : e.snapshot = none → H.deposit q j = H.deposit q n → e.deposit = H.deposit q n
  /-- A read that misses no folded block misses no top-up folded into the entry. -/
  folded : ∀ s, e.snapshot = some s → ∀ b, s.foldedThrough ≤ b →
    (H.account q (H.upTo b)).pool.owner ≠ 0 →
    H.deposit q j ≤ H.deposit q (max ent (H.upTo b))
  anchored : ∀ s a, e.snapshot = some s → s.anchor = some a →
    H.deposit q (max ent (H.upTo a)) < H.deposit q n → H.deposit q j = H.deposit q n →
    e.deposit = H.deposit q n

/-- A log that moves no deposit at the cursor moves none at the frontier. -/
theorem frontier_deposit (hjn : j ≤ n) (hsame : H.deposit q (j + 1) = H.deposit q j) :
    H.deposit q (max n (j + 1)) = H.deposit q n := by
  rcases Nat.eq_or_lt_of_le hjn with rfl | hlt
  · rw [max_eq_right (Nat.le_succ j), hsame]
  · rw [max_eq_left hlt]

/-- A log that moves no deposit keeps the clauses. -/
theorem Deposits.quiet (h : Deposits H q n j ent e) (hquiet : Quiet e e') (hjn : j ≤ n)
    (hsame : H.deposit q (j + 1) = H.deposit q j) :
    Deposits H q (max n (j + 1)) (j + 1) ent e' := by
  have hfront := frontier_deposit hjn hsame
  constructor
  · rw [hfront, hsame, hquiet.deposit]
    exact fun hs => h.opened (hquiet.opened hs)
  · intro s' hs' b hb howner
    rcases hquiet.snapshot s' hs' with ⟨s, hs, -, -, hfolded⟩
    rw [hsame]
    exact h.folded s hs b (Nat.le_trans hfolded hb) howner
  · intro s' a hs' ha
    rcases hquiet.snapshot s' hs' with ⟨s, hs, hanchor, -, -⟩
    rw [hfront, hsame, hquiet.deposit]
    exact h.anchored s a hs (hanchor ▸ ha)

/-- A top-up of the pool establishes the clauses. -/
theorem Deposits.of_topUp (hl : H.logs[j]? = some l)
    {additional newDeposit : Nat} (hevent : l.event = .poolToppedUp q additional newDeposit) :
    Deposits H q (max n (j + 1)) (j + 1) ent
      (e.topUp (U64.ofNatSaturating newDeposit) (some l.block)) := by
  rcases topUp_log hl hevent with ⟨hnew, -, -⟩
  have hsnap := (topUp_frame e (U64.ofNatSaturating newDeposit) l.block).2.2.2.2.2
  constructor
  · intro hs heq
    rw [hsnap, Option.map_eq_none_iff] at hs
    rw [topUp_deposit_opened _ hs, hnew, heq]
  · intro s' hs' b hb howner
    rw [hsnap, Option.map_eq_some_iff] at hs'
    rcases hs' with ⟨s, hs, rfl⟩
    have hblock : l.block ≤ b := Nat.le_trans (le_max_right _ _) hb
    have hcount : j < H.upTo b := (History.lt_upTo_iff hl).mpr hblock
    exact History.deposit_le (Nat.le_trans hcount (le_max_right _ _))
  · intro s' a hs' ha hlt heq
    rw [hsnap, Option.map_eq_some_iff] at hs'
    rcases hs' with ⟨s, hs, rfl⟩
    have ha' : s.anchor = some a := ha
    rw [topUp_deposit_anchored _ hs ha']
    split
    · -- The read counts the top-up, so the cursor is still below the read.
      rename_i hcovered
      have hcount : j < H.upTo a := (History.lt_upTo_iff hl).mpr hcovered
      have hle : H.deposit q (j + 1) ≤ H.deposit q (max ent (H.upTo a)) :=
        History.deposit_le (Nat.le_trans hcount (le_max_right _ _))
      omega
    · rw [hnew, heq]

/-- Moving the cursor back keeps the clauses. -/
theorem Deposits.rewind (h : Deposits H q n j ent e) (hkj : k ≤ j) (hjn : j ≤ n) :
    Deposits H q n k ent e := by
  have hlow : H.deposit q k ≤ H.deposit q j := History.deposit_le hkj
  have hhigh : H.deposit q j ≤ H.deposit q n := History.deposit_le hjn
  constructor
  · intro hs heq
    exact h.opened hs (by omega)
  · intro s hs b hb howner
    exact Nat.le_trans hlow (h.folded s hs b hb howner)
  · intro s a hs ha hlt heq
    exact h.anchored s a hs ha hlt (by omega)

/-! ## Absorbed logs -/

/-- Folding `l` again would move nothing in the entry but its deposit. -/
def Absorbed (e : PoolEntry) (l : Log) : Prop :=
  match l.event with
  | .poolOpened _ owner _ => e.owner = owner
  | .poolToppedUp _ _ newDeposit => ∀ s, e.snapshot = some s →
    l.block ≤ s.foldedThrough ∧ (s.anchor = none → U64.ofNatSaturating newDeposit ≤ e.deposit)
  | .poolRedeemed _ provider lanes =>
    (∀ s, e.snapshot = some s → l.block ≤ s.foldedThrough) ∧
      ∀ lane ∈ lanes, lane.newPaidCumulative ≤ e.laneTotal lane.signer provider
  | .poolCloseInitiated _ _ deadline => e.lifecycle = .closing (U64.ofNatSaturating deadline)
  | .poolReclaimed _ _ _ => False
  | .disputeWindowUpdated _ _ => True
  | .rateBoundsUpdated _ => True
  | .minDepositUpdated _ _ => True

/-- A log stays absorbed while the lanes and the folded block rise. -/
theorem Absorbed.mono (h : Absorbed e l) (howner : e'.owner = e.owner)
    (hlanes : ∀ signer provider, e.laneTotal signer provider ≤ e'.laneTotal signer provider)
    (hfolded : ∀ s', e'.snapshot = some s' → ∃ s, e.snapshot = some s ∧
      s.foldedThrough ≤ s'.foldedThrough ∧
      (s'.anchor = none → s.anchor = none ∧ e.deposit ≤ e'.deposit))
    (hlife : ∀ id owner deadline, l.event = .poolCloseInitiated id owner deadline →
      e.lifecycle = .closing (U64.ofNatSaturating deadline) →
      e'.lifecycle = .closing (U64.ofNatSaturating deadline)) :
    Absorbed e' l := by
  unfold Absorbed at h ⊢
  cases hevent : l.event with
  | poolOpened id owner deposit =>
    rw [hevent] at h
    exact howner.trans h
  | poolToppedUp id additional newDeposit =>
    rw [hevent] at h
    intro s' hs'
    rcases hfolded s' hs' with ⟨s, hs, hle, hanchor⟩
    rcases h s hs with ⟨hblock, hraise⟩
    refine ⟨Nat.le_trans hblock hle, fun hnone => ?_⟩
    exact Nat.le_trans (hraise (hanchor hnone).1) (hanchor hnone).2
  | poolRedeemed id provider lanes =>
    rw [hevent] at h
    refine ⟨?_, fun lane hlane => Nat.le_trans (h.2 lane hlane) (hlanes _ _)⟩
    intro s' hs'
    rcases hfolded s' hs' with ⟨s, hs, hle, -⟩
    exact Nat.le_trans (h.1 s hs) hle
  | poolCloseInitiated id owner deadline =>
    rw [hevent] at h
    exact hlife id owner deadline hevent h
  | poolReclaimed id owner refund =>
    rw [hevent] at h
    exact h
  | disputeWindowUpdated old new => trivial
  | rateBoundsUpdated new => trivial
  | minDepositUpdated old new => trivial

/-- A quiet change keeps every absorbed log but a close. -/
theorem Absorbed.quiet (h : Absorbed e l) (hquiet : Quiet e e')
    (hlife : ∀ id owner deadline, l.event = .poolCloseInitiated id owner deadline →
      e.lifecycle = .closing (U64.ofNatSaturating deadline) →
      e'.lifecycle = .closing (U64.ofNatSaturating deadline)) :
    Absorbed e' l := by
  refine h.mono hquiet.owner hquiet.lanes ?_ hlife
  intro s' hs'
  rcases hquiet.snapshot s' hs' with ⟨s, hs, hanchor, -, hfolded⟩
  exact ⟨s, hs, hfolded, fun hnone => ⟨hanchor ▸ hnone, Nat.le_of_eq hquiet.deposit.symm⟩⟩

/-! ## Tracked entries -/

/-- An entry of the projection against the chain: `n` logs have been folded, the
cursor is at `j`, the entry entered at `ent`, and a read at block `seed` seeded it
if it has a snapshot. -/
structure Tracked (H : History) (q : Bytes32) (n j ent seed : Nat) (e : PoolEntry) : Prop where
  counts : Counts (H.account q j) (H.account q n) (H.account q (H.upTo (e.readBlock seed))) e
  read : ∀ s, e.snapshot = some s →
    (H.account q (H.upTo (e.readBlock seed))).pool.owner ≠ 0 ∧
      s.redeemed = (H.account q (H.upTo (e.readBlock seed))).pool.totalRedeemed
  deposits : Deposits H q n j ent e
  absorbed : ∀ i l, ent ≤ i → i < j → H.logs[i]? = some l → eventPool l.event = some q →
    Absorbed e l

/-- The clauses of a snapshot's read survive a quiet change. -/
theorem Tracked.read_quiet (h : Tracked H q n j ent seed e) (hquiet : Quiet e e') :
    ∀ s, e'.snapshot = some s →
      (H.account q (H.upTo (e'.readBlock seed))).pool.owner ≠ 0 ∧
        s.redeemed = (H.account q (H.upTo (e'.readBlock seed))).pool.totalRedeemed := by
  intro s' hs'
  rcases hquiet.snapshot s' hs' with ⟨s, hs, -, hredeemed, -⟩
  rw [hquiet.readBlock, hredeemed]
  exact h.read s hs

/-- A log of another pool. -/
theorem Tracked.skip (h : Tracked H q n j ent seed e) (hjn : j ≤ n)
    (hl : H.logs[j]? = some l) (hq : eventPool l.event ≠ some q) :
    Tracked H q (max n (j + 1)) (j + 1) ent seed e := by
  have hsame := History.account_other hl hq
  have hdeposit : H.deposit q (j + 1) = H.deposit q j := by
    unfold History.deposit
    rw [hsame]
  refine ⟨?_, h.read, h.deposits.quiet (Quiet.refl e) hjn hdeposit, ?_⟩
  · rw [hsame]
    exact h.counts.widen (fun _ _ => Nat.le_refl _) (History.later (le_max_left _ _)).paid
  · intro i l' hi hij hl' hq'
    rcases Nat.lt_succ_iff_lt_or_eq.mp hij with hlt | rfl
    · exact h.absorbed i l' hi hlt hl' hq'
    · rw [hl] at hl'
      cases hl'
      exact absurd hq' hq

/-- The pool's opening, for an entry seeded ahead of it or folded from it before. -/
theorem Tracked.opened (h : Tracked H q n j ent seed e) (hl : H.logs[j]? = some l)
    {owner : Address} {deposit : Nat} (hevent : l.event = .poolOpened q owner deposit) :
    Tracked H q (max n (j + 1)) (j + 1) ent seed
      { e with
        owner := owner
        deposit := if e.snapshot.isNone then U64.ofNatSaturating deposit else e.deposit } := by
  have hq : eventPool l.event = some q := by rw [hevent]; rfl
  have hadmits := H.admitted j q l hl hq
  have hafter := History.account_own hl hq
  rw [hevent] at hadmits hafter
  rcases hadmits with ⟨hzero, -, -, hmax⟩
  have hzero : (H.account q j).pool.owner = 0 := hzero
  have hpaid : (H.account q (j + 1)).paid = (H.account q j).paid := by
    rw [hafter]
    rfl
  have hdeposit : H.deposit q (j + 1) = deposit := by
    unfold History.deposit
    rw [hafter]
    rfl
  have hread : ∀ b, (H.account q (H.upTo b)).pool.owner ≠ 0 → j + 1 ≤ H.upTo b :=
    fun b hb => History.lt_of_owner hzero hb
  refine ⟨?_, h.read, ⟨?_, ?_, ?_⟩, ?_⟩
  · have hwide : Counts (H.account q (j + 1)) (H.account q (max n (j + 1))) _ e :=
      h.counts.widen (fun _ _ => by rw [hpaid]) (History.later (le_max_left _ _)).paid
    exact ⟨hwide.lanes, hwide.total, hwide.spent, hwide.opened, hwide.since⟩
  · intro hs heq
    have hs' : e.snapshot = none := hs
    simp only [hs', Option.isNone_none, if_true]
    rw [U64.ofNatSaturating_eq hmax, ← heq, hdeposit]
  · intro s hs b hb howner
    exact History.deposit_le (Nat.le_trans (hread b howner) (le_max_right _ _))
  · intro s a hs ha hlt heq
    have hblock : e.readBlock seed = a := by
      have hs' : e.snapshot = some s := hs
      simp [PoolEntry.readBlock, hs', ha]
    have howner := (h.read s hs).1
    rw [hblock] at howner
    have hle : H.deposit q (j + 1) ≤ H.deposit q (max ent (H.upTo a)) :=
      History.deposit_le (Nat.le_trans (hread a howner) (le_max_right _ _))
    omega
  · intro i l' hi hij hl' hq'
    rcases Nat.lt_succ_iff_lt_or_eq.mp hij with hlt | rfl
    · exact absurd hzero (History.owner_of_log hl' hq' hlt)
    · rw [hl] at hl'
      cases hl'
      unfold Absorbed
      rw [hevent]

/-- A top-up of the pool. -/
theorem Tracked.toppedUp (h : Tracked H q n j ent seed e) (hl : H.logs[j]? = some l)
    {additional newDeposit : Nat} (hevent : l.event = .poolToppedUp q additional newDeposit) :
    Tracked H q (max n (j + 1)) (j + 1) ent seed
      (e.topUp (U64.ofNatSaturating newDeposit) (some l.block)) := by
  have hq : eventPool l.event = some q := by rw [hevent]; rfl
  have hafter := History.account_own hl hq
  rw [hevent] at hafter
  have hpaid : (H.account q (j + 1)).paid = (H.account q j).paid := by
    rw [hafter]
    rfl
  set e' := e.topUp (U64.ofNatSaturating newDeposit) (some l.block)
  rcases topUp_frame e (U64.ofNatSaturating newDeposit) l.block with
    ⟨howner, hlanes, htotal, hspent, hlife, hsnap⟩
  have hlaneTotal : e'.laneTotal = e.laneTotal := by
    unfold PoolEntry.laneTotal
    rw [hlanes]
  have hblock : e'.readBlock seed = e.readBlock seed := by
    unfold PoolEntry.readBlock
    rw [hsnap]
    cases e.snapshot <;> rfl
  refine ⟨?_, ?_, Deposits.of_topUp hl hevent, ?_⟩
  · have hwide : Counts (H.account q (j + 1)) (H.account q (max n (j + 1))) _ e :=
      h.counts.widen (fun _ _ => by rw [hpaid]) (History.later (le_max_left _ _)).paid
    rw [hblock]
    refine ⟨?_, ?_, ?_, ?_, ?_⟩
    · rw [hlanes]
      exact hwide.lanes
    · rw [htotal, hlaneTotal]
      exact hwide.total
    · rw [hspent, hlaneTotal]
      exact hwide.spent
    · intro hs
      rw [hsnap, Option.map_eq_none_iff] at hs
      rw [hlaneTotal]
      exact hwide.opened hs
    · intro s' hs'
      rw [hsnap, Option.map_eq_some_iff] at hs'
      rcases hs' with ⟨s, hs, rfl⟩
      rw [hlaneTotal]
      exact hwide.since s hs
  · intro s' hs'
    rw [hsnap, Option.map_eq_some_iff] at hs'
    rcases hs' with ⟨s, hs, rfl⟩
    rw [hblock]
    exact h.read s hs
  · intro i l' hi hij hl' hq'
    rcases Nat.lt_succ_iff_lt_or_eq.mp hij with hlt | rfl
    · refine (h.absorbed i l' hi hlt hl' hq').mono howner
        (fun signer provider => by rw [hlaneTotal]) ?_ (fun _ _ _ _ hold => hlife.trans hold)
      intro s' hs'
      rw [hsnap, Option.map_eq_some_iff] at hs'
      rcases hs' with ⟨s, hs, rfl⟩
      refine ⟨s, hs, le_max_left _ _, fun hnone => ⟨hnone, ?_⟩⟩
      rw [topUp_deposit_seeded _ hs hnone]
      exact le_max_left _ _
    · rw [hl] at hl'
      cases hl'
      unfold Absorbed
      rw [hevent]
      intro s' hs'
      rw [hsnap, Option.map_eq_some_iff] at hs'
      rcases hs' with ⟨s, hs, rfl⟩
      refine ⟨le_max_right _ _, fun hnone => ?_⟩
      rw [topUp_deposit_seeded _ hs hnone]
      exact le_max_right _ _

/-- A redemption from the pool. -/
theorem Tracked.redeemed (h : Tracked H q n j ent seed e) (hjn : j ≤ n)
    (hl : H.logs[j]? = some l) {provider : Address} {lanes : List LaneSettled}
    (hevent : l.event = .poolRedeemed q provider lanes) :
    Tracked H q (max n (j + 1)) (j + 1) ent seed (e.redeem provider lanes (some l.block)) := by
  have hq : eventPool l.event = some q := by rw [hevent]; rfl
  have hadmits := H.admitted j q l hl hq
  have hafter := History.account_own hl hq
  rw [hevent] at hadmits hafter
  rcases hadmits with ⟨-, -, hsettles, -⟩
  have hquiet := redeem_quiet provider lanes l.block e
  have hsame : H.deposit q (j + 1) = H.deposit q j := by
    unfold History.deposit
    rw [hafter]
    exact (Account.redeem_facts hsettles).1.deposit
  have hlater : Account.Later (H.account q (j + 1)) (H.account q (max n (j + 1))) :=
    History.later (le_max_right _ _)
  refine ⟨?_, h.read_quiet hquiet, h.deposits.quiet hquiet hjn hsame, ?_⟩
  · rw [hquiet.readBlock, hafter]
    rw [hafter] at hlater
    have hstart : Counts (H.account q j) (H.account q (max n (j + 1)))
        (H.account q (H.upTo (e.readBlock seed)))
        { e with snapshot := e.snapshot.map fun s => s.foldBlock (some l.block) } := by
      have hwide : Counts (H.account q j) (H.account q (max n (j + 1))) _ e :=
        h.counts.widen (fun _ _ => Nat.le_refl _) (History.later (le_max_left _ _)).paid
      refine ⟨hwide.lanes, hwide.total, hwide.spent, fun hs => hwide.opened (by simpa using hs), ?_⟩
      intro s' hs'
      rcases Option.map_eq_some_iff.mp hs' with ⟨s, hs, rfl⟩
      exact hwide.since s hs
    refine hstart.redeem (History.sound _) hsettles hlater ?_
    -- A redemption the read does not count is mined above it.
    intro s' hs' hcovers hanchor
    rcases Option.map_eq_some_iff.mp hs' with ⟨s, hs, rfl⟩
    rcases Option.isSome_iff_exists.mp hanchor with ⟨a, ha⟩
    have ha' : s.anchor = some a := ha
    have habove : ¬ l.block ≤ a := by
      simpa [Snapshot.covers, Snapshot.foldBlock, ha'] using hcovers
    have hblock : e.readBlock seed = a := by simp [PoolEntry.readBlock, hs, ha']
    have hle : H.upTo a ≤ j :=
      Nat.le_of_not_lt fun hlt => habove ((History.lt_upTo_iff hl).mp hlt)
    rw [hblock]
    exact (History.later hle).paid
  · intro i l' hi hij hl' hq'
    have hlife := (settleLanes_quiet provider (some l.block) lanes
      { e with snapshot := e.snapshot.map fun s => s.foldBlock (some l.block) }).2
    rcases Nat.lt_succ_iff_lt_or_eq.mp hij with hlt | rfl
    · exact (h.absorbed i l' hi hlt hl' hq').quiet hquiet
        (fun _ _ _ _ hold => hlife.1.trans hold)
    · rw [hl] at hl'
      cases hl'
      unfold Absorbed
      rw [hevent]
      exact ⟨fun s hs => redeem_folded hs, hlife.2⟩

/-- The pool's close. -/
theorem Tracked.closing (h : Tracked H q n j ent seed e) (hjn : j ≤ n)
    (hl : H.logs[j]? = some l) {owner : Address} {deadline : Nat}
    (hevent : l.event = .poolCloseInitiated q owner deadline) :
    Tracked H q (max n (j + 1)) (j + 1) ent seed
      { e with lifecycle := .closing (U64.ofNatSaturating deadline) } := by
  have hq : eventPool l.event = some q := by rw [hevent]; rfl
  have hadmits := H.admitted j q l hl hq
  have hafter := History.account_own hl hq
  rw [hevent] at hadmits hafter
  rcases hadmits with ⟨-, hopened, -⟩
  have hopened : (H.account q j).pool.status = .opened := hopened
  have hquiet : Quiet e { e with lifecycle := .closing (U64.ofNatSaturating deadline) } :=
    ⟨rfl, rfl, fun _ _ => Nat.le_refl _, id, fun s' hs => ⟨s', hs, rfl, rfl, Nat.le_refl _⟩⟩
  have hpaid : (H.account q (j + 1)).paid = (H.account q j).paid := by
    rw [hafter]
    rfl
  have hsame : H.deposit q (j + 1) = H.deposit q j := by
    unfold History.deposit
    rw [hafter]
    rfl
  refine ⟨?_, h.read_quiet hquiet, h.deposits.quiet hquiet hjn hsame, ?_⟩
  · have hwide : Counts (H.account q (j + 1)) (H.account q (max n (j + 1))) _ e :=
      h.counts.widen (fun _ _ => by rw [hpaid]) (History.later (le_max_left _ _)).paid
    exact ⟨hwide.lanes, hwide.total, hwide.spent, hwide.opened, hwide.since⟩
  · intro i l' hi hij hl' hq'
    rcases Nat.lt_succ_iff_lt_or_eq.mp hij with hlt | rfl
    · refine (h.absorbed i l' hi hlt hl' hq').quiet hquiet ?_
      -- A pool closes once, so no earlier log is a close.
      intro id owner' deadline' hevent' _
      have hclosed := History.account_own hl' hq'
      rw [hevent'] at hclosed
      have hstatus : (H.account q (i + 1)).pool.status = .closing := by
        rw [hclosed]
        rfl
      exact absurd hopened ((History.later hlt).closing hstatus).1
    · rw [hl] at hl'
      cases hl'
      unfold Absorbed
      rw [hevent]

/-- An entry about to be created by the pool's opening. -/
theorem tracked_blank (hzero : (H.account q j).pool.owner = 0)
    (hsame : H.deposit q j = H.deposit q n → H.deposit q n = 0) :
    Tracked H q n j ent seed {} := by
  have hblank : H.account q j = {} := (History.sound j).blank hzero
  refine ⟨⟨?_, ?_, ?_, ?_, ?_⟩, ?_, ⟨?_, ?_, ?_⟩, ?_⟩
  · intro _ _ _ hv
    cases hv
  · simp [PoolEntry.laneTotal]
  · simp [PoolEntry.laneTotal]
  · intro _ signer provider
    rw [hblank]
    exact Nat.zero_le _
  · intro _ hs
    cases hs
  · intro _ hs
    cases hs
  · exact fun _ heq => (hsame heq).symm
  · intro _ hs
    cases hs
  · intro _ _ hs
    cases hs
  · intro i l _ hij hl hq
    exact absurd hzero (History.owner_of_log hl hq hij)

/-- Moving the cursor back keeps an entry tracked. -/
theorem Tracked.rewind (h : Tracked H q n j ent seed e) (hkj : k ≤ j) (hjn : j ≤ n) :
    Tracked H q n k ent seed e where
  counts := h.counts.widen (History.later hkj).paid (fun _ _ => Nat.le_refl _)
  read := h.read
  deposits := h.deposits.rewind hkj hjn
  absorbed i l hi hik := h.absorbed i l hi (Nat.lt_of_lt_of_le hik hkj)

/-! ## Taking a read -/

variable {owner : Address} {read : PoolRead}

/-- A pool seeded from a read. -/
theorem Tracked.of_read (hread : H.readAt q block = some (owner, read)) :
    Tracked H q n j j block
      { owner := owner
        deposit := read.deposit
        lifecycle := read.lifecycle
        snapshot := some
          { redeemed := read.totalRedeemed
            anchor := none
            since := 0
            stale := false
            foldedThrough := 0 } } := by
  rcases History.readAt_eq_some hread with ⟨-, howner, hne, -, hredeemed, -⟩
  refine ⟨⟨?_, ?_, ?_, ?_, ?_⟩, ?_, ⟨?_, ?_, ?_⟩, ?_⟩
  · intro _ _ _ hv
    cases hv
  · simp [PoolEntry.laneTotal]
  · simp [PoolEntry.laneTotal]
  · intro hs
    cases hs
  · intro s hs
    cases hs
    exact Nat.zero_le _
  · intro s hs
    cases hs
    exact ⟨howner ▸ hne, hredeemed⟩
  · intro hs
    cases hs
  · intro s _ b _ _
    exact History.deposit_le (le_max_left _ _)
  · intro s a hs ha
    cases hs
    cases ha
  · intro i l hi hij
    exact absurd hij (Nat.not_lt.mpr hi)

/-- An accepted read misses no folded block. -/
theorem staleReason_none {s : Snapshot} (h : e.staleReason s block read = none) :
    s.foldedThrough ≤ block ∧ e.redeemed ≤ read.totalRedeemed ∧ e.deposit ≤ read.deposit := by
  unfold PoolEntry.staleReason at h
  split at h
  · cases h
  · split at h
    · cases h
    · split at h
      · cases h
      · omega

/-- A seeded pool anchored at a read that is not behind it. -/
theorem Tracked.anchor (h : Tracked H q n j ent seed e) {s : Snapshot}
    (hread : H.readAt q block = some (owner, read)) (hs : e.snapshot = some s)
    (hfresh : e.staleReason s block read = none) :
    Tracked H q n j ent seed (e.anchored s block read) := by
  rcases History.readAt_eq_some hread with ⟨-, howner, hne, hdeposit, hredeemed, hlife⟩
  have hfolded := (staleReason_none hfresh).1
  rw [howner] at hne
  refine ⟨⟨h.counts.lanes, h.counts.total, h.counts.spent, ?_, ?_⟩, ?_, ⟨?_, ?_, ?_⟩, ?_⟩
  · exact fun hnone => nomatch hnone
  · intro s' hs'
    cases hs'
    exact Nat.zero_le _
  · intro s' hs'
    cases hs'
    exact ⟨hne, hredeemed⟩
  · exact fun hnone => nomatch hnone
  · intro s' hs' b hb
    cases hs'
    exact h.deposits.folded s hs b hb
  · -- A top-up folded above the new anchor would have made the read too old.
    intro s' a hs' ha hlt heq
    cases hs'
    cases ha
    have hle := h.deposits.folded s hs block hfolded hne
    omega
  · intro i l hi hij hl hq
    refine (h.absorbed i l hi hij hl hq).mono rfl (fun _ _ => Nat.le_refl _) ?_ ?_
    · intro s' hs'
      cases hs'
      exact ⟨s, hs, Nat.le_refl _, fun hnone => nomatch hnone⟩
    · intro id owner' deadline hevent hold
      simp only [PoolEntry.anchored]
      cases hkind : read.lifecycle with
      | opened => exact hold
      | closing d =>
        rcases hlife d hkind with ⟨hstatus, hdeadline⟩
        have hadmits := H.admitted i q l hl hq
        have hafter := History.account_own hl hq
        rw [hevent] at hadmits hafter
        rcases hadmits with ⟨-, hopened, hmax⟩
        have hclosing : (H.account q (i + 1)).pool.status = .closing := by
          rw [hafter]
          rfl
        have hset : (H.account q (i + 1)).pool.disputeDeadline = deadline := by
          rw [hafter]
          rfl
        rcases Nat.lt_or_ge i (H.upTo block) with hbelow | habove
        · have hkept := ((History.later hbelow).closing hclosing).2
          rw [U64.ofNatSaturating_eq hmax]
          exact congrArg Lifecycle.closing (hdeadline.symm.trans (hkept.trans hset))
        · exact absurd hopened ((History.later habove).closing hstatus).1

/-! ## Following a pool -/

/-- The entry of a pool, or the reason it has none: a pool that opened after the
projection last took it up was folded, so it is gone only once it is closed. -/
def Follows (H : History) (q : Bytes32) (n j ent seed : Nat) : Option PoolEntry → Prop
  | none => (H.account q ent).pool.owner = 0 → (H.account q j).pool.owner ≠ 0 →
    (H.account q n).pool.status = .closed
  | some e => Tracked H q n j ent seed e

/-- Folding the next log keeps following the pool.  When the log itself brings the
pool in or takes it out, it does not matter when the pool had entered before. -/
theorem Follows.fold {pools : PoolProjection} {ent' : Nat}
    (h : Follows H q n j ent seed (pools q)) (hjn : j ≤ n) (hl : H.logs[j]? = some l)
    (hent : (handleLog pools (some l.block) l.event q).isSome = (pools q).isSome → ent' = ent) :
    Follows H q (max n (j + 1)) (j + 1) ent' seed
      (handleLog pools (some l.block) l.event q) := by
  have hclosedLater : (H.account q n).pool.status = .closed →
      (H.account q (max n (j + 1))).pool.status = .closed :=
    fun hc => ((History.later (le_max_left _ _)).closed hc).1
  by_cases hq : eventPool l.event = some q
  · rw [handleLog_own pools hq] at hent ⊢
    have hadmits := H.admitted j q l hl hq
    have hafter := History.account_own hl hq
    -- An absent pool past its opening stays absent.
    have habsent : pools q = none → ent' = ent → (H.account q j).pool.owner ≠ 0 →
        Follows H q (max n (j + 1)) (j + 1) ent' seed none := by
      intro hnone hsame hne hzero _
      rw [hnone] at h
      exact hclosedLater (h (hsame ▸ hzero) hne)
    cases hevent : l.event with
    | poolOpened id owner deposit =>
      rw [hevent] at hadmits hq hent
      cases hq
      have hzero : (H.account q j).pool.owner = 0 := hadmits.1
      cases hentry : pools q with
      | none =>
        have hblank : H.deposit q j = 0 := by
          unfold History.deposit
          rw [(History.sound j).blank hzero]
        exact (tracked_blank hzero fun heq => heq.symm.trans hblank).opened hl hevent
      | some e =>
        rw [hentry] at h hent
        rw [hent rfl]
        exact Tracked.opened h hl hevent
    | poolToppedUp id additional newDeposit =>
      rw [hevent] at hadmits hq hent
      cases hq
      cases hentry : pools q with
      | none => exact habsent hentry (hent (by rw [hentry]; rfl)) hadmits.1
      | some e =>
        rw [hentry] at h hent
        rw [hent rfl]
        exact Tracked.toppedUp h hl hevent
    | poolRedeemed id provider lanes =>
      rw [hevent] at hadmits hq hent
      cases hq
      cases hentry : pools q with
      | none => exact habsent hentry (hent (by rw [hentry]; rfl)) hadmits.1
      | some e =>
        rw [hentry] at h hent
        rw [hent rfl]
        exact Tracked.redeemed h hjn hl hevent
    | poolCloseInitiated id owner deadline =>
      rw [hevent] at hadmits hq hent
      cases hq
      cases hentry : pools q with
      | none => exact habsent hentry (hent (by rw [hentry]; rfl)) hadmits.1
      | some e =>
        rw [hentry] at h hent
        rw [hent rfl]
        exact Tracked.closing h hjn hl hevent
    | poolReclaimed id owner refund =>
      intro _ _
      rw [hevent] at hafter
      have hclosed : (H.account q (j + 1)).pool.status = .closed := by
        rw [hafter]
        rfl
      exact ((History.later (le_max_right _ _)).closed hclosed).1
    | disputeWindowUpdated old new =>
      rw [hevent] at hq
      cases hq
    | rateBoundsUpdated new =>
      rw [hevent] at hq
      cases hq
    | minDepositUpdated old new =>
      rw [hevent] at hq
      cases hq
  · rw [handleLog_other pools hq] at hent ⊢
    rw [hent rfl]
    cases hentry : pools q with
    | none =>
      rw [hentry] at h
      intro hent hne
      rw [History.account_other hl hq] at hne
      exact hclosedLater (h hent hne)
    | some e =>
      rw [hentry] at h
      exact Tracked.skip h hjn hl hq

/-- Moving the cursor back keeps following the pool. -/
theorem Follows.rewind {o : Option PoolEntry} (h : Follows H q n j ent seed o) (hkj : k ≤ j)
    (hjn : j ≤ n) : Follows H q n k ent seed o := by
  cases o with
  | none =>
    intro hent hne
    refine h hent fun hzero => hne ?_
    by_contra hk
    exact hk ((History.later hkj).owner hk ▸ hzero)
  | some e => exact Tracked.rewind h hkj hjn

/-! ## Funding -/

/-- The deposit of a seeded entry whose seeding read was not behind the fold. -/
structure Funded (H : History) (q : Bytes32) (n j seed : Nat) (e : PoolEntry) : Prop where
  seeded : ∀ s, e.snapshot = some s → s.anchor = none →
    e.deposit = H.deposit q (max n (H.upTo seed))
  floor : ∀ s a, e.snapshot = some s → s.anchor = some a → H.deposit q (H.upTo a) ≤ e.deposit
  /-- A read that misses no folded block misses no top-up folded at all. -/
  folded : ∀ s a, e.snapshot = some s → s.anchor = some a → ∀ b, s.foldedThrough ≤ b →
    H.deposit q n ≤ H.deposit q (max (H.upTo a) (H.upTo b))
  anchored : ∀ s a, e.snapshot = some s → s.anchor = some a →
    H.deposit q (max j (H.upTo a)) = H.deposit q (max n (H.upTo a)) →
    e.deposit = H.deposit q (max n (H.upTo a))

/-- A log that moves no deposit past the entry's last read. -/
theorem Funded.quiet (h : Funded H q n j seed e) (hjn : j ≤ n)
    (hdeposit : e.snapshot ≠ none → e'.deposit = e.deposit)
    (hsnap : ∀ s', e'.snapshot = some s' → ∃ s, e.snapshot = some s ∧ s'.anchor = s.anchor ∧
      s.foldedThrough ≤ s'.foldedThrough)
    (hsame : e.snapshot ≠ none → H.deposit q (j + 1) = H.deposit q j ∨
      H.deposit q (j + 1) ≤ H.deposit q (H.upTo (e.readBlock seed))) :
    Funded H q (max n (j + 1)) (j + 1) seed e' := by
  have hjn' : H.deposit q j ≤ H.deposit q n := History.deposit_le hjn
  constructor
  · intro s' hs' ha'
    rcases hsnap s' hs' with ⟨s, hs, ha, -⟩
    have hblock : e.readBlock seed = seed := by simp [PoolEntry.readBlock, hs, ← ha, ha']
    have hsame := hsame (by simp [hs])
    have hold := h.seeded s hs (ha.symm.trans ha')
    rw [hdeposit (by simp [hs]), hold]
    rw [hblock] at hsame
    simp only [History.deposit_max]
    omega
  · intro s' a hs' ha'
    rcases hsnap s' hs' with ⟨s, hs, ha, -⟩
    rw [hdeposit (by simp [hs])]
    exact h.floor s a hs (ha.symm.trans ha')
  · intro s' a hs' ha' b hb
    rcases hsnap s' hs' with ⟨s, hs, ha, hfolded⟩
    have hblock : e.readBlock seed = a := by simp [PoolEntry.readBlock, hs, ← ha, ha']
    have hsame := hsame (by simp [hs])
    have hold := h.folded s a hs (ha.symm.trans ha') b (Nat.le_trans hfolded hb)
    rw [hblock] at hsame
    simp only [History.deposit_max] at hold ⊢
    omega
  · intro s' a hs' ha' heq
    rcases hsnap s' hs' with ⟨s, hs, ha, -⟩
    have hblock : e.readBlock seed = a := by simp [PoolEntry.readBlock, hs, ← ha, ha']
    have hsame := hsame (by simp [hs])
    have hold := h.anchored s a hs (ha.symm.trans ha')
    rw [hdeposit (by simp [hs])]
    rw [hblock] at hsame
    simp only [History.deposit_max] at hold heq ⊢
    omega

/-- A top-up keeps a seeded pool funded. -/
theorem Funded.toppedUp (h : Funded H q n j seed e) (hjn : j ≤ n) (hl : H.logs[j]? = some l)
    {additional newDeposit : Nat} (hevent : l.event = .poolToppedUp q additional newDeposit) :
    Funded H q (max n (j + 1)) (j + 1) seed
      (e.topUp (U64.ofNatSaturating newDeposit) (some l.block)) := by
  rcases topUp_log hl hevent with ⟨hnew, hrise, -⟩
  have hjn' : H.deposit q j ≤ H.deposit q n := History.deposit_le hjn
  have hsnap := (topUp_frame e (U64.ofNatSaturating newDeposit) l.block).2.2.2.2.2
  constructor
  · intro s' hs' ha'
    rw [hsnap, Option.map_eq_some_iff] at hs'
    rcases hs' with ⟨s, hs, rfl⟩
    have hold := h.seeded s hs ha'
    rw [topUp_deposit_seeded _ hs ha', hnew, hold]
    simp only [History.deposit_max]
    omega
  · intro s' a hs' ha'
    rw [hsnap, Option.map_eq_some_iff] at hs'
    rcases hs' with ⟨s, hs, rfl⟩
    have hold := h.floor s a hs ha'
    rw [topUp_deposit_anchored _ hs ha']
    split
    · exact hold
    · rename_i habove
      have hle : H.upTo a ≤ j :=
        Nat.le_of_not_lt fun hlt => habove ((History.lt_upTo_iff hl).mp hlt)
      rw [hnew]
      exact History.deposit_le (Nat.le_succ_of_le hle)
  · intro s' a hs' ha' b hb
    rw [hsnap, Option.map_eq_some_iff] at hs'
    rcases hs' with ⟨s, hs, rfl⟩
    have hold := h.folded s a hs ha' b (Nat.le_trans (le_max_left _ _) hb)
    have hcount : j < H.upTo b :=
      (History.lt_upTo_iff hl).mpr (Nat.le_trans (le_max_right _ _) hb)
    have hread : H.deposit q (j + 1) ≤ H.deposit q (H.upTo b) := History.deposit_le hcount
    simp only [History.deposit_max] at hold ⊢
    omega
  · intro s' a hs' ha' heq
    rw [hsnap, Option.map_eq_some_iff] at hs'
    rcases hs' with ⟨s, hs, rfl⟩
    have hold := h.anchored s a hs ha'
    rw [topUp_deposit_anchored _ hs ha']
    split
    · rename_i hcovered
      have hcount : j < H.upTo a := (History.lt_upTo_iff hl).mpr hcovered
      have hread : H.deposit q (j + 1) ≤ H.deposit q (H.upTo a) := History.deposit_le hcount
      simp only [History.deposit_max] at hold heq ⊢
      omega
    · rename_i habove
      have hle : H.upTo a ≤ j :=
        Nat.le_of_not_lt fun hlt => habove ((History.lt_upTo_iff hl).mp hlt)
      have hread : H.deposit q (H.upTo a) ≤ H.deposit q j := History.deposit_le hle
      rw [hnew]
      simp only [History.deposit_max] at heq ⊢
      omega

/-- Moving the cursor back keeps a seeded pool funded. -/
theorem Funded.rewind (h : Funded H q n j seed e) (hkj : k ≤ j) (hjn : j ≤ n) :
    Funded H q n k seed e := by
  refine ⟨h.seeded, h.floor, h.folded, ?_⟩
  intro s a hs ha heq
  have hlow : H.deposit q k ≤ H.deposit q j := History.deposit_le hkj
  have hhigh : H.deposit q j ≤ H.deposit q n := History.deposit_le hjn
  have hold := h.anchored s a hs ha
  simp only [History.deposit_max] at hold heq ⊢
  omega

/-- An accepted read leaves a seeded pool funded. -/
theorem Funded.anchor (h : Funded H q n j seed e) {s : Snapshot}
    (hread : H.readAt q block = some (owner, read)) (hs : e.snapshot = some s)
    (hfresh : e.staleReason s block read = none) :
    Funded H q n j seed (e.anchored s block read) := by
  have hdeposit : read.deposit = H.deposit q (H.upTo block) :=
    (History.readAt_eq_some hread).2.2.2.1
  rcases staleReason_none hfresh with ⟨hfolded, -, hheld⟩
  -- The read is at least as large as everything folded.
  have hfull : H.deposit q n ≤ H.deposit q (H.upTo block) := by
    cases ha : s.anchor with
    | none =>
      have hold := h.seeded s hs ha
      rw [History.deposit_max] at hold
      omega
    | some a =>
      have hfloor := h.floor s a hs ha
      have hold := h.folded s a hs ha block hfolded
      rw [History.deposit_max] at hold
      omega
  constructor
  · intro s' hs' ha'
    cases hs'
    cases ha'
  · intro s' a hs' ha'
    cases hs'
    cases ha'
    exact Nat.le_of_eq hdeposit.symm
  · intro s' a hs' ha' b _
    cases hs'
    cases ha'
    rw [History.deposit_max]
    omega
  · intro s' a hs' ha' _
    cases hs'
    cases ha'
    rw [History.deposit_max]
    simp only [PoolEntry.anchored]
    omega

/-- Nothing is owed to a pool folded from its opening. -/
theorem funded_of_opened (hs : e.snapshot = none) : Funded H q n j seed e where
  seeded _ hs' := absurd (hs.symm.trans hs') (by simp)
  floor _ _ hs' := absurd (hs.symm.trans hs') (by simp)
  folded _ _ hs' := absurd (hs.symm.trans hs') (by simp)
  anchored _ _ hs' := absurd (hs.symm.trans hs') (by simp)

/-- Folding the next log keeps a seeded pool funded. -/
theorem Funded.fold {pools : PoolProjection} (h : ∀ e, pools q = some e → Funded H q n j seed e)
    (hfollows : Follows H q n j ent seed (pools q)) (hjn : j ≤ n) (hl : H.logs[j]? = some l) :
    ∀ e', handleLog pools (some l.block) l.event q = some e' →
      Funded H q (max n (j + 1)) (j + 1) seed e' := by
  intro e' he'
  by_cases hq : eventPool l.event = some q
  · rw [handleLog_own pools hq] at he'
    have hadmits := H.admitted j q l hl hq
    have hafter := History.account_own hl hq
    cases hentry : pools q with
    | none =>
      -- Only an opening creates an entry, and that entry has no snapshot.
      rw [hentry] at he'
      cases hevent : l.event with
      | poolOpened id owner deposit =>
        rw [hevent] at he'
        cases he'
        exact funded_of_opened rfl
      | poolToppedUp id additional newDeposit => rw [hevent] at he'; cases he'
      | poolRedeemed id provider lanes => rw [hevent] at he'; cases he'
      | poolCloseInitiated id owner deadline => rw [hevent] at he'; cases he'
      | poolReclaimed id owner refund => rw [hevent] at he'; cases he'
      | disputeWindowUpdated old new => rw [hevent] at he'; cases he'
      | rateBoundsUpdated new => rw [hevent] at he'; cases he'
      | minDepositUpdated old new => rw [hevent] at he'; cases he'
    | some e =>
      rw [hentry] at he' hfollows
      have hold := h e hentry
      cases hevent : l.event with
      | poolOpened id owner deposit =>
        rw [hevent] at he' hadmits
        cases he'
        refine hold.quiet hjn ?_ ?_ ?_
        · intro hs
          cases hsnap : e.snapshot with
          | none => exact absurd hsnap hs
          | some s => simp [hsnap]
        · exact fun s' hs' => ⟨s', hs', rfl, Nat.le_refl _⟩
        · intro hs
          rcases Option.ne_none_iff_exists'.mp hs with ⟨s, hs⟩
          have hzero : (H.account q j).pool.owner = 0 := hadmits.1
          exact Or.inr (History.deposit_le
            (History.lt_of_owner hzero (Tracked.read hfollows s hs).1))
      | poolToppedUp id additional newDeposit =>
        rw [hevent] at he' hq
        cases hq
        cases he'
        exact hold.toppedUp hjn hl hevent
      | poolRedeemed id provider lanes =>
        rw [hevent] at he' hadmits hafter
        cases he'
        have hquiet := redeem_quiet provider lanes l.block e
        refine hold.quiet hjn (fun _ => hquiet.deposit) ?_ fun _ => Or.inl ?_
        · intro s' hs'
          rcases hquiet.snapshot s' hs' with ⟨s, hs, ha, -, hfolded⟩
          exact ⟨s, hs, ha, hfolded⟩
        · unfold History.deposit
          rw [hafter]
          exact (Account.redeem_facts hadmits.2.2.1).1.deposit
      | poolCloseInitiated id owner deadline =>
        rw [hevent] at he' hafter
        cases he'
        refine hold.quiet hjn (fun _ => rfl) (fun s' hs' => ⟨s', hs', rfl, Nat.le_refl _⟩)
          fun _ => Or.inl ?_
        unfold History.deposit
        rw [hafter]
        rfl
      | poolReclaimed id owner refund => rw [hevent] at he'; cases he'
      | disputeWindowUpdated old new => rw [hevent] at hq; cases hq
      | rateBoundsUpdated new => rw [hevent] at hq; cases hq
      | minDepositUpdated old new => rw [hevent] at hq; cases hq
  · rw [handleLog_other pools hq] at he'
    refine (h e' he').quiet hjn (fun _ => rfl) (fun s' hs' => ⟨s', hs', rfl, Nat.le_refl _⟩)
      fun _ => Or.inl ?_
    unfold History.deposit
    rw [History.account_other hl hq]

end Decdn.Node.PoolView
