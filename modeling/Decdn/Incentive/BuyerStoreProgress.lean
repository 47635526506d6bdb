import Decdn.Foundations.WireLists
import Decdn.Incentive.BuyerStoreAgreement

/-!
# What a buyer has paid does not fall

The tables of a buyer keep, for each lane, the totals of the last voucher that it signed.  A
total that fell would let it sign below a voucher that the provider holds.  Only a rebase, and
a new record of the pool, put other totals in place of those of a lane.

Main results:

- Theorem `Holds.run_get`: where a row comes from.
- Theorem `progress_never_falls`: over every run, the totals of a lane stay or rise.
-/

namespace Decdn.Incentive.BuyerStore

open BuyerPool

variable {D : Redb} {P : Postcard} {t : BuyerPoolTable D} {m : MemoryBuyerPoolStore}
  {lane : LaneKey}

/-! ## Rising totals -/

/-- Neither total falls. -/
def AtLeast (old new : BuyerLaneProgress) : Prop :=
  old.lastAmount ≤ new.lastAmount ∧ old.lastBytes ≤ new.lastBytes

theorem AtLeast.refl (progress : BuyerLaneProgress) : AtLeast progress progress :=
  ⟨Nat.le_refl _, Nat.le_refl _⟩

theorem AtLeast.trans {a b c : BuyerLaneProgress} (hab : AtLeast a b) (hbc : AtLeast b c) :
    AtLeast a c :=
  ⟨Nat.le_trans hab.1 hbc.1, Nat.le_trans hab.2 hbc.2⟩

/-- A lane stays, and neither its totals nor the deposit fall. -/
structure Rises (lane : LaneKey) (spend next : BuyerPoolState LaneKey) : Prop where
  deposit : spend.deposit ≤ next.deposit
  lane : ∀ old, spend.lanes.get lane = some old →
    ∃ new, next.lanes.get lane = some new ∧ AtLeast old new

theorem Rises.refl (lane : LaneKey) (spend : BuyerPoolState LaneKey) : Rises lane spend spend :=
  ⟨Nat.le_refl _, fun old hold => ⟨old, hold, .refl old⟩⟩

theorem Rises.trans {a b c : BuyerPoolState LaneKey} (hab : Rises lane a b) (hbc : Rises lane b c) :
    Rises lane a c where
  deposit := Nat.le_trans hab.deposit hbc.deposit
  lane old hold := by
    rcases hab.lane old hold with ⟨mid, hmid, hfirst⟩
    rcases hbc.lane mid hmid with ⟨new, hnew, hsecond⟩
    exact ⟨new, hnew, hfirst.trans hsecond⟩

/-- Spend views that differ in the order of the lanes only rise alike. -/
theorem Rises.congr {spend other next after : BuyerPoolState LaneKey} (h : Rises lane other after)
    (hspend : SameSpend spend other) (hnext : SameSpend next after) : Rises lane spend next where
  deposit := by
    rw [hspend.deposit, hnext.deposit]
    exact h.deposit
  lane old hold := by
    rw [hspend.lanes] at hold
    rw [hnext.lanes]
    exact h.lane old hold

/-- An insertion raises the lane, or changes another one. -/
theorem rises_insert (spend : BuyerPoolState LaneKey) {other : LaneKey}
    {progress : BuyerLaneProgress}
    (h : ∀ old, lane = other → spend.lanes.get other = some old → AtLeast old progress) :
    Rises lane spend { spend with lanes := spend.lanes.insert other progress } where
  deposit := Nat.le_refl _
  lane old hold := by
    rw [HashMap.get_insert]
    by_cases heq : lane = other
    · rw [if_pos heq]
      exact ⟨progress, rfl, h old heq (heq ▸ hold)⟩
    · rw [if_neg heq]
      exact ⟨old, hold, .refl old⟩

theorem rises_advanceLane {spend next : BuyerPoolState LaneKey} {other : LaneKey}
    {bytes amount : Nat} (hok : spend.advanceLane other bytes amount = .ok next) :
    Rises lane spend next := by
  rw [advanceLane_eq] at hok
  cases hadvanced : BuyerLaneProgress.advanced (spend.lanes.get other) ⟨amount, bytes⟩ with
  | error err =>
    rw [hadvanced] at hok
    cases hok
  | ok progress =>
    rw [hadvanced] at hok
    rw [← Except.ok.inj hok]
    rcases advanced_eq_ok.mp hadvanced with ⟨rfl, hrise⟩
    refine rises_insert spend fun old _ hold => ?_
    exact ⟨(hrise old hold).2, (hrise old hold).1⟩

theorem rises_seedLane {spend next : BuyerPoolState LaneKey} {other : LaneKey}
    {bytes amount : Nat} (hok : spend.seedLane other bytes amount = .ok next) :
    Rises lane spend next := by
  rw [seedLane_eq] at hok
  cases hadvance : spend.advanceLane other bytes amount with
  | error err =>
    rw [hadvance] at hok
    cases hok
  | ok advanced =>
    rw [hadvance] at hok
    have hrises : Rises lane spend advanced := rises_advanceLane hadvance
    rw [← Except.ok.inj hok]
    split
    · exact ⟨hrises.deposit, hrises.lane⟩
    · exact hrises

/-! ## Where a row comes from -/

/-- Operations that put other totals in place of those of a lane of a pool. -/
def Op.Overwrites (poolId : Bytes32) (lane : LaneKey) : Op → Prop
  | .record row => row.poolId = poolId
  | .rebaseProgress _ id other _ _ => id = poolId ∧ other = lane
  | _ => False

/-- A row after a change is the row before it, or what the change made of it. -/
theorem changeRow_get {α : Type} {unknownPool poolMismatch : α} {owner : Address}
    {id poolId : Bytes32} {change : RowChange α} {next : PoolRow}
    (hget : (m.changeRow unknownPool poolMismatch owner id change).2.pools.get poolId =
      some next) :
    m.pools.get poolId = some next ∨
      id = poolId ∧ ∃ row, m.pools.get poolId = some row ∧ (change row).2 = some next := by
  unfold MemoryBuyerPoolStore.changeRow at hget
  cases hindex : m.ownerIndex.get owner with
  | none =>
    rw [hindex] at hget
    exact .inl hget
  | some mapped =>
    rw [hindex] at hget
    dsimp only at hget
    split at hget
    · exact .inl hget
    · cases hrow : m.pools.get id with
      | none =>
        rw [hrow] at hget
        exact .inl hget
      | some row =>
        rw [hrow] at hget
        dsimp only at hget
        rcases hchange : change row with ⟨answer, after⟩
        rw [hchange] at hget
        cases after with
        | none => exact .inl hget
        | some after =>
          dsimp only at hget
          rw [HashMap.get_insert] at hget
          split at hget
          · rename_i heq
            rw [← Option.some.inj hget]
            exact .inr ⟨heq.symm, row, heq ▸ hrow, by rw [hchange]⟩
          · exact .inl hget

/-- A lane write whose change rises leaves a row that rises. -/
theorem writeLane_rises {owner : Address} {id poolId : Bytes32} {next : PoolRow}
    {apply : BuyerPoolState LaneKey → Except BuyerProgressError (BuyerPoolState LaneKey)}
    (happly : id = poolId → ∀ spend after, apply spend = .ok after → Rises lane spend after)
    (hget : (m.writeLane owner id apply).2.pools.get poolId = some next) :
    ∃ row, m.pools.get poolId = some row ∧ Rises lane row.spend next.spend := by
  rcases changeRow_get hget with hsame | ⟨hid, row, hrow, hchange⟩
  · exact ⟨next, hsame, .refl _ _⟩
  · refine ⟨row, hrow, ?_⟩
    unfold laneChange at hchange
    cases hafter : apply row.spend with
    | error err =>
      rw [hafter] at hchange
      cases hchange
    | ok after =>
      rw [hafter] at hchange
      rw [← Option.some.inj hchange]
      exact happly hid row.spend after hafter

/-- A row after an operation was there before it, and has risen. -/
theorem Holds.step_get (h : Holds P t m) {op : Op} {poolId : Bytes32} {next : PoolRow}
    (hop : ¬ op.Overwrites poolId lane) (hget : (m.step op).2.pools.get poolId = some next) :
    ∃ row, m.pools.get poolId = some row ∧ Rises lane row.spend next.spend := by
  have hsame : m.pools.get poolId = some next →
      ∃ row, m.pools.get poolId = some row ∧ Rises lane row.spend next.spend := fun hrow =>
    ⟨next, hrow, .refl _ _⟩
  cases op with
  | record row =>
    unfold MemoryBuyerPoolStore.step MemoryBuyerPoolStore.record at hget
    dsimp only at hget
    rw [HashMap.get_insert, if_neg (fun heq => hop heq.symm)] at hget
    exact hsame hget
  | forget owner =>
    unfold MemoryBuyerPoolStore.step MemoryBuyerPoolStore.forget at hget
    dsimp only at hget
    cases hindex : m.ownerIndex.get owner with
    | none =>
      rw [hindex] at hget
      exact hsame hget
    | some id =>
      rw [hindex] at hget
      dsimp only at hget
      rw [HashMap.get_erase] at hget
      split at hget
      · cases hget
      · exact hsame hget
  | forgetIfPool owner id =>
    unfold MemoryBuyerPoolStore.step MemoryBuyerPoolStore.forgetIfPool at hget
    dsimp only at hget
    split at hget
    · change (m.pools.erase id).get poolId = some next at hget
      rw [HashMap.get_erase] at hget
      split at hget
      · cases hget
      · exact hsame hget
    · exact hsame hget
  | advanceProgress owner id other bytes amount =>
    exact writeLane_rises (fun _ _ _ => rises_advanceLane) hget
  | rebaseProgress owner id other anchor totals =>
    change (m.writeLane owner id fun spend =>
      .ok (rebaseLane spend other anchor totals)).2.pools.get poolId = some next at hget
    refine writeLane_rises (fun hid spend after hok => ?_) hget
    rw [← Except.ok.inj hok]
    exact rises_insert spend fun old heq _ => absurd ⟨hid, heq.symm⟩ hop
  | seedProgress owner id other bytes amount =>
    exact writeLane_rises (fun _ _ _ => rises_seedLane) hget
  | addDeposit owner id additional =>
    change (m.changeRow DepositOutcome.unknownPool .poolMismatch owner id
      (depositChange additional)).2.pools.get poolId = some next at hget
    rcases changeRow_get hget with hrow | ⟨-, row, hrow, hchange⟩
    · exact hsame hrow
    · refine ⟨row, hrow, ?_⟩
      rw [← Option.some.inj hchange]
      refine ⟨?_, fun old hold => ⟨old, hold, .refl old⟩⟩
      -- the sum saturates above the old deposit, which is a word
      rcases h.pools.get_cases poolId with ⟨-, hnone⟩ | ⟨value, found, -, hfound, -, hproper, -⟩
      · exact absurd (hnone.symm.trans hrow) (by simp)
      · have hword := hproper.deposit
        rw [Option.some.inj (hfound.symm.trans hrow)] at hword
        exact (U256.le_saturatingAdd_iff hword).mpr (Nat.le_add_right _ _)
  | advanceDelegateProgress deployment other totals =>
    unfold MemoryBuyerPoolStore.step MemoryBuyerPoolStore.advanceDelegateProgress at hget
    dsimp only at hget
    split at hget
    · exact hsame hget
    · exact hsame hget
  | rebaseDelegateProgress deployment other anchor totals => exact hsame hget

/-- A row after a run was there before it, and has risen. -/
theorem Holds.run_get (hP : P.Lawful) (h : Holds P t m) {ops : List Op} {poolId : Bytes32}
    {next : PoolRow} (hproper : ∀ op ∈ ops, op.Proper)
    (hops : ∀ op ∈ ops, ¬ op.Overwrites poolId lane)
    (hget : (m.run ops).2.pools.get poolId = some next) :
    ∃ row, m.pools.get poolId = some row ∧ Rises lane row.spend next.spend := by
  induction ops generalizing t m with
  | nil => exact ⟨next, hget, .refl _ _⟩
  | cons op rest ih =>
    rcases h.step hP (hproper op List.mem_cons_self) with ⟨after, -, hafter⟩
    rcases ih hafter (fun a ha => hproper a (List.mem_cons_of_mem _ ha))
      (fun a ha => hops a (List.mem_cons_of_mem _ ha)) hget with ⟨mid, hmid, hlast⟩
    rcases h.step_get (hops op List.mem_cons_self) hmid with ⟨row, hrow, hfirst⟩
    exact ⟨row, hrow, hfirst.trans hlast⟩

/-! ## Delegate lanes -/

/-- Operations that put other totals in place of those of a delegate lane. -/
def Op.OverwritesDelegate (deployment : Deployment) (lane : LaneKey) : Op → Prop
  | .rebaseDelegateProgress on other _ _ => on = deployment ∧ other = lane
  | _ => False

/-- What is done to pools leaves the delegate lanes. -/
theorem delegateLanes_changeRow {α : Type} (unknownPool poolMismatch : α) (owner : Address)
    (poolId : Bytes32) (change : RowChange α) :
    (m.changeRow unknownPool poolMismatch owner poolId change).2.delegateLanes =
      m.delegateLanes := by
  unfold MemoryBuyerPoolStore.changeRow
  repeat' split
  all_goals rfl

/-- A delegate lane stays after an operation, and has risen. -/
theorem step_delegate {op : Op} {deployment : Deployment} {old : BuyerLaneProgress}
    (hop : ¬ op.OverwritesDelegate deployment lane)
    (hget : m.delegateLanes.get (deployment, lane) = some old) :
    ∃ new, (m.step op).2.delegateLanes.get (deployment, lane) = some new ∧ AtLeast old new := by
  have hsame : ∀ next : MemoryBuyerPoolStore, next.delegateLanes = m.delegateLanes →
      ∃ new, next.delegateLanes.get (deployment, lane) = some new ∧ AtLeast old new := by
    intro next hnext
    rw [hnext]
    exact ⟨old, hget, .refl old⟩
  cases op with
  | record row => exact hsame _ rfl
  | forget owner =>
    refine hsame _ ?_
    unfold MemoryBuyerPoolStore.step MemoryBuyerPoolStore.forget
    dsimp only
    split <;> rfl
  | forgetIfPool owner poolId =>
    refine hsame _ ?_
    unfold MemoryBuyerPoolStore.step MemoryBuyerPoolStore.forgetIfPool
    dsimp only
    split <;> rfl
  | advanceProgress owner poolId other bytes amount =>
    exact hsame _ (delegateLanes_changeRow _ _ _ _ _)
  | rebaseProgress owner poolId other anchor totals =>
    exact hsame _ (delegateLanes_changeRow AdvanceOutcome.unknownPool .poolMismatch owner poolId
      (laneChange fun spend => .ok (rebaseLane spend other anchor totals)))
  | seedProgress owner poolId other bytes amount =>
    exact hsame _ (delegateLanes_changeRow _ _ _ _ _)
  | addDeposit owner poolId additional =>
    exact hsame _ (delegateLanes_changeRow DepositOutcome.unknownPool .poolMismatch owner poolId
      (depositChange additional))
  | advanceDelegateProgress on other totals =>
    unfold MemoryBuyerPoolStore.step MemoryBuyerPoolStore.advanceDelegateProgress
    dsimp only
    cases hadvanced : BuyerLaneProgress.advanced (m.delegateLanes.get (on, other)) totals with
    | error err => exact hsame _ rfl
    | ok progress =>
      rcases advanced_eq_ok.mp hadvanced with ⟨rfl, hrise⟩
      change ∃ new, (m.delegateLanes.insert (on, other) progress).get (deployment, lane) =
        some new ∧ AtLeast old new
      rw [HashMap.get_insert]
      split
      · rename_i heq
        rw [← heq] at hrise
        exact ⟨progress, rfl, (hrise old hget).2, (hrise old hget).1⟩
      · exact ⟨old, hget, .refl old⟩
  | rebaseDelegateProgress on other anchor totals =>
    unfold MemoryBuyerPoolStore.step MemoryBuyerPoolStore.rebaseDelegateProgress
    dsimp only
    rw [HashMap.get_insert, if_neg]
    · exact ⟨old, hget, .refl old⟩
    · intro heq
      exact hop ⟨(congrArg Prod.fst heq).symm, (congrArg Prod.snd heq).symm⟩

/-- A delegate lane stays after a run, and has risen. -/
theorem run_delegate {ops : List Op} {deployment : Deployment} {old : BuyerLaneProgress}
    (hops : ∀ op ∈ ops, ¬ op.OverwritesDelegate deployment lane)
    (hget : m.delegateLanes.get (deployment, lane) = some old) :
    ∃ new, (m.run ops).2.delegateLanes.get (deployment, lane) = some new ∧ AtLeast old new := by
  induction ops generalizing m old with
  | nil => exact ⟨old, hget, .refl old⟩
  | cons op rest ih =>
    rcases step_delegate (hops op List.mem_cons_self) hget with ⟨mid, hmid, hfirst⟩
    rcases ih (fun a ha => hops a (List.mem_cons_of_mem _ ha)) hmid with ⟨new, hnew, hlast⟩
    exact ⟨new, hnew, hfirst.trans hlast⟩

/-- A signer's lanes are read under their providers. -/
theorem mem_delegateLanesOf {deployment : Deployment} {poolId : Bytes32} {signer provider : Address}
    {progress : BuyerLaneProgress} :
    (provider, progress) ∈ m.delegateLanesOf deployment poolId signer ↔
      m.delegateLanes.get (deployment, ⟨poolId, signer, provider⟩) = some progress := by
  unfold MemoryBuyerPoolStore.delegateLanesOf
  dsimp only
  rw [(List.mergeSort_perm _ _).mem_iff, List.mem_map, HashMap.get_eq_some]
  constructor
  · rintro ⟨⟨⟨on, id, account, other⟩, found⟩, hmem, heq⟩
    rcases List.mem_filter.mp hmem with ⟨hin, hmine⟩
    rcases of_decide_eq_true hmine with ⟨rfl, rfl, rfl⟩
    cases heq
    exact hin
  · intro hin
    refine ⟨_, List.mem_filter.mpr ⟨hin, ?_⟩, rfl⟩
    exact decide_eq_true ⟨rfl, rfl, rfl⟩

/-- What the tables hold of a lane, of a pool or of a delegate, does not fall in any run, unless
an operation of the run overwrites it.  A delegate lane stays even when its pool is forgotten. -/
theorem progress_never_falls (D : Redb) {P : Postcard} (hP : P.Lawful) (before later : List Op)
    (hbefore : ∀ op ∈ before, op.Proper) (hlater : ∀ op ∈ later, op.Proper) :
    (∀ poolId lane row after, (∀ op ∈ later, ¬ op.Overwrites poolId lane) →
      (BuyerPoolTable.run (D := D) P {} before).2.getByPoolId P poolId = .ok (some row) →
      ((BuyerPoolTable.run (D := D) P {} before).2.run P later).2.getByPoolId P poolId =
        .ok (some after) →
      Rises lane row.spend after.spend) ∧
    ∀ deployment lane lanes old, (∀ op ∈ later, ¬ op.OverwritesDelegate deployment lane) →
      (BuyerPoolTable.run (D := D) P {} before).2.delegateLanesOf P deployment lane.poolId
        lane.signer = .ok lanes →
      (lane.provider, old) ∈ lanes →
      ∃ kept new, ((BuyerPoolTable.run (D := D) P {} before).2.run P later).2.delegateLanesOf P
          deployment lane.poolId lane.signer = .ok kept ∧
        (lane.provider, new) ∈ kept ∧ AtLeast old new := by
  rcases (Holds.empty (D := D)).run hP before hbefore with ⟨-, hfirst⟩
  rcases hfirst.run hP later hlater with ⟨-, hlast⟩
  constructor
  · intro poolId lane row after hops hrow hafter
    rcases hlast.getByPoolId poolId with ⟨found, hfound, hrel⟩
    rw [Except.ok.inj (hfound.symm.trans hafter)] at hrel
    rcases hfirst.getByPoolId poolId with ⟨start, hstart, hbegan⟩
    rw [Except.ok.inj (hstart.symm.trans hrow)] at hbegan
    generalize hnext : MemoryBuyerPoolStore.getByPoolId _ poolId = next at hrel
    cases hrel with
    | some hsame =>
      rcases hfirst.run_get hP hlater hops hnext with ⟨source, hsource, hrises⟩
      generalize hbegin : MemoryBuyerPoolStore.getByPoolId _ poolId = began at hbegan
      cases hbegan with
      | some hsource' =>
        rw [Option.some.inj (hbegin.symm.trans hsource)] at hsource'
        exact hrises.congr hsource'.spend hsame.spend
  · intro deployment lane lanes old hops hread hmem
    rw [hfirst.delegateLanesOf hP] at hread
    rw [← Except.ok.inj hread] at hmem
    rcases run_delegate hops (mem_delegateLanesOf.mp hmem) with ⟨new, hnew, hrise⟩
    exact ⟨_, new, hlast.delegateLanesOf hP deployment lane.poolId lane.signer,
      mem_delegateLanesOf.mpr hnew, hrise⟩

/-- A stale voucher of the lane is refused and a later one taken; so are the delegate's. -/
def sampleLater : List Op :=
  [.advanceProgress 7 1 sampleLane 4000 250, .advanceProgress 7 1 sampleLane 6000 350,
    .advanceDelegateProgress sampleDeployment sampleLane ⟨30, 10⟩,
    .advanceDelegateProgress sampleDeployment sampleLane ⟨30, 40⟩]

theorem sampleLater_proper : ∀ op ∈ sampleLater ++ [.forget 7], op.Proper := by
  intro op hop
  simp only [sampleLater, List.cons_append, List.nil_append, List.mem_cons, List.not_mem_nil,
    or_false] at hop
  rcases hop with rfl | rfl | rfl | rfl | rfl
  · exact ⟨rfl, by decide, by decide⟩
  · exact ⟨rfl, by decide, by decide⟩
  · exact ⟨by decide, by decide⟩
  · exact ⟨by decide, by decide⟩
  · trivial

/-- The totals of the sample lane in what a read by pool answers. -/
def sampleTotals : Except StoreError (Option PoolRow) → Option BuyerLaneProgress
  | .ok (some row) => row.spend.lanes.get sampleLane
  | _ => none

theorem exists_of_sampleTotals {read : Except StoreError (Option PoolRow)} {p : BuyerLaneProgress}
    (h : sampleTotals read = some p) :
    ∃ row, read = .ok (some row) ∧ row.spend.lanes.get sampleLane = some p := by
  rcases read with e | _ | row
  · cases h
  · cases h
  · exact ⟨row, rfl, h⟩

/-- The tables after the pool was recorded and used. -/
def sampleTables : BuyerPoolTable sampleRedb :=
  (BuyerPoolTable.run postcardRows {} (sampleOps.take 5)).2

/-- The totals of the lane rise from 300 to 350 while the pool stays; the delegate's last beyond
the pool. -/
theorem progress_never_falls_sample :
    (∃ row after,
      sampleTables.getByPoolId postcardRows 1 = .ok (some row) ∧
      (sampleTables.run postcardRows sampleLater).2.getByPoolId postcardRows 1 =
        .ok (some after) ∧
      row.spend.lanes.get sampleLane = some ⟨300, 5000⟩ ∧
      after.spend.lanes.get sampleLane = some ⟨350, 6000⟩ ∧
      Rises sampleLane row.spend after.spend) ∧
      ∃ kept new,
        (sampleTables.run postcardRows (sampleLater ++ [.forget 7])).2.delegateLanesOf postcardRows
          sampleDeployment 1 2 = .ok kept ∧
        (3, new) ∈ kept ∧ AtLeast ⟨10, 20⟩ new := by
  have hbefore : ∀ op ∈ sampleOps.take 5, op.Proper := fun op hop =>
    sampleOps_proper op (List.mem_of_mem_take hop)
  constructor
  · have hlater : ∀ op ∈ sampleLater, op.Proper := fun op hop =>
      sampleLater_proper op (List.mem_append_left _ hop)
    have hrises := (progress_never_falls sampleRedb lawful_postcardRows (sampleOps.take 5)
      sampleLater hbefore hlater).1 1 sampleLane
    have hstart : sampleTotals (sampleTables.getByPoolId postcardRows 1) = some ⟨300, 5000⟩ := by
      decide +kernel
    have hend : sampleTotals ((sampleTables.run postcardRows sampleLater).2.getByPoolId
        postcardRows 1) = some ⟨350, 6000⟩ := by
      decide +kernel
    rcases exists_of_sampleTotals hstart with ⟨row, hrow, hold⟩
    rcases exists_of_sampleTotals hend with ⟨after, hafter, hnew⟩
    exact ⟨row, after, hrow, hafter, hold, hnew, hrises row after (by
      simp [sampleLater, Op.Overwrites]) hrow hafter⟩
  · exact (progress_never_falls sampleRedb lawful_postcardRows (sampleOps.take 5) _ hbefore
      sampleLater_proper).2 sampleDeployment sampleLane [(3, ⟨10, 20⟩)] ⟨10, 20⟩
      (by simp [sampleLater, Op.OverwritesDelegate]) (by decide +kernel) (by simp [sampleLane])

end Decdn.Incentive.BuyerStore
