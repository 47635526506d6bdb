import Decdn.PaymentPool.Contract

/-!
# The node's event-fed pool view

The serve gates read a pool's owner and remaining balance from an in-memory
projection that the settlement watcher folds from the `PaymentPool` log
(`node/src/pool_view.rs`).  A pool whose opening lies below the scan start is
seeded from one `getPool` read instead, and carries a snapshot of that read
until the watcher anchors it at a pinned block.

Main definitions:

- Definition `recordRedeemed`: fold the lanes of one redemption.
- Definition `recordResolved` and Definition `reanchor`: the two ways a read
  enters the projection.
- Definition `handleLog`: the watcher's dispatch of one log.

Main results:

- Theorem `handleLog_other`: a log moves no pool but its own.
-/

namespace Decdn.Node.PoolView

open PaymentPool (LaneSettled Event Pool)

/-! ## Data model -/

/-- A pool's lifecycle as the serve gates see it.  A closed pool is dropped. -/
inductive Lifecycle where
  | opened
  | closing (deadline : Nat)
deriving DecidableEq, Repr

/-- The per-pool quantities the serve gates read. -/
structure PoolStatus where
  owner : Address
  remaining : Nat
  lifecycle : Lifecycle
deriving DecidableEq, Repr

/-- A `getPool` read of `totalRedeemed`, plus the redemptions folded after it. -/
structure Snapshot where
  /-- On-chain `totalRedeemed` at the read. -/
  redeemed : Nat
  /-- The block the read is pinned at, `none` for an admit-path seed. -/
  anchor : Option Nat
  /-- Lane advances folded above the anchor. -/
  since : Nat
  /-- A folded advance could not be placed. -/
  stale : Bool
  /-- The highest block of a redemption or top-up folded into the entry. -/
  foldedThrough : Nat
deriving DecidableEq, Repr

/-- Raise `foldedThrough` to an event's block. -/
def Snapshot.foldBlock (s : Snapshot) (block : Option Nat) : Snapshot :=
  match block with
  | some b => { s with foldedThrough := max s.foldedThrough b }
  | none => s

/-- Whether the read at the anchor already counts an event mined in `block`. -/
def Snapshot.covers (s : Snapshot) (block : Option Nat) : Bool :=
  match s.anchor, block with
  | some anchor, some b => decide (b ≤ anchor)
  | _, _ => false

/-- Count one lane's advance, or mark the snapshot stale if the advance cannot be
split into history the read counts and a new part. -/
def Snapshot.place (s : Snapshot) (block baseline : Option Nat) (delta : Nat) : Snapshot :=
  if s.covers block then s
  else if s.anchor.isSome && block.isSome && baseline.isSome then
    { s with since := U64.saturatingAdd s.since delta }
  else { s with stale := true }

/-- One `getPool` read. -/
structure PoolRead where
  poolId : Bytes32
  deposit : Nat
  totalRedeemed : Nat
  lifecycle : Lifecycle
deriving DecidableEq, Repr

/-- What a skipped re-anchor read is older than. -/
inductive ReanchorStale where
  | belowFolded (foldedThrough : Nat)
  | lowerRedeemed (held : Nat)
  | lowerDeposit (held : Nat)
deriving DecidableEq, Repr

/-- A read that a re-anchor skipped. -/
structure ReanchorSkip where
  read : PoolRead
  reason : ReanchorStale
deriving DecidableEq, Repr

/-- What one re-anchor did with its reads. -/
structure ReanchorReport where
  anchored : Nat := 0
  skipped : List ReanchorSkip := []
deriving DecidableEq, Repr

/-- Per-pool state folded from the event log. -/
structure PoolEntry where
  owner : Address := 0
  deposit : Nat := 0
  totalRedeemed : Nat := 0
  /-- Each `(signer, provider)` lane's latest paid cumulative. -/
  lanes : Address → Address → Option Nat := fun _ _ => none
  signerSpent : Address → Nat := fun _ => 0
  lifecycle : Lifecycle := .opened
  /-- `none` for a pool folded from its `PoolOpened`. -/
  snapshot : Option Snapshot := none

namespace PoolEntry

/-- The projection's lower bound on on-chain `totalRedeemed`. -/
def redeemed (e : PoolEntry) : Nat :=
  match e.snapshot with
  | none => e.totalRedeemed
  | some s => max e.totalRedeemed (U64.saturatingAdd s.redeemed s.since)

/-- What the serve gates read. -/
def status (e : PoolEntry) : PoolStatus where
  owner := e.owner
  remaining := e.deposit - e.redeemed
  lifecycle := e.lifecycle

/-- A lane's folded cumulative, zero without a baseline. -/
def laneTotal (e : PoolEntry) (signer provider : Address) : Nat :=
  (e.lanes signer provider).getD 0

end PoolEntry

/-- The published map. -/
abbrev PoolProjection := Bytes32 → Option PoolEntry

/-! ## Folding logs -/

variable (pools : PoolProjection)

/-- `record_opened`: the owner, and the deposit unless a read already set it. -/
def recordOpened (poolId : Bytes32) (owner : Address) (deposit : Nat) : PoolProjection :=
  let entry := (pools poolId).getD {}
  Function.update pools poolId (some
    { entry with
      owner := owner
      deposit := if entry.snapshot.isNone then U64.ofNatSaturating deposit else entry.deposit })

/-- The top-up's effect on one entry.  A top-up the read counts is skipped, and one
that cannot be ordered against the read only raises the deposit. -/
def PoolEntry.topUp (entry : PoolEntry) (newDeposit : Nat) (block : Option Nat) : PoolEntry :=
  match entry.snapshot with
  | none => { entry with deposit := newDeposit }
  | some snapshot =>
    let folded := { entry with snapshot := some (snapshot.foldBlock block) }
    if snapshot.covers block then folded
    else if snapshot.anchor.isSome && block.isSome then { folded with deposit := newDeposit }
    else { folded with deposit := max entry.deposit newDeposit }

/-- `record_topup`. -/
def recordTopup (poolId : Bytes32) (newDeposit : Nat) (block : Option Nat) : PoolProjection :=
  match pools poolId with
  | none => pools
  | some entry =>
    Function.update pools poolId (some (entry.topUp (U64.ofNatSaturating newDeposit) block))

/-- One iteration of the lane loop of `record_redeemed`: fold the positive
advance. -/
def PoolEntry.settleLane (provider : Address) (block : Option Nat) (entry : PoolEntry)
    (lane : LaneSettled) : PoolEntry :=
  let baseline := entry.lanes lane.signer provider
  let prev := baseline.getD 0
  if prev < lane.newPaidCumulative then
    let delta := lane.newPaidCumulative - prev
    { entry with
      totalRedeemed := U64.saturatingAdd entry.totalRedeemed delta
      signerSpent := Function.update entry.signerSpent lane.signer
        (U64.saturatingAdd (entry.signerSpent lane.signer) delta)
      lanes := Function.update entry.lanes lane.signer
        (Function.update (entry.lanes lane.signer) provider (some lane.newPaidCumulative))
      snapshot := entry.snapshot.map fun s => s.place block baseline delta }
  else entry

/-- A lane that does not advance changes nothing. -/
theorem PoolEntry.settleLane_of_le {provider : Address} {e : PoolEntry} {lane : LaneSettled}
    (block : Option Nat) (h : lane.newPaidCumulative ≤ e.laneTotal lane.signer provider) :
    e.settleLane provider block lane = e := by
  unfold settleLane
  exact if_neg (Nat.not_lt.mpr h)

/-- The fields an advancing lane writes. -/
theorem PoolEntry.settleLane_of_lt {provider : Address} {e : PoolEntry} {lane : LaneSettled}
    (block : Option Nat) (h : e.laneTotal lane.signer provider < lane.newPaidCumulative) :
    let delta := lane.newPaidCumulative - e.laneTotal lane.signer provider
    let e' := e.settleLane provider block lane
    e'.lanes = Function.update e.lanes lane.signer
        (Function.update (e.lanes lane.signer) provider (some lane.newPaidCumulative)) ∧
      e'.totalRedeemed = U64.saturatingAdd e.totalRedeemed delta ∧
      e'.signerSpent = Function.update e.signerSpent lane.signer
        (U64.saturatingAdd (e.signerSpent lane.signer) delta) ∧
      e'.snapshot = e.snapshot.map fun s =>
        s.place block (e.lanes lane.signer provider) delta := by
  have h' : (e.lanes lane.signer provider).getD 0 < lane.newPaidCumulative := h
  simp only [settleLane, if_pos h']
  exact ⟨trivial, rfl, rfl, rfl⟩

/-- A settlement writes its own lane, and only to raise it. -/
theorem PoolEntry.settleLane_lanes (provider signer p : Address) (block : Option Nat)
    (e : PoolEntry) (lane : LaneSettled) :
    (e.settleLane provider block lane).lanes signer p =
      if (signer = lane.signer ∧ p = provider) ∧
          e.laneTotal signer p < lane.newPaidCumulative then
        some lane.newPaidCumulative
      else e.lanes signer p := by
  rcases Nat.lt_or_ge (e.laneTotal lane.signer provider) lane.newPaidCumulative with hlt | hge
  · rw [(settleLane_of_lt block hlt).1]
    by_cases hs : signer = lane.signer
    · subst hs
      by_cases hp : p = provider
      · subst hp
        simp [hlt]
      · simp [hp]
    · simp [hs]
  · rw [settleLane_of_le block hge, if_neg]
    rintro ⟨⟨rfl, rfl⟩, hlt⟩
    omega

/-- A lane's total after a settlement. -/
theorem PoolEntry.settleLane_laneTotal (provider signer p : Address) (block : Option Nat)
    (e : PoolEntry) (lane : LaneSettled) :
    (e.settleLane provider block lane).laneTotal signer p =
      if signer = lane.signer ∧ p = provider then
        max (e.laneTotal signer p) lane.newPaidCumulative
      else e.laneTotal signer p := by
  conv_lhs => unfold laneTotal
  rw [settleLane_lanes]
  by_cases hlane : signer = lane.signer ∧ p = provider
  · by_cases hlt : e.laneTotal signer p < lane.newPaidCumulative
    · rw [if_pos ⟨hlane, hlt⟩, if_pos hlane, max_eq_right (Nat.le_of_lt hlt)]
      rfl
    · rw [if_neg fun h => hlt h.2, if_pos hlane, max_eq_left (Nat.le_of_not_lt hlt)]
      rfl
  · rw [if_neg fun h => hlane h.1, if_neg hlane]
    rfl

/-- The redemption's effect on one entry. -/
def PoolEntry.redeem (entry : PoolEntry) (provider : Address) (lanes : List LaneSettled)
    (block : Option Nat) : PoolEntry :=
  lanes.foldl (PoolEntry.settleLane provider block)
    { entry with snapshot := entry.snapshot.map fun s => s.foldBlock block }

/-- `record_redeemed`, for every provider. -/
def recordRedeemed (poolId : Bytes32) (provider : Address) (lanes : List LaneSettled)
    (block : Option Nat) : PoolProjection :=
  match pools poolId with
  | none => pools
  | some entry => Function.update pools poolId (some (entry.redeem provider lanes block))

/-- `record_closing`. -/
def recordClosing (poolId : Bytes32) (deadline : Nat) : PoolProjection :=
  match pools poolId with
  | none => pools
  | some entry => Function.update pools poolId (some { entry with lifecycle := .closing deadline })

/-- `forget`: drop the pool. -/
def forget (poolId : Bytes32) : PoolProjection :=
  Function.update pools poolId none

/-- The watcher's dispatch of one log to the projection (`apply` of
`PoolSettlementSink`).  The other events are outside its filter. -/
def handleLog (block : Option Nat) : Event → PoolProjection
  | .poolOpened poolId owner deposit => recordOpened pools poolId owner deposit
  | .poolToppedUp poolId _ newDeposit => recordTopup pools poolId newDeposit block
  | .poolRedeemed poolId provider lanes => recordRedeemed pools poolId provider lanes block
  | .poolCloseInitiated poolId _ deadline =>
    recordClosing pools poolId (U64.ofNatSaturating deadline)
  | .poolReclaimed poolId _ _ => forget pools poolId
  | .disputeWindowUpdated _ _ => pools
  | .rateBoundsUpdated _ => pools
  | .minDepositUpdated _ _ => pools

/-! ## Taking reads -/

/-- `resolved_lifecycle`: what a `getPool` result maps to, `none` for an absent or a
closed pool. -/
def resolvedLifecycle (p : Pool) : Option Lifecycle :=
  if p.owner = 0 then none
  else
    match p.status with
    | .opened => some .opened
    | .closing => some (.closing p.disputeDeadline)
    | .closed => none

/-- `record_resolved`: seed a pool the projection does not hold. -/
def recordResolved (owner : Address) (read : PoolRead) : PoolProjection :=
  match pools read.poolId with
  | some _ => pools
  | none =>
    Function.update pools read.poolId (some
      { owner := owner
        deposit := read.deposit
        lifecycle := read.lifecycle
        snapshot := some
          { redeemed := read.totalRedeemed
            anchor := none
            since := 0
            stale := false
            foldedThrough := 0 } })

/-- Why a read at `block` is too old for an entry, the first reason that applies. -/
def PoolEntry.staleReason (entry : PoolEntry) (snapshot : Snapshot) (block : Nat)
    (read : PoolRead) : Option ReanchorStale :=
  if block < snapshot.foldedThrough then some (.belowFolded snapshot.foldedThrough)
  else if read.totalRedeemed < entry.redeemed then some (.lowerRedeemed entry.redeemed)
  else if read.deposit < entry.deposit then some (.lowerDeposit entry.deposit)
  else none

/-- An entry anchored at a read.  A read never undoes a folded close. -/
def PoolEntry.anchored (entry : PoolEntry) (snapshot : Snapshot) (block : Nat)
    (read : PoolRead) : PoolEntry :=
  { entry with
    deposit := read.deposit
    lifecycle :=
      match read.lifecycle with
      | .closing deadline => .closing deadline
      | .opened => entry.lifecycle
    snapshot := some
      { redeemed := read.totalRedeemed
        anchor := some block
        since := 0
        stale := false
        foldedThrough := snapshot.foldedThrough } }

/-- One iteration of the read loop of `reanchor`. -/
def reanchorRead (block : Nat) (acc : PoolProjection × ReanchorReport) (read : PoolRead) :
    PoolProjection × ReanchorReport :=
  match acc.1 read.poolId with
  | none => acc
  | some entry =>
    match entry.snapshot with
    | none => acc
    | some snapshot =>
      match entry.staleReason snapshot block read with
      | some reason => (acc.1, { acc.2 with skipped := acc.2.skipped ++ [⟨read, reason⟩] })
      | none =>
        (Function.update acc.1 read.poolId (some (entry.anchored snapshot block read)),
          { acc.2 with anchored := acc.2.anchored + 1 })

/-- `reanchor`: anchor the snapshot-seeded pools at reads pinned at `block`. -/
def reanchor (block : Nat) (reads : List PoolRead) : PoolProjection × ReanchorReport :=
  reads.foldl (reanchorRead block) (pools, {})

/-! ## Reading the view -/

/-- `status`: the pool's status, `none` for a pool not in the projection. -/
def status (poolId : Bytes32) : Option PoolStatus :=
  (pools poolId).map PoolEntry.status

/-- `signer_spent`: a signer's folded total in one pool. -/
def signerSpent (poolId : Bytes32) (signer : Address) : Nat :=
  match pools poolId with
  | none => 0
  | some entry => entry.signerSpent signer

/-! ## One log, one pool -/

/-- The pool a log is about. -/
def eventPool : Event → Option Bytes32
  | .poolOpened poolId _ _ => some poolId
  | .poolToppedUp poolId _ _ => some poolId
  | .poolRedeemed poolId _ _ => some poolId
  | .poolCloseInitiated poolId _ _ => some poolId
  | .poolReclaimed poolId _ _ => some poolId
  | .disputeWindowUpdated _ _ => none
  | .rateBoundsUpdated _ => none
  | .minDepositUpdated _ _ => none

/-- What one log does to the entry of its own pool. -/
def entryStep (block : Option Nat) (entry : Option PoolEntry) : Event → Option PoolEntry
  | .poolOpened _ owner deposit =>
    let entry := entry.getD {}
    some
      { entry with
        owner := owner
        deposit := if entry.snapshot.isNone then U64.ofNatSaturating deposit else entry.deposit }
  | .poolToppedUp _ _ newDeposit =>
    entry.map fun e => e.topUp (U64.ofNatSaturating newDeposit) block
  | .poolRedeemed _ provider lanes => entry.map fun e => e.redeem provider lanes block
  | .poolCloseInitiated _ _ deadline =>
    entry.map fun e => { e with lifecycle := .closing (U64.ofNatSaturating deadline) }
  | .poolReclaimed _ _ _ => none
  | .disputeWindowUpdated _ _ => entry
  | .rateBoundsUpdated _ => entry
  | .minDepositUpdated _ _ => entry

/-- A log acts on its own pool's entry alone. -/
theorem handleLog_own {block : Option Nat} {e : Event} {q : Bytes32}
    (h : eventPool e = some q) : handleLog pools block e q = entryStep block (pools q) e := by
  cases e with
  | poolOpened poolId owner deposit =>
    cases h
    simp [handleLog, recordOpened, entryStep]
  | poolToppedUp poolId additional newDeposit =>
    cases h
    cases hq : pools q <;> simp [handleLog, recordTopup, entryStep, hq]
  | poolRedeemed poolId provider lanes =>
    cases h
    cases hq : pools q <;> simp [handleLog, recordRedeemed, entryStep, hq]
  | poolCloseInitiated poolId owner deadline =>
    cases h
    cases hq : pools q <;> simp [handleLog, recordClosing, entryStep, hq]
  | poolReclaimed poolId owner refund =>
    cases h
    simp [handleLog, forget, entryStep]
  | disputeWindowUpdated old new => cases h
  | rateBoundsUpdated new => cases h
  | minDepositUpdated old new => cases h

/-- A log moves no pool but its own. -/
theorem handleLog_other {block : Option Nat} {e : Event} {q : Bytes32}
    (h : eventPool e ≠ some q) : handleLog pools block e q = pools q := by
  cases e with
  | poolOpened poolId owner deposit =>
    have hne : q ≠ poolId := fun heq => h (congrArg some heq.symm)
    simp [handleLog, recordOpened, Function.update_of_ne hne]
  | poolToppedUp poolId additional newDeposit =>
    have hne : q ≠ poolId := fun heq => h (congrArg some heq.symm)
    cases hq : pools poolId <;> simp [handleLog, recordTopup, hq, Function.update_of_ne hne]
  | poolRedeemed poolId provider lanes =>
    have hne : q ≠ poolId := fun heq => h (congrArg some heq.symm)
    cases hq : pools poolId <;> simp [handleLog, recordRedeemed, hq, Function.update_of_ne hne]
  | poolCloseInitiated poolId owner deadline =>
    have hne : q ≠ poolId := fun heq => h (congrArg some heq.symm)
    cases hq : pools poolId <;> simp [handleLog, recordClosing, hq, Function.update_of_ne hne]
  | poolReclaimed poolId owner refund =>
    have hne : q ≠ poolId := fun heq => h (congrArg some heq.symm)
    simp [handleLog, forget, Function.update_of_ne hne]
  | disputeWindowUpdated old new => rfl
  | rateBoundsUpdated new => rfl
  | minDepositUpdated old new => rfl

end Decdn.Node.PoolView
