import Decdn.Foundations.HashMaps
import Decdn.Foundations.Words

/-!
# The spend view of a buyer's pool

The row that a buyer keeps for its payment pool (`crates/incentive/src/buyer_pool.rs`): the
progress of the lanes that it tracks, and the redeemed spend that none of them accounts
for.  The amounts are 256-bit words that saturate.  Other signers share the pool, so the
row meets their redemptions only as reads of the chain, and a read may lag.

Main results:

- Theorem `spend_counts_once`: over every run, the spend is at least every total that the
  row was given, and at most what the lanes amount to, where a lane with a redeemed
  watermark enters by its seed.
- Theorem `late_lane_counts_twice`: a run in which such a lane enters otherwise.
-/

namespace Decdn.Incentive.BuyerPool

open Finset

variable {Lane : Type} [DecidableEq Lane]

/-! ## The row -/

/-- The cumulative totals of the last voucher signed on a lane. -/
structure BuyerLaneProgress where
  lastAmount : Nat := 0
  lastBytes : Nat := 0
deriving DecidableEq

inductive BuyerProgressError where
  | regressed (field : String) (recorded got : Nat)
deriving DecidableEq

/-- Totals may stay equal or rise, never fall. -/
def BuyerLaneProgress.advanced (recorded : Option BuyerLaneProgress)
    (totals : BuyerLaneProgress) : Except BuyerProgressError BuyerLaneProgress :=
  match recorded with
  | some existing =>
    if totals.lastBytes < existing.lastBytes then
      .error (.regressed "bytes" existing.lastBytes totals.lastBytes)
    else if totals.lastAmount < existing.lastAmount then
      .error (.regressed "amount" existing.lastAmount totals.lastAmount)
    else .ok totals
  | none => .ok totals

structure BuyerPoolState (Lane : Type) where
  deposit : Nat
  lanes : HashMap Lane BuyerLaneProgress := .empty
  redeemedElsewhere : Nat := 0

namespace BuyerPoolState

/-- `BuyerPoolState::new`: the row of a pool that it opened. -/
def new (deposit : Nat) : BuyerPoolState Lane := { deposit }

/-- The row of a live pool adopted from chain. -/
def adopt (deposit totalRedeemed : Nat) : BuyerPoolState Lane :=
  { new deposit with redeemedElsewhere := totalRedeemed }

/-- The amount vouchered across every lane this row tracks. -/
def committedAmount (s : BuyerPoolState Lane) : Nat :=
  s.lanes.entries.foldl (fun acc e => U256.saturatingAdd acc e.2.lastAmount) 0

def poolSpend (s : BuyerPoolState Lane) : Nat :=
  U256.saturatingAdd s.committedAmount s.redeemedElsewhere

def reconcileWithChain (s : BuyerPoolState Lane) (deposit totalRedeemed : Nat) :
    BuyerPoolState Lane :=
  { s with
    deposit := max s.deposit deposit
    redeemedElsewhere := max s.redeemedElsewhere (totalRedeemed - s.committedAmount) }

def advanceLane (s : BuyerPoolState Lane) (lane : Lane) (bytes amount : Nat) :
    Except BuyerProgressError (BuyerPoolState Lane) := do
  let progress ← BuyerLaneProgress.advanced (s.lanes.get lane) ⟨amount, bytes⟩
  return { s with lanes := s.lanes.insert lane progress }

def seedLane (s : BuyerPoolState Lane) (lane : Lane) (bytes amount : Nat) :
    Except BuyerProgressError (BuyerPoolState Lane) := do
  let isNew := (s.lanes.get lane).isNone
  let s ← s.advanceLane lane bytes amount
  return if isNew then { s with redeemedElsewhere := s.redeemedElsewhere - amount } else s

end BuyerPoolState

/-! ## The spend of a row -/

omit [DecidableEq Lane] in
theorem foldl_saturatingAdd (entries : List (Lane × BuyerLaneProgress)) (acc : Nat)
    (hacc : acc < U256.modulus) :
    entries.foldl (fun acc e => U256.saturatingAdd acc e.2.lastAmount) acc =
      min (acc + (entries.map fun e => e.2.lastAmount).sum) (U256.modulus - 1) := by
  induction entries generalizing acc with
  | nil =>
    rw [List.foldl_nil, List.map_nil, List.sum_nil, Nat.add_zero]
    omega
  | cons e rest ih =>
    rw [List.foldl_cons, ih _ (U256.saturatingAdd_lt _ _), List.map_cons, List.sum_cons,
      U256.saturatingAdd]
    omega

omit [DecidableEq Lane] in
/-- The committed amount is the total of the lanes, as far as a word can hold it. -/
theorem committedAmount_eq (s : BuyerPoolState Lane) :
    s.committedAmount = min (s.lanes.total (·.lastAmount)) (U256.modulus - 1) := by
  have hzero : 0 < U256.modulus := by unfold U256.modulus; omega
  rw [BuyerPoolState.committedAmount, foldl_saturatingAdd _ _ hzero, Nat.zero_add]
  rfl

omit [DecidableEq Lane] in
theorem poolSpend_eq (s : BuyerPoolState Lane) :
    s.poolSpend =
      min (s.lanes.total (·.lastAmount) + s.redeemedElsewhere) (U256.modulus - 1) := by
  rw [BuyerPoolState.poolSpend, committedAmount_eq, U256.saturatingAdd]
  omega

/-- An advance is refused, or it enters a lane or raises it. -/
theorem advanceLane_cases (s : BuyerPoolState Lane) (lane : Lane) (bytes amount : Nat) :
    (∃ err, s.advanceLane lane bytes amount = .error err) ∨
      (∀ old, s.lanes.get lane = some old → old.lastAmount ≤ amount) ∧
        s.advanceLane lane bytes amount =
          .ok { s with lanes := s.lanes.insert lane ⟨amount, bytes⟩ } := by
  cases hget : s.lanes.get lane with
  | none =>
    refine .inr ⟨nofun, ?_⟩
    simp [BuyerPoolState.advanceLane, BuyerLaneProgress.advanced, hget]
  | some old =>
    by_cases hbytes : bytes < old.lastBytes
    · refine .inl ⟨.regressed "bytes" old.lastBytes bytes, ?_⟩
      simp [BuyerPoolState.advanceLane, BuyerLaneProgress.advanced, hget, hbytes]
    · by_cases hamount : amount < old.lastAmount
      · refine .inl ⟨.regressed "amount" old.lastAmount amount, ?_⟩
        simp [BuyerPoolState.advanceLane, BuyerLaneProgress.advanced, hget, hbytes, hamount]
      · refine .inr ⟨fun o ho => ?_, ?_⟩
        · rw [← Option.some.inj ho]
          exact Nat.le_of_not_lt hamount
        · simp [BuyerPoolState.advanceLane, BuyerLaneProgress.advanced, hget, hbytes, hamount]

/-- A seed is an advance, and a lane new to the row takes its amount out of the residue. -/
theorem seedLane_eq (s : BuyerPoolState Lane) (lane : Lane) (bytes amount : Nat) :
    s.seedLane lane bytes amount = (s.advanceLane lane bytes amount).map fun s' =>
      if (s.lanes.get lane).isNone then
        { s' with redeemedElsewhere := s'.redeemedElsewhere - amount }
      else s' := by
  rw [BuyerPoolState.seedLane]
  cases s.advanceLane lane bytes amount <;> rfl

/-! ## The row and the chain -/

/-- The history of the pool: at each moment its deposit and the watermark of each lane.  A
watermark never falls, and their total is a 256-bit word. -/
structure Chain (Lane : Type) [Fintype Lane] where
  deposit : Nat → Nat
  bytesDelivered : Nat → Lane → Nat
  redeemed : Nat → Lane → Nat
  redeemed_mono : ∀ lane, Monotone fun moment => redeemed moment lane
  total_lt : ∀ moment, ∑ lane, redeemed moment lane < U256.modulus

/-- The row at a moment, with every `total_redeemed` that it has been given. -/
structure World (Lane : Type) where
  now : Nat
  row : BuyerPoolState Lane
  given : List Nat := []

/-- How the row starts; the read of an adopted pool may be of an earlier moment. -/
inductive Start where
  | opened (now deposit : Nat)
  | adopted (now lag : Nat)

/-- What changes the row.  A read of the chain is of the moment `lag` before. -/
inductive Op (Lane : Type) where
  | passTime
  | seedLane (lane : Lane) (lag : Nat)
  | advanceLane (lane : Lane) (bytes amount : Nat)
  | reconcileWithChain (lag : Nat)

variable [Fintype Lane]

def Chain.totalRedeemed (chain : Chain Lane) (moment : Nat) : Nat :=
  ∑ lane, chain.redeemed moment lane

def World.start (chain : Chain Lane) : Start → World Lane
  | .opened now deposit => { now, row := .new deposit }
  | .adopted now lag =>
    { now
      row := .adopt (chain.deposit (now - lag)) (chain.totalRedeemed (now - lag))
      given := [chain.totalRedeemed (now - lag)] }

/-- A refused change leaves the row as it is. -/
def World.changed (w : World Lane) :
    Except BuyerProgressError (BuyerPoolState Lane) → World Lane
  | .ok row => { w with row }
  | .error _ => w

def World.step (chain : Chain Lane) (w : World Lane) : Op Lane → World Lane
  | .passTime => { w with now := w.now + 1 }
  | .seedLane lane lag =>
    w.changed (w.row.seedLane lane (chain.bytesDelivered (w.now - lag) lane)
      (chain.redeemed (w.now - lag) lane))
  | .advanceLane lane bytes amount => w.changed (w.row.advanceLane lane bytes amount)
  | .reconcileWithChain lag =>
    { w with
      row := w.row.reconcileWithChain (chain.deposit (w.now - lag))
        (chain.totalRedeemed (w.now - lag))
      given := w.given ++ [chain.totalRedeemed (w.now - lag)] }

def World.run (chain : Chain Lane) (start : Start) (ops : List (Op Lane)) : World Lane :=
  ops.foldl (World.step chain) (.start chain start)

/-! ## What the lanes amount to -/

/-- The amounts of the tracked lanes. -/
def World.tracked (w : World Lane) : Nat := w.row.lanes.total (·.lastAmount)

/-- What the untracked lanes have redeemed by now. -/
def World.untracked (chain : Chain Lane) (w : World Lane) : Nat :=
  ∑ lane, if (w.row.lanes.get lane).isNone then chain.redeemed w.now lane else 0

/-- Each tracked lane carries at least what it has redeemed. -/
def World.Covered (chain : Chain Lane) (w : World Lane) : Prop :=
  ∀ lane, ∀ progress ∈ w.row.lanes.get lane,
    chain.redeemed w.now lane ≤ progress.lastAmount

instance (chain : Chain Lane) (w : World Lane) : Decidable (w.Covered chain) :=
  inferInstanceAs (Decidable (∀ lane, ∀ progress ∈ w.row.lanes.get lane,
    chain.redeemed w.now lane ≤ progress.lastAmount))

/-- A lane with a redeemed watermark does not enter through `advance_lane`. -/
def World.EntersSeeded (chain : Chain Lane) (w : World Lane) : Op Lane → Prop
  | .advanceLane lane _ _ => (w.row.lanes.get lane).isSome ∨ chain.redeemed w.now lane = 0
  | _ => True

instance (chain : Chain Lane) (w : World Lane) :
    (op : Op Lane) → Decidable (w.EntersSeeded chain op)
  | .advanceLane lane _ _ => inferInstanceAs
    (Decidable ((w.row.lanes.get lane).isSome ∨ chain.redeemed w.now lane = 0))
  | .passTime | .seedLane _ _ | .reconcileWithChain _ => inferInstanceAs (Decidable True)

/-- The promises of the callers, over a run: every state is covered, and lanes enter as they
should. -/
def Orderly (chain : Chain Lane) (w : World Lane) : List (Op Lane) → Prop
  | [] => w.Covered chain
  | op :: rest =>
    w.Covered chain ∧ w.EntersSeeded chain op ∧ Orderly chain (w.step chain op) rest

instance decidableOrderly (chain : Chain Lane) :
    (w : World Lane) → (ops : List (Op Lane)) → Decidable (Orderly chain w ops)
  | w, [] => inferInstanceAs (Decidable (w.Covered chain))
  | w, op :: rest =>
    have := decidableOrderly chain (w.step chain op) rest
    inferInstanceAs (Decidable (_ ∧ _ ∧ _))

/-! ## What an operation does -/

/-- How an operation leaves the world: unchanged, later, with a lane entered or raised, or
reconciled with a read. -/
inductive Moved (chain : Chain Lane) (w : World Lane) (op : Op Lane) : World Lane → Prop where
  | refused : Moved chain w op w
  | later (h : op = .passTime) : Moved chain w op { w with now := w.now + 1 }
  | raised (lane : Lane) (old progress : BuyerLaneProgress)
      (htracked : w.row.lanes.get lane = some old)
      (hrise : old.lastAmount ≤ progress.lastAmount) :
      Moved chain w op { w with row := { w.row with lanes := w.row.lanes.insert lane progress } }
  | seeded (lane : Lane) (progress : BuyerLaneProgress)
      (huntracked : w.row.lanes.get lane = none) :
      Moved chain w op { w with row := { w.row with
        lanes := w.row.lanes.insert lane progress
        redeemedElsewhere := w.row.redeemedElsewhere - progress.lastAmount } }
  | entered (lane : Lane) (bytes amount : Nat) (h : op = .advanceLane lane bytes amount)
      (huntracked : w.row.lanes.get lane = none) :
      Moved chain w op { w with row := { w.row with
        lanes := w.row.lanes.insert lane ⟨amount, bytes⟩ } }
  | reconciled (moment : Nat) (h : moment ≤ w.now) :
      Moved chain w op { w with
        row := w.row.reconcileWithChain (chain.deposit moment) (chain.totalRedeemed moment)
        given := w.given ++ [chain.totalRedeemed moment] }

theorem moved_step (chain : Chain Lane) (w : World Lane) (op : Op Lane) :
    Moved chain w op (w.step chain op) := by
  cases op with
  | passTime => exact .later rfl
  | reconcileWithChain lag => exact .reconciled _ (Nat.sub_le _ _)
  | advanceLane lane bytes amount =>
    rw [World.step]
    rcases advanceLane_cases w.row lane bytes amount with ⟨err, herr⟩ | ⟨hrise, hok⟩
    · rw [herr]
      exact .refused
    · rw [hok]
      cases hget : w.row.lanes.get lane with
      | none => exact .entered lane bytes amount rfl hget
      | some old => exact .raised lane old _ hget (hrise old hget)
  | seedLane lane lag =>
    rw [World.step, seedLane_eq]
    rcases advanceLane_cases w.row lane (chain.bytesDelivered (w.now - lag) lane)
      (chain.redeemed (w.now - lag) lane) with ⟨err, herr⟩ | ⟨hrise, hok⟩
    · rw [herr]
      exact .refused
    · rw [hok]
      cases hget : w.row.lanes.get lane with
      | none => exact .seeded lane _ hget
      | some old => exact .raised lane old _ hget (hrise old hget)

/-! ## The lower bound -/

/-- The spend is at least every total that the row has been given. -/
def World.CoversReads (w : World Lane) : Prop := ∀ total ∈ w.given, total ≤ w.row.poolSpend

omit [DecidableEq Lane] [Fintype Lane] in
/-- A reconciled row has spent at least the total of the read. -/
theorem le_spend_reconcile (s : BuyerPoolState Lane) (deposit total : Nat)
    (h : total < U256.modulus) : total ≤ (s.reconcileWithChain deposit total).poolSpend := by
  rw [poolSpend_eq, BuyerPoolState.reconcileWithChain, committedAmount_eq]
  show total ≤ min (s.lanes.total (·.lastAmount) + max _ _) _
  omega

theorem World.CoversReads.step {chain : Chain Lane} {w : World Lane} (hw : w.CoversReads)
    (op : Op Lane) : (w.step chain op).CoversReads := by
  intro total htotal
  have hspend := poolSpend_eq w.row
  generalize hnext : w.step chain op = next at htotal
  have hmoved := moved_step chain w op
  rw [hnext] at hmoved
  cases hmoved with
  | refused => exact hw total htotal
  | later => exact hw total htotal
  | raised lane old progress htracked hrise =>
    have hle := hw total htotal
    have hinsert := w.row.lanes.total_insert lane progress (·.lastAmount)
    rw [htracked] at hinsert
    simp only [Option.elim_some] at hinsert
    rw [poolSpend_eq]
    show total ≤ min ((w.row.lanes.insert lane progress).total _ + w.row.redeemedElsewhere) _
    omega
  | seeded lane progress huntracked =>
    have hle := hw total htotal
    have hinsert := w.row.lanes.total_insert lane progress (·.lastAmount)
    rw [huntracked] at hinsert
    simp only [Option.elim_none] at hinsert
    rw [poolSpend_eq]
    show total ≤ min ((w.row.lanes.insert lane progress).total _ +
      (w.row.redeemedElsewhere - progress.lastAmount)) _
    omega
  | entered lane bytes amount _ huntracked =>
    have hle := hw total htotal
    have hinsert := w.row.lanes.total_insert lane ⟨amount, bytes⟩ (·.lastAmount)
    rw [huntracked] at hinsert
    simp only [Option.elim_none] at hinsert
    rw [poolSpend_eq]
    show total ≤ min ((w.row.lanes.insert lane ⟨amount, bytes⟩).total _ +
      w.row.redeemedElsewhere) _
    omega
  | reconciled moment _ =>
    rcases List.mem_append.mp htotal with hold | hread
    · have hle := hw total hold
      rw [poolSpend_eq, BuyerPoolState.reconcileWithChain]
      show total ≤ min (w.row.lanes.total _ + max _ _) _
      omega
    · rw [List.mem_singleton.mp hread]
      exact le_spend_reconcile _ _ _ (chain.total_lt moment)

/-! ## The upper bound -/

/-- The residue is at most what the untracked lanes have redeemed. -/
def World.CountsOnce (chain : Chain Lane) (w : World Lane) : Prop :=
  w.row.redeemedElsewhere ≤ w.untracked chain

/-- A lane that enters is no longer among the untracked. -/
theorem untracked_insert (chain : Chain Lane) (w next : World Lane) {lane : Lane}
    {progress : BuyerLaneProgress} (hnow : next.now = w.now)
    (hlanes : next.row.lanes = w.row.lanes.insert lane progress) :
    next.untracked chain +
      (if (w.row.lanes.get lane).isNone then chain.redeemed w.now lane else 0) =
      w.untracked chain := by
  have hchange := sum_change
    (f := fun a => if (w.row.lanes.get a).isNone then chain.redeemed w.now a else 0)
    (g := fun a => if (next.row.lanes.get a).isNone then chain.redeemed next.now a else 0)
    lane fun a ha => by rw [hlanes, hnow, HashMap.get_insert, if_neg ha]
  have hself : (next.row.lanes.get lane).isNone = false := by
    rw [hlanes, HashMap.get_insert, if_pos rfl]
    rfl
  rw [hself, if_neg Bool.false_ne_true, Nat.add_zero] at hchange
  exact hchange

/-- What the untracked lanes have redeemed only adds up. -/
theorem untracked_le {chain : Chain Lane} {w next : World Lane}
    (hlanes : next.row.lanes = w.row.lanes) (hnow : w.now ≤ next.now) :
    w.untracked chain ≤ next.untracked chain := by
  refine sum_le_sum fun lane _ => ?_
  rw [hlanes]
  split
  · exact chain.redeemed_mono lane hnow
  · exact Nat.le_refl 0

/-- Where every tracked lane carries what it has redeemed, a read of the chain is at most the
tracked amounts and what the untracked lanes have redeemed. -/
theorem World.Covered.total_le {chain : Chain Lane} {w : World Lane} (hw : w.Covered chain)
    {moment : Nat} (h : moment ≤ w.now) :
    chain.totalRedeemed moment ≤ w.tracked + w.untracked chain := by
  rw [World.tracked, HashMap.total_eq_sum, World.untracked, ← sum_add_distrib]
  refine sum_le_sum fun lane _ => ?_
  have hmono : chain.redeemed moment lane ≤ chain.redeemed w.now lane :=
    chain.redeemed_mono lane h
  cases hget : w.row.lanes.get lane with
  | none => simpa using hmono
  | some progress => simpa using hmono.trans (hw lane progress hget)

theorem World.CountsOnce.step {chain : Chain Lane} {w : World Lane} {op : Op Lane}
    (hw : w.CountsOnce chain) (hcovered : w.Covered chain)
    (hnext : (w.step chain op).Covered chain) (hseeded : w.EntersSeeded chain op) :
    (w.step chain op).CountsOnce chain := by
  generalize hstep : w.step chain op = next at hnext
  have hmoved := moved_step chain w op
  rw [hstep] at hmoved
  rw [World.CountsOnce] at hw
  cases hmoved with
  | refused => exact hw
  | later => exact hw.trans (untracked_le rfl (Nat.le_succ _))
  | raised lane old progress htracked _ =>
    have huntracked := untracked_insert chain w { w with row :=
      { w.row with lanes := w.row.lanes.insert lane progress } } rfl rfl
    rw [htracked] at huntracked
    exact hw.trans huntracked.symm.le
  | seeded lane progress huntracked =>
    have hsplit := untracked_insert chain w { w with row :=
      { w.row with
        lanes := w.row.lanes.insert lane progress
        redeemedElsewhere := w.row.redeemedElsewhere - progress.lastAmount } } rfl rfl
    have hcarries := hnext lane progress (by
      rw [HashMap.get_insert, if_pos rfl]
      exact rfl)
    rw [huntracked, Option.isNone_none, if_pos rfl] at hsplit
    show w.row.redeemedElsewhere - progress.lastAmount ≤ _
    dsimp only at hcarries
    omega
  | entered lane bytes amount hop huntracked =>
    have hsplit := untracked_insert chain w { w with row :=
      { w.row with lanes := w.row.lanes.insert lane ⟨amount, bytes⟩ } } rfl rfl
    subst hop
    have hzero : chain.redeemed w.now lane = 0 := by
      rcases hseeded with htracked | hzero
      · rw [huntracked] at htracked
        exact absurd htracked Bool.false_ne_true
      · exact hzero
    rw [hzero, ite_self, Nat.add_zero] at hsplit
    exact hw.trans hsplit.symm.le
  | reconciled moment hmoment =>
    have hread := hcovered.total_le hmoment
    have hfits := chain.total_lt moment
    have hcommitted := committedAmount_eq w.row
    show max w.row.redeemedElsewhere
      (chain.totalRedeemed moment - w.row.committedAmount) ≤ w.untracked chain
    rw [World.tracked] at hread
    rw [← Chain.totalRedeemed] at hfits
    omega

/-- A residue that counts once bounds the spend. -/
theorem World.CountsOnce.spend_le {chain : Chain Lane} {w : World Lane}
    (hw : w.CountsOnce chain) : w.row.poolSpend ≤ w.tracked + w.untracked chain := by
  rw [World.CountsOnce] at hw
  rw [poolSpend_eq, World.tracked]
  omega

/-! ## Every run -/

/-- From a state whose spend covers its reads, every run leads to such states. -/
theorem World.CoversReads.run {chain : Chain Lane} {w : World Lane} (hw : w.CoversReads)
    (ops : List (Op Lane)) : (ops.foldl (World.step chain) w).CoversReads := by
  induction ops generalizing w with
  | nil => exact hw
  | cons op rest ih => exact ih (hw.step op)

omit [DecidableEq Lane] in
theorem start_coversReads (chain : Chain Lane) (start : Start) :
    (World.start chain start).CoversReads := by
  intro total htotal
  cases start with
  | opened => exact absurd htotal List.not_mem_nil
  | adopted now lag =>
    have hfits := chain.total_lt (now - lag)
    rw [← Chain.totalRedeemed] at hfits
    rw [poolSpend_eq, List.mem_singleton.mp htotal]
    show _ ≤ min (_ + chain.totalRedeemed (now - lag)) _
    omega

theorem Orderly.covered {chain : Chain Lane} {w : World Lane} {ops : List (Op Lane)}
    (h : Orderly chain w ops) : w.Covered chain := by
  cases ops with
  | nil => exact h
  | cons op rest => exact h.1

/-- From a state whose residue counts once, every orderly run leads to such states. -/
theorem World.CountsOnce.run {chain : Chain Lane} {w : World Lane} (hw : w.CountsOnce chain)
    {ops : List (Op Lane)} (h : Orderly chain w ops) :
    (ops.foldl (World.step chain) w).CountsOnce chain := by
  induction ops generalizing w with
  | nil => exact hw
  | cons op rest ih =>
    rcases h with ⟨hcovered, hseeded, hrest⟩
    exact ih (hw.step hcovered hrest.covered hseeded) hrest

theorem start_countsOnce (chain : Chain Lane) (start : Start) :
    (World.start chain start).CountsOnce chain := by
  cases start with
  | opened => exact Nat.zero_le _
  | adopted now lag =>
    exact sum_le_sum fun lane _ => chain.redeemed_mono lane (Nat.sub_le now lag)

/-- Over every history of the pool, every start of the row and every run, the spend is at least
every total that the row has been given; and in an orderly run it is at most the tracked
amounts and what the untracked lanes have redeemed. -/
theorem spend_counts_once (chain : Chain Lane) (start : Start) (ops : List (Op Lane)) :
    (∀ total ∈ (World.run chain start ops).given,
      total ≤ (World.run chain start ops).row.poolSpend) ∧
    (Orderly chain (.start chain start) ops → (World.run chain start ops).row.poolSpend ≤
      (World.run chain start ops).tracked + (World.run chain start ops).untracked chain) :=
  ⟨(start_coversReads chain start).run ops,
    fun h => ((start_countsOnce chain start).run h).spend_le⟩

/-! ## Two runs -/

/-- Of two lanes, one redeems 50 after the first moment. -/
def lateRedemption : Chain Bool where
  deposit _ := 1000
  bytesDelivered moment lane := if lane ∧ 1 ≤ moment then 100 else 0
  redeemed moment lane := if lane ∧ 1 ≤ moment then 50 else 0
  redeemed_mono lane a b hab := by
    dsimp only
    split <;> split <;> first | omega | grind
  total_lt moment := by
    have hle : ∀ lane : Bool, (if lane ∧ 1 ≤ moment then 50 else 0) ≤ 50 := by
      intro lane
      split <;> omega
    have hsum := sum_le_sum fun lane (_ : lane ∈ univ) => hle lane
    rw [sum_const, card_univ, Fintype.card_bool] at hsum
    unfold U256.modulus
    exact lt_of_le_of_lt hsum (by decide)

/-- The row opens the pool; the lane redeems before the row tracks it, a read counts it as the
spend of others, and then the row records it. -/
def lateOps : List (Op Bool) := [.passTime, .reconcileWithChain 0, .advanceLane true 100 50]

/-- No lane had redeemed when the row started, and every tracked lane carries at least what it
has redeemed, but the redeemed 50 are counted twice. -/
theorem late_lane_counts_twice :
    (∀ lane, lateRedemption.redeemed 0 lane = 0) ∧
    (∀ count ≤ 3, (World.run lateRedemption (.opened 0 1000) (lateOps.take count)).Covered
      lateRedemption) ∧
    (World.run lateRedemption (.opened 0 1000) lateOps).tracked = 50 ∧
    (World.run lateRedemption (.opened 0 1000) lateOps).untracked lateRedemption = 0 ∧
    (World.run lateRedemption (.opened 0 1000) lateOps).row.poolSpend = 100 := by
  decide +kernel

/-- The row of an adopted pool seeds the lane before it goes on. -/
def seededOps : List (Op Bool) :=
  [.seedLane true 0, .advanceLane true 200 80, .reconcileWithChain 1, .passTime]

theorem spend_counts_once_sample :
    Orderly lateRedemption (.start lateRedemption (.adopted 2 1)) seededOps ∧
      (World.run lateRedemption (.adopted 2 1) seededOps).given = [50, 50] ∧
      (World.run lateRedemption (.adopted 2 1) seededOps).row.poolSpend ≤
        (World.run lateRedemption (.adopted 2 1) seededOps).tracked +
          (World.run lateRedemption (.adopted 2 1) seededOps).untracked lateRedemption := by
  have horderly : Orderly lateRedemption (.start lateRedemption (.adopted 2 1)) seededOps := by
    decide +kernel
  exact ⟨horderly, by decide +kernel,
    (spend_counts_once lateRedemption (.adopted 2 1) seededOps).2 horderly⟩

end Decdn.Incentive.BuyerPool
