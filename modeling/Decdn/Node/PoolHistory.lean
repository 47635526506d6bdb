import Decdn.Foundations.FiniteMaps
import Decdn.Node.PoolView

/-!
# On-chain histories of a pool

What the settlement watcher can observe of the chain: a list of `PaymentPool` logs
in block order, each one admitted by the account of its pool just before it.  The
account of a pool after a prefix is the on-chain record that prefix gives, and a
`getPool` pinned at a block reads the account after every log up to that block.

Main results:

- Theorem `History.later`: along a history a pool's funds, redemptions and lanes
  only rise, its owner is fixed, and its close is final.
- Theorem `History.sound`: every account balances; the redemptions of a pool are
  the sum over its lanes, and a signer's spend is the sum over its own lanes.
-/

namespace Decdn.Node.PoolView

open PaymentPool (LaneSettled Event Pool)
open Finset

/-! ## Accounts -/

/-- A pool's on-chain record: the pool, what each lane was paid, and what each
signer spent. -/
structure Account where
  pool : Pool := {}
  paid : Address → Address → Nat := fun _ _ => 0
  spent : Address → Nat := fun _ => 0

namespace Account

variable {a b c : Account}

/-- One lane's settlement. -/
def settleLane (provider : Address) (a : Account) (lane : LaneSettled) : Account :=
  let delta := lane.newPaidCumulative - a.paid lane.signer provider
  { pool := { a.pool with totalRedeemed := a.pool.totalRedeemed + delta }
    paid := Function.update a.paid lane.signer
      (Function.update (a.paid lane.signer) provider lane.newPaidCumulative)
    spent := Function.update a.spent lane.signer (a.spent lane.signer + delta) }

/-- A settlement writes its own lane alone. -/
theorem settleLane_paid (provider signer p : Address) (a : Account) (lane : LaneSettled) :
    (a.settleLane provider lane).paid signer p =
      if signer = lane.signer ∧ p = provider then lane.newPaidCumulative
      else a.paid signer p := by
  unfold settleLane
  by_cases hs : signer = lane.signer
  · subst hs
    by_cases hp : p = provider
    · subst hp
      simp
    · simp [hp]
  · simp [hs]

/-- The record after one event of its pool. -/
def step (a : Account) : Event → Account
  | .poolOpened _ owner deposit =>
    { a with pool := { a.pool with owner := owner, status := .opened, deposit := deposit } }
  | .poolToppedUp _ _ newDeposit => { a with pool := { a.pool with deposit := newDeposit } }
  | .poolRedeemed _ provider lanes => lanes.foldl (settleLane provider) a
  | .poolCloseInitiated _ _ deadline =>
    { a with pool := { a.pool with status := .closing, disputeDeadline := deadline } }
  | .poolReclaimed _ _ _ => { a with pool := { a.pool with status := .closed } }
  | .disputeWindowUpdated _ _ => a
  | .rateBoundsUpdated _ => a
  | .minDepositUpdated _ _ => a

/-- The record after one event of any pool. -/
def apply (q : Bytes32) (a : Account) (e : Event) : Account :=
  if eventPool e = some q then a.step e else a

/-- Every lane of a redemption pays at least what it had been paid. -/
def Settles (provider : Address) : Account → List LaneSettled → Prop
  | _, [] => True
  | a, lane :: lanes =>
    a.paid lane.signer provider ≤ lane.newPaidCumulative ∧
      Settles provider (a.settleLane provider lane) lanes

/-- The contract's guards, read off the event it emits. -/
def Admits (a : Account) : Event → Prop
  | .poolOpened _ owner deposit => a.pool.owner = 0 ∧ owner ≠ 0 ∧ 0 < deposit ∧ deposit ≤ u64Max
  | .poolToppedUp _ additional newDeposit =>
    a.pool.owner ≠ 0 ∧ a.pool.status = .opened ∧ 0 < additional ∧
      newDeposit = a.pool.deposit + additional ∧ newDeposit ≤ u64Max
  | .poolRedeemed _ provider lanes =>
    a.pool.owner ≠ 0 ∧ a.pool.status ≠ .closed ∧ Settles provider a lanes ∧
      (lanes.foldl (settleLane provider) a).pool.totalRedeemed ≤ a.pool.deposit
  | .poolCloseInitiated _ _ deadline =>
    a.pool.owner ≠ 0 ∧ a.pool.status = .opened ∧ deadline ≤ u64Max
  | .poolReclaimed _ _ _ => a.pool.owner ≠ 0 ∧ a.pool.status = .closing
  | .disputeWindowUpdated _ _ => True
  | .rateBoundsUpdated _ => True
  | .minDepositUpdated _ _ => True

/-! ### What never goes back -/

/-- `b` is a later record of the same pool than `a`. -/
structure Later (a b : Account) : Prop where
  owner : a.pool.owner ≠ 0 → b.pool.owner = a.pool.owner
  deposit : a.pool.deposit ≤ b.pool.deposit
  redeemed : a.pool.totalRedeemed ≤ b.pool.totalRedeemed
  paid : ∀ signer provider, a.paid signer provider ≤ b.paid signer provider
  closing : a.pool.status = .closing →
    b.pool.status ≠ .opened ∧ b.pool.disputeDeadline = a.pool.disputeDeadline
  closed : a.pool.status = .closed →
    b.pool.status = .closed ∧ b.pool.disputeDeadline = a.pool.disputeDeadline

/-- A record is no older than itself. -/
theorem Later.refl (a : Account) : Later a a where
  owner _ := rfl
  deposit := Nat.le_refl _
  redeemed := Nat.le_refl _
  paid _ _ := Nat.le_refl _
  closing h := ⟨by rw [h]; simp, rfl⟩
  closed h := ⟨h, rfl⟩

/-- Lateness composes. -/
theorem Later.trans (h : Later a b) (h' : Later b c) : Later a c where
  owner ha := by
    have hb := h.owner ha
    rw [h'.owner (by rw [hb]; exact ha), hb]
  deposit := Nat.le_trans h.deposit h'.deposit
  redeemed := Nat.le_trans h.redeemed h'.redeemed
  paid signer provider := Nat.le_trans (h.paid signer provider) (h'.paid signer provider)
  closing ha := by
    rcases h.closing ha with ⟨hb, hdead⟩
    cases hs : b.pool.status with
    | opened => exact absurd hs hb
    | closing =>
      rcases h'.closing hs with ⟨hc, hdead'⟩
      exact ⟨hc, hdead'.trans hdead⟩
    | closed =>
      rcases h'.closed hs with ⟨hc, hdead'⟩
      exact ⟨by rw [hc]; simp, hdead'.trans hdead⟩
  closed ha := by
    rcases h.closed ha with ⟨hb, hdead⟩
    rcases h'.closed hb with ⟨hc, hdead'⟩
    exact ⟨hc, hdead'.trans hdead⟩

/-- The books of one record: its redemptions are the lanes' total, a signer's spend
is the total of its lanes, and nothing exceeds the 64-bit deposit. -/
structure Sound (a : Account) : Prop where
  blank : a.pool.owner = 0 → a = {}
  deposit : a.pool.deposit ≤ u64Max
  covered : a.pool.totalRedeemed ≤ a.pool.deposit
  redeemed : a.pool.totalRedeemed = ∑ signer, ∑ provider, a.paid signer provider
  spent : ∀ signer, a.spent signer = ∑ provider, a.paid signer provider
  deadline : a.pool.disputeDeadline ≤ u64Max

/-- The record of a pool nobody opened. -/
theorem sound_blank : Sound {} where
  blank _ := rfl
  deposit := Nat.zero_le _
  covered := Nat.le_refl _
  redeemed := by simp
  spent := by simp
  deadline := Nat.zero_le _

/-! ### One redemption -/

/-- The parts of the books a lane's settlement keeps. -/
structure Tally (a : Account) : Prop where
  redeemed : a.pool.totalRedeemed = ∑ signer, ∑ provider, a.paid signer provider
  spent : ∀ signer, a.spent signer = ∑ provider, a.paid signer provider

/-- A lane that pays no less than before keeps the tally. -/
theorem Tally.settleLane {provider : Address} {lane : LaneSettled} (h : Tally a)
    (hle : a.paid lane.signer provider ≤ lane.newPaidCumulative) :
    Tally (a.settleLane provider lane) := by
  have htotal := sum_sum_update_add a.paid id lane.signer provider lane.newPaidCumulative
  have hrow := sum_update_add (a.paid lane.signer) id provider lane.newPaidCumulative
  simp only [id] at htotal hrow
  constructor
  · have := h.redeemed
    simp only [Account.settleLane]
    omega
  · intro signer
    simp only [Account.settleLane]
    by_cases hsigner : signer = lane.signer
    · have := h.spent lane.signer
      subst hsigner
      simp only [Function.update_self]
      omega
    · simp only [Function.update_of_ne hsigner]
      exact h.spent signer

/-- The pool fields a redemption leaves alone. -/
structure SamePool (a b : Account) : Prop where
  owner : b.pool.owner = a.pool.owner
  status : b.pool.status = a.pool.status
  deadline : b.pool.disputeDeadline = a.pool.disputeDeadline
  deposit : b.pool.deposit = a.pool.deposit

/-- A whole redemption: the pool's other fields stay, and the lanes rise. -/
theorem redeem_facts {provider : Address} {lanes : List LaneSettled}
    (h : Settles provider a lanes) :
    SamePool a (lanes.foldl (settleLane provider) a) ∧
      Later a (lanes.foldl (settleLane provider) a) ∧
      (Tally a → Tally (lanes.foldl (settleLane provider) a)) := by
  induction lanes generalizing a with
  | nil => exact ⟨⟨rfl, rfl, rfl, rfl⟩, Later.refl a, id⟩
  | cons lane lanes ih =>
    rcases h with ⟨hle, hrest⟩
    rcases ih hrest with ⟨hsame, hlater, htally⟩
    have hone : Later a (a.settleLane provider lane) := by
      constructor
      · exact fun _ => rfl
      · exact Nat.le_refl _
      · exact Nat.le_add_right _ _
      · intro signer p
        rw [settleLane_paid]
        split
        · rename_i hlane
          rw [hlane.1, hlane.2]
          exact hle
        · exact Nat.le_refl _
      · intro hs
        exact ⟨by rw [show (a.settleLane provider lane).pool.status = _ from hs]; simp, rfl⟩
      · exact fun hs => ⟨hs, rfl⟩
    refine ⟨⟨hsame.owner, hsame.status, hsame.deadline, hsame.deposit⟩, hone.trans hlater, ?_⟩
    exact fun ht => htally (ht.settleLane hle)

/-! ### One event -/

/-- An admitted event gives a later record. -/
theorem Admits.later {e : Event} (h : a.Admits e) (hsound : a.Sound) : Later a (a.step e) := by
  cases e with
  | poolOpened id owner deposit =>
    have hblank := hsound.blank h.1
    subst hblank
    refine ⟨fun hne => absurd rfl hne, Nat.zero_le _, Nat.zero_le _, fun _ _ => Nat.le_refl _,
      ?_, ?_⟩
    · exact fun hs => nomatch hs
    · exact fun hs => nomatch hs
  | poolToppedUp id additional newDeposit =>
    rcases h with ⟨hne, hstatus, hpos, hnew, hmax⟩
    refine ⟨fun _ => rfl, ?_, Nat.le_refl _, fun _ _ => Nat.le_refl _, ?_, ?_⟩
    · simp only [step]
      omega
    · exact fun hs => absurd (hs.symm.trans hstatus) (by simp)
    · exact fun hs => absurd (hs.symm.trans hstatus) (by simp)
  | poolRedeemed id provider lanes => exact (redeem_facts h.2.2.1).2.1
  | poolCloseInitiated id owner deadline =>
    refine ⟨fun _ => rfl, Nat.le_refl _, Nat.le_refl _, fun _ _ => Nat.le_refl _, ?_, ?_⟩
    · exact fun hs => absurd (hs.symm.trans h.2.1) (by simp)
    · exact fun hs => absurd (hs.symm.trans h.2.1) (by simp)
  | poolReclaimed id owner refund =>
    refine ⟨fun _ => rfl, Nat.le_refl _, Nat.le_refl _, fun _ _ => Nat.le_refl _, ?_, ?_⟩
    · exact fun _ => ⟨by simp [step], rfl⟩
    · exact fun _ => ⟨rfl, rfl⟩
  | disputeWindowUpdated old new => exact Later.refl a
  | rateBoundsUpdated new => exact Later.refl a
  | minDepositUpdated old new => exact Later.refl a

/-- An admitted event keeps the books. -/
theorem Admits.sound {e : Event} (h : a.Admits e) (hsound : a.Sound) : (a.step e).Sound := by
  cases e with
  | poolOpened id owner deposit =>
    have hblank := hsound.blank h.1
    subst hblank
    refine ⟨fun hzero => absurd hzero h.2.1, h.2.2.2, Nat.zero_le _, ?_, ?_, Nat.zero_le _⟩
    · simp [step]
    · simp [step]
  | poolToppedUp id additional newDeposit =>
    rcases h with ⟨hne, hstatus, hpos, hnew, hmax⟩
    refine ⟨fun hzero => absurd hzero hne, hmax, ?_, hsound.redeemed, hsound.spent,
      hsound.deadline⟩
    have := hsound.covered
    simp only [step]
    omega
  | poolRedeemed id provider lanes =>
    rcases h with ⟨hne, hstatus, hsettles, hcovered⟩
    rcases redeem_facts hsettles with ⟨hsame, hlater, htally⟩
    have ht := htally ⟨hsound.redeemed, hsound.spent⟩
    refine ⟨?_, ?_, ?_, ht.redeemed, ht.spent, ?_⟩
    · intro hzero
      exact absurd (hsame.owner.symm.trans hzero) hne
    · exact hsame.deposit ▸ hsound.deposit
    · exact hsame.deposit ▸ hcovered
    · exact hsame.deadline ▸ hsound.deadline
  | poolCloseInitiated id owner deadline =>
    exact ⟨fun hzero => absurd hzero h.1, hsound.deposit, hsound.covered, hsound.redeemed,
      hsound.spent, h.2.2⟩
  | poolReclaimed id owner refund =>
    exact ⟨fun hzero => absurd hzero h.1, hsound.deposit, hsound.covered, hsound.redeemed,
      hsound.spent, hsound.deadline⟩
  | disputeWindowUpdated old new => exact hsound
  | rateBoundsUpdated new => exact hsound
  | minDepositUpdated old new => exact hsound

end Account

/-! ## Histories -/

/-- One mined log. -/
structure Log where
  block : Nat
  event : Event
deriving DecidableEq, Repr

/-- The record that a list of logs gives a pool. -/
def accountOf (q : Bytes32) (logs : List Log) : Account :=
  logs.foldl (fun a l => a.apply q l.event) {}

/-- The logs of one chain: in block order, each admitted by the record before it. -/
structure History where
  logs : List Log
  ordered : logs.Pairwise fun l l' => l.block ≤ l'.block
  admitted : ∀ i q l, logs[i]? = some l → eventPool l.event = some q →
    (accountOf q (logs.take i)).Admits l.event

namespace History

variable (H : History) (q : Bytes32)

/-- A pool's record after the first `i` logs. -/
def account (i : Nat) : Account :=
  accountOf q (H.logs.take i)

/-- A pool's on-chain deposit after the first `i` logs. -/
def deposit (i : Nat) : Nat :=
  (H.account q i).pool.deposit

/-- How many logs are mined up to `block`. -/
def upTo (block : Nat) : Nat :=
  H.logs.findIdx fun l => decide (block < l.block)

/-- `getPool` pinned at `block`: the owner and the read, for a pool worth serving. -/
def readAt (block : Nat) : Option (Address × PoolRead) :=
  let p := (H.account q (H.upTo block)).pool
  (resolvedLifecycle p).map fun lifecycle => (p.owner, ⟨q, p.deposit, p.totalRedeemed, lifecycle⟩)

/-- Whether `getPool` pinned at `block` finds the pool closed. -/
def closedAt (block : Nat) : Bool :=
  decide ((H.account q (H.upTo block)).pool.status = .closed)

variable {H q}

/-- The next log's effect on the record. -/
theorem account_succ {i : Nat} {l : Log} (h : H.logs[i]? = some l) :
    H.account q (i + 1) = (H.account q i).apply q l.event := by
  have hlt : i < H.logs.length := (List.getElem?_eq_some_iff.mp h).1
  have heq : H.logs[i] = l := (List.getElem?_eq_some_iff.mp h).2
  unfold account accountOf
  rw [List.take_succ_eq_append_getElem hlt, List.foldl_append, heq]
  rfl

/-- Past the last log nothing changes. -/
theorem account_succ_none {i : Nat} (h : H.logs[i]? = none) :
    H.account q (i + 1) = H.account q i := by
  have hle : H.logs.length ≤ i := List.getElem?_eq_none_iff.mp h
  unfold account
  rw [List.take_of_length_le hle, List.take_of_length_le (Nat.le_succ_of_le hle)]

/-- A log of the pool acts on its record. -/
theorem account_own {i : Nat} {l : Log} (h : H.logs[i]? = some l)
    (hq : eventPool l.event = some q) :
    H.account q (i + 1) = (H.account q i).step l.event := by
  rw [account_succ h, Account.apply, if_pos hq]

/-- A log of another pool leaves it alone. -/
theorem account_other {i : Nat} {l : Log} (h : H.logs[i]? = some l)
    (hq : eventPool l.event ≠ some q) : H.account q (i + 1) = H.account q i := by
  rw [account_succ h, Account.apply, if_neg hq]

/-- Every record along a history balances. -/
theorem sound (i : Nat) : (H.account q i).Sound := by
  induction i with
  | zero => exact Account.sound_blank
  | succ i ih =>
    cases hl : H.logs[i]? with
    | none => exact account_succ_none (q := q) hl ▸ ih
    | some l =>
      by_cases hq : eventPool l.event = some q
      · rw [account_own hl hq]
        exact (H.admitted i q l hl hq).sound ih
      · rw [account_other hl hq]
        exact ih

/-- One more log gives a later record. -/
theorem later_succ (i : Nat) : Account.Later (H.account q i) (H.account q (i + 1)) := by
  cases hl : H.logs[i]? with
  | none =>
    rw [account_succ_none hl]
    exact Account.Later.refl _
  | some l =>
    by_cases hq : eventPool l.event = some q
    · rw [account_own hl hq]
      exact (H.admitted i q l hl hq).later (sound i)
    · rw [account_other hl hq]
      exact Account.Later.refl _

/-- A longer prefix gives a later record. -/
theorem later {i k : Nat} (h : i ≤ k) : Account.Later (H.account q i) (H.account q k) := by
  induction k, h using Nat.le_induction with
  | base => exact Account.Later.refl _
  | succ k _ ih => exact ih.trans (later_succ k)

/-- A longer prefix has no smaller deposit. -/
theorem deposit_le {i k : Nat} (h : i ≤ k) : H.deposit q i ≤ H.deposit q k :=
  (later h).deposit

/-- The longer of two prefixes has the larger deposit. -/
theorem deposit_max (i k : Nat) :
    H.deposit q (max i k) = max (H.deposit q i) (H.deposit q k) := by
  have hmono : Monotone (H.deposit q) := fun _ _ => deposit_le
  exact hmono.map_max

/-- A pool that one prefix has opened and another has not: the first is longer. -/
theorem lt_of_owner {i k : Nat} (hi : (H.account q i).pool.owner = 0)
    (hk : (H.account q k).pool.owner ≠ 0) : i < k := by
  by_contra hge
  have hlater := (later (H := H) (q := q) (Nat.le_of_not_lt hge)).owner hk
  exact hk (hlater.symm.trans hi)

/-- After any log of a pool the pool is open for good. -/
theorem owner_of_log {i k : Nat} {l : Log} (h : H.logs[i]? = some l)
    (hq : eventPool l.event = some q) (hk : i < k) : (H.account q k).pool.owner ≠ 0 := by
  have hown : (H.account q (i + 1)).pool.owner ≠ 0 := by
    have hadmits := H.admitted i q l h hq
    have hlater := later_succ (H := H) (q := q) i
    rw [account_own h hq] at hlater ⊢
    cases hevent : l.event with
    | poolOpened id owner deposit =>
      rw [hevent] at hadmits
      exact hadmits.2.1
    | poolToppedUp id additional newDeposit =>
      rw [hevent] at hadmits
      exact hadmits.1
    | poolRedeemed id provider lanes =>
      rw [hevent] at hadmits hlater
      exact fun hzero => hadmits.1 ((hlater.owner hadmits.1).symm.trans hzero)
    | poolCloseInitiated id owner deadline =>
      rw [hevent] at hadmits
      exact hadmits.1
    | poolReclaimed id owner refund =>
      rw [hevent] at hadmits
      exact hadmits.1
    | disputeWindowUpdated old new =>
      rw [hevent] at hq
      cases hq
    | rateBoundsUpdated new =>
      rw [hevent] at hq
      cases hq
    | minDepositUpdated old new =>
      rw [hevent] at hq
      cases hq
  intro hzero
  exact hown ((later (H := H) (q := q) hk).owner hown ▸ hzero)

/-- A log is counted by a read exactly when it is mined at or below the read. -/
theorem lt_upTo_iff {i block : Nat} {l : Log} (h : H.logs[i]? = some l) :
    i < H.upTo block ↔ l.block ≤ block := by
  rcases List.getElem?_eq_some_iff.mp h with ⟨hlt, heq⟩
  constructor
  · intro hi
    have hnot := List.not_of_lt_findIdx hi
    rw [heq] at hnot
    simpa using hnot
  · intro hle
    by_contra hge
    have hge : H.upTo block ≤ i := Nat.le_of_not_lt hge
    have hfirst : H.upTo block < H.logs.length := Nat.lt_of_le_of_lt hge hlt
    have habove : block < H.logs[H.upTo block].block := by
      have hfound : decide (block < H.logs[H.upTo block].block) = true :=
        List.findIdx_getElem (p := fun l : Log => decide (block < l.block))
      exact of_decide_eq_true hfound
    have hsorted : H.logs[H.upTo block].block ≤ l.block := by
      rcases Nat.eq_or_lt_of_le hge with heq' | hlt'
      · have : H.logs[H.upTo block] = l := by
          rw [← heq]
          congr 1
        rw [this]
      · have := List.pairwise_iff_getElem.mp H.ordered _ _ hfirst hlt hlt'
        rwa [heq] at this
    omega

/-- What a read reports of the record it is taken from. -/
theorem readAt_eq_some {block : Nat} {owner : Address} {read : PoolRead}
    (h : H.readAt q block = some (owner, read)) :
    read.poolId = q ∧ owner = (H.account q (H.upTo block)).pool.owner ∧ owner ≠ 0 ∧
      read.deposit = (H.account q (H.upTo block)).pool.deposit ∧
      read.totalRedeemed = (H.account q (H.upTo block)).pool.totalRedeemed ∧
      (∀ d, read.lifecycle = .closing d →
        (H.account q (H.upTo block)).pool.status = .closing ∧
          (H.account q (H.upTo block)).pool.disputeDeadline = d) := by
  unfold readAt at h
  simp only [Option.map_eq_some_iff, Prod.mk.injEq] at h
  rcases h with ⟨lifecycle, hlife, howner, hread⟩
  subst howner hread
  unfold resolvedLifecycle at hlife
  split at hlife
  · cases hlife
  · rename_i hne
    refine ⟨rfl, rfl, hne, rfl, rfl, ?_⟩
    intro d hd
    cases hs : (H.account q (H.upTo block)).pool.status with
    | opened =>
      rw [hs] at hlife
      cases hlife
      cases hd
    | closing =>
      rw [hs] at hlife
      cases hlife
      cases hd
      exact ⟨rfl, rfl⟩
    | closed =>
      rw [hs] at hlife
      cases hlife

end History

end Decdn.Node.PoolView
