import Decdn.Foundations.Runs
import Decdn.Foundations.Words
import Mathlib.Algebra.Order.BigOperators.Group.List
import Mathlib.Algebra.Order.Group.Nat
import Mathlib.Tactic.Cases

/-!
# The ramp credit of a lane

The credit that opens a stream's window beyond its floor (`handlers/client/ramp.rs`).
A lane pools the content its fully paid streams served.  A new stream takes the
pool; it returns what it took with its own content when it ends fully paid, gives
it back untouched when it is refused before its first byte, and forfeits it when it
ends any other way.

Main results:

- Theorem `apply_books`: one step of any stream keeps the books of the lane.
- Theorem `ramp_credit_conserved`: in every interleaving each paid byte is counted
  once.
-/

namespace Decdn.Node

open U64 (saturatingAdd)

/-! ## The pool and the carries -/

/-- `RampPool::take`: what is taken, and what is left. -/
def rampTake (credit cap : Nat) : Nat × Nat := (min credit cap, credit - cap)

/-- `RampPool::bank`. -/
def rampBank (credit bytes cap : Nat) : Nat :=
  if bytes = 0 ∨ cap = 0 then credit else min (saturatingAdd credit bytes) cap

/-- `RampCarry`, apart from the pool and the cap it shares with the lane. -/
structure RampCarry where
  carried : Nat
  delivering : Bool
deriving DecidableEq, Repr

/-- `RampCarry::take`: the carry, and the pool it leaves. -/
def RampCarry.take (pool cap : Nat) : RampCarry × Nat :=
  let (carried, left) := rampTake pool cap
  (⟨carried, false⟩, left)

/-- `RampCarry::start_delivery`. -/
def RampCarry.startDelivery (carry : RampCarry) : RampCarry := { carry with delivering := true }

/-- `RampCarry::ramp_paid`. -/
def RampCarry.rampPaid (carry : RampCarry) (ownPaid : Nat) : Nat :=
  saturatingAdd carry.carried ownPaid

/-- The destructor: the pool after the carry is dropped. -/
def RampCarry.drop (carry : RampCarry) (pool cap : Nat) : Nat :=
  if carry.delivering then pool else rampBank pool carry.carried cap

/-- `RampCarry::return_paid`: the pool after the credit is banked, and the emptied carry is
dropped. -/
def RampCarry.returnPaid (carry : RampCarry) (paidContent pool cap : Nat) : Nat :=
  let banked := rampBank pool (saturatingAdd carry.carried paidContent) cap
  { carry with carried := 0 }.drop banked cap

/-- Banking adds what fits under the cap. -/
theorem rampBank_eq (bytes : Nat) {credit cap : Nat} (hcredit : credit ≤ cap) (hcap : cap ≤ u64Max) :
    rampBank credit bytes cap = min (credit + bytes) cap := by
  unfold rampBank saturatingAdd
  split
  · rename_i hnone
    rcases hnone with rfl | rfl
    · omega
    · omega
  · omega

/-- A carry banks the sum of what it took and what its stream paid for, once. -/
theorem returnPaid_eq (carry : RampCarry) (paidContent : Nat) {pool cap : Nat} (hpool : pool ≤ cap)
    (hcap : cap ≤ u64Max) :
    carry.returnPaid paidContent pool cap = min (pool + (carry.carried + paidContent)) cap := by
  unfold RampCarry.returnPaid RampCarry.drop
  rw [rampBank_eq _ hpool hcap]
  dsimp only
  unfold saturatingAdd
  split
  · omega
  · unfold rampBank
    rw [if_pos (.inl rfl)]
    omega

/-! ## The streams of a lane -/

/-- A live stream: its carry, and the bytes it confirmed paid itself. -/
structure RampStream where
  carry : RampCarry
  ownPaid : Nat
deriving DecidableEq, Repr

/-- The credit a stream holds. -/
def RampStream.held (s : RampStream) : Nat := s.carry.carried + s.ownPaid

/-- The credit all live streams hold. -/
def heldTotal (live : List RampStream) : Nat := (live.map RampStream.held).sum

/-- A lane: its pool and its live streams; and in the books every byte paid since the start, the
credit forfeited by drops, the credit clamped by the cap, and the paid bytes beyond the content
that completed streams returned. -/
structure RampLane where
  pool : Nat
  live : List RampStream
  paid : Nat
  forfeited : Nat
  clamped : Nat
  overhead : Nat
deriving DecidableEq, Repr

/-- A lane nothing was paid on. -/
def RampLane.start : RampLane := ⟨0, [], 0, 0, 0, 0⟩

/-- What a stream does; streams are named by their place among the live ones. -/
inductive RampEvent where
  | open
  | startDelivery (k : Nat)
  | earn (k bytes : Nat)
  | returnPaid (k paidContent : Nat)
  | drop (k : Nat)
deriving DecidableEq, Repr

/-- One step of a lane with cap `cap`.  A stream returns at most the bytes it was paid for. -/
def RampLane.apply (cap : Nat) (lane : RampLane) : RampEvent → Option RampLane
  | .open =>
    let (carry, left) := RampCarry.take lane.pool cap
    some { lane with pool := left, live := lane.live ++ [⟨carry, 0⟩] }
  | .startDelivery k =>
    lane.live[k]?.map fun s =>
      { lane with live := lane.live.set k { s with carry := s.carry.startDelivery } }
  | .earn k bytes =>
    lane.live[k]?.map fun s =>
      { lane with
        live := lane.live.set k { s with ownPaid := s.ownPaid + bytes }
        paid := lane.paid + bytes }
  | .returnPaid k paidContent =>
    match lane.live[k]? with
    | none => none
    | some s =>
      if paidContent ≤ s.ownPaid then
        let pool := s.carry.returnPaid paidContent lane.pool cap
        some { lane with
          pool := pool
          live := lane.live.eraseIdx k
          clamped := lane.clamped + (lane.pool + (s.carry.carried + paidContent) - pool)
          overhead := lane.overhead + (s.ownPaid - paidContent) }
      else none
  | .drop k =>
    lane.live[k]?.map fun s =>
      let pool := s.carry.drop lane.pool cap
      { lane with
        pool := pool
        live := lane.live.eraseIdx k
        forfeited := lane.forfeited + if s.carry.delivering then s.held else s.ownPaid
        clamped := lane.clamped +
          if s.carry.delivering then 0 else lane.pool + s.carry.carried - pool }

/-! ## The books -/

variable {cap k : Nat} {live : List RampStream} {s t : RampStream} {lane lane' : RampLane}

/-- The credit of one live stream and of the others. -/
theorem heldTotal_eraseIdx (h : live[k]? = some s) :
    heldTotal live = s.held + heldTotal (live.eraseIdx k) := by
  rcases List.getElem?_eq_some_iff.mp h with ⟨hlt, rfl⟩
  unfold heldTotal
  rw [((List.getElem_cons_eraseIdx_perm hlt).map RampStream.held).sum_eq.symm, List.map_cons,
    List.sum_cons]

/-- Changing one live stream changes the credit by what that stream gains. -/
theorem heldTotal_set (h : live[k]? = some s) :
    heldTotal (live.set k t) + s.held = heldTotal live + t.held := by
  rcases List.getElem?_eq_some_iff.mp h with ⟨hlt, -⟩
  have hset : (live.set k t)[k]? = some t := List.getElem?_set_self hlt
  have hrest : (live.set k t).eraseIdx k = live.eraseIdx k := List.eraseIdx_set_eq
  rw [heldTotal_eraseIdx hset, heldTotal_eraseIdx h, hrest]
  omega

/-- A new stream holds what it took. -/
theorem heldTotal_concat (live : List RampStream) (s : RampStream) :
    heldTotal (live ++ [s]) = heldTotal live + s.held := by
  unfold heldTotal
  rw [List.map_append, List.sum_append, List.map_singleton, List.sum_singleton]

/-- The pool is within its cap, and the paid bytes are those pooled, held, forfeited, clamped or
spent on overhead. -/
structure RampLane.Books (cap : Nat) (lane : RampLane) : Prop where
  pool_le : lane.pool ≤ cap
  conserved : lane.pool + heldTotal lane.live + lane.forfeited + lane.clamped + lane.overhead =
    lane.paid

/-- What the end of one stream does to the pool and the books. -/
def RampLane.Ends (cap : Nat) (lane lane' : RampLane) : RampEvent → Prop
  | .returnPaid k paidContent => ∃ s, lane.live[k]? = some s ∧
      lane'.live = lane.live.eraseIdx k ∧
      lane'.pool = min (lane.pool + (s.carry.carried + paidContent)) cap ∧
      lane'.forfeited = lane.forfeited
  | .drop k => ∃ s, lane.live[k]? = some s ∧ lane'.live = lane.live.eraseIdx k ∧
      if s.carry.delivering then
        lane'.pool = lane.pool ∧ lane'.forfeited = lane.forfeited + s.held ∧
          lane'.clamped = lane.clamped
      else
        lane'.pool = min (lane.pool + s.carry.carried) cap ∧
          lane'.forfeited = lane.forfeited + s.ownPaid
  | _ => lane'.forfeited = lane.forfeited ∧ lane'.clamped = lane.clamped ∧
      lane'.overhead = lane.overhead

/-- One step keeps the books, and ends a stream as its way of ending says. -/
theorem apply_books (hcap : cap ≤ u64Max) (h : lane.Books cap) {e : RampEvent}
    (hstep : lane.apply cap e = some lane') : lane'.Books cap ∧ lane.Ends cap lane' e := by
  rcases h with ⟨hpool, hbooks⟩
  cases e with
  | «open» =>
    cases hstep
    have htotal := heldTotal_concat lane.live ⟨⟨min lane.pool cap, false⟩, 0⟩
    have hheld : RampStream.held ⟨⟨min lane.pool cap, false⟩, 0⟩ = min lane.pool cap := rfl
    refine ⟨⟨?_, ?_⟩, rfl, rfl, rfl⟩
    · exact (Nat.sub_le _ _).trans hpool
    · dsimp only [RampCarry.take, rampTake]
      rw [htotal, hheld]
      omega
  | startDelivery k =>
    rcases Option.map_eq_some_iff.mp hstep with ⟨s, hs, rfl⟩
    have htotal := heldTotal_set (t := { s with carry := s.carry.startDelivery }) hs
    have hheld : RampStream.held { s with carry := s.carry.startDelivery } = s.held := rfl
    refine ⟨⟨hpool, ?_⟩, rfl, rfl, rfl⟩
    dsimp only
    omega
  | earn k bytes =>
    rcases Option.map_eq_some_iff.mp hstep with ⟨s, hs, rfl⟩
    have htotal := heldTotal_set (t := { s with ownPaid := s.ownPaid + bytes }) hs
    have hheld : RampStream.held { s with ownPaid := s.ownPaid + bytes } = s.held + bytes :=
      (Nat.add_assoc _ _ _).symm
    refine ⟨⟨hpool, ?_⟩, rfl, rfl, rfl⟩
    dsimp only
    omega
  | returnPaid k paidContent =>
    unfold RampLane.apply at hstep
    dsimp only at hstep
    split at hstep
    · cases hstep
    · rename_i s hs
      split at hstep
      · rename_i hcontent
        cases hstep
        have htotal := heldTotal_eraseIdx hs
        have hbank := returnPaid_eq s.carry paidContent hpool hcap
        have hheld : s.held = s.carry.carried + s.ownPaid := rfl
        refine ⟨⟨?_, ?_⟩, s, hs, rfl, hbank, rfl⟩
        · dsimp only
          rw [hbank]
          exact Nat.min_le_right _ _
        · dsimp only
          rw [hbank]
          omega
      · cases hstep
  | drop k =>
    rcases Option.map_eq_some_iff.mp hstep with ⟨s, hs, rfl⟩
    have htotal := heldTotal_eraseIdx hs
    have hheld : s.held = s.carry.carried + s.ownPaid := rfl
    unfold RampCarry.drop
    cases hdelivering : s.carry.delivering with
    | true =>
      refine ⟨⟨hpool, ?_⟩, s, hs, rfl, ?_⟩
      · dsimp only
        rw [if_pos rfl, if_pos rfl, if_pos rfl]
        omega
      · rw [hdelivering]
        exact ⟨rfl, rfl, rfl⟩
    | false =>
      have hbank := rampBank_eq s.carry.carried hpool hcap
      dsimp only
      rw [if_neg Bool.false_ne_true, if_neg Bool.false_ne_true, if_neg Bool.false_ne_true, hbank]
      refine ⟨⟨Nat.min_le_right _ _, ?_⟩, s, hs, rfl, ?_⟩
      · dsimp only
        omega
      · rw [hdelivering, if_neg Bool.false_ne_true]
        exact ⟨rfl, rfl⟩

/-- In every interleaving of the streams of a lane: the pool is within its cap; every paid byte is
counted once, in the pool, with one live stream, or as forfeited, clamped or overhead, so that the
live streams and the pool never hold more than was paid; and the next step ends a stream as its
way of ending says. -/
theorem ramp_credit_conserved (hcap : cap ≤ u64Max)
    (hrun : Reaches (fun a e b => a.apply cap e = some b) (fun _ _ => True) .start lane) :
    lane.pool ≤ cap ∧
      lane.pool + heldTotal lane.live + lane.forfeited + lane.clamped + lane.overhead =
        lane.paid ∧
      (lane.live.map fun s => s.carry.rampPaid s.ownPaid).sum + lane.pool ≤ lane.paid ∧
      ∀ e lane', lane.apply cap e = some lane' → lane.Ends cap lane' e := by
  have hbooks : lane.Books cap := by
    refine hrun.invariant (I := RampLane.Books cap) ⟨Nat.zero_le _, rfl⟩ ?_
    rintro a e b - hstep ha
    exact (apply_books hcap ha hstep).1
  have hramp : (lane.live.map fun s => s.carry.rampPaid s.ownPaid).sum ≤ heldTotal lane.live :=
    List.sum_le_sum fun s _ => Nat.min_le_left _ _
  have hconserved := hbooks.conserved
  exact ⟨hbooks.pool_le, hconserved, by omega, fun e lane' h => (apply_books hcap hbooks h).2⟩

/-- Evaluating a list of steps is a run. -/
theorem ramp_reaches {e : List RampEvent}
    (h : runEvents (RampLane.apply cap) (fun _ _ => true) .start e = some lane) :
    Reaches (fun a e b => a.apply cap e = some b) (fun _ _ => True) .start lane :=
  Reaches.of_runEvents (fun _ _ _ => trivial) h

/-- A lane whose one stream took 90 bytes of credit that an earlier stream, paid for 100 bytes,
returned. -/
def sampleRampLane (delivering : Bool) : RampLane := ⟨0, [⟨⟨90, delivering⟩, 0⟩], 100, 0, 0, 10⟩

/-- The sample lane is reached. -/
theorem sampleRampLane_reaches (delivering : Bool) :
    Reaches (fun a e b => a.apply 1000 e = some b) (fun _ _ => True) .start
      (sampleRampLane delivering) := by
  have hopen : Reaches (fun a e b => a.apply 1000 e = some b) (fun _ _ => True) .start
      (sampleRampLane false) :=
    ramp_reaches (e := [.open, .startDelivery 0, .earn 0 100, .returnPaid 0 90, .open])
      (by decide +kernel)
  cases delivering with
  | false => exact hopen
  | true => exact hopen.tail (e := .startDelivery 0) trivial rfl

/-- The sample lane holds no more than was paid. -/
theorem ramp_credit_conserved_sample :
    ((sampleRampLane true).live.map fun s => s.carry.rampPaid s.ownPaid).sum +
      (sampleRampLane true).pool ≤ (sampleRampLane true).paid :=
  (ramp_credit_conserved (by decide) (sampleRampLane_reaches true)).2.2.1

/-- A stream that is dropped after its first byte loses the 90 bytes of credit it took, far below
the cap. -/
theorem dropped_carry_forfeits :
    Reaches (fun a e b => a.apply 1000 e = some b) (fun _ _ => True) .start
        (sampleRampLane true) ∧
      (sampleRampLane true).pool + heldTotal (sampleRampLane true).live = 90 ∧
      (sampleRampLane true).apply 1000 (.drop 0) = some ⟨0, [], 100, 90, 0, 10⟩ :=
  ⟨sampleRampLane_reaches true, rfl, rfl⟩

end Decdn.Node
