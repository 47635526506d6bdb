import Decdn.Foundations.Runs
import Decdn.Foundations.Words
import Mathlib.Data.List.Count
import Mathlib.Tactic.Ring

/-!
# The per-origin half-open circuit breaker

`crates/cache/src/circuit_breaker.rs` fronts every origin with a three-phase
breaker.  A caller that is admitted holds a `TrialGuard` until it records an
outcome or drops the guard; a guard remembers only whether it owns a HALF-OPEN
slot, not the cycle that gave it out.

The `World` puts the breaker among its callers: the clock, the guards that are
not yet resolved, each with the half-open cycle it was admitted in, and the
outcomes recorded so far.  The last two are bookkeeping that the code does not
have.

Main results:

- Theorem `Inv.step`: the budget invariant survives every step that resolves, in
  the HALF-OPEN phase, only guards of the current cycle.
- Theorem `trial_budget`: along every such run the in-flight counter is the number
  of trials of the cycle, HALF-OPEN ends on one of them, CLOSED trips at the
  threshold and nothing is admitted before the cooldown has passed.
- Theorem `stale_guards_break_the_budget`: a run with guards of an earlier cycle
  admits two trials on a budget of one.
-/

namespace Decdn.Cache.CircuitBreaker

/-! ## The policy -/

/-- `CircuitBreakerPolicy`: the thresholds are `u32`s, the cooldown is in milliseconds. -/
structure CircuitBreakerPolicy where
  enabled : Bool
  failureThreshold : Nat
  cooldownMs : Nat
  halfOpenMaxCalls : Nat
  failureThreshold_le : failureThreshold ≤ u32Max
  halfOpenMaxCalls_le : halfOpenMaxCalls ≤ u32Max

/-- The policy of an operator who sets nothing. -/
def CircuitBreakerPolicy.default : CircuitBreakerPolicy where
  enabled := true
  failureThreshold := 5
  cooldownMs := 30000
  halfOpenMaxCalls := 1
  failureThreshold_le := by decide
  halfOpenMaxCalls_le := by decide

/-- `CircuitBreakerPolicy::is_active`. -/
def CircuitBreakerPolicy.isActive (p : CircuitBreakerPolicy) : Bool :=
  p.enabled && decide (0 < p.failureThreshold)

/-- `resolve_circuit_breaker`: an active breaker must admit at least one trial. -/
def resolveCircuitBreaker (file : Option CircuitBreakerPolicy) :
    Except String CircuitBreakerPolicy :=
  let p := file.getD CircuitBreakerPolicy.default
  if p.isActive && !decide (1 ≤ p.halfOpenMaxCalls) then
    .error (s!"cache.circuit_breaker: half_open_max_calls ({p.halfOpenMaxCalls}) must be >= 1 " ++
      "when the breaker is active; otherwise it could never admit a trial pull to probe " ++
      "recovery and would stay open forever after the first trip")
  else
    .ok p

/-- What configuration hands to an active breaker admits at least one trial. -/
theorem resolveCircuitBreaker_ok {file : Option CircuitBreakerPolicy} {p : CircuitBreakerPolicy}
    (h : resolveCircuitBreaker file = .ok p) (hactive : p.isActive = true) :
    1 ≤ p.halfOpenMaxCalls := by
  unfold resolveCircuitBreaker at h
  dsimp only at h
  split at h
  · cases h
  · rename_i hpass
    cases h
    have hcalls : ¬ (file.getD CircuitBreakerPolicy.default).halfOpenMaxCalls = 0 := by
      simpa [hactive] using hpass
    omega

/-! ## The breaker -/

/-- `OriginOutcome`. -/
inductive OriginOutcome
  | available
  | unavailable
deriving DecidableEq, Repr

/-- `BreakerState`. -/
inductive BreakerState
  | closed
  | opened
  | halfOpen
deriving DecidableEq, Repr

/-- The state under the mutex; times are nanoseconds. -/
structure State where
  phase : BreakerState
  consecutiveFailures : Nat
  openedAt : Nat
  halfOpenInFlight : Nat
deriving DecidableEq, Repr

/-- The state `OriginBreaker::new` starts from. -/
def State.new : State where
  phase := .closed
  consecutiveFailures := 0
  openedAt := 0
  halfOpenInFlight := 0

/-- `TrialGuard`: whether it carries the breaker, and whether it owns a slot. -/
structure TrialGuard where
  breaker : Bool
  ownsSlot : Bool
deriving DecidableEq, Repr

/-- The guard of a disabled policy. -/
def TrialGuard.inert : TrialGuard := ⟨false, false⟩

/-- The guard of a CLOSED admission. -/
def closedGuard : TrialGuard := ⟨true, false⟩

/-- The guard of a HALF-OPEN trial. -/
def trialGuard : TrialGuard := ⟨true, true⟩

/-- `Admission`. -/
inductive Admission
  | proceed (state : BreakerState) (guard : TrialGuard)
  | shortCircuit
deriving DecidableEq, Repr

/-- `cooldown_ms` as a duration. -/
def CircuitBreakerPolicy.cooldown (p : CircuitBreakerPolicy) : Nat := 1000000 * p.cooldownMs

/-- `cooldown_elapsed`. -/
def cooldownElapsed (p : CircuitBreakerPolicy) (st : State) (now : Nat) : Bool :=
  decide (p.cooldown ≤ now - st.openedAt)

/-- `saturating_add(1)` on a `u32`. -/
def succSaturating (n : Nat) : Nat := min (n + 1) u32Max

/-- `OriginBreaker::open`. -/
def State.trip (st : State) (now : Nat) : State :=
  { st with phase := .opened, openedAt := now, consecutiveFailures := 0, halfOpenInFlight := 0 }

/-- `OriginBreaker::close`. -/
def State.close (st : State) : State :=
  { st with phase := .closed, consecutiveFailures := 0, halfOpenInFlight := 0 }

/-- `OriginBreaker::acquire`, with the clock reading it took before the lock. -/
def acquire (p : CircuitBreakerPolicy) (now : Nat) (st : State) : Admission × State :=
  if !p.isActive then
    (.proceed .closed TrialGuard.inert, st)
  else
    match st.phase with
    | .closed => (.proceed .closed closedGuard, st)
    | .opened =>
      if cooldownElapsed p st now then
        (.proceed .halfOpen trialGuard, { st with phase := .halfOpen, halfOpenInFlight := 1 })
      else
        (.shortCircuit, st)
    | .halfOpen =>
      if st.halfOpenInFlight < p.halfOpenMaxCalls then
        (.proceed .halfOpen trialGuard,
          { st with halfOpenInFlight := succSaturating st.halfOpenInFlight })
      else
        (.shortCircuit, st)

/-- `release_cancelled_trial`: neither the phase nor the cycle is looked at. -/
def releaseCancelledTrial (st : State) : State :=
  { st with halfOpenInFlight := st.halfOpenInFlight - 1 }

/-- `record_committed`: the outcome lands on whatever phase is current. -/
def recordCommitted (p : CircuitBreakerPolicy) (outcome : OriginOutcome) (now : Nat)
    (st : State) : State :=
  match st.phase with
  | .closed =>
    match outcome with
    | .available => { st with consecutiveFailures := 0 }
    | .unavailable =>
      let counted := { st with consecutiveFailures := succSaturating st.consecutiveFailures }
      if p.failureThreshold ≤ counted.consecutiveFailures then counted.trip now else counted
  | .halfOpen =>
    let released := { st with halfOpenInFlight := st.halfOpenInFlight - 1 }
    match outcome with
    | .available => released.close
    | .unavailable => released.trip now
  | .opened =>
    if outcome = .unavailable then { st with openedAt := now } else st

/-- `TrialGuard::record`. -/
def TrialGuard.record (g : TrialGuard) (p : CircuitBreakerPolicy) (outcome : OriginOutcome)
    (now : Nat) (st : State) : State :=
  if g.breaker then recordCommitted p outcome now st else st

/-- `Drop for TrialGuard`, reached without a `record` on cancellation only. -/
def TrialGuard.drop (g : TrialGuard) (st : State) : State :=
  if g.ownsSlot && g.breaker then releaseCancelledTrial st else st

/-! ## The breaker among its callers -/

/-- A guard in some caller's hands, with the half-open cycle it was admitted in. -/
structure Held where
  guard : TrialGuard
  cycle : Option Nat
deriving DecidableEq, Repr

/-- What the callers can look back on: recorded outcomes and recoveries. -/
inductive Mark
  | outcome (o : OriginOutcome)
  | recovery
deriving DecidableEq, Repr

/-- Consecutive `Unavailable` outcomes since the last `Available` or close, newest first. -/
def streak : List Mark → Nat
  | .outcome .unavailable :: ms => streak ms + 1
  | _ => 0

/-- The breaker, the clock, the unresolved guards and the record of the run. -/
structure World where
  clock : Nat
  breaker : State
  cycle : Nat
  held : List Held
  marks : List Mark
deriving DecidableEq, Repr

/-- A new breaker at some clock time. -/
def World.new (clock : Nat) : World where
  clock := clock
  breaker := State.new
  cycle := 0
  held := []
  marks := []

/-- What can happen.  A call reads the clock before it takes the lock, so its
reading may be older than the clock at the moment it is applied. -/
inductive Event
  | tick (elapsed : Nat)
  | acquire (now : Nat)
  | record (h : Held) (outcome : OriginOutcome) (now : Nat)
  | drop (h : Held)
deriving DecidableEq, Repr

/-- The trials of the current half-open cycle that are still running. -/
def World.currentTrials (w : World) : Nat :=
  w.held.countP fun h => h.cycle == some w.cycle

/-- Book an admission: a trial belongs to the cycle that is current after the call. -/
def World.admitted (w : World) (guard : TrialGuard) (st : State) : World :=
  let cycle := if w.breaker.phase = .opened then w.cycle + 1 else w.cycle
  { w with
    breaker := st
    cycle := cycle
    held := ⟨guard, if guard.ownsSlot then some cycle else none⟩ :: w.held }

/-- The marks a recorded outcome leaves; HALF-OPEN to CLOSED is a recovery. -/
def marksOf (before after : State) (outcome : OriginOutcome) : List Mark :=
  if before.phase = .halfOpen ∧ after.phase = .closed then
    [.recovery, .outcome outcome]
  else
    [.outcome outcome]

/-- One event, when it is enabled. -/
def World.apply (p : CircuitBreakerPolicy) (w : World) : Event → Option World
  | .tick elapsed => some { w with clock := w.clock + elapsed }
  | .acquire now =>
    if now ≤ w.clock then
      match CircuitBreaker.acquire p now w.breaker with
      | (.proceed _ guard, st) => some (w.admitted guard st)
      | (.shortCircuit, st) => some { w with breaker := st }
    else none
  | .record h outcome now =>
    if h ∈ w.held ∧ now ≤ w.clock then
      some { w with
        breaker := h.guard.record p outcome now w.breaker
        held := w.held.erase h
        marks := marksOf w.breaker (h.guard.record p outcome now w.breaker) outcome ++ w.marks }
    else none
  | .drop h =>
    if h ∈ w.held then
      some { w with breaker := h.guard.drop w.breaker, held := w.held.erase h }
    else none

/-- The step relation of the breaker and its callers. -/
def Step (p : CircuitBreakerPolicy) (w : World) (e : Event) (w' : World) : Prop :=
  w.apply p e = some w'

/-- While HALF-OPEN, only guards of the current cycle are resolved; a slot handed
back when none is booked is lost on the saturating subtraction and does no harm. -/
def InCycle (w : World) : Event → Prop
  | .record h _ _ => w.breaker.phase = .halfOpen → h.cycle = some w.cycle
  | .drop h => w.breaker.phase = .halfOpen → h.guard.ownsSlot = true →
      h.cycle = some w.cycle ∨ w.breaker.halfOpenInFlight = 0
  | _ => True

instance (w : World) : (e : Event) → Decidable (InCycle w e)
  | .record h _ _ => inferInstanceAs (Decidable (w.breaker.phase = .halfOpen → h.cycle = some w.cycle))
  | .drop h => inferInstanceAs (Decidable (w.breaker.phase = .halfOpen → h.guard.ownsSlot = true →
      h.cycle = some w.cycle ∨ w.breaker.halfOpenInFlight = 0))
  | .tick _ => inferInstanceAs (Decidable True)
  | .acquire _ => inferInstanceAs (Decidable True)

/-! ## What a step can do -/

variable {p : CircuitBreakerPolicy} {w w' : World}

/-- Below the ceiling a saturating increment is exact. -/
theorem succSaturating_eq {n : Nat} (h : n < u32Max) : succSaturating n = n + 1 :=
  Nat.min_eq_left h

/-- The cooldown test as an inequality. -/
theorem cooldownElapsed_iff (p : CircuitBreakerPolicy) (st : State) (now : Nat) :
    cooldownElapsed p st now = true ↔ p.cooldown ≤ now - st.openedAt := by
  unfold cooldownElapsed
  exact decide_eq_true_iff

/-- An admitted or refused call, phase by phase. -/
theorem acquire_cases {now : Nat} (hactive : p.isActive = true)
    (h : Step p w (.acquire now) w') :
    now ≤ w.clock ∧
    ((w.breaker.phase = .closed ∧
        w' = { w with held := ⟨closedGuard, none⟩ :: w.held }) ∨
     (w.breaker.phase = .opened ∧ p.cooldown ≤ now - w.breaker.openedAt ∧
        w' = { w with
          breaker := { w.breaker with phase := .halfOpen, halfOpenInFlight := 1 }
          cycle := w.cycle + 1
          held := ⟨trialGuard, some (w.cycle + 1)⟩ :: w.held }) ∨
     (w.breaker.phase = .halfOpen ∧ w.breaker.halfOpenInFlight < p.halfOpenMaxCalls ∧
        w' = { w with
          breaker := { w.breaker with halfOpenInFlight := w.breaker.halfOpenInFlight + 1 }
          held := ⟨trialGuard, some w.cycle⟩ :: w.held }) ∨
     (w.breaker.phase ≠ .closed ∧
        (w.breaker.phase = .opened → now - w.breaker.openedAt < p.cooldown) ∧ w' = w)) := by
  unfold Step World.apply at h
  dsimp only at h
  split at h
  · rename_i hnow
    refine ⟨hnow, ?_⟩
    unfold CircuitBreaker.acquire at h
    rw [if_neg (by simp [hactive])] at h
    cases hphase : w.breaker.phase with
    | closed =>
      left
      simp only [hphase] at h
      cases h
      simp [World.admitted, closedGuard, hphase]
    | opened =>
      right
      simp only [hphase] at h
      by_cases hcool : cooldownElapsed p w.breaker now = true
      · left
        simp only [hcool, if_true] at h
        cases h
        refine ⟨rfl, (cooldownElapsed_iff p w.breaker now).1 hcool, ?_⟩
        simp [World.admitted, trialGuard, hphase]
      · right
        right
        simp only [hcool] at h
        cases h
        have hlt : ¬ p.cooldown ≤ now - w.breaker.openedAt := fun hle =>
          hcool ((cooldownElapsed_iff p w.breaker now).2 hle)
        exact ⟨by simp, fun _ => Nat.lt_of_not_le hlt, rfl⟩
    | halfOpen =>
      right
      right
      simp only [hphase] at h
      by_cases hroom : w.breaker.halfOpenInFlight < p.halfOpenMaxCalls
      · left
        have hsat : succSaturating w.breaker.halfOpenInFlight = w.breaker.halfOpenInFlight + 1 :=
          succSaturating_eq (Nat.lt_of_lt_of_le hroom p.halfOpenMaxCalls_le)
        simp only [hroom, if_true, hsat] at h
        cases h
        simp [World.admitted, trialGuard, hphase, hroom]
      · right
        simp only [hroom, if_false] at h
        cases h
        simp
  · cases h

/-! ## The invariant of every run -/

/-- What holds whatever guards are resolved: no slot is booked outside HALF-OPEN,
a guard owns a slot exactly when it is a trial, and the failure counter of the
CLOSED phase counts the current streak. -/
structure Inv (p : CircuitBreakerPolicy) (w : World) : Prop where
  idle : w.breaker.phase ≠ .halfOpen → w.breaker.halfOpenInFlight = 0
  cycles : ∀ h ∈ w.held, ∀ n, h.cycle = some n → n ≤ w.cycle
  slots : ∀ h ∈ w.held, h.guard.breaker = true ∧ (h.guard.ownsSlot = true ↔ h.cycle.isSome = true)
  failures : w.breaker.phase = .closed →
    w.breaker.consecutiveFailures = streak w.marks ∧
      w.breaker.consecutiveFailures < p.failureThreshold
  opened : w.breaker.openedAt ≤ w.clock

/-- The half-open budget: the counter is the number of running trials of the cycle. -/
def Budget (p : CircuitBreakerPolicy) (w : World) : Prop :=
  w.breaker.phase = .halfOpen →
    w.breaker.halfOpenInFlight = w.currentTrials ∧ w.breaker.halfOpenInFlight ≤ p.halfOpenMaxCalls

/-- An active policy has a positive threshold. -/
theorem isActive_iff : p.isActive = true ↔ p.enabled = true ∧ 0 < p.failureThreshold := by
  simp [CircuitBreakerPolicy.isActive]

/-- A new breaker satisfies the invariant. -/
theorem Inv.new (hactive : p.isActive = true) (clock : Nat) : Inv p (World.new clock) where
  idle := by simp [World.new, State.new]
  cycles := by simp [World.new]
  slots := by simp [World.new]
  failures := by
    have := (isActive_iff.1 hactive).2
    simp [World.new, State.new, streak, this]
  opened := by simp [World.new, State.new]

/-- A recorded outcome, phase by phase. -/
theorem recordCommitted_cases (p : CircuitBreakerPolicy) (o : OriginOutcome) (now : Nat)
    (st : State) :
    (st.phase = .closed ∧ o = .available ∧
      recordCommitted p o now st = { st with consecutiveFailures := 0 }) ∨
    (st.phase = .closed ∧ o = .unavailable ∧
      p.failureThreshold ≤ succSaturating st.consecutiveFailures ∧
      recordCommitted p o now st = st.trip now) ∨
    (st.phase = .closed ∧ o = .unavailable ∧
      succSaturating st.consecutiveFailures < p.failureThreshold ∧
      recordCommitted p o now st =
        { st with consecutiveFailures := succSaturating st.consecutiveFailures }) ∨
    (st.phase = .halfOpen ∧ o = .available ∧ recordCommitted p o now st = st.close) ∨
    (st.phase = .halfOpen ∧ o = .unavailable ∧ recordCommitted p o now st = st.trip now) ∨
    (st.phase = .opened ∧
      recordCommitted p o now st =
        { st with openedAt := if o = .unavailable then now else st.openedAt }) := by
  unfold recordCommitted
  cases hphase : st.phase with
  | closed =>
    cases o with
    | available => simp
    | unavailable =>
      by_cases htrip : p.failureThreshold ≤ succSaturating st.consecutiveFailures
      · simp [htrip, State.trip]
      · simp [htrip]
        omega
  | opened =>
    cases o <;> simp [← hphase]
  | halfOpen =>
    cases o <;> simp [State.close, State.trip]

/-- A record step: a held guard's outcome is committed and the guard is gone. -/
theorem record_cases {h : Held} {o : OriginOutcome} {now : Nat} (hinv : Inv p w)
    (hstep : Step p w (.record h o now) w') :
    h ∈ w.held ∧ now ≤ w.clock ∧
    w' = { w with
      breaker := recordCommitted p o now w.breaker
      held := w.held.erase h
      marks := marksOf w.breaker (recordCommitted p o now w.breaker) o ++ w.marks } := by
  unfold Step World.apply at hstep
  dsimp only at hstep
  split at hstep
  · rename_i hen
    have hguard := (hinv.slots h hen.1).1
    simp only [TrialGuard.record, hguard, if_true] at hstep
    cases hstep
    exact ⟨hen.1, hen.2, rfl⟩
  · cases hstep

/-- A drop step: a trial hands its slot back, any other guard leaves the breaker alone. -/
theorem drop_cases {h : Held} (hinv : Inv p w) (hstep : Step p w (.drop h) w') :
    h ∈ w.held ∧
    ((h.cycle.isSome = true ∧
        w' = { w with breaker := releaseCancelledTrial w.breaker, held := w.held.erase h }) ∨
     (h.cycle = none ∧ w' = { w with held := w.held.erase h })) := by
  unfold Step World.apply at hstep
  dsimp only at hstep
  split at hstep
  · rename_i hmem
    refine ⟨hmem, ?_⟩
    rcases hinv.slots h hmem with ⟨hguard, hslot⟩
    by_cases hcycle : h.cycle.isSome = true
    · left
      simp only [TrialGuard.drop, hguard, hslot.2 hcycle, Bool.and_self, if_true] at hstep
      cases hstep
      exact ⟨hcycle, rfl⟩
    · right
      have hno : h.guard.ownsSlot = false := by
        simpa [hcycle] using hslot
      simp only [TrialGuard.drop, hno, Bool.false_and] at hstep
      cases hstep
      exact ⟨by simpa using hcycle, rfl⟩
  · cases hstep

/-- The counter of a CLOSED breaker is below the `u32` ceiling, so counting is exact. -/
theorem Inv.succSaturating_failures (hinv : Inv p w) (hphase : w.breaker.phase = .closed) :
    succSaturating w.breaker.consecutiveFailures = streak w.marks + 1 := by
  have hlt := hinv.failures hphase
  have hle := p.failureThreshold_le
  unfold succSaturating
  omega

/-- A call to `acquire` keeps the invariant. -/
theorem Inv.acquire {now : Nat} (hactive : p.isActive = true) (hinv : Inv p w)
    (hstep : Step p w (.acquire now) w') : Inv p w' := by
  rcases acquire_cases hactive hstep with ⟨-, hcases⟩
  rcases hcases with ⟨-, rfl⟩ | ⟨-, -, rfl⟩ | ⟨hphase, -, rfl⟩ | ⟨-, -, rfl⟩
  · refine ⟨hinv.idle, ?_, ?_, hinv.failures, hinv.opened⟩
    · intro h hmem n hn
      rcases List.mem_cons.1 hmem with rfl | hmem
      · simp at hn
      · exact hinv.cycles h hmem n hn
    · intro h hmem
      rcases List.mem_cons.1 hmem with rfl | hmem
      · simp [closedGuard]
      · exact hinv.slots h hmem
  · refine ⟨by simp, ?_, ?_, by simp, hinv.opened⟩
    · intro h hmem n hn
      rcases List.mem_cons.1 hmem with rfl | hmem
      · simp only [Option.some.injEq] at hn
        exact Nat.le_of_eq hn.symm
      · exact Nat.le_succ_of_le (hinv.cycles h hmem n hn)
    · intro h hmem
      rcases List.mem_cons.1 hmem with rfl | hmem
      · simp [trialGuard]
      · exact hinv.slots h hmem
  · refine ⟨by simp [hphase], ?_, ?_, by simp [hphase], hinv.opened⟩
    · intro h hmem n hn
      rcases List.mem_cons.1 hmem with rfl | hmem
      · simp only [Option.some.injEq] at hn
        exact Nat.le_of_eq hn.symm
      · exact hinv.cycles h hmem n hn
    · intro h hmem
      rcases List.mem_cons.1 hmem with rfl | hmem
      · simp [trialGuard]
      · exact hinv.slots h hmem
  · exact hinv

/-- Committing an outcome keeps the invariant, whichever guard it comes from. -/
theorem Inv.record {h : Held} {o : OriginOutcome} {now : Nat} (hactive : p.isActive = true)
    (hinv : Inv p w) (hstep : Step p w (.record h o now) w') : Inv p w' := by
  rcases record_cases hinv hstep with ⟨-, hnow, rfl⟩
  have hpos := (isActive_iff.1 hactive).2
  refine ⟨?_, fun g hg => hinv.cycles g (List.mem_of_mem_erase hg),
    fun g hg => hinv.slots g (List.mem_of_mem_erase hg), ?_, ?_⟩
  · intro hphase
    rcases recordCommitted_cases p o now w.breaker with
      ⟨hc, -, heq⟩ | ⟨-, -, -, heq⟩ | ⟨hc, -, -, heq⟩ | ⟨-, -, heq⟩ | ⟨-, -, heq⟩ | ⟨hc, heq⟩
    · simp only [heq]
      exact hinv.idle (by simp [hc])
    · simp [heq, State.trip]
    · simp only [heq]
      exact hinv.idle (by simp [hc])
    · simp [heq, State.close]
    · simp [heq, State.trip]
    · simp only [heq]
      exact hinv.idle (by simp [hc])
  · intro hphase
    rcases recordCommitted_cases p o now w.breaker with
      ⟨hc, rfl, heq⟩ | ⟨-, -, -, heq⟩ | ⟨hc, rfl, hlt, heq⟩ | ⟨hc, rfl, heq⟩ | ⟨-, -, heq⟩ |
        ⟨hc, heq⟩
    · simp [heq, marksOf, hc, streak, hpos]
    · simp [heq, State.trip] at hphase
    · have hcount := hinv.succSaturating_failures hc
      simp only [heq, marksOf, hc]
      rw [hcount] at hlt ⊢
      simpa [streak] using hlt
    · simp [heq, State.close, marksOf, hc, streak, hpos]
    · simp [heq, State.trip] at hphase
    · simp [heq, hc] at hphase
  · have hopened := hinv.opened
    rcases recordCommitted_cases p o now w.breaker with
      ⟨-, -, heq⟩ | ⟨-, -, -, heq⟩ | ⟨-, -, -, heq⟩ | ⟨-, -, heq⟩ | ⟨-, -, heq⟩ | ⟨-, heq⟩
    · simpa [heq] using hopened
    · simpa [heq, State.trip] using hnow
    · simpa [heq] using hopened
    · simpa [heq, State.close] using hopened
    · simpa [heq, State.trip] using hnow
    · simp only [heq]
      split <;> assumption

/-- Dropping a guard keeps the invariant. -/
theorem Inv.drop {h : Held} (hinv : Inv p w) (hstep : Step p w (.drop h) w') : Inv p w' := by
  rcases drop_cases hinv hstep with ⟨-, hcases⟩
  rcases hcases with ⟨-, rfl⟩ | ⟨-, rfl⟩
  · refine ⟨?_, fun g hg => hinv.cycles g (List.mem_of_mem_erase hg),
      fun g hg => hinv.slots g (List.mem_of_mem_erase hg), hinv.failures, hinv.opened⟩
    intro hphase
    have := hinv.idle hphase
    simp [releaseCancelledTrial, this]
  · exact ⟨hinv.idle, fun g hg => hinv.cycles g (List.mem_of_mem_erase hg),
      fun g hg => hinv.slots g (List.mem_of_mem_erase hg), hinv.failures, hinv.opened⟩

/-- Every step keeps the invariant. -/
theorem Inv.step {e : Event} (hactive : p.isActive = true) (hinv : Inv p w)
    (hstep : Step p w e w') : Inv p w' := by
  cases e with
  | tick elapsed =>
    cases hstep
    exact ⟨hinv.idle, hinv.cycles, hinv.slots, hinv.failures,
      Nat.le_trans hinv.opened (Nat.le_add_right _ _)⟩
  | acquire now => exact Inv.acquire hactive hinv hstep
  | record h o now => exact Inv.record hactive hinv hstep
  | drop h => exact Inv.drop hinv hstep

/-! ## The budget under the cycle condition -/

/-- No guard is yet of a cycle that has not begun. -/
theorem Inv.countP_next_cycle (hinv : Inv p w) :
    w.held.countP (fun h => h.cycle == some (w.cycle + 1)) = 0 := by
  rw [List.countP_eq_zero]
  intro h hmem hcycle
  have hle := hinv.cycles h hmem (w.cycle + 1) (by simpa using hcycle)
  omega

/-- A trial of the cycle that is resolved is one trial less. -/
theorem currentTrials_erase {h : Held} (hmem : h ∈ w.held) (hcycle : h.cycle = some w.cycle) :
    (w.held.erase h).countP (fun g => g.cycle == some w.cycle) = w.currentTrials - 1 := by
  rw [List.countP_erase]
  simp [World.currentTrials, hmem, hcycle]

/-- A guard of another admission does not count. -/
theorem currentTrials_erase_other {h : Held} (hcycle : h.cycle ≠ some w.cycle) :
    (w.held.erase h).countP (fun g => g.cycle == some w.cycle) = w.currentTrials := by
  rw [List.countP_erase]
  simp [World.currentTrials, hcycle]

/-- The budget survives every step that resolves no stale guard while HALF-OPEN. -/
theorem Budget.step {e : Event} (hactive : p.isActive = true) (hcalls : 1 ≤ p.halfOpenMaxCalls)
    (hinv : Inv p w) (hbudget : Budget p w) (hin : InCycle w e) (hstep : Step p w e w') :
    Budget p w' := by
  cases e with
  | tick elapsed =>
    cases hstep
    exact hbudget
  | acquire now =>
    rcases acquire_cases hactive hstep with ⟨-, hcases⟩
    rcases hcases with ⟨hphase, rfl⟩ | ⟨-, -, rfl⟩ | ⟨hphase, hroom, rfl⟩ | ⟨-, -, rfl⟩
    · intro hopen
      simp [hphase] at hopen
    · intro _
      have hnone := hinv.countP_next_cycle
      simp [World.currentTrials, hnone, hcalls]
    · intro _
      have hcount := (hbudget hphase).1
      simp only [World.currentTrials] at hcount ⊢
      simp [hcount]
      omega
    · exact hbudget
  | record h o now =>
    rcases record_cases hinv hstep with ⟨-, -, rfl⟩
    intro hopen
    -- no outcome leaves the breaker HALF-OPEN
    exfalso
    rcases recordCommitted_cases p o now w.breaker with
      ⟨hc, -, heq⟩ | ⟨-, -, -, heq⟩ | ⟨hc, -, -, heq⟩ | ⟨-, -, heq⟩ | ⟨-, -, heq⟩ | ⟨hc, heq⟩
    all_goals simp_all [State.trip, State.close]
  | drop h =>
    rcases drop_cases hinv hstep with ⟨hmem, hcases⟩
    rcases hcases with ⟨hsome, rfl⟩ | ⟨hnone, rfl⟩
    · intro hopen
      have hphase : w.breaker.phase = .halfOpen := hopen
      rcases hbudget hphase with ⟨hcount, hle⟩
      have hslot := (hinv.slots h hmem).2.2 hsome
      simp only [releaseCancelledTrial, World.currentTrials]
      by_cases hcycle : h.cycle = some w.cycle
      · rw [currentTrials_erase hmem hcycle, hcount]
        exact ⟨rfl, by omega⟩
      · rcases hin hphase hslot with hcur | hzero
        · exact absurd hcur hcycle
        · rw [currentTrials_erase_other hcycle, hzero]
          omega
    · intro hopen
      have hphase : w.breaker.phase = .halfOpen := hopen
      simp only [World.currentTrials]
      rw [currentTrials_erase_other (by simp [hnone])]
      exact hbudget hphase

/-! ## Whole runs -/

/-- HALF-OPEN ends only when a held guard records an outcome. -/
theorem leaves_halfOpen {e : Event} (hactive : p.isActive = true) (hinv : Inv p w)
    (hstep : Step p w e w') (hphase : w.breaker.phase = .halfOpen)
    (hleft : w'.breaker.phase ≠ .halfOpen) :
    ∃ h o now, e = .record h o now ∧ h ∈ w.held := by
  cases e with
  | tick elapsed =>
    cases hstep
    exact absurd hphase hleft
  | acquire now =>
    rcases acquire_cases hactive hstep with ⟨-, hcases⟩
    rcases hcases with ⟨hother, -⟩ | ⟨hother, -, -⟩ | ⟨-, -, rfl⟩ | ⟨-, -, rfl⟩
    · simp [hphase] at hother
    · simp [hphase] at hother
    · exact absurd hphase hleft
    · exact absurd hphase hleft
  | record h o now =>
    rcases record_cases hinv hstep with ⟨hmem, -, -⟩
    exact ⟨h, o, now, rfl, hmem⟩
  | drop h =>
    rcases drop_cases hinv hstep with ⟨-, hcases⟩
    rcases hcases with ⟨-, rfl⟩ | ⟨-, rfl⟩
    · exact absurd hphase hleft
    · exact absurd hphase hleft

/-- A CLOSED breaker trips exactly when the streak reaches the threshold. -/
theorem trips_iff {e : Event} (hactive : p.isActive = true) (hinv : Inv p w)
    (hstep : Step p w e w') (hphase : w.breaker.phase = .closed) :
    w'.breaker.phase = .opened ↔ streak w'.marks = p.failureThreshold := by
  have hfail := hinv.failures hphase
  have hpos := (isActive_iff.1 hactive).2
  have hquiet : w'.breaker.phase = .closed → w'.marks = w.marks →
      (w'.breaker.phase = .opened ↔ streak w'.marks = p.failureThreshold) := by
    intro hclosed hmarks
    rw [hclosed, hmarks]
    simp
    omega
  cases e with
  | tick elapsed =>
    cases hstep
    exact hquiet hphase rfl
  | acquire now =>
    rcases acquire_cases hactive hstep with ⟨-, hcases⟩
    rcases hcases with ⟨-, rfl⟩ | ⟨hother, -, -⟩ | ⟨hother, -, -⟩ | ⟨-, -, rfl⟩
    · exact hquiet hphase rfl
    · simp [hphase] at hother
    · simp [hphase] at hother
    · exact hquiet hphase rfl
  | record h o now =>
    rcases record_cases hinv hstep with ⟨-, -, rfl⟩
    have hcount := hinv.succSaturating_failures hphase
    rcases recordCommitted_cases p o now w.breaker with
      ⟨-, rfl, heq⟩ | ⟨-, rfl, hge, heq⟩ | ⟨-, rfl, hlt, heq⟩ | ⟨hc, -⟩ | ⟨hc, -⟩ | ⟨hc, -⟩
    · simp only [heq, marksOf, hphase]
      simp [streak]
      omega
    · simp only [heq, marksOf, State.trip, hphase]
      simp [streak]
      omega
    · simp only [heq, marksOf, hphase]
      simp [streak]
      omega
    · simp [hphase] at hc
    · simp [hphase] at hc
    · simp [hphase] at hc
  | drop h =>
    rcases drop_cases hinv hstep with ⟨-, hcases⟩
    rcases hcases with ⟨-, rfl⟩ | ⟨-, rfl⟩
    · exact hquiet hphase rfl
    · exact hquiet hphase rfl

/-- An OPEN breaker whose cooldown has not passed sheds every call. -/
theorem acquire_shortCircuit {now : Nat} (hactive : p.isActive = true)
    (hphase : w.breaker.phase = .opened) (hnow : now ≤ w.clock)
    (hearly : w.clock < w.breaker.openedAt + p.cooldown) (hinv : Inv p w) :
    acquire p now w.breaker = (.shortCircuit, w.breaker) := by
  have hopened := hinv.opened
  have hcool : cooldownElapsed p w.breaker now = false := by
    simp only [cooldownElapsed, decide_eq_false_iff_not]
    omega
  unfold acquire
  rw [if_neg (by simp [hactive])]
  simp [hphase, hcool]

/-- Before the cooldown has passed, no step ends the OPEN phase. -/
theorem stays_opened {e : Event} (hactive : p.isActive = true) (hinv : Inv p w)
    (hstep : Step p w e w') (hphase : w.breaker.phase = .opened)
    (hearly : w.clock < w.breaker.openedAt + p.cooldown) : w'.breaker.phase = .opened := by
  cases e with
  | tick elapsed =>
    cases hstep
    exact hphase
  | acquire now =>
    have hopened := hinv.opened
    rcases acquire_cases hactive hstep with ⟨hnow, hcases⟩
    rcases hcases with ⟨hother, -⟩ | ⟨-, hcool, -⟩ | ⟨hother, -, -⟩ | ⟨-, -, rfl⟩
    · simp [hphase] at hother
    · omega
    · simp [hphase] at hother
    · exact hphase
  | record h o now =>
    rcases record_cases hinv hstep with ⟨-, -, rfl⟩
    rcases recordCommitted_cases p o now w.breaker with
      ⟨hc, -⟩ | ⟨hc, -⟩ | ⟨hc, -⟩ | ⟨hc, -⟩ | ⟨hc, -⟩ | ⟨-, heq⟩
    · simp [hphase] at hc
    · simp [hphase] at hc
    · simp [hphase] at hc
    · simp [hphase] at hc
    · simp [hphase] at hc
    · simp [heq, hphase]
  | drop h =>
    rcases drop_cases hinv hstep with ⟨-, hcases⟩
    rcases hcases with ⟨-, rfl⟩ | ⟨-, rfl⟩
    · exact hphase
    · exact hphase

/-- The calls and outcomes that come while the cooldown still runs. -/
def CoolingDown (p : CircuitBreakerPolicy) (w : World) (_ : Event) : Prop :=
  w.clock < w.breaker.openedAt + p.cooldown

/-- A breaker that cools down stays OPEN. -/
theorem cooling_down_run (hactive : p.isActive = true) (hinv : Inv p w)
    (hphase : w.breaker.phase = .opened) (hrun : Reaches (Step p) (CoolingDown p) w w') :
    Inv p w' ∧ w'.breaker.phase = .opened := by
  apply hrun.invariant (I := fun v => Inv p v ∧ v.breaker.phase = .opened) ⟨hinv, hphase⟩
  rintro a e b hearly hstep ⟨ha, hopen⟩
  exact ⟨ha.step hactive hstep, stays_opened hactive ha hstep hopen hearly⟩

/-- Along every run of an active breaker with a positive budget in which only
guards of the current cycle are resolved while HALF-OPEN: the counter is the number
of running trials of the cycle and within the budget, HALF-OPEN ends on the outcome
of a trial of the cycle, CLOSED trips exactly at the threshold, and from a trip on
nothing is admitted before the cooldown has passed. -/
theorem trial_budget (p : CircuitBreakerPolicy) (hactive : p.isActive = true)
    (hcalls : 1 ≤ p.halfOpenMaxCalls) (clock : Nat) (w : World)
    (hrun : Reaches (Step p) InCycle (World.new clock) w) :
    (w.breaker.phase = .halfOpen →
      w.breaker.halfOpenInFlight = w.currentTrials ∧ w.currentTrials ≤ p.halfOpenMaxCalls) ∧
    (∀ e w', InCycle w e → Step p w e w' →
      w.breaker.phase = .halfOpen → w'.breaker.phase ≠ .halfOpen →
        ∃ h o now, e = .record h o now ∧ h ∈ w.held ∧ h.cycle = some w.cycle) ∧
    (∀ e w', Step p w e w' → w.breaker.phase = .closed →
      (w'.breaker.phase = .opened ↔ streak w'.marks = p.failureThreshold)) ∧
    (∀ w', w.breaker.phase = .opened → Reaches (Step p) (CoolingDown p) w w' →
      w'.breaker.phase = .opened ∧
        (w'.clock < w'.breaker.openedAt + p.cooldown →
          ∀ now ≤ w'.clock, acquire p now w'.breaker = (.shortCircuit, w'.breaker))) := by
  have hboth : Inv p w ∧ Budget p w := by
    apply hrun.invariant (I := fun v => Inv p v ∧ Budget p v)
    · exact ⟨Inv.new hactive clock, by simp [Budget, World.new, State.new]⟩
    · rintro a e b hin hstep ⟨ha, hb⟩
      exact ⟨ha.step hactive hstep, hb.step hactive hcalls ha hin hstep⟩
  rcases hboth with ⟨hinv, hbudget⟩
  refine ⟨?_, ?_, ?_, ?_⟩
  · intro hphase
    rcases hbudget hphase with ⟨hcount, hle⟩
    exact ⟨hcount, hcount ▸ hle⟩
  · intro e w' hin hstep hphase hleft
    rcases leaves_halfOpen hactive hinv hstep hphase hleft with ⟨h, o, now, rfl, hmem⟩
    exact ⟨h, o, now, rfl, hmem, hin hphase⟩
  · intro e w' hstep hphase
    exact trips_iff hactive hinv hstep hphase
  · intro w' hphase hcooling
    rcases cooling_down_run hactive hinv hphase hcooling with ⟨hinv', hopen⟩
    refine ⟨hopen, ?_⟩
    intro hearly now hnow
    exact acquire_shortCircuit hactive hopen hnow hearly hinv'

/-! ## Runs with guards of an earlier cycle -/

/-- The guard of a request admitted while CLOSED. -/
def closedHeld : Held := ⟨closedGuard, none⟩

/-- The guard of a trial of cycle `n`. -/
def trialHeld (n : Nat) : Held := ⟨trialGuard, some n⟩

/-- Six requests are admitted while CLOSED; five fail, the cooldown passes and a
trial is admitted. -/
def outage : List Event :=
  List.replicate 6 (.acquire 0) ++ List.replicate 5 (.record closedHeld .unavailable 0) ++
    [.tick 30000000000, .acquire 30000000000]

/-- The sixth request fails and re-opens the breaker; in the next cycle the first
trial is cancelled and gives back a slot that is not its own. -/
def straggler : List Event :=
  [.record closedHeld .unavailable 30000000000, .tick 30000000000, .acquire 60000000000,
    .drop (trialHeld 1), .acquire 60000000000]

/-- The breaker after the outage: one trial, and one request from before it. -/
def afterOutage : World where
  clock := 30000000000
  breaker := ⟨.halfOpen, 0, 0, 1⟩
  cycle := 1
  held := [trialHeld 1, closedHeld]
  marks := List.replicate 5 (.outcome .unavailable)

/-- The breaker after the stragglers: two trials of cycle two on one slot. -/
def afterStraggler : World where
  clock := 60000000000
  breaker := ⟨.halfOpen, 0, 30000000000, 1⟩
  cycle := 2
  held := [trialHeld 2, trialHeld 2]
  marks := List.replicate 6 (.outcome .unavailable)

/-- Under the default policy two trials run on a budget of one, and HALF-OPEN is left
on the outcome of a request that was admitted while CLOSED. -/
theorem stale_guards_break_the_budget :
    CircuitBreakerPolicy.default.isActive = true ∧
    (∃ w, Reaches (Step CircuitBreakerPolicy.default) (fun _ _ => True) (World.new 0) w ∧
      w.breaker.phase = .halfOpen ∧ w.breaker.halfOpenInFlight = 1 ∧ w.currentTrials = 2 ∧
      CircuitBreakerPolicy.default.halfOpenMaxCalls = 1) ∧
    (∃ w w' h o now, Reaches (Step CircuitBreakerPolicy.default) (fun _ _ => True) (World.new 0) w ∧
      Step CircuitBreakerPolicy.default w (.record h o now) w' ∧
      w.breaker.phase = .halfOpen ∧ w'.breaker.phase = .opened ∧ h.cycle = none) := by
  have hevents : ∀ (es : List Event) (w : World),
      runEvents (World.apply CircuitBreakerPolicy.default) (fun _ _ => true) (World.new 0) es =
        some w →
      Reaches (Step CircuitBreakerPolicy.default) (fun _ _ => True) (World.new 0) w := by
    intro es w hrun
    exact Reaches.of_runEvents (fun _ _ _ => trivial) hrun
  refine ⟨by decide, ⟨afterStraggler, ?_, rfl, rfl, rfl, rfl⟩, ?_⟩
  · exact hevents (outage ++ straggler) afterStraggler (by decide +kernel)
  · refine ⟨afterOutage, _, closedHeld, .unavailable, 30000000000, ?_, rfl, rfl, rfl, rfl⟩
    exact hevents outage afterOutage (by decide +kernel)

/-- The theorem at a run of the default policy: an outage, the only open guard being
the trial of the cycle. -/
theorem trial_budget_outage :
    afterOutage.breaker.halfOpenInFlight = afterOutage.currentTrials ∧
      afterOutage.currentTrials ≤ CircuitBreakerPolicy.default.halfOpenMaxCalls := by
  have hevents : runEvents (World.apply CircuitBreakerPolicy.default)
      (fun w e => decide (InCycle w e)) (World.new 0) outage = some afterOutage := by
    decide +kernel
  have hrun : Reaches (Step CircuitBreakerPolicy.default) InCycle (World.new 0) afterOutage :=
    Reaches.of_runEvents (fun _ _ => of_decide_eq_true) hevents
  exact (trial_budget CircuitBreakerPolicy.default (by decide) (by decide) 0 afterOutage hrun).1 rfl

end Decdn.Cache.CircuitBreaker
