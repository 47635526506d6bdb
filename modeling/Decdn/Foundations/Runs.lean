import Mathlib.Logic.Relation

/-!
# Guarded runs

A system is a step relation labelled by events.  A run is a sequence of steps
whose events all meet a guard, so that "every run" and "every run whose steps
meet a condition" are the same notion at two guards.

Main results:

- Theorem `Reaches.invariant`: what every guarded step keeps holds after the run.
- Theorem `Reaches.measure_le`: a measure that no guarded step lowers is never
  lowered by a run.
- Theorem `Counted.goal`: enough work meets a goal that work brings nearer.
- Theorem `Reaches.map`: runs over named events.
- Theorem `Reaches.of_runEvents`: evaluating a list of events gives a run.
- Theorem `runEvents_invariant`: the invariant rule for evaluated runs.
- Theorem `runEvents_without`: leaving out events that a relation does not see.
-/

namespace Decdn

variable {S E : Type*} {step : S → E → S → Prop} {guard guard' : S → E → Prop} {s t u : S}

/-- `t` is reached from `s` by steps whose events all meet the guard. -/
def Reaches (step : S → E → S → Prop) (guard : S → E → Prop) : S → S → Prop :=
  Relation.ReflTransGen fun s t => ∃ e, guard s e ∧ step s e t

/-- The empty run. -/
theorem Reaches.refl (s : S) : Reaches step guard s s :=
  Relation.ReflTransGen.refl

/-- One more guarded step. -/
theorem Reaches.tail {e : E} (h : Reaches step guard s t) (hguard : guard t e)
    (hstep : step t e u) : Reaches step guard s u :=
  Relation.ReflTransGen.tail h ⟨e, hguard, hstep⟩

/-- Two runs in a row. -/
theorem Reaches.trans (h : Reaches step guard s t) (h' : Reaches step guard t u) :
    Reaches step guard s u :=
  Relation.ReflTransGen.trans h h'

/-- A run under a stronger guard is a run under a weaker one. -/
theorem Reaches.weaken (h : Reaches step guard s t) (hguard : ∀ s e, guard s e → guard' s e) :
    Reaches step guard' s t := by
  apply Relation.ReflTransGen.mono _ _ _ h
  rintro a b ⟨e, he, hstep⟩
  exact ⟨e, hguard a e he, hstep⟩

/-- What holds at the start and is kept by every guarded step holds at the end. -/
theorem Reaches.invariant {I : S → Prop} (h : Reaches step guard s t) (hinit : I s)
    (hkeep : ∀ a e b, guard a e → step a e b → I a → I b) : I t := by
  induction h with
  | refl => exact hinit
  | tail _ hlast ih =>
    rcases hlast with ⟨e, hguard, hstep⟩
    exact hkeep _ e _ hguard hstep ih

/-- A measure that no guarded step from an invariant state lowers does not fall
over a run. -/
theorem Reaches.measure_le {I : S → Prop} {f : S → Nat} (h : Reaches step guard s t) (hinit : I s)
    (hkeep : ∀ a e b, guard a e → step a e b → I a → I b)
    (hmono : ∀ a e b, guard a e → step a e b → I a → f a ≤ f b) : f s ≤ f t := by
  have hboth : I t ∧ f s ≤ f t := by
    refine h.invariant (I := fun a => I a ∧ f s ≤ f a) ⟨hinit, Nat.le_refl _⟩ ?_
    rintro a e b hguard hstep ⟨ha, hle⟩
    exact ⟨hkeep a e b hguard hstep ha, Nat.le_trans hle (hmono a e b hguard hstep ha)⟩
  exact hboth.2

/-! ## Progress -/

/-- A run with the number of its events that count as work. -/
inductive Counted (step : S → E → S → Prop) (work : E → Prop) (s : S) : Nat → S → Prop where
  | refl : Counted step work s 0 s
  | work {n : Nat} {t u : S} {e : E} (h : Counted step work s n t) (hwork : work e)
      (hstep : step t e u) : Counted step work s (n + 1) u
  | other {n : Nat} {t u : S} {e : E} (h : Counted step work s n t) (hwork : ¬ work e)
      (hstep : step t e u) : Counted step work s n u

/-- A goal that stays met is met once more work is done than a measure allows, if no event
raises the measure and work lowers it. -/
theorem Counted.goal {work : E → Prop} {I G : S → Prop} {f : S → Nat} {n : Nat}
    (h : Counted step work s n t) (hinit : I s) (hn : f s < n)
    (hkeep : ∀ a e b, step a e b → I a → I b)
    (hstay : ∀ a e b, step a e b → I a → G a → G b)
    (hmono : ∀ a e b, step a e b → I a → ¬ G a → G b ∨ f b ≤ f a)
    (hless : ∀ a e b, step a e b → work e → I a → ¬ G a → G b ∨ f b < f a) : G t := by
  have hboth : I t ∧ (G t ∨ f t + n ≤ f s) := by
    clear hn
    induction h with
    | refl => exact ⟨hinit, .inr (Nat.le_refl _)⟩
    | @work m a b e hrun hwork hstep ih =>
      rcases ih with ⟨ha, hgoal | hle⟩
      · exact ⟨hkeep a e b hstep ha, .inl (hstay a e b hstep ha hgoal)⟩
      · refine ⟨hkeep a e b hstep ha, ?_⟩
        by_cases hgoal : G a
        · exact .inl (hstay a e b hstep ha hgoal)
        · rcases hless a e b hstep hwork ha hgoal with hb | hb
          · exact .inl hb
          · exact .inr (by omega)
    | @other m a b e hrun hwork hstep ih =>
      rcases ih with ⟨ha, hgoal | hle⟩
      · exact ⟨hkeep a e b hstep ha, .inl (hstay a e b hstep ha hgoal)⟩
      · refine ⟨hkeep a e b hstep ha, ?_⟩
        by_cases hgoal : G a
        · exact .inl (hstay a e b hstep ha hgoal)
        · rcases hmono a e b hstep ha hgoal with hb | hb
          · exact .inl hb
          · exact .inr (by omega)
  rcases hboth.2 with hgoal | hle
  · exact hgoal
  · omega

/-! ## Runs by evaluation -/

/-- Take the listed steps in turn, each only if it is enabled and allowed. -/
def runEvents (apply : S → E → Option S) (allowed : S → E → Bool) : S → List E → Option S
  | s, [] => some s
  | s, e :: es =>
    if allowed s e then
      match apply s e with
      | some t => runEvents apply allowed t es
      | none => none
    else none

/-- A run whose events are given by names. -/
theorem Reaches.map {F : Type*} (f : F → E)
    (h : Reaches (fun s e t => step s (f e) t) (fun s e => guard s (f e)) s t) :
    Reaches step guard s t := by
  apply Relation.ReflTransGen.mono _ _ _ h
  rintro a b ⟨e, he, hstep⟩
  exact ⟨f e, he, hstep⟩

/-- A list of events that evaluates to `t` is a run to `t`. -/
theorem Reaches.of_runEvents {apply : S → E → Option S} {allowed : S → E → Bool} {es : List E}
    (hallowed : ∀ s e, allowed s e = true → guard s e)
    (h : runEvents apply allowed s es = some t) :
    Reaches (fun s e t => apply s e = some t) guard s t := by
  induction es generalizing s with
  | nil =>
    cases h
    exact Reaches.refl _
  | cons e es ih =>
    unfold runEvents at h
    split at h
    · rename_i hpass
      split at h
      · rename_i u hstep
        exact Relation.ReflTransGen.head ⟨e, hallowed s e hpass, hstep⟩ (ih h)
      · cases h
    · cases h

/-- What every enabled step keeps holds after the listed events. -/
theorem runEvents_invariant {apply : S → E → Option S} {allowed : S → E → Bool} {es : List E}
    {P : S → Prop} (hkeep : ∀ s e t, P s → apply s e = some t → P t) (hs : P s)
    (h : runEvents apply allowed s es = some t) : P t := by
  induction es generalizing s with
  | nil => exact Option.some.inj h ▸ hs
  | cons e es ih =>
    unfold runEvents at h
    split at h
    · split at h
      · rename_i u hstep
        exact ih (hkeep s e u hs hstep) h
      · cases h
    · cases h

/-- Two runs that differ in silent events only: if a relation survives a silent event on the right
and is kept by every other event on both sides, the events that are not silent run on the left. -/
theorem runEvents_without {apply : S → E → Option S} {allowed : S → E → Bool} {silent : E → Bool}
    {R : S → S → Prop} {es : List E}
    (hsilent : ∀ a b e b', R a b → silent e = true → allowed b e = true → apply b e = some b' →
      R a b')
    (hother : ∀ a b e b', R a b → silent e = false → apply b e = some b' →
      ∃ a', apply a e = some a' ∧ R a' b')
    (hR : R s t) (h : runEvents apply allowed t es = some u) :
    ∃ s', runEvents apply (fun _ _ => true) s (es.filter fun e => !silent e) = some s' ∧
      R s' u := by
  induction es generalizing s t with
  | nil =>
    rcases Option.some.inj h with rfl
    exact ⟨s, rfl, hR⟩
  | cons e es ih =>
    unfold runEvents at h
    split at h
    · rename_i hpass
      split at h
      · rename_i t' hstep
        cases hmark : silent e with
        | true =>
          rw [List.filter_cons, hmark]
          exact ih (hsilent s t e t' hR hmark hpass hstep) h
        | false =>
          rcases hother s t e t' hR hmark hstep with ⟨s', hs', hR'⟩
          rw [List.filter_cons, hmark]
          simp only [Bool.not_false, if_true, runEvents, hs']
          exact ih hR' h
      · cases h
    · cases h

end Decdn
