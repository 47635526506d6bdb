import Mathlib.Data.List.Basic
import Mathlib.Order.Defs.LinearOrder
import Mathlib.Tactic.Cases

/-!
# Loops

A loop body either goes on with a new state or ends with a result.  With a measure that
every round lowers, the loop ends, and it ends with what the invariant gives at the exit.

Main results:

- Theorem `runLoop_spec`: a body with an invariant and a measure ends, and its result
  meets the exit condition.
- Theorem `forUntil_broke`: a loop over a list that breaks takes the shortest prefix at
  which its break holds, or the whole list.
- Theorem `forUntil_related`: two such loops keep a relation.
-/

namespace Decdn

variable {S R : Type*} {body : S → S ⊕ R} {s : S} {r : R}

/-- At most so many rounds of a loop. -/
def runLoop (body : S → S ⊕ R) : Nat → S → Option R
  | 0, _ => none
  | rounds + 1, s =>
    match body s with
    | .inl s => runLoop body rounds s
    | .inr r => some r

/-- A round that goes on. -/
theorem runLoop_inl {s' : S} (h : body s = .inl s') (rounds : Nat) :
    runLoop body (rounds + 1) s = runLoop body rounds s' := by
  rw [runLoop, h]

/-- A round that ends. -/
theorem runLoop_inr (h : body s = .inr r) (rounds : Nat) :
    runLoop body (rounds + 1) s = some r := by
  rw [runLoop, h]

/-- A body that keeps an invariant and lowers a measure ends, and at its end the exit condition
holds. -/
theorem runLoop_spec {I : S → Prop} {P : R → Prop} {f : S → Nat} (hinit : I s)
    (hgoOn : ∀ a b, I a → body a = .inl b → I b ∧ f b < f a)
    (hexit : ∀ a r, I a → body a = .inr r → P r) :
    ∃ r, P r ∧ ∀ rounds, f s < rounds → runLoop body rounds s = some r := by
  induction hn : f s using Nat.strongRecOn generalizing s with
  | ind n ih =>
    cases hbody : body s with
    | inl s' =>
      rcases hgoOn s s' hinit hbody with ⟨hnext, hless⟩
      rcases ih (f s') (hn ▸ hless) hnext rfl with ⟨r, hr, hend⟩
      refine ⟨r, hr, fun rounds hrounds => ?_⟩
      cases rounds with
      | zero => exact absurd hrounds (Nat.not_lt_zero _)
      | succ rounds =>
        rw [runLoop_inl hbody]
        exact hend rounds (Nat.lt_of_lt_of_le hless (hn ▸ Nat.lt_succ_iff.mp hrounds))
    | inr r =>
      refine ⟨r, hexit s r hinit hbody, fun rounds hrounds => ?_⟩
      cases rounds with
      | zero => exact absurd hrounds (Nat.not_lt_zero _)
      | succ rounds => exact runLoop_inr hbody rounds

/-! ## A loop over a list that breaks -/

variable {A B T : Type*}

/-- `for a in list { if stop { break } .. }`. -/
def forUntil (stop : S → Bool) (step : S → A → S) : S → List A → S
  | s, [] => s
  | s, a :: rest => if stop s then s else forUntil stop step (step s a) rest

/-- The elements that such a loop takes: the shortest prefix after which it stops. -/
structure Broke (stop : S → Bool) (step : S → A → S) (s : S) (list taken : List A) :
    Prop where
  isPrefix : taken <+: list
  goesOn : ∀ init, init <+: taken → init ≠ taken → stop (init.foldl step s) = false
  ends : taken = list ∨ stop (taken.foldl step s) = true

/-- A loop that does not stop takes the next element. -/
theorem Broke.cons {stop : S → Bool} {step : S → A → S} {s : S} {a : A} {rest taken : List A}
    (hgo : stop s = false) (h : Broke stop step (step s a) rest taken) :
    Broke stop step s (a :: rest) (a :: taken) where
  isPrefix := List.cons_prefix_cons.mpr ⟨rfl, h.isPrefix⟩
  goesOn := by
    intro init hprefix hne
    cases init with
    | nil => exact hgo
    | cons b init =>
      rcases List.cons_prefix_cons.mp hprefix with ⟨rfl, hinit⟩
      exact h.goesOn init hinit fun heq => hne (by rw [heq])
  ends := h.ends.imp (congrArg (a :: ·)) id

/-- A loop over a list takes the shortest prefix at which it breaks. -/
theorem forUntil_broke (stop : S → Bool) (step : S → A → S) (s : S) (list : List A) :
    ∃ taken, Broke stop step s list taken ∧
      forUntil stop step s list = taken.foldl step s := by
  induction list generalizing s with
  | nil =>
    refine ⟨[], ⟨List.prefix_rfl, fun init hinit hne => ?_, .inl rfl⟩, rfl⟩
    exact absurd (List.prefix_nil.mp hinit) hne
  | cons a rest ih =>
    cases hstop : stop s with
    | true =>
      refine ⟨[], ⟨List.nil_prefix, fun init hinit hne => ?_, .inr hstop⟩, ?_⟩
      · exact absurd (List.prefix_nil.mp hinit) hne
      · rw [forUntil, if_pos hstop, List.foldl_nil]
    | false =>
      rcases ih (step s a) with ⟨taken, htaken, heq⟩
      refine ⟨a :: taken, htaken.cons hstop, ?_⟩
      rw [forUntil, if_neg (by simp [hstop]), heq, List.foldl_cons]

/-- Two loops over lists whose elements correspond end in states that correspond. -/
theorem forUntil_related {R : S → T → Prop} {Q : A → B → Prop} {stop : S → Bool}
    {stop' : T → Bool} {step : S → A → S} {step' : T → B → T}
    (hstop : ∀ s t, R s t → stop s = stop' t)
    (hstep : ∀ s t a b, R s t → Q a b → R (step s a) (step' t b))
    {list : List A} {list' : List B} (hlist : List.Forall₂ Q list list') {s : S} {t : T}
    (h : R s t) : R (forUntil stop step s list) (forUntil stop' step' t list') := by
  induction hlist generalizing s t with
  | nil => exact h
  | cons hab _ ih =>
    rw [forUntil, forUntil, hstop s t h]
    split
    · exact h
    · exact ih (hstep s t _ _ h hab)

end Decdn
