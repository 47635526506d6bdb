import Mathlib.Data.List.Forall2

/-!
# Fallible computations

Rules for programs in the `Except` monad: a sequenced computation succeeds
exactly when its parts do, and a loop that succeeds keeps whatever each of its
iterations keeps.

Main results:

- Theorem `bind_eq_ok`: inversion of one sequenced step.
- Theorem `bind_congr_ok`: two computations that start alike.
- Theorem `foldlM_invariant`: the invariant rule of a fallible loop.
- Theorem `foldlM_ok`: a loop succeeds when every iteration does.
- Theorem `mapM_eq_ok`: a traversal succeeds exactly when each of its items does.
-/

namespace Decdn

universe u v

variable {ε : Type u} {α β : Type v}

/-- A sequenced computation succeeds exactly when both parts do. -/
@[simp]
theorem bind_eq_ok {x : Except ε α} {f : α → Except ε β} {r : β} :
    (x >>= f) = .ok r ↔ ∃ a, x = .ok a ∧ f a = .ok r := by
  cases x with
  | error e => simp [bind, Except.bind]
  | ok a => simp [bind, Except.bind]

/-- Returning a value succeeds with that value. -/
@[simp]
theorem pure_eq_ok {a r : α} : (pure a : Except ε α) = .ok r ↔ a = r := by
  simp [pure, Except.pure]

theorem toOption_eq_some {x : Except ε α} {r : α} : x.toOption = some r ↔ x = .ok r := by
  cases x <;> simp [Except.toOption]

/-- Two computations that start alike agree if they agree on what the start returns. -/
theorem bind_congr_ok {x : Except ε α} {f g : α → Except ε β}
    (h : ∀ a, x = .ok a → f a = g a) : x >>= f = x >>= g := by
  cases x with
  | error e => rfl
  | ok a => exact h a rfl

/-- A property that every iteration keeps holds after the whole loop. -/
theorem foldlM_invariant {f : β → α → Except ε β} {xs : List α} {b r : β} (P : β → Prop)
    (hstep : ∀ b x b', x ∈ xs → P b → f b x = .ok b' → P b')
    (hinit : P b) (h : xs.foldlM f b = .ok r) : P r := by
  induction xs generalizing b with
  | nil =>
    rw [List.foldlM_nil, pure_eq_ok] at h
    exact h ▸ hinit
  | cons x xs ih =>
    rw [List.foldlM_cons, bind_eq_ok] at h
    obtain ⟨b', hb, hrest⟩ := h
    have hb' : P b' := hstep b x b' (List.mem_cons_self) hinit hb
    exact ih (fun c y c' hy => hstep c y c' (List.mem_cons_of_mem x hy)) hb' hrest

/-- A loop succeeds when every iteration does.  The invariant may speak about the
items done so far. -/
theorem foldlM_ok {f : β → α → Except ε β} (xs : List α) (b : β) (P : List α → β → Prop)
    (hstep : ∀ done b x, x ∈ xs → P done b → ∃ b', f b x = .ok b' ∧ P (done ++ [x]) b')
    (hinit : P [] b) : ∃ r, xs.foldlM f b = .ok r ∧ P xs r := by
  suffices h : ∀ done b, P done b → ∃ r, xs.foldlM f b = .ok r ∧ P (done ++ xs) r by
    simpa using h [] b hinit
  clear hinit b
  induction xs with
  | nil => exact fun done b hb => ⟨b, rfl, by simpa using hb⟩
  | cons x xs ih =>
    intro done b hb
    obtain ⟨b', hx, hb'⟩ := hstep done b x List.mem_cons_self hb
    obtain ⟨r, hr, hPr⟩ :=
      ih (fun d c y hy => hstep d c y (List.mem_cons_of_mem x hy)) (done ++ [x]) b' hb'
    refine ⟨r, ?_, by simpa using hPr⟩
    rw [List.foldlM_cons, bind_eq_ok]
    exact ⟨b', hx, hr⟩

/-- A loop succeeds only if each of its steps does. -/
theorem foldlM_steps {f : β → α → Except ε β} {xs : List α} {b r : β}
    (h : xs.foldlM f b = .ok r) : ∀ x ∈ xs, ∃ b b', f b x = .ok b' := by
  induction xs generalizing b with
  | nil => exact fun x hx => absurd hx List.not_mem_nil
  | cons y ys ih =>
    rw [List.foldlM_cons, bind_eq_ok] at h
    rcases h with ⟨b', hy, hys⟩
    exact List.forall_mem_cons.mpr ⟨⟨b, b', hy⟩, ih hys⟩

/-- A traversal succeeds exactly when each of its items does. -/
theorem mapM_eq_ok {f : α → Except ε β} {xs : List α} {ys : List β} :
    xs.mapM f = .ok ys ↔ List.Forall₂ (fun x y => f x = .ok y) xs ys := by
  induction xs generalizing ys with
  | nil => rw [List.mapM_nil, pure_eq_ok, List.forall₂_nil_left_iff, eq_comm]
  | cons x xs ih =>
    simp only [List.mapM_cons, bind_eq_ok, pure_eq_ok, ih, List.forall₂_cons_left_iff]
    constructor
    · rintro ⟨y, hy, ys', hys, rfl⟩
      exact ⟨y, ys', hy, hys, rfl⟩
    · rintro ⟨y, ys', hy, hys, rfl⟩
      exact ⟨y, hy, ys', hys, rfl⟩

/-- Each result of a run over a list comes from an item. -/
theorem exists_of_mapM_eq_ok {f : α → Except ε β} {xs : List α} {ys : List β}
    {y : β} (h : xs.mapM f = .ok ys) (hy : y ∈ ys) : ∃ x ∈ xs, f x = .ok y := by
  rcases List.forall₂_iff_get.mp (mapM_eq_ok.mp h) with ⟨hlen, hget⟩
  rcases List.mem_iff_get.mp hy with ⟨i, rfl⟩
  have hi : i.1 < xs.length := hlen.symm ▸ i.2
  exact ⟨_, List.get_mem xs ⟨i, hi⟩, hget i hi i.2⟩

end Decdn
