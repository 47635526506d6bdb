import Mathlib.Logic.Function.Basic

/-!
# Views of a log with snapshots

A view of keyed values is fed by a log, one entry at a time, and rebuilt from
snapshots of the truth at some block.  A rebuild keeps what the tail changed above
the block of the snapshot, by group of keys, and takes everything else from the
snapshot.  The tail may be ahead of a snapshot or behind it.

`truth p` is the truth after `p` entries of the log, `block i` the block of entry `i`,
`through n` the number of entries up to block `n`, and `touched i` the group that
entry `i` changes.

Main results:

- Theorem `Tracks.apply`: what an entry may do to the view.
- Theorem `Tracks.fold`: a rebuild keeps the relation, if its block is not below the last.
- Theorem `Tracks.caught_up`: a view that has caught up with its snapshot is the truth.
-/

namespace Decdn

variable {K V G : Type*}

/-- A log by blocks, with the truth after each of its entries. -/
structure Ledger (K V G : Type*) where
  length : Nat
  truth : Nat → K → V
  block : Nat → Nat
  through : Nat → Nat
  group : K → G
  touched : Nat → Option G
  through_mono : ∀ {m n}, m ≤ n → through m ≤ through n
  /-- The entries of a block come before those of the next. -/
  block_le_iff : ∀ {i}, i < length → ∀ n, block i ≤ n ↔ i < through n
  /-- An entry changes only the keys of its group. -/
  frame : ∀ i k, touched i ≠ some (group k) → truth (i + 1) k = truth i k

variable {C : Ledger K V G}

theorem Ledger.block_mono (C : Ledger K V G) {i j : Nat} (h : i ≤ j) (hj : j < C.length) :
    C.block i ≤ C.block j := by
  rw [C.block_le_iff (Nat.lt_of_le_of_lt h hj)]
  exact Nat.lt_of_le_of_lt h ((C.block_le_iff hj _).mp (Nat.le_refl _))

/-- Entries of other groups do not change a key. -/
theorem Ledger.truth_eq (C : Ledger K V G) {k : K} {i j : Nat} (hle : i ≤ j)
    (h : ∀ m, i ≤ m → m < j → C.touched m ≠ some (C.group k)) : C.truth j k = C.truth i k := by
  induction j with
  | zero =>
    rw [Nat.le_zero.mp hle]
  | succ j ih =>
    rcases Nat.lt_or_eq_of_le hle with hlt | rfl
    · have hij : i ≤ j := Nat.le_of_lt_succ hlt
      rw [C.frame j k (h j hij (Nat.lt_succ_self j)),
        ih hij fun m hm hmj => h m hm (Nat.lt_succ_of_lt hmj)]
    · rfl

/-- The view and the changes of the tail, after `p` entries and the snapshot at block `s`. -/
structure Tracks (C : Ledger K V G) (p s : Nat) (view : K → V) (changed : G → Option Nat) :
    Prop where
  bound : p ≤ C.length
  /-- A key shows the truth at the tail, or at a snapshot ahead of it. -/
  shows : ∀ k, view k = C.truth p k ∨ (p ≤ C.through s ∧ view k = C.truth (C.through s) k)
  /-- A noted change was applied. -/
  applied : ∀ g b, changed g = some b → ∃ i < p, C.block i = b
  /-- A change above the snapshot is noted. -/
  noted : ∀ i < p, s < C.block i → ∀ g, C.touched i = some g →
    ∃ b, changed g = some b ∧ C.block i ≤ b

variable {p s : Nat} {view view' : K → V} {changed : G → Option Nat}

/-- Right after a snapshot at block `s`, with the tail before the end of that block. -/
theorem Tracks.start (hlength : p ≤ C.length) (hp : p ≤ C.through s) :
    Tracks C p s (C.truth (C.through s)) (fun _ => none) where
  bound := hlength
  shows := fun _ => .inr ⟨hp, rfl⟩
  applied := fun _ _ h => by cases h
  noted := by
    intro i hi hblock
    have hle := (C.block_le_iff (Nat.lt_of_lt_of_le hi hlength) s).mpr (Nat.lt_of_lt_of_le hi hp)
    exact absurd hblock (Nat.not_lt.mpr hle)

/-- The tail applies an entry: each key gets the new truth, or stays where the truth does. -/
theorem Tracks.apply [DecidableEq G] (h : Tracks C p s view changed) (hp : p < C.length)
    (hview : ∀ k, view' k = C.truth (p + 1) k ∨
      (view' k = view k ∧ C.truth (p + 1) k = C.truth p k)) :
    Tracks C (p + 1) s view' (fun g => if C.touched p = some g then some (C.block p)
      else changed g) where
  bound := hp
  shows := by
    intro k
    rcases hview k with hnew | ⟨hsame, htruth⟩
    · exact .inl hnew
    · rcases h.shows k with hk | ⟨hbehind, hk⟩
      · left
        rw [hsame, hk, htruth]
      · rcases Nat.lt_or_eq_of_le hbehind with hlt | heq
        · exact .inr ⟨hlt, by rw [hsame, hk]⟩
        · left
          rw [hsame, hk, ← heq, htruth]
  applied := by
    intro g b hb
    split at hb
    · exact ⟨p, Nat.lt_succ_self p, Option.some.inj hb⟩
    · rcases h.applied g b hb with ⟨i, hi, hblock⟩
      exact ⟨i, Nat.lt_succ_of_lt hi, hblock⟩
  noted := by
    intro i hi hblock g hg
    by_cases htouched : C.touched p = some g
    · exact ⟨C.block p, if_pos htouched, C.block_mono (Nat.le_of_lt_succ hi) hp⟩
    · rw [if_neg htouched]
      rcases Nat.lt_or_eq_of_le (Nat.le_of_lt_succ hi) with hlt | rfl
      · exact h.noted i hlt hblock g hg
      · exact absurd hg htouched

/-- The changes of a group above block `n`. -/
def above (n : Nat) (changed : G → Option Nat) (g : G) : Option Nat :=
  (changed g).filter fun b => decide (n < b)

/-- A rebuild from a snapshot at block `n`. -/
theorem Tracks.fold (h : Tracks C p s view changed) {n : Nat} (hn : s ≤ n)
    (hkept : ∀ k, above n changed (C.group k) ≠ none → view' k = view k)
    (hrest : ∀ k, above n changed (C.group k) = none → view' k = C.truth (C.through n) k) :
    Tracks C p n view' (above n changed) where
  bound := h.bound
  shows := by
    intro k
    by_cases hk : above n changed (C.group k) = none
    · rw [hrest k hk]
      rcases Nat.le_total p (C.through n) with hp | hp
      · exact .inr ⟨hp, rfl⟩
      · -- The tail is past the snapshot, and nothing it applied there touched the key.
        left
        refine (C.truth_eq hp fun i hi hlt htouched => ?_).symm
        have hblock : n < C.block i := by
          rw [← Nat.not_le, C.block_le_iff (Nat.lt_of_lt_of_le hlt h.bound)]
          exact Nat.not_lt.mpr hi
        rcases h.noted i hlt (Nat.lt_of_le_of_lt hn hblock) _ htouched with ⟨b, hb, hle⟩
        rw [above, hb, Option.filter_some,
          if_pos (decide_eq_true (Nat.lt_of_lt_of_le hblock hle))] at hk
        cases hk
    · rw [hkept k hk]
      rcases h.shows k with hk' | ⟨hp, -⟩
      · exact .inl hk'
      · -- A change above the snapshot was applied, so the tail is not behind it.
        exfalso
        rcases Option.ne_none_iff_exists'.mp hk with ⟨b, hb⟩
        rw [above, Option.filter_eq_some_iff] at hb
        rcases h.applied _ b hb.1 with ⟨i, hi, rfl⟩
        have hthrough : i < C.through n :=
          Nat.lt_of_lt_of_le hi (Nat.le_trans hp (C.through_mono hn))
        exact absurd (of_decide_eq_true hb.2)
          (Nat.not_lt.mpr ((C.block_le_iff (Nat.lt_of_lt_of_le hi h.bound) n).mpr hthrough))
  applied := by
    intro g b hb
    rw [above, Option.filter_eq_some_iff] at hb
    exact h.applied g b hb.1
  noted := by
    intro i hi hblock g hg
    rcases h.noted i hi (Nat.lt_of_le_of_lt hn hblock) g hg with ⟨b, hb, hle⟩
    refine ⟨b, ?_, hle⟩
    rw [above, hb, Option.filter_some, if_pos (decide_eq_true (Nat.lt_of_lt_of_le hblock hle))]

/-- Once the tail has applied everything through a block at or above the snapshot, the view is
the truth there. -/
theorem Tracks.caught_up (h : Tracks C p s view changed) {f : Nat} (hp : p = C.through f)
    (hs : s ≤ f) : view = C.truth (C.through f) := by
  funext k
  rw [← hp]
  rcases h.shows k with hk | ⟨hle, hk⟩
  · exact hk
  · have hmono := C.through_mono hs
    rw [hk, Nat.le_antisymm hle (hp ▸ hmono)]

end Decdn
