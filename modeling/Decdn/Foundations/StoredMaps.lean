import Decdn.Foundations.HashMaps
import Decdn.Foundations.OrderedTables
import Mathlib.Data.List.Perm.Basic
import Mathlib.Data.Option.Basic

/-!
# Maps in tables

A table stores a map when its keys are codes of the keys of the map and each row stands for
the value of its key.  The operations of the two keep this, and an iteration over the table
meets the entries of the map, in some order.

Main results:

- Theorem `Stores.insert` and Theorem `Stores.erase`: the operations of the two agree.
- Theorem `Stores.entries`: the rows are those of the entries of the map.
-/

namespace Decdn

universe u v w

variable {K C V : Type u} {R : Type u} {rank : C → Nat} [DecidableEq K] [DecidableEq C]

/-- Two lists whose elements correspond have the same images. -/
theorem map_eq_map_of_forall₂ {α β γ : Type*} {rel : α → β → Prop} {f : α → γ} {g : β → γ}
    (hrel : ∀ a b, rel a b → f a = g b) {l : List α} {l' : List β} (h : List.Forall₂ rel l l') :
    l.map f = l'.map g := by
  induction h with
  | nil => rfl
  | cons hpair _ ih => rw [List.map_cons, List.map_cons, hrel _ _ hpair, ih]

/-- A fallible map that succeeds on each element as the other list's map does. -/
theorem mapM_eq_ok_of_forall₂ {α β γ ε : Type u} {rel : α → β → Prop} {f : α → Except ε γ}
    {g : β → γ} (hrel : ∀ a b, rel a b → f a = .ok (g b)) {l : List α} {l' : List β}
    (h : List.Forall₂ rel l l') : l.mapM f = .ok (l'.map g) := by
  induction h with
  | nil => rfl
  | cons hpair _ ih =>
    rw [List.mapM_cons, hrel _ _ hpair, ih]
    rfl

/-- The table holds the entries of the map, each under the code of its key. -/
structure Stores (T : TableOps rank R) (code : K → C) (stands : K → R → V → Prop) (t : T.Table)
    (m : HashMap K V) : Prop where
  rows : ∀ k, Option.Rel (stands k) (T.get t (code k)) (m.get k)
  keys : ∀ c row, T.get t c = some row → ∃ k, c = code k

namespace Stores

variable {T : TableOps rank R} {code : K → C} {stands : K → R → V → Prop} {t : T.Table}
  {m : HashMap K V}

theorem empty : Stores T code stands T.empty (.empty : HashMap K V) where
  rows k := by
    rw [T.get_empty, HashMap.get_empty]
    exact .none
  keys c row h := by
    rw [T.get_empty] at h
    exact absurd h (by simp)

/-- A row that is put in stands for the value that is put in. -/
theorem insert (h : Stores T code stands t m) (hcode : Function.Injective code) {k : K} {row : R}
    {value : V} (hrow : stands k row value) :
    Stores T code stands (T.insert t (code k) row) (m.insert k value) where
  rows a := by
    rw [T.get_insert, HashMap.get_insert]
    by_cases heq : a = k
    · rw [if_pos (congrArg code heq), if_pos heq, heq]
      exact .some hrow
    · rw [if_neg fun hsame => heq (hcode hsame), if_neg heq]
      exact h.rows a
  keys c other hget := by
    rw [T.get_insert] at hget
    split at hget
    · exact ⟨k, ‹_›⟩
    · exact h.keys c other hget

/-- A key is removed from both. -/
theorem erase (h : Stores T code stands t m) (hcode : Function.Injective code) (k : K) :
    Stores T code stands (T.erase t (code k)) (m.erase k) where
  rows a := by
    rw [T.get_erase, HashMap.get_erase]
    by_cases heq : a = k
    · rw [if_pos (congrArg code heq), if_pos heq]
      exact .none
    · rw [if_neg fun hsame => heq (hcode hsame), if_neg heq]
      exact h.rows a
  keys c other hget := by
    rw [T.get_erase] at hget
    split at hget
    · exact absurd hget (by simp)
    · exact h.keys c other hget

/-- What a lookup finds in the two. -/
theorem get_cases (h : Stores T code stands t m) (k : K) :
    (T.get t (code k) = none ∧ m.get k = none) ∨
      ∃ row value, T.get t (code k) = some row ∧ m.get k = some value ∧ stands k row value := by
  have hrel := h.rows k
  cases hrow : T.get t (code k) with
  | none =>
    rw [hrow] at hrel
    cases hvalue : m.get k with
    | none => exact .inl ⟨rfl, rfl⟩
    | some value =>
      rw [hvalue] at hrel
      cases hrel
  | some row =>
    rw [hrow] at hrel
    cases hvalue : m.get k with
    | none =>
      rw [hvalue] at hrel
      cases hrel
    | some value =>
      rw [hvalue] at hrel
      cases hrel with
      | some hstands => exact .inr ⟨row, value, rfl, rfl, hstands⟩

/-- A row of the table stands for an entry of the map. -/
theorem entry_of_row (h : Stores T code stands t m) {e : C × R} (he : e ∈ T.entries t) :
    ∃ a : K × V, e.1 = code a.1 ∧ stands a.1 e.2 a.2 ∧ a ∈ m.entries := by
  have hget := T.mem_entries.mp he
  rcases h.keys e.1 e.2 hget with ⟨k, hk⟩
  rw [hk] at hget
  rcases h.get_cases k with ⟨hnone, -⟩ | ⟨row, value, hrow, hvalue, hstands⟩
  · exact absurd (hnone.symm.trans hget) (by simp)
  · have hsame : row = e.2 := Option.some.inj (hrow.symm.trans hget)
    exact ⟨(k, value), hk, hsame ▸ hstands, HashMap.get_eq_some.mp hvalue⟩

/-- The rows stand for the entries of the map, in some order. -/
theorem entries (h : Stores T code stands t m) (hcode : Function.Injective code) :
    ∃ order : List (K × V), order.Perm m.entries ∧
      List.Forall₂ (fun e a => e.1 = code a.1 ∧ stands a.1 e.2 a.2) (T.entries t) order := by
  have hchoose : ∀ rows : List (C × R), (∀ e ∈ rows, e ∈ T.entries t) →
      ∃ order : List (K × V), (∀ a ∈ order, a ∈ m.entries) ∧
        List.Forall₂ (fun e a => e.1 = code a.1 ∧ stands a.1 e.2 a.2) rows order := by
    intro rows
    induction rows with
    | nil => exact fun _ => ⟨[], by simp, .nil⟩
    | cons e rows ih =>
      intro hsub
      rcases h.entry_of_row (hsub e List.mem_cons_self) with ⟨a, hcode, hstands, ha⟩
      rcases ih fun x hx => hsub x (List.mem_cons_of_mem _ hx) with ⟨order, hmem, hpairs⟩
      refine ⟨a :: order, ?_, .cons ⟨hcode, hstands⟩ hpairs⟩
      intro x hx
      rcases List.mem_cons.mp hx with rfl | hx
      · exact ha
      · exact hmem x hx
  rcases hchoose (T.entries t) fun e he => he with ⟨order, hmem, hpairs⟩
  refine ⟨order, ?_, hpairs⟩
  have hcodes : (T.entries t).map Prod.fst = order.map fun a => code a.1 :=
    map_eq_map_of_forall₂ (fun _ _ hpair => hpair.1) hpairs
  have hascending : ((T.entries t).map Prod.fst).Nodup := by
    refine List.pairwise_map.mpr ((T.entries_ascending t).imp fun hlt heq => ?_)
    exact absurd (congrArg rank heq) (Nat.ne_of_lt hlt)
  have hnodup : order.Nodup := by
    rw [hcodes] at hascending
    exact hascending.of_map _
  refine (List.perm_ext_iff_of_nodup hnodup (m.nodup.of_map _)).mpr fun a => ⟨hmem a, ?_⟩
  intro ha
  -- the row of the entry is one of the rows that were read
  rcases h.get_cases a.1 with ⟨-, hnone⟩ | ⟨row, value, hrow, hvalue, -⟩
  · exact absurd (hnone.symm.trans (HashMap.get_eq_some.mpr ha)) (by simp)
  · have hin : code a.1 ∈ (T.entries t).map Prod.fst :=
      List.mem_map.mpr ⟨(code a.1, row), T.mem_entries.mpr hrow, rfl⟩
    rw [hcodes] at hin
    rcases List.mem_map.mp hin with ⟨b, hb, hsame⟩
    have hvalues : some b.2 = some a.2 := by
      rw [← HashMap.get_eq_some.mpr (hmem b hb), ← HashMap.get_eq_some.mpr ha, hcode hsame]
    have heq : b = a := Prod.ext (hcode hsame) (Option.some.inj hvalues)
    rwa [← heq]

end Stores

end Decdn
