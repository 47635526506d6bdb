import Mathlib.Data.List.Pairwise
import Mathlib.Data.List.Perm.Basic
import Mathlib.Tactic.Cases

/-!
# Tables in the order of their keys

An ordered key-value store keeps the rows of a table in the ascending order of their keys:
a row is looked up, put in place of an old one or removed, and the rows of a range of
keys are read in order.  The order of the keys is that of a rank.  How the rows are kept is
up to the store.

Main definitions:

- Structure `TableOps`: the tables of a store, with what is promised of them.
- Definition `OrderedTable.ops`: a store that keeps sorted lists.

Main results:

- Theorem `TableOps.range_eq`: a scan reads a part of all rows.
-/

namespace Decdn

universe u v

/-- The tables of a store whose rows are in the ascending order of the rank of their keys. -/
structure TableOps {K : Type u} [DecidableEq K] (rank : K → Nat) (V : Type v) where
  Table : Type (max u v)
  empty : Table
  get : Table → K → Option V
  insert : Table → K → V → Table
  erase : Table → K → Table
  entries : Table → List (K × V)
  range : Table → K → K → List (K × V)
  get_empty : ∀ k, get empty k = none
  get_insert : ∀ t k v a, get (insert t k v) a = if a = k then some v else get t a
  get_erase : ∀ t k a, get (erase t k) a = if a = k then none else get t a
  mem_entries : ∀ {t k v}, (k, v) ∈ entries t ↔ get t k = some v
  entries_ascending : ∀ t, (entries t).Pairwise fun a b => rank a.1 < rank b.1
  mem_range : ∀ {t first last k v}, (k, v) ∈ range t first last ↔
    get t k = some v ∧ rank first ≤ rank k ∧ rank k ≤ rank last
  range_ascending : ∀ t first last,
    (range t first last).Pairwise fun a b => rank a.1 < rank b.1

/-- Lists in the strictly ascending order of a rank are equal if they have the same elements. -/
theorem eq_of_ascending {α : Type*} {f : α → Nat} {l l' : List α}
    (hl : l.Pairwise fun a b => f a < f b) (hl' : l'.Pairwise fun a b => f a < f b)
    (hmem : ∀ a, a ∈ l ↔ a ∈ l') : l = l' := by
  have hnodup : ∀ {k : List α}, k.Pairwise (fun a b => f a < f b) → k.Nodup := by
    intro k hk
    refine List.Pairwise.imp ?_ hk
    rintro a b hlt rfl
    exact Nat.lt_irrefl _ hlt
  refine List.Perm.eq_of_pairwise ?_ hl hl'
    ((List.perm_ext_iff_of_nodup (hnodup hl) (hnodup hl')).mpr hmem)
  intro a b _ _ hab hba
  exact absurd hba (Nat.lt_asymm hab)

/-- A scan of a range reads the rows in it, in the order of all rows. -/
theorem TableOps.range_eq {K : Type u} {V : Type v} [DecidableEq K] {rank : K → Nat}
    (T : TableOps rank V) (t : T.Table) (first last : K) :
    T.range t first last =
      (T.entries t).filter fun e => decide (rank first ≤ rank e.1 ∧ rank e.1 ≤ rank last) := by
  refine eq_of_ascending (T.range_ascending t first last)
    ((T.entries_ascending t).filter _) fun e => ?_
  rw [List.mem_filter, T.mem_entries, decide_eq_true_iff]
  exact T.mem_range

/-- Rows by key, in the ascending order of the rank. -/
structure OrderedTable {K : Type u} (rank : K → Nat) (V : Type v) where
  entries : List (K × V)
  ascending : entries.Pairwise fun a b => rank a.1 < rank b.1

namespace OrderedTable

variable {K : Type u} {V : Type v} {rank : K → Nat}

/-- The table without rows. -/
def empty : OrderedTable rank V := ⟨[], .nil⟩

/-- The row of a key. -/
def get [DecidableEq K] (t : OrderedTable rank V) (k : K) : Option V :=
  (t.entries.find? fun e => decide (e.1 = k)).map Prod.snd

/-- A row, in place of the old row of the key. -/
def insert (t : OrderedTable rank V) (k : K) (v : V) : OrderedTable rank V where
  entries := t.entries.filter (fun e => decide (rank e.1 < rank k)) ++
    (k, v) :: t.entries.filter (fun e => decide (rank k < rank e.1))
  ascending := by
    refine List.pairwise_append.mpr ⟨t.ascending.filter _, ?_, ?_⟩
    · refine List.pairwise_cons.mpr ⟨fun e he => ?_, t.ascending.filter _⟩
      exact of_decide_eq_true (List.mem_filter.mp he).2
    · intro a ha b hb
      have hlow := of_decide_eq_true (List.mem_filter.mp ha).2
      rcases List.mem_cons.mp hb with rfl | hb
      · exact hlow
      · exact Nat.lt_trans hlow (of_decide_eq_true (List.mem_filter.mp hb).2)

/-- The table without the row of a key. -/
def erase [DecidableEq K] (t : OrderedTable rank V) (k : K) : OrderedTable rank V where
  entries := t.entries.filter fun e => decide (e.1 ≠ k)
  ascending := t.ascending.filter _

/-- The rows from one key to another, both included. -/
def range (t : OrderedTable rank V) (first last : K) : List (K × V) :=
  t.entries.filter fun e => decide (rank first ≤ rank e.1 ∧ rank e.1 ≤ rank last)

/-- The rows are what the lookups find. -/
theorem mem_entries [DecidableEq K] {t : OrderedTable rank V} {k : K} {v : V} :
    (k, v) ∈ t.entries ↔ t.get k = some v := by
  unfold get
  constructor
  · intro hmem
    cases hfind : t.entries.find? fun e => decide (e.1 = k) with
    | none => exact absurd (List.find?_eq_none.mp hfind _ hmem) (by simp)
    | some e =>
      have hkey : e.1 = k := by simpa using List.find?_some hfind
      have hin := List.mem_of_find?_eq_some hfind
      have heq : e = (k, v) := by
        by_contra hne
        have hsymm : Std.Symm fun a b : K × V => rank a.1 ≠ rank b.1 := ⟨fun _ _ h => h.symm⟩
        have hapart : t.entries.Pairwise fun a b => rank a.1 ≠ rank b.1 :=
          t.ascending.imp Nat.ne_of_lt
        exact hapart.forall hin hmem hne (congrArg rank hkey)
      rw [heq]
      rfl
  · intro hget
    rcases Option.map_eq_some_iff.mp hget with ⟨e, hfind, rfl⟩
    have hkey : e.1 = k := by simpa using List.find?_some hfind
    rw [← hkey]
    exact List.mem_of_find?_eq_some hfind

theorem get_empty [DecidableEq K] (k : K) : (empty : OrderedTable rank V).get k = none := rfl

theorem mem_insert {t : OrderedTable rank V} (hrank : Function.Injective rank) {k a : K}
    {v w : V} : (a, w) ∈ (t.insert k v).entries ↔
      (a = k ∧ w = v) ∨ a ≠ k ∧ (a, w) ∈ t.entries := by
  unfold insert
  simp only [List.mem_append, List.mem_filter, List.mem_cons, decide_eq_true_eq, Prod.mk.injEq]
  constructor
  · rintro (⟨hmem, hlt⟩ | hnew | ⟨hmem, hlt⟩)
    · exact .inr ⟨fun heq => absurd hlt (heq ▸ Nat.lt_irrefl _), hmem⟩
    · exact .inl hnew
    · exact .inr ⟨fun heq => absurd hlt (heq ▸ Nat.lt_irrefl _), hmem⟩
  · rintro (hnew | ⟨hne, hmem⟩)
    · exact .inr (.inl hnew)
    · rcases Nat.lt_or_gt_of_ne (fun heq => hne (hrank heq)) with hlt | hgt
      · exact .inl ⟨hmem, hlt⟩
      · exact .inr (.inr ⟨hmem, hgt⟩)

/-- What a lookup finds after a row was put in. -/
theorem get_insert [DecidableEq K] (t : OrderedTable rank V) (hrank : Function.Injective rank)
    (k : K) (v : V) (a : K) : (t.insert k v).get a = if a = k then some v else t.get a := by
  apply Option.ext
  intro w
  rw [← Option.mem_def, Option.mem_def, ← mem_entries, mem_insert hrank]
  split
  · rename_i heq
    simp only [heq, true_and, ne_eq, not_true, false_and, or_false, Option.some.injEq]
    exact eq_comm
  · rename_i hne
    simp only [hne, false_and, false_or, ne_eq, not_false_eq_true, true_and]
    exact mem_entries

/-- What a lookup finds after a row was removed. -/
theorem get_erase [DecidableEq K] (t : OrderedTable rank V) (k a : K) :
    (t.erase k).get a = if a = k then none else t.get a := by
  apply Option.ext
  intro w
  rw [← mem_entries]
  unfold erase
  simp only [List.mem_filter, decide_eq_true_eq]
  split
  · rename_i heq
    simp [heq]
  · rename_i hne
    simp only [ne_eq, hne, not_false_eq_true, and_true]
    exact mem_entries

/-- A scan reads the rows whose keys lie in the range. -/
theorem mem_range [DecidableEq K] {t : OrderedTable rank V} {first last k : K} {v : V} :
    (k, v) ∈ t.range first last ↔
      t.get k = some v ∧ rank first ≤ rank k ∧ rank k ≤ rank last := by
  unfold range
  rw [List.mem_filter, mem_entries, decide_eq_true_iff]

/-- A scan reads in ascending order. -/
theorem range_ascending (t : OrderedTable rank V) (first last : K) :
    (t.range first last).Pairwise fun a b => rank a.1 < rank b.1 := t.ascending.filter _

/-- A store that keeps its rows in sorted lists. -/
def ops [DecidableEq K] (hrank : Function.Injective rank) : TableOps rank V where
  Table := OrderedTable rank V
  empty := empty
  get := get
  insert := insert
  erase := erase
  entries := entries
  range := range
  get_empty := get_empty
  get_insert := fun t k v a => get_insert t hrank k v a
  get_erase := get_erase
  mem_entries := mem_entries
  entries_ascending := ascending
  mem_range := mem_range
  range_ascending := range_ascending

end OrderedTable

end Decdn
