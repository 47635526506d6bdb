import Decdn.Foundations.FiniteMaps

/-!
# Hash maps

A hash map is the list of its entries in the order in which it iterates, each key once.
No result depends on that order.

Main results:

- Theorem `HashMap.get_eq_some`: a key has the value of its only entry.
- Theorem `HashMap.get_insert` and Theorem `HashMap.get_erase`: a write changes one key.
- Theorem `HashMap.total_eq_sum`: a total over the entries, as a sum over the keys.
- Theorem `HashMap.total_insert`: the change of a total is the change of one entry.
-/

namespace Decdn

/-- A hash map, in the order in which it iterates. -/
structure HashMap (K V : Type*) where
  entries : List (K × V)
  nodup : (entries.map Prod.fst).Nodup

namespace HashMap

variable {K V : Type*} [DecidableEq K]

def empty : HashMap K V := ⟨[], List.nodup_nil⟩

def get (m : HashMap K V) (k : K) : Option V := m.entries.lookup k

/-- The entry of the key is replaced. -/
def insert (m : HashMap K V) (k : K) (v : V) : HashMap K V where
  entries := (k, v) :: m.entries.filter fun e => e.1 ≠ k
  nodup := by
    rw [List.map_cons, List.nodup_cons]
    constructor
    · simp
    · exact m.nodup.sublist (List.filter_sublist.map Prod.fst)

/-- The entry of the key is removed. -/
def erase (m : HashMap K V) (k : K) : HashMap K V where
  entries := m.entries.filter fun e => e.1 ≠ k
  nodup := m.nodup.sublist (List.filter_sublist.map Prod.fst)

/-- What a map adds up to. -/
def total (m : HashMap K V) (w : V → Nat) : Nat := (m.entries.map fun e => w e.2).sum

/-- A key has the value of its only entry. -/
theorem get_eq_some {m : HashMap K V} {k : K} {v : V} :
    m.get k = some v ↔ (k, v) ∈ m.entries := by
  rcases m with ⟨entries, hnodup⟩
  show entries.lookup k = some v ↔ (k, v) ∈ entries
  induction entries with
  | nil => simp
  | cons e rest ih =>
    rcases e with ⟨a, w⟩
    rw [List.map_cons, List.nodup_cons] at hnodup
    rw [List.lookup_cons]
    by_cases ha : k = a
    · subst ha
      have habsent : (k, v) ∉ rest := by
        intro hmem
        exact hnodup.1 (List.mem_map.mpr ⟨(k, v), hmem, rfl⟩)
      simp [habsent, eq_comm]
    · have hne : (k == a) = false := beq_false_of_ne ha
      simp only [hne, ih hnodup.2, List.mem_cons, Prod.mk.injEq, ha, false_and, false_or]

@[simp] theorem get_empty (k : K) : (empty : HashMap K V).get k = none := rfl

/-- An insertion changes one key. -/
theorem get_insert (m : HashMap K V) (k : K) (v : V) (a : K) :
    (m.insert k v).get a = if a = k then some v else m.get a := by
  refine Option.ext fun w => ?_
  rw [get_eq_some]
  split
  case isTrue h => simp [insert, h, eq_comm]
  case isFalse h =>
    rw [get_eq_some]
    simp [insert, h]

/-- A removal changes one key. -/
theorem get_erase (m : HashMap K V) (k a : K) :
    (m.erase k).get a = if a = k then none else m.get a := by
  refine Option.ext fun w => ?_
  rw [get_eq_some]
  split
  case isTrue h => simp [erase, h]
  case isFalse h =>
    rw [get_eq_some]
    simp [erase, h]

/-- A total over the entries is a sum over the keys. -/
theorem total_eq_sum [Fintype K] (m : HashMap K V) (w : V → Nat) :
    m.total w = ∑ k, (m.get k).elim 0 w := by
  let keys := (m.entries.map Prod.fst).toFinset
  have hrest : ∀ k ∉ keys, (m.get k).elim 0 w = 0 := by
    intro k hk
    cases hget : m.get k with
    | none => rfl
    | some v =>
      refine absurd (List.mem_toFinset.mpr (List.mem_map.mpr ?_)) hk
      exact ⟨(k, v), get_eq_some.mp hget, rfl⟩
  rw [← Finset.sum_subset (Finset.subset_univ keys) fun k _ hk => hrest k hk,
    List.sum_toFinset _ m.nodup, List.map_map, total]
  refine congrArg List.sum (List.map_congr_left fun e he => ?_)
  show w e.2 = (m.get e.1).elim 0 w
  rw [get_eq_some.mpr he]
  rfl

/-- The change of a total is the change of one entry. -/
theorem total_insert [Fintype K] (m : HashMap K V) (k : K) (v : V) (w : V → Nat) :
    (m.insert k v).total w + (m.get k).elim 0 w = m.total w + w v := by
  have hchange := sum_change (f := fun a => (m.get a).elim 0 w)
    (g := fun a => ((m.insert k v).get a).elim 0 w) k fun a ha => by rw [get_insert, if_neg ha]
  rw [total_eq_sum, total_eq_sum, hchange, get_insert, if_pos rfl]
  rfl

end HashMap

end Decdn
