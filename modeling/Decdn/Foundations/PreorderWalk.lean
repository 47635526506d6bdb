import Mathlib

/-!
# Pre-order walks of a binary tree

A binary tree over consecutive leaves, walked in pre-order through the parts that
meet a range of leaves.  The walk of a range starts with the walk of every shorter
range from the same leaf, it meets the leaves of the range in order, and it passes
every parent of a part that the range covers.

Main results:

- Theorem `walk_prefix`: the walk of a longer range starts with that of a shorter one.
- Theorem `leaves_walk`: the walk meets the leaves of the range in order.
- Theorem `parents_walk_of_covered`: a covered tree has one parent less than leaves.
- Theorem `sum_weight`: what a walk weighs, by its parents and its leaves.
- Theorem `size_leftFull`: the left-full tree has the leaves it is made for.
-/

namespace Decdn

/-- A binary tree by its shape. -/
inductive BinTree where
  | leaf
  | node (left right : BinTree)
deriving DecidableEq, Repr

namespace BinTree

/-- The leaves of a tree. -/
def size : BinTree → Nat
  | leaf => 1
  | node left right => left.size + right.size

/-- A tree has a leaf. -/
theorem size_pos (t : BinTree) : 0 < t.size := by
  induction t with
  | leaf => exact Nat.one_pos
  | node left right ihl _ => exact Nat.add_pos_left ihl _

/-- What a walk meets: the parent of a part, named by its first leaf and the number of its
leaves, or a leaf. -/
inductive Piece where
  | parent (base size : Nat)
  | leaf (i : Nat)
deriving DecidableEq, Repr

/-- The leaf a piece is. -/
def Piece.leaf? : Piece → Option Nat
  | parent _ _ => none
  | leaf i => some i

/-- A piece that is a parent. -/
def Piece.isParent : Piece → Bool
  | parent _ _ => true
  | leaf _ => false

/-- The pre-order walk through the parts of a tree over the leaves from `base` that meet the
leaves from `a` to `b`. -/
def walk (a b : Nat) : BinTree → Nat → List Piece
  | leaf, base => if base < b ∧ a < base + 1 then [.leaf base] else []
  | node left right, base =>
    if base < b ∧ a < base + (left.size + right.size) then
      .parent base (left.size + right.size) ::
        (walk a b left base ++ walk a b right (base + left.size))
    else []

variable {t left right : BinTree} {o a b c : Nat}

/-- A part the range misses is not walked. -/
theorem walk_of_missed (h : ¬(o < b ∧ a < o + t.size)) : walk a b t o = [] := by
  cases t with
  | leaf => exact if_neg h
  | node left right => exact if_neg h

/-- A node the range meets. -/
theorem walk_node (h : o < b ∧ a < o + (left.size + right.size)) :
    walk a b (node left right) o =
      .parent o (left.size + right.size) ::
        (walk a b left o ++ walk a b right (o + left.size)) :=
  if_pos h

/-- A range that reaches past a part walks it as any longer range does. -/
theorem walk_congr (hc : o + t.size ≤ c) (hb : o + t.size ≤ b) :
    walk a c t o = walk a b t o := by
  induction t generalizing o with
  | leaf =>
    have hsame : (o < c ∧ a < o + 1) ↔ (o < b ∧ a < o + 1) := by
      have hsize : leaf.size = 1 := rfl
      omega
    unfold walk
    simp only [hsame]
  | node left right ihl ihr =>
    have hsize : (node left right).size = left.size + right.size := rfl
    have hpos := left.size_pos
    rw [hsize] at hc hb
    have hsame : (o < c ∧ a < o + (left.size + right.size)) ↔
        (o < b ∧ a < o + (left.size + right.size)) := by omega
    unfold walk
    simp only [hsame]
    rw [ihl (by omega) (by omega), ihr (by omega) (by omega)]

/-- The walk of a longer range starts with the walk of a shorter one. -/
theorem walk_prefix (hcb : c ≤ b) : walk a c t o <+: walk a b t o := by
  induction t generalizing o with
  | leaf =>
    by_cases hmeets : o < c ∧ a < o + 1
    · unfold walk
      rw [if_pos hmeets, if_pos (by omega)]
    · rw [walk_of_missed hmeets]
      exact List.nil_prefix
  | node left right ihl ihr =>
    have hpos := right.size_pos
    by_cases hmeets : o < c ∧ a < o + (left.size + right.size)
    · rw [walk_node hmeets, walk_node (by omega), List.prefix_cons_inj]
      by_cases hright : o + left.size < c
      · rw [walk_congr (t := left) (a := a) (b := b) (Nat.le_of_lt hright) (by omega)]
        exact (List.prefix_append_right_inj _).mpr ihr
      · rw [walk_of_missed (t := right) (by omega), List.append_nil]
        exact ihl.trans (List.prefix_append _ _)
    · rw [walk_of_missed hmeets]
      exact List.nil_prefix

/-- The points of the range in two adjacent windows are those in both together. -/
theorem range'_windows {u m v : Nat} (hum : u ≤ m) (hmv : m ≤ v) :
    List.range' (max a u) (min b m - max a u) ++ List.range' (max a m) (min b v - max a m) =
      List.range' (max a u) (min b v - max a u) := by
  -- the range ends before the second window, starts after the first, or crosses the border
  rcases Nat.le_total b m with hends | hends
  · have hnone : min b v - max a m = 0 :=
      Nat.sub_eq_zero_of_le ((Nat.min_le_left b v).trans (hends.trans (Nat.le_max_right a m)))
    rw [hnone, Nat.min_eq_left hends, Nat.min_eq_left (hends.trans hmv), List.range'_zero,
      List.append_nil]
  · rcases Nat.le_total m a with hstarts | hstarts
    · rw [Nat.min_eq_right hends, Nat.max_eq_left hstarts, Nat.max_eq_left (hum.trans hstarts),
        Nat.sub_eq_zero_of_le hstarts, List.range'_zero, List.nil_append]
    · have hlow : max a u ≤ m := Nat.max_le.mpr ⟨hstarts, hum⟩
      have hhigh : m ≤ min b v := Nat.le_min.mpr ⟨hends, hmv⟩
      rw [Nat.min_eq_right hends, Nat.max_eq_right hstarts]
      generalize max a u = low at hlow ⊢
      generalize min b v = high at hhigh ⊢
      have hsplit : m = low + (m - low) := (Nat.add_sub_cancel' hlow).symm
      have hlength : m - low + (high - m) = high - low := by omega
      rw [← hlength, ← List.range'_append_1, ← hsplit]

/-- The walk meets the leaves of the range in order. -/
theorem leaves_walk : (walk a b t o).filterMap Piece.leaf? =
    List.range' (max a o) (min b (o + t.size) - max a o) := by
  induction t generalizing o with
  | leaf =>
    have hsize : leaf.size = 1 := rfl
    by_cases hmeets : o < b ∧ a < o + 1
    · unfold walk
      rw [if_pos hmeets, hsize, Nat.max_eq_right (by omega), Nat.min_eq_right (by omega),
        Nat.add_sub_cancel_left]
      rfl
    · have hnone : min b (o + leaf.size) - max a o = 0 := by omega
      rw [walk_of_missed hmeets, hnone]
      rfl
  | node left right ihl ihr =>
    have hsize : (node left right).size = left.size + right.size := rfl
    have hleft := left.size_pos
    have hright := right.size_pos
    by_cases hmeets : o < b ∧ a < o + (left.size + right.size)
    · rw [walk_node hmeets, List.filterMap_cons_none rfl, List.filterMap_append, ihl, ihr, hsize,
        Nat.add_assoc]
      exact range'_windows (Nat.le_add_right _ _) (Nat.add_le_add_left (Nat.le_add_right _ _) o)
    · have hnone : min b (o + (node left right).size) - max a o = 0 := by
        rw [hsize]
        omega
      rw [walk_of_missed hmeets, hnone]
      rfl

/-- The walk of a range ends with its last leaf. -/
theorem getLast_walk (hab : a < b) (hstart : o < b) (hend : a < o + t.size)
    (hb : b ≤ o + t.size) : (walk a b t o).getLast? = some (.leaf (b - 1)) := by
  induction t generalizing o with
  | leaf =>
    have hsize : leaf.size = 1 := rfl
    have hlast : b - 1 = o := by omega
    unfold walk
    rw [if_pos (by omega), hlast]
    rfl
  | node left right ihl ihr =>
    have hsize : (node left right).size = left.size + right.size := rfl
    have hleft := left.size_pos
    rw [hsize] at hend hb
    rw [walk_node ⟨hstart, hend⟩]
    by_cases hright : o + left.size < b
    · have hlast := ihr (o := o + left.size) hright (by omega) (by omega)
      rw [← List.cons_append, List.getLast?_append, hlast]
      rfl
    · have hlast := ihl (o := o) hstart (by omega) (by omega)
      rw [walk_of_missed (t := right) (by omega), List.append_nil, List.getLast?_cons, hlast]
      rfl

/-- A walk meets fewer parents than the tree has leaves. -/
theorem parents_walk_lt : (walk a b t o).countP Piece.isParent < t.size := by
  induction t generalizing o with
  | leaf =>
    unfold walk
    split
    · exact Nat.one_pos
    · exact Nat.one_pos
  | node left right ihl ihr =>
    have hsize : (node left right).size = left.size + right.size := rfl
    have hl := ihl (o := o)
    have hr := ihr (o := o + left.size)
    by_cases hmeets : o < b ∧ a < o + (left.size + right.size)
    · rw [walk_node hmeets, List.countP_cons_of_pos rfl, List.countP_append, hsize]
      omega
    · rw [walk_of_missed hmeets]
      exact (node left right).size_pos

/-- A covered tree has one parent less than leaves. -/
theorem parents_walk_of_covered (ha : a ≤ o) (hb : o + t.size ≤ b) :
    (walk a b t o).countP Piece.isParent + 1 = t.size := by
  induction t generalizing o with
  | leaf =>
    have hsize : leaf.size = 1 := rfl
    unfold walk
    rw [if_pos (by omega)]
    rfl
  | node left right ihl ihr =>
    have hsize : (node left right).size = left.size + right.size := rfl
    have hleft := left.size_pos
    rw [hsize] at hb ⊢
    rw [walk_node (by omega), List.countP_cons_of_pos rfl, List.countP_append]
    have hl := ihl ha (by omega)
    have hr := ihr (o := o + left.size) (by omega) (by omega)
    omega

/-! ## Sizes -/

/-- The size of a piece, parents and leaves having theirs. -/
def Piece.weight (parentWeight : Nat) (leafWeight : Nat → Nat) : Piece → Nat
  | parent _ _ => parentWeight
  | leaf i => leafWeight i

variable {parentWeight : Nat} {leafWeight : Nat → Nat}

/-- What pieces weigh: their parents and their leaves. -/
theorem sum_weight (pieces : List Piece) :
    (pieces.map (Piece.weight parentWeight leafWeight)).sum =
      ((pieces.filterMap Piece.leaf?).map leafWeight).sum +
        parentWeight * pieces.countP Piece.isParent := by
  induction pieces with
  | nil => rfl
  | cons piece rest ih =>
    cases piece with
    | parent base size =>
      rw [List.map_cons, List.sum_cons, ih, List.filterMap_cons_none rfl,
        List.countP_cons_of_pos rfl, Nat.mul_succ]
      have hweight : (Piece.parent base size).weight parentWeight leafWeight = parentWeight := rfl
      omega
    | leaf i =>
      have hleaf : (Piece.leaf i).leaf? = some i := rfl
      rw [List.map_cons, List.sum_cons, ih, List.filterMap_cons_some hleaf,
        List.countP_cons_of_neg (by exact Bool.false_ne_true), List.map_cons, List.sum_cons,
        Nat.add_assoc]
      rfl

/-- Leaves that partition a line weigh what lies between their ends. -/
theorem sum_leaves (position : Nat → Nat) (hmono : ∀ i, position i ≤ position (i + 1))
    (a n : Nat) :
    ((List.range' a n).map fun i => position (i + 1) - position i).sum =
      position (a + n) - position a ∧ position a ≤ position (a + n) := by
  induction n with
  | zero => exact ⟨(Nat.sub_self _).symm, Nat.le_refl _⟩
  | succ n ih =>
    have hstep := hmono (a + n)
    rw [List.range'_1_concat, List.map_append, List.sum_append, ih.1, List.map_singleton,
      List.sum_singleton]
    have hadd : a + (n + 1) = a + n + 1 := rfl
    rw [hadd]
    omega

/-- The leaf weight within the first `n` units of the pieces. -/
def leafWithin (parentWeight : Nat) (leafWeight : Nat → Nat) : Nat → List Piece → Nat
  | _, [] => 0
  | n, .parent _ _ :: rest => leafWithin parentWeight leafWeight (n - parentWeight) rest
  | n, .leaf i :: rest =>
    min (leafWeight i) n + leafWithin parentWeight leafWeight (n - leafWeight i) rest

@[simp]
theorem leafWithin_parent (n base size : Nat) (rest : List Piece) :
    leafWithin parentWeight leafWeight n (.parent base size :: rest) =
      leafWithin parentWeight leafWeight (n - parentWeight) rest :=
  rfl

@[simp]
theorem leafWithin_leaf (n i : Nat) (rest : List Piece) :
    leafWithin parentWeight leafWeight n (.leaf i :: rest) =
      min (leafWeight i) n + leafWithin parentWeight leafWeight (n - leafWeight i) rest :=
  rfl

/-- Nothing is within no units. -/
theorem leafWithin_zero (pieces : List Piece) :
    leafWithin parentWeight leafWeight 0 pieces = 0 := by
  induction pieces with
  | nil => rfl
  | cons piece rest ih =>
    cases piece with
    | parent base size =>
      rw [leafWithin_parent, Nat.zero_sub, ih]
    | leaf i =>
      rw [leafWithin_leaf, Nat.zero_sub, ih, Nat.min_zero]

/-- The units go to the front pieces first. -/
theorem leafWithin_append (n : Nat) (front rest : List Piece) :
    leafWithin parentWeight leafWeight n (front ++ rest) =
      leafWithin parentWeight leafWeight n front +
        leafWithin parentWeight leafWeight
          (n - (front.map (Piece.weight parentWeight leafWeight)).sum) rest := by
  induction front generalizing n with
  | nil =>
    unfold leafWithin
    rw [List.nil_append, List.map_nil, List.sum_nil, Nat.sub_zero, Nat.zero_add]
  | cons piece front ih =>
    rw [List.cons_append, List.map_cons, List.sum_cons, ← Nat.sub_sub]
    cases piece with
    | parent base size =>
      rw [leafWithin_parent, leafWithin_parent]
      exact ih (n - parentWeight)
    | leaf i =>
      rw [leafWithin_leaf, leafWithin_leaf, ih (n - leafWeight i), Nat.add_assoc]
      rfl

/-- Pieces that fit are within. -/
theorem leafWithin_of_le {n : Nat} {pieces : List Piece}
    (h : (pieces.map (Piece.weight parentWeight leafWeight)).sum ≤ n) :
    leafWithin parentWeight leafWeight n pieces =
      ((pieces.filterMap Piece.leaf?).map leafWeight).sum := by
  induction pieces generalizing n with
  | nil => rfl
  | cons piece rest ih =>
    rw [List.map_cons, List.sum_cons] at h
    cases piece with
    | parent base size =>
      have hweight : (Piece.parent base size).weight parentWeight leafWeight = parentWeight := rfl
      rw [leafWithin_parent, List.filterMap_cons_none rfl]
      exact ih (by omega)
    | leaf i =>
      have hweight : (Piece.leaf i).weight parentWeight leafWeight = leafWeight i := rfl
      have hleaf : (Piece.leaf i).leaf? = some i := rfl
      rw [leafWithin_leaf, List.filterMap_cons_some hleaf, List.map_cons, List.sum_cons,
        ih (by omega), Nat.min_eq_left (by omega)]

/-- No more is within than there is. -/
theorem leafWithin_le (n : Nat) (pieces : List Piece) :
    leafWithin parentWeight leafWeight n pieces ≤
      ((pieces.filterMap Piece.leaf?).map leafWeight).sum := by
  induction pieces generalizing n with
  | nil => exact Nat.le_refl _
  | cons piece rest ih =>
    cases piece with
    | parent base size =>
      rw [leafWithin_parent, List.filterMap_cons_none rfl]
      exact ih (n - parentWeight)
    | leaf i =>
      have hleaf : (Piece.leaf i).leaf? = some i := rfl
      rw [leafWithin_leaf, List.filterMap_cons_some hleaf, List.map_cons, List.sum_cons]
      exact Nat.add_le_add (Nat.min_le_left _ _) (ih (n - leafWeight i))

/-- A last leaf that does not fit is not wholly within. -/
theorem leafWithin_concat_lt {n i : Nat} {front : List Piece} (hleaf : 0 < leafWeight i)
    (h : n < ((front ++ [Piece.leaf i]).map (Piece.weight parentWeight leafWeight)).sum) :
    leafWithin parentWeight leafWeight n (front ++ [.leaf i]) <
      ((front.filterMap Piece.leaf?).map leafWeight).sum + leafWeight i := by
  have hweight : (Piece.leaf i).weight parentWeight leafWeight = leafWeight i := rfl
  have hfront := @leafWithin_le parentWeight leafWeight n front
  have hnone : leafWithin parentWeight leafWeight
      (n - (front.map (Piece.weight parentWeight leafWeight)).sum - leafWeight i) [] = 0 := rfl
  rw [List.map_append, List.sum_append, List.map_singleton, List.sum_singleton, hweight] at h
  rw [leafWithin_append, leafWithin_leaf]
  omega

/-! ## The left-full tree -/

/-- The largest power of two below `n`. -/
def leftSize (n : Nat) : Nat := 2 ^ Nat.log2 (n - 1)

/-- The left part is not empty and leaves something for the right. -/
theorem leftSize_lt {n : Nat} (h : 2 ≤ n) : 0 < leftSize n ∧ leftSize n < n := by
  have hle := Nat.log2_self_le (n := n - 1) (by omega)
  exact ⟨Nat.two_pow_pos _, by unfold leftSize; omega⟩

/-- The tree over `n` leaves whose left part is the full tree over the largest power of two
below `n`. -/
def leftFull (n : Nat) : BinTree :=
  if _ : 2 ≤ n then node (leftFull (leftSize n)) (leftFull (n - leftSize n)) else leaf
termination_by n
decreasing_by
  · exact (leftSize_lt ‹_›).2
  · have hlt := leftSize_lt ‹_›
    omega

theorem leftFull_of_le {n : Nat} (h : n ≤ 1) : leftFull n = leaf := by
  rw [leftFull, dif_neg (by omega)]

theorem leftFull_of_two_le {n : Nat} (h : 2 ≤ n) :
    leftFull n = node (leftFull (leftSize n)) (leftFull (n - leftSize n)) := by
  rw [leftFull, dif_pos h]

/-- The left-full tree has the leaves it is made for. -/
theorem size_leftFull {n : Nat} (h : 0 < n) : (leftFull n).size = n := by
  induction n using Nat.strong_induction_on with
  | _ n ih =>
    by_cases htwo : 2 ≤ n
    · rcases leftSize_lt htwo with ⟨hpos, hlt⟩
      rw [leftFull_of_two_le htwo]
      have hl := ih _ hlt hpos
      have hr := ih (n - leftSize n) (by omega) (by omega)
      unfold size
      omega
    · rw [leftFull_of_le (by omega)]
      have hsize : leaf.size = 1 := rfl
      omega

end BinTree

end Decdn
