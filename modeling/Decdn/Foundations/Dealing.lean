import Mathlib.Data.List.Basic
import Mathlib.Data.List.Induction
import Mathlib.Tactic.ByContra

/-!
# Dealing items to buckets

Items dealt in turn to a fixed number of buckets: every item goes to one bucket,
and no bucket gets more than its share.

Main results:

- Theorem `flatten_deal_perm`: dealing hands out every item once.
- Theorem `length_le_of_mem_deal`: no bucket holds more than its share.
-/

namespace Decdn.Dealing

variable {α : Type}

/-- Deal the items in turn to the first, the second and so on of `k` buckets. -/
def deal (k : Nat) (items : List α) : List (List α) :=
  items.zipIdx.foldl (fun buckets item => buckets.modify (item.2 % k) (· ++ [item.1]))
    (List.replicate k [])

theorem deal_nil (k : Nat) : deal k ([] : List α) = List.replicate k [] := rfl

/-- The last item goes to the bucket whose turn it is. -/
theorem deal_concat (k : Nat) (items : List α) (x : α) :
    deal k (items ++ [x]) = (deal k items).modify (items.length % k) (· ++ [x]) := by
  unfold deal
  rw [List.zipIdx_append, List.foldl_append, Nat.zero_add]
  rfl

/-- There are as many buckets as asked for. -/
theorem length_deal (k : Nat) (items : List α) : (deal k items).length = k := by
  induction items using List.reverseRecOn with
  | nil => exact List.length_replicate
  | append_singleton items x ih => rw [deal_concat, List.length_modify, ih]

/-- Adding an item to one bucket adds it to them all. -/
theorem flatten_modify_perm {buckets : List (List α)} {i : Nat} (hi : i < buckets.length) (x : α) :
    (buckets.modify i (· ++ [x])).flatten.Perm (x :: buckets.flatten) := by
  induction buckets generalizing i with
  | nil => cases hi
  | cons bucket rest ih =>
    cases i with
    | zero =>
      rw [List.modify_zero_cons, List.flatten_cons, List.flatten_cons, List.append_assoc]
      exact List.perm_middle
    | succ i =>
      rw [List.modify_succ_cons, List.flatten_cons, List.flatten_cons]
      have hrest := ih (Nat.lt_of_succ_lt_succ hi)
      exact (hrest.append_left bucket).trans List.perm_middle

/-- Dealing hands out every item once. -/
theorem flatten_deal_perm {k : Nat} (hk : 0 < k) (items : List α) :
    (deal k items).flatten.Perm items := by
  induction items using List.reverseRecOn with
  | nil =>
    rw [deal_nil, List.flatten_replicate_nil]
  | append_singleton items x ih =>
    rw [deal_concat]
    have hslot : items.length % k < (deal k items).length := by
      rw [length_deal]
      exact Nat.mod_lt _ hk
    have hcons := flatten_modify_perm hslot x
    exact hcons.trans ((ih.cons x).trans (List.perm_append_singleton x items).symm)

/-- The bucket at `i` holds no more items than come round to it. -/
theorem getElem_deal {k : Nat} (items : List α) {i : Nat} {bucket : List α}
    (h : (deal k items)[i]? = some bucket) :
    bucket.length = 0 ∨ i + (bucket.length - 1) * k < items.length := by
  induction items using List.reverseRecOn generalizing bucket with
  | nil =>
    rw [deal_nil, List.getElem?_replicate] at h
    split at h
    · cases h
      exact .inl rfl
    · cases h
  | append_singleton items x ih =>
    rw [deal_concat, List.getElem?_modify] at h
    rw [List.length_append, List.length_singleton]
    rcases Option.map_eq_some_iff.mp h with ⟨before, hbefore, rfl⟩
    split
    · rename_i hturn
      have hround := Nat.mod_add_div items.length k
      rw [hturn] at hround
      rw [List.length_append, List.length_singleton, Nat.add_sub_cancel]
      right
      rcases ih hbefore with hempty | hlt
      · rw [hempty]
        omega
      · have hq : before.length - 1 < items.length / k := by
          by_contra hle
          have hmul := Nat.mul_le_mul_left k (Nat.le_of_not_lt hle)
          rw [Nat.mul_comm k (before.length - 1)] at hmul
          omega
        have hmul : before.length * k ≤ k * (items.length / k) := by
          rw [Nat.mul_comm]
          exact Nat.mul_le_mul_left k (by omega)
        omega
    · rcases ih hbefore with hempty | hlt
      · exact .inl hempty
      · exact .inr (by omega)

/-- So no bucket holds more than its share of the items. -/
theorem length_le_of_mem_deal {k cap : Nat} {items : List α} (hfits : items.length ≤ k * cap)
    {bucket : List α} (h : bucket ∈ deal k items) : bucket.length ≤ cap := by
  rcases List.mem_iff_getElem?.mp h with ⟨i, hi⟩
  rcases getElem_deal items hi with hempty | hlt
  · omega
  · by_contra hover
    have hmul := Nat.mul_le_mul_right k (show cap ≤ bucket.length - 1 by omega)
    rw [Nat.mul_comm cap k] at hmul
    omega

end Decdn.Dealing
