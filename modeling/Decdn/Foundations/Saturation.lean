import Decdn.Foundations.FiniteMaps
import Mathlib

/-!
# Greedy draws under nested budgets

A common balance is shared by groups, each with its own room, and every group
pays cumulative demands on its lanes.  One demand draws the least of what its
lane still lacks, its group's room and the common balance, so the individual
draws depend on the order of the demands.  Their total does not: once every
demand has been presented, each of them is met or one of its two budgets is
empty, and that determines the total.

Main results:

- Theorem `Drawn.draw`: one draw keeps the ledger of draws.
- Theorem `Drawn.total`: the total drawn is a function of the demands alone.
-/

namespace Decdn

open Finset

/-- A common balance, the room of each group, and the cumulative mark of each
lane. -/
structure Budgets (ι κ : Type*) where
  remaining : Nat
  room : ι → Nat
  mark : ι → κ → Nat

/-- A demand for a cumulative amount on one lane of one group. -/
structure Demand (ι κ : Type*) where
  group : ι
  lane : κ
  claimed : Nat

variable {ι κ : Type*} [DecidableEq ι] [DecidableEq κ]

namespace Budgets

/-- What one demand draws. -/
def pay (b : Budgets ι κ) (d : Demand ι κ) : Nat :=
  min (d.claimed - b.mark d.group d.lane) (min (b.room d.group) b.remaining)

/-- The budgets after one demand. -/
def draw (b : Budgets ι κ) (d : Demand ι κ) : Budgets ι κ where
  remaining := b.remaining - b.pay d
  room := Function.update b.room d.group (b.room d.group - b.pay d)
  mark := Function.update b.mark d.group
    (Function.update (b.mark d.group) d.lane (b.mark d.group d.lane + b.pay d))

end Budgets

/-- The largest demand on one lane. -/
def peak (M : Multiset (Demand ι κ)) (i : ι) (k : κ) : Nat :=
  ((M.filter fun d => d.group = i ∧ d.lane = k).map Demand.claimed).sup

/-- No lane is demanded more than its peak. -/
theorem claimed_le_peak {M : Multiset (Demand ι κ)} {d : Demand ι κ} (h : d ∈ M) :
    d.claimed ≤ peak M d.group d.lane := by
  apply Multiset.le_sup
  rw [Multiset.mem_map]
  exact ⟨d, Multiset.mem_filter.mpr ⟨h, rfl, rfl⟩, rfl⟩

/-- A lane whose demands are all met is at its peak. -/
theorem peak_le {M : Multiset (Demand ι κ)} {i : ι} {k : κ} {n : Nat}
    (h : ∀ d ∈ M, d.group = i → d.lane = k → d.claimed ≤ n) : peak M i k ≤ n := by
  unfold peak
  rw [Multiset.sup_le]
  intro c hc
  obtain ⟨d, hd, rfl⟩ := Multiset.mem_map.mp hc
  obtain ⟨hM, hi, hk⟩ := Multiset.mem_filter.mp hd
  exact h d hM hi hk

/-- Presenting more demands never lowers a peak. -/
theorem peak_mono {M N : Multiset (Demand ι κ)} (h : M ≤ N) (i : ι) (k : κ) :
    peak M i k ≤ peak N i k :=
  Multiset.sup_mono
    (Multiset.map_subset_map (Multiset.subset_of_le (Multiset.filter_le_filter _ h)))

variable [Fintype ι] [Fintype κ]

/-- `c` is what is left of `b` after the demands `M`, in some order. -/
structure Drawn (b c : Budgets ι κ) (M : Multiset (Demand ι κ)) : Prop where
  mark_le : ∀ i k, b.mark i k ≤ c.mark i k
  mark_le_peak : ∀ i k, c.mark i k ≤ max (b.mark i k) (peak M i k)
  room_eq : ∀ i, c.room i + ∑ k, c.mark i k = b.room i + ∑ k, b.mark i k
  remaining_eq : c.remaining + ∑ i, ∑ k, c.mark i k = b.remaining + ∑ i, ∑ k, b.mark i k
  saturated : ∀ d ∈ M, d.claimed ≤ c.mark d.group d.lane ∨ c.room d.group = 0 ∨ c.remaining = 0

/-- Before any demand nothing is drawn. -/
theorem Drawn.refl (b : Budgets ι κ) : Drawn b b 0 where
  mark_le _ _ := le_rfl
  mark_le_peak _ _ := le_max_left _ _
  room_eq _ := rfl
  remaining_eq := rfl
  saturated _ hd := absurd hd (Multiset.notMem_zero _)

/-- A further demand extends the ledger of draws. -/
theorem Drawn.draw {b c : Budgets ι κ} {M : Multiset (Demand ι κ)} (h : Drawn b c M)
    (d : Demand ι κ) : Drawn b (c.draw d) (d ::ₘ M) := by
  have hpay : c.pay d = min (d.claimed - c.mark d.group d.lane)
      (min (c.room d.group) c.remaining) := rfl
  have hmark : ∀ i k, (c.draw d).mark i k = c.mark i k + if i = d.group ∧ k = d.lane then
      c.pay d else 0 := by
    intro i k
    by_cases hi : i = d.group
    · subst hi
      by_cases hk : k = d.lane
      · subst hk
        simp [Budgets.draw]
      · simp [Budgets.draw, hk]
    · simp [Budgets.draw, hi]
  have hroom : ∀ i, (c.draw d).room i = if i = d.group then c.room i - c.pay d else c.room i := by
    intro i
    by_cases hi : i = d.group
    · subst hi
      simp [Budgets.draw]
    · simp [Budgets.draw, hi]
  have hpeak := peak_mono (Multiset.le_cons_self M d)
  refine ⟨fun i k => ?_, fun i k => ?_, fun i => ?_, ?_, fun e he => ?_⟩
  · rw [hmark]
    have := h.mark_le i k
    omega
  · -- The draw stops at the demand, and the demand is below the new peak.
    have hold := h.mark_le_peak i k
    have hmono := hpeak i k
    have htop := claimed_le_peak (Multiset.mem_cons_self d M)
    rw [hmark]
    split
    · rename_i hlane
      obtain ⟨rfl, rfl⟩ := hlane
      omega
    · omega
  · have hold := h.room_eq i
    rw [hroom]
    split
    · rename_i hi
      subst hi
      have hrow := sum_update_add (c.mark d.group) id d.lane
        (c.mark d.group d.lane + c.pay d)
      simp only [id] at hrow
      simp only [Budgets.draw, Function.update_self]
      omega
    · rename_i hi
      simpa [Budgets.draw, hi] using hold
  · have hold := h.remaining_eq
    have hall := sum_sum_update_add c.mark id d.group d.lane (c.mark d.group d.lane + c.pay d)
    simp only [id] at hall
    simp only [Budgets.draw]
    omega
  · -- An old demand stays met or its empty budget stays empty; the new one is
    -- met unless a budget stopped it.
    rw [hmark, hroom]
    simp only [Budgets.draw]
    obtain rfl | he := Multiset.mem_cons.mp he
    · simp only [and_self, if_true]
      omega
    · obtain hmet | hempty | hempty := h.saturated e he
      · left
        omega
      · right
        left
        split <;> omega
      · right
        right
        omega

/-- After all demands the total drawn is the least of the common balance and the
groups' needs, each group's need capped by its room. -/
theorem Drawn.total {b c : Budgets ι κ} {M : Multiset (Demand ι κ)} (h : Drawn b c M) :
    c.remaining + min b.remaining
      (∑ i, min (b.room i) (∑ k, (peak M i k - b.mark i k))) = b.remaining := by
  -- What each group drew.
  have hdrawn : ∀ i, ∑ k, c.mark i k = ∑ k, b.mark i k + ∑ k, (c.mark i k - b.mark i k) := by
    intro i
    rw [← sum_add_distrib]
    exact sum_congr rfl fun k _ => by have := h.mark_le i k; omega
  have htotal : ∑ i, ∑ k, c.mark i k =
      ∑ i, ∑ k, b.mark i k + ∑ i, ∑ k, (c.mark i k - b.mark i k) := by
    rw [← sum_add_distrib]
    exact sum_congr rfl fun i _ => hdrawn i
  have hneed : ∀ i, ∑ k, (c.mark i k - b.mark i k) ≤ ∑ k, (peak M i k - b.mark i k) := by
    intro i
    exact sum_le_sum fun k _ => by have := h.mark_le_peak i k; omega
  have hle : ∀ i, ∑ k, (c.mark i k - b.mark i k) ≤
      min (b.room i) (∑ k, (peak M i k - b.mark i k)) := by
    intro i
    have hroom := h.room_eq i
    have hsum := hdrawn i
    exact le_min (by omega) (hneed i)
  have hremaining := h.remaining_eq
  by_cases hempty : c.remaining = 0
  · have hbound := sum_le_sum fun i (_ : i ∈ univ) => hle i
    omega
  · -- With balance left, every group is out of room or has all demands met.
    have heq : ∀ i, ∑ k, (c.mark i k - b.mark i k) =
        min (b.room i) (∑ k, (peak M i k - b.mark i k)) := by
      intro i
      have hroom := h.room_eq i
      have hsum := hdrawn i
      refine le_antisymm (hle i) ?_
      by_cases hout : c.room i = 0
      · exact le_trans (min_le_left _ _) (by omega)
      · refine le_trans (min_le_right _ _) (sum_le_sum fun k _ => ?_)
        refine Nat.sub_le_sub_right (peak_le fun d hd hi hk => ?_) _
        subst hi hk
        obtain hmet | hzero | hzero := h.saturated d hd
        · exact hmet
        · exact absurd hzero hout
        · exact absurd hzero hempty
    have hsum : ∑ i, ∑ k, (c.mark i k - b.mark i k) =
        ∑ i, min (b.room i) (∑ k, (peak M i k - b.mark i k)) :=
      sum_congr rfl fun i _ => heq i
    omega

end Decdn
