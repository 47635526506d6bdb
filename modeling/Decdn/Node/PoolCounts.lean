import Decdn.Node.PoolHistory

/-!
# Lane totals of the pool view

An entry's lanes lie between two records of the chain: the one at the last log
delivered and the one at the furthest log folded.  The redemptions counted above
the entry's last read are bounded by what its lanes advanced past that read, so a
redemption is never counted by the read and again by the fold.

Main results:

- Theorem `Counts.settleLane`: one lane of a redemption keeps the totals.
- Theorem `Counts.redeem`: so does a whole redemption.
- Theorem `redeem_quiet`: a redemption leaves the owner, the deposit and the read
  of an entry alone.
-/

namespace Decdn.Node.PoolView

open PaymentPool (LaneSettled Event Pool)
open Finset

/-- The block of the last read an entry took in. -/
def PoolEntry.readBlock (e : PoolEntry) (seed : Nat) : Nat :=
  (e.snapshot.bind fun s => s.anchor).getD seed

/-! ## The lane totals -/

/-- An entry's lanes against the records `lo` and `hi` they lie between, and the
record `base` its last read was taken from. -/
structure Counts (lo hi base : Account) (e : PoolEntry) : Prop where
  lanes : ∀ signer provider v, e.lanes signer provider = some v →
    0 < v ∧ lo.paid signer provider ≤ v ∧ v ≤ hi.paid signer provider
  total : e.totalRedeemed = ∑ signer, ∑ provider, e.laneTotal signer provider
  spent : ∀ signer, e.signerSpent signer = ∑ provider, e.laneTotal signer provider
  opened : e.snapshot = none → ∀ signer provider,
    lo.paid signer provider ≤ e.laneTotal signer provider
  since : ∀ s, e.snapshot = some s →
    s.since ≤ ∑ signer, ∑ provider,
      (e.laneTotal signer provider - base.paid signer provider)

section Counts

variable {lo lo' hi hi' base : Account} {e : PoolEntry}

/-- A lane's total never exceeds the upper record. -/
theorem Counts.laneTotal_le (h : Counts lo hi base e) (signer provider : Address) :
    e.laneTotal signer provider ≤ hi.paid signer provider := by
  unfold PoolEntry.laneTotal
  cases hlane : e.lanes signer provider with
  | none => exact Nat.zero_le _
  | some v => exact (h.lanes signer provider v hlane).2.2

/-- The bounds may be moved apart. -/
theorem Counts.widen (h : Counts lo hi base e)
    (hlo : ∀ signer provider, lo'.paid signer provider ≤ lo.paid signer provider)
    (hhi : ∀ signer provider, hi.paid signer provider ≤ hi'.paid signer provider) :
    Counts lo' hi' base e where
  lanes signer provider v hv := by
    rcases h.lanes signer provider v hv with ⟨hpos, hle, hge⟩
    exact ⟨hpos, Nat.le_trans (hlo _ _) hle, Nat.le_trans hge (hhi _ _)⟩
  total := h.total
  spent := h.spent
  opened hs signer provider := Nat.le_trans (hlo _ _) (h.opened hs signer provider)
  since := h.since

/-- The totals of an entry whose lanes stay below a sound record fit a word. -/
theorem Counts.total_le (hle : ∀ signer provider,
      e.laneTotal signer provider ≤ hi.paid signer provider) (hsound : hi.Sound) :
    ∑ signer, ∑ provider, e.laneTotal signer provider ≤ u64Max := by
  have hsum : ∑ signer, ∑ provider, e.laneTotal signer provider ≤
      ∑ signer, ∑ provider, hi.paid signer provider :=
    sum_le_sum fun signer _ => sum_le_sum fun provider _ => hle signer provider
  have := hsound.redeemed
  have := hsound.covered
  have := hsound.deposit
  omega

/-- The part of a snapshot that placing an advance may move. -/
theorem Snapshot.place_since (s : Snapshot) (block : Nat) (baseline : Option Nat) (delta : Nat) :
    (s.place (some block) baseline delta).since = s.since ∨
      s.covers (some block) = false ∧ s.anchor.isSome = true ∧ baseline.isSome = true ∧
        (s.place (some block) baseline delta).since = U64.saturatingAdd s.since delta := by
  unfold Snapshot.place
  split
  · exact Or.inl rfl
  · rename_i hcovers
    split
    · rename_i hall
      simp only [Bool.and_eq_true] at hall
      exact Or.inr ⟨by simpa using hcovers, hall.1.1, hall.2, rfl⟩
    · exact Or.inl rfl

/-- One lane of a redemption. -/
theorem Counts.settleLane {provider : Address} {block : Nat} {lane : LaneSettled}
    (h : Counts lo hi base e) (hsound : hi.Sound)
    (hle : lo.paid lane.signer provider ≤ lane.newPaidCumulative)
    (hhi : lane.newPaidCumulative ≤ hi.paid lane.signer provider)
    (hbase : ∀ s, e.snapshot = some s → s.covers (some block) = false → s.anchor.isSome = true →
      ∀ signer p, base.paid signer p ≤ lo.paid signer p) :
    Counts (lo.settleLane provider lane) hi base (e.settleLane provider (some block) lane) := by
  set e' := e.settleLane provider (some block) lane with he'
  have hlanes' : ∀ signer p v, e'.lanes signer p = some v →
      0 < v ∧ (lo.settleLane provider lane).paid signer p ≤ v ∧ v ≤ hi.paid signer p := by
    intro signer p v hv
    rw [he', PoolEntry.settleLane_lanes] at hv
    rw [Account.settleLane_paid]
    split at hv
    · rename_i hown
      rcases hown with ⟨⟨rfl, rfl⟩, hlt⟩
      cases hv
      rw [if_pos ⟨rfl, rfl⟩]
      exact ⟨by omega, Nat.le_refl _, hhi⟩
    · rename_i hother
      rcases h.lanes signer p v hv with ⟨hpos, hlo, hhi'⟩
      refine ⟨hpos, ?_, hhi'⟩
      split
      · rename_i hown
        have hv' : e.laneTotal signer p = v := by simp [PoolEntry.laneTotal, hv]
        have hge : ¬ e.laneTotal signer p < lane.newPaidCumulative :=
          fun hlt => hother ⟨hown, hlt⟩
        omega
      · exact hlo
  have hopened' : e.snapshot = none → ∀ signer p,
      (lo.settleLane provider lane).paid signer p ≤ e'.laneTotal signer p := by
    intro hs signer p
    have := h.opened hs signer p
    rw [he', PoolEntry.settleLane_laneTotal, Account.settleLane_paid]
    split
    · exact le_max_right _ _
    · exact this
  rcases Nat.lt_or_ge (e.laneTotal lane.signer provider) lane.newPaidCumulative with hlt | hge
  · -- The lane advances: every total moves by the same amount.
    rcases PoolEntry.settleLane_of_lt (some block) hlt with ⟨-, htotal, hspent, hsnap⟩
    have hother : ∀ signer p, ¬ (signer = lane.signer ∧ p = provider) →
        e'.laneTotal signer p = e.laneTotal signer p := by
      intro signer p hne
      rw [he', PoolEntry.settleLane_laneTotal, if_neg hne]
    have hown : e'.laneTotal lane.signer provider = lane.newPaidCumulative := by
      rw [he', PoolEntry.settleLane_laneTotal, if_pos ⟨rfl, rfl⟩]
      omega
    have hle' : ∀ signer p, e'.laneTotal signer p ≤ hi.paid signer p := by
      intro signer p
      by_cases hne : signer = lane.signer ∧ p = provider
      · rw [hne.1, hne.2, hown]
        exact hhi
      · rw [hother signer p hne]
        exact h.laneTotal_le signer p
    have hfits := Counts.total_le hle' hsound
    have hsum := sum_sum_change lane.signer provider hother
    have hrow := sum_change (f := e.laneTotal lane.signer) (g := e'.laneTotal lane.signer) provider
      (fun p hp => hother lane.signer p fun hne => hp hne.2)
    have hrow_le : ∑ p, e'.laneTotal lane.signer p ≤ ∑ signer, ∑ p, e'.laneTotal signer p :=
      single_le_sum (f := fun signer => ∑ p, e'.laneTotal signer p)
        (fun _ _ => Nat.zero_le _) (mem_univ lane.signer)
    have hold := h.total
    have holdSpent := h.spent lane.signer
    refine ⟨hlanes', ?_, ?_, ?_, ?_⟩
    · rw [htotal, U64.saturatingAdd_eq (by omega)]
      omega
    · intro signer
      rw [hspent]
      by_cases hs : signer = lane.signer
      · subst hs
        rw [Function.update_self, U64.saturatingAdd_eq (by omega)]
        omega
      · rw [Function.update_of_ne hs, h.spent signer]
        exact sum_congr rfl fun p _ => (hother signer p fun hne => hs hne.1).symm
    · intro hs
      have hnone : e.snapshot = none := by
        rw [hsnap] at hs
        simpa using hs
      exact hopened' hnone
    · intro s' hs'
      rw [hsnap, Option.map_eq_some_iff] at hs'
      rcases hs' with ⟨s, hs, rfl⟩
      have hsince := h.since s hs
      have hsinceSum := sum_sum_change
        (f := fun signer p => e.laneTotal signer p - base.paid signer p)
        (g := fun signer p => e'.laneTotal signer p - base.paid signer p) lane.signer provider
        (fun signer p hne => by rw [hother signer p hne])
      rw [hown] at hsinceSum
      have hmono : e.laneTotal lane.signer provider - base.paid lane.signer provider ≤
          lane.newPaidCumulative - base.paid lane.signer provider := by omega
      rcases Snapshot.place_since s block (e.lanes lane.signer provider)
          (lane.newPaidCumulative - e.laneTotal lane.signer provider) with hsame | hcount
      · rw [hsame]
        omega
      · rcases hcount with ⟨hcovers, hanchor, hbaseline, hsince'⟩
        rcases Option.isSome_iff_exists.mp hbaseline with ⟨v, hv⟩
        -- The baseline is at least what the read already counts.
        have hv' : e.laneTotal lane.signer provider = v := by simp [PoolEntry.laneTotal, hv]
        have hread := hbase s hs hcovers hanchor lane.signer provider
        have hlo := (h.lanes lane.signer provider v hv).2.1
        have hclamp : U64.saturatingAdd s.since
            (lane.newPaidCumulative - e.laneTotal lane.signer provider) ≤
            s.since + (lane.newPaidCumulative - e.laneTotal lane.signer provider) :=
          min_le_left _ _
        rw [hsince']
        omega
  · have hsame : e' = e := PoolEntry.settleLane_of_le (some block) hge
    rw [hsame] at hlanes' hopened' ⊢
    exact ⟨hlanes', h.total, h.spent, hopened', h.since⟩

end Counts

/-! ## What a redemption leaves alone -/

/-- `e'` is `e` with lanes advanced and later blocks folded: the owner, the deposit
and the read are the same. -/
structure Quiet (e e' : PoolEntry) : Prop where
  owner : e'.owner = e.owner
  deposit : e'.deposit = e.deposit
  lanes : ∀ signer provider, e.laneTotal signer provider ≤ e'.laneTotal signer provider
  opened : e'.snapshot = none → e.snapshot = none
  snapshot : ∀ s', e'.snapshot = some s' → ∃ s, e.snapshot = some s ∧ s'.anchor = s.anchor ∧
    s'.redeemed = s.redeemed ∧ s.foldedThrough ≤ s'.foldedThrough

section Quiet

variable {e e' e'' : PoolEntry}

/-- Nothing happened. -/
theorem Quiet.refl (e : PoolEntry) : Quiet e e :=
  ⟨rfl, rfl, fun _ _ => Nat.le_refl _, id, fun s' hs => ⟨s', hs, rfl, rfl, Nat.le_refl _⟩⟩

/-- Two quiet changes in a row. -/
theorem Quiet.trans (h : Quiet e e') (h' : Quiet e' e'') : Quiet e e'' where
  owner := h'.owner.trans h.owner
  deposit := h'.deposit.trans h.deposit
  lanes signer provider := Nat.le_trans (h.lanes signer provider) (h'.lanes signer provider)
  opened hs := h.opened (h'.opened hs)
  snapshot s'' hs'' := by
    rcases h'.snapshot s'' hs'' with ⟨s', hs', hanchor', hredeemed', hfolded'⟩
    rcases h.snapshot s' hs' with ⟨s, hs, hanchor, hredeemed, hfolded⟩
    exact ⟨s, hs, hanchor'.trans hanchor, hredeemed'.trans hredeemed,
      Nat.le_trans hfolded hfolded'⟩

/-- A quiet change keeps the block of the last read. -/
theorem Quiet.readBlock (h : Quiet e e') (seed : Nat) : e'.readBlock seed = e.readBlock seed := by
  unfold PoolEntry.readBlock
  cases hs' : e'.snapshot with
  | none => rw [h.opened hs']
  | some s' =>
    rcases h.snapshot s' hs' with ⟨s, hs, hanchor, -, -⟩
    rw [hs]
    exact congrArg (fun a : Option Nat => a.getD seed) hanchor

/-- Placing an advance moves neither the read nor the folded blocks. -/
theorem Snapshot.place_frame (s : Snapshot) (block baseline : Option Nat) (delta : Nat) :
    (s.place block baseline delta).anchor = s.anchor ∧
      (s.place block baseline delta).redeemed = s.redeemed ∧
      (s.place block baseline delta).foldedThrough = s.foldedThrough := by
  unfold Snapshot.place
  split
  · exact ⟨rfl, rfl, rfl⟩
  · split
    · exact ⟨rfl, rfl, rfl⟩
    · exact ⟨rfl, rfl, rfl⟩

/-- One lane of a redemption is quiet, and keeps the lifecycle. -/
theorem settleLane_quiet (provider : Address) (block : Option Nat) (e : PoolEntry)
    (lane : LaneSettled) :
    Quiet e (e.settleLane provider block lane) ∧
      (e.settleLane provider block lane).lifecycle = e.lifecycle := by
  have hlanes : ∀ signer p,
      e.laneTotal signer p ≤ (e.settleLane provider block lane).laneTotal signer p := by
    intro signer p
    rw [PoolEntry.settleLane_laneTotal]
    split
    · exact le_max_left _ _
    · exact Nat.le_refl _
  rcases Nat.lt_or_ge (e.laneTotal lane.signer provider) lane.newPaidCumulative with hlt | hge
  · have hsnap := (PoolEntry.settleLane_of_lt block hlt).2.2.2
    have hlt' : (e.lanes lane.signer provider).getD 0 < lane.newPaidCumulative := hlt
    refine ⟨⟨?_, ?_, hlanes, ?_, ?_⟩, ?_⟩
    · simp only [PoolEntry.settleLane, if_pos hlt']
    · simp only [PoolEntry.settleLane, if_pos hlt']
    · intro hs
      rw [hsnap] at hs
      simpa using hs
    · intro s' hs'
      rw [hsnap, Option.map_eq_some_iff] at hs'
      rcases hs' with ⟨s, hs, rfl⟩
      rcases Snapshot.place_frame s block (e.lanes lane.signer provider)
        (lane.newPaidCumulative - e.laneTotal lane.signer provider) with ⟨ha, hr, hf⟩
      exact ⟨s, hs, ha, hr, Nat.le_of_eq hf.symm⟩
    · simp only [PoolEntry.settleLane, if_pos hlt']
  · rw [PoolEntry.settleLane_of_le block hge]
    exact ⟨Quiet.refl e, rfl⟩

/-- The lane loop is quiet, and every lane ends at least where the event says. -/
theorem settleLanes_quiet (provider : Address) (block : Option Nat) (lanes : List LaneSettled)
    (e : PoolEntry) :
    Quiet e (lanes.foldl (PoolEntry.settleLane provider block) e) ∧
      (lanes.foldl (PoolEntry.settleLane provider block) e).lifecycle = e.lifecycle ∧
      ∀ lane ∈ lanes, lane.newPaidCumulative ≤
        (lanes.foldl (PoolEntry.settleLane provider block) e).laneTotal lane.signer provider := by
  induction lanes generalizing e with
  | nil => exact ⟨Quiet.refl e, rfl, fun lane hlane => nomatch hlane⟩
  | cons lane lanes ih =>
    rcases settleLane_quiet provider block e lane with ⟨hquiet, hlife⟩
    rcases ih (e.settleLane provider block lane) with ⟨hquiet', hlife', hlanes⟩
    refine ⟨hquiet.trans hquiet', hlife'.trans hlife, ?_⟩
    intro lane' hmem
    rcases List.mem_cons.mp hmem with rfl | hmem
    · have hown : lane'.newPaidCumulative ≤
          (e.settleLane provider block lane').laneTotal lane'.signer provider := by
        rw [PoolEntry.settleLane_laneTotal, if_pos ⟨rfl, rfl⟩]
        exact le_max_right _ _
      exact Nat.le_trans hown (hquiet'.lanes _ _)
    · exact hlanes lane' hmem

/-- Folding a block raises nothing but the folded block. -/
theorem foldBlock_quiet (e : PoolEntry) (block : Nat) :
    Quiet e { e with snapshot := e.snapshot.map fun s => s.foldBlock (some block) } := by
  refine ⟨rfl, rfl, fun _ _ => Nat.le_refl _, fun hs => by simpa using hs, ?_⟩
  intro s' hs'
  rcases Option.map_eq_some_iff.mp hs' with ⟨s, hs, rfl⟩
  exact ⟨s, hs, rfl, rfl, le_max_left _ _⟩

/-- After a redemption its block counts as folded. -/
theorem redeem_folded {provider : Address} {lanes : List LaneSettled} {block : Nat} {s' : Snapshot}
    (h : (e.redeem provider lanes (some block)).snapshot = some s') :
    block ≤ s'.foldedThrough := by
  rcases (settleLanes_quiet provider (some block) lanes _).1.snapshot s' h with
    ⟨s, hs, -, -, hfolded⟩
  rcases Option.map_eq_some_iff.mp hs with ⟨s₀, -, rfl⟩
  exact Nat.le_trans (le_max_right _ _) hfolded

/-- A redemption is quiet. -/
theorem redeem_quiet (provider : Address) (lanes : List LaneSettled) (block : Nat)
    (e : PoolEntry) : Quiet e (e.redeem provider lanes (some block)) :=
  (foldBlock_quiet e block).trans (settleLanes_quiet provider (some block) lanes _).1

end Quiet

/-- A whole redemption moves the lower record to the one after it. -/
theorem Counts.redeem {lo hi base : Account} {e : PoolEntry} {provider : Address} {block : Nat}
    {lanes : List LaneSettled} (h : Counts lo hi base e) (hsound : hi.Sound)
    (hsettles : lo.Settles provider lanes)
    (hhi : Account.Later (lanes.foldl (Account.settleLane provider) lo) hi)
    (hbase : ∀ s, e.snapshot = some s → s.covers (some block) = false → s.anchor.isSome = true →
      ∀ signer p, base.paid signer p ≤ lo.paid signer p) :
    Counts (lanes.foldl (Account.settleLane provider) lo) hi base
      (lanes.foldl (PoolEntry.settleLane provider (some block)) e) := by
  induction lanes generalizing lo e with
  | nil => exact h
  | cons lane lanes ih =>
    rcases hsettles with ⟨hle, hrest⟩
    have hfirst : lo.Settles provider [lane] := ⟨hle, trivial⟩
    have hone := (Account.redeem_facts hfirst).2.1
    have hafter := (Account.redeem_facts hrest).2.1.trans hhi
    have hlane : lane.newPaidCumulative ≤ hi.paid lane.signer provider := by
      have := hafter.paid lane.signer provider
      rwa [Account.settleLane_paid, if_pos ⟨rfl, rfl⟩] at this
    refine ih (h.settleLane hsound hle hlane hbase) hrest hhi ?_
    intro s' hs' hcovers hanchor signer p
    rcases (settleLane_quiet provider (some block) e lane).1.snapshot s' hs' with
      ⟨s, hs, hsame, -, -⟩
    have hcovers' : s.covers (some block) = false := by
      unfold Snapshot.covers at hcovers ⊢
      rwa [hsame] at hcovers
    exact Nat.le_trans (hbase s hs hcovers' (hsame ▸ hanchor) signer p) (hone.paid signer p)

end Decdn.Node.PoolView
