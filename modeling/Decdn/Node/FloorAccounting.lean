import Decdn.Foundations.Fallible
import Decdn.Foundations.FiniteMaps
import Decdn.Foundations.Runs
import Decdn.Node.FloorCredit

/-!
# The floor accounting balances

Every pool entry keeps two ledgers: the live reservations of the streams under way
and the debt of the streams that left.  The live ledger is at every moment the sum
of the outstanding guards of the entry's own generation, row by row, so a release
never takes more than is there.

The generation stamp is a 64-bit counter.  The balance therefore holds in every run
that makes at most `2 ^ 64` reservations, and one more can bring a stamp back.

Main results:

- Theorem `Books.settle`: the one place where live credit is released or debt
  booked.
- Theorem `Inv.step`: every lock hold keeps the books.
- Theorem `floor_accounting`: the balance in every run, the admission bounds, and
  the isolation of generations.
- Theorem `stale_guard_released`: the run of one reservation too many.
-/

namespace Decdn.Node.FloorCredit

open Finset

variable {h : Handler} {s t : Floor} {p : Bytes32} {e : PoolFloorState} {i : Nat}
variable {g : FloorReservation} {signer : Address} {amount : Nat}

/-! ## Rows -/

namespace PoolFloorState

/-- Pruning a row changes no amount. -/
@[simp]
theorem row_pruneSpent (e : PoolFloorState) (signer sg : Address) :
    (e.pruneSpent signer).row sg = e.row sg := by
  unfold pruneSpent
  cases hrow : e.signers signer with
  | none => rfl
  | some row =>
    simp only
    split
    · rename_i hempty
      by_cases hsg : sg = signer
      · subst hsg
        simp only [PoolFloorState.row, Function.update_self, hrow, Option.getD_some,
          Option.getD_none]
        simp only [SignerFloorState.isEmpty, Bool.and_eq_true, beq_iff_eq] at hempty
        cases row
        simp_all
      · simp [PoolFloorState.row, Function.update_of_ne hsg]
    · rfl

/-- Pruning a row keeps the pool's own fields. -/
theorem pruneSpent_fields (e : PoolFloorState) (signer : Address) :
    (e.pruneSpent signer).liveReservation = e.liveReservation ∧
      (e.pruneSpent signer).debt = e.debt ∧ (e.pruneSpent signer).epoch = e.epoch := by
  unfold pruneSpent
  cases e.signers signer with
  | none => exact ⟨rfl, rfl, rfl⟩
  | some row =>
    simp only
    split
    · exact ⟨rfl, rfl, rfl⟩
    · exact ⟨rfl, rfl, rfl⟩

/-- A charge raises one row. -/
theorem row_chargeLive (e : PoolFloorState) (signer sg : Address) (amount : Nat) :
    (e.chargeLive signer amount).row sg =
      if sg = signer then
        { e.row sg with
          liveReservation := U256.saturatingAdd (e.row sg).liveReservation amount }
      else e.row sg := by
  by_cases hsg : sg = signer
  · subst hsg
    simp [chargeLive, row]
  · simp [chargeLive, row, hsg]

/-- A release lowers one row; a row that is not there holds nothing. -/
theorem row_releaseLive (e : PoolFloorState) (signer sg : Address) (amount : Nat) :
    (e.releaseLive signer amount).row sg =
      if sg = signer then
        { e.row sg with liveReservation := (e.row sg).liveReservation - amount }
      else e.row sg := by
  by_cases hsg : sg = signer
  · subst hsg
    cases hrow : e.signers sg <;> simp [releaseLive, row, hrow]
  · simp [releaseLive, row, hsg]

/-- A debt charge raises one row. -/
theorem row_chargeDebt (e : PoolFloorState) (signer sg : Address) (amount : Nat) :
    (e.chargeDebt signer amount).row sg =
      if sg = signer then
        { e.row sg with debt := U256.saturatingAdd (e.row sg).debt amount }
      else e.row sg := by
  by_cases hsg : sg = signer
  · subst hsg
    simp [chargeDebt, row]
  · simp [chargeDebt, row, hsg]

/-- Clearing debt lowers one row and the total by the same amount. -/
theorem clearDebt_cases (e : PoolFloorState) (signer : Address) (amount : Nat) :
    ∃ cleared, cleared ≤ (e.row signer).debt ∧
      (e.clearDebt signer amount).liveReservation = e.liveReservation ∧
      (e.clearDebt signer amount).epoch = e.epoch ∧
      (e.clearDebt signer amount).debt = e.debt - cleared ∧
      ∀ sg, (e.clearDebt signer amount).row sg =
        if sg = signer then { e.row sg with debt := (e.row sg).debt - cleared }
        else e.row sg := by
  unfold clearDebt
  cases hrow : e.signers signer with
  | none =>
    refine ⟨0, Nat.zero_le _, rfl, rfl, rfl, ?_⟩
    simp
  | some row =>
    have hget : e.row signer = row := by simp [PoolFloorState.row, hrow]
    rcases pruneSpent_fields
      { e with
        debt := e.debt - min row.debt amount
        signers := Function.update e.signers signer
          (some { row with debt := row.debt - min row.debt amount }) } signer with
      ⟨hlive, hdebt, hepoch⟩
    refine ⟨min row.debt amount, ?_, hlive, hepoch, hdebt, ?_⟩
    · rw [hget]
      exact Nat.min_le_left _ _
    · intro sg
      rw [row_pruneSpent]
      by_cases hsg : sg = signer
      · subst hsg
        simp [PoolFloorState.row, hrow]
      · simp [PoolFloorState.row, hsg]

end PoolFloorState

/-! ## What the guards hold -/

/-- What an outstanding guard still holds live in one row of one generation. -/
def heldBy (p : Bytes32) (epoch : Nat) (signer : Address) : Option FloorReservation → Nat
  | some g =>
    if g.poolId = p ∧ g.epoch = epoch ∧ g.signer = signer ∧ g.liveReleased = false then
      g.reserved
    else 0
  | none => 0

/-- The reservation of an outstanding guard, released or not. -/
def outstanding : Option FloorReservation → Nat
  | some g => g.reserved
  | none => 0

/-- A guard of another generation holds nothing in this one. -/
theorem heldBy_other {epoch : Nat} (hne : ¬ (g.poolId = p ∧ g.epoch = epoch)) :
    heldBy p epoch signer (some g) = 0 := by
  unfold heldBy
  exact if_neg fun hall => hne ⟨hall.1, hall.2.1⟩

/-- A released guard holds nothing. -/
theorem heldBy_released {epoch : Nat} (hreleased : g.liveReleased = true) :
    heldBy p epoch signer (some g) = 0 := by
  unfold heldBy
  exact if_neg fun hall => by simp [hreleased] at hall

/-- What an outstanding guard still holds live in one generation of a pool. -/
def unreleasedIn (p : Bytes32) (epoch : Nat) : Option FloorReservation → Nat
  | some g =>
    if g.poolId = p ∧ g.epoch = epoch ∧ g.liveReleased = false then g.reserved else 0
  | none => 0

/-- A guard holds its reservation in one row only. -/
theorem sum_heldBy (o : Option FloorReservation) (p : Bytes32) (epoch : Nat) :
    ∑ sg, heldBy p epoch sg o = unreleasedIn p epoch o := by
  cases o with
  | none => simp [heldBy, unreleasedIn]
  | some g =>
    have hzero : ∀ sg ∈ univ, sg ≠ g.signer → heldBy p epoch sg (some g) = 0 := by
      intro sg _ hne
      unfold heldBy
      exact if_neg fun hall => hne hall.2.2.1.symm
    rw [sum_eq_single g.signer hzero (fun hnot => absurd (mem_univ _) hnot)]
    simp only [heldBy, unreleasedIn, true_and]

/-- A guard holds at most its reservation. -/
theorem unreleasedIn_le (o : Option FloorReservation) (p : Bytes32) (epoch : Nat) :
    unreleasedIn p epoch o ≤ outstanding o := by
  cases o with
  | none => exact Nat.le_refl _
  | some g =>
    simp only [unreleasedIn, outstanding]
    split
    · exact Nat.le_refl _
    · exact Nat.zero_le _

/-! ## Bounds -/

/-- No admission reserves more than this. -/
def reserveBound : Nat := 2 ^ 173

/-- A priced window fits in 109 bits. -/
theorem minPayment_le {bytes ratePerMb : Nat} (hbytes : bytes ≤ u64Max)
    (hrate : ratePerMb ≤ u64Max) : minPayment bytes ratePerMb ≤ 2 ^ 109 := by
  have hmul : U256.saturatingMul bytes ratePerMb ≤ u64Max * u64Max :=
    Nat.le_trans (min_le_left _ _) (Nat.mul_le_mul hbytes hrate)
  unfold minPayment bytesPerMb
  unfold u64Max at hmul
  omega

/-- A signer's cap fits in 173 bits. -/
theorem signerFloorCap_le (h : Handler) (ratePerMb : UInt64) :
    h.signerFloorCap ratePerMb ≤ reserveBound := by
  have hlag : U64.saturatingAdd chunkBytes verifyLagBytes ≤ u64Max := min_le_right _ _
  have hmax := toNat_le_u64Max h.creditMax
  have hwindow : h.creditWindow chunkBytes 0 ≤ u64Max := by
    unfold Handler.creditWindow rampedCreditWindow
    split
    · exact max_le hmax hlag
    · exact max_le hlag (Nat.le_trans (min_le_right _ _) (max_le hmax hlag))
  have hone : h.oneWindow ratePerMb ≤ 2 ^ 109 := minPayment_le hwindow (toNat_le_u64Max _)
  have hk : max h.poolFloorSignerLiveWindows.toNat 1 ≤ 2 ^ 64 :=
    max_le (Nat.le_of_lt h.poolFloorSignerLiveWindows.toNat_lt) (by decide)
  calc h.signerFloorCap ratePerMb
      ≤ h.oneWindow ratePerMb * max h.poolFloorSignerLiveWindows.toNat 1 := min_le_left _ _
    _ ≤ 2 ^ 109 * 2 ^ 64 := Nat.mul_le_mul hone hk
    _ = reserveBound := (Nat.pow_add 2 109 64).symm

/-- A sum of two amounts that stay below the reservations of a whole run never
saturates. -/
theorem saturatingAdd_of_bounded {a b n : Nat} (hn : n ≤ 2 ^ 64)
    (ha : a ≤ 2 * (n * reserveBound)) (hb : b ≤ 2 * reserveBound) :
    U256.saturatingAdd a b = a + b := by
  apply U256.saturatingAdd_eq
  have hmul : n * reserveBound ≤ 2 ^ 64 * reserveBound := Nat.mul_le_mul_right _ hn
  unfold reserveBound at hmul ha hb
  unfold U256.modulus
  omega

/-! ## The books -/

/-- The two ledgers of one entry against its rows and the guards. -/
structure Ledgers (s : Floor) (p : Bytes32) (e : PoolFloorState) : Prop where
  live : e.liveReservation = ∑ sg, (e.row sg).liveReservation
  debt : e.debt = ∑ sg, (e.row sg).debt
  held : ∀ sg, (e.row sg).liveReservation =
    ∑ i ∈ range s.issued, heldBy p e.epoch sg (s.guards i)
  /-- Debt and outstanding reservations together are what the run reserved. -/
  owed : e.debt + ∑ i ∈ range s.issued, outstanding (s.guards i) ≤ s.issued * reserveBound

/-- The books of an entry the accumulator holds. -/
structure Books (s : Floor) (p : Bytes32) (e : PoolFloorState) : Prop
    extends Ledgers s p e where
  stamped : e.epoch < s.epochs

/-- The books of the whole accumulator. -/
structure Inv (s : Floor) : Prop where
  books : ∀ p e, s.pools p = some e → Books s p e
  issued : ∀ i g, s.guards i = some g → i < s.issued
  capped : ∀ i g, s.guards i = some g → g.reserved ≤ reserveBound
  stamped : ∀ i g, s.guards i = some g → g.epoch < s.epochs
  epochs : s.epochs ≤ s.issued

/-- The live credit of an entry is what the guards of its generation hold. -/
theorem Ledgers.live_eq (hb : Ledgers s p e) :
    e.liveReservation = ∑ i ∈ range s.issued, unreleasedIn p e.epoch (s.guards i) := by
  calc e.liveReservation
      = ∑ sg, ∑ i ∈ range s.issued, heldBy p e.epoch sg (s.guards i) := by
        rw [hb.live]
        exact sum_congr rfl fun sg _ => hb.held sg
    _ = ∑ i ∈ range s.issued, ∑ sg, heldBy p e.epoch sg (s.guards i) := sum_comm
    _ = ∑ i ∈ range s.issued, unreleasedIn p e.epoch (s.guards i) :=
        sum_congr rfl fun i _ => sum_heldBy _ _ _

/-- The live credit of an entry is backed by outstanding guards. -/
theorem Ledgers.live_le (hb : Ledgers s p e) :
    e.liveReservation ≤ ∑ i ∈ range s.issued, outstanding (s.guards i) := by
  rw [hb.live_eq]
  exact sum_le_sum fun i _ => unreleasedIn_le _ _ _

/-- A row holds no more than its pool. -/
theorem Ledgers.row_le (hb : Ledgers s p e) (sg : Address) :
    (e.row sg).liveReservation ≤ e.liveReservation ∧ (e.row sg).debt ≤ e.debt := by
  rw [hb.live, hb.debt]
  exact ⟨single_le_sum (f := fun sg => (e.row sg).liveReservation)
      (fun _ _ => Nat.zero_le _) (mem_univ sg),
    single_le_sum (f := fun sg => (e.row sg).debt) (fun _ _ => Nat.zero_le _) (mem_univ sg)⟩

/-- An unreleased guard of the generation is backed by its row. -/
theorem Books.reserved_le (hb : Books s p e) (hlt : i < s.issued) (hg : s.guards i = some g)
    (hpool : g.poolId = p) (hepoch : g.epoch = e.epoch) (hlive : g.liveReleased = false) :
    g.reserved ≤ (e.row g.signer).liveReservation := by
  have hterm : heldBy p e.epoch g.signer (s.guards i) = g.reserved := by
    rw [hg]
    exact if_pos ⟨hpool, hepoch, rfl, hlive⟩
  rw [hb.held, ← hterm]
  exact single_le_sum (f := fun i => heldBy p e.epoch g.signer (s.guards i))
    (fun _ _ => Nat.zero_le _) (mem_range.mpr hlt)

/-- Changing a guard that holds nothing in an entry's generation, before or after. -/
theorem Books.guard_update (hb : Books s p e) {o : Option FloorReservation}
    {pools : FloorMap} (hlt : i < s.issued)
    (hheld : ∀ sg, heldBy p e.epoch sg o = heldBy p e.epoch sg (s.guards i))
    (hout : outstanding o ≤ outstanding (s.guards i)) :
    Books { s with pools := pools, guards := Function.update s.guards i o } p e := by
  have hmem := mem_range.mpr hlt
  refine ⟨⟨hb.live, hb.debt, ?_, ?_⟩, hb.stamped⟩
  · intro sg
    rw [hb.held sg]
    refine sum_congr rfl fun j _ => ?_
    by_cases hj : j = i
    · subst hj
      simp only [Function.update_self]
      exact (hheld sg).symm
    · simp only [Function.update_of_ne hj]
  · have hchange := sum_change_on (f := fun j => outstanding (s.guards j))
      (g := fun j => outstanding (Function.update s.guards i o j)) hmem
      (fun j _ hj => by simp only [Function.update_of_ne hj])
    simp only [Function.update_self] at hchange
    have howed := hb.owed
    simp only
    omega

/-! ## One lock hold -/

/-- The entry `settle` writes. -/
def settledEntry (g : FloorReservation) (releaseLive : Bool) (debt : Nat)
    (entry : PoolFloorState) : PoolFloorState :=
  let entry := if releaseLive then entry.releaseLive g.signer g.reserved else entry
  let entry := if debt ≠ 0 then entry.chargeDebt g.signer debt else entry
  entry.pruneSpent g.signer

/-- `settle` writes the guard's own entry, if it is still there. -/
theorem settle_eq (g : FloorReservation) (releaseLive : Bool) (debt : Nat) (pools : FloorMap) :
    settle g releaseLive debt pools =
      match ownEntry g pools with
      | none => pools
      | some entry =>
        Function.update pools g.poolId (some (settledEntry g releaseLive debt entry)) := rfl

/-- The guard's own entry is the one under its pool id with its stamp. -/
theorem ownEntry_eq_some {pools : FloorMap} :
    ownEntry g pools = some e ↔ pools g.poolId = some e ∧ e.epoch = g.epoch := by
  unfold ownEntry
  rw [Option.filter_eq_some_iff]
  simp

/-- The amounts of a settled entry. -/
theorem settledEntry_fields (releaseLive : Bool) {debt : Nat}
    (hdebt : U256.saturatingAdd e.debt debt = e.debt + debt)
    (hrow : U256.saturatingAdd (e.row g.signer).debt debt = (e.row g.signer).debt + debt) :
    let freed := if releaseLive then g.reserved else 0
    (settledEntry g releaseLive debt e).liveReservation = e.liveReservation - freed ∧
      (settledEntry g releaseLive debt e).debt = e.debt + debt ∧
      (settledEntry g releaseLive debt e).epoch = e.epoch ∧
      ∀ sg, (settledEntry g releaseLive debt e).row sg =
        if sg = g.signer then
          ⟨(e.row sg).liveReservation - freed, (e.row sg).debt + debt⟩
        else e.row sg := by
  intro freed
  -- Releasing first, whether or not there is something to release.
  set e₁ := if releaseLive then e.releaseLive g.signer g.reserved else e with he₁
  have h₁ : e₁.liveReservation = e.liveReservation - freed ∧ e₁.debt = e.debt ∧
      e₁.epoch = e.epoch ∧ ∀ sg, e₁.row sg =
        if sg = g.signer then ⟨(e.row sg).liveReservation - freed, (e.row sg).debt⟩
        else e.row sg := by
    cases releaseLive with
    | true => exact ⟨rfl, rfl, rfl, fun sg => PoolFloorState.row_releaseLive e g.signer sg _⟩
    | false =>
      refine ⟨rfl, rfl, rfl, fun sg => ?_⟩
      split <;> rfl
  rcases h₁ with ⟨hlive, hdebt₁, hepoch, hrow₁⟩
  unfold settledEntry
  simp only [← he₁]
  by_cases hzero : debt = 0
  · subst hzero
    rcases PoolFloorState.pruneSpent_fields e₁ g.signer with ⟨hl, hd, he⟩
    simp only [ne_eq, not_true_eq_false, if_false, Nat.add_zero]
    refine ⟨hl.trans hlive, hd.trans hdebt₁, he.trans hepoch, fun sg => ?_⟩
    rw [PoolFloorState.row_pruneSpent, hrow₁]
  · rcases PoolFloorState.pruneSpent_fields (e₁.chargeDebt g.signer debt) g.signer with
      ⟨hl, hd, he⟩
    rw [if_pos hzero]
    refine ⟨hl.trans hlive, hd.trans ?_, he.trans hepoch, fun sg => ?_⟩
    · simp only [PoolFloorState.chargeDebt]
      rw [hdebt₁, hdebt]
    · rw [PoolFloorState.row_pruneSpent, PoolFloorState.row_chargeDebt, hrow₁]
      by_cases hsg : sg = g.signer
      · subst hsg
        simp only [if_true]
        rw [hrow]
      · simp only [if_neg hsg]

/-- Settling a guard on its own entry: the live part leaves with the guard's claim to
it, and what it leaves unpaid is at most what it had reserved. -/
theorem Books.settle (hb : Books s g.poolId e) (hn : s.issued ≤ 2 ^ 64)
    (hinv : Inv s) (hg : s.guards i = some g) (hepoch : e.epoch = g.epoch)
    {o : Option FloorReservation} {debt : Nat} {pools : FloorMap}
    (hheld : ∀ sg, heldBy g.poolId e.epoch sg o = 0) (hdebt : debt + outstanding o ≤ g.reserved) :
    Books { s with pools := pools, guards := Function.update s.guards i o } g.poolId
      (settledEntry g (!g.liveReleased) debt e) := by
  have hlt := hinv.issued i g hg
  have hmem := mem_range.mpr hlt
  have hcap := hinv.capped i g hg
  have howed := hb.owed
  have hrowle := hb.row_le g.signer
  have hfields := settledEntry_fields (g := g) (!g.liveReleased)
    (saturatingAdd_of_bounded (b := debt) hn (a := e.debt) (by omega) (by omega))
    (saturatingAdd_of_bounded (b := debt) hn (a := (e.row g.signer).debt) (by omega) (by omega))
  set e' := settledEntry g (!g.liveReleased) debt e
  set freed := if (!g.liveReleased) then g.reserved else 0 with hfreed
  rcases hfields with ⟨hlive', hdebt', hepoch', hrow'⟩
  -- The guard's claim on its row is exactly what is freed.
  have hclaim : ∀ sg, heldBy g.poolId e.epoch sg (s.guards i) =
      if sg = g.signer then freed else 0 := by
    intro sg
    rw [hg]
    by_cases hsg : sg = g.signer
    · subst hsg
      cases hrel : g.liveReleased <;> simp [heldBy, hfreed, hrel, hepoch]
    · have hne : g.signer ≠ sg := fun heq => hsg heq.symm
      simp [heldBy, hsg, hne]
  have hbacked : freed ≤ (e.row g.signer).liveReservation := by
    have hterm := single_le_sum (f := fun j => heldBy g.poolId e.epoch g.signer (s.guards j))
      (fun _ _ => Nat.zero_le _) hmem
    rw [hb.held]
    rw [hclaim, if_pos rfl] at hterm
    exact hterm
  have hrows : ∀ sg, sg ≠ g.signer → e'.row sg = e.row sg := by
    intro sg hsg
    rw [hrow', if_neg hsg]
  have hown : e'.row g.signer =
      ⟨(e.row g.signer).liveReservation - freed, (e.row g.signer).debt + debt⟩ := by
    rw [hrow', if_pos rfl]
  have hlsum := sum_change (f := fun sg => (e.row sg).liveReservation)
    (g := fun sg => (e'.row sg).liveReservation) g.signer (fun sg hsg => by rw [hrows sg hsg])
  have hdsum := sum_change (f := fun sg => (e.row sg).debt)
    (g := fun sg => (e'.row sg).debt) g.signer (fun sg hsg => by rw [hrows sg hsg])
  rw [hown] at hlsum hdsum
  have hlive := hb.live
  have hdebtsum := hb.debt
  refine ⟨⟨?_, ?_, ?_, ?_⟩, ?_⟩
  · rw [hlive']
    simp only at hlsum
    omega
  · rw [hdebt']
    simp only at hdsum
    omega
  · intro sg
    have hchange := sum_change_on (f := fun j => heldBy g.poolId e.epoch sg (s.guards j))
      (g := fun j => heldBy g.poolId e.epoch sg (Function.update s.guards i o j)) hmem
      (fun j _ hj => by simp only [Function.update_of_ne hj])
    simp only [Function.update_self, hclaim, hheld] at hchange
    have hheldsg := hb.held sg
    rw [hepoch']
    by_cases hsg : sg = g.signer
    · subst hsg
      rw [hown]
      simp only [if_true] at hchange ⊢
      omega
    · rw [hrows sg hsg]
      simp only [if_neg hsg] at hchange ⊢
      omega
  · have hchange := sum_change_on (f := fun j => outstanding (s.guards j))
      (g := fun j => outstanding (Function.update s.guards i o j)) hmem
      (fun j _ hj => by simp only [Function.update_of_ne hj])
    simp only [Function.update_self, hg, outstanding] at hchange
    rw [hdebt']
    simp only
    unfold outstanding at hdebt howed ⊢
    omega
  · rw [hepoch']
    exact hb.stamped

/-- Clearing debt keeps the books of an entry. -/
theorem Books.clearDebt (hb : Books s p e) (signer : Address) (amount : Nat) :
    Books s p (e.clearDebt signer amount) := by
  rcases PoolFloorState.clearDebt_cases e signer amount with
    ⟨cleared, hcleared, hlive', hepoch', hdebt', hrow'⟩
  have hrows : ∀ sg, ((e.clearDebt signer amount).row sg).liveReservation =
      (e.row sg).liveReservation := by
    intro sg
    rw [hrow']
    split <;> rfl
  have hdsum := sum_change (f := fun sg => (e.row sg).debt)
    (g := fun sg => ((e.clearDebt signer amount).row sg).debt) signer
    (fun sg hsg => by rw [hrow', if_neg hsg])
  simp only [hrow' signer, if_true] at hdsum
  have hrowle := (hb.row_le signer).2
  have hdebt := hb.debt
  have howed := hb.owed
  refine ⟨⟨?_, ?_, ?_, ?_⟩, ?_⟩
  · simp only [hlive', hrows]
    exact hb.live
  · rw [hdebt']
    omega
  · intro sg
    rw [hrows, hepoch']
    exact hb.held sg
  · rw [hdebt']
    omega
  · rw [hepoch']
    exact hb.stamped

/-- A step of one guard that leaves its terms alone. -/
theorem Inv.guarded (hinv : Inv s) (hg : s.guards i = some g) {o : Option FloorReservation}
    {pools : FloorMap} (hterms : ∀ g', o = some g' → g'.reserved = g.reserved ∧ g'.epoch = g.epoch)
    (hbooks : ∀ p e, pools p = some e →
      Books { s with pools := pools, guards := Function.update s.guards i o } p e) :
    Inv { s with pools := pools, guards := Function.update s.guards i o } := by
  have hcase : ∀ j g', Function.update s.guards i o j = some g' →
      ∃ g₀, s.guards j = some g₀ ∧ g'.reserved = g₀.reserved ∧ g'.epoch = g₀.epoch := by
    intro j g' hj
    by_cases hji : j = i
    · subst hji
      rw [Function.update_self] at hj
      exact ⟨g, hg, hterms g' hj⟩
    · rw [Function.update_of_ne hji] at hj
      exact ⟨g', hj, rfl, rfl⟩
  refine ⟨hbooks, ?_, ?_, ?_, hinv.epochs⟩
  · intro j g' hj
    rcases hcase j g' hj with ⟨g₀, hg₀, -, -⟩
    exact hinv.issued j g₀ hg₀
  · intro j g' hj
    rcases hcase j g' hj with ⟨g₀, hg₀, hreserved, -⟩
    rw [hreserved]
    exact hinv.capped j g₀ hg₀
  · intro j g' hj
    rcases hcase j g' hj with ⟨g₀, hg₀, -, hepoch⟩
    rw [hepoch]
    exact hinv.stamped j g₀ hg₀

/-- A guard that changes nothing but its own notes. -/
theorem Inv.note (hinv : Inv s) (hg : s.guards i = some g) {g' : FloorReservation}
    (hsame : g'.poolId = g.poolId ∧ g'.epoch = g.epoch ∧ g'.signer = g.signer ∧
      g'.reserved = g.reserved ∧ g'.liveReleased = g.liveReleased) :
    Inv (s.setGuard i (some g')) := by
  rcases hsame with ⟨hpool, hepoch, hsigner, hreserved, hlive⟩
  refine hinv.guarded hg ?_ ?_
  · intro g'' hg''
    cases hg''
    exact ⟨hreserved, hepoch⟩
  · intro p e he
    refine (hinv.books p e he).guard_update (hinv.issued i g hg) ?_ ?_
    · intro sg
      simp only [hg, heldBy, hpool, hepoch, hsigner, hreserved, hlive]
    · simp only [hg, outstanding, hreserved, Nat.le_refl]

/-- A guard that is settled, whether or not its entry is still there. -/
theorem Inv.settled (hinv : Inv s) (hn : s.issued ≤ 2 ^ 64) (hg : s.guards i = some g)
    {o : Option FloorReservation} (debt : Nat)
    (hterms : ∀ g', o = some g' → g'.reserved = g.reserved ∧ g'.epoch = g.epoch)
    (hheld : ∀ p epoch sg, heldBy p epoch sg o = 0) (hdebt : debt + outstanding o ≤ g.reserved) :
    Inv { s with
      pools := settle g (!g.liveReleased) debt s.pools
      guards := Function.update s.guards i o } := by
  have hlt := hinv.issued i g hg
  have hout : outstanding o ≤ outstanding (s.guards i) := by
    rw [hg]
    exact Nat.le_trans (Nat.le_add_left _ _) hdebt
  -- An entry of another pool or generation holds nothing of this guard.
  have hother : ∀ p e, s.pools p = some e → ¬ (g.poolId = p ∧ g.epoch = e.epoch) →
      ∀ pools, Books { s with pools := pools, guards := Function.update s.guards i o } p e := by
    intro p e he hne pools
    refine (hinv.books p e he).guard_update hlt (fun sg => ?_) hout
    rw [hheld, hg, heldBy_other hne]
  refine hinv.guarded hg hterms ?_
  intro p e he
  rw [settle_eq] at he
  cases hown : ownEntry g s.pools with
  | none =>
    simp only [hown] at he
    refine hother p e he (fun hmatch => ?_) _
    have : ownEntry g s.pools = some e := by
      rw [ownEntry_eq_some, hmatch.1]
      exact ⟨he, hmatch.2.symm⟩
    rw [hown] at this
    cases this
  | some e₀ =>
    simp only [hown] at he
    rcases ownEntry_eq_some.mp hown with ⟨hpool, hepoch⟩
    by_cases hp : p = g.poolId
    · subst hp
      rw [Function.update_self] at he
      cases he
      exact (hinv.books _ e₀ hpool).settle hn hinv hg hepoch (hheld _ _) hdebt
    · rw [Function.update_of_ne hp] at he
      exact hother p e he (fun hmatch => hp hmatch.1.symm) _

/-- Releasing a repaid or refused stream keeps the books. -/
theorem Inv.releaseLiveRepaid (hinv : Inv s) (hn : s.issued ≤ 2 ^ 64)
    (hg : s.guards i = some g) : Inv (FloorCredit.releaseLiveRepaid s i g) := by
  unfold FloorCredit.releaseLiveRepaid
  split
  · exact hinv
  · rename_i hlive
    have hflag : (!g.liveReleased) = true := by simpa using hlive
    have hsettled := hinv.settled hn hg (o := some { g with liveReleased := true }) 0
      (fun g' hg' => by cases hg'; exact ⟨rfl, rfl⟩)
      (fun p epoch sg => heldBy_released rfl)
      (by simp [outstanding])
    rw [hflag] at hsettled
    exact hsettled

/-- A debt never exceeds the reservation. -/
theorem abandonDebt_le (g : FloorReservation) : abandonDebt g ≤ g.reserved := by
  unfold abandonDebt
  split
  · exact Nat.zero_le _
  · exact min_le_right _ _

/-- Dropping a guard keeps the books. -/
theorem Inv.dropGuard (hinv : Inv s) (hn : s.issued ≤ 2 ^ 64) (hg : s.guards i = some g) :
    Inv (FloorCredit.dropGuard s i g) := by
  unfold FloorCredit.dropGuard
  simp only
  split
  · exact hinv.settled hn hg _ (fun g' hg' => nomatch hg') (fun _ _ _ => rfl)
      (by simpa [outstanding] using abandonDebt_le g)
  · rename_i hnone
    have hreleased : g.liveReleased = true := by
      simp only [Bool.or_eq_true, not_or] at hnone
      simpa using hnone.1
    refine hinv.guarded hg (fun g' hg' => nomatch hg') ?_
    intro p e he
    refine (hinv.books p e he).guard_update (hinv.issued i g hg) (fun sg => ?_) (Nat.zero_le _)
    rw [hg, heldBy_released hreleased]
    rfl

/-- Offering surplus keeps the books. -/
theorem Inv.offerSurplus (hinv : Inv s) (hg : s.guards i = some g) (surplus : Nat) :
    Inv (FloorCredit.offerSurplus s i g surplus) := by
  unfold FloorCredit.offerSurplus
  simp only
  split
  · exact hinv
  · refine hinv.guarded hg (fun g' hg' => by cases hg'; exact ⟨rfl, rfl⟩) ?_
    intro p e he
    have hnote : ∀ p e, Books s p e → ∀ pools, Books { s with
        pools := pools
        guards := Function.update s.guards i
          (some { g with debtCleared := U64.ofNatSaturating surplus }) } p e := by
      intro p e hb pools
      refine hb.guard_update (hinv.issued i g hg) (fun sg => ?_) ?_
      · rw [hg]
        rfl
      · rw [hg]
        exact Nat.le_refl _
    cases hown : ownEntry g s.pools with
    | none =>
      simp only [hown] at he
      exact hnote p e (hinv.books p e he) _
    | some e₀ =>
      simp only [hown] at he
      rcases ownEntry_eq_some.mp hown with ⟨hpool, -⟩
      by_cases hp : p = g.poolId
      · subst hp
        rw [Function.update_self] at he
        cases he
        exact hnote _ _ ((hinv.books _ e₀ hpool).clearDebt _ _) _
      · rw [Function.update_of_ne hp] at he
        exact hnote p e (hinv.books p e he) _

/-- Forgetting a pool keeps the books of the others. -/
theorem Inv.forgetPoolFloor (hinv : Inv s) (p : Bytes32) :
    Inv (FloorCredit.forgetPoolFloor s p) := by
  refine ⟨?_, hinv.issued, hinv.capped, hinv.stamped, hinv.epochs⟩
  intro p' e he
  simp only [FloorCredit.forgetPoolFloor] at he
  by_cases hp : p' = p
  · subst hp
    rw [Function.update_self] at he
    cases he
  · rw [Function.update_of_ne hp] at he
    have hb := hinv.books p' e he
    exact ⟨⟨hb.live, hb.debt, hb.held, hb.owed⟩, hb.stamped⟩

/-! ## Admission -/

/-- The entry an admission charges: the pool's own, or a new one. -/
def chargedEntry (s : Floor) (p : Bytes32) : PoolFloorState :=
  (s.pools p).getD { epoch := s.nextEpoch }

/-- The guard an admission hands out. -/
def issuedGuard (s : Floor) (p : Bytes32) (signer : Address) (ratePerMb : UInt64)
    (reserved : Nat) : FloorReservation where
  poolId := p
  epoch := (chargedEntry s p).epoch
  signer := signer
  reserved := reserved
  ratePerMb := ratePerMb.toNat

variable {remaining reserved : Nat} {ratePerMb : UInt64}

/-- What an admission checked and wrote. -/
theorem tryReserveFloor_cases
    (hok : tryReserveFloor h s p signer remaining ratePerMb reserved = .ok t) :
    U256.saturatingAdd (chargedEntry s p).floorHeld reserved ≤
        remaining - h.poolMinRemainingDeposit ∧
      U256.saturatingAdd ((chargedEntry s p).row signer).floorHeld reserved ≤
        h.signerFloorCap ratePerMb ∧
      t = { pools := Function.update s.pools p
              (some ((chargedEntry s p).chargeLive signer reserved))
            epochs := if (s.pools p).isSome then s.epochs else s.epochs + 1
            guards := Function.update s.guards s.issued
              (some (issuedGuard s p signer ratePerMb reserved))
            issued := s.issued + 1 } := by
  have hheld : s.held p signer =
      ((chargedEntry s p).floorHeld, ((chargedEntry s p).row signer).floorHeld) := by
    unfold chargedEntry Floor.held
    cases s.pools p <;> rfl
  unfold tryReserveFloor at hok
  simp only [hheld] at hok
  split at hok
  · cases hok
  · rename_i hpool
    split at hok
    · cases hok
    · rename_i hsigner
      cases hok
      refine ⟨?_, Nat.le_of_not_lt hsigner, rfl⟩
      simpa [poolBudgetCovers] using hpool

/-- An admission reserves no more than the bound. -/
theorem reserved_le_bound
    (hok : tryReserveFloor h s p signer remaining ratePerMb reserved = .ok t) :
    reserved ≤ reserveBound := by
  have hcap := (tryReserveFloor_cases hok).2.1
  have hbound := signerFloorCap_le h ratePerMb
  unfold U256.saturatingAdd at hcap
  unfold reserveBound at hbound ⊢
  unfold U256.modulus at hcap
  omega

/-- The ledgers of the entry an admission charges, before the charge. -/
theorem Inv.chargedEntry (hinv : Inv s) (hn : s.issued < 2 ^ 64) (p : Bytes32) :
    Ledgers s p (FloorCredit.chargedEntry s p) ∧
      (FloorCredit.chargedEntry s p).epoch <
        (if (s.pools p).isSome then s.epochs else s.epochs + 1) := by
  set e := FloorCredit.chargedEntry s p
  cases hentry : s.pools p with
  | some e₀ =>
    have he : e = e₀ := by simp [e, FloorCredit.chargedEntry, hentry]
    rw [he]
    have hb := hinv.books p e₀ hentry
    exact ⟨hb.toLedgers, hb.stamped⟩
  | none =>
    have hstamp : s.nextEpoch = s.epochs :=
      Nat.mod_eq_of_lt (Nat.lt_of_le_of_lt hinv.epochs hn)
    have he : e = { epoch := s.epochs } := by
      simp [e, FloorCredit.chargedEntry, hentry, hstamp]
    have hrow : ∀ sg, ({ epoch := s.epochs } : PoolFloorState).row sg = {} := fun _ => rfl
    rw [he]
    refine ⟨⟨by simp [hrow], by simp [hrow], ?_, ?_⟩, by simp⟩
    · -- Every guard carries an older stamp.
      intro sg
      refine (sum_eq_zero fun i _ => ?_).symm
      cases hg : s.guards i with
      | none => rfl
      | some g =>
        refine heldBy_other fun hmatch => ?_
        exact absurd hmatch.2 (Nat.ne_of_lt (hinv.stamped i g hg))
    · have hsum : ∑ i ∈ range s.issued, outstanding (s.guards i) ≤
          ∑ _i ∈ range s.issued, reserveBound := by
        refine sum_le_sum fun i _ => ?_
        cases hg : s.guards i with
        | none => exact Nat.zero_le _
        | some g => exact hinv.capped i g hg
      rw [sum_const, card_range, smul_eq_mul] at hsum
      simpa using hsum

/-- The sums over the guards after one more is issued. -/
theorem sum_issued (f : Option FloorReservation → Nat) (s : Floor)
    (g : FloorReservation) :
    ∑ i ∈ range (s.issued + 1), f (Function.update s.guards s.issued (some g) i) =
      ∑ i ∈ range s.issued, f (s.guards i) + f (some g) := by
  rw [sum_range_succ, Function.update_self]
  congr 1
  refine sum_congr rfl fun i hi => ?_
  rw [Function.update_of_ne (Nat.ne_of_lt (mem_range.mp hi))]

/-- The charged entry after the charge, and the two admission bounds. -/
theorem Inv.charge (hinv : Inv s) (hn : s.issued < 2 ^ 64)
    (hok : tryReserveFloor h s p signer remaining ratePerMb reserved = .ok t) :
    let e := FloorCredit.chargedEntry s p
    let e' := e.chargeLive signer reserved
    e'.liveReservation = e.liveReservation + reserved ∧
      (∀ sg, e'.row sg = if sg = signer then
        { e.row sg with liveReservation := (e.row sg).liveReservation + reserved }
        else e.row sg) ∧
      e'.liveReservation + e'.debt ≤ remaining - h.poolMinRemainingDeposit ∧
      (e'.row signer).liveReservation + (e'.row signer).debt ≤ h.signerFloorCap ratePerMb := by
  intro e e'
  have hbound := reserved_le_bound hok
  rcases tryReserveFloor_cases hok with ⟨hpool, hsigner, -⟩
  have hledgers : Ledgers s p e := (hinv.chargedEntry hn p).1
  have hlive_le := hledgers.live_le
  have hrow_le := hledgers.row_le signer
  have howed := hledgers.owed
  have hn' : s.issued ≤ 2 ^ 64 := Nat.le_of_lt hn
  -- None of the sums below comes near a word.
  have hbig : s.issued * reserveBound ≤ 2 ^ 64 * reserveBound := Nat.mul_le_mul_right _ hn'
  have hroom : 2 * (2 ^ 64 * reserveBound) + reserveBound < U256.modulus := by decide
  have hpoolHeld : e.floorHeld = e.liveReservation + e.debt := by
    unfold PoolFloorState.floorHeld
    exact U256.saturatingAdd_eq (by omega)
  have hsignerHeld : (e.row signer).floorHeld =
      (e.row signer).liveReservation + (e.row signer).debt := by
    unfold SignerFloorState.floorHeld
    exact U256.saturatingAdd_eq (by omega)
  have hlive' : e'.liveReservation = e.liveReservation + reserved := by
    simp only [e', PoolFloorState.chargeLive]
    exact U256.saturatingAdd_eq (by omega)
  have hrow' : ∀ sg, e'.row sg = if sg = signer then
      { e.row sg with liveReservation := (e.row sg).liveReservation + reserved }
      else e.row sg := by
    intro sg
    simp only [e']
    rw [PoolFloorState.row_chargeLive]
    by_cases hsg : sg = signer
    · subst hsg
      rw [U256.saturatingAdd_eq (by omega)]
    · rw [if_neg hsg, if_neg hsg]
  refine ⟨hlive', hrow', ?_, ?_⟩
  · have hdebt' : e'.debt = e.debt := rfl
    change U256.saturatingAdd e.floorHeld reserved ≤ _ at hpool
    rw [hpoolHeld, U256.saturatingAdd_eq (by omega)] at hpool
    omega
  · change U256.saturatingAdd (e.row signer).floorHeld reserved ≤ _ at hsigner
    rw [hsignerHeld, U256.saturatingAdd_eq (by omega)] at hsigner
    rw [hrow', if_pos rfl]
    simp only
    omega

/-- Admitting a stream keeps the books. -/
theorem Inv.admit (hinv : Inv s) (hn : s.issued < 2 ^ 64)
    (hok : tryReserveFloor h s p signer remaining ratePerMb reserved = .ok t) : Inv t := by
  have hbound := reserved_le_bound hok
  have hcharge := hinv.charge hn hok
  rcases hinv.chargedEntry hn p with ⟨⟨hlive, hdebt, hheld, howed⟩, hstamp⟩
  rcases tryReserveFloor_cases hok with ⟨-, -, rfl⟩
  set e := FloorCredit.chargedEntry s p
  set e' := e.chargeLive signer reserved
  set guard := issuedGuard s p signer ratePerMb reserved
  have hlive' : e'.liveReservation = e.liveReservation + reserved := hcharge.1
  have hrow' : ∀ sg, e'.row sg = if sg = signer then
      { e.row sg with liveReservation := (e.row sg).liveReservation + reserved }
      else e.row sg := hcharge.2.1
  have hepochs : s.epochs ≤ (if (s.pools p).isSome then s.epochs else s.epochs + 1) := by
    split <;> omega
  have hguards : ∀ j g', Function.update s.guards s.issued (some guard) j = some g' →
      g' = guard ∧ j = s.issued ∨ s.guards j = some g' := by
    intro j g' hj
    by_cases hji : j = s.issued
    · subst hji
      rw [Function.update_self] at hj
      cases hj
      exact Or.inl ⟨rfl, rfl⟩
    · rw [Function.update_of_ne hji] at hj
      exact Or.inr hj
  have hout := sum_issued outstanding s guard
  refine ⟨?_, ?_, ?_, ?_, ?_⟩
  · intro p' e₁ he₁
    simp only at he₁
    by_cases hp : p' = p
    · subst hp
      rw [Function.update_self] at he₁
      have heq : e₁ = e' := (Option.some.inj he₁).symm
      subst heq
      refine ⟨⟨?_, ?_, ?_, ?_⟩, hstamp⟩
      · have hsum := sum_change (f := fun sg => (e.row sg).liveReservation)
          (g := fun sg => (e'.row sg).liveReservation) signer
          (fun sg hsg => by rw [hrow', if_neg hsg])
        simp only [hrow' signer, if_true] at hsum
        rw [hlive']
        omega
      · have hsame : ∀ sg, (e'.row sg).debt = (e.row sg).debt := by
          intro sg
          rw [hrow']
          split <;> rfl
        have hkeep : e'.debt = e.debt := rfl
        simp only [hsame]
        rw [hkeep, hdebt]
      · intro sg
        have hsum := sum_issued (heldBy p' e'.epoch sg) s guard
        have hepoch' : e'.epoch = e.epoch := rfl
        have hown : heldBy p' e.epoch sg (some guard) = if sg = signer then reserved else 0 := by
          by_cases hsg : sg = signer
          · subst hsg
            simp [heldBy, guard, issuedGuard, e]
          · have hne : signer ≠ sg := fun heq => hsg heq.symm
            simp [heldBy, guard, issuedGuard, hsg, hne]
        have hheldsg := hheld sg
        simp only
        rw [hsum, hepoch', hown, hrow', ← hheldsg]
        by_cases hsg : sg = signer
        · simp only [if_pos hsg]
        · simp only [if_neg hsg, Nat.add_zero]
      · have hkeep : e'.debt = e.debt := rfl
        have hself : outstanding (some guard) = reserved := rfl
        simp only
        rw [hout, hkeep, hself, Nat.succ_mul]
        omega
    · rw [Function.update_of_ne hp] at he₁
      have hb := hinv.books p' e₁ he₁
      refine ⟨⟨hb.live, hb.debt, ?_, ?_⟩, Nat.lt_of_lt_of_le hb.stamped hepochs⟩
      · intro sg
        have hsum := sum_issued (heldBy p' e₁.epoch sg) s guard
        simp only
        rw [hsum, heldBy_other fun hmatch => hp hmatch.1.symm, Nat.add_zero]
        exact hb.held sg
      · have hself : outstanding (some guard) = reserved := rfl
        have howed₁ := hb.owed
        simp only
        rw [hout, hself, Nat.succ_mul]
        omega
  · intro j g' hj
    rcases hguards j g' hj with ⟨-, rfl⟩ | hold
    · exact Nat.lt_succ_self _
    · exact Nat.lt_succ_of_lt (hinv.issued j g' hold)
  · intro j g' hj
    rcases hguards j g' hj with ⟨rfl, -⟩ | hold
    · exact hbound
    · exact hinv.capped j g' hold
  · intro j g' hj
    rcases hguards j g' hj with ⟨rfl, -⟩ | hold
    · exact hstamp
    · exact Nat.lt_of_lt_of_le (hinv.stamped j g' hold) hepochs
  · have := hinv.epochs
    simp only
    split <;> omega

/-! ## Whole runs -/

/-- A guard's action keeps the books. -/
theorem Inv.action (hinv : Inv s) (hn : s.issued ≤ 2 ^ 64) (hg : s.guards i = some g)
    (a : GuardAction) : Inv (a.apply s i g) := by
  cases a with
  | trackUnpaid unpaidBytes => exact hinv.note hg ⟨rfl, rfl, rfl, rfl, rfl⟩
  | releaseLiveRepaid => exact hinv.releaseLiveRepaid hn hg
  | offerSurplus surplus => exact hinv.offerSurplus hg surplus
  | settleEnd finish =>
    simp only [GuardAction.apply, settleEnd]
    split
    · exact hinv
    · exact hinv.note hg ⟨rfl, rfl, rfl, rfl, rfl⟩
  | drop => exact hinv.dropGuard hn hg

/-- A guard's action issues nothing. -/
theorem apply_counts (s : Floor) (i : Nat) (g : FloorReservation) (a : GuardAction) :
    (a.apply s i g).issued = s.issued ∧ (a.apply s i g).epochs = s.epochs := by
  cases a with
  | trackUnpaid unpaidBytes => exact ⟨rfl, rfl⟩
  | releaseLiveRepaid =>
    simp only [GuardAction.apply, releaseLiveRepaid]
    split <;> exact ⟨rfl, rfl⟩
  | offerSurplus surplus =>
    simp only [GuardAction.apply, offerSurplus]
    split <;> exact ⟨rfl, rfl⟩
  | settleEnd finish =>
    simp only [GuardAction.apply, settleEnd]
    split <;> exact ⟨rfl, rfl⟩
  | drop => exact ⟨rfl, rfl⟩

/-- No step takes a reservation back from the count. -/
theorem Step.issued_le {a : Action} (hstep : Step h s a t) : s.issued ≤ t.issued := by
  unfold Step apply at hstep
  cases a with
  | tryReserveFloor p signer remaining ratePerMb reserved =>
    simp only at hstep
    split at hstep
    · rename_i s' hok
      cases hstep
      rw [(tryReserveFloor_cases hok).2.2]
      exact Nat.le_succ _
    · cases hstep
      exact Nat.le_refl _
  | guarded i a =>
    rcases Option.map_eq_some_iff.mp hstep with ⟨g, -, rfl⟩
    exact Nat.le_of_eq (apply_counts s i g a).1.symm
  | forgetPoolFloor p =>
    cases hstep
    exact Nat.le_refl _

/-- Every lock hold keeps the books. -/
theorem Inv.step (hinv : Inv s) {a : Action} (hstep : Step h s a t) (hn : t.issued ≤ 2 ^ 64) :
    Inv t := by
  have hle := Step.issued_le hstep
  unfold Step apply at hstep
  cases a with
  | tryReserveFloor p signer remaining ratePerMb reserved =>
    simp only at hstep
    split at hstep
    · rename_i s' hok
      cases hstep
      have hissued : t.issued = s.issued + 1 := by
        rw [(tryReserveFloor_cases hok).2.2]
      exact hinv.admit (by omega) hok
    · cases hstep
      exact hinv
  | guarded i a =>
    rcases Option.map_eq_some_iff.mp hstep with ⟨g, hg, rfl⟩
    exact hinv.action (Nat.le_trans hle hn) hg a
  | forgetPoolFloor p =>
    cases hstep
    exact hinv.forgetPoolFloor p

/-- The empty accumulator balances. -/
theorem inv_empty : Inv {} where
  books _ _ he := nomatch he
  issued _ _ hg := nomatch hg
  capped _ _ hg := nomatch hg
  stamped _ _ hg := nomatch hg
  epochs := Nat.le_refl _

/-- The books balance in every run that issues at most `2 ^ 64` guards. -/
theorem Reaches.inv {guard : Floor → Action → Prop} (hrun : Reaches (Step h) guard s t)
    (hs : s.issued ≤ 2 ^ 64 → Inv s) (hn : t.issued ≤ 2 ^ 64) : Inv t :=
  hrun.invariant (I := fun s => s.issued ≤ 2 ^ 64 → Inv s) hs
    (fun _ _ _ _ hstep ih hn => (ih (Nat.le_trans (Step.issued_le hstep) hn)).step hstep hn) hn

/-! ## Generations -/

/-- The pool under the guard's id is not the one the guard was charged to. -/
def Orphaned (i : Nat) (s : Floor) : Prop :=
  i < s.issued ∧ ∀ g e, s.guards i = some g → s.pools g.poolId = some e → e.epoch ≠ g.epoch

/-- An orphaned guard moves no counter. -/
theorem apply_pools_of_orphan (hown : ownEntry g s.pools = none) (a : GuardAction) :
    (a.apply s i g).pools = s.pools := by
  have hsettle : ∀ releaseLive debt, settle g releaseLive debt s.pools = s.pools := by
    intro releaseLive debt
    rw [settle_eq, hown]
  cases a with
  | trackUnpaid unpaidBytes => rfl
  | releaseLiveRepaid =>
    simp only [GuardAction.apply, releaseLiveRepaid]
    split
    · rfl
    · exact hsettle true 0
  | offerSurplus surplus =>
    simp only [GuardAction.apply, offerSurplus]
    split
    · rfl
    · simp only [hown]
  | settleEnd finish =>
    simp only [GuardAction.apply, settleEnd]
    split <;> rfl
  | drop =>
    simp only [GuardAction.apply, dropGuard]
    split
    · exact hsettle _ _
    · rfl

/-- A settled entry keeps its stamp. -/
theorem settledEntry_epoch (g : FloorReservation) (releaseLive : Bool) (debt : Nat)
    (e : PoolFloorState) : (settledEntry g releaseLive debt e).epoch = e.epoch := by
  unfold settledEntry
  simp only [(PoolFloorState.pruneSpent_fields _ _).2.2]
  cases releaseLive <;> by_cases hdebt : debt = 0 <;>
    simp [hdebt, PoolFloorState.releaseLive, PoolFloorState.chargeDebt]

/-- Settling keeps the stamp of every entry and creates none. -/
theorem settle_epochs {releaseLive : Bool} {debt : Nat} {pools : FloorMap} {e' : PoolFloorState}
    (he' : settle g releaseLive debt pools p = some e') :
    ∃ e, pools p = some e ∧ e'.epoch = e.epoch := by
  rw [settle_eq] at he'
  cases hown : ownEntry g pools with
  | none =>
    simp only [hown] at he'
    exact ⟨e', he', rfl⟩
  | some e₀ =>
    simp only [hown] at he'
    by_cases hp : p = g.poolId
    · subst hp
      rw [Function.update_self] at he'
      cases he'
      exact ⟨e₀, (ownEntry_eq_some.mp hown).1, settledEntry_epoch _ _ _ _⟩
    · rw [Function.update_of_ne hp] at he'
      exact ⟨e', he', rfl⟩

/-- A guard's action keeps the stamp of every entry and creates none. -/
theorem apply_epochs {e' : PoolFloorState} (a : GuardAction)
    (he' : (a.apply s i g).pools p = some e') :
    ∃ e, s.pools p = some e ∧ e'.epoch = e.epoch := by
  cases a with
  | trackUnpaid unpaidBytes => exact ⟨e', he', rfl⟩
  | releaseLiveRepaid =>
    simp only [GuardAction.apply, releaseLiveRepaid] at he'
    split at he'
    · exact ⟨e', he', rfl⟩
    · exact settle_epochs he'
  | offerSurplus surplus =>
    simp only [GuardAction.apply, offerSurplus] at he'
    split at he'
    · exact ⟨e', he', rfl⟩
    · cases hown : ownEntry g s.pools with
      | none =>
        simp only [hown] at he'
        exact ⟨e', he', rfl⟩
      | some e₀ =>
        simp only [hown] at he'
        by_cases hp : p = g.poolId
        · subst hp
          rw [Function.update_self] at he'
          cases he'
          rcases PoolFloorState.clearDebt_cases e₀ g.signer
            (U64.ofNatSaturating surplus - g.debtCleared) with ⟨-, -, -, hepoch, -, -⟩
          exact ⟨e₀, (ownEntry_eq_some.mp hown).1, hepoch⟩
        · rw [Function.update_of_ne hp] at he'
          exact ⟨e', he', rfl⟩
  | settleEnd finish =>
    simp only [GuardAction.apply, settleEnd] at he'
    split at he'
    · exact ⟨e', he', rfl⟩
    · exact ⟨e', he', rfl⟩
  | drop =>
    simp only [GuardAction.apply, dropGuard] at he'
    split at he'
    · exact settle_epochs he'
    · exact ⟨e', he', rfl⟩

/-- A guard's action keeps the pool and the stamp of every guard. -/
theorem apply_guards {j : Nat} {g' : FloorReservation} (hg : s.guards i = some g)
    (a : GuardAction) (hg' : (a.apply s i g).guards j = some g') :
    ∃ g₀, s.guards j = some g₀ ∧ g'.poolId = g₀.poolId ∧ g'.epoch = g₀.epoch := by
  have hupdate : ∀ o : Option FloorReservation,
      (∀ g₁, o = some g₁ → g₁.poolId = g.poolId ∧ g₁.epoch = g.epoch) →
      Function.update s.guards i o j = some g' →
      ∃ g₀, s.guards j = some g₀ ∧ g'.poolId = g₀.poolId ∧ g'.epoch = g₀.epoch := by
    intro o ho hj
    by_cases hji : j = i
    · subst hji
      rw [Function.update_self] at hj
      exact ⟨g, hg, ho g' hj⟩
    · rw [Function.update_of_ne hji] at hj
      exact ⟨g', hj, rfl, rfl⟩
  cases a with
  | trackUnpaid unpaidBytes =>
    exact hupdate _ (fun g₁ h₁ => by cases h₁; exact ⟨rfl, rfl⟩) hg'
  | releaseLiveRepaid =>
    simp only [GuardAction.apply, releaseLiveRepaid] at hg'
    split at hg'
    · exact ⟨g', hg', rfl, rfl⟩
    · exact hupdate _ (fun g₁ h₁ => by cases h₁; exact ⟨rfl, rfl⟩) hg'
  | offerSurplus surplus =>
    simp only [GuardAction.apply, offerSurplus] at hg'
    split at hg'
    · exact ⟨g', hg', rfl, rfl⟩
    · exact hupdate _ (fun g₁ h₁ => by cases h₁; exact ⟨rfl, rfl⟩) hg'
  | settleEnd finish =>
    simp only [GuardAction.apply, settleEnd] at hg'
    split at hg'
    · exact ⟨g', hg', rfl, rfl⟩
    · exact hupdate _ (fun g₁ h₁ => by cases h₁; exact ⟨rfl, rfl⟩) hg'
  | drop => exact hupdate none (fun g₁ h₁ => nomatch h₁) hg'

/-- An orphaned guard stays orphaned: the next entry of its pool gets a newer stamp. -/
theorem Orphaned.step (horphan : Orphaned i s) (hinv : Inv s) {a : Action}
    (hstep : Step h s a t) (hn : t.issued ≤ 2 ^ 64) : Orphaned i t := by
  have hle := Step.issued_le hstep
  refine ⟨Nat.lt_of_lt_of_le horphan.1 hle, ?_⟩
  unfold Step apply at hstep
  cases a with
  | tryReserveFloor p signer remaining ratePerMb reserved =>
    simp only at hstep
    split at hstep
    · rename_i s' hok
      cases hstep
      rcases tryReserveFloor_cases hok with ⟨-, -, rfl⟩
      intro g e hg he
      simp only at hg he hn
      rw [Function.update_of_ne (Nat.ne_of_lt horphan.1)] at hg
      by_cases hp : g.poolId = p
      · rw [hp, Function.update_self] at he
        cases he
        unfold chargedEntry
        cases hentry : s.pools p with
        | some e₀ => exact horphan.2 g e₀ hg (hp ▸ hentry)
        | none =>
          have hstamp : s.nextEpoch = s.epochs :=
            Nat.mod_eq_of_lt (Nat.lt_of_le_of_lt hinv.epochs (by omega))
          simp only [Option.getD_none, PoolFloorState.chargeLive, hstamp]
          exact (Nat.ne_of_lt (hinv.stamped i g hg)).symm
      · rw [Function.update_of_ne hp] at he
        exact horphan.2 g e hg he
    · cases hstep
      exact horphan.2
  | guarded j a =>
    rcases Option.map_eq_some_iff.mp hstep with ⟨g, hg, rfl⟩
    intro g' e' hg' he'
    rcases apply_guards hg a hg' with ⟨g₀, hg₀, hpool, hepoch⟩
    rcases apply_epochs a he' with ⟨e, he, hstamp⟩
    rw [hepoch, hstamp]
    exact horphan.2 g₀ e hg₀ (hpool ▸ he)
  | forgetPoolFloor p =>
    cases hstep
    intro g e hg he
    simp only [forgetPoolFloor] at hg he
    by_cases hp : g.poolId = p
    · rw [hp, Function.update_self] at he
      cases he
    · rw [Function.update_of_ne hp] at he
      exact horphan.2 g e hg he

/-- The accounting balances in every run that makes at most `2 ^ 64` reservations:

- a pool's live total is the sum of its signers' rows and of the unreleased guards of
  its own generation, and its debt is the sum of its signers' debts;
- no release and no clearing takes more than is there;
- an admission leaves live plus debt within what remains above the refundable floor,
  and the signer within its cap;
- a guard taken before its pool was forgotten never moves a later generation. -/
theorem floor_accounting (h : Handler) (s : Floor)
    (hrun : Reaches (Step h) (fun _ _ => True) {} s) (hn : s.issued ≤ 2 ^ 64) :
    (∀ p e, s.pools p = some e →
      e.liveReservation = ∑ sg, (e.row sg).liveReservation ∧
        e.liveReservation = ∑ i ∈ range s.issued, unreleasedIn p e.epoch (s.guards i) ∧
        e.debt = ∑ sg, (e.row sg).debt) ∧
    (∀ i g e, s.guards i = some g → ownEntry g s.pools = some e →
      (g.liveReleased = false →
        g.reserved ≤ e.liveReservation ∧ g.reserved ≤ (e.row g.signer).liveReservation) ∧
      ∀ sg, (e.row sg).debt ≤ e.debt) ∧
    (∀ p signer remaining ratePerMb reserved t,
      tryReserveFloor h s p signer remaining ratePerMb reserved = .ok t → t.issued ≤ 2 ^ 64 →
      ∃ e, t.pools p = some e ∧
        e.liveReservation + e.debt ≤ remaining - h.poolMinRemainingDeposit ∧
        (e.row signer).liveReservation + (e.row signer).debt ≤ h.signerFloorCap ratePerMb) ∧
    (∀ i g t a u, s.guards i = some g →
      Reaches (Step h) (fun _ _ => True) (forgetPoolFloor s g.poolId) t → t.issued ≤ 2 ^ 64 →
      Step h t (.guarded i a) u → u.pools = t.pools) := by
  have hinv : Inv s := Reaches.inv hrun (fun _ => inv_empty) hn
  refine ⟨?_, ?_, ?_, ?_⟩
  · intro p e he
    have hb := hinv.books p e he
    exact ⟨hb.live, hb.live_eq, hb.debt⟩
  · intro i g e hg hown
    rcases ownEntry_eq_some.mp hown with ⟨hpool, hepoch⟩
    have hb := hinv.books _ e hpool
    refine ⟨?_, fun sg => (hb.row_le sg).2⟩
    intro hlive
    have hrow := hb.reserved_le (hinv.issued i g hg) hg rfl hepoch.symm hlive
    exact ⟨Nat.le_trans hrow (hb.row_le g.signer).1, hrow⟩
  · intro p signer remaining ratePerMb reserved t hok hnt
    have hissued : t.issued = s.issued + 1 := by rw [(tryReserveFloor_cases hok).2.2]
    rcases hinv.charge (by omega) hok with ⟨-, -, hpool, hsigner⟩
    refine ⟨(chargedEntry s p).chargeLive signer reserved, ?_, hpool, hsigner⟩
    rw [(tryReserveFloor_cases hok).2.2]
    exact Function.update_self _ _ _
  · intro i g t a u hg hlater hnt hstep
    -- Forgetting the pool orphans the guard, and orphaned it stays.
    have horphan : Orphaned i (forgetPoolFloor s g.poolId) := by
      refine ⟨hinv.issued i g hg, ?_⟩
      intro g' e' hg' he'
      have hsame : g' = g := Option.some.inj (hg'.symm.trans hg)
      subst hsame
      simp [forgetPoolFloor] at he'
    have hboth : t.issued ≤ 2 ^ 64 → Inv t ∧ Orphaned i t := by
      refine hlater.invariant (I := fun t => t.issued ≤ 2 ^ 64 → Inv t ∧ Orphaned i t)
        (fun _ => ⟨hinv.forgetPoolFloor _, horphan⟩) ?_
      intro a e b _ hstep ih hnb
      rcases ih (Nat.le_trans (Step.issued_le hstep) hnb) with ⟨hinva, horphana⟩
      exact ⟨hinva.step hstep hnb, horphana.step hinva hstep hnb⟩
    rcases hboth hnt with ⟨-, -, hnone⟩
    rcases Option.map_eq_some_iff.mp hstep with ⟨g', hg', rfl⟩
    refine apply_pools_of_orphan ?_ a
    cases hown : ownEntry g' t.pools with
    | none => rfl
    | some e =>
      rcases ownEntry_eq_some.mp hown with ⟨hpool, hepoch⟩
      exact absurd hepoch (hnone g' e hg' hpool)

/-- Reconciling a credited voucher is at most three lock holds of the guard. -/
theorem reconcilePaid_reaches (hg : s.guards i = some g) (delivered paid : Nat) :
    Reaches (Step h) (fun _ _ => True) s (reconcilePaid s i g delivered paid) := by
  have hset : ∀ (s : Floor) (g : FloorReservation), (s.setGuard i (some g)).guards i = some g :=
    fun s g => Function.update_self _ _ _
  have htrack : Reaches (Step h) (fun _ _ => True) s (trackUnpaid s i g (delivered - paid)) := by
    refine (Reaches.refl s).tail (e := .guarded i (.trackUnpaid (delivered - paid))) trivial ?_
    simp only [Step, apply, hg]
    rfl
  unfold reconcilePaid releaseIfRepaid
  split
  · set g₁ : FloorReservation := { g with unpaidBytes := delivered - paid }
    have hg₁ : (trackUnpaid s i g (delivered - paid)).guards i = some g₁ := hset s g₁
    have hreleased : (releaseLiveRepaid (trackUnpaid s i g (delivered - paid)) i g₁).guards i =
        some { g₁ with liveReleased := true } := by
      unfold releaseLiveRepaid
      split
      · rename_i hlive
        rw [hg₁, ← hlive]
      · exact Function.update_self _ _ _
    have hrelease := htrack.tail (e := .guarded i .releaseLiveRepaid)
      (u := releaseLiveRepaid (trackUnpaid s i g (delivered - paid)) i g₁) trivial (by
        simp only [Step, apply, hg₁]
        rfl)
    refine hrelease.tail
      (e := .guarded i (.offerSurplus (minPayment paid g.ratePerMb - g₁.reserved))) trivial ?_
    simp only [Step, apply, hreleased]
    rfl
  · exact htrack

/-! ## One reservation too many -/

/-- A node that grants every signer one window. -/
def sampleHandler : Handler where
  creditRampDivisor := 1
  creditMax := 0
  poolFloorSignerLiveWindows := 1
  poolMinRemainingDeposit := 0

/-- The guard of the first reservation, on pool 1. -/
def firstGuard : FloorReservation where
  poolId := 1
  epoch := 0
  signer := 1
  reserved := 1
  ratePerMb := 1

/-- No pool is held, `n` entries were created by `n` reservations, and only the first
guard is outstanding. -/
def idle (n : Nat) : Floor where
  epochs := n
  guards := Function.update (fun _ => none) 0 (some firstGuard)
  issued := n

/-- An admission to a pool that is not held creates its entry. -/
theorem admit_fresh (s : Floor) (p : Bytes32) (signer : Address) (hnone : s.pools p = none) :
    tryReserveFloor sampleHandler s p signer 10 1 1 = .ok
      { pools := Function.update s.pools p
          (some (PoolFloorState.chargeLive { epoch := s.nextEpoch } signer 1))
        epochs := s.epochs + 1
        guards := Function.update s.guards s.issued (some
          { poolId := p, epoch := s.nextEpoch, signer := signer, reserved := 1, ratePerMb := 1 })
        issued := s.issued + 1 } := by
  have hcap : ¬ sampleHandler.signerFloorCap 1 < U256.saturatingAdd 0 1 := by decide
  have hpool : poolBudgetCovers 10 sampleHandler.poolMinRemainingDeposit 0 1 = true := by decide
  simp only [tryReserveFloor, Floor.held, hnone, hpool, if_neg hcap, not_true_eq_false, if_false,
    Option.getD_none, Option.isSome_none, Bool.false_eq_true]
  rfl

/-- Reserving on pool 2, forgetting it and dropping the guard costs one stamp. -/
theorem idle_succ {n : Nat} (hn : 1 ≤ n) :
    Reaches (Step sampleHandler) (fun _ _ => True) (idle n) (idle (n + 1)) := by
  have hadmit := admit_fresh (idle n) 2 2 rfl
  set s₁ : Floor :=
    { pools := Function.update (idle n).pools 2
        (some (PoolFloorState.chargeLive { epoch := (idle n).nextEpoch } 2 1))
      epochs := (idle n).epochs + 1
      guards := Function.update (idle n).guards (idle n).issued (some
        { poolId := 2, epoch := (idle n).nextEpoch, signer := 2, reserved := 1, ratePerMb := 1 })
      issued := (idle n).issued + 1 }
  have hpools : (forgetPoolFloor s₁ 2).pools = fun _ => none := by
    funext p
    by_cases hp : p = 2
    · subst hp
      simp [forgetPoolFloor]
    · simp [forgetPoolFloor, s₁, idle]
  have hguard : (forgetPoolFloor s₁ 2).guards n = some
      { poolId := 2, epoch := (idle n).nextEpoch, signer := 2, reserved := 1, ratePerMb := 1 } :=
    Function.update_self _ _ _
  have hdrop : dropGuard (forgetPoolFloor s₁ 2) n
      { poolId := 2, epoch := (idle n).nextEpoch, signer := 2, reserved := 1, ratePerMb := 1 } =
      idle (n + 1) := by
    have hguards : Function.update (forgetPoolFloor s₁ 2).guards n none = (idle (n + 1)).guards := by
      funext j
      by_cases hj : j = n
      · subst hj
        have hzero : j ≠ 0 := by omega
        simp [idle, hzero]
      · simp [forgetPoolFloor, s₁, idle, hj]
    refine Floor.ext ((apply_pools_of_orphan ?_ .drop).trans hpools) rfl hguards rfl
    rw [hpools]
    rfl
  refine (((Reaches.refl (idle n)).tail
    (e := .tryReserveFloor 2 2 10 1 1) (u := s₁) trivial ?_).tail
    (e := .forgetPoolFloor 2) (u := forgetPoolFloor s₁ 2) trivial rfl).tail
    (e := .guarded n .drop) trivial ?_
  · simp only [Step, apply, hadmit]
  · simp only [Step, apply, hguard, Option.map_some, GuardAction.apply, hdrop]

/-- Any number of stamps can be spent. -/
theorem idle_reaches {n : Nat} (hn : 1 ≤ n) :
    Reaches (Step sampleHandler) (fun _ _ => True) (idle 1) (idle n) := by
  induction n, hn using Nat.le_induction with
  | base => exact Reaches.refl _
  | succ n hn ih => exact ih.trans (idle_succ hn)

/-- The state after the first reservation. -/
def firstReserved : Floor where
  pools := Function.update (fun _ => none) 1
    (some (PoolFloorState.chargeLive { epoch := 0 } 1 1))
  epochs := 1
  guards := Function.update (fun _ => none) 0 (some firstGuard)
  issued := 1

/-- The first reservation is one step. -/
theorem firstReserved_reaches :
    Reaches (Step sampleHandler) (fun _ _ => True) {} firstReserved := by
  refine (Reaches.refl _).tail (e := .tryReserveFloor 1 1 10 1 1) trivial ?_
  simp only [Step, apply, admit_fresh {} 1 1 rfl]
  rfl

/-- After `2 ^ 64` reservations the stamp of the forgotten pool comes back, and the
guard taken before it was forgotten releases the reservation of another signer. -/
theorem stale_guard_released : ∃ t u : Floor,
    Reaches (Step sampleHandler) (fun _ _ => True) {} firstReserved ∧
      firstReserved.guards 0 = some firstGuard ∧
      Reaches (Step sampleHandler) (fun _ _ => True)
        (forgetPoolFloor firstReserved firstGuard.poolId) t ∧
      t.issued = 2 ^ 64 + 1 ∧ Step sampleHandler t (.guarded 0 .drop) u ∧
      (t.pools 1).map PoolFloorState.liveReservation = some 1 ∧
      (u.pools 1).map PoolFloorState.liveReservation = some 0 ∧
      (u.pools 1).map (fun e => (e.row 2).liveReservation) = some 1 := by
  have hforget : forgetPoolFloor firstReserved firstGuard.poolId = idle 1 := by
    have hpools : (forgetPoolFloor firstReserved firstGuard.poolId).pools = fun _ => none := by
      funext p
      by_cases hp : p = 1
      · subst hp
        rfl
      · simp [forgetPoolFloor, firstReserved, firstGuard]
    exact Floor.ext hpools rfl rfl rfl
  have hstamp : (idle (2 ^ 64)).nextEpoch = 0 := Nat.mod_self _
  have hadmit := admit_fresh (idle (2 ^ 64)) 1 2 rfl
  rw [hstamp] at hadmit
  set t : Floor :=
    { pools := Function.update (idle (2 ^ 64)).pools 1
        (some (PoolFloorState.chargeLive { epoch := 0 } 2 1))
      epochs := (idle (2 ^ 64)).epochs + 1
      guards := Function.update (idle (2 ^ 64)).guards (idle (2 ^ 64)).issued (some
        { poolId := 1, epoch := 0, signer := 2, reserved := 1, ratePerMb := 1 })
      issued := (idle (2 ^ 64)).issued + 1 }
  have hguard : t.guards 0 = some firstGuard := by
    have hne : (0 : Nat) ≠ (idle (2 ^ 64)).issued := by
      unfold idle
      decide
    simp only [t, Function.update_of_ne hne]
    rfl
  refine ⟨t, dropGuard t 0 firstGuard, firstReserved_reaches, rfl, ?_, rfl, ?_, rfl, rfl, rfl⟩
  · rw [hforget]
    have hspent : 1 ≤ 2 ^ 64 := by decide
    refine (idle_reaches hspent).tail (e := .tryReserveFloor 1 2 10 1 1) (u := t) trivial ?_
    simp only [Step, apply, hadmit]
  · simp only [Step, apply, hguard, Option.map_some, GuardAction.apply]

/-- Two signers of pool 1 and one of pool 2 reserve.  The first leaves what it was served unpaid,
the second pays and reserves again. -/
def sampleActions : List Action :=
  [.tryReserveFloor 1 1 10 1 1, .tryReserveFloor 1 2 10 1 1, .tryReserveFloor 2 1 10 1 1,
    .guarded 0 (.trackUnpaid bytesPerMb), .guarded 0 (.settleEnd (.error true)), .guarded 0 .drop,
    .guarded 1 .releaseLiveRepaid, .tryReserveFloor 1 2 10 1 1]

/-- The live total and the debt of a pool. -/
def Floor.totals (s : Floor) (p : Bytes32) : Option (Nat × Nat) :=
  (s.pools p).map fun e => (e.liveReservation, e.debt)

/-- After those steps pool 1 holds a live reservation and a debt, and the first signer fits once
more into what remains; pool 2 is forgotten and reserved from anew, and the guard of its first
generation moves nothing. -/
theorem floor_accounting_first : ∃ s t u e,
    Reaches (Step sampleHandler) (fun _ _ => True) {} s ∧
      s.pools 1 = some e ∧ e.liveReservation = 1 ∧ e.debt = 1 ∧
      (1 = ∑ sg, (e.row sg).liveReservation ∧
        1 = ∑ i ∈ range s.issued, unreleasedIn 1 e.epoch (s.guards i) ∧
        1 = ∑ sg, (e.row sg).debt) ∧
      (∃ v e', tryReserveFloor sampleHandler s 1 1 3 1 1 = .ok v ∧ v.pools 1 = some e' ∧
        e'.liveReservation + e'.debt ≤ 3 ∧
        (e'.row 1).liveReservation + (e'.row 1).debt ≤ sampleHandler.signerFloorCap 1) ∧
      Reaches (Step sampleHandler) (fun _ _ => True) (forgetPoolFloor s 2) t ∧
      t.totals 2 = some (1, 0) ∧ Step sampleHandler t (.guarded 2 .drop) u ∧
      u.pools = t.pools := by
  have hvalues : (runEvents (apply sampleHandler) (fun _ _ => true) {} sampleActions).map
      (fun s => (s.issued, s.totals 1, (s.guards 2).map FloorReservation.poolId)) =
        some (4, some (1, 1), some 2) := by
    decide +kernel
  rcases Option.map_eq_some_iff.mp hvalues with ⟨s, hs, hvalues⟩
  rcases Prod.mk.inj hvalues with ⟨hissued, hvalues⟩
  rcases Prod.mk.inj hvalues with ⟨htotals, hguard⟩
  rcases Option.map_eq_some_iff.mp htotals with ⟨e, he, htotals⟩
  rcases Option.map_eq_some_iff.mp hguard with ⟨g, hg, hpool⟩
  have hadmitted : ((runEvents (apply sampleHandler) (fun _ _ => true) {} sampleActions).bind
      fun s => (tryReserveFloor sampleHandler s 1 1 3 1 1).toOption.map Floor.issued) =
        some 5 := by
    decide +kernel
  rw [hs, Option.bind_some] at hadmitted
  rcases Option.map_eq_some_iff.mp hadmitted with ⟨v, hv, hvissued⟩
  rw [toOption_eq_some] at hv
  have hlater : ((runEvents (apply sampleHandler) (fun _ _ => true) {} sampleActions).bind
      fun s => (runEvents (apply sampleHandler) (fun _ _ => true) (forgetPoolFloor s 2)
        [.tryReserveFloor 2 3 10 1 1]).map fun t =>
          (t.issued, t.totals 2, (apply sampleHandler t (.guarded 2 .drop)).isSome)) =
        some (5, some (1, 0), true) := by
    decide +kernel
  rw [hs, Option.bind_some] at hlater
  rcases Option.map_eq_some_iff.mp hlater with ⟨t, ht, hlater⟩
  rcases Prod.mk.inj hlater with ⟨htissued, hlater⟩
  rcases Prod.mk.inj hlater with ⟨hreserved, hdrop⟩
  rcases Option.isSome_iff_exists.mp hdrop with ⟨u, hu⟩
  have hrun : Reaches (Step sampleHandler) (fun _ _ => True) {} s :=
    Reaches.of_runEvents (fun _ _ _ => trivial) hs
  have hrunLater : Reaches (Step sampleHandler) (fun _ _ => True) (forgetPoolFloor s 2) t :=
    Reaches.of_runEvents (fun _ _ _ => trivial) ht
  rcases floor_accounting sampleHandler s hrun (by rw [hissued]; decide) with
    ⟨hbooks, -, hfits, hstale⟩
  rcases hbooks 1 e he with ⟨hrows, hguards, hdebts⟩
  rcases Prod.mk.inj htotals with ⟨hlive, hdebt⟩
  rw [hlive] at hrows hguards
  rw [hdebt] at hdebts
  rcases hfits 1 1 3 1 1 v hv (by rw [hvissued]; decide) with ⟨e', he', hpoolFits, hsignerFits⟩
  rw [← hpool] at hrunLater
  have hkept := hstale 2 g t .drop u hg hrunLater (by rw [htissued]; decide) hu
  rw [hpool] at hrunLater
  exact ⟨s, t, u, e, hrun, he, hlive, hdebt, ⟨hrows, hguards, hdebts⟩,
    ⟨v, e', hv, he', hpoolFits, hsignerFits⟩, hrunLater, hreserved, hu, hkept⟩

end Decdn.Node.FloorCredit
