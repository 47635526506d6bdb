import Decdn.Client.PaidFrontier
import Decdn.Node.FloorCredit

/-!
# Pacing the pull

When the pull leg may draw the next content (`pacer.rs`).  The budget pacer looks
at the money alone; the window pacer cuts its draws to a window ahead of what the
downstream client paid for; the ramp pacer widens that window with the payment.
The pull counts content in whole groups, the client pays for wire bytes it has
verified, and the floor of the window must bridge the two.

Main results:

- Theorem `windowDecide_cases`: when the pacer waits, and what a draw allows.
- Theorem `pull_window_live`: when the pacer waits, the client can verify and pay
  another chunk, and no draw exceeds the window or the floor of a parked serve leg.
-/

namespace Decdn.Client

open BaoRange
open Node.FloorCredit (chunkBytes verifyLagBytes rampedCreditWindow)
open U64 (saturatingAdd)

/-! ## The pacers -/

/-- `PULL_WINDOW_FLOOR`. -/
def pullWindowFloor : Nat := chunkBytes + verifyLagBytes + 3 * chunkGroupBytes

/-- `MIN_DRAW_WINDOW`. -/
def minDrawWindow : Nat := 4 * pullWindowFloor

/-- `DownstreamFrontier`. -/
structure DownstreamFrontier where
  servedPaid : Nat
  serveDemand : Nat
deriving DecidableEq, Repr

/-- `PaceState`. -/
structure PaceState where
  clearedBytes : Nat
  requestedBytes : Nat
  remainingDeposit : Nat
  nextVoucherCost : Nat
  pulledFrontier : Nat
  gapRemaining : Nat
  downstream : DownstreamFrontier
deriving DecidableEq, Repr

/-- `PaceDecision`. -/
inductive PaceDecision where
  | draw (upToBytes : Nat)
  | done
  | refuse
  | wait
  | waitForMinDraw
deriving DecidableEq, Repr

/-- `BudgetPacer::decide`. -/
def budgetDecide (s : PaceState) : PaceDecision :=
  if s.requestedBytes ≤ s.clearedBytes then .done
  else if s.remainingDeposit < s.nextVoucherCost then .refuse
  else .draw (s.requestedBytes - s.clearedBytes)

/-- A size floored to whole groups. -/
def floorGroups (bytes : Nat) : Nat := bytes - bytes % chunkGroupBytes

/-- A serve leg waits at the frontier of this pull. -/
def PaceState.parked (s : PaceState) : Prop :=
  0 < s.downstream.serveDemand - s.pulledFrontier ∧
    s.downstream.serveDemand - s.pulledFrontier ≤ chunkGroupBytes

instance (s : PaceState) : Decidable s.parked := inferInstanceAs (Decidable (_ ∧ _))

/-- `WindowPacer::decide`. -/
def windowDecide (windowBytes : Nat) (s : PaceState) : PaceDecision :=
  match budgetDecide s with
  | .draw upToBytes =>
    let ahead := s.pulledFrontier - s.downstream.servedPaid
    let room := floorGroups (windowBytes - ahead)
    let demanded := if s.parked then pullWindowFloor else 0
    let minDraw := if minDrawWindow ≤ windowBytes then floorGroups (windowBytes / 2) else 0
    let gapLeft := saturatingMul (divCeil s.gapRemaining chunkGroupBytes) chunkGroupBytes
    if max room demanded = 0 then .wait
    else if demanded = 0 ∧ room < min minDraw gapLeft then .waitForMinDraw
    else .draw (min upToBytes (max room demanded))
  | other => other

/-- `RampPacer`. -/
structure RampPacer where
  divisor : Nat
  floor : Nat
  creditMax : Nat
  paidBase : Nat
  paidCarried : Nat
deriving DecidableEq, Repr

/-- The window the ramp opens. -/
def RampPacer.window (p : RampPacer) (s : PaceState) : Nat :=
  let paid := saturatingAdd (s.downstream.servedPaid - p.paidBase) p.paidCarried
  rampedCreditWindow p.divisor p.floor p.creditMax paid

/-- `RampPacer::decide`. -/
def RampPacer.decide (p : RampPacer) (s : PaceState) : PaceDecision :=
  windowDecide (p.window s) s

/-- `leg_range`: the range the driver opens for a draw. -/
def legRange (resumeStart gapEnd upToBytes maxLen totalBytes : Nat) :
    Except RangeOutOfBounds AlignedRange :=
  alignRange resumeStart (min (min (gapEnd - resumeStart) upToBytes) maxLen) totalBytes

/-! ## When it waits -/

variable {p : RampPacer} {s : PaceState} {total a paid q : Nat} {walked : Nat → ChunkRanges → Nat}

/-- The ramp never opens less than its floor. -/
theorem floor_le_window (p : RampPacer) (s : PaceState) : p.floor ≤ p.window s := by
  unfold RampPacer.window rampedCreditWindow
  dsimp only
  split
  · exact Nat.le_max_right _ _
  · exact Nat.le_max_left _ _

/-- A size floored to whole groups: how much is lost. -/
theorem floorGroups_spec (bytes : Nat) :
    floorGroups bytes ≤ bytes ∧ bytes < floorGroups bytes + chunkGroupBytes ∧
      ∃ k, floorGroups bytes = k * chunkGroupBytes := by
  have hmod := Nat.mod_lt bytes (show 0 < chunkGroupBytes by decide)
  have hdiv := Nat.div_add_mod bytes chunkGroupBytes
  unfold floorGroups
  refine ⟨Nat.sub_le _ _, by omega, bytes / chunkGroupBytes, ?_⟩
  rw [Nat.mul_comm]
  omega

/-- Flooring keeps the order. -/
theorem floorGroups_mono {x y : Nat} (h : x ≤ y) : floorGroups x ≤ floorGroups y := by
  unfold floorGroups chunkGroupBytes
  omega

/-- The budget pacer draws, ends or refuses. -/
theorem budgetDecide_cases (s : PaceState) :
    budgetDecide s = .done ∨ budgetDecide s = .refuse ∨
      (s.clearedBytes < s.requestedBytes ∧
        budgetDecide s = .draw (s.requestedBytes - s.clearedBytes)) := by
  unfold budgetDecide
  split
  · exact .inl rfl
  · rename_i hopen
    split
    · exact .inr (.inl rfl)
    · exact .inr (.inr ⟨Nat.lt_of_not_le hopen, rfl⟩)

/-- The room a window pacer has. -/
def roomOf (w : Nat) (s : PaceState) : Nat :=
  floorGroups (w - (s.pulledFrontier - s.downstream.servedPaid))

/-- What a window pacer can decide: it waits only with no serve leg parked and no room, or less
than half of a wide window, and it draws no more than its room or the floor of a parked leg. -/
theorem windowDecide_cases (w : Nat) (s : PaceState) :
    (windowDecide w s = .wait ∧ roomOf w s = 0) ∨
      (windowDecide w s = .waitForMinDraw ∧ minDrawWindow ≤ w ∧
        roomOf w s < floorGroups (w / 2)) ∨
      windowDecide w s = .done ∨ windowDecide w s = .refuse ∨
      ∃ upToBytes, windowDecide w s = .draw upToBytes ∧ 0 < upToBytes ∧
        (upToBytes ≤ roomOf w s ∨ (s.parked ∧ upToBytes ≤ pullWindowFloor)) := by
  have hfloor : 0 < pullWindowFloor := by decide
  rcases budgetDecide_cases s with hbudget | hbudget | ⟨hopen, hbudget⟩
  · unfold windowDecide
    rw [hbudget]
    exact .inr (.inr (.inl rfl))
  · unfold windowDecide
    rw [hbudget]
    exact .inr (.inr (.inr (.inl rfl)))
  · unfold windowDecide roomOf
    rw [hbudget]
    dsimp only
    generalize floorGroups (w - (s.pulledFrontier - s.downstream.servedPaid)) = room
    generalize saturatingMul (divCeil s.gapRemaining chunkGroupBytes) chunkGroupBytes = gapLeft
    by_cases hparked : s.parked
    · rw [if_pos hparked, if_neg (by omega), if_neg (by omega)]
      refine .inr (.inr (.inr (.inr ⟨_, rfl, by omega, ?_⟩)))
      rcases Nat.le_total room pullWindowFloor with hle | hle
      · exact .inr ⟨hparked, by omega⟩
      · exact .inl (by omega)
    · rw [if_neg hparked, Nat.max_zero]
      by_cases hfull : room = 0
      · rw [if_pos hfull]
        exact .inl ⟨rfl, hfull⟩
      · rw [if_neg hfull]
        by_cases hwide : minDrawWindow ≤ w
        · rw [if_pos hwide]
          by_cases hless : room < min (floorGroups (w / 2)) gapLeft
          · rw [if_pos ⟨rfl, hless⟩]
            exact .inr (.inl ⟨rfl, hwide, by omega⟩)
          · rw [if_neg fun h => hless h.2]
            exact .inr (.inr (.inr (.inr ⟨_, rfl, by omega, .inl (by omega)⟩)))
        · rw [if_neg hwide, if_neg (by omega)]
          exact .inr (.inr (.inr (.inr ⟨_, rfl, by omega, .inl (by omega)⟩)))

/-- A window pacer of at least one floor that waits has its pull more than a floor less one group
ahead of the payment. -/
theorem ahead_of_wait {w : Nat} (hfloor : pullWindowFloor ≤ w)
    (h : windowDecide w s = .wait ∨ windowDecide w s = .waitForMinDraw) :
    s.downstream.servedPaid + pullWindowFloor < s.pulledFrontier + chunkGroupBytes := by
  have hgroup : chunkGroupBytes < pullWindowFloor := by decide
  rcases floorGroups_spec (w - (s.pulledFrontier - s.downstream.servedPaid)) with ⟨-, hlost, -⟩
  rcases windowDecide_cases w s with ⟨-, hroom⟩ | ⟨-, hwide, hroom⟩ | hdone | hrefuse |
    ⟨upToBytes, hdraw, -, -⟩
  · -- the window is full but for part of a group
    unfold roomOf at hroom
    omega
  · -- less than half of at least four floors is open
    have hopen : w - (s.pulledFrontier - s.downstream.servedPaid) < w / 2 := by
      by_contra hle
      have hmono := floorGroups_mono (Nat.le_of_not_lt hle)
      unfold roomOf at hroom
      omega
    unfold minDrawWindow at hwide
    omega
  · rw [hdone] at h
    rcases h with h | h <;> cases h
  · rw [hrefuse] at h
    rcases h with h | h <;> cases h
  · rw [hdraw] at h
    rcases h with h | h <;> cases h

/-- When the pull is that far ahead of what was paid for, it holds the wire bytes the client needs
to verify and pay another chunk. -/
theorem pulled_wire_of_ahead {c : Nat} (htotal : 0 < total) (hac : a ≤ c)
    (hq : q ≤ groupCount total)
    (habove : ∀ d, c < d → d ≤ groupCount total → paid < min (wireSize total a d) u64Max)
    (hahead : boundary total c + pullWindowFloor < boundary total q + chunkGroupBytes) :
    paid + chunkBytes + verifyLagBytes + chunkGroupBytes ≤ wireSize total a q := by
  have hgroup : chunkGroupBytes < pullWindowFloor := by decide
  have hcq : c < q := by
    by_contra hle
    have hmono : boundary total q ≤ boundary total c := boundary_mono (Nat.le_of_not_lt hle)
    omega
  have hnext := habove (c + 1) (Nat.lt_succ_self c) (by omega)
  have hadd := wireSize_add_le htotal (show a ≤ c + 1 by omega) hcq hq
  have hone := (groupBytes_bounds (show c < groupCount total by omega)).2
  have hmono : boundary total (c + 1) ≤ boundary total q := boundary_mono hcq
  have hsucc : boundary total c ≤ boundary total (c + 1) := boundary_succ c
  unfold groupBytes at hone
  unfold pullWindowFloor at hahead
  omega

/-! ## What it draws -/

/-- The floor is a number of whole groups. -/
theorem pullWindowFloor_eq : pullWindowFloor = 68 * chunkGroupBytes := rfl

/-- A leg that starts within what is pulled and is drawn for whole groups ends no further than
those groups. -/
theorem legRange_end {resume gapEnd upToBytes maxLen k : Nat} {r : AlignedRange}
    (htotal : 0 < total) (hfits : total ≤ u64Max) (hq : q ≤ groupCount total)
    (hresume : resume ≤ boundary total q) (hopen : resume < gapEnd) (hmax : 0 < maxLen)
    (hdraw : 0 < upToBytes) (hgroups : upToBytes ≤ k * chunkGroupBytes)
    (h : legRange resume gapEnd upToBytes maxLen total = .ok r) :
    r.fetchEnd ≤ boundary total q + k * chunkGroupBytes := by
  have hcovers := aligned_shape htotal hfits (.inl h)
  rw [hcovers.fetchEnd_eq, if_neg (by omega)]
  generalize hlen : min (min (gapEnd - resume) upToBytes) maxLen = len
  have hstop : min (resume + len) total ≤ boundary total q + k * chunkGroupBytes := by omega
  rcases chunks_boundary hq with ⟨-, heq, -⟩ | ⟨-, heq, -⟩
  · rw [heq, ← Nat.add_mul] at hstop ⊢
    have hceil : divCeil (min (resume + len) total) chunkGroupBytes ≤ q + k :=
      divCeil_le (by decide) hstop
    exact (Nat.min_le_left _ _).trans (Nat.mul_le_mul_right _ hceil)
  · rw [heq]
    exact (Nat.min_le_right _ _).trans (Nat.le_add_right _ _)

/-- A draw leaves the pull within the window, or within a floor of where a parked serve leg
waits. -/
theorem draw_bounded {w resume gapEnd upToBytes maxLen : Nat} {r : AlignedRange}
    (htotal : 0 < total) (hfits : total ≤ u64Max) (hq : q ≤ groupCount total)
    (hpulled : s.pulledFrontier = boundary total q) (hresume : resume ≤ s.pulledFrontier)
    (hopen : resume < gapEnd) (hmax : 0 < maxLen) (hdraw : windowDecide w s = .draw upToBytes)
    (h : legRange resume gapEnd upToBytes maxLen total = .ok r) :
    max s.pulledFrontier r.fetchEnd - s.downstream.servedPaid ≤ w ∨
      (s.parked ∧ max s.pulledFrontier r.fetchEnd ≤ s.pulledFrontier + pullWindowFloor) := by
  rw [hpulled] at hresume
  rcases windowDecide_cases w s with ⟨hwait, -⟩ | ⟨hwait, -⟩ | hdone | hrefuse |
    ⟨upToBytes', hdraw', hpos, hlimit⟩
  · rw [hdraw] at hwait
    cases hwait
  · rw [hdraw] at hwait
    cases hwait
  · rw [hdraw] at hdone
    cases hdone
  · rw [hdraw] at hrefuse
    cases hrefuse
  · rw [hdraw] at hdraw'
    cases hdraw'
    rcases hlimit with hroom | ⟨hparked, hfloor⟩
    · left
      rcases floorGroups_spec (w - (s.pulledFrontier - s.downstream.servedPaid)) with
        ⟨hle, -, k, hk⟩
      unfold roomOf at hroom
      rw [hk] at hroom hle
      have hend := legRange_end htotal hfits hq hresume hopen hmax hpos hroom h
      rw [← hpulled] at hend
      omega
    · right
      rw [pullWindowFloor_eq] at hfloor
      have hend := legRange_end htotal hfits hq hresume hopen hmax hpos hfloor h
      rw [← hpulled] at hend
      rw [pullWindowFloor_eq]
      exact ⟨hparked, by omega⟩

/-- A ramp pacer over the pull floor, with the payment of the downstream stream mapped to content
and a pull that stands at a group boundary.  When it waits, what is pulled holds, beyond the paid
wire bytes, the chunk, the lag and the group the client needs to verify and pay another chunk.
When it draws, the leg the driver opens leaves the pull within the ramped window, or within a floor
of where a parked serve leg waits. -/
theorem pull_window_live (walked : Nat → ChunkRanges → Nat) (htotal : 0 < total)
    (hfits : total ≤ u64Max) (hstart : a * chunkGroupBytes < total) (paid : Nat)
    (hfloor : p.floor = pullWindowFloor) {fuel : Nat} (hfuel : groupCount total - a + 1 < fuel)
    (hserved : contentPaidFrontier walked fuel (a * chunkGroupBytes) total paid =
      some s.downstream.servedPaid)
    (hpulled : s.pulledFrontier = boundary total q) (hq : q ≤ groupCount total) :
    (p.decide s = .wait ∨ p.decide s = .waitForMinDraw →
      paid + chunkBytes + verifyLagBytes + chunkGroupBytes ≤ wireSize total a q) ∧
    ∀ resume gapEnd upToBytes maxLen r, p.decide s = .draw upToBytes →
      resume ≤ s.pulledFrontier → resume < gapEnd → 0 < maxLen →
      legRange resume gapEnd upToBytes maxLen total = .ok r →
      max s.pulledFrontier r.fetchEnd - s.downstream.servedPaid ≤ p.window s ∨
        (s.parked ∧ max s.pulledFrontier r.fetchEnd ≤ s.pulledFrontier + pullWindowFloor) := by
  rcases contentPaidFrontier_spec walked htotal hfits hstart paid with
    ⟨c, hac, -, hresult, -, habove⟩
  have hfrontier : s.downstream.servedPaid = boundary total c :=
    Option.some.inj (hserved.symm.trans (hresult fuel hfuel))
  constructor
  · intro hwait
    have hwindow := floor_le_window p s
    rw [hfloor] at hwindow
    have hahead := ahead_of_wait hwindow hwait
    rw [hfrontier, hpulled] at hahead
    exact pulled_wire_of_ahead htotal hac hq habove hahead
  · intro resume gapEnd upToBytes maxLen r hdraw hresume hopen hmax hleg
    exact draw_bounded htotal hfits hq hpulled hresume hopen hmax hdraw hleg

/-- A pull that is one floor ahead of a client that paid nothing. -/
def samplePace : PaceState := ⟨0, 1, 0, 0, pullWindowFloor, 0, ⟨0, 0⟩⟩

/-- With the window at its floor the pacer waits, and the client can verify and pay its first
chunk. -/
theorem pull_window_live_sample : ∃ total, total = 100 * chunkGroupBytes ∧
    (⟨0, pullWindowFloor, 0, 0, 0⟩ : RampPacer).decide samplePace = .wait ∧
    0 + chunkBytes + verifyLagBytes + chunkGroupBytes ≤ wireSize total 0 68 := by
  have hexists : ∃ total, total = 100 * chunkGroupBytes := ⟨_, rfl⟩
  rcases hexists with ⟨total, htotal⟩
  have hblob : 0 < total ∧ total ≤ u64Max ∧ 0 * chunkGroupBytes < total ∧
      68 ≤ groupCount total ∧ boundary total 68 = 68 * chunkGroupBytes := by
    unfold groupCount divCeil boundary
    unfold chunkGroupBytes at *
    unfold u64Max
    omega
  rcases hblob with ⟨hpos, hfits, hstart, hgroups, hpulled⟩
  have hwait : (⟨0, pullWindowFloor, 0, 0, 0⟩ : RampPacer).decide samplePace = .wait := by
    decide +kernel
  have hserved : contentPaidFrontier (fun _ _ => 0) (groupCount total + 2) (0 * chunkGroupBytes)
      total 0 = some samplePace.downstream.servedPaid := by
    unfold contentPaidFrontier
    dsimp only
    rw [if_pos (.inl rfl), Nat.zero_mul, Nat.zero_min]
    rfl
  have hlive := pull_window_live (p := ⟨0, pullWindowFloor, 0, 0, 0⟩) (fun _ _ => 0) hpos hfits
    hstart 0 rfl (Nat.lt_succ_self _) hserved (pullWindowFloor_eq.trans hpulled.symm) hgroups
  exact ⟨total, htotal, hwait, hlive.1 (.inl hwait)⟩

end Decdn.Client
