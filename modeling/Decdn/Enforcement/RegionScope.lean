import Decdn.CapacityBond.Regions
import Decdn.ContentBlacklist.Enumeration
import Decdn.Enforcement.Withdrawal

/-!
# Regional entries and moving operators

The blacklist answers for the regions an operator is in scope for now; the judge
reads the operator's region data of the challenge and the window of the response.
The two agree as long as the operator's later moves add no region, and an operator
escapes a regional entry only by two moves, because one previous region is kept.

Main results:

- Theorem `mem_getScopeRegions`: which regions are in scope at a time.
- Theorem `Persisted.step`: an entry in force before a response was live at its time.
- Theorem `InScope.step`: a region is remembered until a move between two others.
- Theorem `accepted_only_within_scope`: what an accepted challenge says of the time served.
- Theorem `regional_entry_still_accepted`: one move does not shed a regional entry.
-/

namespace Decdn.Enforcement

open CapacityBond (Bytes)
open ContentBlacklist (pack globalRegion scopeAt getScopeRegions isLive HashEntry
  isHashBlacklistedForOperator)
open SlashJudge (checkBlacklistedBefore liveBefore)

variable {P : Protocol} {w w' : System} {e : Event} {operator : Address} {region hash : Bytes32}

/-! ## Scopes -/

/-- A region other than the global one that the operator answers for at `t`: its current region,
or its previous one while the stability window is open. -/
structure InScope (bond : CapacityBond.State) (operator : Address) (region : Bytes32) (t : Nat) :
    Prop where
  ne_zero : region ≠ 0
  ne_global : region ≠ globalRegion
  declared : pack (bond.nodes operator).regionHint = region ∨
    (pack (bond.regionPrev operator) = region ∧
      t - bond.regionLastChanged operator < bond.params.regionStabilityWindow)

theorem scopeAt_currentKey (bond : CapacityBond.State) (operator : Address) (t : Nat) :
    (scopeAt bond operator t).currentKey =
      if pack (bond.nodes operator).regionHint = globalRegion then 0
      else pack (bond.nodes operator).regionHint := by
  unfold scopeAt ContentBlacklist.scopedRegions
  dsimp only
  rw [apply_ite ContentBlacklist.ScopedRegions.currentKey, ite_self]

/-- When the previous region applies, and which one it is. -/
theorem scopeAt_prev (bond : CapacityBond.State) (operator : Address) (t : Nat) :
    ((scopeAt bond operator t).prevApplies = true ↔
      t - bond.regionLastChanged operator < bond.params.regionStabilityWindow ∧
        pack (bond.regionPrev operator) ≠ 0 ∧ pack (bond.regionPrev operator) ≠ globalRegion ∧
        pack (bond.regionPrev operator) ≠ (scopeAt bond operator t).currentKey) ∧
    ((scopeAt bond operator t).prevApplies = true →
      (scopeAt bond operator t).prevKey = pack (bond.regionPrev operator)) := by
  have helapsed : (if bond.regionLastChanged operator < t then
      t - bond.regionLastChanged operator else 0) = t - bond.regionLastChanged operator := by
    split <;> omega
  rw [scopeAt_currentKey]
  unfold scopeAt ContentBlacklist.scopedRegions
  dsimp only
  rw [helapsed]
  generalize (if pack (bond.nodes operator).regionHint = globalRegion then 0
    else pack (bond.nodes operator).regionHint) = current
  split
  · rename_i happlies
    exact ⟨iff_of_true rfl happlies, fun _ => rfl⟩
  · rename_i hnot
    exact ⟨iff_of_false Bool.false_ne_true hnot, Bool.noConfusion⟩

/-- The regions the judge looks at, apart from the global one. -/
theorem inScope_iff {bond : CapacityBond.State} {t : Nat} :
    InScope bond operator region t ↔
      ((scopeAt bond operator t).currentKey ≠ 0 ∧
        region = (scopeAt bond operator t).currentKey) ∨
      ((scopeAt bond operator t).prevApplies = true ∧
        region = (scopeAt bond operator t).prevKey) := by
  rcases scopeAt_prev bond operator t with ⟨happlies, hkey⟩
  constructor
  · rintro ⟨hzero, hglobal, rfl | ⟨rfl, hopen⟩⟩
    · left
      rw [scopeAt_currentKey, if_neg hglobal]
      exact ⟨hzero, rfl⟩
    · by_cases hcur : pack (bond.regionPrev operator) = (scopeAt bond operator t).currentKey
      · rw [← hcur]
        exact .inl ⟨hzero, rfl⟩
      · have hprev := happlies.mpr ⟨hopen, hzero, hglobal, hcur⟩
        exact .inr ⟨hprev, (hkey hprev).symm⟩
  · rintro (⟨hne, rfl⟩ | ⟨hprev, rfl⟩)
    · rw [scopeAt_currentKey] at hne ⊢
      split at hne
      · exact absurd rfl hne
      · rename_i hglobal
        rw [if_neg hglobal]
        exact ⟨hne, hglobal, .inl rfl⟩
    · rcases happlies.mp hprev with ⟨hopen, hzero, hglobal, -⟩
      rw [hkey hprev]
      exact ⟨hzero, hglobal, .inr ⟨rfl, hopen⟩⟩

/-- The scope of the contracts: the global region and those of `InScope`. -/
theorem mem_getScopeRegions {bond : CapacityBond.State} {t : Nat} :
    region ∈ getScopeRegions bond t operator ↔
      region = globalRegion ∨ InScope bond operator region t := by
  rw [inScope_iff]
  unfold getScopeRegions
  simp only [List.mem_append, List.mem_singleton, List.mem_ite_nil_right, or_assoc]

/-- A challenge is accepted when an entry of the scope counts against the response. -/
theorem accepted_iff {now : Nat} {list : ContentBlacklist.State} {bond : CapacityBond.State}
    {ts : UInt64} :
    checkBlacklistedBefore now list bond operator hash ts = .ok () ↔
      ∃ region ∈ getScopeRegions bond (ts.toNat / 1000000) operator,
        liveBefore now list region hash ts = true := by
  rw [SlashJudge.checkBlacklistedBefore_eq_ok, SlashJudge.regionalLiveBefore_eq_true]
  constructor
  · rintro (hglobal | ⟨hne, hlive⟩ | ⟨hprev, hlive⟩)
    · exact ⟨globalRegion, mem_getScopeRegions.mpr (.inl rfl), hglobal⟩
    · exact ⟨_, mem_getScopeRegions.mpr (.inr (inScope_iff.mpr (.inl ⟨hne, rfl⟩))), hlive⟩
    · exact ⟨_, mem_getScopeRegions.mpr (.inr (inScope_iff.mpr (.inr ⟨hprev, rfl⟩))), hlive⟩
  · rintro ⟨region, hmem, hlive⟩
    rcases mem_getScopeRegions.mp hmem with rfl | hscope
    · exact .inl hlive
    · rcases inScope_iff.mp hscope with ⟨hne, rfl⟩ | ⟨hprev, rfl⟩
      · exact .inr (.inl ⟨hne, hlive⟩)
      · exact .inr (.inr ⟨hprev, hlive⟩)

/-- The read predicate: some entry of the scope is live. -/
theorem isHashBlacklistedForOperator_iff {now : Nat} {list : ContentBlacklist.State}
    {bond : CapacityBond.State} :
    isHashBlacklistedForOperator list bond now hash operator = true ↔
      ∃ region ∈ getScopeRegions bond now operator, isLive list now region hash = true := by
  constructor
  · exact ContentBlacklist.exists_scope_live
  · rintro ⟨region, hmem, hlive⟩
    simp only [isHashBlacklistedForOperator, Bool.or_eq_true, Bool.and_eq_true, bne_iff_ne]
    rcases mem_getScopeRegions.mp hmem with rfl | hscope
    · exact .inl (.inl hlive)
    · rcases inScope_iff.mp hscope with ⟨hne, rfl⟩ | ⟨hprev, rfl⟩
      · exact .inl (.inr ⟨hne, hlive⟩)
      · exact .inr ⟨hprev, hlive⟩

/-! ## Moves -/

/-- The stability window a call sets. -/
def setsWindow : CapacityBond.Call → Option Nat
  | .setRegionStabilityWindow n => some n
  | _ => none

/-- What a step does to the data that decide an operator's scope: it sets the window at most, or
it is the operator's own region write. -/
theorem System.Step.region_cases (h : System.Step P w e w') (operator : Address) :
    ((w'.bond.nodes operator).regionHint = (w.bond.nodes operator).regionHint ∧
      w'.bond.regionPrev operator = w.bond.regionPrev operator ∧
      w'.bond.regionLastChanged operator = w.bond.regionLastChanged operator ∧
      (w'.bond.params.regionStabilityWindow = w.bond.params.regionStabilityWindow ∨
        ∃ tx c, e = .bond tx c ∧ w'.bond.params.regionStabilityWindow ∈ setsWindow c ∧
          CapacityBond.regionStabilityWindowFloor ≤ w'.bond.params.regionStabilityWindow)) ∨
    (∃ tx c newRegion, e = .bond tx c ∧ newRegion ∈ c.writesRegion ∧ tx.sender = operator ∧
      (w'.bond.nodes operator).regionHint =
        CapacityBond.regionAfter P.H w.bond operator newRegion ∧
      w'.bond.regionPrev operator =
        CapacityBond.regionPrevAfter P.H w.bond operator newRegion operator ∧
      w'.bond.regionLastChanged operator = w'.now ∧
      w'.bond.params.regionStabilityWindow = w.bond.params.regionStabilityWindow) := by
  rcases h.bond_cases with hbond | ⟨tx, c, htime, hexec, hkind⟩
  · rw [hbond]
    exact .inl ⟨rfl, rfl, rfl, .inl rfl⟩
  · have hwindow := CapacityBond.exec_window hexec
    have hmove : CapacityBond.RegionMove P.H tx c w.bond w'.bond operator :=
      CapacityBond.exec_regionMove hexec
    rcases hmove with
      ⟨hhint, hprev, hstamp⟩ | ⟨newRegion, hwrites, hsender, hhint, hprev, hstamp⟩
    · refine .inl ⟨hhint, hprev, hstamp, ?_⟩
      rcases hwindow with hsame | ⟨n, rfl, hn, hfloor⟩
      · exact .inl hsame
      · rcases hkind with rfl | hinner
        · exact .inr ⟨tx, _, rfl, by rw [hn]; exact rfl, by rw [hn]; exact hfloor⟩
        · exact absurd hinner id
    · right
      rcases hkind with rfl | hinner
      · refine ⟨tx, c, newRegion, rfl, hwrites, hsender, hhint, hprev, by rw [hstamp, htime], ?_⟩
        rcases hwindow with hsame | ⟨n, rfl, -⟩
        · exact hsame
        · cases hwrites
      · -- No other contract registers a node or moves it.
        cases c <;> first | exact absurd hinner id | cases hwrites

/-- A region write either re-declares the region, or moves the old one to the previous slot. -/
theorem regionWrite_cases (H : CapacityBond.Wiring) (bond : CapacityBond.State)
    (operator : Address) (newRegion : Bytes) :
    (H.keccak256 (bond.nodes operator).regionHint = H.keccak256 newRegion ∧
      CapacityBond.regionAfter H bond operator newRegion = (bond.nodes operator).regionHint ∧
      CapacityBond.regionPrevAfter H bond operator newRegion operator =
        bond.regionPrev operator) ∨
    (H.keccak256 (bond.nodes operator).regionHint ≠ H.keccak256 newRegion ∧
      CapacityBond.regionAfter H bond operator newRegion = newRegion ∧
      CapacityBond.regionPrevAfter H bond operator newRegion operator =
        (bond.nodes operator).regionHint) := by
  unfold CapacityBond.regionAfter CapacityBond.regionPrevAfter
  by_cases hsame : H.keccak256 (bond.nodes operator).regionHint = H.keccak256 newRegion
  · rw [if_neg (not_not.mpr hsame), if_neg (not_not.mpr hsame)]
    exact .inl ⟨hsame, rfl, rfl⟩
  · rw [if_pos hsame, if_pos hsame, Function.update_self]
    exact .inr ⟨hsame, rfl, rfl⟩

/-- The event does not move the operator from one region to another, both different from
`region`, and does not lower the stability window. -/
def KeepsRegion (P : Protocol) (operator : Address) (region : Bytes32) (w : System) :
    Event → Prop
  | .bond tx c =>
    (∀ n ∈ setsWindow c, w.bond.params.regionStabilityWindow ≤ n) ∧
    (∀ newRegion ∈ c.writesRegion, tx.sender = operator →
      P.H.keccak256 (w.bond.nodes operator).regionHint = P.H.keccak256 newRegion ∨
      pack (w.bond.nodes operator).regionHint = region ∨ pack newRegion = region)
  | _ => True

/-- The window stays open for a previous region. -/
theorem System.Step.window_pos (h : System.Step P w e w')
    (hpos : 0 < w.bond.params.regionStabilityWindow) :
    0 < w'.bond.params.regionStabilityWindow := by
  rcases h.region_cases 0 with ⟨-, -, -, hsame | ⟨tx, c, -, -, hfloor⟩⟩ |
    ⟨tx, c, newRegion, -, -, -, -, -, -, hsame⟩
  · omega
  · exact Nat.lt_of_lt_of_le (by decide) hfloor
  · omega

/-- A region in scope at a past time stays so until a move between two others. -/
theorem InScope.step {t : Nat} (hpos : 0 < w.bond.params.regionStabilityWindow)
    (hpast : t ≤ w.now) (hscope : InScope w.bond operator region t)
    (hguard : KeepsRegion P operator region w e) (h : System.Step P w e w') :
    InScope w'.bond operator region t := by
  rcases hscope with ⟨hzero, hglobal, hdeclared⟩
  refine ⟨hzero, hglobal, ?_⟩
  rcases h.region_cases operator with ⟨hhint, hprev, hstamp, hwindow⟩ |
    ⟨tx, c, newRegion, rfl, hwrites, hsender, hhint, hprev, hstamp, hwindow⟩
  · have hle : w.bond.params.regionStabilityWindow ≤ w'.bond.params.regionStabilityWindow := by
      rcases hwindow with hsame | ⟨tx, c, rfl, hsets, -⟩
      · exact Nat.le_of_eq hsame.symm
      · exact hguard.1 _ hsets
    rw [hhint, hprev, hstamp]
    rcases hdeclared with hcur | ⟨hold, hopen⟩
    · exact .inl hcur
    · exact .inr ⟨hold, Nat.lt_of_lt_of_le hopen hle⟩
  · -- The write stamps a time after `t`, so the previous slot counts from now on.
    have hopen : t - w'.bond.regionLastChanged operator < w'.bond.params.regionStabilityWindow := by
      have hnow := h.now_le
      omega
    rw [hhint, hprev]
    rcases regionWrite_cases P.H w.bond operator newRegion with ⟨-, hafter, hprev'⟩ |
      ⟨hmoved, hafter, hprev'⟩
    · rw [hafter, hprev']
      rcases hdeclared with hcur | ⟨hold, -⟩
      · exact .inl hcur
      · exact .inr ⟨hold, hopen⟩
    · rw [hafter, hprev']
      rcases hguard.2 newRegion hwrites hsender with hsame | hfrom | hto
      · exact absurd hsame hmoved
      · exact .inr ⟨hfrom, hopen⟩
      · exact .inl hto

/-! ## Entries -/

/-- An entry that is live at a time was live before, once it was there. -/
theorem live_anti {entry : HashEntry} {t now : Nat} (hle : t ≤ now)
    (h : entry.live now = true) : entry.live t = true := by
  unfold HashEntry.live at h ⊢
  rw [Bool.and_eq_true, Bool.not_eq_true'] at h ⊢
  refine ⟨h.1, ?_⟩
  by_contra hexpired
  rw [Bool.not_eq_false] at hexpired
  rw [ContentBlacklist.emergencyExpired_mono hle hexpired] at h
  exact Bool.noConfusion h.2

/-- An add keeps a live entry's times, and gives any other a grace period from now on. -/
theorem addedEntry_effectiveAt {tx : ContentBlacklist.Tx} {s : ContentBlacklist.State}
    {emergency : Bool} {category : ContentBlacklist.Category} {entry : HashEntry}
    (h : ContentBlacklist.addedEntry tx s region hash emergency category = .ok entry) :
    (isLive s tx.timestamp region hash = true ∧
      entry.effectiveAt = (s.hashEntries region hash).effectiveAt) ∨
    tx.timestamp ≤ entry.effectiveAt := by
  unfold ContentBlacklist.addedEntry at h
  dsimp only at h
  split at h
  · rename_i hlive
    left
    split at h
    · rcases Except.ok.inj h with rfl
      exact ⟨hlive, rfl⟩
    · split at h
      · rcases Except.ok.inj h with rfl
        exact ⟨hlive, rfl⟩
      · rcases Except.ok.inj h with rfl
        exact ⟨hlive, rfl⟩
  · right
    simp only [bind_eq_ok, pure_eq_ok, ContentBlacklist.timestamp_mod,
      ContentBlacklist.checkedAdd_eq_ok] at h
    rcases h with ⟨effectiveAt, ⟨-, rfl⟩, rfl⟩
    exact Nat.le_add_right _ _

/-- An entry in force before `t` is the one of `t`, or a continuation of it while it was live. -/
def Persisted (start : HashEntry) (t : Nat) (entry : HashEntry) : Prop :=
  entry.effectiveAt < t → entry.addedAt ≠ 0 → start.live t = true ∨ entry = start

theorem Persisted.effect {start : HashEntry} {t : Nat} {L : ContentBlacklist.Sets}
    {tx : ContentBlacklist.Tx} {s s' : ContentBlacklist.State} {c : ContentBlacklist.Call}
    (hpast : t ≤ tx.timestamp)
    (hkept : Persisted start t (s.hashEntries region hash))
    (h : ContentBlacklist.Effect L tx s c s') : Persisted start t (s'.hashEntries region hash) := by
  cases h with
  | added region' hash' reason emergency category entry log hwrite hglobal hadded =>
    dsimp only
    rw [ContentBlacklist.update_update_apply]
    split
    · rename_i hsame
      rcases hsame with ⟨rfl, rfl⟩
      intro hforce hpresent
      rcases addedEntry_effectiveAt hadded with ⟨hlive, heffective⟩ | hlater
      · rw [heffective] at hforce
        rcases hkept hforce (ContentBlacklist.addedAt_of_isLive hlive) with hstart | hsame
        · exact .inl hstart
        · rw [← hsame]
          exact .inl (live_anti hpast hlive)
      · omega
    · exact hkept
  | removed region' hash' log hwrite =>
    dsimp only
    rw [ContentBlacklist.update_update_apply]
    split
    · intro _ hpresent
      exact absurd rfl hpresent
    · exact hkept
  | listed a origin operator eo log =>
    rw [ContentBlacklist.syncAddr_eq]
    exact hkept
  | registered region body roles log hregion hbody hvacant hidle => exact hkept
  | deregistered region body roles log hbody hserves => exact hkept
  | suspension region rb log hsame => exact hkept
  | other window emergencyWindow roles log => exact hkept

theorem Persisted.step {start : HashEntry} {t : Nat} (hpast : t ≤ w.now)
    (hkept : Persisted start t (w.list.hashEntries region hash)) (h : System.Step P w e w') :
    Persisted start t (w'.list.hashEntries region hash) := by
  rcases h.list_cases with hlist | ⟨tx, c, htime, heffect⟩
  · rw [hlist]
    exact hkept
  · have hnow := h.now_le
    exact hkept.effect (by omega) heffect

/-- An entry that counts against a response was live when the response was served. -/
theorem live_of_liveBefore {guard : System → Event → Prop} {ts : UInt64}
    (hrun : Reaches (System.Step P) guard w w') (hts : ts.toNat = 1000000 * w.now)
    (h : liveBefore w'.now w'.list region hash ts = true) :
    isLive w.list w.now region hash = true := by
  have hkept : w.now ≤ w'.now ∧
      Persisted (w.list.hashEntries region hash) w.now (w'.list.hashEntries region hash) := by
    refine hrun.invariant (I := fun u => w.now ≤ u.now ∧ Persisted
      (w.list.hashEntries region hash) w.now (u.list.hashEntries region hash)) ?_ ?_
    · exact ⟨Nat.le_refl _, fun _ _ => .inr rfl⟩
    · rintro a ev b - hstep ⟨hle, ha⟩
      exact ⟨Nat.le_trans hle hstep.now_le, ha.step hle hstep⟩
  rcases SlashJudge.liveBefore_eq_true.mp h with ⟨hlive, hforce⟩
  rcases hkept.2 (by omega) (ContentBlacklist.addedAt_of_isLive hlive) with hstart | hsame
  · exact hstart
  · unfold isLive at hlive ⊢
    rw [hsame] at hlive
    exact live_anti hkept.1 hlive

/-! ## Moves that add no region -/

/-- No region, or one that the operator answered for when `served` was the state. -/
def Known (served : System) (operator : Address) (region : Bytes32) : Prop :=
  region = 0 ∨ region ∈ getScopeRegions served.bond served.now operator

/-- The event brings no region into the operator's scope of `served`: a move leads to a known
region, a re-declaration renews a known previous region, and the stability window is not raised. -/
def AddsNoRegion (P : Protocol) (served : System) (operator : Address) (w : System) :
    Event → Prop
  | .bond tx c =>
    (∀ n ∈ setsWindow c, n ≤ w.bond.params.regionStabilityWindow) ∧
    (∀ newRegion ∈ c.writesRegion, tx.sender = operator →
      (P.H.keccak256 (w.bond.nodes operator).regionHint = P.H.keccak256 newRegion ∧
        Known served operator (pack (w.bond.regionPrev operator))) ∨
      (P.H.keccak256 (w.bond.nodes operator).regionHint ≠ P.H.keccak256 newRegion ∧
        Known served operator (pack newRegion)))
  | _ => True

/-- The operator's region data name known regions, apart from a previous one that has ripened. -/
structure Within (served : System) (operator : Address) (bond : CapacityBond.State) : Prop where
  current : Known served operator (pack (bond.nodes operator).regionHint)
  previous : Known served operator (pack (bond.regionPrev operator)) ∨
    bond.params.regionStabilityWindow ≤ served.now - bond.regionLastChanged operator

theorem Within.refl (w : System) (operator : Address) : Within w operator w.bond := by
  have hknown : ∀ region, (region ≠ 0 → region ≠ globalRegion → InScope w.bond operator region
      w.now) → Known w operator region := by
    intro region hscope
    by_cases hzero : region = 0
    · exact .inl hzero
    · by_cases hglobal : region = globalRegion
      · exact .inr (mem_getScopeRegions.mpr (.inl hglobal))
      · exact .inr (mem_getScopeRegions.mpr (.inr (hscope hzero hglobal)))
  constructor
  · apply hknown
    intro hzero hglobal
    exact ⟨hzero, hglobal, .inl rfl⟩
  · by_cases hopen : w.now - w.bond.regionLastChanged operator <
        w.bond.params.regionStabilityWindow
    · left
      apply hknown
      intro hzero hglobal
      exact ⟨hzero, hglobal, .inr ⟨rfl, hopen⟩⟩
    · exact .inr (Nat.le_of_not_lt hopen)

theorem Within.step {served : System} (hwithin : Within served operator w.bond)
    (hguard : AddsNoRegion P served operator w e) (h : System.Step P w e w') :
    Within served operator w'.bond := by
  rcases hwithin with ⟨hcurrent, hprevious⟩
  rcases h.region_cases operator with ⟨hhint, hprev, hstamp, hwindow⟩ |
    ⟨tx, c, newRegion, rfl, hwrites, hsender, hhint, hprev, hstamp, hwindow⟩
  · have hle : w'.bond.params.regionStabilityWindow ≤ w.bond.params.regionStabilityWindow := by
      rcases hwindow with hsame | ⟨tx, c, rfl, hsets, -⟩
      · exact Nat.le_of_eq hsame
      · exact hguard.1 _ hsets
    constructor
    · rw [hhint]
      exact hcurrent
    · rw [hprev, hstamp]
      rcases hprevious with hknown | hripe
      · exact .inl hknown
      · exact .inr (Nat.le_trans hle hripe)
  · rcases regionWrite_cases P.H w.bond operator newRegion with ⟨hsame, hafter, hprev'⟩ |
      ⟨hmoved, hafter, hprev'⟩
    · rcases hguard.2 newRegion hwrites hsender with ⟨-, hknown⟩ | ⟨hne, -⟩
      · exact ⟨by rw [hhint, hafter]; exact hcurrent, .inl (by rw [hprev, hprev']; exact hknown)⟩
      · exact absurd hsame hne
    · rcases hguard.2 newRegion hwrites hsender with ⟨heq, -⟩ | ⟨-, hknown⟩
      · exact absurd heq hmoved
      · exact ⟨by rw [hhint, hafter]; exact hknown, .inl (by rw [hprev, hprev']; exact hcurrent)⟩

/-- Known regions were in scope at the time served. -/
theorem Within.scope_subset {served : System} {bond : CapacityBond.State}
    (hwithin : Within served operator bond)
    (h : region ∈ getScopeRegions bond served.now operator) :
    region ∈ getScopeRegions served.bond served.now operator := by
  rcases mem_getScopeRegions.mp h with rfl | ⟨hzero, -, rfl | ⟨rfl, hopen⟩⟩
  · exact mem_getScopeRegions.mpr (.inl rfl)
  · exact hwithin.current.resolve_left hzero
  · rcases hwithin.previous with hknown | hripe
    · exact hknown.resolve_left hzero
    · exact absurd hopen (Nat.not_lt.mpr hripe)

/-! ## Accepted challenges -/

/-- Some entry of the scope that the challenge sees was live when the response was served. -/
theorem exists_live_of_accepted {guard : System → Event → Prop} {ts : UInt64}
    (hrun : Reaches (System.Step P) guard w w') (hts : ts.toNat = 1000000 * w.now)
    (h : checkBlacklistedBefore w'.now w'.list w'.bond operator hash ts = .ok ()) :
    ∃ region ∈ getScopeRegions w'.bond w.now operator,
      isLive w.list w.now region hash = true := by
  rcases accepted_iff.mp h with ⟨region, hmem, hlive⟩
  have hsec : ts.toNat / 1000000 = w.now := by omega
  rw [hsec] at hmem
  exact ⟨region, hmem, live_of_liveBefore hrun hts hlive⟩

/-- An accepted challenge of a response served in a run whose later events add no region. -/
theorem denied_of_accepted {ts : UInt64}
    (hrun : Reaches (System.Step P) (AddsNoRegion P w operator) w w')
    (hts : ts.toNat = 1000000 * w.now)
    (h : checkBlacklistedBefore w'.now w'.list w'.bond operator hash ts = .ok ()) :
    isHashBlacklistedForOperator w.list w.bond w.now hash operator = true := by
  have hwithin : Within w operator w'.bond :=
    hrun.invariant (I := fun u => Within w operator u.bond) (.refl w operator)
      fun _ _ _ hguard hstep hu => hu.step hguard hstep
  rcases exists_live_of_accepted hrun hts h with ⟨region, hmem, hlive⟩
  exact isHashBlacklistedForOperator_iff.mpr ⟨region, hwithin.scope_subset hmem, hlive⟩

/-- No wrongful regional slash, as far as the region data go back.  For every run after a response
was served: an accepted challenge names an entry that was live at the time served, in a region of
the scope computed from the operator's region data of the challenge; and if the later events add
no region to that scope, then the operator was denied the hash at the time served, so that an
operator that serves nothing it is denied is not slashed. -/
theorem accepted_only_within_scope {ts : UInt64}
    (hrun : Reaches (System.Step P) (fun _ _ => True) w w')
    (hts : ts.toNat = 1000000 * w.now) :
    (checkBlacklistedBefore w'.now w'.list w'.bond operator hash ts = .ok () →
      ∃ region ∈ getScopeRegions w'.bond w.now operator,
        isLive w.list w.now region hash = true) ∧
    (Reaches (System.Step P) (AddsNoRegion P w operator) w w' →
      checkBlacklistedBefore w'.now w'.list w'.bond operator hash ts = .ok () →
      isHashBlacklistedForOperator w.list w.bond w.now hash operator = true) ∧
    (Reaches (System.Step P) (AddsNoRegion P w operator) w w' →
      isHashBlacklistedForOperator w.list w.bond w.now hash operator = false →
      ∀ tx nodeId data sig isStream salt r w'',
        SlashJudge.decodeServed P.J data isStream = .ok r → r.timestampUs = ts →
        ¬ System.Step P w' (.judge tx (.submitBlacklistChallenge operator nodeId hash data sig
          isStream salt)) w'') := by
  refine ⟨exists_live_of_accepted hrun hts, fun hwithin => denied_of_accepted hwithin hts, ?_⟩
  intro hwithin hallowed tx nodeId data sig isStream salt r w'' hr hserved hstep
  rcases applyJudge_cases hstep with ⟨hnow, judge, bond, hexec, -⟩
  rcases SlashJudge.submitBlacklistChallenge_cases hexec with ⟨r', hr', -, -, -, hlisted, -⟩
  rcases Except.ok.inj (hr.symm.trans hr') with rfl
  rw [hserved] at hlisted
  -- The challenge comes at its own block time, to which the run can wait.
  have hwait : Reaches (System.Step P) (AddsNoRegion P w operator) w
      { w' with now := tx.timestamp } := by
    refine @Reaches.tail _ _ _ _ _ _ _ (.wait tx.timestamp) hwithin trivial ?_
    exact if_pos hnow
  rw [denied_of_accepted hwait hts hlisted] at hallowed
  exact Bool.noConfusion hallowed

/-- Regional slash survives a move: in every run from a deployment, a regional entry that was in
scope, live and in force when the operator served the hash still counts against the response as
long as it stays in place, if no event moves the operator between two regions that are both
different from the entry's, or lowers the stability window. -/
theorem regional_entry_still_accepted {w₀ : System} {ts : UInt64}
    (hbond : ∃ n, CapacityBond.Reachable P.H ⟨n, w₀.bond⟩)
    (hlist : ∃ n, ContentBlacklist.Reachable P.L ⟨n, w₀.list⟩)
    (hserve : Reaches (System.Step P) (fun _ _ => True) w₀ w)
    (hts : ts.toNat / 1000000 = w.now) (hregion : region ≠ globalRegion)
    (hscope : region ∈ getScopeRegions w.bond w.now operator)
    (hlive : isLive w.list w.now region hash = true)
    (hforce : 1000000 * (w.list.hashEntries region hash).effectiveAt < ts.toNat)
    (hlater : Reaches (System.Step P) (KeepsRegion P operator region) w w')
    (hplace : w'.list.hashEntries region hash = w.list.hashEntries region hash) :
    checkBlacklistedBefore w'.now w'.list w'.bond operator hash ts = .ok () := by
  rcases hbond with ⟨n, hbond⟩
  rcases hlist with ⟨m, hlist⟩
  have hstart : 0 < w₀.bond.params.regionStabilityWindow ∧
      ContentBlacklist.Indexed w₀.list :=
    ⟨Nat.lt_of_lt_of_le (by decide) hbond.window_floor, hlist.inv.indexed⟩
  have hmid : 0 < w.bond.params.regionStabilityWindow ∧ ContentBlacklist.Indexed w.list := by
    refine hserve.invariant (I := fun u => 0 < u.bond.params.regionStabilityWindow ∧
      ContentBlacklist.Indexed u.list) hstart ?_
    rintro a ev b - hstep ⟨hpos, hindexed⟩
    refine ⟨hstep.window_pos hpos, ?_⟩
    rcases hstep.list_cases with hsame | ⟨tx, c, -, heffect⟩
    · rw [hsame]
      exact hindexed
    · exact hindexed.effect heffect
  have hin := (mem_getScopeRegions.mp hscope).resolve_left hregion
  have hend : w.now ≤ w'.now ∧ 0 < w'.bond.params.regionStabilityWindow ∧
      InScope w'.bond operator region w.now := by
    refine hlater.invariant (I := fun u => w.now ≤ u.now ∧
      0 < u.bond.params.regionStabilityWindow ∧ InScope u.bond operator region w.now)
      ⟨Nat.le_refl _, hmid.1, hin⟩ ?_
    rintro a ev b hguard hstep ⟨hle, hpos, ha⟩
    exact ⟨Nat.le_trans hle hstep.now_le, hstep.window_pos hpos, ha.step hpos hle hguard hstep⟩
  -- A regional entry is no emergency, so it does not lapse.
  have hlasting : isLive w'.list w'.now region hash = true := by
    have hordinary : (w.list.hashEntries region hash).emergency = false := by
      rw [← Bool.not_eq_true]
      exact fun hemergency => hregion (hmid.2.emergency region hash hemergency)
    unfold isLive at hlive ⊢
    rw [hplace]
    unfold HashEntry.live ContentBlacklist.emergencyExpired at hlive ⊢
    rw [hordinary] at hlive ⊢
    exact hlive
  rw [accepted_iff, hts]
  refine ⟨region, mem_getScopeRegions.mpr (.inr hend.2.2), ?_⟩
  rw [SlashJudge.liveBefore_eq_true, hplace]
  exact ⟨hlasting, hforce⟩

/-! ## Sample runs -/

/-- Region names `EU`, `US` and `AP`. -/
def regionEU : Bytes := [69, 85]
def regionUS : Bytes := [85, 83]
def regionAP : Bytes := [65, 80]

/-- The wired deployment with an administered blacklist. -/
def sampleListed : System :=
  { sampleWired.sys with list := ContentBlacklist.sampleDeployed.contract }

/-- An operator registers in `home`, and the body of EU lists a hash; then time passes until the
entry is in force. -/
def sampleListing (home : Bytes) : List Event :=
  [.judge (judgeTx 9 5) (.setMaxEvidenceAge 1000000000000),
    .bond (bondTx 1 10 1000000000000) (.bond 20000000000000000000000),
    .bond (bondTx 1 20 1000000000000) (.registerNode 77 [] home 1 [] []),
    .list (ContentBlacklist.sampleTx 9 30) (bondTx 60 30 0) (.grantRole .emergencyMultisig 8),
    .list (ContentBlacklist.sampleTx 9 31) (bondTx 60 31 0)
      (.registerRegionalBody (pack regionEU) 5 8),
    .list (ContentBlacklist.sampleTx 5 40) (bondTx 60 40 0) (.addHashRegional (pack regionEU) 7 []),
    .wait 700000]

/-- The operator moves to `first` right after serving. -/
def sampleMove (first : Bytes) : List Event :=
  [.bond (bondTx 1 700001 1000000000000) (.updateRegion first)]

/-- It moves on when the stability window allows it. -/
def sampleSecondMove : List Event :=
  [.bond (bondTx 1 1304801 1000000000000) (.updateRegion regionAP)]

/-- What the samples say of the state served in, `w`, and the state of the challenge, `w'`. -/
def sampleFacts (w w' : System) : Bool × Bool × Bool × Bool :=
  (decide (pack regionEU ∈ getScopeRegions w.bond w.now 1),
    isLive w.list w.now (pack regionEU) 7 &&
      decide (1000000 * (w.list.hashEntries (pack regionEU) 7).effectiveAt < 700000000000 ∧
        w.now = 700000 ∧
        w'.list.hashEntries (pack regionEU) 7 = w.list.hashEntries (pack regionEU) 7 ∧
        SlashJudge.checkStaleness w'.now w'.judge 700000000000 = .ok ()),
    isHashBlacklistedForOperator w.list w.bond w.now 7 1,
    decide (checkBlacklistedBefore w'.now w'.list w'.bond 1 7 700000000000 = .ok ()))

/-- The event is a region change of the operator. -/
def Event.isMoveOf (operator : Address) : Event → Bool
  | .bond tx (.updateRegion _) => tx.sender == operator
  | _ => false

theorem sampleListed_bond : ∃ n, CapacityBond.Reachable sampleProtocol.H ⟨n, sampleListed.bond⟩ :=
  ⟨_, sampleWired_reachable⟩

theorem sampleListed_list :
    ∃ n, ContentBlacklist.Reachable sampleProtocol.L ⟨n, sampleListed.list⟩ :=
  ⟨1, ContentBlacklist.sampleDeployed_reachable _⟩

/-- A sample run and what it shows, from its evaluation. -/
theorem sampleRun_of_eval {home : Bytes} {moves : List Event} {allowed : System → Event → Bool}
    {guard : System → Event → Prop} (hallowed : ∀ u ev, allowed u ev = true → guard u ev)
    {facts : Bool × Bool × Bool × Bool}
    (h : ((runEvents (System.apply sampleProtocol) (fun _ _ => true) sampleListed
      (sampleListing home)).bind fun w =>
        (runEvents (System.apply sampleProtocol) allowed w moves).map (sampleFacts w)) =
      some facts) :
    ∃ w w', Reaches (System.Step sampleProtocol) (fun _ _ => True) sampleListed w ∧
      Reaches (System.Step sampleProtocol) guard w w' ∧ sampleFacts w w' = facts := by
  rcases Option.bind_eq_some_iff.mp h with ⟨w, hw, hrest⟩
  rcases Option.map_eq_some_iff.mp hrest with ⟨w', hw', hfacts⟩
  exact ⟨w, w', Reaches.of_runEvents (fun _ _ _ => trivial) hw, Reaches.of_runEvents hallowed hw',
    hfacts⟩

/-- A move into EU after serving from US is slashable, although nothing was denied in US. -/
theorem relocator_slashed_for_new_region :
    ∃ w w', Reaches (System.Step sampleProtocol) (fun _ _ => True) sampleListed w ∧
      Reaches (System.Step sampleProtocol) (fun _ ev => ev.isMoveOf 1 = true) w w' ∧
      (700000000000 : UInt64).toNat = 1000000 * w.now ∧
      checkBlacklistedBefore w'.now w'.list w'.bond 1 7 700000000000 = .ok () ∧
      isHashBlacklistedForOperator w.list w.bond w.now 7 1 = false := by
  rcases @sampleRun_of_eval regionUS (sampleMove regionEU) (fun _ ev => ev.isMoveOf 1)
    (fun _ ev => ev.isMoveOf 1 = true) (fun _ _ h => h) (false, true, false, true)
    (by decide +kernel) with ⟨w, w', hserve, hlater, hfacts⟩
  simp only [sampleFacts, Prod.mk.injEq, Bool.and_eq_true, decide_eq_true_eq] at hfacts
  rcases hfacts with ⟨-, ⟨-, -, hnow, -⟩, hallowed, haccepted⟩
  exact ⟨w, w', hserve, hlater, by rw [hnow]; rfl, haccepted, hallowed⟩

/-- The challenge of a hash that was denied at the time served. -/
theorem accepted_only_within_scope_sample :
    ∃ w w', Reaches (System.Step sampleProtocol) (fun _ _ => True) w w' ∧
      (700000000000 : UInt64).toNat = 1000000 * w.now ∧
      checkBlacklistedBefore w'.now w'.list w'.bond 1 7 700000000000 = .ok () ∧
      ∃ region ∈ getScopeRegions w'.bond w.now 1, isLive w.list w.now region 7 = true := by
  rcases @sampleRun_of_eval regionEU (sampleMove regionUS) (fun _ ev => ev.isMoveOf 1)
    (fun _ _ => True) (fun _ _ _ => trivial) (true, true, true, true)
    (by decide +kernel) with ⟨w, w', -, hlater, hfacts⟩
  simp only [sampleFacts, Prod.mk.injEq, Bool.and_eq_true, decide_eq_true_eq] at hfacts
  rcases hfacts with ⟨-, ⟨-, -, hnow, -⟩, -, haccepted⟩
  have hts : (700000000000 : UInt64).toNat = 1000000 * w.now := by
    rw [hnow]
    rfl
  exact ⟨w, w', hlater, hts, haccepted, (accepted_only_within_scope hlater hts).1 haccepted⟩

/-- Two moves, a stability window apart, shed the entry while the evidence is fresh. -/
theorem two_moves_shed_entry :
    ∃ w w', Reaches (System.Step sampleProtocol) (fun _ _ => True) sampleListed w ∧
      (700000000000 : UInt64).toNat / 1000000 = w.now ∧
      pack regionEU ∈ getScopeRegions w.bond w.now 1 ∧
      isLive w.list w.now (pack regionEU) 7 = true ∧
      1000000 * (w.list.hashEntries (pack regionEU) 7).effectiveAt <
        (700000000000 : UInt64).toNat ∧
      Reaches (System.Step sampleProtocol) (fun _ ev => ev.isMoveOf 1 = true) w w' ∧
      w'.list.hashEntries (pack regionEU) 7 = w.list.hashEntries (pack regionEU) 7 ∧
      SlashJudge.checkStaleness w'.now w'.judge 700000000000 = .ok () ∧
      checkBlacklistedBefore w'.now w'.list w'.bond 1 7 700000000000 ≠ .ok () := by
  rcases @sampleRun_of_eval regionEU (sampleMove regionUS ++ sampleSecondMove)
    (fun _ ev => ev.isMoveOf 1) (fun _ ev => ev.isMoveOf 1 = true) (fun _ _ h => h)
    (true, true, true, false) (by decide +kernel) with ⟨w, w', hserve, hlater, hfacts⟩
  simp only [sampleFacts, Prod.mk.injEq, Bool.and_eq_true, decide_eq_true_eq,
    decide_eq_false_iff_not] at hfacts
  rcases hfacts with ⟨hscope, ⟨hlive, hforce, hnow, hplace, hfresh⟩, -, hrefused⟩
  exact ⟨w, w', hserve, by rw [hnow]; rfl, hscope, hlive, hforce, hlater, hplace, hfresh, hrefused⟩

/-- The event is a move of operator 1 out of EU. -/
def leavesEU (w : System) : Event → Bool
  | .bond _ (.updateRegion _) => decide (pack (w.bond.nodes 1).regionHint = pack regionEU)
  | _ => false

theorem keepsRegion_of_leavesEU (w : System) (e : Event) (h : leavesEU w e = true) :
    KeepsRegion sampleProtocol 1 (pack regionEU) w e := by
  cases e with
  | bond tx c =>
    cases c with
    | updateRegion newRegion =>
      constructor
      · intro n hn
        cases hn
      · intro _ _ _
        exact .inr (.inl (of_decide_eq_true h))
    | _ => exact absurd h Bool.false_ne_true
  | list tx inner c => exact absurd h Bool.false_ne_true
  | judge tx c => exact absurd h Bool.false_ne_true
  | wait later => exact absurd h Bool.false_ne_true

/-- One move does not shed it. -/
theorem regional_entry_still_accepted_sample :
    ∃ w w', Reaches (System.Step sampleProtocol) (fun _ _ => True) sampleListed w ∧
      pack regionEU ∈ getScopeRegions w.bond w.now 1 ∧
      Reaches (System.Step sampleProtocol) (KeepsRegion sampleProtocol 1 (pack regionEU)) w w' ∧
      checkBlacklistedBefore w'.now w'.list w'.bond 1 7 700000000000 = .ok () := by
  rcases @sampleRun_of_eval regionEU (sampleMove regionUS) leavesEU
    (KeepsRegion sampleProtocol 1 (pack regionEU)) keepsRegion_of_leavesEU
    (true, true, true, true) (by decide +kernel) with ⟨w, w', hserve, hlater, hfacts⟩
  simp only [sampleFacts, Prod.mk.injEq, Bool.and_eq_true, decide_eq_true_eq] at hfacts
  rcases hfacts with ⟨hscope, ⟨hlive, hforce, hnow, hplace, -⟩, -, -⟩
  exact ⟨w, w', hserve, hscope, hlater, regional_entry_still_accepted sampleListed_bond
    sampleListed_list hserve (by rw [hnow]; rfl) (by decide +kernel) hscope hlive hforce hlater
    hplace⟩

end Decdn.Enforcement
