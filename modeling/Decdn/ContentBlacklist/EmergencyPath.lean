import Decdn.ContentBlacklist.Enumeration

/-!
# The emergency path

What the multisig's adds do to the denials in force.  An add over a hash may only raise the
category of its live entry.  An add over an origin restamps the record with the category it is
given, so a lower category can bring its deadline forward.

Main results:

- Theorem `emergencyAdd_strengthens`: an emergency add of a hash never weakens a denial.
- Theorem `emergencyAddOrigin_strengthens_iff`: one of an origin does not exactly if it keeps
  the deadline of a live record.
- Theorem `emergency_strengthens_iff`: both, for every call of the path.
- Theorem `origin_downgrade`: an origin denied for 90 days is denied for 14 days after a
  second add.
-/

namespace Decdn.ContentBlacklist

open CapacityBond (Bytes)

variable {L : Sets} {tx : Tx} {s s' : State} {now later : Nat}

/-! ## Deadlines -/

/-- Any category's term is at most the severe one. -/
theorem expiryFor_le (category : UInt8) : expiryFor category ≤ emergencyExpirySevere := by
  unfold expiryFor emergencyExpiryGeneral emergencyExpirySevere
  split
  · omega
  · omega

/-- A higher category has no shorter term. -/
theorem expiryFor_mono {a b : UInt8} (h : a < b) : expiryFor a ≤ expiryFor b := by
  have hb : b ≠ Category.general.toUInt8 := by
    rintro rfl
    exact absurd h (Nat.not_lt_zero _)
  calc expiryFor a ≤ emergencyExpirySevere := expiryFor_le a
    _ = expiryFor b := (if_neg hb).symm

/-- `_toCategory` keeps the ordinal. -/
theorem toCategory_eq_ok {category : UInt8} {cat : Category} (h : toCategory category = .ok cat) :
    cat.toUInt8 = category := by
  unfold toCategory at h
  split at h
  · rename_i hzero
    cases h
    exact hzero.symm
  · split at h
    · rename_i hone
      cases h
      exact hone.symm
    · split at h
      · rename_i htwo
        cases h
        exact htwo.symm
      · cases h

/-- An emergency entry is in force up to its deadline. -/
theorem emergencyExpired_eq_false_iff {emergency : Bool} {addedAt : Nat} {category : UInt8} :
    emergencyExpired now emergency addedAt category = false ↔
      (emergency = true → addedAt ≠ 0 → now ≤ addedAt + expiryFor category) := by
  unfold emergencyExpired
  cases emergency with
  | false => simp
  | true =>
    rw [Bool.true_and, Bool.and_eq_false_iff, bne_eq_false_iff_eq, decide_eq_false_iff_not,
      Nat.not_lt]
    constructor
    · rintro (hzero | hle) - hadded
      · exact absurd hzero hadded
      · exact hle
    · intro h
      exact (Decidable.em (addedAt = 0)).imp id (h rfl)

/-- What an entry in force is. -/
theorem HashEntry.live_iff {e : HashEntry} :
    e.live now = true ↔
      e.addedAt ≠ 0 ∧ (e.emergency = true → now ≤ e.addedAt + expiryFor e.category) := by
  unfold HashEntry.live
  rw [Bool.and_eq_true, bne_iff_ne, Bool.not_eq_true', emergencyExpired_eq_false_iff]
  exact ⟨fun ⟨hadded, h⟩ => ⟨hadded, fun he => h he hadded⟩, fun ⟨hadded, h⟩ =>
    ⟨hadded, fun he _ => h he⟩⟩

/-- What is in force later is in force now. -/
theorem HashEntry.live_anti {e : HashEntry} (hle : now ≤ later) (h : e.live later = true) :
    e.live now = true := by
  rw [HashEntry.live_iff] at h ⊢
  exact ⟨h.1, fun he => Nat.le_trans hle (h.2 he)⟩

/-- What an origin in force is. -/
theorem isOriginBlacklisted_iff {origin : Address} :
    isOriginBlacklisted s now origin = true ↔
      s.originBlacklisted origin = true ∧ ((s.emergencyOrigins origin).addedAt ≠ 0 →
        now ≤ (s.emergencyOrigins origin).addedAt +
          expiryFor (s.emergencyOrigins origin).category) := by
  unfold isOriginBlacklisted
  rw [Bool.and_eq_true, Bool.not_eq_true', emergencyExpired_eq_false_iff, bne_iff_ne]
  exact and_congr_right fun _ => ⟨fun h hadded => h hadded hadded, fun h hadded _ => h hadded⟩

/-! ## What the path promises -/

/-- No denial in force at `now` or later is lost, no governance entry becomes an emergency one, and
the entries in force keep their times. -/
structure Strengthens (now : Nat) (s s' : State) : Prop where
  hashes : ∀ u, now ≤ u → ∀ region hash, isLive s u region hash = true →
    isLive s' u region hash = true
  origins : ∀ u, now ≤ u → ∀ origin, isOriginBlacklisted s u origin = true →
    isOriginBlacklisted s' u origin = true
  governance_hash : ∀ region hash, (s.hashEntries region hash).addedAt ≠ 0 →
    (s.hashEntries region hash).emergency = false →
      s'.hashEntries region hash = s.hashEntries region hash
  governance_origin : ∀ origin, s.originBlacklisted origin = true →
    (s.emergencyOrigins origin).addedAt = 0 →
      s'.originBlacklisted origin = true ∧ (s'.emergencyOrigins origin).addedAt = 0
  times : ∀ region hash, isLive s now region hash = true →
    (s'.hashEntries region hash).addedAt = (s.hashEntries region hash).addedAt ∧
      (s'.hashEntries region hash).effectiveAt = (s.hashEntries region hash).effectiveAt

/-! ## Hashes -/

/-- An emergency add leaves in force what is in force, with its times. -/
theorem addedEntry_strengthens {region hash : Bytes32} {category : Category} {e : HashEntry}
    (h : addedEntry tx s region hash true category = .ok e) :
    (∀ u, tx.timestamp ≤ u → (s.hashEntries region hash).live u = true → e.live u = true) ∧
      (isLive s tx.timestamp region hash = true →
        e.addedAt = (s.hashEntries region hash).addedAt ∧
          e.effectiveAt = (s.hashEntries region hash).effectiveAt) := by
  unfold addedEntry at h
  dsimp only at h
  split at h
  · rw [if_neg Bool.noConfusion] at h
    split at h
    · rename_i hescalates
      cases h
      refine ⟨fun u _ hlive => ?_, fun _ => ⟨rfl, rfl⟩⟩
      rw [HashEntry.live_iff] at hlive ⊢
      exact ⟨hlive.1, fun he => Nat.le_trans (hlive.2 he)
        (Nat.add_le_add_left (expiryFor_mono hescalates) _)⟩
    · cases h
      exact ⟨fun _ _ hlive => hlive, fun _ => ⟨rfl, rfl⟩⟩
  · rename_i hlapsed
    exact ⟨fun u hu hlive => absurd (HashEntry.live_anti hu hlive) hlapsed, fun hlive =>
      absurd hlive hlapsed⟩

/-- What `emergencyAdd` writes. -/
theorem emergencyAdd_cases {hash : Bytes32} {category : UInt8} {reason : Bytes}
    (h : emergencyAdd L.hashes tx s hash category reason = .ok s') :
    ∃ e cat, addedEntry tx s globalRegion hash true cat = .ok e ∧
      ¬ ((s.hashEntries globalRegion hash).addedAt ≠ 0 ∧
        (s.hashEntries globalRegion hash).emergency = false) ∧
      s'.hashEntries = Function.update s.hashEntries globalRegion
        (Function.update (s.hashEntries globalRegion) hash e) ∧
      s'.originBlacklisted = s.originBlacklisted ∧ s'.emergencyOrigins = s.emergencyOrigins := by
  unfold emergencyAdd at h
  simp only [bind_eq_ok] at h
  rcases h with ⟨_, -, h⟩
  split at h
  · cases h
  rename_i hopen
  simp only [bind_eq_ok] at h
  rcases h with ⟨cat, -, h⟩
  unfold addHash at h
  split at h
  · cases h
  simp only [bind_eq_ok, pure_eq_ok] at h
  rcases h with ⟨e, he, rfl⟩
  exact ⟨e, cat, he, hopen, rfl, rfl, rfl⟩

/-- An emergency add of a hash weakens nothing. -/
theorem emergencyAdd_strengthens {hash : Bytes32} {category : UInt8} {reason : Bytes}
    (h : emergencyAdd L.hashes tx s hash category reason = .ok s') :
    Strengthens tx.timestamp s s' := by
  rcases emergencyAdd_cases h with ⟨e, cat, he, hopen, hentries, horigin, hexpiry⟩
  rcases addedEntry_strengthens he with ⟨hlive, htimes⟩
  have hentry : ∀ region hash', s'.hashEntries region hash' =
      if region = globalRegion ∧ hash' = hash then e else s.hashEntries region hash' := by
    intro region hash'
    rw [hentries, update_update_apply]
  refine ⟨?_, ?_, ?_, ?_, ?_⟩
  · intro u hu region hash' hold
    unfold isLive at hold ⊢
    rw [hentry]
    split
    · rename_i heq
      rcases heq with ⟨rfl, rfl⟩
      exact hlive u hu hold
    · exact hold
  · intro u _ origin hold
    rw [isOriginBlacklisted_iff] at hold ⊢
    rw [horigin, hexpiry]
    exact hold
  · intro region hash' hadded hgov
    rw [hentry, if_neg]
    rintro ⟨rfl, rfl⟩
    exact hopen ⟨hadded, hgov⟩
  · intro origin hlisted hgov
    rw [horigin, hexpiry]
    exact ⟨hlisted, hgov⟩
  · intro region hash' hold
    rw [hentry]
    split
    · rename_i heq
      rcases heq with ⟨rfl, rfl⟩
      exact htimes hold
    · exact ⟨rfl, rfl⟩

/-! ## Origins -/

/-- What `emergencyAddOrigin` writes. -/
theorem emergencyAddOrigin_cases {operator : Address} {category : UInt8} {reason : Bytes}
    (h : emergencyAddOrigin L.addrs tx s operator category reason = .ok s') :
    ¬ (s.originBlacklisted operator = true ∧ (s.emergencyOrigins operator).addedAt = 0) ∧
      s'.hashEntries = s.hashEntries ∧
      s'.originBlacklisted = Function.update s.originBlacklisted operator true ∧
      s'.emergencyOrigins =
        Function.update s.emergencyOrigins operator ⟨tx.timestamp, category⟩ := by
  unfold emergencyAddOrigin at h
  simp only [bind_eq_ok] at h
  rcases h with ⟨_, -, h⟩
  split at h
  · cases h
  split at h
  · cases h
  rename_i hopen
  simp only [bind_eq_ok, pure_eq_ok] at h
  rcases h with ⟨cat, hcat, rfl⟩
  refine ⟨hopen, ?_, ?_, ?_⟩
  · simp only [State.emit, syncAddr_eq]
  · simp only [State.emit, syncAddr_eq]
  · simp only [State.emit, syncAddr_eq, timestamp_mod, toCategory_eq_ok hcat]

/-- The new record of an origin lasts at least as long as the one in force. -/
def KeepsDeadline (now : Nat) (s : State) (operator : Address) (category : UInt8) : Prop :=
  isOriginBlacklisted s now operator = true →
    (s.emergencyOrigins operator).addedAt + expiryFor (s.emergencyOrigins operator).category ≤
      now + expiryFor category

/-- An emergency add of an origin weakens nothing exactly if the new record lasts as long. -/
theorem emergencyAddOrigin_strengthens_iff {operator : Address} {category : UInt8} {reason : Bytes}
    (h : emergencyAddOrigin L.addrs tx s operator category reason = .ok s') :
    Strengthens tx.timestamp s s' ↔ KeepsDeadline tx.timestamp s operator category := by
  rcases emergencyAddOrigin_cases h with ⟨hopen, hentries, horigin, hexpiry⟩
  have hnew : ∀ u, isOriginBlacklisted s' u operator = true ↔
      u ≤ tx.timestamp + expiryFor category := by
    intro u
    rw [isOriginBlacklisted_iff, horigin, hexpiry, Function.update_self, Function.update_self]
    have hpos := tx.timestamp_pos
    exact ⟨fun h => h.2 (Nat.ne_of_gt hpos), fun h => ⟨rfl, fun _ => h⟩⟩
  constructor
  · intro hstrong hlisted
    rw [isOriginBlacklisted_iff] at hlisted
    have hadded : (s.emergencyOrigins operator).addedAt ≠ 0 := fun hzero => hopen ⟨hlisted.1, hzero⟩
    -- At its old deadline the origin is still denied.
    refine (hnew _).mp (hstrong.origins _ (hlisted.2 hadded) operator ?_)
    exact isOriginBlacklisted_iff.mpr ⟨hlisted.1, fun _ => Nat.le_refl _⟩
  · intro hkeeps
    refine ⟨?_, ?_, ?_, ?_, ?_⟩
    · intro u _ region hash hold
      unfold isLive at hold ⊢
      rw [hentries]
      exact hold
    · intro u hu origin hold
      rcases eq_or_ne origin operator with rfl | hne
      · have hlisted := isOriginBlacklisted_anti hu hold
        rw [isOriginBlacklisted_iff] at hold
        have hadded : (s.emergencyOrigins origin).addedAt ≠ 0 :=
          fun hzero => hopen ⟨hold.1, hzero⟩
        exact (hnew u).mpr (Nat.le_trans (hold.2 hadded) (hkeeps hlisted))
      · rw [isOriginBlacklisted_iff] at hold ⊢
        rw [horigin, hexpiry, Function.update_of_ne hne, Function.update_of_ne hne]
        exact hold
    · intro region hash _ _
      rw [hentries]
    · intro origin hlisted hgov
      rcases eq_or_ne origin operator with rfl | hne
      · exact absurd ⟨hlisted, hgov⟩ hopen
      · rw [horigin, hexpiry, Function.update_of_ne hne, Function.update_of_ne hne]
        exact ⟨hlisted, hgov⟩
    · intro region hash _
      rw [hentries]
      exact ⟨rfl, rfl⟩

/-! ## The path -/

/-- The calls of the emergency path. -/
def Call.emergency : Call → Bool
  | .emergencyAdd .. => true
  | .emergencyAddOrigin .. => true
  | _ => false

/-- The call brings no deadline forward: only one that lowers the category of a live origin record
can. -/
def Call.KeepsDeadlines (now : Nat) (s : State) : Call → Prop
  | .emergencyAddOrigin operator category _ => KeepsDeadline now s operator category
  | _ => True

/-- From any state, a call of the emergency path only ever strengthens the denials exactly if it
brings no deadline of an origin forward. -/
theorem emergency_strengthens_iff {c : Call} {out : Option CapacityBond.Call}
    (hcall : c.emergency = true) (hexec : exec L tx s c = .ok (s', out)) :
    Strengthens tx.timestamp s s' ↔ c.KeepsDeadlines tx.timestamp s := by
  cases c with
  | emergencyAdd hash category reason =>
    exact iff_of_true (emergencyAdd_strengthens (quiet_eq_ok.mp hexec).1) trivial
  | emergencyAddOrigin operator category reason =>
    exact emergencyAddOrigin_strengthens_iff (quiet_eq_ok.mp hexec).1
  | _ => cases hcall

/-- Governance names the multisig 8, and it adds origin 6 with a category. -/
def sampleEmergency (category : UInt8) : List (Tx × Call) :=
  [(sampleTx 9 110, .grantRole .emergencyMultisig 8),
    (sampleTx 8 120, .emergencyAddOrigin 6 category [])]

/-- The states before and after the multisig adds the origin once more. -/
def sampleTwice (before after : UInt8) : Option (World × State) :=
  (runEvents (World.apply sampleSets) (fun _ _ => true) sampleDeployed
    (sampleEmergency before)).bind fun w =>
      (exec sampleSets (sampleTx 8 130) w.contract (.emergencyAddOrigin 6 after [])).toOption.map
        fun r => (w, r.1)

/-- They are those of a run and of a call that returns. -/
theorem sampleTwice_spec {before after : UInt8} {w : World} {t : State}
    (h : sampleTwice before after = some (w, t)) :
    Reachable sampleSets w ∧ ∃ out, exec sampleSets (sampleTx 8 130) w.contract
      (.emergencyAddOrigin 6 after []) = .ok (t, out) := by
  rcases Option.bind_eq_some_iff.mp h with ⟨w', hw, hcall⟩
  rcases Option.map_eq_some_iff.mp hcall with ⟨⟨t', out⟩, hexec, heq⟩
  cases heq
  refine ⟨(sampleDeployed_reachable sampleSets).of_runEvents hw, out, ?_⟩
  cases hresult : exec sampleSets (sampleTx 8 130) w.contract (.emergencyAddOrigin 6 after []) with
  | error e =>
    rw [hresult] at hexec
    cases hexec
  | ok r =>
    rw [hresult] at hexec
    exact congrArg Except.ok (Option.some.inj hexec)

/-- Adding the origin again under a severe category strengthens the denial. -/
theorem emergency_strengthens_iff_sample :
    ∃ w t, Reachable sampleSets w ∧ Strengthens 130 w.contract t := by
  have hrun : (sampleTwice 0 1).map (fun r =>
      decide ((r.1.contract.emergencyOrigins 6).addedAt +
        expiryFor (r.1.contract.emergencyOrigins 6).category ≤ 130 + expiryFor 1)) =
      some true := by
    decide +kernel
  rcases Option.map_eq_some_iff.mp hrun with ⟨⟨w, t⟩, hr, hkeeps⟩
  rcases sampleTwice_spec hr with ⟨hreach, out, hexec⟩
  exact ⟨w, t, hreach, (emergency_strengthens_iff rfl hexec).mpr fun _ =>
    of_decide_eq_true hkeeps⟩

/-- Adding it again under the general category, ten seconds after a severe one, ends its denial 76
days earlier. -/
theorem origin_downgrade :
    ∃ w t out, Reachable sampleSets w ∧
      exec sampleSets (sampleTx 8 130) w.contract (.emergencyAddOrigin 6 0 []) = .ok (t, out) ∧
      isOriginBlacklisted w.contract (120 + emergencyExpirySevere) 6 = true ∧
      isOriginBlacklisted t (130 + emergencyExpiryGeneral + 1) 6 = false ∧
      ¬ Strengthens 130 w.contract t := by
  have hrun : (sampleTwice 1 0).map (fun r =>
      (isOriginBlacklisted r.1.contract (120 + emergencyExpirySevere) 6,
        isOriginBlacklisted r.2 (130 + emergencyExpiryGeneral + 1) 6,
        isOriginBlacklisted r.2 (120 + emergencyExpirySevere) 6)) = some (true, false, false) := by
    decide +kernel
  rcases Option.map_eq_some_iff.mp hrun with ⟨⟨w, t⟩, hr, hviews⟩
  rcases sampleTwice_spec hr with ⟨hreach, out, hexec⟩
  rcases Prod.mk.inj hviews with ⟨hbefore, hrest⟩
  rcases Prod.mk.inj hrest with ⟨hearly, hafter⟩
  refine ⟨w, t, out, hreach, hexec, hbefore, hearly, fun hstrong => ?_⟩
  have hlost := hstrong.origins (120 + emergencyExpirySevere)
    (by unfold emergencyExpirySevere; omega) 6 hbefore
  exact Bool.noConfusion (hafter.symm.trans hlost)

end Decdn.ContentBlacklist
