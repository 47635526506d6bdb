import Decdn.ContentBlacklist.Enumeration

/-!
# The event log of the ContentBlacklist contract

A node follows the contract by its events.  What it can learn is the projection of the
storage on the two address lists and on the entries that are present, and the log replays
it: every call appends the events that lead from the old projection to the new one.

Main results:

- Theorem `exec_projection`: a call emits the events of what it changed.
- Theorem `Reachable.projection`: the log replays the projection of a reachable world.
-/

namespace Decdn.ContentBlacklist

open CapacityBond (Bytes)

variable {L : Sets} {tx : Tx} {s s' : State}

/-- The part of the storage that events report. -/
structure Projection where
  origin : Address → Bool := fun _ => false
  operator : Address → Bool := fun _ => false
  present : Bytes32 → Bytes32 → Bool := fun _ _ => false

def projection (s : State) : Projection where
  origin := s.originBlacklisted
  operator := s.isOperatorBlacklisted
  present := fun region hash => (s.hashEntries region hash).addedAt != 0

/-- What one event reports. -/
def Projection.apply (p : Projection) : Event → Projection
  | .hashBlacklisted region hash _ =>
    { p with
      present := Function.update p.present region (Function.update (p.present region) hash true) }
  | .hashRemoved region hash =>
    { p with
      present := Function.update p.present region (Function.update (p.present region) hash false) }
  | .operatorBlacklisted a => { p with operator := Function.update p.operator a true }
  | .operatorBlacklistCleared a => { p with operator := Function.update p.operator a false }
  | .originBlacklistUpdated a b => { p with origin := Function.update p.origin a b }
  | _ => p

/-- What a log reports. -/
def replay (log : List Event) : Projection := log.foldl Projection.apply {}

/-- A call appends the events that lead to its projection. -/
def Reports (s s' : State) : Prop :=
  ∃ new, s'.log = s.log ++ new ∧ projection s' = new.foldl Projection.apply (projection s)

/-! ## Entries -/

theorem present_setEntry (s : State) (region hash : Bytes32) (e : HashEntry) :
    (fun r h => ((s.setEntry region hash e).hashEntries r h).addedAt != 0) =
      Function.update (projection s).present region
        (Function.update ((projection s).present region) hash (e.addedAt != 0)) := by
  funext r h
  unfold State.setEntry projection
  dsimp only
  rcases eq_or_ne r region with rfl | hr
  · rw [Function.update_self, Function.update_self]
    rcases eq_or_ne h hash with rfl | hh
    · rw [Function.update_self, Function.update_self]
    · rw [Function.update_of_ne hh, Function.update_of_ne hh]
  · rw [Function.update_of_ne hr, Function.update_of_ne hr]

theorem addHash_reports {region hash : Bytes32} {reason : Bytes} {emergency : Bool}
    {category : Category}
    (h : addHash L.hashes tx s region hash reason emergency category = .ok s') :
    Reports s s' := by
  unfold addHash at h
  split at h
  · cases h
  simp only [bind_eq_ok, pure_eq_ok] at h
  rcases h with ⟨e, hadded, rfl⟩
  have hpresent : (e.addedAt != 0) = true := bne_iff_ne.mpr (addedEntry_cases hadded).1
  refine ⟨[.hashBlacklisted region hash reason], rfl, ?_⟩
  have hentries := present_setEntry s region hash e
  rw [hpresent] at hentries
  exact congrArg (fun present => Projection.mk s.originBlacklisted s.isOperatorBlacklisted present)
    hentries

theorem removeHash_reports {region hash : Bytes32}
    (h : removeHash L.hashes s region hash = .ok s') : Reports s s' := by
  unfold removeHash at h
  split at h
  · cases h
  rcases Except.ok.inj h with rfl
  refine ⟨[.hashRemoved region hash], rfl, ?_⟩
  exact congrArg (fun present => Projection.mk s.originBlacklisted s.isOperatorBlacklisted present)
    (present_setEntry s region hash {})

/-! ## Addresses -/

/-- The index is not part of the projection. -/
theorem projection_syncAddr (A : SetOps Address) (a : Address) :
    projection (syncAddr A tx s a) = projection s ∧ (syncAddr A tx s a).log = s.log := by
  unfold syncAddr
  split
  · exact ⟨rfl, rfl⟩
  · exact ⟨rfl, rfl⟩

/-- A write to the lists of one address, reported by one event. -/
theorem reports_sync (A : SetOps Address) (a : Address) {t : State} (e : Event)
    (hlog : t.log = s.log) (hproj : projection t = (projection s).apply e) :
    Reports s ((syncAddr A tx t a).emit e) := by
  rcases @projection_syncAddr tx t A a with ⟨hsync, hsynclog⟩
  refine ⟨[e], ?_, ?_⟩
  · rw [State.emit, hsynclog, hlog]
  · change projection (syncAddr A tx t a) = _
    rw [hsync, hproj]
    rfl

/-- A further event that reports nothing. -/
theorem Reports.silent {t : State} (h : Reports s t) {e : Event}
    (he : ∀ p : Projection, p.apply e = p) : Reports s (t.emit e) := by
  rcases h with ⟨new, hlog, hproj⟩
  refine ⟨new ++ [e], ?_, ?_⟩
  · rw [State.emit, hlog, List.append_assoc]
  · rw [List.foldl_append, ← hproj]
    exact (he _).symm

theorem emergencyAddOrigin_reports {operator : Address} {category : UInt8} {reason : Bytes}
    (h : emergencyAddOrigin L.addrs tx s operator category reason = .ok s') : Reports s s' := by
  unfold emergencyAddOrigin at h
  simp only [bind_eq_ok] at h
  rcases h with ⟨_, -, h⟩
  split at h
  · cases h
  split at h
  · cases h
  simp only [bind_eq_ok, pure_eq_ok] at h
  rcases h with ⟨cat, -, rfl⟩
  refine Reports.silent ?_ fun _ => rfl
  exact reports_sync L.addrs operator (.originBlacklistUpdated operator true) rfl rfl

theorem expireEmergencyOrigin_reports {origin : Address}
    (h : expireEmergencyOrigin L.addrs tx s origin = .ok s') : Reports s s' := by
  unfold expireEmergencyOrigin at h
  dsimp only at h
  split at h
  · cases h
  rcases Except.ok.inj h with rfl
  exact reports_sync L.addrs origin (.originBlacklistUpdated origin false) rfl rfl

theorem setOriginBlacklist_reports {origin : Address} {blacklisted : Bool}
    (h : setOriginBlacklist L.addrs tx s origin blacklisted = .ok s') : Reports s s' := by
  unfold setOriginBlacklist at h
  simp only [bind_eq_ok] at h
  rcases h with ⟨_, -, h⟩
  split at h
  · cases h
  rcases pure_eq_ok.mp h with rfl
  exact reports_sync L.addrs origin (.originBlacklistUpdated origin blacklisted) rfl rfl

theorem Reports.refl (s : State) : Reports s s := ⟨[], (List.append_nil _).symm, rfl⟩

theorem addOperator_reports {operator : Address} {out : Option CapacityBond.Call}
    (h : addOperator L.addrs tx s operator = .ok (s', out)) : Reports s s' := by
  unfold addOperator at h
  simp only [bind_eq_ok] at h
  rcases h with ⟨_, -, h⟩
  split at h
  · cases h
  split at h
  · rcases Prod.mk.inj (pure_eq_ok.mp h) with ⟨rfl, -⟩
    exact .refl s
  · rcases Prod.mk.inj (pure_eq_ok.mp h) with ⟨rfl, -⟩
    exact reports_sync L.addrs operator (.operatorBlacklisted operator) rfl rfl

theorem removeOperator_reports {operator : Address} {out : Option CapacityBond.Call}
    (h : removeOperator L.addrs tx s operator = .ok (s', out)) : Reports s s' := by
  unfold removeOperator at h
  simp only [bind_eq_ok] at h
  rcases h with ⟨_, -, h⟩
  split at h
  · cases h
  split at h
  · rcases Prod.mk.inj (pure_eq_ok.mp h) with ⟨rfl, -⟩
    exact reports_sync L.addrs operator (.operatorBlacklistCleared operator) rfl rfl
  · rcases Prod.mk.inj (pure_eq_ok.mp h) with ⟨rfl, -⟩
    exact .refl s

/-! ## Every call -/

/-- Calls that touch neither list and no entry emit events of other kinds. -/
theorem exec_projection {c : Call} {out : Option CapacityBond.Call}
    (h : exec L tx s c = .ok (s', out)) : Reports s s' := by
  cases c with
  | addOperator operator => exact addOperator_reports h
  | removeOperator operator => exact removeOperator_reports h
  | emergencyAddOrigin operator category reason =>
    exact emergencyAddOrigin_reports (quiet_eq_ok.mp h).1
  | expireEmergencyOrigin origin => exact expireEmergencyOrigin_reports (quiet_eq_ok.mp h).1
  | setOriginBlacklist origin blacklisted => exact setOriginBlacklist_reports (quiet_eq_ok.mp h).1
  | addHashGlobal hash reason =>
    have hadd := (quiet_eq_ok.mp h).1
    simp only [addHashGlobal, bind_eq_ok] at hadd
    rcases hadd with ⟨_, -, hadd⟩
    exact addHash_reports hadd
  | addHashRegional region hash reason =>
    have hadd := (quiet_eq_ok.mp h).1
    simp only [addHashRegional, bind_eq_ok] at hadd
    rcases hadd with ⟨_, -, _, -, _, -, hadd⟩
    exact addHash_reports hadd
  | removeHashGlobal hash =>
    have hremove := (quiet_eq_ok.mp h).1
    simp only [removeHashGlobal, bind_eq_ok] at hremove
    rcases hremove with ⟨_, -, hremove⟩
    exact removeHash_reports hremove
  | removeHashRegional region hash =>
    have hremove := (quiet_eq_ok.mp h).1
    simp only [removeHashRegional, bind_eq_ok] at hremove
    rcases hremove with ⟨_, -, _, -, _, -, hremove⟩
    exact removeHash_reports hremove
  | emergencyAdd hash category reason =>
    have hadd := (quiet_eq_ok.mp h).1
    simp only [emergencyAdd, bind_eq_ok] at hadd
    rcases hadd with ⟨_, -, hadd⟩
    split at hadd
    · cases hadd
    simp only [bind_eq_ok] at hadd
    rcases hadd with ⟨_, -, hadd⟩
    exact addHash_reports hadd
  | expireEmergencyEntry region hash =>
    have hremove := (quiet_eq_ok.mp h).1
    unfold expireEmergencyEntry at hremove
    dsimp only at hremove
    split at hremove
    · cases hremove
    split at hremove
    · cases hremove
    exact removeHash_reports hremove
  | setComplianceWindow newWindow =>
    have hset := (quiet_eq_ok.mp h).1
    simp only [setComplianceWindow, bind_eq_ok, pure_eq_ok] at hset
    rcases hset with ⟨_, -, _, -, rfl⟩
    exact ⟨_, rfl, rfl⟩
  | setEmergencyComplianceWindow newWindow =>
    have hset := (quiet_eq_ok.mp h).1
    simp only [setEmergencyComplianceWindow, bind_eq_ok, pure_eq_ok] at hset
    rcases hset with ⟨_, -, _, -, rfl⟩
    exact ⟨_, rfl, rfl⟩
  | registerRegionalBody region body emergencyMultisig =>
    have hset := (quiet_eq_ok.mp h).1
    simp only [registerRegionalBody, bind_eq_ok] at hset
    rcases hset with ⟨_, -, _, -, hset⟩
    split at hset
    · cases hset
    split at hset
    · cases hset
    split at hset
    · cases hset
    split at hset
    · cases hset
    split at hset
    · cases hset
    simp only [bind_eq_ok, pure_eq_ok] at hset
    rcases hset with ⟨_, -, rfl⟩
    exact ⟨_, rfl, rfl⟩
  | deregisterRegionalBody region =>
    have hset := (quiet_eq_ok.mp h).1
    simp only [deregisterRegionalBody, bind_eq_ok, pure_eq_ok] at hset
    rcases hset with ⟨_, -, _, -, rfl⟩
    exact ⟨_, rfl, rfl⟩
  | suspendRegionalBody region =>
    have hset := (quiet_eq_ok.mp h).1
    simp only [suspendRegionalBody, bind_eq_ok] at hset
    rcases hset with ⟨_, -, _, -, hset⟩
    split at hset
    · cases hset
    rcases pure_eq_ok.mp hset with rfl
    exact ⟨_, rfl, rfl⟩
  | ratifyRegionalBodySuspension region =>
    have hset := (quiet_eq_ok.mp h).1
    simp only [ratifyRegionalBodySuspension, bind_eq_ok] at hset
    rcases hset with ⟨_, -, _, -, hset⟩
    split at hset
    · cases hset
    split at hset
    · rcases pure_eq_ok.mp hset with rfl
      exact ⟨_, rfl, rfl⟩
    · simp only [bind_eq_ok] at hset
      rcases hset with ⟨_, -, hset⟩
      split at hset
      · cases hset
      rcases pure_eq_ok.mp hset with rfl
      exact ⟨_, rfl, rfl⟩
  | unsuspendRegionalBody region =>
    have hset := (quiet_eq_ok.mp h).1
    simp only [unsuspendRegionalBody, bind_eq_ok] at hset
    rcases hset with ⟨_, -, _, -, hset⟩
    split at hset
    · cases hset
    rcases pure_eq_ok.mp hset with rfl
    exact ⟨_, rfl, rfl⟩
  | grantRole role account =>
    have hset := (quiet_eq_ok.mp h).1
    simp only [assignRole, bind_eq_ok, pure_eq_ok] at hset
    rcases hset with ⟨_, -, rfl⟩
    exact .refl s
  | revokeRole role account =>
    have hset := (quiet_eq_ok.mp h).1
    simp only [assignRole, bind_eq_ok, pure_eq_ok] at hset
    rcases hset with ⟨_, -, rfl⟩
    exact .refl s
  | renounceRole role account =>
    have hset := (quiet_eq_ok.mp h).1
    unfold renounceRole at hset
    split at hset
    · cases hset
    rcases Except.ok.inj hset with rfl
    exact .refl s

/-- A step only adds to the log, and the log keeps replaying the projection. -/
theorem Step.reports {w w' : World} (h : Step L w w') : Reports w.contract w'.contract := by
  cases h with
  | call tx c hnow hexec => exact exec_projection hexec
  | wait later hnow => exact .refl _

/-- The log of a reachable world replays its projection. -/
theorem Reachable.projection {w : World} (h : Reachable L w) :
    ContentBlacklist.projection w.contract = replay w.contract.log := by
  induction h with
  | deployed now capacityBond admin hdeploy =>
    unfold deploy at hdeploy
    split at hdeploy
    · cases hdeploy
    rcases Except.ok.inj hdeploy with rfl
    rfl
  | step _ hstep ih =>
    rcases hstep.reports with ⟨new, hlog, hproj⟩
    rw [hproj, ih, hlog, replay, replay, List.foldl_append]

end Decdn.ContentBlacklist
