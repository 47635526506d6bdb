import Decdn.ContentBlacklist.Contract
import Decdn.Foundations.Fallible

/-!
# What a ContentBlacklist call writes

Every call of the contract writes one of five groups of its storage.  `Effect`
lists them with what the call has checked; later files argue by its cases and
never unfold the functions again.

Main results:

- Theorem `addHash_effect` and Theorem `removeHash_effect`: the two entry writes.
- Theorem `syncAddr_eq`: the index follows the two address lists.
- Theorem `exec_effect`: every call has one of the listed effects.
- Theorem `exec_out`: the only further calls are ejections and reinstatements.
-/

namespace Decdn.ContentBlacklist

open CapacityBond (Bytes)

variable {L : Sets} {tx : Tx} {s s' : State} {c : Call}

/-! ## Guards -/

theorem onlyRole_eq_ok {role : Role} {u : Unit} :
    onlyRole tx s role = .ok u ↔ s.roles role tx.sender = true :=
  Guard.require_eq_ok

theorem checkedAdd_eq_ok {a b r : Nat} : checkedAdd a b = .ok r ↔ a + b ≤ u64Max ∧ r = a + b :=
  Guard.add_eq_ok

theorem checkRegion_eq_ok {region : Bytes32} {u : Unit} :
    checkRegion region = .ok u ↔ region ≠ 0 ∧ region ≠ globalRegion := by
  unfold checkRegion
  rw [← not_or]
  split <;> simp_all

theorem requireRegisteredBody_eq_ok {region : Bytes32} {body : Address} :
    requireRegisteredBody s region = .ok body ↔
      body ≠ 0 ∧ (s.regionalBodies region).body = body := by
  unfold requireRegisteredBody
  split
  · rename_i hzero
    simp only [reduceCtorEq, false_iff, not_and]
    rintro hne rfl
    exact hne hzero
  · rename_i hne
    rw [Except.ok.injEq]
    constructor
    · rintro rfl
      exact ⟨hne, rfl⟩
    · exact fun h => h.2

/-- The sender is the region's body, and not suspended. -/
def ActiveBody (tx : Tx) (s : State) (region : Bytes32) : Prop :=
  (s.regionalBodies region).body = tx.sender ∧
    (s.regionalBodies region).suspended tx.timestamp = false

theorem requireActiveBodyFor_eq_ok {region : Bytes32} {u : Unit} :
    requireActiveBodyFor tx s region = .ok u ↔ ActiveBody tx s region := by
  unfold requireActiveBodyFor ActiveBody
  split
  · simp_all
  · split <;> simp_all

/-- A 64-bit block time is kept by the cast to `uint64`. -/
theorem timestamp_mod (tx : Tx) : tx.timestamp % 2 ^ 64 = tx.timestamp := by
  have h := tx.timestamp_le
  unfold u64Max at h
  omega

/-! ## Effects -/

/-- Who may write the entry of `hash` in `region`, by call: the global region is governance's and,
over its own entries, the multisig's; any other region is its active body's; and an emergency
entry past its deadline is open to everyone. -/
def Authorized (tx : Tx) (s : State) (region hash : Bytes32) : Call → Prop
  | .addHashGlobal x _ | .removeHashGlobal x =>
    x = hash ∧ region = globalRegion ∧ s.roles .governance tx.sender = true
  | .addHashRegional r x _ | .removeHashRegional r x =>
    x = hash ∧ r = region ∧ region ≠ 0 ∧ region ≠ globalRegion ∧
      s.roles .regionalBody tx.sender = true ∧ ActiveBody tx s region
  | .emergencyAdd x _ _ =>
    x = hash ∧ region = globalRegion ∧ s.roles .emergencyMultisig tx.sender = true ∧
      ((s.hashEntries region hash).addedAt ≠ 0 → (s.hashEntries region hash).emergency = true)
  | .expireEmergencyEntry r x =>
    x = hash ∧ r = region ∧
      emergencyExpired tx.timestamp (s.hashEntries region hash).emergency
        (s.hashEntries region hash).addedAt (s.hashEntries region hash).category = true
  | _ => False

/-- The writes a call can make, with what it has checked. -/
inductive Effect (L : Sets) (tx : Tx) (s : State) (c : Call) : State → Prop where
  | added (region hash : Bytes32) (reason : Bytes) (emergency : Bool) (category : Category)
      (e : HashEntry) (log : List Event) (hwrite : Authorized tx s region hash c)
      (hglobal : emergency = true → region = globalRegion)
      (hadded : addedEntry tx s region hash emergency category = .ok e) :
      Effect L tx s c { s with
        hashEntries := Function.update s.hashEntries region
          (Function.update (s.hashEntries region) hash e)
        hashReason := Function.update s.hashReason region
          (Function.update (s.hashReason region) hash reason)
        regionHashes := Function.update s.regionHashes region
          (L.hashes.add (s.regionHashes region) hash)
        log := log }
  | removed (region hash : Bytes32) (log : List Event)
      (hwrite : Authorized tx s region hash c) :
      Effect L tx s c { s with
        hashEntries := Function.update s.hashEntries region
          (Function.update (s.hashEntries region) hash {})
        hashReason := Function.update s.hashReason region
          (Function.update (s.hashReason region) hash [])
        regionHashes := Function.update s.regionHashes region
          (L.hashes.remove (s.regionHashes region) hash)
        log := log }
  | listed (a : Address) (origin operator : Bool) (eo : EmergencyOrigin) (log : List Event) :
      Effect L tx s c { syncAddr L.addrs tx { s with
          originBlacklisted := Function.update s.originBlacklisted a origin
          emergencyOrigins := Function.update s.emergencyOrigins a eo
          isOperatorBlacklisted := Function.update s.isOperatorBlacklisted a operator } a with
        log := log }
  | registered (region : Bytes32) (body : Address) (roles : Role → Address → Bool)
      (log : List Event) (hregion : region ≠ 0) (hbody : body ≠ 0)
      (hvacant : (s.regionalBodies region).body = 0) (hidle : s.regionOfBody body = 0) :
      Effect L tx s c { s with
        regionalBodies := Function.update s.regionalBodies region
          { s.regionalBodies region with body := body }
        regionOfBody := Function.update s.regionOfBody body region
        roles := roles
        log := log }
  | deregistered (region : Bytes32) (body : Address) (roles : Role → Address → Bool)
      (log : List Event) (hbody : body ≠ 0) (hserves : (s.regionalBodies region).body = body) :
      Effect L tx s c { s with
        regionalBodies := Function.update s.regionalBodies region {}
        regionOfBody := Function.update s.regionOfBody body 0
        roles := roles
        log := log }
  | suspension (region : Bytes32) (rb : RegionalBody) (log : List Event)
      (hsame : rb.body = (s.regionalBodies region).body) :
      Effect L tx s c { s with
        regionalBodies := Function.update s.regionalBodies region rb
        log := log }
  | other (complianceWindow emergencyComplianceWindow : Nat) (roles : Role → Address → Bool)
      (log : List Event) :
      Effect L tx s c { s with
        complianceWindow := complianceWindow
        emergencyComplianceWindow := emergencyComplianceWindow
        roles := roles
        log := log }

/-- A call that writes nothing, or an event only. -/
theorem Effect.of_log (log : List Event) : Effect L tx s c { s with log := log } :=
  .other s.complianceWindow s.emergencyComplianceWindow s.roles log

theorem addHash_effect {region hash : Bytes32} {reason : Bytes} {emergency : Bool}
    {category : Category} (hwrite : Authorized tx s region hash c)
    (hglobal : emergency = true → region = globalRegion)
    (h : addHash L.hashes tx s region hash reason emergency category = .ok s') :
    Effect L tx s c s' := by
  unfold addHash at h
  split at h
  · cases h
  simp only [bind_eq_ok, pure_eq_ok] at h
  rcases h with ⟨e, hadded, rfl⟩
  exact .added region hash reason emergency category e _ hwrite hglobal hadded

theorem removeHash_effect {region hash : Bytes32}
    (hwrite : Authorized tx s region hash c)
    (h : removeHash L.hashes s region hash = .ok s') : Effect L tx s c s' := by
  unfold removeHash at h
  split at h
  · cases h
  rcases Except.ok.inj h with rfl
  exact .removed region hash _ hwrite

theorem quiet_eq_ok {r : Except Error State} {out : Option CapacityBond.Call} :
    quiet r = .ok (s', out) ↔ r = .ok s' ∧ out = none := by
  unfold quiet
  simp only [bind_eq_ok, pure_eq_ok, Prod.mk.injEq]
  constructor
  · rintro ⟨t, ht, rfl, rfl⟩
    exact ⟨ht, rfl⟩
  · rintro ⟨ht, rfl⟩
    exact ⟨s', ht, rfl, rfl⟩

/-! ## The calls -/

theorem addHashGlobal_effect {hash : Bytes32} {reason : Bytes}
    (h : addHashGlobal L.hashes tx s hash reason = .ok s') :
    Effect L tx s (.addHashGlobal hash reason) s' := by
  unfold addHashGlobal at h
  simp only [bind_eq_ok, onlyRole_eq_ok] at h
  rcases h with ⟨_, hrole, h⟩
  exact addHash_effect ⟨rfl, rfl, hrole⟩ (fun _ => rfl) h

theorem addHashRegional_effect {region hash : Bytes32} {reason : Bytes}
    (h : addHashRegional L.hashes tx s region hash reason = .ok s') :
    Effect L tx s (.addHashRegional region hash reason) s' := by
  unfold addHashRegional at h
  simp only [bind_eq_ok, onlyRole_eq_ok, checkRegion_eq_ok, requireActiveBodyFor_eq_ok] at h
  rcases h with ⟨_, hrole, _, hregion, _, hbody, h⟩
  exact addHash_effect ⟨rfl, rfl, hregion.1, hregion.2, hrole, hbody⟩ Bool.noConfusion h

theorem removeHashGlobal_effect {hash : Bytes32}
    (h : removeHashGlobal L.hashes tx s hash = .ok s') :
    Effect L tx s (.removeHashGlobal hash) s' := by
  unfold removeHashGlobal at h
  simp only [bind_eq_ok, onlyRole_eq_ok] at h
  rcases h with ⟨_, hrole, h⟩
  exact removeHash_effect ⟨rfl, rfl, hrole⟩ h

theorem removeHashRegional_effect {region hash : Bytes32}
    (h : removeHashRegional L.hashes tx s region hash = .ok s') :
    Effect L tx s (.removeHashRegional region hash) s' := by
  unfold removeHashRegional at h
  simp only [bind_eq_ok, onlyRole_eq_ok, checkRegion_eq_ok, requireActiveBodyFor_eq_ok] at h
  rcases h with ⟨_, hrole, _, hregion, _, hbody, h⟩
  exact removeHash_effect ⟨rfl, rfl, hregion.1, hregion.2, hrole, hbody⟩ h

theorem emergencyAdd_effect {hash : Bytes32} {category : UInt8} {reason : Bytes}
    (h : emergencyAdd L.hashes tx s hash category reason = .ok s') :
    Effect L tx s (.emergencyAdd hash category reason) s' := by
  unfold emergencyAdd at h
  simp only [bind_eq_ok, onlyRole_eq_ok] at h
  rcases h with ⟨_, hrole, h⟩
  split at h
  · cases h
  rename_i hstanding
  simp only [bind_eq_ok] at h
  rcases h with ⟨cat, -, h⟩
  refine addHash_effect ⟨rfl, rfl, hrole, ?_⟩ (fun _ => rfl) h
  intro hadded
  rw [← Bool.not_eq_false]
  exact fun hgoverned => hstanding ⟨hadded, hgoverned⟩

theorem expireEmergencyEntry_effect {region hash : Bytes32}
    (h : expireEmergencyEntry L.hashes tx s region hash = .ok s') :
    Effect L tx s (.expireEmergencyEntry region hash) s' := by
  unfold expireEmergencyEntry at h
  dsimp only at h
  split at h
  · cases h
  split at h
  · cases h
  rename_i hexpired
  exact removeHash_effect ⟨rfl, rfl, by simpa using hexpired⟩ h

theorem emergencyAddOrigin_effect {operator : Address} {category : UInt8} {reason : Bytes}
    (h : emergencyAddOrigin L.addrs tx s operator category reason = .ok s') :
    Effect L tx s c s' := by
  unfold emergencyAddOrigin at h
  simp only [bind_eq_ok] at h
  rcases h with ⟨_, -, h⟩
  split at h
  · cases h
  split at h
  · cases h
  simp only [bind_eq_ok, pure_eq_ok] at h
  rcases h with ⟨cat, -, rfl⟩
  have heffect := @Effect.listed L tx s c operator true
    (s.isOperatorBlacklisted operator) ⟨tx.timestamp % 2 ^ 64, cat.toUInt8⟩
  rw [Function.update_eq_self] at heffect
  exact heffect _

theorem expireEmergencyOrigin_effect {origin : Address}
    (h : expireEmergencyOrigin L.addrs tx s origin = .ok s') : Effect L tx s c s' := by
  unfold expireEmergencyOrigin at h
  dsimp only at h
  split at h
  · cases h
  rcases Except.ok.inj h with rfl
  have heffect := @Effect.listed L tx s c origin false
    (s.isOperatorBlacklisted origin) {}
  rw [Function.update_eq_self] at heffect
  exact heffect _

theorem setOriginBlacklist_effect {origin : Address} {blacklisted : Bool}
    (h : setOriginBlacklist L.addrs tx s origin blacklisted = .ok s') : Effect L tx s c s' := by
  unfold setOriginBlacklist at h
  simp only [bind_eq_ok] at h
  rcases h with ⟨_, -, h⟩
  split at h
  · cases h
  rcases pure_eq_ok.mp h with rfl
  have heffect := @Effect.listed L tx s c origin blacklisted
    (s.isOperatorBlacklisted origin) {}
  rw [Function.update_eq_self] at heffect
  exact heffect _

/-- Writing only the operator list of `a`. -/
theorem Effect.of_operator (a : Address) (operator : Bool) (log : List Event) :
    Effect L tx s c { syncAddr L.addrs tx { s with
        isOperatorBlacklisted := Function.update s.isOperatorBlacklisted a operator } a with
      log := log } := by
  have heffect := @Effect.listed L tx s c a (s.originBlacklisted a) operator
    (s.emergencyOrigins a)
  rw [Function.update_eq_self, Function.update_eq_self] at heffect
  exact heffect log

theorem addOperator_effect {operator : Address} {out : Option CapacityBond.Call}
    (h : addOperator L.addrs tx s operator = .ok (s', out)) : Effect L tx s c s' := by
  unfold addOperator at h
  simp only [bind_eq_ok] at h
  rcases h with ⟨_, -, h⟩
  split at h
  · cases h
  split at h
  · rcases Prod.mk.inj (pure_eq_ok.mp h) with ⟨rfl, -⟩
    exact .of_log s.log
  · rcases Prod.mk.inj (pure_eq_ok.mp h) with ⟨rfl, -⟩
    exact .of_operator operator true _

theorem removeOperator_effect {operator : Address} {out : Option CapacityBond.Call}
    (h : removeOperator L.addrs tx s operator = .ok (s', out)) : Effect L tx s c s' := by
  unfold removeOperator at h
  simp only [bind_eq_ok] at h
  rcases h with ⟨_, -, h⟩
  split at h
  · cases h
  split at h
  · rcases Prod.mk.inj (pure_eq_ok.mp h) with ⟨rfl, -⟩
    exact .of_operator operator false _
  · rcases Prod.mk.inj (pure_eq_ok.mp h) with ⟨rfl, -⟩
    exact .of_log s.log

theorem registerRegionalBody_effect {region : Bytes32} {body emergencyMultisig : Address}
    (h : registerRegionalBody tx s region body emergencyMultisig = .ok s') :
    Effect L tx s c s' := by
  unfold registerRegionalBody at h
  simp only [bind_eq_ok, checkRegion_eq_ok] at h
  rcases h with ⟨_, -, _, hregion, h⟩
  split at h
  · cases h
  rename_i hbody
  split at h
  · cases h
  split at h
  · cases h
  split at h
  · cases h
  rename_i hvacant
  split at h
  · cases h
  rename_i hidle
  simp only [bind_eq_ok, pure_eq_ok] at h
  rcases h with ⟨verified, -, rfl⟩
  exact .registered region body _ _ hregion.1 hbody (not_not.mp hvacant) (not_not.mp hidle)

theorem deregisterRegionalBody_effect {region : Bytes32}
    (h : deregisterRegionalBody tx s region = .ok s') : Effect L tx s c s' := by
  unfold deregisterRegionalBody at h
  simp only [bind_eq_ok, pure_eq_ok, requireRegisteredBody_eq_ok] at h
  rcases h with ⟨_, -, body, ⟨hbody, hserves⟩, rfl⟩
  exact .deregistered region body _ _ hbody hserves

theorem suspendRegionalBody_effect {region : Bytes32}
    (h : suspendRegionalBody tx s region = .ok s') : Effect L tx s c s' := by
  unfold suspendRegionalBody at h
  simp only [bind_eq_ok, requireRegisteredBody_eq_ok] at h
  rcases h with ⟨_, -, body, ⟨-, hserves⟩, h⟩
  split at h
  · cases h
  rcases pure_eq_ok.mp h with rfl
  exact .suspension region _ _ hserves.symm

theorem ratifyRegionalBodySuspension_effect {region : Bytes32}
    (h : ratifyRegionalBodySuspension tx s region = .ok s') : Effect L tx s c s' := by
  unfold ratifyRegionalBodySuspension at h
  simp only [bind_eq_ok] at h
  rcases h with ⟨_, -, body, -, h⟩
  split at h
  · cases h
  split at h
  · rcases pure_eq_ok.mp h with rfl
    exact .suspension region _ _ rfl
  · simp only [bind_eq_ok] at h
    rcases h with ⟨closesAt, -, h⟩
    split at h
    · cases h
    rcases pure_eq_ok.mp h with rfl
    exact .suspension region _ _ rfl

theorem unsuspendRegionalBody_effect {region : Bytes32}
    (h : unsuspendRegionalBody tx s region = .ok s') : Effect L tx s c s' := by
  unfold unsuspendRegionalBody at h
  simp only [bind_eq_ok, requireRegisteredBody_eq_ok] at h
  rcases h with ⟨_, -, body, ⟨-, hserves⟩, h⟩
  split at h
  · cases h
  rcases pure_eq_ok.mp h with rfl
  exact .suspension region _ _ hserves.symm

theorem setComplianceWindow_effect {newWindow : Nat}
    (h : setComplianceWindow tx s newWindow = .ok s') : Effect L tx s c s' := by
  unfold setComplianceWindow at h
  simp only [bind_eq_ok, pure_eq_ok] at h
  rcases h with ⟨_, -, _, -, rfl⟩
  exact .other _ _ _ _

theorem setEmergencyComplianceWindow_effect {newWindow : Nat}
    (h : setEmergencyComplianceWindow tx s newWindow = .ok s') : Effect L tx s c s' := by
  unfold setEmergencyComplianceWindow at h
  simp only [bind_eq_ok, pure_eq_ok] at h
  rcases h with ⟨_, -, _, -, rfl⟩
  exact .other _ _ _ _

theorem assignRole_effect {role : Role} {account : Address} {granted : Bool}
    (h : assignRole tx s role account granted = .ok s') : Effect L tx s c s' := by
  unfold assignRole at h
  simp only [bind_eq_ok, pure_eq_ok] at h
  rcases h with ⟨_, -, rfl⟩
  exact .other _ _ _ _

theorem renounceRole_effect {role : Role} {account : Address}
    (h : renounceRole tx s role account = .ok s') : Effect L tx s c s' := by
  unfold renounceRole at h
  split at h
  · cases h
  rcases Except.ok.inj h with rfl
  exact .other _ _ _ _

/-- Every call has one of the listed effects. -/
theorem exec_effect {out : Option CapacityBond.Call}
    (h : exec L tx s c = .ok (s', out)) : Effect L tx s c s' := by
  cases c with
  | addOperator operator => exact addOperator_effect h
  | removeOperator operator => exact removeOperator_effect h
  | addHashGlobal hash reason => exact addHashGlobal_effect (quiet_eq_ok.mp h).1
  | addHashRegional region hash reason => exact addHashRegional_effect (quiet_eq_ok.mp h).1
  | removeHashGlobal hash => exact removeHashGlobal_effect (quiet_eq_ok.mp h).1
  | removeHashRegional region hash => exact removeHashRegional_effect (quiet_eq_ok.mp h).1
  | emergencyAdd hash category reason => exact emergencyAdd_effect (quiet_eq_ok.mp h).1
  | emergencyAddOrigin operator category reason =>
    exact emergencyAddOrigin_effect (quiet_eq_ok.mp h).1
  | expireEmergencyEntry region hash => exact expireEmergencyEntry_effect (quiet_eq_ok.mp h).1
  | expireEmergencyOrigin origin => exact expireEmergencyOrigin_effect (quiet_eq_ok.mp h).1
  | setOriginBlacklist origin blacklisted => exact setOriginBlacklist_effect (quiet_eq_ok.mp h).1
  | setComplianceWindow newWindow => exact setComplianceWindow_effect (quiet_eq_ok.mp h).1
  | setEmergencyComplianceWindow newWindow =>
    exact setEmergencyComplianceWindow_effect (quiet_eq_ok.mp h).1
  | registerRegionalBody region body emergencyMultisig =>
    exact registerRegionalBody_effect (quiet_eq_ok.mp h).1
  | deregisterRegionalBody region => exact deregisterRegionalBody_effect (quiet_eq_ok.mp h).1
  | suspendRegionalBody region => exact suspendRegionalBody_effect (quiet_eq_ok.mp h).1
  | ratifyRegionalBodySuspension region =>
    exact ratifyRegionalBodySuspension_effect (quiet_eq_ok.mp h).1
  | unsuspendRegionalBody region => exact unsuspendRegionalBody_effect (quiet_eq_ok.mp h).1
  | grantRole role account => exact assignRole_effect (quiet_eq_ok.mp h).1
  | revokeRole role account => exact assignRole_effect (quiet_eq_ok.mp h).1
  | renounceRole role account => exact renounceRole_effect (quiet_eq_ok.mp h).1

/-- The only further calls are ejections and reinstatements. -/
theorem exec_out {call : CapacityBond.Call} (h : exec L tx s c = .ok (s', some call)) :
    ∃ operator, call = .ejectNode operator ∨ call = .unEjectNode operator := by
  have hquiet : ∀ {r : Except Error State}, quiet r ≠ .ok (s', some call) := by
    intro r hr
    cases (quiet_eq_ok.mp hr).2
  cases c with
  | addOperator operator =>
    change addOperator L.addrs tx s operator = _ at h
    unfold addOperator at h
    simp only [bind_eq_ok] at h
    rcases h with ⟨_, -, h⟩
    split at h
    · cases h
    split at h
    · cases (Prod.mk.inj (pure_eq_ok.mp h)).2
    · rcases Option.some.inj (Prod.mk.inj (pure_eq_ok.mp h)).2 with rfl
      exact ⟨operator, .inl rfl⟩
  | removeOperator operator =>
    change removeOperator L.addrs tx s operator = _ at h
    unfold removeOperator at h
    simp only [bind_eq_ok] at h
    rcases h with ⟨_, -, h⟩
    split at h
    · cases h
    split at h
    · rcases Option.some.inj (Prod.mk.inj (pure_eq_ok.mp h)).2 with rfl
      exact ⟨operator, .inr rfl⟩
    · rcases Option.some.inj (Prod.mk.inj (pure_eq_ok.mp h)).2 with rfl
      exact ⟨operator, .inr rfl⟩
  | _ => exact absurd h hquiet

end Decdn.ContentBlacklist
