import Decdn.CapacityBond.Contract
import Decdn.Foundations.EnumerableSets

/-!
# Storage of the ContentBlacklist contract

The data model of `contracts/src/ContentBlacklist.sol` and the region predicate of
`contracts/src/RegionScopeLib.sol`: entries for each region and hash, the two
address lists with their common index, and the regional bodies.

The enumerable sets are kept as their lists of members, under any implementation
of `SetOps`.  What the candidate bodies answer to `getOwners` during one
transaction is in `Tx`.

Main definitions:

- Definition `pack` and Definition `scopedRegions`: the region predicate.
- Structure `State`: the storage and the events emitted.
- Definition `isLive` and Definition `isOriginBlacklisted`: what is denied at a time.
-/

namespace Decdn.ContentBlacklist

open CapacityBond (Bytes)

/-! ## RegionScopeLib -/

/-- A byte string read as a big-endian number. -/
def beNat (bytes : Bytes) : Nat :=
  bytes.foldl (fun acc b => acc * 256 + b.toNat) 0

/-- `RegionScopeLib.pack`: left-aligned and zero-padded; longer strings lose their tail. -/
def pack (bytes : Bytes) : Bytes32 :=
  if bytes.length = 0 then 0
  else if 32 ≤ bytes.length then BitVec.ofNat 256 (beNat (bytes.take 32))
  else BitVec.ofNat 256 (beNat bytes * 256 ^ (32 - bytes.length))

/-- `bytes32("GLOBAL")`. -/
def globalRegion : Bytes32 := pack [71, 76, 79, 66, 65, 76]

/-- What `scopedRegions` returns. -/
structure ScopedRegions where
  currentKey : Bytes32
  prevKey : Bytes32
  prevApplies : Bool
deriving DecidableEq

/-- `RegionScopeLib.scopedRegions`: the region keys in scope at `nowTs` beside the global one. -/
def scopedRegions (globalRegion : Bytes32) (regionHint regionPrev : Bytes)
    (nowTs effective window : Nat) : ScopedRegions :=
  let currentKey := if pack regionHint = globalRegion then 0 else pack regionHint
  let elapsed := if effective < nowTs then nowTs - effective else 0
  let prev := pack regionPrev
  if elapsed < window ∧ prev ≠ 0 ∧ prev ≠ globalRegion ∧ prev ≠ currentKey then
    ⟨currentKey, prev, true⟩
  else ⟨currentKey, 0, false⟩

/-- `CapacityBond.regionScopeData` at an instant, resolved to region keys. -/
def scopeAt (bond : CapacityBond.State) (operator : Address) (nowTs : Nat) : ScopedRegions :=
  scopedRegions globalRegion (bond.nodes operator).regionHint (bond.regionPrev operator) nowTs
    (bond.regionLastChanged operator) bond.params.regionStabilityWindow

/-! ## Data model -/

/-- Severity of an emergency entry. -/
inductive Category where
  | general
  | csam
  | terrorist
deriving DecidableEq, Repr

/-- The category's ordinal. -/
def Category.toUInt8 : Category → UInt8
  | .general => 0
  | .csam => 1
  | .terrorist => 2

/-- One entry of a region; `addedAt = 0` means that there is none. -/
structure HashEntry where
  addedAt : Nat := 0
  effectiveAt : Nat := 0
  emergency : Bool := false
  category : UInt8 := 0
deriving DecidableEq, Repr

/-- Expiry record of an origin added by the emergency path. -/
structure EmergencyOrigin where
  addedAt : Nat := 0
  category : UInt8 := 0
deriving DecidableEq, Repr

/-- The body of one region and its suspension. -/
structure RegionalBody where
  body : Address := 0
  suspendedAt : Nat := 0
  suspensionRatified : Bool := false
deriving DecidableEq, Repr

/-- The roles of the contract. -/
inductive Role where
  | defaultAdmin
  | governance
  | emergencyMultisig
  | regionalBody
deriving DecidableEq, Repr

/-- The role that grants and revokes a role. -/
def Role.admin : Role → Role
  | .emergencyMultisig => .governance
  | _ => .defaultAdmin

/-- The events of the contract. -/
inductive Event where
  | hashBlacklisted (region hash : Bytes32) (reason : Bytes)
  | hashRemoved (region hash : Bytes32)
  | operatorBlacklisted (operator : Address)
  | operatorBlacklistCleared (operator : Address)
  | originBlacklistUpdated (origin : Address) (blacklisted : Bool)
  | complianceWindowUpdated (oldValue newValue : Nat)
  | emergencyOriginAdded (origin : Address) (category : UInt8) (reason : Bytes)
  | emergencyComplianceWindowUpdated (oldValue newValue : Nat)
  | regionalBodyRegistered (region : Bytes32) (body : Address) (signersVerified : Bool)
  | regionalBodyDeregistered (region : Bytes32) (body : Address)
  | regionalBodySuspended (region : Bytes32) (body : Address)
  | regionalBodySuspensionRatified (region : Bytes32) (body : Address)
  | regionalBodyUnsuspended (region : Bytes32) (body : Address)
deriving DecidableEq, Repr

/-- Every way a call reverts. -/
inductive Error where
  | zeroAddress
  | zeroHash
  | missingRegion
  | entryNotBlacklisted (region hash : Bytes32)
  | paramOutOfBounds (value floor ceiling : Nat)
  | invalidCategory (category : UInt8)
  | notExpired
  | notRegionalBodyFor (region : Bytes32) (caller : Address)
  | regionalBodyAlreadyRegistered (region : Bytes32) (body : Address)
  | bodyAlreadyServingRegion (body : Address) (region : Bytes32)
  | regionalBodyNotRegistered (region : Bytes32)
  | regionalBodySuspensionNotActive (region : Bytes32)
  | regionalBodyAlreadySuspended (region : Bytes32)
  | signerOverlap (signer : Address)
  | notEmergencyMultisig (account : Address)
  | emergencyCannotOverrideGovernance (hash : Bytes32)
  | emergencyCannotOverrideGovernanceOrigin (origin : Address)
  | suspensionWindowClosed (closedAt : Nat)
  | unauthorizedAccount (account : Address) (neededRole : Role)
  | badConfirmation
  | arithmeticPanic
deriving DecidableEq, Repr

/-- One transaction: its caller, its block time, and the signers that accounts with code
report.  No transaction is sent from the zero address; block times are positive and 64-bit. -/
structure Tx where
  sender : Address
  sender_ne_zero : sender ≠ 0
  timestamp : Nat
  timestamp_pos : 0 < timestamp
  timestamp_le : timestamp ≤ u64Max
  /-- `getOwners()` of an account, or `none` if it has no code or the call fails. -/
  getOwners : Address → Option (List Address)

/-- Contract storage and the events emitted so far. -/
structure State where
  complianceWindow : Nat
  emergencyComplianceWindow : Nat
  hashEntries : Bytes32 → Bytes32 → HashEntry := fun _ _ => {}
  hashReason : Bytes32 → Bytes32 → Bytes := fun _ _ => []
  isOperatorBlacklisted : Address → Bool := fun _ => false
  originBlacklisted : Address → Bool := fun _ => false
  emergencyOrigins : Address → EmergencyOrigin := fun _ => {}
  regionalBodies : Bytes32 → RegionalBody := fun _ => {}
  regionOfBody : Address → Bytes32 := fun _ => 0
  regionHashes : Bytes32 → List Bytes32 := fun _ => []
  blacklistedAddrs : List Address := []
  roles : Role → Address → Bool := fun _ _ => false
  log : List Event := []

/-- Append one event. -/
def State.emit (s : State) (e : Event) : State :=
  { s with log := s.log ++ [e] }

/-! ## Constants -/

def complianceWindowDefault : Nat := 24 * 3600
def emergencyComplianceWindowDefault : Nat := 2 * 3600
def complianceWindowFloor : Nat := 3600
def complianceWindowCeiling : Nat := 7 * 24 * 3600
def emergencyExpiryGeneral : Nat := 14 * 24 * 3600
def emergencyExpirySevere : Nat := 90 * 24 * 3600
def bodySuspensionRatificationWindow : Nat := 14 * 24 * 3600
def maxProbedSigners : Nat := 32

/-! ## Views -/

/-- `_expiryFor`. -/
def expiryFor (category : UInt8) : Nat :=
  if category = Category.general.toUInt8 then emergencyExpiryGeneral else emergencyExpirySevere

/-- `_emergencyExpired`: an emergency entry past its category's deadline. -/
def emergencyExpired (now : Nat) (emergency : Bool) (addedAt : Nat) (category : UInt8) : Bool :=
  emergency && addedAt != 0 && decide (addedAt + expiryFor category < now)

/-- The entry is present and has not lapsed. -/
def HashEntry.live (e : HashEntry) (now : Nat) : Bool :=
  e.addedAt != 0 && !emergencyExpired now e.emergency e.addedAt e.category

/-- `_isLive`. -/
def isLive (s : State) (now : Nat) (region hash : Bytes32) : Bool :=
  (s.hashEntries region hash).live now

/-- `isOriginBlacklisted`. -/
def isOriginBlacklisted (s : State) (now : Nat) (origin : Address) : Bool :=
  s.originBlacklisted origin &&
    !emergencyExpired now ((s.emergencyOrigins origin).addedAt != 0)
      (s.emergencyOrigins origin).addedAt (s.emergencyOrigins origin).category

/-- `_bodySuspended`. -/
def RegionalBody.suspended (rb : RegionalBody) (now : Nat) : Bool :=
  rb.suspendedAt != 0 &&
    (rb.suspensionRatified || decide (now ≤ rb.suspendedAt + bodySuspensionRatificationWindow))

/-- `isHashBlacklistedForOperator`. -/
def isHashBlacklistedForOperator (s : State) (bond : CapacityBond.State) (now : Nat)
    (hash : Bytes32) (operator : Address) : Bool :=
  let scope := scopeAt bond operator now
  isLive s now globalRegion hash ||
    (scope.currentKey != 0 && isLive s now scope.currentKey hash) ||
    (scope.prevApplies && isLive s now scope.prevKey hash)

/-- `getScopeRegions`. -/
def getScopeRegions (bond : CapacityBond.State) (now : Nat) (operator : Address) : List Bytes32 :=
  let scope := scopeAt bond operator now
  [globalRegion] ++ (if scope.currentKey ≠ 0 then [scope.currentKey] else []) ++
    if scope.prevApplies then [scope.prevKey] else []

/-- `blacklistedHashes`. -/
def blacklistedHashes (s : State) (region : Bytes32) (offset limit : Nat) : List Bytes32 :=
  page (s.regionHashes region) offset limit

/-- `blacklistedAddresses`. -/
def blacklistedAddresses (s : State) (offset limit : Nat) : List Address :=
  page s.blacklistedAddrs offset limit

end Decdn.ContentBlacklist
