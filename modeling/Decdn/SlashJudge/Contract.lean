import Decdn.CapacityBond.Slashing
import Decdn.ContentBlacklist.State
import Decdn.Foundations.Guards

/-!
# The SlashJudge contract

`contracts/src/SlashJudge.sol`: challenges are committed first and revealed later,
the reveal verifies the signed responses and slashes through CapacityBond.

The hash of a list of ABI words, the signature recovery and the ABI decoders are
the fields of `Wiring`.  A call reads the storage of CapacityBond and
ContentBlacklist and returns the CapacityBond storage after its inner call.

Main definitions:

- Definition `checkStaleness` and Definition `checkBlacklistedBefore`: which evidence counts.
- Definition `verifyPair`: the rate offense and its evidence hash.
- Definition `resolve`: the reveal of a commitment.
- Definition `exec`: one external call.
-/

namespace Decdn.SlashJudge

open CapacityBond (Bytes)
open ContentBlacklist (globalRegion scopeAt HashEntry)

/-! ## Data model -/

/-- A decoded probe response. -/
structure ProbeMsg where
  hash : Bytes32
  hasBlob : Bool
  ratePerMb : UInt64
  timestampUs : UInt64
deriving DecidableEq

/-- A decoded stream response. -/
structure StreamMsg where
  hash : Bytes32
  ok : Bool
  ratePerMb : UInt64
  totalBytes : UInt64
  timestampUs : UInt64
deriving DecidableEq

/-- The slashable offenses. -/
inductive OffenseType where
  | rateManipulation
  | blacklist
deriving DecidableEq, Repr

/-- The offense's ordinal. -/
def OffenseType.toUInt8 : OffenseType → UInt8
  | .rateManipulation => 0
  | .blacklist => 1

/-- The events of the contract. -/
inductive Event where
  | challengeBondUpdated (oldValue newValue : Nat)
  | maxEvidenceAgeUpdated (oldValueUs newValueUs : Nat)
  | challengeCommitted (commitment : Bytes32)
  | slashed (slashId : Nat) (operator : Address) (offenseType : OffenseType) (amount : Nat)
      (evidenceHash : Bytes32)
deriving DecidableEq, Repr

/-- Every way a call reverts. -/
inductive Error where
  | nodeNotRegistered (challengedNode : Address)
  | nodeIdMismatch (provided bound : Bytes32)
  | invalidProbeSignature
  | invalidStreamSignature
  | invalidResponseSignature
  | hashMismatch (expected actual : Bytes32)
  | notRateManipulation
  | notBlacklistViolation
  | timestampWindowViolated (probeTsUs streamTsUs : UInt64)
  | evidenceInFuture (evidenceTsUs : UInt64)
  | evidenceTooOld (ageUs maxAgeUs : Nat)
  | hashNotBlacklisted (hash : Bytes32)
  | blacklistAfterResponse (effectiveAtUs : Nat) (responseTsUs : UInt64)
  | evidenceAlreadyUsed (evidenceHash : Bytes32)
  | commitmentExists
  | noCommitment
  | revealTooEarly (readyAt : Nat)
  | commitmentExpired (expiredAt : Nat)
  | paramOutOfBounds (value floor ceiling : Nat)
  | evidenceAgeExceedsUnbonding (maxEvidenceAgeUs unbondingUs : Nat)
  | enforcedPause
  | expectedPause
  | pauseExpired
  | unauthorizedAccount (account : Address)
  | malformedEvidence
  | tokenTransferFailed
  | arithmeticPanic
  | capacityBond (e : CapacityBond.Error)
deriving DecidableEq, Repr

/-- The roles the contract gates on. -/
inductive Role where
  | governance
  | pauser
deriving DecidableEq, Repr

/-- The hash, the signature recovery and the ABI decoders. -/
structure Wiring where
  /-- `keccak256` of `abi.encode` of static values, one word each. -/
  keccak256 : List Bytes32 → Bytes32
  /-- `ECDSA.tryRecover` of the EIP-712 digest of a struct hash, or `none` on an error. -/
  recover : Bytes32 → Bytes → Option Address
  probeTypehash : Bytes32
  streamTypehash : Bytes32
  decodeProbe : Bytes → Option ProbeMsg
  decodeStream : Bytes → Option StreamMsg

/-- One transaction: its caller and block time, what the roles and the token answer, and the
environment of the inner call to CapacityBond, which the contract sends itself. -/
structure Tx where
  sender : Address
  sender_ne_zero : sender ≠ 0
  timestamp : Nat
  timestamp_pos : 0 < timestamp
  timestamp_le : timestamp ≤ u64Max
  hasRole : Role → Address → Bool
  transferFrom : Bool
  transferOut : Bool
  bond : CapacityBond.Tx
  bond_timestamp : bond.timestamp = timestamp

/-- Contract storage, its TOKEN balance and the events emitted so far with their block times. -/
structure State where
  challengeBond : Nat
  maxEvidenceAgeUs : Nat
  usedEvidenceHash : Bytes32 → Bool := fun _ => false
  commitments : Bytes32 → Nat := fun _ => 0
  paused : Bool := false
  pauseDeadline : Nat
  tokenBalance : Nat := 0
  log : List (Nat × Event) := []

/-- Append one event of the transaction. -/
def State.emit (s : State) (tx : Tx) (e : Event) : State :=
  { s with log := s.log ++ [(tx.timestamp, e)] }

/-! ## Constants -/

def slashWindowUs : Nat := 30000000
def maxFutureSkewUs : Nat := 60000000
def maxEvidenceAgeFloorUs : Nat := 24 * 3600 * 1000000
def maxEvidenceAgeCeilingUs : Nat := 30 * 24 * 3600 * 1000000
def challengeBondFloor : Nat := 1000000000000000000
def challengeBondCeiling : Nat := 1000 * 1000000000000000000
def minRevealDelay : Nat := 60
def revealWindow : Nat := 24 * 3600

/-- `EMERGENCY_EXPIRY_GENERAL` and `EMERGENCY_EXPIRY_SEVERE`, mirrored from ContentBlacklist. -/
def emergencyExpiryGeneral : Nat := 14 * 24 * 3600
def emergencyExpirySevere : Nat := 90 * 24 * 3600

/-! ## Guards -/

/-- `onlyRole`. -/
def onlyRole (tx : Tx) (role : Role) : Except Error Unit :=
  Guard.require (tx.hasRole role tx.sender) (.unauthorizedAccount tx.sender)

/-- `whenNotPaused`. -/
def whenNotPaused (s : State) : Except Error Unit :=
  Guard.require (!s.paused) .enforcedPause

/-- The individual bounds of a parameter. -/
def enforceBounds (value floor ceiling : Nat) : Except Error Unit :=
  Guard.within value floor ceiling (.paramOutOfBounds value floor ceiling)

/-- `_enforceUnbondingInvariant`. -/
def enforceUnbondingInvariant (ageUs unbondingSeconds : Nat) : Except Error Unit :=
  if u256Max < unbondingSeconds * 1000000 then .error .arithmeticPanic
  else if unbondingSeconds * 1000000 ≤ ageUs then
    .error (.evidenceAgeExceedsUnbonding ageUs (unbondingSeconds * 1000000))
  else .ok ()

/-! ## Hashes -/

/-- The ABI word of an address. -/
def addressWord (a : Address) : Bytes32 := a.setWidth 256

/-- The ABI word of a boolean. -/
def boolWord (b : Bool) : Bytes32 := if b then 1 else 0

/-- `_probeStructHash`. -/
def probeStructHash (J : Wiring) (p : ProbeMsg) : Bytes32 :=
  J.keccak256 [J.probeTypehash, p.hash, boolWord p.hasBlob, BitVec.ofNat 256 p.ratePerMb.toNat,
    BitVec.ofNat 256 p.timestampUs.toNat]

/-- `_streamStructHash`. -/
def streamStructHash (J : Wiring) (m : StreamMsg) : Bytes32 :=
  J.keccak256 [J.streamTypehash, m.hash, boolWord m.ok, BitVec.ofNat 256 m.ratePerMb.toNat,
    BitVec.ofNat 256 m.totalBytes.toNat, BitVec.ofNat 256 m.timestampUs.toNat]

/-- The word of an offense's ordinal. -/
def offenseWord (o : OffenseType) : Bytes32 := BitVec.ofNat 256 o.toUInt8.toNat

/-- Evidence of a rate offense: the operator and the overcharged stream alone. -/
def rateEvidence (J : Wiring) (node : Address) (streamHash : Bytes32) : Bytes32 :=
  J.keccak256 [offenseWord .rateManipulation, addressWord node, streamHash]

/-- Evidence of a blacklist offense: the operator and the served response. -/
def blacklistEvidence (J : Wiring) (node : Address) (structHash : Bytes32)
    (isStreamResponse : Bool) : Bytes32 :=
  J.keccak256 [offenseWord .blacklist, addressWord node, structHash, boolWord isStreamResponse]

/-- The commitment that binds evidence and salt to a challenger. -/
def commitmentOf (J : Wiring) (evidenceHash salt : Bytes32) (challenger : Address) : Bytes32 :=
  J.keccak256 [evidenceHash, salt, addressWord challenger]

/-- `_signedBy`. -/
def signedBy (J : Wiring) (signer : Address) (structHash : Bytes32) (sig : Bytes) : Bool :=
  J.recover structHash sig == some signer

/-! ## Evidence -/

/-- `_checkRegistered`: a bound operator by its node id, an unbound one while it has bond. -/
def checkRegistered (bond : CapacityBond.State) (challengedNode : Address) (nodeId : Bytes32) :
    Except Error Unit :=
  let bound := (CapacityBond.nodeIdOf bond challengedNode).1
  if bound = 0 then
    let queued := (bond.unbondingOf challengedNode).amount
    if u256Max < bond.activeBond challengedNode + queued then .error .arithmeticPanic
    else if bond.activeBond challengedNode + queued = 0 then
      .error (.nodeNotRegistered challengedNode)
    else .ok ()
  else if bound ≠ nodeId then .error (.nodeIdMismatch nodeId bound)
  else .ok ()

/-- `_checkStaleness`. -/
def checkStaleness (now : Nat) (s : State) (evidenceTsUs : UInt64) : Except Error Unit :=
  let nowUs := 1000000 * now
  if nowUs + maxFutureSkewUs < evidenceTsUs.toNat then .error (.evidenceInFuture evidenceTsUs)
  else
    let ageUs := if nowUs ≤ evidenceTsUs.toNat then 0 else nowUs - evidenceTsUs.toNat
    if s.maxEvidenceAgeUs ≤ ageUs then .error (.evidenceTooOld ageUs s.maxEvidenceAgeUs)
    else .ok ()

/-- `_emergencyExpired`, at the block time of the challenge. -/
def emergencyExpired (now : Nat) (emergency : Bool) (addedAt : Nat) (category : UInt8) : Bool :=
  emergency && decide (addedAt +
    (if category = 0 then emergencyExpiryGeneral else emergencyExpirySevere) < now)

/-- `_liveBefore`: present, not lapsed, and enforceable strictly before the response. -/
def liveBefore (now : Nat) (list : ContentBlacklist.State) (region blobHash : Bytes32)
    (responseTsUs : UInt64) : Bool :=
  let e := list.hashEntries region blobHash
  if e.addedAt = 0 then false
  else if emergencyExpired now e.emergency e.addedAt e.category then false
  else decide (1000000 * e.effectiveAt < responseTsUs.toNat)

/-- `_regionalLiveBefore`: the operator's region data of now, the window at the response. -/
def regionalLiveBefore (now : Nat) (list : ContentBlacklist.State) (bond : CapacityBond.State)
    (operator : Address) (blobHash : Bytes32) (responseTsUs : UInt64) : Bool :=
  let responseTsSec := responseTsUs.toNat / 1000000
  let scope := scopeAt bond operator responseTsSec
  if scope.currentKey ≠ 0 ∧ liveBefore now list scope.currentKey blobHash responseTsUs = true then
    true
  else if scope.prevApplies = true ∧ liveBefore now list scope.prevKey blobHash responseTsUs = true
  then true
  else false

/-- `_checkBlacklistedBefore`. -/
def checkBlacklistedBefore (now : Nat) (list : ContentBlacklist.State) (bond : CapacityBond.State)
    (operator : Address) (blobHash : Bytes32) (responseTsUs : UInt64) : Except Error Unit :=
  let g := list.hashEntries globalRegion blobHash
  if g.addedAt ≠ 0 ∧ emergencyExpired now g.emergency g.addedAt g.category = false then
    if 1000000 * g.effectiveAt < responseTsUs.toNat then .ok ()
    else if regionalLiveBefore now list bond operator blobHash responseTsUs = false then
      .error (.blacklistAfterResponse (1000000 * g.effectiveAt) responseTsUs)
    else .ok ()
  else if regionalLiveBefore now list bond operator blobHash responseTsUs = false then
    .error (.hashNotBlacklisted blobHash)
  else .ok ()

/-- `abi.decode`. -/
def decoded {α : Type} : Option α → Except Error α
  | none => .error .malformedEvidence
  | some m => .ok m

/-- `_verifyPair`: a delivery above the probed rate, and its evidence hash. -/
def verifyPair (J : Wiring) (now : Nat) (s : State) (challengedNode : Address)
    (probeData probeSig streamData streamSig : Bytes) : Except Error Bytes32 := do
  let p ← decoded (J.decodeProbe probeData)
  let m ← decoded (J.decodeStream streamData)
  if signedBy J challengedNode (probeStructHash J p) probeSig = false then
    .error .invalidProbeSignature
  else if signedBy J challengedNode (streamStructHash J m) streamSig = false then
    .error .invalidStreamSignature
  else if p.hash ≠ m.hash then .error (.hashMismatch p.hash m.hash)
  else if m.timestampUs < p.timestampUs ∨
      slashWindowUs ≤ m.timestampUs.toNat - p.timestampUs.toNat then
    .error (.timestampWindowViolated p.timestampUs m.timestampUs)
  else
    checkStaleness now s p.timestampUs
    if m.ok = false ∨ m.ratePerMb ≤ p.ratePerMb then .error .notRateManipulation
    else return rateEvidence J challengedNode (streamStructHash J m)

/-- The fields of a served response that a blacklist challenge checks. -/
structure Served where
  structHash : Bytes32
  hash : Bytes32
  timestampUs : UInt64
  servedClaim : Bool

/-- The decoding of a response of either kind. -/
def decodeServed (J : Wiring) (responseData : Bytes) (isStreamResponse : Bool) :
    Except Error Served :=
  if isStreamResponse then do
    let m ← decoded (J.decodeStream responseData)
    return ⟨streamStructHash J m, m.hash, m.timestampUs, m.ok⟩
  else do
    let p ← decoded (J.decodeProbe responseData)
    return ⟨probeStructHash J p, p.hash, p.timestampUs, p.hasBlob⟩

/-! ## Reveal -/

/-- `_resolve`: consume the caller's commitment and the evidence, and slash. -/
def resolve (J : Wiring) (tx : Tx) (s : State) (bond : CapacityBond.State) (operator : Address)
    (offenseType : OffenseType) (evidenceHash salt : Bytes32) :
    Except Error (State × CapacityBond.State) :=
  let commitment := commitmentOf J evidenceHash salt tx.sender
  let committedAt := s.commitments commitment
  if committedAt = 0 then .error .noCommitment
  else if tx.timestamp < committedAt + minRevealDelay then
    .error (.revealTooEarly (committedAt + minRevealDelay))
  else if committedAt + revealWindow < tx.timestamp then
    .error (.commitmentExpired (committedAt + revealWindow))
  else if s.usedEvidenceHash evidenceHash then .error (.evidenceAlreadyUsed evidenceHash)
  else if tx.transferFrom = false then .error .tokenTransferFailed
  else
    match CapacityBond.slash tx.bond bond operator tx.sender offenseType.toUInt8 evidenceHash with
    | .error e => .error (.capacityBond e)
    | .ok (bond', slashId, amount) =>
      if tx.transferOut = false then .error .tokenTransferFailed
      else
        .ok ({ s with
          commitments := Function.update s.commitments commitment 0
          usedEvidenceHash := Function.update s.usedEvidenceHash evidenceHash true
          -- The challenge bond is pulled in before the slash and paid back after it.
          tokenBalance := s.tokenBalance + s.challengeBond - s.challengeBond }.emit tx
            (.slashed slashId operator offenseType amount evidenceHash), bond')

/-! ## Calls -/

/-- `commitChallenge`: a live commitment may not be overwritten. -/
def commitChallenge (tx : Tx) (s : State) (commitment : Bytes32) : Except Error State := do
  whenNotPaused s
  let existing := s.commitments commitment
  if existing ≠ 0 ∧ tx.timestamp ≤ existing + revealWindow then .error .commitmentExists
  else
    return { s with
      commitments := Function.update s.commitments commitment (tx.timestamp % 2 ^ 64) }.emit tx
      (.challengeCommitted commitment)

/-- `submitRateChallenge`. -/
def submitRateChallenge (J : Wiring) (tx : Tx) (s : State) (bond : CapacityBond.State)
    (challengedNode : Address) (nodeId : Bytes32)
    (probeResponseData probeSlashSig streamResponseData streamSlashSig : Bytes) (salt : Bytes32) :
    Except Error (State × CapacityBond.State) := do
  whenNotPaused s
  checkRegistered bond challengedNode nodeId
  let evidenceHash ← verifyPair J tx.timestamp s challengedNode probeResponseData probeSlashSig
    streamResponseData streamSlashSig
  resolve J tx s bond challengedNode .rateManipulation evidenceHash salt

/-- `submitBlacklistChallenge`. -/
def submitBlacklistChallenge (J : Wiring) (tx : Tx) (s : State) (list : ContentBlacklist.State)
    (bond : CapacityBond.State) (challengedNode : Address) (nodeId blobHash : Bytes32)
    (responseData slashSig : Bytes) (isStreamResponse : Bool) (salt : Bytes32) :
    Except Error (State × CapacityBond.State) := do
  whenNotPaused s
  checkRegistered bond challengedNode nodeId
  let r ← decodeServed J responseData isStreamResponse
  if signedBy J challengedNode r.structHash slashSig = false then .error .invalidResponseSignature
  else if r.hash ≠ blobHash then .error (.hashMismatch blobHash r.hash)
  else if r.servedClaim = false then .error .notBlacklistViolation
  else
    checkStaleness tx.timestamp s r.timestampUs
    checkBlacklistedBefore tx.timestamp list bond challengedNode blobHash r.timestampUs
    resolve J tx s bond challengedNode .blacklist
      (blacklistEvidence J challengedNode r.structHash isStreamResponse) salt

/-- `setChallengeBond`. -/
def setChallengeBond (tx : Tx) (s : State) (newBond : Nat) : Except Error State := do
  onlyRole tx .governance
  enforceBounds newBond challengeBondFloor challengeBondCeiling
  return { s with challengeBond := newBond }.emit tx (.challengeBondUpdated s.challengeBond newBond)

/-- `setMaxEvidenceAge`: the individual bounds and the paired check. -/
def setMaxEvidenceAge (tx : Tx) (s : State) (bond : CapacityBond.State) (newValueUs : Nat) :
    Except Error State := do
  onlyRole tx .governance
  enforceBounds newValueUs maxEvidenceAgeFloorUs maxEvidenceAgeCeilingUs
  enforceUnbondingInvariant newValueUs bond.params.unbondingPeriod
  return { s with maxEvidenceAgeUs := newValueUs }.emit tx
    (.maxEvidenceAgeUpdated s.maxEvidenceAgeUs newValueUs)

/-- `pause`. -/
def pause (tx : Tx) (s : State) : Except Error State := do
  onlyRole tx .pauser
  Guard.pausable tx.timestamp s.pauseDeadline s.paused .pauseExpired .enforcedPause
  return { s with paused := true }

/-- `unpause`. -/
def unpause (tx : Tx) (s : State) : Except Error State := do
  onlyRole tx .pauser
  Guard.require s.paused .expectedPause
  return { s with paused := false }

/-- The constructor's state. -/
def deploy (now : Nat) (bond : CapacityBond.State) (challengeBond maxEvidenceAgeUs : Nat) :
    Except Error State := do
  enforceBounds challengeBond challengeBondFloor challengeBondCeiling
  enforceBounds maxEvidenceAgeUs maxEvidenceAgeFloorUs maxEvidenceAgeCeilingUs
  enforceUnbondingInvariant maxEvidenceAgeUs bond.params.unbondingPeriod
  return {
    challengeBond := challengeBond
    maxEvidenceAgeUs := maxEvidenceAgeUs
    pauseDeadline := now + CapacityBond.pauseSunsetPeriod }

/-- The external state-changing functions. -/
inductive Call where
  | commitChallenge (commitment : Bytes32)
  | submitRateChallenge (challengedNode : Address) (nodeId : Bytes32)
      (probeResponseData probeSlashSig streamResponseData streamSlashSig : Bytes) (salt : Bytes32)
  | submitBlacklistChallenge (challengedNode : Address) (nodeId blobHash : Bytes32)
      (responseData slashSig : Bytes) (isStreamResponse : Bool) (salt : Bytes32)
  | setChallengeBond (newBond : Nat)
  | setMaxEvidenceAge (newValueUs : Nat)
  | pause
  | unpause

/-- A call that leaves CapacityBond alone. -/
def keepBond (bond : CapacityBond.State) (r : Except Error State) :
    Except Error (State × CapacityBond.State) := do
  let s ← r
  return (s, bond)

/-- Execute one external call. -/
def exec (J : Wiring) (tx : Tx) (s : State) (list : ContentBlacklist.State)
    (bond : CapacityBond.State) : Call → Except Error (State × CapacityBond.State)
  | .commitChallenge commitment => keepBond bond (commitChallenge tx s commitment)
  | .submitRateChallenge challengedNode nodeId probeResponseData probeSlashSig streamResponseData
      streamSlashSig salt =>
    submitRateChallenge J tx s bond challengedNode nodeId probeResponseData probeSlashSig
      streamResponseData streamSlashSig salt
  | .submitBlacklistChallenge challengedNode nodeId blobHash responseData slashSig isStreamResponse
      salt =>
    submitBlacklistChallenge J tx s list bond challengedNode nodeId blobHash responseData slashSig
      isStreamResponse salt
  | .setChallengeBond newBond => keepBond bond (setChallengeBond tx s newBond)
  | .setMaxEvidenceAge newValueUs => keepBond bond (setMaxEvidenceAge tx s bond newValueUs)
  | .pause => keepBond bond (pause tx s)
  | .unpause => keepBond bond (unpause tx s)

end Decdn.SlashJudge
