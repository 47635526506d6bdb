import Decdn.SlashJudge.Contract
import Decdn.CapacityBond.SlashingSpec
import Decdn.Foundations.Fallible

/-!
# Specifications of the SlashJudge functions

One inversion lemma for each call: what a call that returns has checked, and what
it wrote.  A reveal is described once, by `Revealed`, for both kinds of challenge.

Main results:

- Theorem `checkStaleness_eq_ok`: which timestamps are fresh.
- Theorem `checkBlacklistedBefore_eq_ok`: which responses are blacklist violations.
- Theorem `resolve_cases`: a reveal consumes a matured commitment and unused evidence.
- Theorem `exec_cases`: every call is a commit, a reveal or a parameter change.
-/

namespace Decdn.SlashJudge

open CapacityBond (Bytes)
open ContentBlacklist (globalRegion scopeAt HashEntry)

variable {J : Wiring} {tx : Tx} {s s' : State} {list : ContentBlacklist.State}
  {bond bond' : CapacityBond.State} {now : Nat}

/-! ## Guards -/

/-- The paired check: the evidence age stays below the unbonding period. -/
theorem enforceUnbondingInvariant_lt {ageUs period : Nat} {u : Unit}
    (h : enforceUnbondingInvariant ageUs period = .ok u) : ageUs < 1000000 * period := by
  unfold enforceUnbondingInvariant at h
  split at h
  · cases h
  split at h
  · cases h
  rename_i hlt
  omega

theorem decoded_eq_ok {α : Type} {o : Option α} {m : α} : decoded o = .ok m ↔ o = some m := by
  unfold decoded
  split <;> simp_all

/-! ## Evidence -/

/-- The age of evidence in microseconds; evidence from the future has age zero. -/
def ageUs (now : Nat) (evidenceTsUs : UInt64) : Nat :=
  1000000 * now - evidenceTsUs.toNat

/-- Evidence is fresh when it is at most a minute ahead and younger than the ceiling. -/
theorem checkStaleness_eq_ok {ts : UInt64} {u : Unit} :
    checkStaleness now s ts = .ok u ↔
      ts.toNat ≤ 1000000 * now + maxFutureSkewUs ∧ ageUs now ts < s.maxEvidenceAgeUs := by
  have hage : (if 1000000 * now ≤ ts.toNat then 0 else 1000000 * now - ts.toNat) = ageUs now ts := by
    unfold ageUs
    split <;> omega
  unfold checkStaleness
  dsimp only
  rw [hage]
  split
  · rename_i hfuture
    simp only [reduceCtorEq, false_iff]
    omega
  · rename_i hpast
    split
    · rename_i hold
      simp only [reduceCtorEq, false_iff]
      omega
    · rename_i hfresh
      simp only [true_iff]
      omega

/-- A present entry lapses for the judge exactly when it lapses for the blacklist. -/
theorem emergencyExpired_eq {emergency : Bool} {addedAt : Nat} {category : UInt8}
    (h : addedAt ≠ 0) :
    emergencyExpired now emergency addedAt category =
      ContentBlacklist.emergencyExpired now emergency addedAt category := by
  have hbne : (addedAt != 0) = true := bne_iff_ne.mpr h
  unfold emergencyExpired ContentBlacklist.emergencyExpired
  rw [hbne, Bool.and_true]
  rfl

/-- An entry counts against a response when it is live now and took effect before it. -/
theorem liveBefore_eq_true {region hash : Bytes32} {ts : UInt64} :
    liveBefore now list region hash ts = true ↔
      ContentBlacklist.isLive list now region hash = true ∧
        1000000 * (list.hashEntries region hash).effectiveAt < ts.toNat := by
  unfold liveBefore ContentBlacklist.isLive HashEntry.live
  dsimp only
  split
  · rename_i hnone
    simp [hnone]
  · rename_i hsome
    rw [emergencyExpired_eq hsome]
    split
    · rename_i hexpired
      simp [hexpired]
    · rename_i hexpired
      simp [hsome, hexpired]

theorem regionalLiveBefore_eq_true {operator : Address} {hash : Bytes32} {ts : UInt64} :
    regionalLiveBefore now list bond operator hash ts = true ↔
      ((scopeAt bond operator (ts.toNat / 1000000)).currentKey ≠ 0 ∧
        liveBefore now list (scopeAt bond operator (ts.toNat / 1000000)).currentKey hash ts = true) ∨
      ((scopeAt bond operator (ts.toNat / 1000000)).prevApplies = true ∧
        liveBefore now list (scopeAt bond operator (ts.toNat / 1000000)).prevKey hash ts = true) := by
  unfold regionalLiveBefore
  dsimp only
  split
  · rename_i hcur
    exact iff_of_true rfl (.inl hcur)
  · rename_i hcur
    split
    · rename_i hprev
      exact iff_of_true rfl (.inr hprev)
    · rename_i hprev
      exact iff_of_false Bool.false_ne_true fun h => h.elim hcur hprev

/-- A response violates the blacklist when an entry in scope counts against it. -/
theorem checkBlacklistedBefore_eq_ok {operator : Address} {hash : Bytes32} {ts : UInt64}
    {u : Unit} :
    checkBlacklistedBefore now list bond operator hash ts = .ok u ↔
      liveBefore now list globalRegion hash ts = true ∨
        regionalLiveBefore now list bond operator hash ts = true := by
  have hglobal : liveBefore now list globalRegion hash ts = true ↔
      ((list.hashEntries globalRegion hash).addedAt ≠ 0 ∧
        emergencyExpired now (list.hashEntries globalRegion hash).emergency
          (list.hashEntries globalRegion hash).addedAt
          (list.hashEntries globalRegion hash).category = false) ∧
      1000000 * (list.hashEntries globalRegion hash).effectiveAt < ts.toNat := by
    unfold liveBefore
    dsimp only
    split
    · simp_all
    · split <;> simp_all
  rw [hglobal]
  unfold checkBlacklistedBefore
  dsimp only
  split
  · split
    · simp_all
    · split <;> simp_all
  · split <;> simp_all

/-! ## Reveals -/

/-- What an accepted reveal of `evidenceHash` with `salt` did: it consumed the sender's
commitment, made between the two delays earlier, and unused evidence, and slashed once. -/
structure Revealed (J : Wiring) (tx : Tx) (s s' : State) (bond bond' : CapacityBond.State)
    (operator : Address) (offenseType : OffenseType) (evidenceHash salt : Bytes32) : Prop where
  committed : s.commitments (commitmentOf J evidenceHash salt tx.sender) ≠ 0
  matured : s.commitments (commitmentOf J evidenceHash salt tx.sender) + minRevealDelay ≤
    tx.timestamp
  unexpired : tx.timestamp ≤
    s.commitments (commitmentOf J evidenceHash salt tx.sender) + revealWindow
  unused : s.usedEvidenceHash evidenceHash = false
  slashed : ∃ slashId amount,
    CapacityBond.slash tx.bond bond operator tx.sender offenseType.toUInt8 evidenceHash =
      .ok (bond', slashId, amount) ∧
    s' = { s with
      commitments :=
        Function.update s.commitments (commitmentOf J evidenceHash salt tx.sender) 0
      usedEvidenceHash := Function.update s.usedEvidenceHash evidenceHash true
      log := s.log ++
        [(tx.timestamp, .slashed slashId operator offenseType amount evidenceHash)] }

theorem resolve_cases {operator : Address} {offenseType : OffenseType}
    {evidenceHash salt : Bytes32}
    (h : resolve J tx s bond operator offenseType evidenceHash salt = .ok (s', bond')) :
    Revealed J tx s s' bond bond' operator offenseType evidenceHash salt := by
  unfold resolve at h
  dsimp only at h
  split at h
  · cases h
  rename_i hcommitted
  split at h
  · cases h
  rename_i hmatured
  split at h
  · cases h
  rename_i hexpired
  split at h
  · cases h
  rename_i hunused
  split at h
  · cases h
  split at h
  · cases h
  rename_i bond'' slashId amount hslash
  split at h
  · cases h
  rcases Prod.mk.inj (Except.ok.inj h) with ⟨rfl, rfl⟩
  refine ⟨hcommitted, not_lt.mp hmatured, not_lt.mp hexpired, by simpa using hunused, slashId,
    amount, hslash, ?_⟩
  simp only [State.emit, Nat.add_sub_cancel]

/-- The evidence of an accepted rate challenge is that of its stream response. -/
theorem submitRateChallenge_cases {node : Address} {nodeId salt : Bytes32}
    {probeData probeSig streamData streamSig : Bytes}
    (h : submitRateChallenge J tx s bond node nodeId probeData probeSig streamData streamSig salt =
      .ok (s', bond')) :
    ∃ m, J.decodeStream streamData = some m ∧
      signedBy J node (streamStructHash J m) streamSig = true ∧
      Revealed J tx s s' bond bond' node .rateManipulation
        (rateEvidence J node (streamStructHash J m)) salt := by
  unfold submitRateChallenge verifyPair at h
  simp only [bind_eq_ok] at h
  rcases h with ⟨_, -, _, -, evidenceHash, ⟨p, -, m, hm, hverify⟩, hresolve⟩
  rw [decoded_eq_ok] at hm
  split at hverify
  · cases hverify
  split at hverify
  · cases hverify
  rename_i hsigned
  split at hverify
  · cases hverify
  split at hverify
  · cases hverify
  simp only [bind_eq_ok] at hverify
  rcases hverify with ⟨_, -, hverify⟩
  split at hverify
  · cases hverify
  rcases pure_eq_ok.mp hverify with rfl
  exact ⟨m, hm, by simpa using hsigned, resolve_cases hresolve⟩

/-- The evidence of an accepted blacklist challenge is that of its response. -/
theorem submitBlacklistChallenge_cases {node : Address} {nodeId blobHash salt : Bytes32}
    {responseData sig : Bytes} {isStream : Bool}
    (h : submitBlacklistChallenge J tx s list bond node nodeId blobHash responseData sig isStream
      salt = .ok (s', bond')) :
    ∃ r, decodeServed J responseData isStream = .ok r ∧
      signedBy J node r.structHash sig = true ∧ r.hash = blobHash ∧
      checkStaleness tx.timestamp s r.timestampUs = .ok () ∧
      checkBlacklistedBefore tx.timestamp list bond node blobHash r.timestampUs = .ok () ∧
      Revealed J tx s s' bond bond' node .blacklist
        (blacklistEvidence J node r.structHash isStream) salt := by
  unfold submitBlacklistChallenge at h
  simp only [bind_eq_ok] at h
  rcases h with ⟨_, -, _, -, r, hr, h⟩
  split at h
  · cases h
  rename_i hsigned
  split at h
  · cases h
  rename_i hhash
  split at h
  · cases h
  simp only [bind_eq_ok] at h
  rcases h with ⟨_, hstale, _, hlisted, hresolve⟩
  exact ⟨r, hr, by simpa using hsigned, not_not.mp hhash, hstale, hlisted, resolve_cases hresolve⟩

/-! ## Calls -/

theorem keepBond_eq_ok {r : Except Error State} :
    keepBond bond r = .ok (s', bond') ↔ r = .ok s' ∧ bond' = bond := by
  unfold keepBond
  simp only [bind_eq_ok, pure_eq_ok, Prod.mk.injEq]
  constructor
  · rintro ⟨t, ht, rfl, rfl⟩
    exact ⟨ht, rfl⟩
  · rintro ⟨ht, rfl⟩
    exact ⟨s', ht, rfl, rfl⟩

/-- A commit stamps its slot, which was free or expired. -/
theorem commitChallenge_cases {commitment : Bytes32}
    (h : commitChallenge tx s commitment = .ok s') :
    (s.commitments commitment = 0 ∨ s.commitments commitment + revealWindow < tx.timestamp) ∧
      s' = { s with
        commitments := Function.update s.commitments commitment tx.timestamp
        log := s.log ++ [(tx.timestamp, .challengeCommitted commitment)] } := by
  have hmod : tx.timestamp % 2 ^ 64 = tx.timestamp := by
    have hle := tx.timestamp_le
    unfold u64Max at hle
    omega
  unfold commitChallenge at h
  simp only [bind_eq_ok, hmod] at h
  rcases h with ⟨_, -, h⟩
  split at h
  · cases h
  rename_i hfree
  rcases pure_eq_ok.mp h with rfl
  refine ⟨?_, rfl⟩
  by_cases hzero : s.commitments commitment = 0
  · exact .inl hzero
  · exact .inr (not_le.mp fun hle => hfree ⟨hzero, hle⟩)

theorem setMaxEvidenceAge_cases {newValueUs : Nat}
    (h : setMaxEvidenceAge tx s bond newValueUs = .ok s') :
    newValueUs < 1000000 * bond.params.unbondingPeriod ∧
      s' = { s with
        maxEvidenceAgeUs := newValueUs
        log := s.log ++ [(tx.timestamp, .maxEvidenceAgeUpdated s.maxEvidenceAgeUs newValueUs)] } := by
  unfold setMaxEvidenceAge at h
  simp only [bind_eq_ok, pure_eq_ok] at h
  rcases h with ⟨_, -, _, -, _, hpair, rfl⟩
  exact ⟨enforceUnbondingInvariant_lt hpair, rfl⟩

/-- An event that names no commitment and no evidence. -/
def Event.Settings : Event → Prop
  | .challengeBondUpdated .. | .maxEvidenceAgeUpdated .. => True
  | _ => False

/-- Every call is a commit, a reveal, or a change of the settings. -/
theorem exec_cases {c : Call} (h : exec J tx s list bond c = .ok (s', bond')) :
    (∃ commitment, c = .commitChallenge commitment ∧ bond' = bond ∧
      commitChallenge tx s commitment = .ok s') ∨
    (∃ operator offenseType evidenceHash salt,
      Revealed J tx s s' bond bond' operator offenseType evidenceHash salt ∧
      s'.maxEvidenceAgeUs = s.maxEvidenceAgeUs) ∨
    (bond' = bond ∧ s'.commitments = s.commitments ∧ s'.usedEvidenceHash = s.usedEvidenceHash ∧
      (∃ events, (∀ e ∈ events, e.2.Settings) ∧ s'.log = s.log ++ events) ∧
      (s'.maxEvidenceAgeUs = s.maxEvidenceAgeUs ∨ ∃ newValueUs, c = .setMaxEvidenceAge newValueUs ∧
        s'.maxEvidenceAgeUs = newValueUs ∧
        newValueUs < 1000000 * bond.params.unbondingPeriod)) := by
  have hreveal : ∀ {operator offenseType evidenceHash salt},
      Revealed J tx s s' bond bond' operator offenseType evidenceHash salt →
      s'.maxEvidenceAgeUs = s.maxEvidenceAgeUs := by
    intro operator offenseType evidenceHash salt hr
    rcases hr.slashed with ⟨slashId, amount, -, rfl⟩
    rfl
  cases c with
  | commitChallenge commitment =>
    rcases keepBond_eq_ok.mp h with ⟨hcommit, rfl⟩
    exact .inl ⟨commitment, rfl, rfl, hcommit⟩
  | submitRateChallenge node nodeId probeData probeSig streamData streamSig salt =>
    rcases submitRateChallenge_cases h with ⟨m, -, -, hr⟩
    exact .inr (.inl ⟨node, _, _, salt, hr, hreveal hr⟩)
  | submitBlacklistChallenge node nodeId blobHash responseData sig isStream salt =>
    rcases submitBlacklistChallenge_cases h with ⟨r, -, -, -, -, -, hr⟩
    exact .inr (.inl ⟨node, _, _, salt, hr, hreveal hr⟩)
  | setChallengeBond newBond =>
    rcases keepBond_eq_ok.mp h with ⟨hset, rfl⟩
    unfold setChallengeBond at hset
    simp only [bind_eq_ok, pure_eq_ok] at hset
    rcases hset with ⟨_, -, _, -, rfl⟩
    exact .inr (.inr ⟨rfl, rfl, rfl, ⟨_, by simp [Event.Settings], rfl⟩, .inl rfl⟩)
  | setMaxEvidenceAge newValueUs =>
    rcases keepBond_eq_ok.mp h with ⟨hset, rfl⟩
    rcases setMaxEvidenceAge_cases hset with ⟨hpair, rfl⟩
    exact .inr (.inr ⟨rfl, rfl, rfl, ⟨_, by simp [Event.Settings], rfl⟩,
      .inr ⟨newValueUs, rfl, rfl, hpair⟩⟩)
  | pause =>
    rcases keepBond_eq_ok.mp h with ⟨hset, rfl⟩
    unfold pause at hset
    simp only [bind_eq_ok, pure_eq_ok] at hset
    rcases hset with ⟨_, -, _, -, rfl⟩
    exact .inr (.inr ⟨rfl, rfl, rfl, ⟨[], by simp, (List.append_nil _).symm⟩, .inl rfl⟩)
  | unpause =>
    rcases keepBond_eq_ok.mp h with ⟨hset, rfl⟩
    unfold unpause at hset
    simp only [bind_eq_ok, pure_eq_ok] at hset
    rcases hset with ⟨_, -, _, -, rfl⟩
    exact .inr (.inr ⟨rfl, rfl, rfl, ⟨[], by simp, (List.append_nil _).symm⟩, .inl rfl⟩)

end Decdn.SlashJudge
