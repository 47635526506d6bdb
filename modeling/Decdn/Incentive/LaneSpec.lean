import Decdn.Incentive.Lane

/-!
# What a lane event can do

Every accepted event moves a lane in one of seven ways.  Each advance method has
one inversion theorem that says which of them it can make, with every check the
method passed; the invariants of lanes are proved from these alone.

Main results:

- Theorem `advancePresigned_cases`: a voucher bumps the epoch or rolls it.
- Theorem `adoptChain_cases`: a re-asserting voucher anchors or reopens.
- Theorem `advancePreimageVerified_cases`: a reveal is covered or advances.
- Theorem `LaneState.step_cases`: the seven moves of an event.
-/

namespace Decdn.Incentive

open PaymentPool (Crypto)

variable {H : Crypto} {s s' : LaneState} {sv : SignedVoucher} {applied : Applied}

/-! ## The moves -/

/-- A voucher under the live root: a higher anchor at the voucher's price, with
the frontier kept. -/
structure Bump (s : LaneState) (sv : SignedVoucher) (s' : LaneState) : Prop where
  root_eq : sv.voucher.chainRoot = s.chain.chainRoot
  amount_lt : s.lastAmount < sv.voucher.amount
  bytes_le : s.lastBytesDelivered ≤ sv.voucher.bytesDelivered
  within_cap : U256.saturatingAdd sv.voucher.amount
    ({ s.chain with chunkPrice := sv.voucher.chunkPrice } : LaneChain).accrued ≤ s.cap
  state_eq : s' = { s with
    chain := { s.chain with chunkPrice := sv.voucher.chunkPrice }
    lastAmount := sv.voucher.amount
    lastBytesDelivered := sv.voucher.bytesDelivered
    lastSignature := some sv.signature }

/-- A voucher under another root that folds the live claim on both axes. -/
structure Roll (s : LaneState) (sv : SignedVoucher) (s' : LaneState) : Prop where
  root_ne : sv.voucher.chainRoot ≠ s.chain.chainRoot
  amount_lt : s.lastAmount < sv.voucher.amount
  bytes_le : s.lastBytesDelivered ≤ sv.voucher.bytesDelivered
  within_cap : sv.voucher.amount ≤ s.cap
  folds : s.owed ≤ sv.voucher.amount
  folds_bytes : s.owedBytes ≤ sv.voucher.bytesDelivered
  state_eq : s' = { s with
    chain := LaneChain.opened sv.voucher.chainRoot sv.voucher.chunkPrice
    lastAmount := sv.voucher.amount
    lastBytesDelivered := sv.voucher.bytesDelivered
    lastSignature := some sv.signature }

/-- The first voucher of an epoch that a lane without a signature tracks. -/
structure Anchor (s : LaneState) (sv : SignedVoucher) (s' : LaneState) : Prop where
  root_ne_zero : sv.voucher.chainRoot ≠ 0
  root_eq : s.chain.chainRoot = sv.voucher.chainRoot
  unsigned : s.lastSignature = none
  state_eq : s' = { s with
    chain := { s.chain with chunkPrice := sv.voucher.chunkPrice }
    lastAmount := sv.voucher.amount
    lastBytesDelivered := sv.voucher.bytesDelivered
    lastSignature := some sv.signature }

/-- A voucher exactly at the watermark that replaces a chain which has proved
nothing. -/
structure Reopen (s : LaneState) (sv : SignedVoucher) (s' : LaneState) : Prop where
  root_ne_zero : sv.voucher.chainRoot ≠ 0
  root_ne : s.chain.chainRoot ≠ sv.voucher.chainRoot
  unproved : s.chain.verifiedIndex = 0
  amount_eq : sv.voucher.amount = s.lastAmount
  bytes_eq : sv.voucher.bytesDelivered = s.lastBytesDelivered
  state_eq : s' = { s with
    chain := LaneChain.opened sv.voucher.chainRoot sv.voucher.chunkPrice
    lastSignature := some sv.signature }

/-- A preimage deeper than the frontier of the live root. -/
structure Reveal (H : Crypto) (s : LaneState) (root : Bytes32) (index : UInt8)
    (preimage : Bytes32) (s' : LaneState) : Prop where
  root_ne_zero : root ≠ 0
  root_eq : root = s.chain.chainRoot
  deeper : s.chain.verifiedIndex < index.toNat
  walks : hashForward H preimage (index.toNat - s.chain.verifiedIndex) = s.chain.tip
  within_cap : U256.saturatingAdd s.lastAmount
    ({ s.chain with verifiedIndex := index.toNat, tip := preimage } : LaneChain).accrued ≤ s.cap
  state_eq : s' = { s with
    chain := { s.chain with verifiedIndex := index.toNat, tip := preimage } }

/-! ## Claims of a lane -/

/-- A lane without a signature is owed nothing. -/
theorem owed_of_unsigned (h : s.lastSignature = none) : s.owed = 0 ∧ s.owedBytes = 0 := by
  unfold LaneState.owed LaneState.owedBytes LaneState.liveClaim
  rw [h]
  exact ⟨rfl, rfl⟩

/-- A signed lane is owed its anchor and its frontier. -/
theorem owed_of_signed {signature : Signature} (h : s.lastSignature = some signature) :
    s.owed = U256.wrappingAdd s.lastAmount s.chain.accrued ∧
      s.owedBytes = U256.wrappingAdd s.lastBytesDelivered s.chain.accruedBytes := by
  unfold LaneState.owed LaneState.owedBytes LaneState.liveClaim
  rw [h]
  exact ⟨rfl, rfl⟩

/-- A voucher at or above the live claim folds it. -/
theorem owed_le_of_not_any {n : Nat}
    (h : ¬ s.liveClaim.any (fun live => decide (n < live.value)) = true) : s.owed ≤ n := by
  unfold LaneState.owed
  cases hlive : s.liveClaim with
  | none => exact Nat.zero_le n
  | some live => simpa [hlive] using h

/-- The same on the byte axis. -/
theorem owedBytes_le_of_not_any {n : Nat}
    (h : ¬ s.liveClaim.any (fun live => decide (n < live.bytesValue)) = true) :
    s.owedBytes ≤ n := by
  unfold LaneState.owedBytes
  cases hlive : s.liveClaim with
  | none => exact Nat.zero_le n
  | some live => simpa [hlive] using h

/-! ## Inversion -/

/-- An accepted voucher advances the amount, and bumps or rolls the epoch. -/
theorem advancePresigned_cases (h : s.advancePresigned sv = .ok (s', applied)) :
    applied = ⟨sv.voucher.amount - s.lastAmount,
      sv.voucher.bytesDelivered - s.lastBytesDelivered⟩ ∧ (Bump s sv s' ∨ Roll s sv s') := by
  unfold LaneState.advancePresigned at h
  dsimp only at h
  split at h
  · split at h <;> cases h
  rename_i hamount
  split at h
  · cases h
  rename_i hbytes
  split at h
  · cases h
  rename_i hcap
  split at h
  · rename_i hroot
    split at h
    · cases h
    rename_i hclaimed
    rcases Prod.mk.inj (Except.ok.inj h) with ⟨hs, ha⟩
    refine ⟨ha.symm, .inl ?_⟩
    exact ⟨hroot, by omega, by omega, Nat.le_of_not_lt hclaimed, hs.symm⟩
  · rename_i hroot
    split at h
    · cases h
    rename_i hfold
    split at h
    · cases h
    rename_i hfoldBytes
    rcases Prod.mk.inj (Except.ok.inj h) with ⟨hs, ha⟩
    refine ⟨ha.symm, .inr ?_⟩
    exact ⟨hroot, by omega, by omega, by omega, owed_le_of_not_any hfold,
      owedBytes_le_of_not_any hfoldBytes, hs.symm⟩

/-- An adopted voucher anchors an unsigned lane or reopens an unproved one. -/
theorem adoptChain_cases (h : s.adoptChain sv = some s') : Anchor s sv s' ∨ Reopen s sv s' := by
  unfold LaneState.adoptChain at h
  dsimp only at h
  split at h
  · cases h
  rename_i hzero
  split at h
  · rename_i hroot
    split at h
    · cases h
    rename_i hunsigned
    left
    exact ⟨hzero, hroot, by simpa using hunsigned, (Option.some.inj h).symm⟩
  · rename_i hroot
    split at h
    · cases h
    rename_i hproved
    split at h
    · cases h
    rename_i hmark
    simp only [not_or, not_not] at hmark
    right
    exact ⟨hzero, hroot, by omega, hmark.1, hmark.2, (Option.some.inj h).symm⟩

/-- A tracked root is the live one. -/
theorem chainSlot_eq_some {root : Bytes32} {target : LaneChain}
    (h : s.chainSlot root = some target) :
    root ≠ 0 ∧ root = s.chain.chainRoot ∧ target = s.chain := by
  unfold LaneState.chainSlot at h
  split at h
  · rename_i hroot
    exact ⟨hroot.1, hroot.2, (Option.some.inj h).symm⟩
  · cases h

/-- An accepted reveal is covered already and adds nothing, or deepens the
frontier by what it reports. -/
theorem advancePreimageVerified_cases {root preimage : Bytes32} {index : UInt8}
    {walked : Option (Nat × Bytes32)}
    (h : s.advancePreimageVerified H root index preimage walked
      (LaneState.walk H index preimage walked) = .ok (s', applied)) :
    (s' = s ∧ applied = {}) ∨
      (Reveal H s root index preimage s' ∧
        applied = ⟨U256.wrappingMul s.chain.chunkPrice (index.toNat - s.chain.verifiedIndex),
          U256.wrappingMul chunkBytes (index.toNat - s.chain.verifiedIndex)⟩) := by
  unfold LaneState.advancePreimageVerified at h
  split at h
  · left
    rcases Prod.mk.inj (Except.ok.inj h) with ⟨hs, ha⟩
    exact ⟨hs.symm, ha.symm⟩
  rename_i target hslot
  rcases chainSlot_eq_some hslot with ⟨hzero, hroot, rfl⟩
  split at h
  · left
    rcases Prod.mk.inj (Except.ok.inj h) with ⟨hs, ha⟩
    exact ⟨hs.symm, ha.symm⟩
  rename_i hdeeper
  -- A trusted walk was made against the live frontier, so both ways of
  -- verifying say the same.
  have hwalk : (if walked = some (s.chain.verifiedIndex, s.chain.tip) then
      LaneState.walk H index preimage walked
      else verifyForward H preimage (index.toNat - s.chain.verifiedIndex) s.chain.tip) =
      verifyForward H preimage (index.toNat - s.chain.verifiedIndex) s.chain.tip := by
    split
    · rename_i hlive
      rw [hlive]
      rfl
    · rfl
  rw [hwalk] at h
  dsimp only at h
  split at h
  · cases h
  rename_i hverified
  split at h
  · cases h
  rename_i hcap
  rcases Prod.mk.inj (Except.ok.inj h) with ⟨hs, ha⟩
  right
  refine ⟨⟨hzero, hroot, by omega, ?_, Nat.le_of_not_lt hcap, hs.symm⟩, ha.symm⟩
  simpa [verifyForward] using hverified

/-! ## Sufficient conditions -/

/-- A voucher under the live root that raises the claim is taken. -/
theorem advancePresigned_bump (hroot : sv.voucher.chainRoot = s.chain.chainRoot)
    (hamount : s.lastAmount < sv.voucher.amount)
    (hbytes : s.lastBytesDelivered ≤ sv.voucher.bytesDelivered) (hcap : sv.voucher.amount ≤ s.cap)
    (hclaim : U256.saturatingAdd sv.voucher.amount
      ({ s.chain with chunkPrice := sv.voucher.chunkPrice } : LaneChain).accrued ≤ s.cap) :
    s.advancePresigned sv = .ok ({ s with
      chain := { s.chain with chunkPrice := sv.voucher.chunkPrice }
      lastAmount := sv.voucher.amount
      lastBytesDelivered := sv.voucher.bytesDelivered
      lastSignature := some sv.signature },
      ⟨sv.voucher.amount - s.lastAmount, sv.voucher.bytesDelivered - s.lastBytesDelivered⟩) := by
  unfold LaneState.advancePresigned
  dsimp only
  rw [if_neg (Nat.not_le.mpr hamount), if_neg (Nat.not_lt.mpr hbytes),
    if_neg (Nat.not_lt.mpr hcap), if_pos hroot, if_neg (Nat.not_lt.mpr hclaim)]

/-- A voucher at or above the live claim is no under-fold. -/
theorem not_any_of_owed_le {n : Nat} (h : s.owed ≤ n) :
    ¬ s.liveClaim.any (fun live => decide (n < live.value)) = true := by
  unfold LaneState.owed at h
  cases hlive : s.liveClaim with
  | none => simp
  | some live => simpa [hlive] using h

/-- The same on the byte axis. -/
theorem not_any_of_owedBytes_le {n : Nat} (h : s.owedBytes ≤ n) :
    ¬ s.liveClaim.any (fun live => decide (n < live.bytesValue)) = true := by
  unfold LaneState.owedBytes at h
  cases hlive : s.liveClaim with
  | none => simp
  | some live => simpa [hlive] using h

/-- A voucher under another root that folds the live claim is taken. -/
theorem advancePresigned_roll (hroot : sv.voucher.chainRoot ≠ s.chain.chainRoot)
    (hamount : s.lastAmount < sv.voucher.amount)
    (hbytes : s.lastBytesDelivered ≤ sv.voucher.bytesDelivered) (hcap : sv.voucher.amount ≤ s.cap)
    (hfolds : s.owed ≤ sv.voucher.amount) (hfoldsBytes : s.owedBytes ≤ sv.voucher.bytesDelivered) :
    s.advancePresigned sv = .ok ({ s with
      chain := LaneChain.opened sv.voucher.chainRoot sv.voucher.chunkPrice
      lastAmount := sv.voucher.amount
      lastBytesDelivered := sv.voucher.bytesDelivered
      lastSignature := some sv.signature },
      ⟨sv.voucher.amount - s.lastAmount, sv.voucher.bytesDelivered - s.lastBytesDelivered⟩) := by
  unfold LaneState.advancePresigned
  dsimp only
  rw [if_neg (Nat.not_le.mpr hamount), if_neg (Nat.not_lt.mpr hbytes),
    if_neg (Nat.not_lt.mpr hcap), if_neg hroot, if_neg (not_any_of_owed_le hfolds),
    if_neg (not_any_of_owedBytes_le hfoldsBytes)]

/-- A voucher at or below the watermark regresses, unless it opens another chain
over a claim it does not fold. -/
theorem advancePresigned_regress (hamount : sv.voucher.amount ≤ s.lastAmount)
    (hfolds : sv.voucher.amount = s.lastAmount → sv.voucher.chainRoot = 0 ∨
      sv.voucher.chainRoot = s.chain.chainRoot ∨ s.owed ≤ sv.voucher.amount) :
    s.advancePresigned sv = .error (.amountRegression s.lastAmount sv.voucher.amount) := by
  unfold LaneState.advancePresigned
  dsimp only
  rw [if_pos hamount, if_neg]
  rintro ⟨heq, hzero, hroot, hany⟩
  rcases hfolds heq with h | h | h
  · exact hzero h
  · exact hroot h
  · exact not_any_of_owed_le h hany

/-- At the watermark, a voucher that opens another chain below the live claim
under-folds. -/
theorem advancePresigned_underFold (hamount : sv.voucher.amount = s.lastAmount)
    (hzero : sv.voucher.chainRoot ≠ 0) (hroot : sv.voucher.chainRoot ≠ s.chain.chainRoot)
    (hlive : sv.voucher.amount < s.owed) :
    s.advancePresigned sv = .error (.underFold .amount s.owed sv.voucher.amount) := by
  have hany : s.liveClaim.any (fun live => decide (sv.voucher.amount < live.value)) = true := by
    unfold LaneState.owed at hlive
    cases hclaim : s.liveClaim with
    | none => simp [hclaim] at hlive
    | some live => simpa [hclaim] using hlive
  unfold LaneState.advancePresigned
  dsimp only
  rw [if_pos (le_of_eq hamount), if_pos ⟨hamount, hzero, hroot, hany⟩]

/-- A deeper preimage of the live root is folded, whatever frontier it was walked
against. -/
theorem advancePreimageVerified_deeper {root preimage : Bytes32} {index : UInt8}
    (walked : Option (Nat × Bytes32)) (hzero : root ≠ 0) (hroot : root = s.chain.chainRoot)
    (hdeeper : s.chain.verifiedIndex < index.toNat)
    (hwalks : hashForward H preimage (index.toNat - s.chain.verifiedIndex) = s.chain.tip)
    (hcap : U256.saturatingAdd s.lastAmount
      ({ s.chain with verifiedIndex := index.toNat, tip := preimage } : LaneChain).accrued ≤
        s.cap) :
    s.advancePreimageVerified H root index preimage walked
      (LaneState.walk H index preimage walked) =
      .ok ({ s with chain := { s.chain with verifiedIndex := index.toNat, tip := preimage } },
        ⟨U256.wrappingMul s.chain.chunkPrice (index.toNat - s.chain.verifiedIndex),
          U256.wrappingMul chunkBytes (index.toNat - s.chain.verifiedIndex)⟩) := by
  have hslot : s.chainSlot root = some s.chain := if_pos ⟨hzero, hroot⟩
  have hverified : verifyForward H preimage (index.toNat - s.chain.verifiedIndex) s.chain.tip =
      true := decide_eq_true hwalks
  have hwalk : (if walked = some (s.chain.verifiedIndex, s.chain.tip) then
      LaneState.walk H index preimage walked
      else verifyForward H preimage (index.toNat - s.chain.verifiedIndex) s.chain.tip) = true := by
    split
    · rename_i hlive
      rw [hlive]
      exact hverified
    · exact hverified
  unfold LaneState.advancePreimageVerified
  rw [hslot]
  dsimp only
  rw [if_neg (Nat.not_le.mpr hdeeper), hwalk, if_neg (by simp), if_neg (Nat.not_lt.mpr hcap)]

/-- A preimage of another root, or no deeper than the frontier, changes nothing. -/
theorem advancePreimageVerified_covered {root preimage : Bytes32} {index : UInt8}
    (walked : Option (Nat × Bytes32)) (walkedOk : Bool)
    (hcovered : root ≠ s.chain.chainRoot ∨ index.toNat ≤ s.chain.verifiedIndex) :
    s.advancePreimageVerified H root index preimage walked walkedOk = .ok (s, {}) := by
  unfold LaneState.advancePreimageVerified
  split
  · rfl
  · rename_i target hslot
    rcases chainSlot_eq_some hslot with ⟨-, hroot, rfl⟩
    rw [if_pos (hcovered.resolve_left (not_not.mpr hroot))]

/-! ## Events -/

/-- The event releases `preimage` at `index` under `root`. -/
inductive LaneEvent.Releases (root : Bytes32) (index : UInt8) (preimage : Bytes32) :
    LaneEvent → Prop where
  | locked : LaneEvent.Releases root index preimage (.preimage root index preimage)
  | walked (walked : Option (Nat × Bytes32)) :
      LaneEvent.Releases root index preimage (.preimageVerified root index preimage walked)

/-- The ways an accepted event moves a lane. -/
inductive LaneMove (H : Crypto) (s : LaneState) : LaneEvent → LaneState → Prop where
  | covered {e : LaneEvent} {root preimage : Bytes32} {index : UInt8}
      (he : e.Releases root index preimage) : LaneMove H s e s
  | bump {sv : SignedVoucher} {s' : LaneState} (h : Bump s sv s') :
      LaneMove H s (.presigned sv) s'
  | roll {sv : SignedVoucher} {s' : LaneState} (h : Roll s sv s') :
      LaneMove H s (.presigned sv) s'
  | anchor {sv : SignedVoucher} {s' : LaneState} (h : Anchor s sv s') :
      LaneMove H s (.adopt sv) s'
  | reopen {sv : SignedVoucher} {s' : LaneState} (h : Reopen s sv s') :
      LaneMove H s (.adopt sv) s'
  | reveal {e : LaneEvent} {root preimage : Bytes32} {index : UInt8} {s' : LaneState}
      (he : e.Releases root index preimage) (h : Reveal H s root index preimage s') :
      LaneMove H s e s'
  | clamp {cap expiry : UInt64} :
      LaneMove H s (.clamp cap expiry) (s.clampToRegistration cap expiry)

/-- A successful result seen through `toOption`. -/
theorem toOption_map_fst {r : Except PoolError (LaneState × Applied)}
    (h : r.toOption.map Prod.fst = some s') : ∃ applied, r = .ok (s', applied) := by
  cases r with
  | error e => simp [Except.toOption] at h
  | ok p =>
    rcases p with ⟨t, applied⟩
    simp only [Except.toOption, Option.map_some, Option.some.injEq] at h
    subst h
    exact ⟨applied, rfl⟩

/-- Every accepted event is one of the moves. -/
theorem LaneState.step_cases {e : LaneEvent} (h : s.step H e s') : LaneMove H s e s' := by
  unfold LaneState.step at h
  cases e with
  | presigned sv =>
    rcases toOption_map_fst h with ⟨applied, hok⟩
    rcases advancePresigned_cases hok with ⟨-, hbump | hroll⟩
    · exact .bump hbump
    · exact .roll hroll
  | adopt sv =>
    rcases adoptChain_cases h with hanchor | hreopen
    · exact .anchor hanchor
    · exact .reopen hreopen
  | preimage root index preimage =>
    rcases toOption_map_fst h with ⟨applied, hok⟩
    rcases advancePreimageVerified_cases hok with ⟨rfl, -⟩ | ⟨hreveal, -⟩
    · exact .covered .locked
    · exact .reveal .locked hreveal
  | preimageVerified root index preimage walked =>
    rcases toOption_map_fst h with ⟨applied, hok⟩
    rcases advancePreimageVerified_cases hok with ⟨rfl, -⟩ | ⟨hreveal, -⟩
    · exact .covered (.walked walked)
    · exact .reveal (.walked walked) hreveal
  | clamp cap expiry =>
    obtain rfl := Option.some.inj h
    exact .clamp

end Decdn.Incentive
