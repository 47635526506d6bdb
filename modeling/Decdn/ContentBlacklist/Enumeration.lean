import Decdn.ContentBlacklist.Spec

/-!
# Enumeration of the blacklist

What is denied changes with time alone, while the indexes change on calls only.
The entry index therefore holds every stored entry, lapsed or not, and the address
index holds every address that a list still denies: time only takes denials away.

Main results:

- Theorem `Indexed.effect`, Theorem `Listed.effect` and Theorem `Paired.effect`: every
  call keeps the entry index, the address index and the body registry.
- Theorem `enumeration_complete`: no live denial is missed in any reachable state.
-/

namespace Decdn.ContentBlacklist

variable {L : Sets} {tx : Tx} {s s' : State} {c : Call} {now later : Nat}

/-! ## Entries -/

/-- The index of each region holds exactly the hashes with an entry, and emergency entries
are global. -/
structure Indexed (s : State) : Prop where
  nodup : ∀ region, (s.regionHashes region).Nodup
  mem_iff : ∀ region hash,
    hash ∈ s.regionHashes region ↔ (s.hashEntries region hash).addedAt ≠ 0
  emergency : ∀ region hash, (s.hashEntries region hash).emergency = true →
    region = globalRegion

/-- An entry that was just added is present, and an emergency only if the add or the entry
was one. -/
theorem addedEntry_cases {region hash : Bytes32} {emergency : Bool} {category : Category}
    {e : HashEntry} (h : addedEntry tx s region hash emergency category = .ok e) :
    e.addedAt ≠ 0 ∧
      (e.emergency = true → emergency = true ∨ (s.hashEntries region hash).emergency = true) := by
  unfold addedEntry at h
  dsimp only at h
  split at h
  · rename_i hlive
    have hadded : (s.hashEntries region hash).addedAt ≠ 0 := by
      simp only [isLive, HashEntry.live, Bool.and_eq_true, bne_iff_ne] at hlive
      exact hlive.1
    split at h
    · rcases Except.ok.inj h with rfl
      exact ⟨hadded, Bool.noConfusion⟩
    · split at h
      · rcases Except.ok.inj h with rfl
        exact ⟨hadded, .inr⟩
      · rcases Except.ok.inj h with rfl
        exact ⟨hadded, .inr⟩
  · simp only [bind_eq_ok, pure_eq_ok, timestamp_mod] at h
    rcases h with ⟨effectiveAt, -, rfl⟩
    exact ⟨Nat.pos_iff_ne_zero.mp tx.timestamp_pos, .inl⟩

/-- Two-level maps written at one pair of keys. -/
theorem update_update_apply {α β γ : Type*} [DecidableEq α] [DecidableEq β] (f : α → β → γ)
    (a : α) (b : β) (v : γ) (x : α) (y : β) :
    Function.update f a (Function.update (f a) b v) x y =
      if x = a ∧ y = b then v else f x y := by
  by_cases hx : x = a
  · subst hx
    by_cases hy : y = b
    · subst hy
      simp
    · rw [Function.update_self, Function.update_of_ne hy, if_neg fun h => hy h.2]
  · rw [Function.update_of_ne hx, if_neg fun h => hx h.1]

/-- Writing one entry and its index together. -/
theorem Indexed.write (hinv : Indexed s) {region hash : Bytes32} {e : HashEntry}
    {hashes : List Bytes32} (hnodup : hashes.Nodup)
    (hself : hash ∈ hashes ↔ e.addedAt ≠ 0)
    (hother : ∀ x, x ≠ hash → (x ∈ hashes ↔ x ∈ s.regionHashes region))
    (hemergency : e.emergency = true → region = globalRegion)
    (hentries : s'.hashEntries = Function.update s.hashEntries region
      (Function.update (s.hashEntries region) hash e))
    (hindex : s'.regionHashes = Function.update s.regionHashes region hashes) : Indexed s' := by
  constructor
  · intro r
    rw [hindex]
    rcases eq_or_ne r region with rfl | hr
    · rwa [Function.update_self]
    · rw [Function.update_of_ne hr]
      exact hinv.nodup r
  · intro r x
    rw [hindex, hentries, update_update_apply]
    rcases eq_or_ne r region with rfl | hr
    · rw [Function.update_self]
      rcases eq_or_ne x hash with rfl | hx
      · rw [if_pos ⟨rfl, rfl⟩]
        exact hself
      · rw [if_neg fun h => hx h.2, hother x hx]
        exact hinv.mem_iff r x
    · rw [Function.update_of_ne hr, if_neg fun h => hr h.1]
      exact hinv.mem_iff r x
  · intro r x
    rw [hentries, update_update_apply]
    split
    · rename_i hkeys
      rw [hkeys.1]
      exact hemergency
    · exact hinv.emergency r x

theorem Indexed.congr (hinv : Indexed s) (hentries : s'.hashEntries = s.hashEntries)
    (hindex : s'.regionHashes = s.regionHashes) : Indexed s' where
  nodup := by rw [hindex]; exact hinv.nodup
  mem_iff := by rw [hindex, hentries]; exact hinv.mem_iff
  emergency := by rw [hentries]; exact hinv.emergency

/-- The address index is all that deriving it again writes. -/
theorem syncAddr_eq (A : SetOps Address) (a : Address) :
    syncAddr A tx s a = { s with
      blacklistedAddrs :=
        if (isOriginBlacklisted s tx.timestamp a || s.isOperatorBlacklisted a) = true then
          A.add s.blacklistedAddrs a
        else A.remove s.blacklistedAddrs a } := by
  unfold syncAddr
  split <;> rfl

/-- Every call keeps the entry index. -/
theorem Indexed.effect (hinv : Indexed s) (h : Effect L tx s c s') : Indexed s' := by
  cases h with
  | added region hash reason emergency category e log hwrite hglobal hadded =>
    rcases addedEntry_cases hadded with ⟨hpresent, hkind⟩
    apply hinv.write (L.hashes.nodup_add hash (hinv.nodup region)) _ _ _ rfl rfl
    · rw [L.hashes.mem_add hash hash (hinv.nodup region)]
      simp [hpresent]
    · intro x hx
      rw [L.hashes.mem_add hash x (hinv.nodup region)]
      simp [hx]
    · intro he
      rcases hkind he with hem | hem
      · exact hglobal hem
      · exact hinv.emergency region hash hem
  | removed region hash log hwrite =>
    apply hinv.write (L.hashes.nodup_remove hash (hinv.nodup region)) _ _ _ rfl rfl
    · rw [L.hashes.mem_remove hash hash (hinv.nodup region)]
      simp
    · intro x hx
      rw [L.hashes.mem_remove hash x (hinv.nodup region)]
      simp [hx]
    · exact Bool.noConfusion
  | listed a origin operator eo log =>
    rw [syncAddr_eq]
    exact hinv.congr rfl rfl
  | registered region body roles log hregion hbody hvacant hidle => exact hinv.congr rfl rfl
  | deregistered region body roles log hbody hserves => exact hinv.congr rfl rfl
  | suspension region rb log hsame => exact hinv.congr rfl rfl
  | other window emergencyWindow roles log => exact hinv.congr rfl rfl

/-! ## Addresses -/

/-- The address index holds every address that one of the two lists denies. -/
structure Listed (s : State) (now : Nat) : Prop where
  nodup : s.blacklistedAddrs.Nodup
  mem : ∀ a, isOriginBlacklisted s now a = true ∨ s.isOperatorBlacklisted a = true →
    a ∈ s.blacklistedAddrs

/-- What lapsed stays lapsed. -/
theorem emergencyExpired_mono {emergency : Bool} {addedAt : Nat} {category : UInt8}
    (hle : now ≤ later) (h : emergencyExpired now emergency addedAt category = true) :
    emergencyExpired later emergency addedAt category = true := by
  simp only [emergencyExpired, Bool.and_eq_true, decide_eq_true_eq] at h ⊢
  exact ⟨h.1, by omega⟩

/-- Time alone only takes denials away. -/
theorem isOriginBlacklisted_anti {a : Address} (hle : now ≤ later)
    (h : isOriginBlacklisted s later a = true) : isOriginBlacklisted s now a = true := by
  simp only [isOriginBlacklisted, Bool.and_eq_true, Bool.not_eq_true'] at h ⊢
  refine ⟨h.1, ?_⟩
  by_contra hexpired
  rw [Bool.not_eq_false] at hexpired
  rw [emergencyExpired_mono hle hexpired] at h
  exact Bool.noConfusion h.2

theorem Listed.wait (hinv : Listed s now) (hle : now ≤ later) : Listed s later := by
  refine ⟨hinv.nodup, ?_⟩
  rintro a (horigin | hoperator)
  · exact hinv.mem a (.inl (isOriginBlacklisted_anti hle horigin))
  · exact hinv.mem a (.inr hoperator)

theorem Listed.congr (hinv : Listed s now) (horigin : s'.originBlacklisted = s.originBlacklisted)
    (hexpiry : s'.emergencyOrigins = s.emergencyOrigins)
    (hoperator : s'.isOperatorBlacklisted = s.isOperatorBlacklisted)
    (hindex : s'.blacklistedAddrs = s.blacklistedAddrs) : Listed s' now where
  nodup := by rw [hindex]; exact hinv.nodup
  mem := by
    intro a h
    rw [hindex]
    apply hinv.mem a
    unfold isOriginBlacklisted at h ⊢
    rw [← horigin, ← hexpiry, ← hoperator]
    exact h

/-- Every call keeps the address index. -/
theorem Listed.effect (hinv : Listed s tx.timestamp) (h : Effect L tx s c s') :
    Listed s' tx.timestamp := by
  cases h with
  | listed a origin operator eo log =>
    rw [syncAddr_eq]
    constructor
    · dsimp only
      split
      · exact L.addrs.nodup_add a hinv.nodup
      · exact L.addrs.nodup_remove a hinv.nodup
    · intro x hx
      dsimp only at hx ⊢
      rcases eq_or_ne x a with rfl | hne
      · rw [if_pos, L.addrs.mem_add x x hinv.nodup]
        · exact .inl rfl
        · rw [Bool.or_eq_true]
          exact hx
      · -- Another address is denied by the same lists as before.
        have hold : x ∈ s.blacklistedAddrs := by
          apply hinv.mem x
          simpa only [isOriginBlacklisted, Function.update_of_ne hne] using hx
        split
        · exact (L.addrs.mem_add a x hinv.nodup).mpr (.inr hold)
        · exact (L.addrs.mem_remove a x hinv.nodup).mpr ⟨hold, hne⟩
  | added region hash reason emergency category e log hwrite hglobal hadded =>
    exact hinv.congr rfl rfl rfl rfl
  | removed region hash log hwrite => exact hinv.congr rfl rfl rfl rfl
  | registered region body roles log hregion hbody hvacant hidle => exact hinv.congr rfl rfl rfl rfl
  | deregistered region body roles log hbody hserves => exact hinv.congr rfl rfl rfl rfl
  | suspension region rb log hsame => exact hinv.congr rfl rfl rfl rfl
  | other window emergencyWindow roles log => exact hinv.congr rfl rfl rfl rfl

/-! ## Bodies -/

/-- The two body maps are inverse to each other on bodies and regions that are set. -/
def Paired (s : State) : Prop :=
  ∀ region body, body ≠ 0 →
    ((s.regionalBodies region).body = body ↔ region ≠ 0 ∧ s.regionOfBody body = region)

theorem Paired.congr (hinv : Paired s)
    (hbody : ∀ region, (s'.regionalBodies region).body = (s.regionalBodies region).body)
    (hregion : s'.regionOfBody = s.regionOfBody) : Paired s' := by
  intro region body hne
  rw [hbody region, hregion]
  exact hinv region body hne

theorem Paired.registered (hinv : Paired s) {region : Bytes32} {body : Address}
    (hregion : region ≠ 0) (hbody : body ≠ 0) (hvacant : (s.regionalBodies region).body = 0)
    (hidle : s.regionOfBody body = 0)
    (hbodies : s'.regionalBodies = Function.update s.regionalBodies region
      { s.regionalBodies region with body := body })
    (hregions : s'.regionOfBody = Function.update s.regionOfBody body region) : Paired s' := by
  intro r b hb
  rw [hbodies, hregions]
  rcases eq_or_ne r region with rfl | hr
  · rw [Function.update_self]
    rcases eq_or_ne b body with rfl | hne
    · rw [Function.update_self]
      exact iff_of_true rfl ⟨hregion, rfl⟩
    · rw [Function.update_of_ne hne]
      -- The region was vacant, so no other body was bound to it.
      have hother := hinv r b hb
      rw [hvacant] at hother
      constructor
      · rintro rfl
        exact absurd rfl hne
      · intro hserves
        exact absurd (hother.mpr hserves).symm hb
  · rw [Function.update_of_ne hr]
    rcases eq_or_ne b body with rfl | hne
    · rw [Function.update_self]
      have hother := hinv r b hb
      rw [hidle] at hother
      constructor
      · intro hserves
        exact absurd (hother.mp hserves).2.symm (hother.mp hserves).1
      · intro hserves
        exact absurd hserves.2.symm hr
    · rw [Function.update_of_ne hne]
      exact hinv r b hb

theorem Paired.deregistered (hinv : Paired s) {region : Bytes32} {body : Address}
    (hbody : body ≠ 0) (hserves : (s.regionalBodies region).body = body)
    (hbodies : s'.regionalBodies = Function.update s.regionalBodies region {})
    (hregions : s'.regionOfBody = Function.update s.regionOfBody body 0) : Paired s' := by
  have hback := (hinv region body hbody).mp hserves
  intro r b hb
  rw [hbodies, hregions]
  rcases eq_or_ne r region with rfl | hr
  · rw [Function.update_self]
    rcases eq_or_ne b body with rfl | hne
    · rw [Function.update_self]
      exact iff_of_false (fun hzero => hb hzero.symm) fun hnone => hnone.1 hnone.2.symm
    · rw [Function.update_of_ne hne]
      have hother := hinv r b hb
      rw [hserves] at hother
      constructor
      · intro hzero
        exact absurd hzero.symm hb
      · intro hregion
        exact absurd (hother.mpr hregion).symm hne
  · rw [Function.update_of_ne hr]
    rcases eq_or_ne b body with rfl | hne
    · rw [Function.update_self]
      have hother := hinv r b hb
      rw [hback.2] at hother
      constructor
      · intro hregion
        exact absurd (hother.mp hregion).2.symm hr
      · rintro ⟨hzero, hnone⟩
        exact absurd hnone.symm hzero
    · rw [Function.update_of_ne hne]
      exact hinv r b hb

/-- Every call keeps the body registry. -/
theorem Paired.effect (hinv : Paired s) (h : Effect L tx s c s') : Paired s' := by
  cases h with
  | registered region body roles log hregion hbody hvacant hidle =>
    exact hinv.registered hregion hbody hvacant hidle rfl rfl
  | deregistered region body roles log hbody hserves =>
    exact hinv.deregistered hbody hserves rfl rfl
  | suspension region rb log hsame =>
    refine hinv.congr ?_ rfl
    intro r
    dsimp only
    rcases eq_or_ne r region with rfl | hr
    · rw [Function.update_self, hsame]
    · rw [Function.update_of_ne hr]
  | listed a origin operator eo log =>
    rw [syncAddr_eq]
    exact hinv.congr (fun _ => rfl) rfl
  | added region hash reason emergency category e log hwrite hglobal hadded =>
    exact hinv.congr (fun _ => rfl) rfl
  | removed region hash log hwrite => exact hinv.congr (fun _ => rfl) rfl
  | other window emergencyWindow roles log => exact hinv.congr (fun _ => rfl) rfl

/-! ## Runs -/

/-- All three invariants at the world's time. -/
structure Inv (w : World) : Prop where
  indexed : Indexed w.contract
  listed : Listed w.contract w.now
  paired : Paired w.contract

theorem Inv.step {w w' : World} (hinv : Inv w) (h : Step L w w') : Inv w' := by
  cases h with
  | call tx c hnow hexec =>
    have heffect := exec_effect hexec
    exact ⟨hinv.indexed.effect heffect, (hinv.listed.wait hnow).effect heffect,
      hinv.paired.effect heffect⟩
  | wait later hnow => exact ⟨hinv.indexed, hinv.listed.wait hnow, hinv.paired⟩

theorem Inv.deployed {capacityBond admin : Address} (h : deploy capacityBond admin = .ok s) :
    Inv ⟨now, s⟩ := by
  unfold deploy at h
  split at h
  · cases h
  rcases Except.ok.inj h with rfl
  refine ⟨⟨?_, ?_, ?_⟩, ⟨?_, ?_⟩, ?_⟩
  · exact fun _ => List.nodup_nil
  · exact fun _ _ => iff_of_false List.not_mem_nil fun h => h rfl
  · exact fun _ _ => Bool.noConfusion
  · exact List.nodup_nil
  · rintro a (h | h)
    · exact Bool.noConfusion h
    · exact Bool.noConfusion h
  · intro region body hne
    exact iff_of_false (fun h => hne h.symm) fun h => h.1 h.2.symm

theorem Reachable.inv {w : World} (h : Reachable L w) : Inv w := by
  induction h with
  | deployed now capacityBond admin hdeploy => exact Inv.deployed hdeploy
  | step _ hstep ih => exact ih.step hstep

/-- A denied operator finds the hash live under one of its scope regions. -/
theorem exists_scope_live {bond : CapacityBond.State} {hash : Bytes32} {operator : Address}
    (h : isHashBlacklistedForOperator s bond now hash operator = true) :
    ∃ region ∈ getScopeRegions bond now operator, isLive s now region hash = true := by
  simp only [isHashBlacklistedForOperator, Bool.or_eq_true, Bool.and_eq_true, bne_iff_ne] at h
  unfold getScopeRegions
  dsimp only
  rcases h with (hglobal | ⟨hcur, hlive⟩) | ⟨hprev, hlive⟩
  · exact ⟨globalRegion, by simp, hglobal⟩
  · exact ⟨(scopeAt bond operator now).currentKey, by rw [if_pos hcur]; simp, hlive⟩
  · exact ⟨(scopeAt bond operator now).prevKey, by simp [hprev], hlive⟩

theorem addedAt_of_isLive {region hash : Bytes32} (h : isLive s now region hash = true) :
    (s.hashEntries region hash).addedAt ≠ 0 := by
  simp only [isLive, HashEntry.live, Bool.and_eq_true, bne_iff_ne] at h
  exact h.1

/-! ## Who writes an entry -/

/-- The entry of `hash` in `region` or its reason is written. -/
def EntryChanged (s s' : State) (region hash : Bytes32) : Prop :=
  s'.hashEntries region hash ≠ s.hashEntries region hash ∨
    s'.hashReason region hash ≠ s.hashReason region hash

/-- A write at one pair of keys changes the entry of these keys only. -/
theorem EntryChanged.keys {region hash r x : Bytes32} {e : HashEntry}
    {reason : CapacityBond.Bytes}
    (h : EntryChanged s s' region hash)
    (hentries : s'.hashEntries = Function.update s.hashEntries r
      (Function.update (s.hashEntries r) x e))
    (hreason : s'.hashReason = Function.update s.hashReason r
      (Function.update (s.hashReason r) x reason)) : region = r ∧ hash = x := by
  unfold EntryChanged at h
  rw [hentries, hreason, update_update_apply, update_update_apply] at h
  by_contra hkeys
  rw [if_neg hkeys, if_neg hkeys] at h
  rcases h with hne | hne
  · exact hne rfl
  · exact hne rfl

theorem not_entryChanged {region hash : Bytes32} (hentries : s'.hashEntries = s.hashEntries)
    (hreason : s'.hashReason = s.hashReason) : ¬ EntryChanged s s' region hash := by
  unfold EntryChanged
  rw [hentries, hreason]
  rintro (hne | hne)
  · exact hne rfl
  · exact hne rfl

/-- Only a call that may write the entry of a hash changes it. -/
theorem authorized_of_effect (h : Effect L tx s c s') {region hash : Bytes32}
    (hchange : EntryChanged s s' region hash) : Authorized tx s region hash c := by
  cases h with
  | added r x reason emergency category e log hwrite hglobal hadded =>
    rcases hchange.keys rfl rfl with ⟨rfl, rfl⟩
    exact hwrite
  | removed r x log hwrite =>
    rcases hchange.keys rfl rfl with ⟨rfl, rfl⟩
    exact hwrite
  | listed a origin operator eo log =>
    rw [syncAddr_eq] at hchange
    exact absurd hchange (not_entryChanged rfl rfl)
  | registered r body roles log hr hbody hvacant hidle =>
    exact absurd hchange (not_entryChanged rfl rfl)
  | deregistered r body roles log hbody hserves =>
    exact absurd hchange (not_entryChanged rfl rfl)
  | suspension r rb log hsame => exact absurd hchange (not_entryChanged rfl rfl)
  | other window emergencyWindow roles log => exact absurd hchange (not_entryChanged rfl rfl)

/-- An entry outside the global region is written by the region's active body only. -/
theorem Authorized.activeBody (hinv : Indexed s) {region hash : Bytes32}
    (h : Authorized tx s region hash c) (hregion : region ≠ globalRegion) :
    ActiveBody tx s region := by
  cases c with
  | addHashGlobal x reason => exact absurd h.2.1 hregion
  | removeHashGlobal x => exact absurd h.2.1 hregion
  | emergencyAdd x category reason => exact absurd h.2.1 hregion
  | addHashRegional r x reason => exact h.2.2.2.2.2
  | removeHashRegional r x => exact h.2.2.2.2.2
  | expireEmergencyEntry r x =>
    -- A regional entry is no emergency, so it never lapses.
    have hexpired := h.2.2
    simp only [emergencyExpired, Bool.and_eq_true] at hexpired
    exact absurd (hinv.emergency region hash hexpired.1.1) hregion
  | _ => exact h.elim

/-- A regional call returns only to the active body of its region, never the global one. -/
theorem regional_call {region hash : Bytes32} {out : Option CapacityBond.Call}
    (h : exec L tx s c = .ok (s', out))
    (hc : (∃ reason, c = .addHashRegional region hash reason) ∨
      c = .removeHashRegional region hash) :
    region ≠ 0 ∧ region ≠ globalRegion ∧ s.roles .regionalBody tx.sender = true ∧
      ActiveBody tx s region := by
  rcases hc with ⟨reason, rfl⟩ | rfl
  · have hcall := (quiet_eq_ok.mp h).1
    unfold addHashRegional at hcall
    simp only [bind_eq_ok, onlyRole_eq_ok, checkRegion_eq_ok, requireActiveBodyFor_eq_ok] at hcall
    rcases hcall with ⟨_, hrole, _, hregion, _, hbody, -⟩
    exact ⟨hregion.1, hregion.2, hrole, hbody⟩
  · have hcall := (quiet_eq_ok.mp h).1
    unfold removeHashRegional at hcall
    simp only [bind_eq_ok, onlyRole_eq_ok, checkRegion_eq_ok, requireActiveBodyFor_eq_ok] at hcall
    rcases hcall with ⟨_, hrole, _, hregion, _, hbody, -⟩
    exact ⟨hregion.1, hregion.2, hrole, hbody⟩

/-- Enumeration never misses a live denial: in every reachable world the index of a region holds
exactly the hashes with an entry, so every live one; the address index holds every denied address;
a denied operator finds the hash in the pages of one of its scope regions; consecutive pages show
every member once; and the body maps are inverse.  A regional call returns only to the active body
of its region, which is not the global one; every call that changes an entry, in any region, is one
that its sender may make; and outside the global region that sender is the active body. -/
theorem enumeration_complete {w : World} (h : Reachable L w) :
    (∀ region hash, hash ∈ w.contract.regionHashes region ↔
      (w.contract.hashEntries region hash).addedAt ≠ 0) ∧
    (∀ region hash, isLive w.contract w.now region hash = true →
      hash ∈ w.contract.regionHashes region) ∧
    (∀ a, isOriginBlacklisted w.contract w.now a = true ∨
      w.contract.isOperatorBlacklisted a = true → a ∈ w.contract.blacklistedAddrs) ∧
    (∀ bond hash operator, isHashBlacklistedForOperator w.contract bond w.now hash operator = true →
      ∃ region ∈ getScopeRegions bond w.now operator, ∀ limit k,
        (w.contract.regionHashes region).length ≤ k * limit →
        hash ∈ (List.range k).flatMap fun i =>
          blacklistedHashes w.contract region (i * limit) limit) ∧
    (∀ region limit k, (w.contract.regionHashes region).length ≤ k * limit → ∀ hash,
      ((List.range k).flatMap fun i =>
        blacklistedHashes w.contract region (i * limit) limit).count hash =
        if hash ∈ w.contract.regionHashes region then 1 else 0) ∧
    (∀ limit k, w.contract.blacklistedAddrs.length ≤ k * limit → ∀ a,
      ((List.range k).flatMap fun i =>
        blacklistedAddresses w.contract (i * limit) limit).count a =
        if a ∈ w.contract.blacklistedAddrs then 1 else 0) ∧
    (∀ region body, region ≠ 0 → body ≠ 0 → ((w.contract.regionalBodies region).body = body ↔
      w.contract.regionOfBody body = region)) ∧
    (∀ tx c s' out region hash, w.now ≤ tx.timestamp → exec L tx w.contract c = .ok (s', out) →
      ((∃ reason, c = .addHashRegional region hash reason) ∨
        c = .removeHashRegional region hash) →
      region ≠ 0 ∧ region ≠ globalRegion ∧
        w.contract.roles .regionalBody tx.sender = true ∧
        (w.contract.regionalBodies region).body = tx.sender ∧
        (w.contract.regionalBodies region).suspended tx.timestamp = false) ∧
    (∀ tx c s' out region hash, w.now ≤ tx.timestamp → exec L tx w.contract c = .ok (s', out) →
      EntryChanged w.contract s' region hash → Authorized tx w.contract region hash c) ∧
    ∀ tx c s' out region hash, w.now ≤ tx.timestamp → exec L tx w.contract c = .ok (s', out) →
      region ≠ globalRegion →
      EntryChanged w.contract s' region hash →
      (w.contract.regionalBodies region).body = tx.sender ∧
        (w.contract.regionalBodies region).suspended tx.timestamp = false := by
  have hinv := h.inv
  have hlive : ∀ region hash, isLive w.contract w.now region hash = true →
      hash ∈ w.contract.regionHashes region :=
    fun region hash hl => (hinv.indexed.mem_iff region hash).mpr (addedAt_of_isLive hl)
  refine ⟨hinv.indexed.mem_iff, hlive, hinv.listed.mem, ?_, ?_, ?_, ?_, ?_, ?_, ?_⟩
  · intro bond hash operator hdenied
    rcases exists_scope_live hdenied with ⟨region, hscope, hl⟩
    refine ⟨region, hscope, ?_⟩
    intro limit k hreach
    have hpages := pages_eq hreach
    unfold pages at hpages
    unfold blacklistedHashes
    rw [hpages]
    exact hlive region hash hl
  · intro region limit k hreach hash
    exact count_pages (hinv.indexed.nodup region) hreach hash
  · intro limit k hreach a
    exact count_pages hinv.listed.nodup hreach a
  · intro region body hregion hbody
    rw [hinv.paired region body hbody]
    exact ⟨fun hb => hb.2, fun hb => ⟨hregion, hb⟩⟩
  · intro tx c s' out region hash _ hexec hc
    exact regional_call hexec hc
  · intro tx c s' out region hash _ hexec hchange
    exact authorized_of_effect (exec_effect hexec) hchange
  · intro tx c s' out region hash _ hexec hregion hchange
    exact (authorized_of_effect (exec_effect hexec) hchange).activeBody hinv.indexed hregion

/-- Sets kept by appending. -/
def sampleSets : Sets := ⟨SetOps.ofLists, SetOps.ofLists⟩

/-- A blacklist transaction at a positive time. -/
def sampleTx (sender : Address) (timestamp : Nat)
    (hsender : decide (sender ≠ 0) = true := by exact Eq.refl true)
    (hpos : decide (0 < timestamp) = true := by exact Eq.refl true)
    (htime : decide (timestamp ≤ u64Max) = true := by exact Eq.refl true) : Tx where
  sender := sender
  sender_ne_zero := ne_zero_of_check hsender
  timestamp := timestamp
  timestamp_pos := pos_of_check hpos
  timestamp_le := le_u64Max_of_check htime
  getOwners := fun _ => none

/-- A deployment with administrator 9. -/
def sampleDeployed : World where
  now := 1
  contract := {
    complianceWindow := complianceWindowDefault
    emergencyComplianceWindow := emergencyComplianceWindowDefault
    roles := fun role account =>
      decide (account = 9 ∧ (role = .defaultAdmin ∨ role = .governance)) }

theorem sampleDeployed_reachable (L : Sets) : Reachable L sampleDeployed :=
  .deployed 1 7 9 rfl

/-- A global hash, a region with its body and its own hash, a lapsing origin, and the suspension
of the body. -/
def sampleCalls : List (Tx × Call) :=
  [(sampleTx 9 100, .addHashGlobal 5 []),
    (sampleTx 9 110, .grantRole .emergencyMultisig 8),
    (sampleTx 8 120, .emergencyAddOrigin 6 0 []),
    (sampleTx 9 130, .registerRegionalBody 77 4 8),
    (sampleTx 4 140, .addHashRegional 77 3 []),
    (sampleTx 8 150, .suspendRegionalBody 77)]

/-- Both hashes are enumerated in their regions and the origin in the address list, and the
suspended body can no longer call for any region. -/
theorem enumeration_complete_sample :
    ∃ w, Reachable sampleSets w ∧ isLive w.contract w.now globalRegion 5 = true ∧
      5 ∈ w.contract.regionHashes globalRegion ∧ 3 ∈ w.contract.regionHashes 77 ∧
      6 ∈ w.contract.blacklistedAddrs ∧ w.contract.regionOfBody 4 = 77 ∧
      ∀ hash s' out, exec sampleSets (sampleTx 4 160) w.contract (.removeHashRegional 77 hash) ≠
        .ok (s', out) := by
  have hrun : (runEvents (World.apply sampleSets) (fun _ _ => true) sampleDeployed sampleCalls).map
      (fun w => (w.now, isLive w.contract w.now globalRegion 5, isLive w.contract w.now 77 3,
        isOriginBlacklisted w.contract w.now 6, w.contract.regionalBodies 77)) =
      some (150, true, true, true, ⟨4, 150, false⟩) := by
    decide +kernel
  rcases Option.map_eq_some_iff.mp hrun with ⟨w, hw, hvalues⟩
  simp only [Prod.mk.injEq] at hvalues
  rcases hvalues with ⟨hnow, hglobal, hregional, horigin, hbody⟩
  have hreach := (sampleDeployed_reachable sampleSets).of_runEvents hw
  rcases enumeration_complete hreach with ⟨-, hlive, haddr, -, -, -, hpaired, hcalls, -, -⟩
  refine ⟨w, hreach, hglobal, hlive globalRegion 5 hglobal, hlive 77 3 hregional,
    haddr 6 (.inl horigin), ?_, ?_⟩
  · refine (hpaired 77 4 (by decide) (by decide)).mp ?_
    rw [hbody]
  · intro hash s' out hexec
    have hlater : w.now ≤ (sampleTx 4 160).timestamp := by
      rw [hnow]
      decide
    have hactive := (hcalls _ _ s' out 77 hash hlater hexec (.inr rfl)).2.2.2.2
    rw [hbody] at hactive
    revert hactive
    decide

end Decdn.ContentBlacklist
