import Decdn.Node.BlacklistSystem

/-!
# Takedown enforcement

What the watcher does with the `(region, hash)` entries it learns.  Within one process an entry
that the events applied so far leave live is either still on the worklist or its hash is
evicted; a clean pass refuses what is in scope; and a refusal lasts while the hash is in
scope.  A restart keeps the evictions and reads the regions in scope again.

Main results:

- Theorem `Rescanned.of_rescan`: what a pass keeps.
- Theorem `rescan_clean`: what a clean pass has enforced.
- Theorem `TakedownInv.step`: what every action keeps.
- Theorem `takedowns_enforced`: enforcement over every run.
- Theorem `restart_forgets_out_of_scope_entry`: what a restart does not keep.
-/

namespace Decdn.Node.BlacklistWatcher

open ContentBlacklist (Event Sets Reachable replay)

variable {L : Sets} {C : Chain L} {operator : Address} {w w' : World} {st st' : WatcherState}
  {c c' : Cache} {oracle : Oracle} {hash : Hash}

/-! ## One pass -/

/-- What enforcement keeps: entries leave the worklist only for an eviction, and refusals are
never lifted. -/
structure Rescanned (st st' : WatcherState) (c c' : Cache) : Prop where
  removed : st'.removedEntries = st.removedEntries
  kept : ∀ entry ∈ st.known, entry ∈ st'.known ∨ entry.2 ∈ c'.evicted
  evicted : c.evicted ⊆ c'.evicted
  denied : c.chainDenied ⊆ c'.chainDenied
  logged : c.evicted ⊆ c.evictedLog → c'.evicted ⊆ c'.evictedLog

theorem Rescanned.refl (st : WatcherState) (c : Cache) : Rescanned st st c c where
  removed := rfl
  kept := fun _ h => .inl h
  evicted := Finset.Subset.refl _
  denied := Finset.Subset.refl _
  logged := id

theorem Rescanned.trans {st'' : WatcherState} {c'' : Cache} (h : Rescanned st st' c c')
    (h' : Rescanned st' st'' c' c'') : Rescanned st st'' c c'' where
  removed := h'.removed.trans h.removed
  kept := by
    intro entry hmem
    rcases h.kept entry hmem with hknown | hevicted
    · exact h'.kept entry hknown
    · exact .inr (h'.evicted hevicted)
  evicted := h.evicted.trans h'.evicted
  denied := h.denied.trans h'.denied
  logged := fun hlog => h'.logged (h.logged hlog)

/-- A hash that is evicted leaves the worklist. -/
theorem Rescanned.dropHash (h : Rescanned st st c c') (hevicted : hash ∈ c'.evicted) :
    Rescanned st (st.dropHash hash) c c' where
  removed := rfl
  kept := by
    intro entry hmem
    by_cases heq : entry.2 = hash
    · exact .inr (heq ▸ hevicted)
    · exact .inl (Finset.mem_filter.mpr ⟨hmem, heq⟩)
  evicted := h.evicted
  denied := h.denied
  logged := h.logged

theorem Rescanned.deny (st : WatcherState) (c : Cache) (hash : Hash) :
    Rescanned st st c (c.deny hash) where
  removed := rfl
  kept := fun _ h => .inl h
  evicted := Finset.Subset.refl _
  denied := Finset.subset_insert _ _
  logged := id

theorem Rescanned.evict (st : WatcherState) (c : Cache) (hash : Hash) (result : EvictResult) :
    Rescanned st st c (c.evict hash result) where
  removed := rfl
  kept := fun _ h => .inl h
  evicted := by
    cases result with
    | done => exact Finset.subset_insert _ _
    | failed logged => cases logged <;> exact Finset.Subset.refl _
  denied := by
    cases result with
    | done => exact Finset.Subset.refl _
    | failed logged => cases logged <;> exact Finset.Subset.refl _
  logged := by
    intro hlog
    cases result with
    | done => exact Finset.insert_subset_insert _ hlog
    | failed logged =>
      cases logged with
      | false => exact hlog
      | true => exact hlog.trans (Finset.subset_insert _ _)

theorem Rescanned.of_recheck (oracle : Oracle) (st : WatcherState) (c : Cache) (hash : Hash) :
    Rescanned st (recheck oracle st c hash).1 c (recheck oracle st c hash).2.1 := by
  unfold recheck
  split
  · rename_i hevicted
    dsimp only
    split
    · exact (Rescanned.deny st c hash).dropHash hevicted
    · exact (Rescanned.refl st c).dropHash hevicted
  · split
    · have hboth := (Rescanned.deny st c hash).trans
        (Rescanned.evict st (c.deny hash) hash (oracle.evict hash))
      split
      · rename_i hdone
        rw [hdone] at hboth ⊢
        exact hboth.dropHash (Finset.mem_insert_self _ _)
      · exact hboth
    · exact Rescanned.refl st c
    · exact Rescanned.refl st c

theorem Rescanned.of_rescan (oracle : Oracle) (mode : OnScopeFailure) (order : List Hash)
    (cancelAt : Option Nat) (st : WatcherState) (c : Cache) (clean : Bool) :
    Rescanned st (rescan oracle mode order cancelAt st c clean).1 c
      (rescan oracle mode order cancelAt st c clean).2.1 :=
  rescan_invariant (fun st' c' => Rescanned st st' c c')
    (fun st' c' hash _ h => h.trans (Rescanned.of_recheck oracle st' c' hash))
    (Rescanned.refl st c)

/-- A re-check that does not fail leaves the hash evicted, or has read it out of scope. -/
theorem recheck_settled (h : (recheck oracle st c hash).2.2 = .evicted ∨
      (recheck oracle st c hash).2.2 = .noAction) :
    hash ∈ (recheck oracle st c hash).2.1.evicted ∨ oracle.scope hash = some false := by
  unfold recheck at h ⊢
  split at h
  · rename_i hevicted
    rw [if_pos hevicted]
    refine .inl ?_
    dsimp only
    split
    · exact hevicted
    · exact hevicted
  · rename_i hevicted
    rw [if_neg hevicted]
    cases hscope : oracle.scope hash with
    | none =>
      rw [hscope] at h
      simp at h
    | some inScope =>
      rw [hscope] at h
      cases inScope with
      | false => exact .inr rfl
      | true =>
        cases hresult : oracle.evict hash with
        | failed logged =>
          rw [hresult] at h
          simp at h
        | done => exact .inl (Finset.mem_insert_self _ _)

/-- What a clean pass has enforced. -/
theorem rescan_clean {mode : OnScopeFailure} {order : List Hash} {cancelAt : Option Nat}
    {clean : Bool} (h : (rescan oracle mode order cancelAt st c clean).2.2 = true) :
    clean = true ∧ ∀ hash ∈ order,
      hash ∈ (rescan oracle mode order cancelAt st c clean).2.1.evicted ∨
        oracle.scope hash = some false := by
  fun_induction rescan oracle mode order cancelAt st c clean with
  | case1 => exact ⟨h, fun hash hmem => absurd hmem List.not_mem_nil⟩
  | case2 => exact Bool.noConfusion h
  | case3 hash rest cancelAt st c clean _ st' c' hcheck ih =>
    have hsettled : hash ∈ (recheck oracle st c hash).2.1.evicted ∨
        oracle.scope hash = some false :=
      recheck_settled (.inl (by rw [hcheck]))
    rcases ih h with ⟨hclean, hrest⟩
    refine ⟨hclean, List.forall_mem_cons.mpr ⟨?_, hrest⟩⟩
    rw [hcheck] at hsettled
    exact hsettled.imp_left fun hmem => (Rescanned.of_rescan _ _ _ _ _ _ _).evicted hmem
  | case4 hash rest cancelAt st c clean _ st' c' hcheck ih =>
    have hsettled : hash ∈ (recheck oracle st c hash).2.1.evicted ∨
        oracle.scope hash = some false :=
      recheck_settled (.inr (by rw [hcheck]))
    rcases ih h with ⟨hclean, hrest⟩
    refine ⟨hclean, List.forall_mem_cons.mpr ⟨?_, hrest⟩⟩
    rw [hcheck] at hsettled
    exact hsettled.imp_left fun hmem => (Rescanned.of_rescan _ _ _ _ _ _ _).evicted hmem
  | case5 hash rest cancelAt st c clean _ st' c' hcheck ih => exact Bool.noConfusion (ih h).1
  | case6 => exact Bool.noConfusion h
  | case7 hash rest cancelAt st c clean _ st' c' hcheck _ ih => exact Bool.noConfusion (ih h).1

/-! ## Entries -/

/-- An entry is present after the first `p` events. -/
def Chain.live (C : Chain L) (p : Nat) (entry : Entry) : Bool :=
  (replay (C.log.take p)).present entry.1 entry.2

/-- An event about an entry. -/
def concerns (entry : Entry) : Event → Bool
  | .hashBlacklisted region hash _ => decide (entry = (region, hash))
  | .hashRemoved region hash => decide (entry = (region, hash))
  | _ => false

theorem apply_present (q : ContentBlacklist.Projection) {e : Event} {entry : Entry}
    (h : concerns entry e = false) :
    (q.apply e).present entry.1 entry.2 = q.present entry.1 entry.2 := by
  have hother : ∀ (region hash : Bytes32) (b : Bool), entry ≠ (region, hash) →
      Function.update q.present region (Function.update (q.present region) hash b)
        entry.1 entry.2 = q.present entry.1 entry.2 := by
    intro region hash b hne
    rw [ContentBlacklist.update_update_apply, if_neg]
    rintro ⟨hregion, hhash⟩
    exact hne (Prod.ext hregion hhash)
  unfold ContentBlacklist.Projection.apply
  cases e with
  | hashBlacklisted region hash reason => exact hother region hash true (of_decide_eq_false h)
  | hashRemoved region hash => exact hother region hash false (of_decide_eq_false h)
  | _ => rfl

theorem Chain.live_succ {p : Nat} {e : Event} (h : C.log[p]? = some e) {entry : Entry}
    (hother : concerns entry e = false) : C.live (p + 1) entry = C.live p entry := by
  unfold Chain.live
  rw [replay_take_succ C h, apply_present _ hother]

theorem Chain.live_removed {p : Nat} {region : Bytes32}
    (h : C.log[p]? = some (.hashRemoved region hash)) :
    C.live (p + 1) (region, hash) = false := by
  unfold Chain.live
  rw [replay_take_succ C h]
  unfold ContentBlacklist.Projection.apply
  dsimp only
  rw [ContentBlacklist.update_update_apply, if_pos ⟨rfl, rfl⟩]

/-! ## The invariant -/

/-- An entry that was delivered, or was once removed, and is live, is known or evicted. -/
def Covered (C : Chain L) (p : Nat) (delivered : Finset Entry) (st : WatcherState) (c : Cache) :
    Prop :=
  ∀ entry, entry ∈ delivered ∨ st.removedEntries entry ≠ none → C.live p entry = true →
    entry ∈ st.known ∨ entry.2 ∈ c.evicted

structure TakedownInv (C : Chain L) (w : World) : Prop where
  logged : w.cache.evicted ⊆ w.cache.evictedLog
  covered : ∀ st, w.watcher = some st → Covered C w.applied w.delivered st w.cache

theorem Covered.rescanned {p : Nat} {delivered : Finset Entry} (h : Covered C p delivered st c)
    (hpass : Rescanned st st' c c') : Covered C p delivered st' c' := by
  intro entry hsource hlive
  rw [hpass.removed] at hsource
  rcases h entry hsource hlive with hknown | hevicted
  · exact hpass.kept entry hknown
  · exact .inr (hpass.evicted hevicted)

/-- An added entry is covered before its re-check. -/
theorem Covered.add {p : Nat} {delivered : Finset Entry} (h : Covered C p delivered st c)
    {region : Bytes32} {reason : CapacityBond.Bytes}
    (he : C.log[p]? = some (.hashBlacklisted region hash reason)) :
    Covered C (p + 1) (delivered ∪ {(region, hash)}) (st.addEntry (region, hash)) c := by
  intro entry hsource hlive
  by_cases heq : entry = (region, hash)
  · exact .inl (heq ▸ Finset.mem_insert_self _ _)
  · rw [C.live_succ he (decide_eq_false heq)] at hlive
    rw [Finset.mem_union, Finset.mem_singleton, or_iff_left heq] at hsource
    exact (h entry hsource hlive).imp_left (Finset.mem_insert_of_mem)

/-- A removed entry is not live. -/
theorem Covered.remove {p block : Nat} {delivered : Finset Entry} (h : Covered C p delivered st c)
    {region : Bytes32} (he : C.log[p]? = some (.hashRemoved region hash)) :
    Covered C (p + 1) delivered (st.removeEntry (region, hash) block) c := by
  intro entry hsource hlive
  by_cases heq : entry = (region, hash)
  · rw [heq, C.live_removed he] at hlive
    exact Bool.noConfusion hlive
  · rw [C.live_succ he (decide_eq_false heq)] at hlive
    have hremoved : (st.removeEntry (region, hash) block).removedEntries entry =
        st.removedEntries entry := Function.update_of_ne heq _ _
    rw [hremoved] at hsource
    exact (h entry hsource hlive).imp_left fun hknown => Finset.mem_erase.mpr ⟨heq, hknown⟩

/-- Events about addresses change neither side. -/
theorem Covered.other {p : Nat} {delivered : Finset Entry} (h : Covered C p delivered st c)
    {e : Event} (he : C.log[p]? = some e) (hother : ∀ entry, concerns entry e = false)
    (hremoved : st'.removedEntries = st.removedEntries) (hknown : st'.known = st.known) :
    Covered C (p + 1) delivered st' c := by
  intro entry hsource hlive
  rw [C.live_succ he (hother entry)] at hlive
  rw [hremoved] at hsource
  rw [hknown]
  exact h entry hsource hlive

/-- A fold adds the snapshot's entries but those the tail removed above it. -/
theorem Covered.fold {p : Nat} {delivered : Finset Entry} (h : Covered C p delivered st c)
    (snapshot : BootstrapSnapshot) :
    Covered C p (delivered ∪ snapshot.known) (st.foldReenumeration snapshot) c := by
  intro entry hsource hlive
  by_cases hcovered : entry ∈ delivered ∨ st.removedEntries entry ≠ none
  · exact (h entry hcovered hlive).imp_left fun hknown => Finset.mem_union_left _ hknown
  · rw [not_or, not_not] at hcovered
    have hnone : (st.foldReenumeration snapshot).removedEntries entry = none := by
      unfold WatcherState.foldReenumeration
      dsimp only
      rw [hcovered.2]
      rfl
    rcases hsource with hdelivered | hremoved
    · rcases Finset.mem_union.mp hdelivered with hold | hnew
      · exact absurd hold hcovered.1
      · exact .inl (Finset.mem_union_right _ (Finset.mem_filter.mpr ⟨hnew, hnone⟩))
    · exact absurd hnone hremoved

theorem onRemovedLog_evicted (oracle : Oracle) (st : WatcherState) (c : Cache) (entry : Entry)
    (block : Nat) : (onRemovedLog oracle st c entry block).2.evicted = c.evicted := by
  unfold onRemovedLog
  dsimp only
  split
  · rfl
  · rfl

theorem Covered.handleLog {p block : Nat} {delivered : Finset Entry}
    (h : Covered C p delivered st c) {e : Event} (he : C.log[p]? = some e) :
    Covered C (p + 1) (delivered ∪ deliveredBy e) (handleLog oracle st c block e).1
      (handleLog oracle st c block e).2 := by
  cases e with
  | hashBlacklisted region hash reason =>
    exact (h.add he).rescanned (Rescanned.of_recheck oracle _ c hash)
  | hashRemoved region hash =>
    simp only [deliveredBy, Finset.union_empty]
    intro entry hsource hlive
    rw [BlacklistWatcher.handleLog, onRemovedLog_evicted]
    exact h.remove he entry hsource hlive
  | _ =>
    simp only [deliveredBy, Finset.union_empty]
    exact h.other he (fun _ => rfl) rfl rfl

/-- What the tail keeps of the refusals. -/
theorem handleLog_evicted (oracle : Oracle) (st : WatcherState) (c : Cache) (block : Nat)
    (e : Event) : c.evicted ⊆ (handleLog oracle st c block e).2.evicted ∧
      (c.evicted ⊆ c.evictedLog → (handleLog oracle st c block e).2.evicted ⊆
        (handleLog oracle st c block e).2.evictedLog) := by
  cases e with
  | hashBlacklisted region hash reason =>
    have hpass := Rescanned.of_recheck oracle (st.addEntry (region, hash)) c hash
    exact ⟨hpass.evicted, hpass.logged⟩
  | hashRemoved region hash =>
    simp only [BlacklistWatcher.handleLog, onRemovedLog]
    split
    · exact ⟨Finset.Subset.refl _, id⟩
    · exact ⟨Finset.Subset.refl _, id⟩
  | _ => exact ⟨Finset.Subset.refl _, id⟩

/-- The state that the boot pass starts from. -/
def BootstrapSnapshot.start (snapshot : BootstrapSnapshot) : WatcherState where
  known := snapshot.known
  chainOrigins := fun a => decide (a ∈ snapshot.origins)

theorem Covered.start (C : Chain L) (p : Nat) (snapshot : BootstrapSnapshot) (c : Cache) :
    Covered C p snapshot.known snapshot.start c := by
  intro entry hsource _
  rcases hsource with hmem | hremoved
  · exact .inl hmem
  · exact absurd rfl hremoved

/-! ## What every action keeps -/

/-- A successful tail step. -/
theorem tail_eq_some (h : w.tail C st oracle = some w') :
    ∃ e, C.log[w.applied]? = some e ∧ w' = { w with
      applied := w.applied + 1
      watcher := some (handleLog oracle st w.cache (C.block w.applied) e).1
      cache := (handleLog oracle st w.cache (C.block w.applied) e).2
      delivered := w.delivered ∪ deliveredBy e } := by
  unfold World.tail at h
  split at h
  · split at h
    · rename_i e he
      exact ⟨e, he, (Option.some.inj h).symm⟩
    · cases h
  · cases h

/-- A boot attempt ends with its clean pass, or keeps what the pass did to the cache. -/
theorem boot_cases (C : Chain L) (w : World) (snapshot : BootstrapSnapshot) (oracle : Oracle)
    (order : List Hash) :
    ((rescan oracle .stop order none snapshot.start w.cache true).2.2 = true ∧
      w.boot C snapshot oracle order = { w with
        applied := C.before snapshot.block
        snapshotBlock := snapshot.block
        watcher := some (rescan oracle .stop order none snapshot.start w.cache true).1
        cache := (rescan oracle .stop order none snapshot.start w.cache true).2.1
        delivered := snapshot.known }) ∨
    w.boot C snapshot oracle order = { w with
      cache := (rescan oracle .stop order none snapshot.start w.cache true).2.1 } := by
  have hstart : ({ known := snapshot.known
                   chainOrigins := fun a => decide (a ∈ snapshot.origins) } : WatcherState) =
      snapshot.start := rfl
  unfold World.boot enumerateAndEnforce
  dsimp only
  rw [hstart]
  generalize rescan oracle .stop order none snapshot.start w.cache true = result
  rcases result with ⟨st, c, clean⟩
  cases clean with
  | true => exact .inl ⟨rfl, rfl⟩
  | false => exact .inr rfl

/-- What one boot attempt keeps. -/
theorem TakedownInv.boot (h : TakedownInv C w) (hdown : w.watcher = none)
    (snapshot : BootstrapSnapshot) (oracle : Oracle) (order : List Hash) :
    TakedownInv C (w.boot C snapshot oracle order) ∧
      w.cache.evicted ⊆ (w.boot C snapshot oracle order).cache.evicted := by
  have hpass := Rescanned.of_rescan oracle .stop order none snapshot.start w.cache true
  have hcovered := (Covered.start C (C.before snapshot.block) snapshot w.cache).rescanned hpass
  rcases boot_cases C w snapshot oracle order with ⟨-, heq⟩ | heq
  · rw [heq]
    refine ⟨⟨hpass.logged h.logged, ?_⟩, hpass.evicted⟩
    intro st hst
    rcases Option.some.inj hst with rfl
    exact hcovered
  · rw [heq]
    refine ⟨⟨hpass.logged h.logged, ?_⟩, hpass.evicted⟩
    intro st hst
    rw [show w.watcher = some st from hst] at hdown
    cases hdown

/-- Every action keeps the invariant and the evictions. -/
theorem TakedownInv.step (h : TakedownInv C w) {a : Action} (hstep : Step C w a w') :
    TakedownInv C w' ∧ w.cache.evicted ⊆ w'.cache.evicted := by
  unfold Step World.apply at hstep
  cases a with
  | mine =>
    dsimp only at hstep
    split at hstep
    · rcases Option.some.inj hstep with rfl
      exact ⟨⟨h.logged, h.covered⟩, Finset.Subset.refl _⟩
    · cases hstep
  | tail oracle =>
    rcases Option.bind_eq_some_iff.mp hstep with ⟨st, hst, htail⟩
    rcases tail_eq_some htail with ⟨e, he, rfl⟩
    have hkept := handleLog_evicted oracle st w.cache (C.block w.applied) e
    refine ⟨⟨hkept.2 h.logged, ?_⟩, hkept.1⟩
    intro st' hst'
    rcases Option.some.inj hst' with rfl
    exact (h.covered st hst).handleLog he
  | resync reads =>
    rcases Option.bind_eq_some_iff.mp hstep with ⟨st, hst, hfold⟩
    split at hfold
    · rename_i snapshot _
      rcases Option.some.inj hfold with rfl
      refine ⟨⟨h.logged, ?_⟩, Finset.Subset.refl _⟩
      intro st' hst'
      rcases Option.some.inj hst' with rfl
      exact (h.covered st hst).fold snapshot
    · rcases Option.some.inj hfold with rfl
      exact ⟨h, Finset.Subset.refl _⟩
  | rescan oracle order cancelAt =>
    rcases Option.bind_eq_some_iff.mp hstep with ⟨st, hst, hpass⟩
    split at hpass
    · have hkept := Rescanned.of_rescan oracle .continue order cancelAt st w.cache true
      rcases Option.some.inj hpass with rfl
      refine ⟨⟨hkept.logged h.logged, ?_⟩, hkept.evicted⟩
      intro st' hst'
      rcases Option.some.inj hst' with rfl
      exact (h.covered st hst).rescanned hkept
    · cases hpass
  | withhold withheld =>
    rcases Option.some.inj hstep with rfl
    exact ⟨⟨h.logged, h.covered⟩, Finset.Subset.refl _⟩
  | crash =>
    rcases Option.some.inj hstep with rfl
    refine ⟨⟨Finset.Subset.refl _, ?_⟩, h.logged⟩
    intro st hst
    cases hst
  | boot reads oracle order =>
    dsimp only at hstep
    split at hstep
    · cases hstep
    · rename_i hdown
      rw [Bool.not_eq_true, Option.isSome_eq_false_iff, Option.isNone_iff_eq_none] at hdown
      split at hstep
      · rename_i snapshot _
        split at hstep
        · rcases Option.some.inj hstep with rfl
          exact h.boot hdown snapshot oracle order
        · cases hstep
      · rcases Option.some.inj hstep with rfl
        exact ⟨h, Finset.Subset.refl _⟩

/-! ## Refusals -/

/-- The cache refuses the hash for a takedown. -/
def Cache.takenDown (c : Cache) (hash : Hash) : Prop := hash ∈ c.evicted ∨ hash ∈ c.chainDenied

theorem Cache.refuses_of_takenDown (h : c.takenDown hash) : c.refuses hash = true := by
  unfold Cache.refuses
  rcases h with hevicted | hdenied
  · rw [decide_eq_true hevicted, Bool.or_true]
  · rw [decide_eq_true hdenied, Bool.or_true, Bool.true_or]

theorem Rescanned.takenDown (h : Rescanned st st' c c') (hdown : c.takenDown hash) :
    c'.takenDown hash :=
  hdown.imp (fun hmem => h.evicted hmem) fun hmem => h.denied hmem

/-- A re-check that reads the hash in scope refuses it, whatever becomes of the eviction. -/
theorem recheck_takenDown (st : WatcherState) (c : Cache) (h : oracle.scope hash = some true) :
    (recheck oracle st c hash).2.1.takenDown hash := by
  unfold recheck
  split
  · rename_i hevicted
    refine .inl ?_
    dsimp only
    split
    · exact hevicted
    · exact hevicted
  · rw [h]
    have hdenied : hash ∈ (c.deny hash).chainDenied := Finset.mem_insert_self _ _
    have hkept := (Rescanned.evict st (c.deny hash) hash (oracle.evict hash)).denied hdenied
    dsimp only
    split
    · exact .inr hkept
    · exact .inr hkept

/-- The scope read of a hash during an action, if one is made and answers. -/
def Action.scopeRead (hash : Hash) : Action → Option Bool
  | .tail oracle => oracle.scope hash
  | .rescan oracle _ _ => oracle.scope hash
  | .boot _ oracle _ => oracle.scope hash
  | _ => none

/-- The contract reports the hash in scope at every block from `low` to the head, every scope read
of it is answered at one of them, and the process runs. -/
def InScopeSince (C : Chain L) (operator : Address) (hash : Hash) (low : Nat) (w : World)
    (a : Action) : Prop :=
  a ≠ .crash ∧ (∀ n, low ≤ n → n ≤ w.head → C.inScope operator n hash = true) ∧
    ∀ b, a.scopeRead hash = some b → ∃ n, low ≤ n ∧ n ≤ w.head ∧ b = C.inScope operator n hash

theorem InScopeSince.not_false {low : Nat} {a : Action} (h : InScopeSince C operator hash low w a) :
    a.scopeRead hash ≠ some false := by
  intro hread
  rcases h.2.2 false hread with ⟨n, hlow, hhead, hscope⟩
  rw [h.2.1 n hlow hhead] at hscope
  cases hscope

/-- An event lifts a refusal only after reading the hash out of scope. -/
theorem handleLog_takenDown {block : Nat} (h : c.takenDown hash) (e : Event)
    (hread : oracle.scope hash ≠ some false) :
    (handleLog oracle st c block e).2.takenDown hash := by
  cases e with
  | hashBlacklisted region added reason =>
    exact (Rescanned.of_recheck oracle (st.addEntry (region, added)) c added).takenDown h
  | hashRemoved region removed =>
    simp only [handleLog, onRemovedLog]
    split
    · rename_i hlift
      refine h.imp_right fun hdenied => Finset.mem_erase.mpr ⟨?_, hdenied⟩
      rintro rfl
      exact hread hlift.2
    · exact h
  | _ => exact h

/-- A refusal lasts while the hash stays in scope. -/
theorem takenDown_step {low : Nat} {a : Action} (h : w.cache.takenDown hash)
    (hscope : InScopeSince C operator hash low w a) (hstep : Step C w a w') :
    w'.cache.takenDown hash := by
  unfold Step World.apply at hstep
  cases a with
  | mine =>
    dsimp only at hstep
    split at hstep
    · rcases Option.some.inj hstep with rfl
      exact h
    · cases hstep
  | tail oracle =>
    rcases Option.bind_eq_some_iff.mp hstep with ⟨st, hst, htail⟩
    rcases tail_eq_some htail with ⟨e, he, rfl⟩
    exact handleLog_takenDown h e hscope.not_false
  | resync reads =>
    rcases Option.bind_eq_some_iff.mp hstep with ⟨st, hst, hfold⟩
    split at hfold
    · rcases Option.some.inj hfold with rfl
      exact h
    · rcases Option.some.inj hfold with rfl
      exact h
  | rescan oracle order cancelAt =>
    rcases Option.bind_eq_some_iff.mp hstep with ⟨st, hst, hpass⟩
    split at hpass
    · rcases Option.some.inj hpass with rfl
      exact (Rescanned.of_rescan oracle .continue order cancelAt st w.cache true).takenDown h
    · cases hpass
  | withhold withheld =>
    rcases Option.some.inj hstep with rfl
    exact h
  | crash => exact absurd rfl hscope.1
  | boot reads oracle order =>
    dsimp only at hstep
    split at hstep
    · cases hstep
    · split at hstep
      · rename_i snapshot _
        split at hstep
        · rcases Option.some.inj hstep with rfl
          have hpass := Rescanned.of_rescan oracle .stop order none snapshot.start w.cache true
          rcases boot_cases C w snapshot oracle order with ⟨-, heq⟩ | heq
          · rw [heq]
            exact hpass.takenDown h
          · rw [heq]
            exact hpass.takenDown h
        · cases hstep
      · rcases Option.some.inj hstep with rfl
        exact h

/-! ## Enumerations -/

/-- An enumeration of the chain's answers finds the hashes of a region. -/
theorem Chain.enumerateRegionHashes_reads (C : Chain L) (operator : Address) (n block : Nat)
    (region : Bytes32) :
    enumerateRegionHashes (C.reads operator n) block region =
      .ok ((C.world n).contract.regionHashes region).toFinset := by
  have hindexed := (C.reachable_world n).inv.indexed
  have hpages := readPages_page ((C.world n).contract.regionHashes region)
    (show 0 < blacklistEnumPageSize by decide) ((C.world n).contract.regionHashes region).length 0
    ∅ (by omega)
  rw [List.drop_zero, Finset.empty_union] at hpages
  unfold enumerateRegionHashes
  simp only [bind_eq_ok]
  refine ⟨_, rfl, _, hpages, ?_⟩
  rw [if_neg]
  rw [List.toFinset_card_of_nodup (hindexed.nodup region), ne_eq, not_not]

/-- An enumeration of the chain's answers finds every hash in scope. -/
theorem Chain.known_of_inScope {n : Nat} {snapshot : BootstrapSnapshot}
    (h : bootstrapSnapshot (C.reads operator n) = .ok snapshot)
    (hscope : C.inScope operator n hash = true) : hash ∈ snapshot.known.image Prod.snd := by
  simp only [bootstrapSnapshot, enumerateKnown, bind_eq_ok, pure_eq_ok] at h
  rcases h with ⟨block, -, origins, -, known, ⟨regions, hregions, hknown⟩, rfl⟩
  rcases Except.ok.inj hregions with rfl
  rcases ContentBlacklist.exists_scope_live hscope with ⟨region, hregion, hlive⟩
  have hmem : hash ∈ (C.world n).contract.regionHashes region :=
    ((C.reachable_world n).inv.indexed.mem_iff region hash).mpr
      (ContentBlacklist.addedAt_of_isLive hlive)
  -- Every region that the fold has passed is in the worklist with all its hashes.
  rcases foldlM_ok (f := fun known region => do
      let hashes ← enumerateRegionHashes (C.reads operator n) block region
      pure (known ∪ hashes.image (Prod.mk region)))
    (ContentBlacklist.getScopeRegions (C.bond n) (C.world n).now operator) (∅ : Finset Entry)
    (fun done known => ∀ r ∈ done, ∀ x ∈ (C.world n).contract.regionHashes r, (r, x) ∈ known)
    (by
      intro done known r _ hdone
      refine ⟨_, bind_eq_ok.mpr ⟨_, C.enumerateRegionHashes_reads operator n block r,
        pure_eq_ok.mpr rfl⟩, ?_⟩
      intro r' hr' x hx
      rcases List.mem_append.mp hr' with hr' | hr'
      · exact Finset.mem_union_left _ (hdone r' hr' x hx)
      · rcases List.mem_singleton.mp hr' with rfl
        exact Finset.mem_union_right _
          (Finset.mem_image_of_mem _ (List.mem_toFinset.mpr hx)))
    (fun r hr => absurd hr List.not_mem_nil) with ⟨found, hfound, hall⟩
  rcases Except.ok.inj (hfound.symm.trans hknown) with rfl
  exact Finset.mem_image_of_mem Prod.snd (hall region hregion hash hmem)

/-- The pages of the addresses or of a region in scope do not add up to the count. -/
def Inconsistent (reads : Reads) : Prop :=
  (∃ count raw, reads.blacklistedAddressCount = some count ∧
    readPages count (fun offset => required "blacklistedAddresses"
      (reads.blacklistedAddresses offset blacklistEnumPageSize)) count 0 ∅ = .ok raw ∧
    raw.card ≠ count) ∨
  ∃ regions region count hashes, reads.scopeRegions = some regions ∧ region ∈ regions ∧
    reads.blacklistedHashCount region = some count ∧
    readPages count (fun offset => required "blacklistedHashes"
      (reads.blacklistedHashes region offset blacklistEnumPageSize)) count 0 ∅ = .ok hashes ∧
    hashes.card ≠ count

/-- An inconsistent enumeration fails. -/
theorem Inconsistent.not_ok {reads : Reads} (h : Inconsistent reads)
    (snapshot : BootstrapSnapshot) : bootstrapSnapshot reads ≠ .ok snapshot := by
  intro hok
  simp only [bootstrapSnapshot, enumerateAddressUnion, enumerateKnown, bind_eq_ok,
    pure_eq_ok] at hok
  rcases hok with ⟨block, -, origins, ⟨count, hcount, raw, hraw, horigins⟩, known,
    ⟨regions, hregions, hknown⟩, -⟩
  rcases h with ⟨count', raw', hcount', hraw', hne⟩ |
    ⟨regions', region, count', hashes', hregions', hregion, hcount', hhashes', hne⟩
  · rw [hcount'] at hcount
    rcases Except.ok.inj hcount with rfl
    rcases Except.ok.inj (hraw.symm.trans hraw') with rfl
    rw [if_pos hne] at horigins
    cases horigins
  · rw [hregions'] at hregions
    rcases Except.ok.inj hregions with rfl
    rcases foldlM_steps hknown region hregion with ⟨before, after, hstep⟩
    simp only [enumerateRegionHashes, bind_eq_ok] at hstep
    rcases hstep with ⟨found, ⟨count, hcount, hashes, hhashes, hfound⟩, -⟩
    rw [hcount'] at hcount
    rcases Except.ok.inj hcount with rfl
    rcases Except.ok.inj (hhashes.symm.trans hhashes') with rfl
    rw [if_pos hne] at hfound
    cases hfound

/-! ## Enforcement over every run -/

theorem takedownInv (h : Reaches (Step C) (fun _ _ => True) {} w) : TakedownInv C w :=
  h.invariant ⟨Finset.Subset.refl _, fun st hst => by cases hst⟩
    fun _ _ _ _ hstep hinv => (hinv.step hstep).1

/-- The order of a pass holds the hashes of the worklist. -/
theorem mem_of_visits {order : List Hash} {hashes : Finset Hash} (h : visits order hashes = true) :
    hash ∈ order ↔ hash ∈ hashes := by
  rw [← (of_decide_eq_true h).2, List.mem_toFinset]

/-- A pass only takes entries off the worklist. -/
theorem rescan_known (oracle : Oracle) (mode : OnScopeFailure) (order : List Hash)
    (cancelAt : Option Nat) (st : WatcherState) (c : Cache) (clean : Bool) :
    (rescan oracle mode order cancelAt st c clean).1.known ⊆ st.known := by
  refine rescan_invariant (fun st' _ => st'.known ⊆ st.known) ?_ (Finset.Subset.refl _)
  intro st' c' hash _ hsub
  unfold recheck
  split
  · exact (Finset.filter_subset _ _).trans hsub
  · split
    · dsimp only
      split
      · exact (Finset.filter_subset _ _).trans hsub
      · exact hsub
    · exact hsub
    · exact hsub

/-- Takedown enforcement.  Since the last boot, an entry that was delivered and is live after the
events the tail has applied is known or its hash is evicted.  A re-check that reads a hash in
scope refuses it; a clean pass leaves every hash it did not read out of scope refused; a refusal
lasts while the hash is in scope and the process runs.  Evictions outlast restarts, and a boot
refuses again what its snapshot finds in scope.  A failed or inconsistent enumeration changes
nothing. -/
theorem takedowns_enforced (h : Reaches (Step C) (fun _ _ => True) {} w) :
    (∀ st, w.watcher = some st → ∀ entry ∈ w.delivered, C.live w.applied entry = true →
      entry ∈ st.known ∨ entry.2 ∈ w.cache.evicted) ∧
    (∀ st oracle order cancelAt st' c', w.watcher = some st →
      visits order st.distinctHashes = true →
      rescan oracle .continue order cancelAt st w.cache true = (st', c', true) →
      st'.known ⊆ st.known ∧
        ∀ hash ∈ st.distinctHashes, oracle.scope hash ≠ some false → c'.refuses hash = true) ∧
    (∀ st oracle hash, oracle.scope hash = some true →
      (recheck oracle st w.cache hash).2.1.takenDown hash) ∧
    (∀ hash low w', w.cache.takenDown hash →
      Reaches (Step C) (InScopeSince C operator hash low) w w' → w'.cache.refuses hash = true) ∧
    (∀ hash w', hash ∈ w.cache.evicted → Reaches (Step C) (fun _ _ => True) w w' →
      w'.cache.refuses hash = true) ∧
    (∀ n oracle order w' hash, Step C w (.boot (C.reads operator n) oracle order) w' →
      w'.watcher ≠ none → C.inScope operator n hash = true → oracle.scope hash ≠ some false →
      w'.cache.refuses hash = true) ∧
    ∀ reads w', Inconsistent reads ∨ (∃ err, bootstrapSnapshot reads = .error err) →
      Step C w (.resync reads) w' → w' = w := by
  have hinv := takedownInv h
  refine ⟨?_, ?_, ?_, ?_, ?_, ?_, ?_⟩
  · intro st hst entry hdelivered hlive
    exact hinv.covered st hst entry (.inl hdelivered) hlive
  · intro st oracle order cancelAt st' c' hst hvisits hpass
    have hclean := rescan_clean
      (show (rescan oracle .continue order cancelAt st w.cache true).2.2 = true by rw [hpass])
    have hknown := rescan_known oracle .continue order cancelAt st w.cache true
    rw [hpass] at hclean hknown
    refine ⟨hknown, ?_⟩
    intro hash hmem hread
    rcases hclean.2 hash ((mem_of_visits hvisits).mpr hmem) with hevicted | hfalse
    · exact Cache.refuses_of_takenDown (.inl hevicted)
    · exact absurd hfalse hread
  · intro st oracle hash hread
    exact recheck_takenDown st w.cache hread
  · intro hash low w' hdown hrun
    have hlast : w'.cache.takenDown hash :=
      hrun.invariant hdown fun _ _ _ hscope hstep hdown => takenDown_step hdown hscope hstep
    exact Cache.refuses_of_takenDown hlast
  · intro hash w' hevicted hrun
    have hlast : TakedownInv C w' ∧ hash ∈ w'.cache.evicted := by
      refine hrun.invariant (I := fun w => TakedownInv C w ∧ hash ∈ w.cache.evicted)
        ⟨hinv, hevicted⟩ ?_
      rintro a e b - hstep ⟨ha, hmem⟩
      exact ⟨(ha.step hstep).1, (ha.step hstep).2 hmem⟩
    exact Cache.refuses_of_takenDown (.inl hlast.2)
  · intro n oracle order w' hash hstep hup hscope hread
    unfold Step World.apply at hstep
    dsimp only at hstep
    split at hstep
    · cases hstep
    rename_i hdown
    rw [Bool.not_eq_true, Option.isSome_eq_false_iff, Option.isNone_iff_eq_none] at hdown
    split at hstep
    · rename_i snapshot hsnapshot
      split at hstep
      · rename_i hvisits
        rcases Option.some.inj hstep with rfl
        rcases boot_cases C w snapshot oracle order with ⟨hclean, heq⟩ | heq
        · rw [heq]
          rcases (rescan_clean hclean).2 hash
            ((mem_of_visits hvisits).mpr (Chain.known_of_inScope hsnapshot hscope)) with
            hevicted | hfalse
          · exact Cache.refuses_of_takenDown (.inl hevicted)
          · exact absurd hfalse hread
        · rw [heq] at hup
          exact absurd hdown hup
      · cases hstep
    · rcases Option.some.inj hstep with rfl
      exact absurd hdown hup
  · intro reads w' hbad hstep
    have herror : ∃ err, bootstrapSnapshot reads = .error err := by
      rcases hbad with hbad | herror
      · cases hsnapshot : bootstrapSnapshot reads with
        | ok snapshot => exact absurd hsnapshot (hbad.not_ok snapshot)
        | error err => exact ⟨err, rfl⟩
      · exact herror
    rcases herror with ⟨err, herror⟩
    unfold Step World.apply at hstep
    rcases Option.bind_eq_some_iff.mp hstep with ⟨st, hst, hfold⟩
    rw [herror] at hfold
    exact (Option.some.inj hfold).symm

/-- A regional body blacklists a hash outside the operator's scope. -/
def regionalChain : Chain ContentBlacklist.sampleSets :=
  .ofCalls ContentBlacklist.sampleDeployed
    (ContentBlacklist.sampleDeployed_reachable ContentBlacklist.sampleSets)
    [(ContentBlacklist.sampleTx 9 100, .grantRole .emergencyMultisig 8),
      (ContentBlacklist.sampleTx 9 110, .registerRegionalBody 4 5 8),
      (ContentBlacklist.sampleTx 5 120, .addHashRegional 4 7 []),
      (ContentBlacklist.sampleTx 9 130, .setOriginBlacklist 6 true)]
    CapacityBond.sampleDeployed.contract

/-- A run of sample actions under no condition. -/
theorem reaches_of_sample {u : World} {actions : List SampleAction}
    (h : runEvents (fun w (a : SampleAction) => World.apply C w (a.toAction C operator))
      (fun _ _ => true) u actions = some w) : Reaches (Step C) (fun _ _ => True) u w := by
  have hrun : Reaches (fun w (a : SampleAction) w' => Step C w (a.toAction C operator) w')
      (fun _ _ => True) u w := Reaches.of_runEvents (fun _ _ _ => trivial) h
  exact Reaches.map (SampleAction.toAction C operator) hrun

/-- The entry is delivered out of scope and stays known. -/
theorem takedowns_enforced_sample :
    ∃ w st, Reaches (Step regionalChain) (fun _ _ => True) {} w ∧ w.watcher = some st ∧
      (4, 7) ∈ w.delivered ∧ regionalChain.live w.applied (4, 7) = true ∧
      ((4, 7) ∈ st.known ∨ 7 ∈ w.cache.evicted) := by
  have hrun : ((runEvents (fun w (a : SampleAction) => World.apply regionalChain w
      (a.toAction regionalChain 3)) (fun _ _ => true) {}
      [.boot 0, .mine, .mine, .mine, .mine, .tail, .tail]).bind fun w =>
        w.watcher.map fun _ => (decide ((4, 7) ∈ w.delivered),
          regionalChain.live w.applied (4, 7))) = some (true, true) := by
    decide +kernel
  rcases Option.bind_eq_some_iff.mp hrun with ⟨w, hw, hlast⟩
  rcases Option.map_eq_some_iff.mp hlast with ⟨st, hst, hfacts⟩
  simp only [Prod.mk.injEq, decide_eq_true_eq] at hfacts
  have hreach := reaches_of_sample hw
  exact ⟨w, st, hreach, hst, hfacts.1, hfacts.2,
    (@takedowns_enforced _ regionalChain 3 w hreach).1 st hst (4, 7) hfacts.1 hfacts.2⟩

/-- After a restart the entry is still live, but neither known nor evicted. -/
theorem restart_forgets_out_of_scope_entry :
    ∃ u w st, Reaches (Step regionalChain) (fun _ _ => True) {} u ∧ (4, 7) ∈ u.delivered ∧
      Reaches (Step regionalChain) (fun _ _ => True) u w ∧ w.watcher = some st ∧
      regionalChain.live w.applied (4, 7) = true ∧
      ((regionalChain.world w.head).contract.hashEntries 4 7).addedAt ≠ 0 ∧
      (4, 7) ∉ st.known ∧ 7 ∉ w.cache.evicted := by
  have hrun : ((runEvents (fun w (a : SampleAction) => World.apply regionalChain w
      (a.toAction regionalChain 3)) (fun _ _ => true) {}
      [.boot 0, .mine, .mine, .mine, .mine, .tail, .tail]).bind fun u =>
        (runEvents (fun w (a : SampleAction) => World.apply regionalChain w
          (a.toAction regionalChain 3)) (fun _ _ => true) u [.crash, .boot 4]).bind fun w =>
            w.watcher.map fun st => (decide ((4, 7) ∈ u.delivered),
              regionalChain.live w.applied (4, 7),
              decide (((regionalChain.world w.head).contract.hashEntries 4 7).addedAt ≠ 0),
              decide ((4, 7) ∉ st.known), decide (7 ∉ w.cache.evicted))) =
      some (true, true, true, true, true) := by
    decide +kernel
  rcases Option.bind_eq_some_iff.mp hrun with ⟨u, hu, hrest⟩
  rcases Option.bind_eq_some_iff.mp hrest with ⟨w, hw, hlast⟩
  rcases Option.map_eq_some_iff.mp hlast with ⟨st, hst, hfacts⟩
  simp only [Prod.mk.injEq, decide_eq_true_eq] at hfacts
  exact ⟨u, w, st, reaches_of_sample hu, hfacts.1, reaches_of_sample hw, hst, hfacts.2⟩

end Decdn.Node.BlacklistWatcher
