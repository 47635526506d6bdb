import Decdn.Node.BlacklistSystem

/-!
# The origin deny-set

The chain part of the node's origin deny-set against the two address lists of the contract.
An event names one list, so the tail knows the union only if no address is cleared from one
list while the other still holds it; and a fold repeats the changes above its block only if
no earlier fold has forgotten them.

Main results:

- Theorem `SyncInv.step`: what every action keeps.
- Theorem `origin_deny_set`: the deny-set is the union of the lists, over every run that meets
  both conditions.
- Theorem `clearing_one_list_lifts_denial`: runs that break them.
-/

namespace Decdn.Node.BlacklistWatcher

open ContentBlacklist (Event Sets Reachable replay isOriginBlacklisted)

variable {L : Sets} {C : Chain L} {operator : Address} {w w' : World} {st : WatcherState}

/-! ## What runs are asked for -/

/-- Enumerations read the chain at one block up to the head, or fail. -/
def Honest (C : Chain L) (operator : Address) (w : World) : Action → Prop
  | .resync reads => (∃ n ≤ w.head, reads = C.reads operator n) ∨
      ∃ err, bootstrapSnapshot reads = .error err
  | .boot reads _ _ => (∃ n ≤ w.head, reads = C.reads operator n) ∨
      ∃ err, bootstrapSnapshot reads = .error err
  | _ => True

/-- A folded snapshot is not below the one before. -/
def InOrder (w : World) : Action → Prop
  | .resync reads => ∀ snapshot, bootstrapSnapshot reads = .ok snapshot →
      w.snapshotBlock ≤ snapshot.block
  | _ => True

/-- An event that clears an address from one list finds it off the other. -/
def ClearsLast (q : ContentBlacklist.Projection) : Event → Prop
  | .originBlacklistUpdated a false => q.operator a = false
  | .operatorBlacklistCleared a => q.origin a = false
  | _ => True

/-- The tail meets only such events. -/
def CleanClears (C : Chain L) (w : World) : Action → Prop
  | .tail _ => ∀ e, C.log[w.applied]? = some e → ClearsLast (replay (C.log.take w.applied)) e
  | _ => True

/-! ## Enforcement leaves the deny-set alone -/

/-- The part of the state that the origin deny-set is about. -/
def SameOrigins (st st' : WatcherState) : Prop :=
  st'.chainOrigins = st.chainOrigins ∧ st'.originChanges = st.originChanges

theorem recheck_origins (oracle : Oracle) (st : WatcherState) (c : Cache) (hash : Hash) :
    SameOrigins st (recheck oracle st c hash).1 := by
  unfold recheck
  split
  · exact ⟨rfl, rfl⟩
  · split
    · dsimp only
      split
      · exact ⟨rfl, rfl⟩
      · exact ⟨rfl, rfl⟩
    · exact ⟨rfl, rfl⟩
    · exact ⟨rfl, rfl⟩

theorem SameOrigins.trans {st st' st'' : WatcherState} (h : SameOrigins st st')
    (h' : SameOrigins st' st'') : SameOrigins st st'' :=
  ⟨h'.1.trans h.1, h'.2.trans h.2⟩

theorem rescan_origins (oracle : Oracle) (mode : OnScopeFailure) (order : List Hash)
    (cancelAt : Option Nat) (st : WatcherState) (c : Cache) (clean : Bool) :
    SameOrigins st (rescan oracle mode order cancelAt st c clean).1 :=
  rescan_invariant (fun st' _ => SameOrigins st st')
    (fun st' c hash _ h => h.trans (recheck_origins oracle st' c hash)) ⟨rfl, rfl⟩

/-! ## The invariant -/

/-- The blocks of the noted changes. -/
def changedAt (st : WatcherState) (a : Address) : Option Nat := (st.originChanges a).map Prod.fst

/-- The deny-set follows the union of the lists, and a noted change is the one it shows. -/
structure Synced (C : Chain L) (p s : Nat) (st : WatcherState) : Prop where
  tracks : Tracks C.ledger p s st.chainOrigins (changedAt st)
  newest : ∀ a change, st.originChanges a = some change → st.chainOrigins a = change.2

structure SyncInv (C : Chain L) (w : World) : Prop where
  head : w.head ≤ C.last
  snapshot : w.watcher.isSome → w.snapshotBlock ≤ w.head
  synced : ∀ st, w.watcher = some st → Synced C w.applied w.snapshotBlock st

theorem Synced.congr {p s : Nat} {st st' : WatcherState} (h : Synced C p s st)
    (hsame : SameOrigins st st') : Synced C p s st' := by
  rcases hsame with ⟨horigins, hchanges⟩
  constructor
  · unfold changedAt
    rw [horigins, hchanges]
    exact h.tracks
  · intro a change hchange
    rw [horigins]
    rw [hchanges] at hchange
    exact h.newest a change hchange

/-- An event about an address sets the union to what it says. -/
theorem Synced.setOrigin {p s : Nat} (h : Synced C p s st) {e : Event} (hp : p < C.log.length)
    (he : C.log[p]? = some e) {a : Address} {v : Bool} (htouched : touchedBy e = some a)
    (hv : C.denied (p + 1) a = v) : Synced C (p + 1) s (st.setOrigin a v (C.block p)) := by
  have hledger : C.ledger.touched p = some a := by
    change (C.log[p]?).bind touchedBy = some a
    rw [he]
    exact htouched
  have hview : ∀ b, (st.setOrigin a v (C.block p)).chainOrigins b = C.ledger.truth (p + 1) b ∨
      ((st.setOrigin a v (C.block p)).chainOrigins b = st.chainOrigins b ∧
        C.ledger.truth (p + 1) b = C.ledger.truth p b) := by
    intro b
    unfold WatcherState.setOrigin
    dsimp only
    rcases eq_or_ne b a with rfl | hne
    · left
      rw [Function.update_self]
      exact hv.symm
    · right
      rw [Function.update_of_ne hne]
      refine ⟨rfl, C.ledger.frame p b ?_⟩
      rw [hledger]
      exact fun heq => hne (Option.some.inj heq).symm
  constructor
  · convert h.tracks.apply hp hview using 1
    funext b
    rw [hledger]
    unfold changedAt WatcherState.setOrigin
    dsimp only
    rcases eq_or_ne b a with rfl | hne
    · rw [Function.update_self, if_pos rfl]
      rfl
    · rw [Function.update_of_ne hne, if_neg fun heq => hne (Option.some.inj heq).symm]
  · intro b change hchange
    unfold WatcherState.setOrigin at hchange ⊢
    dsimp only at hchange ⊢
    rcases eq_or_ne b a with rfl | hne
    · rw [Function.update_self] at hchange ⊢
      rw [← Option.some.inj hchange]
    · rw [Function.update_of_ne hne] at hchange ⊢
      exact h.newest b change hchange

/-- An event about no address. -/
theorem Synced.other {p s : Nat} (h : Synced C p s st) {e : Event} (hp : p < C.log.length)
    (he : C.log[p]? = some e) (htouched : touchedBy e = none) : Synced C (p + 1) s st := by
  have hledger : C.ledger.touched p = none := by
    change (C.log[p]?).bind touchedBy = none
    rw [he]
    exact htouched
  have hview : ∀ b, st.chainOrigins b = C.ledger.truth (p + 1) b ∨
      (st.chainOrigins b = st.chainOrigins b ∧
        C.ledger.truth (p + 1) b = C.ledger.truth p b) := by
    intro b
    refine .inr ⟨rfl, C.ledger.frame p b ?_⟩
    rw [hledger]
    exact (Option.some_ne_none _).symm
  refine ⟨?_, h.newest⟩
  convert h.tracks.apply hp hview using 1
  funext b
  rw [hledger, if_neg (Option.some_ne_none b).symm]

/-- A fold whose block is not below the last one. -/
theorem Synced.fold {p s : Nat} (h : Synced C p s st) (hlapse : C.NoLapse)
    {snapshot : BootstrapSnapshot} (hs : s ≤ snapshot.block) (hlast : snapshot.block ≤ C.last)
    (horigins : ∀ a, a ∈ snapshot.origins ↔
      (isOriginBlacklisted (C.world snapshot.block).contract (C.world snapshot.block).now a ||
        (C.world snapshot.block).contract.isOperatorBlacklisted a) = true) :
    Synced C p snapshot.block (st.foldReenumeration snapshot) := by
  have habove : ∀ a, changedAt (st.foldReenumeration snapshot) a =
      above snapshot.block (changedAt st) a := by
    intro a
    unfold changedAt above WatcherState.foldReenumeration
    dsimp only
    cases hchange : st.originChanges a with
    | none => rfl
    | some change =>
      rw [Option.map_some, Option.filter_some, Option.filter_some]
      split
      · rfl
      · rfl
  constructor
  · have hkept : ∀ a, above snapshot.block (changedAt st) a ≠ none →
        (st.foldReenumeration snapshot).chainOrigins a = st.chainOrigins a := by
      intro a hkept
      rcases Option.ne_none_iff_exists'.mp hkept with ⟨b, hb⟩
      rw [← habove] at hb
      rcases Option.map_eq_some_iff.mp hb with ⟨change, hchange, -⟩
      have hold := (Option.filter_eq_some_iff.mp hchange).1
      unfold WatcherState.foldReenumeration at hchange ⊢
      dsimp only at hchange ⊢
      rw [hchange]
      exact (h.newest a change hold).symm
    have hrest : ∀ a, above snapshot.block (changedAt st) a = none →
        (st.foldReenumeration snapshot).chainOrigins a =
          C.denied (C.through snapshot.block) a := by
      intro a hrest
      rw [← habove] at hrest
      have hchange := Option.map_eq_none_iff.mp hrest
      unfold WatcherState.foldReenumeration at hchange ⊢
      dsimp only at hchange ⊢
      rw [hchange]
      dsimp only
      rw [C.denied_through hlapse hlast, Bool.eq_iff_iff, decide_eq_true_iff, horigins a]
    convert h.tracks.fold hs hkept hrest using 1
    funext a
    exact habove a
  · intro a change hchange
    unfold WatcherState.foldReenumeration at hchange ⊢
    dsimp only at hchange ⊢
    rw [hchange]

/-- The first view of a boot, before the end of the snapshot's block. -/
theorem Synced.boot (hlapse : C.NoLapse) {snapshot : BootstrapSnapshot}
    (hlast : snapshot.block ≤ C.last)
    (horigins : ∀ a, a ∈ snapshot.origins ↔
      (isOriginBlacklisted (C.world snapshot.block).contract (C.world snapshot.block).now a ||
        (C.world snapshot.block).contract.isOperatorBlacklisted a) = true) :
    Synced C (C.before snapshot.block) snapshot.block
      { known := snapshot.known, chainOrigins := fun a => decide (a ∈ snapshot.origins) } := by
  have hbefore : C.before snapshot.block ≤ C.through snapshot.block := by
    cases snapshot.block with
    | zero => exact Nat.zero_le _
    | succ n => exact C.through_mono (Nat.le_succ n)
  have hview : (fun a => decide (a ∈ snapshot.origins)) =
      C.denied (C.through snapshot.block) := by
    funext a
    rw [C.denied_through hlapse hlast, Bool.eq_iff_iff, decide_eq_true_iff, horigins a]
  have hstart := Tracks.start (C := C.ledger)
    (Nat.le_trans hbefore (C.through_mono hlast)) hbefore
  constructor
  · dsimp only
    rw [hview]
    exact hstart
  · intro a change hchange
    cases hchange

/-- Every event at the tail keeps the deny-set in step. -/
theorem Synced.handleLog {p s : Nat} (h : Synced C p s st) {e : Event} (hp : p < C.log.length)
    (he : C.log[p]? = some e) (hclear : ClearsLast (replay (C.log.take p)) e) (oracle : Oracle)
    (c : Cache) : Synced C (p + 1) s (handleLog oracle st c (C.block p) e).1 := by
  have hdenied : ∀ a, C.denied (p + 1) a = (((replay (C.log.take p)).apply e).origin a ||
      ((replay (C.log.take p)).apply e).operator a) := by
    intro a
    unfold Chain.denied
    rw [replay_take_succ C he]
  cases e with
  | hashBlacklisted region hash reason =>
    exact (h.other hp he rfl).congr (recheck_origins oracle (st.addEntry (region, hash)) c hash)
  | hashRemoved region hash => exact (h.other hp he rfl).congr ⟨rfl, rfl⟩
  | originBlacklistUpdated a v =>
    refine h.setOrigin hp he rfl ?_
    rw [hdenied]
    simp only [ContentBlacklist.Projection.apply, Function.update_self]
    cases v with
    | false =>
      rw [Bool.false_or]
      exact hclear
    | true => rfl
  | operatorBlacklisted a =>
    refine h.setOrigin hp he rfl ?_
    rw [hdenied]
    simp only [ContentBlacklist.Projection.apply, Function.update_self, Bool.or_true]
  | operatorBlacklistCleared a =>
    refine h.setOrigin hp he rfl ?_
    rw [hdenied]
    simp only [ContentBlacklist.Projection.apply, Function.update_self, Bool.or_false]
    exact hclear
  | complianceWindowUpdated _ _ => exact h.other hp he rfl
  | emergencyOriginAdded _ _ _ => exact h.other hp he rfl
  | emergencyComplianceWindowUpdated _ _ => exact h.other hp he rfl
  | regionalBodyRegistered _ _ _ => exact h.other hp he rfl
  | regionalBodyDeregistered _ _ => exact h.other hp he rfl
  | regionalBodySuspended _ _ => exact h.other hp he rfl
  | regionalBodySuspensionRatified _ _ => exact h.other hp he rfl
  | regionalBodyUnsuspended _ _ => exact h.other hp he rfl

/-- An honest enumeration that succeeds reads a block up to the head. -/
theorem honest_snapshot {reads : Reads} {snapshot : BootstrapSnapshot}
    (h : (∃ n ≤ w.head, reads = C.reads operator n) ∨ ∃ err, bootstrapSnapshot reads = .error err)
    (hok : bootstrapSnapshot reads = .ok snapshot) :
    snapshot.block ≤ w.head ∧ ∀ a, a ∈ snapshot.origins ↔
      (isOriginBlacklisted (C.world snapshot.block).contract (C.world snapshot.block).now a ||
        (C.world snapshot.block).contract.isOperatorBlacklisted a) = true := by
  rcases h with ⟨n, hn, rfl⟩ | ⟨err, herr⟩
  · rcases Chain.bootstrapSnapshot_reads hok with ⟨rfl, horigins⟩
    exact ⟨hn, horigins⟩
  · rw [herr] at hok
    cases hok

/-- Every action keeps the deny-set in step. -/
theorem SyncInv.step (hlapse : C.NoLapse) (h : SyncInv C w) {a : Action}
    (hhonest : Honest C operator w a) (horder : InOrder w a) (hclears : CleanClears C w a)
    (hstep : Step C w a w') : SyncInv C w' := by
  cases a with
  | mine =>
    simp only [Step, World.apply] at hstep
    split at hstep
    · rename_i hlt
      rcases Option.some.inj hstep with rfl
      exact ⟨hlt, fun hsome => Nat.le_succ_of_le (h.snapshot hsome), h.synced⟩
    · cases hstep
  | tail oracle =>
    rcases Option.bind_eq_some_iff.mp hstep with ⟨st, hst, htail⟩
    simp only [World.tail] at htail
    split at htail
    · rename_i hlt
      split at htail
      · rename_i e he
        rcases Option.some.inj htail with rfl
        refine ⟨h.head, fun _ => h.snapshot (by rw [hst]; rfl), ?_⟩
        intro st' hst'
        rcases Option.some.inj hst' with rfl
        have hp : w.applied < C.log.length :=
          Nat.lt_of_lt_of_le hlt (C.through_mono h.head)
        exact (h.synced st hst).handleLog hp he (hclears e he) oracle w.cache
      · cases htail
    · cases htail
  | resync reads =>
    rcases Option.bind_eq_some_iff.mp hstep with ⟨st, hst, hfold⟩
    split at hfold
    · rename_i snapshot hok
      rcases Option.some.inj hfold with rfl
      rcases honest_snapshot hhonest hok with ⟨hhead, horigins⟩
      refine ⟨h.head, fun _ => hhead, ?_⟩
      intro st' hst'
      rcases Option.some.inj hst' with rfl
      exact (h.synced st hst).fold hlapse (horder snapshot hok) (Nat.le_trans hhead h.head) horigins
    · rcases Option.some.inj hfold with rfl
      exact h
  | rescan oracle order cancelAt =>
    rcases Option.bind_eq_some_iff.mp hstep with ⟨st, hst, hpass⟩
    split at hpass
    · rcases Option.some.inj hpass with rfl
      refine ⟨h.head, fun _ => h.snapshot (by rw [hst]; rfl), ?_⟩
      intro st' hst'
      rcases Option.some.inj hst' with rfl
      exact (h.synced st hst).congr (rescan_origins oracle .continue order cancelAt st w.cache true)
    · cases hpass
  | withhold withheld =>
    rcases Option.some.inj hstep with rfl
    exact ⟨h.head, h.snapshot, h.synced⟩
  | crash =>
    rcases Option.some.inj hstep with rfl
    exact ⟨h.head, fun hsome => Bool.noConfusion hsome, fun st hst => by cases hst⟩
  | boot reads oracle order =>
    simp only [Step, World.apply] at hstep
    split at hstep
    · cases hstep
    · rename_i hdown
      split at hstep
      · rename_i snapshot hok
        split at hstep
        · rcases Option.some.inj hstep with rfl
          rcases honest_snapshot hhonest hok with ⟨hhead, horigins⟩
          unfold World.boot enumerateAndEnforce
          have hpass := rescan_origins oracle .stop order none
            { known := snapshot.known, chainOrigins := fun a => decide (a ∈ snapshot.origins) }
            w.cache true
          dsimp only
          rcases hresult : rescan oracle .stop order none
            { known := snapshot.known, chainOrigins := fun a => decide (a ∈ snapshot.origins) }
            w.cache true with ⟨st, c, clean⟩
          rw [hresult] at hpass
          cases clean with
          | true =>
            refine ⟨h.head, fun _ => hhead, ?_⟩
            intro st' hst'
            rcases Option.some.inj hst' with rfl
            exact (Synced.boot hlapse (Nat.le_trans hhead h.head) horigins).congr hpass
          | false => exact ⟨h.head, h.snapshot, h.synced⟩
        · cases hstep
      · rcases Option.some.inj hstep with rfl
        exact h

/-- The origin deny-set is the union of the lists.  In every run with honest enumerations, none
folded below an earlier one, and no address cleared from one list while the other holds it:
whenever the tail has applied everything through a block and the last snapshot is not above it, an
address is denied exactly when one of the two lists holds it there. -/
theorem origin_deny_set (hlapse : C.NoLapse)
    (h : Reaches (Step C) (fun w a => Honest C operator w a ∧ InOrder w a ∧ CleanClears C w a)
      {} w) (hst : w.watcher = some st) {f : Nat} (hhead : f ≤ w.head)
    (happlied : w.applied = C.through f) (hsnapshot : w.snapshotBlock ≤ f) (a : Address) :
    st.chainOrigins a = true ↔
      isOriginBlacklisted (C.world f).contract (C.world f).now a = true ∨
        (C.world f).contract.isOperatorBlacklisted a = true := by
  have hinv : SyncInv C w :=
    h.invariant ⟨Nat.zero_le _, fun hsome => Bool.noConfusion hsome, fun st hst => by cases hst⟩
      fun _ _ _ hguard hstep hinv => hinv.step hlapse hguard.1 hguard.2.1 hguard.2.2 hstep
  have hview := (hinv.synced st hst).tracks.caught_up happlied hsnapshot
  rw [hview]
  change C.denied (C.through f) a = true ↔ _
  rw [C.denied_through hlapse (Nat.le_trans hhead hinv.head), Bool.or_eq_true]

/-! ## Runs by evaluation -/

/-- An origin is blacklisted, the same address as an operator, and the origin entry is cleared. -/
def listsChain : Chain ContentBlacklist.sampleSets :=
  .ofCalls ContentBlacklist.sampleDeployed
    (ContentBlacklist.sampleDeployed_reachable ContentBlacklist.sampleSets)
    [(ContentBlacklist.sampleTx 9 100, .setOriginBlacklist 6 true),
      (ContentBlacklist.sampleTx 9 110, .addOperator 6),
      (ContentBlacklist.sampleTx 9 120, .setOriginBlacklist 6 false)]
    CapacityBond.sampleDeployed.contract

/-- No emergency entry is open after `setOriginBlacklist`. -/
theorem update_addedAt {f : Address → ContentBlacklist.EmergencyOrigin}
    (h : ∀ a, (f a).addedAt = 0) (b a : Address) : (Function.update f b {} a).addedAt = 0 := by
  rw [Function.update_apply]
  split
  · rfl
  · exact h a

theorem listsChain_noLapse : listsChain.NoLapse := by
  have hnone : ∀ n a, ((listsChain.world n).contract.emergencyOrigins a).addedAt = 0 := by
    intro n a
    have hdeployed : ∀ a, (ContentBlacklist.sampleDeployed.contract.emergencyOrigins a).addedAt =
        0 := fun _ => rfl
    match n with
    | 0 => exact hdeployed a
    | 1 => exact update_addedAt hdeployed 6 a
    | 2 => exact update_addedAt hdeployed 6 a
    | n + 3 =>
      have hlast : listsChain.world (n + 3) = listsChain.world 3 := by
        simp only [listsChain, Chain.ofCalls, List.take_succ_cons, List.take_nil]
      rw [hlast]
      exact update_addedAt (update_addedAt hdeployed 6) 6 a
  intro n a
  unfold isOriginBlacklisted ContentBlacklist.emergencyExpired
  rw [hnone n a]
  exact Bool.and_true _

/-- Enumerations of blocks up to the head. -/
def honestAction (w : World) : SampleAction → Bool
  | .resync n => decide (n ≤ w.head)
  | .boot n => decide (n ≤ w.head)
  | _ => true

theorem honest_of_honestAction {w : World} {a : SampleAction} (h : honestAction w a = true) :
    Honest C operator w (a.toAction C operator) := by
  cases a with
  | mine => trivial
  | tail => trivial
  | resync n => exact .inl ⟨n, of_decide_eq_true h, rfl⟩
  | crash => trivial
  | boot n => exact .inl ⟨n, of_decide_eq_true h, rfl⟩

/-- A run of sample actions. -/
theorem Reaches.of_sample {actions : List SampleAction}
    (h : runEvents (fun w (a : SampleAction) => w.apply C (a.toAction C operator)) honestAction
      {} actions = some w) : Reaches (Step C) (Honest C operator) {} w :=
  Reaches.map (SampleAction.toAction C operator)
    (Reaches.of_runEvents (fun _ _ => honest_of_honestAction) h)

/-- Enumerations of blocks up to the head, folded in ascending order, and events that clear no
address. -/
def orderlyAction (C : Chain L) (w : World) : SampleAction → Bool
  | .resync n => decide (w.snapshotBlock ≤ n ∧ n ≤ w.head)
  | .boot n => decide (n ≤ w.head)
  | .tail => (C.log[w.applied]?).all fun
    | .originBlacklistUpdated _ v => v
    | .operatorBlacklistCleared _ => false
    | _ => true
  | _ => true

theorem guarded_of_orderlyAction {w : World} {a : SampleAction} (h : orderlyAction C w a = true) :
    Honest C operator w (a.toAction C operator) ∧ InOrder w (a.toAction C operator) ∧
      CleanClears C w (a.toAction C operator) := by
  cases a with
  | mine => exact ⟨trivial, trivial, trivial⟩
  | tail =>
    refine ⟨trivial, trivial, fun e he => ?_⟩
    unfold orderlyAction at h
    rw [he, Option.all_some] at h
    unfold ClearsLast
    split
    · exact absurd h Bool.false_ne_true
    · exact absurd h Bool.false_ne_true
    · trivial
  | resync n =>
    rcases of_decide_eq_true h with ⟨hfolded, hhead⟩
    refine ⟨.inl ⟨n, hhead, rfl⟩, fun snapshot hok => ?_, trivial⟩
    rw [(Chain.bootstrapSnapshot_reads hok).1]
    exact hfolded
  | crash => exact ⟨trivial, trivial, trivial⟩
  | boot n => exact ⟨.inl ⟨n, of_decide_eq_true h, rfl⟩, trivial, trivial⟩

/-- The tail lists an address, a fold brings it again, and the tail adds it to the other list. -/
theorem origin_deny_set_sample :
    ∃ w st, Reaches (Step listsChain)
        (fun w a => Honest listsChain 3 w a ∧ InOrder w a ∧ CleanClears listsChain w a) {} w ∧
      w.watcher = some st ∧ w.snapshotBlock = 1 ∧
      isOriginBlacklisted (listsChain.world 2).contract (listsChain.world 2).now 6 = true ∧
      (listsChain.world 2).contract.isOperatorBlacklisted 6 = true ∧
      st.chainOrigins 6 = true := by
  have hrun : ((runEvents (fun w (a : SampleAction) => w.apply listsChain
      (a.toAction listsChain 3)) (orderlyAction listsChain) {}
      [.boot 0, .mine, .tail, .resync 1, .mine, .tail]).bind fun w =>
        w.watcher.map fun _ => (w.applied, w.snapshotBlock, w.head)) = some (2, 1, 2) := by
    decide +kernel
  rcases Option.bind_eq_some_iff.mp hrun with ⟨w, hw, hlast⟩
  rcases Option.map_eq_some_iff.mp hlast with ⟨st, hst, hfacts⟩
  simp only [Prod.mk.injEq] at hfacts
  rcases hfacts with ⟨happlied, hsnapshot, hhead⟩
  have hreach : Reaches (Step listsChain)
      (fun w a => Honest listsChain 3 w a ∧ InOrder w a ∧ CleanClears listsChain w a) {} w :=
    Reaches.map (SampleAction.toAction listsChain 3)
      (Reaches.of_runEvents (fun _ _ => guarded_of_orderlyAction) hw)
  have hthrough : listsChain.through 2 = 2 := by
    decide +kernel
  have hlists : isOriginBlacklisted (listsChain.world 2).contract (listsChain.world 2).now 6 =
      true ∧ (listsChain.world 2).contract.isOperatorBlacklisted 6 = true := by
    decide +kernel
  refine ⟨w, st, hreach, hst, hsnapshot, hlists.1, hlists.2, ?_⟩
  exact (origin_deny_set listsChain_noLapse hreach hst (by omega) (by omega) (by omega) 6).mpr
    (.inl hlists.1)

/-- Clearing an address from one list lifts its denial although the other list holds it; and a
fold below an earlier one forgets what the tail denied. -/
theorem clearing_one_list_lifts_denial :
    listsChain.NoLapse ∧
    (∃ w st, Reaches (Step listsChain) (Honest listsChain 3) {} w ∧ w.watcher = some st ∧
      w.applied = listsChain.through 3 ∧ w.snapshotBlock ≤ 3 ∧ 3 ≤ w.head ∧
      st.chainOrigins 6 = false ∧
      (listsChain.world 3).contract.isOperatorBlacklisted 6 = true) ∧
    ∃ w st, Reaches (Step listsChain) (Honest listsChain 3) {} w ∧ w.watcher = some st ∧
      w.applied = listsChain.through 1 ∧ w.snapshotBlock ≤ 1 ∧ 1 ≤ w.head ∧
      st.chainOrigins 6 = false ∧
      isOriginBlacklisted (listsChain.world 1).contract (listsChain.world 1).now 6 = true := by
  have hcleared : ((runEvents (fun w (a : SampleAction) => w.apply listsChain
      (a.toAction listsChain 3)) honestAction {}
      [.boot 0, .mine, .mine, .mine, .tail, .tail, .tail]).bind fun w =>
        w.watcher.map fun st => (w.applied, w.snapshotBlock, w.head, st.chainOrigins 6)) =
          some (3, 0, 3, false) := by
    decide +kernel
  have hforgotten : ((runEvents (fun w (a : SampleAction) => w.apply listsChain
      (a.toAction listsChain 3)) honestAction {}
      [.boot 0, .mine, .tail, .resync 1, .resync 0]).bind fun w =>
        w.watcher.map fun st => (w.applied, w.snapshotBlock, w.head, st.chainOrigins 6)) =
          some (1, 0, 1, false) := by
    decide +kernel
  have hthrough : listsChain.through 3 = 3 ∧ listsChain.through 1 = 1 := by
    decide +kernel
  have hlists : (listsChain.world 3).contract.isOperatorBlacklisted 6 = true ∧
      isOriginBlacklisted (listsChain.world 1).contract (listsChain.world 1).now 6 = true := by
    decide +kernel
  refine ⟨listsChain_noLapse, ?_, ?_⟩
  · rcases Option.bind_eq_some_iff.mp hcleared with ⟨w, hw, hlast⟩
    rcases Option.map_eq_some_iff.mp hlast with ⟨st, hst, hfacts⟩
    simp only [Prod.mk.injEq] at hfacts
    rcases hfacts with ⟨happlied, hsnapshot, hhead, hdenied⟩
    exact ⟨w, st, Reaches.of_sample hw, hst, by omega, by omega, by omega, hdenied, hlists.1⟩
  · rcases Option.bind_eq_some_iff.mp hforgotten with ⟨w, hw, hlast⟩
    rcases Option.map_eq_some_iff.mp hlast with ⟨st, hst, hfacts⟩
    simp only [Prod.mk.injEq] at hfacts
    rcases hfacts with ⟨happlied, hsnapshot, hhead, hdenied⟩
    exact ⟨w, st, Reaches.of_sample hw, hst, by omega, by omega, by omega, hdenied, hlists.2⟩

end Decdn.Node.BlacklistWatcher
