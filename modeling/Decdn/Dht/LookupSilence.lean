import Decdn.Dht.LookupSafety

/-!
# Silent peers

A seed has more peers than one round asks.  A round in which nobody answers observes no
closer node and ends the lookup, so the peers of the seed past the first batch are asked
only if a peer of the first batch answers.

Main results:

- Theorem `no_providers_of_silent_batch`: a silent first batch ends the lookup.
- Theorem `providers_of_answer`: a valid provider in the first round is returned.
- Theorem `silent_peers_end_lookup`: a lookup survives fewer than `alpha` silent peers.
-/

namespace Decdn.Dht

open RoutingTable (distance)

variable {x : LookupInput} {s : LookupState} {p : NodeId}

/-! ## Silent rounds -/

/-- The candidates of the seed, nearest first. -/
def seeded (x : LookupInput) : List NodeId := (LookupState.new x).candidates.map Prod.snd

/-- A batch is of the nearest candidates. -/
theorem pickLoop_fst (s : LookupState) (room : Nat) :
    (s.pickLoop room).1 = (s.candidates.map Prod.snd).take room := by
  induction room generalizing s with
  | zero => rfl
  | succ room ih =>
    unfold LookupState.pickLoop
    split
    · rename_i hnone
      rw [hnone]
      rfl
    · rename_i dist peer rest hfirst
      rw [hfirst, List.map_cons, List.take_succ_cons]
      dsimp only
      rw [ih]

theorem alpha_new (x : LookupInput) : (LookupState.new x).alpha = x.cfg.alpha :=
  (sound_new x).alpha_eq

/-- The first batch of a lookup. -/
theorem firstBatch_eq (x : LookupInput) :
    (LookupState.new x).pickRoundBatch.1 = (seeded x).take x.cfg.alpha := by
  unfold LookupState.pickRoundBatch
  rw [pickLoop_fst, alpha_new]
  rfl

/-- A round without a response changes nothing, and observes nothing closer. -/
theorem runRound_silent {round : RoundAnswers} (batch : List NodeId) (s : LookupState)
    (hsilent : ∀ a ∈ round.answers, ∀ resp, a.result ≠ .response resp) :
    (runRound batch round s).state = s ∧ (runRound batch round s).observedCloser = false := by
  have hstart : ({ state := s } : RoundState).state = s ∧
      ({ state := s } : RoundState).observedCloser = false := ⟨rfl, rfl⟩
  have hdrain : (round.answers.foldl drainAnswer { state := s }).state = s ∧
      (round.answers.foldl drainAnswer { state := s }).observedCloser = false := by
    refine List.foldlRecOn (motive := fun w : RoundState => w.state = s ∧ w.observedCloser = false)
      _ drainAnswer hstart fun w hw a ha => ?_
    unfold drainAnswer
    split
    · rename_i resp hresp
      exact absurd hresp (hsilent a ha resp)
    · exact hw
    · exact hw
    · exact hw
  unfold runRound
  dsimp only
  split
  · exact hdrain
  · exact hdrain

/-- The responders answer for their batch, and the silent peers not at all. -/
structure Silence (x : LookupInput) (silent : NodeId → Bool) : Prop where
  batch : ∀ round batch, ∀ a ∈ (x.responders round batch).answers, a.responder ∈ batch
  silent : ∀ round batch, ∀ a ∈ (x.responders round batch).answers, silent a.responder = true →
    ∀ resp, a.result ≠ .response resp

/-- A first batch that is silent ends the lookup without a provider. -/
theorem no_providers_of_silent_batch {silent : NodeId → Bool} (h : Silence x silent)
    (rng : Shuffle (NodeId × Coverage))
    (hbatch : ∀ q ∈ (seeded x).take x.cfg.alpha, silent q = true) :
    (findProviders x rng).providers = [] := by
  have hnone : (runLookup x).state.providers = [] := by
    have hsilent : ∀ a ∈ (x.responders 0 (LookupState.new x).pickRoundBatch.1).answers,
        ∀ resp, a.result ≠ .response resp := by
      intro a ha
      refine h.silent _ _ a ha (hbatch _ ?_)
      rw [← firstBatch_eq]
      exact h.batch _ _ a ha
    rcases runRound_silent (LookupState.new x).pickRoundBatch.1
      (LookupState.new x).pickRoundBatch.2 hsilent with ⟨hstate, hcloser⟩
    unfold runLookup maxLookupRounds lookupLoop
    dsimp only
    split
    · exact (queried_new x).2
    · split
      · exact (queried_new x).2
      · rw [hcloser, if_neg Bool.false_ne_true]
        dsimp only
        rw [hstate]
        exact ((sound_new x).pickLoop _).2.providers.trans (queried_new x).2
  unfold findProviders LookupState.intoLookup
  dsimp only
  rw [hnone, (rng.perm []).eq_nil]
  exact List.take_nil

/-! ## An answer with a provider -/

theorem insertProvider_ne_nil {coverage : Coverage} {l : List (NodeId × Coverage)} :
    LookupState.insertProvider p coverage l ≠ [] := by
  unfold LookupState.insertProvider
  split
  · exact List.cons_ne_nil _ _
  · split <;> exact List.cons_ne_nil _ _

theorem recordProvider_ne_nil {coverage : Coverage}
    (h : p ≠ s.requesterId ∨ s.providers ≠ []) : (s.recordProvider p coverage).providers ≠ [] := by
  unfold LookupState.recordProvider
  split
  · rename_i hself
    exact h.resolve_left fun hne => hne hself
  · exact insertProvider_ne_nil

theorem attestingOrigin_providers (s : LookupState) (verifier : AttestationVerifier)
    (att : OriginAttestation) :
    (s.attestingOrigin verifier att).1.providers = s.providers ∧
      (s.attestingOrigin verifier att).1.requesterId = s.requesterId := by
  unfold LookupState.attestingOrigin
  split <;> exact ⟨rfl, rfl⟩

theorem insertOrigin_providers (s : LookupState) (origin : Address) :
    (s.insertOrigin origin).providers = s.providers ∧
      (s.insertOrigin origin).requesterId = s.requesterId := by
  unfold LookupState.insertOrigin
  split <;> exact ⟨rfl, rfl⟩

theorem addCandidate_providers (s : LookupState) (p : NodeId) :
    (s.addCandidate p).1.providers = s.providers := by
  rcases addCandidate_cases s p with ⟨skipped, heq⟩ | ⟨-, -, -, -, heq⟩ <;>
  · rw [heq]

/-- Folding a provider keeps the providers, and records one that is let in. -/
theorem foldProvider_ne_nil {verifier : AttestationVerifier} {probeable : List NodeId}
    {w : LookupState × Nat} {pr : Provider}
    (h : w.1.providers ≠ [] ∨ (pr.node ≠ w.1.requesterId ∧ pr.node ∈ probeable ∧
      (w.1.attestingOrigin verifier pr.attestation).2 ≠ none)) :
    (foldProvider verifier probeable w pr).1.providers ≠ [] := by
  rcases attestingOrigin_providers w.1 verifier pr.attestation with ⟨hproviders, hrequester⟩
  unfold foldProvider
  dsimp only
  split
  · rename_i origin hsome
    rcases insertOrigin_providers (w.1.attestingOrigin verifier pr.attestation).1 origin with
      ⟨hproviders', hrequester'⟩
    split
    · refine recordProvider_ne_nil (h.symm.imp (fun hin => ?_) fun hne => ?_)
      · rw [hrequester', hrequester]
        exact hin.1
      · rw [hproviders', hproviders]
        exact hne
    · rename_i hprobe
      rw [hproviders', hproviders]
      exact h.resolve_right fun hin => hprobe hin.2.1
  · rename_i hnone
    rw [hproviders]
    exact h.resolve_right fun hin => hin.2.2 hnone

/-- Folding an answer keeps the providers, if folding its providers does. -/
theorem foldResponse_providers (knowledge : Knowledge) (resp : FindValueResponse)
    (responder : NodeId) (s : LookupState) :
    ∃ bonded probeable, bonded = filterActiveStakers (resp.providers.map Provider.node)
        knowledge.isActive ∧
      probeable = filterNegativeCache bonded s.target knowledge.containsActive ∧
      (foldResponse knowledge resp responder s).1.providers =
        ((resp.providers.filter fun p => decide (p.node ∈ bonded)).foldl
          (foldProvider knowledge.verifier probeable) (s, 0)).1.providers := by
  refine ⟨_, _, rfl, rfl, ?_⟩
  unfold foldResponse
  dsimp only
  generalize ((resp.providers.filter _).foldl (foldProvider _ _) (s, 0)) = checked
  refine List.foldlRecOn (motive := fun w : LookupState × Bool =>
    w.1.providers = checked.1.providers) _ foldCloser rfl fun w hw q _ => ?_
  exact (addCandidate_providers w.1 q).trans hw

theorem foldResponse_ne_nil {knowledge : Knowledge} {resp : FindValueResponse} {responder : NodeId}
    (h : s.providers ≠ []) : (foldResponse knowledge resp responder s).1.providers ≠ [] := by
  rcases foldResponse_providers knowledge resp responder s with ⟨bonded, probeable, -, -, heq⟩
  rw [heq]
  exact List.foldlRecOn (motive := fun w : LookupState × Nat => w.1.providers ≠ []) _ _ h
    fun w hw pr _ => foldProvider_ne_nil (Or.inl hw)

theorem runRound_state (batch : List NodeId) (round : RoundAnswers) (s : LookupState) :
    (runRound batch round s).state = (round.answers.foldl drainAnswer { state := s }).state := by
  unfold runRound
  dsimp only
  split <;> rfl

theorem drainAnswer_ne_nil {w : RoundState} {a : Answer} (h : w.state.providers ≠ []) :
    (drainAnswer w a).state.providers ≠ [] := by
  unfold drainAnswer
  split
  · exact foldResponse_ne_nil h
  · exact h
  · exact h
  · exact h

/-- A round keeps the providers. -/
theorem runRound_ne_nil {round : RoundAnswers} {batch : List NodeId} (h : s.providers ≠ []) :
    (runRound batch round s).state.providers ≠ [] := by
  rw [runRound_state]
  exact List.foldlRecOn (motive := fun w : RoundState => w.state.providers ≠ []) _ drainAnswer h
    fun w hw a _ => drainAnswer_ne_nil hw

theorem pickLoop_providers (s : LookupState) (room : Nat) :
    (s.pickLoop room).2.providers = s.providers := by
  induction room generalizing s with
  | zero => rfl
  | succ room ih =>
    unfold LookupState.pickLoop
    split
    · rfl
    · rw [ih]

/-- A lookup keeps its providers. -/
theorem lookupLoop_ne_nil {responders : Nat → List NodeId → RoundAnswers} {round left : Nat}
    {run : LookupRun} (h : run.state.providers ≠ []) :
    (lookupLoop responders round left run).state.providers ≠ [] := by
  induction left generalizing round run with
  | zero => exact h
  | succ left ih =>
    have hpicked : run.state.pickRoundBatch.2.providers ≠ [] := by
      unfold LookupState.pickRoundBatch
      rw [pickLoop_providers]
      exact h
    unfold lookupLoop
    dsimp only
    split
    · exact h
    · split
      · exact h
      · split
        · exact ih (runRound_ne_nil hpicked)
        · exact runRound_ne_nil hpicked

/-- The verdicts on an attestation name an origin; nothing else matters. -/
def attestedAdmission (att : OriginAttestation) : Admission where
  named _ := True
  vouched _ := True
  verified a v := a = att → v ≠ none

/-- A provider that passes the filters is recorded. -/
theorem foldResponse_provides {a : Answer} {resp : FindValueResponse} {pr : Provider}
    (h : Sound x (attestedAdmission pr.attestation) s) (hpr : pr ∈ resp.providers)
    (hself : pr.node ≠ x.requesterId) (hactive : a.knowledge.isActive pr.node = true)
    (hcache : a.knowledge.containsActive pr.node x.target = false)
    (hverify : a.knowledge.verifier.verify x.target pr.attestation ≠ none) :
    (foldResponse a.knowledge resp a.responder s).1.providers ≠ [] := by
  rcases foldResponse_providers a.knowledge resp a.responder s with
    ⟨bonded, probeable, hbonded, hprobeable, heq⟩
  have hnode : pr.node ∈ bonded := by
    rw [hbonded]
    exact List.mem_filter.mpr ⟨List.mem_map_of_mem hpr, hactive⟩
  have hprobe : pr.node ∈ probeable := by
    rw [hprobeable]
    refine List.mem_filter.mpr ⟨hnode, ?_⟩
    rw [h.target_eq, hcache]
    rfl
  have hfold : ∀ w : LookupState × Nat, Sound x (attestedAdmission pr.attestation) w.1 → ∀ q,
      Sound x (attestedAdmission pr.attestation)
        (foldProvider a.knowledge.verifier probeable w q).1 := fun w hw q =>
    hw.foldProvider (fun hsame => hsame ▸ hverify) fun _ _ => trivial
  have hkept : pr ∈ resp.providers.filter fun p => decide (p.node ∈ bonded) :=
    List.mem_filter.mpr ⟨hpr, decide_eq_true hnode⟩
  rw [heq]
  rcases List.append_of_mem hkept with ⟨before, after, hsplit⟩
  rw [hsplit, List.foldl_append, List.foldl_cons]
  have hbefore : Sound x (attestedAdmission pr.attestation)
      (before.foldl (foldProvider a.knowledge.verifier probeable) (s, 0)).1 :=
    List.foldlRecOn (motive := fun w : LookupState × Nat =>
      Sound x (attestedAdmission pr.attestation) w.1) _ _ h fun w hw q _ => hfold w hw q
  refine List.foldlRecOn (motive := fun w : LookupState × Nat => w.1.providers ≠ []) _ _ ?_
    fun w hw q _ => foldProvider_ne_nil (Or.inl hw)
  refine foldProvider_ne_nil (Or.inr ⟨?_, hprobe, ?_⟩)
  · rw [hbefore.requester_eq]
    exact hself
  · exact (hbefore.attestingOrigin fun _ => hverify).2 rfl

/-- A peer answers a round with a provider: bonded, not negatively cached, not the requester, and
with an attestation that the verifier maps to a seated origin all through the round. -/
def Provides (x : LookupInput) (round : RoundAnswers) (p : NodeId) : Prop :=
  ∃ a ∈ round.answers, a.responder = p ∧ ∃ resp, a.result = .response resp ∧
    ∃ pr ∈ resp.providers, pr.node ≠ x.requesterId ∧ a.knowledge.isActive pr.node = true ∧
      a.knowledge.containsActive pr.node x.target = false ∧
      ∀ b ∈ round.answers, b.knowledge.verifier.verify x.target pr.attestation ≠ none

/-- A round with such an answer ends with a provider, if no attestation was checked before. -/
theorem runRound_provides {round : RoundAnswers} {batch : List NodeId}
    (h : Sound x (admission x []) s) (hprovides : Provides x round p) :
    (runRound batch round s).state.providers ≠ [] := by
  rcases hprovides with
    ⟨a, ha, -, resp, hresp, pr, hpr, hself, hactive, hcache, hverify⟩
  have hstart : Sound x (attestedAdmission pr.attestation) s :=
    h.weaken ⟨fun _ _ => trivial, fun _ _ => trivial,
      fun _ _ ⟨_, hr, _⟩ => absurd hr List.not_mem_nil⟩
  have hadmits : ∀ b ∈ round.answers, Admits x (attestedAdmission pr.attestation) b := fun b hb =>
    ⟨fun _ _ _ _ _ => trivial, fun _ _ _ hsame => hsame ▸ hverify b hb,
      fun _ _ _ _ _ _ _ => trivial⟩
  rcases List.append_of_mem ha with ⟨before, after, hsplit⟩
  have hearlier : ∀ b ∈ (⟨before, false⟩ : RoundAnswers).answers,
      Admits x (attestedAdmission pr.attestation) b := fun b hb =>
    hadmits b (hsplit ▸ List.mem_append_left _ hb)
  have hbefore := (hstart.runRound hearlier batch).sound
  rw [runRound_state] at hbefore ⊢
  rw [hsplit, List.foldl_append, List.foldl_cons]
  refine List.foldlRecOn (motive := fun w : RoundState => w.state.providers ≠ []) _ drainAnswer ?_
    fun w hw b _ => drainAnswer_ne_nil hw
  unfold drainAnswer
  rw [hresp]
  exact foldResponse_provides hbefore hpr hself hactive hcache (hverify a ha)

/-- A valid provider of the first round is returned. -/
theorem providers_of_answer (rng : Shuffle (NodeId × Coverage))
    (hp : p ∈ (seeded x).take x.cfg.alpha)
    (hprovides : Provides x (x.responders 0 ((seeded x).take x.cfg.alpha)) p) :
    (findProviders x rng).providers ≠ [] := by
  have hsome : (runLookup x).state.providers ≠ [] := by
    rw [← firstBatch_eq] at hp hprovides
    have hround : (runRound (LookupState.new x).pickRoundBatch.1
        (x.responders 0 (LookupState.new x).pickRoundBatch.1)
        (LookupState.new x).pickRoundBatch.2).state.providers ≠ [] :=
      runRound_provides ((sound_new x).pickLoop _).1 hprovides
    unfold runLookup maxLookupRounds lookupLoop
    dsimp only
    have hneed : (LookupState.new x).haveEnoughProviders = false := by
      unfold LookupState.haveEnoughProviders
      rw [(queried_new x).2, (sound_new x).k_eq]
      exact decide_eq_false (Nat.not_le_of_lt x.cfg.k_pos)
    have hasked : (LookupState.new x).pickRoundBatch.1.isEmpty = false :=
      List.isEmpty_eq_false_iff.mpr (List.ne_nil_of_mem hp)
    rw [hneed, hasked, if_neg Bool.false_ne_true, if_neg Bool.false_ne_true]
    split
    · exact lookupLoop_ne_nil hround
    · exact hround
  unfold findProviders LookupState.intoLookup
  dsimp only
  rw [(safeRun x).1.sound.k_eq]
  intro hnil
  rcases List.take_eq_nil_iff.mp hnil with hzero | hempty
  · exact absurd hzero (Nat.pos_iff_ne_zero.mp x.cfg.k_pos)
  · exact hsome (List.Perm.eq_nil (hempty ▸ (rng.perm _).symm))

/-! ## Silent seeds -/

/-- A lookup whose nearest answering peer of the seed returns a valid provider returns one exactly
when fewer than `alpha` peers of the seed nearer to the target are silent. -/
theorem silent_peers_end_lookup (x : LookupInput) (rng : Shuffle (NodeId × Coverage))
    (silent : NodeId → Bool) (h : Silence x silent) (j : Nat) (p : NodeId)
    (hnearest : (seeded x)[j]? = some p)
    (hsilent : ∀ i q, i < j → (seeded x)[i]? = some q → silent q = true)
    (hprovides : ∀ round batch, p ∈ batch → Provides x (x.responders round batch) p) :
    (findProviders x rng).providers ≠ [] ↔ j < x.cfg.alpha := by
  constructor
  · intro hsome
    by_contra hfar
    refine hsome (no_providers_of_silent_batch h rng fun q hq => ?_)
    rcases List.mem_iff_getElem?.mp hq with ⟨i, hget⟩
    rw [List.getElem?_take] at hget
    split at hget
    · rename_i hi
      exact hsilent i q (Nat.lt_of_lt_of_le hi (Nat.not_lt.mp hfar)) hget
    · cases hget
  · intro hnear
    have hp : p ∈ (seeded x).take x.cfg.alpha := by
      refine List.mem_of_getElem? (i := j) ?_
      rw [List.getElem?_take_of_lt hnear]
      exact hnearest
    exact providers_of_answer rng hp (hprovides 0 _ hp)

/-! ## Seeds in order -/

/-- A new candidate farther than all others comes last. -/
theorem addCandidate_last (hself : p ≠ s.requesterId) (hcooling : p ∉ s.cooling)
    (hqueried : p ∉ s.queried) (hlast : ∀ e ∈ s.candidates, e.1 < s.keyOf p) :
    (s.addCandidate p).1 = { s with candidates := s.candidates ++ [(s.keyOf p, p)] } := by
  have hinsert : ∀ l : List (Point × NodeId), (∀ e ∈ l, e.1 < s.keyOf p) →
      LookupState.insertCandidate (s.keyOf p) p l = l ++ [(s.keyOf p, p)] := by
    intro l hl
    induction l with
    | nil => rfl
    | cons e rest ih =>
      rcases List.forall_mem_cons.mp hl with ⟨he, hrest⟩
      rw [LookupState.insertCandidate, if_neg (lt_asymm he), if_neg (ne_of_gt he), ih hrest]
      rfl
  have hnew : s.keyOf p ∉ s.candidates.map Prod.fst := by
    intro hmem
    rcases List.mem_map.mp hmem with ⟨e, he, hkey⟩
    exact absurd hkey (ne_of_lt (hlast e he))
  rw [LookupState.addCandidate, if_neg hself, if_neg hcooling]
  dsimp only
  rw [if_neg (not_or.mpr ⟨hqueried, hnew⟩), hinsert _ hlast]

/-- Peers that come in the order of their distance become the candidates as they are. -/
theorem foldl_addCandidate {l : List NodeId} (hqueried : s.queried = [])
    (hself : ∀ p ∈ l, p ≠ s.requesterId) (hcooling : ∀ p ∈ l, p ∉ s.cooling)
    (hasc : l.Pairwise fun p q => s.keyOf p < s.keyOf q)
    (hlast : ∀ e ∈ s.candidates, ∀ p ∈ l, e.1 < s.keyOf p) :
    (l.foldl (fun s p => (s.addCandidate p).1) s).candidates =
      s.candidates ++ l.map fun p => (s.keyOf p, p) := by
  induction l generalizing s with
  | nil => exact (List.append_nil _).symm
  | cons p rest ih =>
    rcases List.pairwise_cons.mp hasc with ⟨hnext, hrest⟩
    rcases List.forall_mem_cons.mp hself with ⟨hselfp, hself⟩
    rcases List.forall_mem_cons.mp hcooling with ⟨hcoolingp, hcooling⟩
    have hstep := addCandidate_last hselfp hcoolingp (hqueried ▸ List.not_mem_nil) fun e he =>
      hlast e he p List.mem_cons_self
    rw [List.foldl_cons, hstep]
    refine (ih (s := { s with candidates := s.candidates ++ [(s.keyOf p, p)] }) hqueried hself
      hcooling hrest ?_).trans ?_
    · intro e he q hq
      rcases List.mem_append.mp he with hold | hnew
      · exact hlast e hold q (List.mem_cons_of_mem _ hq)
      · rw [List.mem_singleton.mp hnew]
        exact hnext q hq
    · exact List.append_assoc _ _ _

/-- The peers of a table with one bucket. -/
theorem iterPeers_of_single {t : RoutingTable} {i : Fin keyspaceBits}
    (h : ∀ j, j ≠ i → t.buckets j = []) : t.iterPeers = t.buckets i := by
  rcases List.append_of_mem (List.mem_finRange i) with ⟨before, after, hsplit⟩
  have hnodup := List.nodup_finRange keyspaceBits
  rw [hsplit, List.nodup_middle, List.nodup_cons, List.mem_append, not_or] at hnodup
  have hempty : ∀ l : List (Fin keyspaceBits), i ∉ l → l.flatMap t.buckets = [] := fun l hl =>
    List.flatMap_eq_nil_iff.mpr fun j hj => h j fun hsame => hl (hsame ▸ hj)
  rw [RoutingTable.iterPeers, hsplit, List.flatMap_append, List.flatMap_cons,
    hempty before hnodup.1.1, hempty after hnodup.1.2, List.append_nil]
  rfl

/-! ## A silent seed -/

/-- An id by its first byte. -/
def idOf (byte : UInt8) : NodeId := ⟨⟨(Vector.replicate nodeIdLen 0).set 0 byte (by decide)⟩⟩

/-- Ids compare as their first bytes. -/
theorem idOf_lt {b c : UInt8} (h : b < c) : (idOf b).asBytes < (idOf c).asBytes := by
  change (idOf b).asBytes.digits < (idOf c).asBytes.digits
  have hdigits : ∀ b, (idOf b).asBytes.digits = b.toNat :: List.replicate 31 0 := by
    intro b
    rfl
  rw [hdigits, hdigits]
  exact List.Lex.rel (UInt8.lt_iff_toNat_lt.mp h)

/-- The bytes of an id are its distance from the zero hash. -/
theorem distance_idOf (b : UInt8) :
    xorDistanceBytes (idOf b).asBytes (idOf 0).asBytes = (idOf b).asBytes := by
  refine congrArg Point.mk (Vector.ext fun i hi => ?_)
  simp [idOf, Vector.getElem_set]

theorem idOf_ne {b c : UInt8} (h : b < c) : idOf b ≠ idOf c := fun hsame =>
  absurd (congrArg NodeId.asBytes hsame) (ne_of_lt (idOf_lt h))

/-- A table of four peers; the nearest three to the zero hash will be silent. -/
def quietTable : RoutingTable where
  selfId := idOf 0
  buckets := fun i => if i.val = 255 then [idOf 0x81, idOf 0x82, idOf 0x83, idOf 0x84] else []
  cooling := fun _ => none

/-- Everyone is bonded, nothing is negatively cached, and every attestation is valid. -/
def trusting : Knowledge where
  isActive := fun _ => true
  containsActive := fun _ _ => false
  verifier := ⟨fun _ _ => some 1, fun _ => true, fun _ => false⟩

/-- The fourth peer returns a provider to whoever asks. -/
def quietInput (cfg : LookupConfig) : LookupInput where
  table := quietTable
  now := 0
  cooling := ⟨[], List.nodup_nil, fun _ => ⟨fun hp => absurd hp List.not_mem_nil, nofun⟩⟩
  isActive := fun _ => true
  requesterId := idOf 0
  target := ⟨(idOf 0).asBytes⟩
  cfg := cfg
  responders := fun _ batch =>
    ⟨if idOf 0x84 ∈ batch then
      [⟨idOf 0x84, .response ⟨[⟨idOf 5, ⟨[]⟩, ⟨0, 0, 0, []⟩⟩], []⟩, trusting⟩]
    else [], true⟩

variable {cfg : LookupConfig}

theorem quietInput_answers {round : Nat} {batch : List NodeId} {a : Answer}
    (ha : a ∈ ((quietInput cfg).responders round batch).answers) :
    a.responder = idOf 0x84 ∧ idOf 0x84 ∈ batch := by
  change a ∈ ite _ _ _ at ha
  split at ha
  · rename_i hasked
    rw [List.mem_singleton.mp ha]
    exact ⟨rfl, hasked⟩
  · exact absurd ha List.not_mem_nil

theorem quietInput_silence : Silence (quietInput cfg) fun p => decide (p ≠ idOf 0x84) where
  batch _ _ _ ha := (quietInput_answers ha).1 ▸ (quietInput_answers ha).2
  silent _ _ _ ha hsilent := absurd (quietInput_answers ha).1 (of_decide_eq_true hsilent)

theorem quietInput_provides (round : Nat) (batch : List NodeId) (hasked : idOf 0x84 ∈ batch) :
    Provides (quietInput cfg) ((quietInput cfg).responders round batch) (idOf 0x84) := by
  have hanswers : ((quietInput cfg).responders round batch).answers =
      [⟨idOf 0x84, .response ⟨[⟨idOf 5, ⟨[]⟩, ⟨0, 0, 0, []⟩⟩], []⟩, trusting⟩] := if_pos hasked
  unfold Provides
  rw [hanswers]
  have hself : idOf 5 ≠ (quietInput cfg).requesterId := (idOf_ne (by decide)).symm
  refine ⟨_, List.mem_cons_self, rfl, _, rfl, _, List.mem_cons_self, hself, rfl, rfl, ?_⟩
  intro b hb
  rw [List.mem_singleton.mp hb]
  exact Option.some_ne_none _

theorem quietPeers_sorted :
    ([0x81, 0x82, 0x83, 0x84].map idOf).Pairwise fun p q => p.asBytes < q.asBytes := by
  have hbytes : [0x81, 0x82, 0x83, 0x84].Pairwise fun b c : UInt8 => b < c := by decide
  exact List.pairwise_map.mpr (hbytes.imp fun {b c} hlt => idOf_lt hlt)

/-- The nearest peers of the table. -/
theorem closestWhere_quietTable {n : Nat} (hn : 4 ≤ n) :
    quietTable.closestWhere (idOf 0).asBytes n (fun _ => true) =
      [0x81, 0x82, 0x83, 0x84].map idOf := by
  have hpeers : quietTable.iterPeers = [0x81, 0x82, 0x83, 0x84].map idOf :=
    iterPeers_of_single (i := Fin.last 255) fun j hj =>
      if_neg fun hlast => hj (Fin.ext hlast)
  have hsorted : (([0x81, 0x82, 0x83, 0x84].map idOf).map fun p =>
      (p, xorDistanceBytes p.asBytes (idOf 0).asBytes)).Pairwise fun a b =>
        decide (a.2 ≤ b.2) = true := by
    refine List.pairwise_map.mpr (List.pairwise_map.mpr ?_)
    refine (List.pairwise_map.mp quietPeers_sorted).imp fun {b c} hlt => decide_eq_true ?_
    rw [distance_idOf, distance_idOf]
    exact le_of_lt hlt
  unfold RoutingTable.closestWhere
  dsimp only
  rw [hpeers, List.filter_true, List.mergeSort_of_pairwise hsorted, List.take_of_length_le hn]
  rfl

/-- With room for all of them, peers that are not cooling are taken in order. -/
theorem seedLoop_of_room {n skipped : Nat} (l seed : List NodeId)
    (hroom : seed.length + l.length ≤ n) : seedLoop [] n l seed skipped = (seed ++ l, skipped) := by
  induction l generalizing seed with
  | nil => rw [seedLoop, List.append_nil]
  | cons peer rest ih =>
    rw [List.length_cons] at hroom
    rw [seedLoop, if_neg (by omega), if_neg List.not_mem_nil, ih]
    · rw [List.append_assoc]
      rfl
    · rw [List.length_append, List.length_singleton]
      omega

theorem seedFrom_quietInput {n : Nat} (hn : 4 ≤ n) (hmax : n ≤ u64Max) :
    seedFrom (quietInput cfg).table (quietInput cfg).now (quietInput cfg).cooling
      (quietInput cfg).isActive (quietInput cfg).target n =
        ([0x81, 0x82, 0x83, 0x84].map idOf, 0) := by
  have hreach : U64.saturatingAdd n 0 = n := min_eq_left hmax
  have hnearest : (quietTable.coolingPeers 0).1.closestWhere (idOf 0).asBytes n (fun _ => true) =
      [0x81, 0x82, 0x83, 0x84].map idOf := closestWhere_quietTable hn
  change seedLoop [] n ((quietTable.coolingPeers 0).1.closestWhere (idOf 0).asBytes
    (U64.saturatingAdd n 0) (fun _ => true)) [] 0 = _
  rw [hreach, hnearest]
  exact seedLoop_of_room _ [] hn

theorem seeded_quietInput (hroom : 4 ≤ min (cfg.alpha * 4) u64Max) :
    seeded (quietInput cfg) = [0x81, 0x82, 0x83, 0x84].map idOf := by
  have hself : ∀ p ∈ [0x81, 0x82, 0x83, 0x84].map idOf, p ≠ (quietInput cfg).requesterId := by
    intro p hp hsame
    rcases List.mem_map.mp hp with ⟨b, hb, rfl⟩
    have hpos : ∀ b ∈ [0x81, 0x82, 0x83, 0x84], (0 : UInt8) < b := by simp
    exact idOf_ne (hpos b hb) hsame.symm
  have hseed := @seedFrom_quietInput cfg _ hroom (min_le_right _ _)
  change seedFrom _ _ _ _ _ (min ((quietInput cfg).cfg.alpha * 4) u64Max) = _ at hseed
  unfold seeded LookupState.new
  dsimp only
  rw [hseed, foldl_addCandidate rfl hself
    fun _ _ => List.not_mem_nil]
  · rfl
  · refine quietPeers_sorted.imp_of_mem fun {p q} hp hq hlt => ?_
    rcases List.mem_map.mp hp with ⟨b, -, rfl⟩
    rcases List.mem_map.mp hq with ⟨c, -, rfl⟩
    exact (distance_idOf b).trans_lt (hlt.trans_eq (distance_idOf c).symm)
  · exact fun _ he => absurd he List.not_mem_nil

/-- The three nearest peers are silent. -/
theorem quietInput_silent (hroom : 4 ≤ min (cfg.alpha * 4) u64Max) {q : NodeId}
    (hq : q ∈ (seeded (quietInput cfg)).take 3) : decide (q ≠ idOf 0x84) = true := by
  have hnearer : ∀ b ∈ [0x81, 0x82, 0x83], b < (0x84 : UInt8) := by simp
  rw [seeded_quietInput hroom, ← List.map_take] at hq
  rcases List.mem_map.mp hq with ⟨b, hb, rfl⟩
  exact decide_eq_true (idOf_ne (hnearer b hb))

theorem quietInput_nearer (hroom : 4 ≤ min (cfg.alpha * 4) u64Max) (i : Nat) (q : NodeId)
    (hi : i < 3) (hget : (seeded (quietInput cfg))[i]? = some q) :
    decide (q ≠ idOf 0x84) = true := by
  refine quietInput_silent hroom (List.mem_iff_getElem?.mpr ⟨i, ?_⟩)
  rw [List.getElem?_take_of_lt hi]
  exact hget

/-- Lookups that ask three peers in a round, and lookups that ask four. -/
def askThree : LookupConfig := ⟨3, 20, by decide, by decide⟩

def askFour : LookupConfig := ⟨4, 20, by decide, by decide⟩

/-- Three silent peers end a lookup before the fourth is asked. -/
theorem silent_seed_unreached :
    ∃ (x : LookupInput) (rng : Shuffle (NodeId × Coverage)) (silent : NodeId → Bool) (j : Nat)
      (p : NodeId), Silence x silent ∧ (seeded x)[j]? = some p ∧
      (∀ i q, i < j → (seeded x)[i]? = some q → silent q = true) ∧
      j < x.cfg.alpha * (maxLookupRounds - 1) ∧
      (∀ round batch, p ∈ batch → Provides x (x.responders round batch) p) ∧
      (findProviders x rng).providers = [] := by
  have hroom : 4 ≤ min (askThree.alpha * 4) u64Max := by decide
  refine ⟨quietInput askThree, ⟨id, fun l => List.Perm.refl l⟩, fun p => decide (p ≠ idOf 0x84), 3,
    idOf 0x84, quietInput_silence, ?_, quietInput_nearer hroom, by decide, quietInput_provides, ?_⟩
  · rw [seeded_quietInput hroom]
    rfl
  · exact no_providers_of_silent_batch quietInput_silence _ fun q hq => quietInput_silent hroom hq

/-- Three silent peers end the lookup that asks three at a time, and not the one that asks four. -/
theorem silent_peers_end_lookup_sample :
    (findProviders (quietInput askThree) ⟨id, fun l => List.Perm.refl l⟩).providers = [] ∧
      (findProviders (quietInput askFour) ⟨id, fun l => List.Perm.refl l⟩).providers ≠ [] := by
  have hthree : 4 ≤ min (askThree.alpha * 4) u64Max := by decide
  have hfour : 4 ≤ min (askFour.alpha * 4) u64Max := by decide
  have hnearest : ∀ cfg, 4 ≤ min (cfg.alpha * 4) u64Max →
      (seeded (quietInput cfg))[3]? = some (idOf 0x84) := by
    intro cfg hroom
    rw [seeded_quietInput hroom]
    rfl
  constructor
  · by_contra hsome
    have hnear := (silent_peers_end_lookup (quietInput askThree) ⟨id, fun l => List.Perm.refl l⟩
      (fun p => decide (p ≠ idOf 0x84)) quietInput_silence 3 (idOf 0x84) (hnearest _ hthree)
      (quietInput_nearer hthree) quietInput_provides).mp hsome
    exact absurd hnear (Nat.lt_irrefl 3)
  · exact (silent_peers_end_lookup (quietInput askFour) ⟨id, fun l => List.Perm.refl l⟩
      (fun p => decide (p ≠ idOf 0x84)) quietInput_silence 3 (idOf 0x84) (hnearest _ hfour)
      (quietInput_nearer hfour) quietInput_provides).mpr (Nat.lt_succ_self 3)

end Decdn.Dht
