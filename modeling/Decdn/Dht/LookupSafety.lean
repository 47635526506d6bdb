import Decdn.Dht.Lookup
import Decdn.Dht.RoutingOrder

/-!
# What a lookup can be made to do

The invariant of a lookup, kept by every operation on its state whatever the answers
say: the candidates lie at their distances from the target, nobody is queried twice,
and whoever is queried or returned was let in by the filters of the moment.

Main results:

- Theorem `Sound.foldResponse`: folding an answer keeps the invariant.
- Theorem `runRound_progress`: a round reports progress for a nearer candidate only.
- Theorem `lookup_safe`: the safety of a lookup against any responders.
-/

namespace Decdn.Dht

open RoutingTable (distance distance_injective)

/-! ## The invariant -/

/-- What lets peers and attestations into a lookup. -/
structure Admission where
  named : NodeId → Prop
  vouched : NodeId → Prop
  verified : OriginAttestation → Option Address → Prop

/-- One admission lets in what another does. -/
structure Admission.Le (A B : Admission) : Prop where
  named : ∀ p, A.named p → B.named p
  vouched : ∀ p, A.vouched p → B.vouched p
  verified : ∀ a v, A.verified a v → B.verified a v

/-- The invariant of a lookup. -/
structure Sound (x : LookupInput) (A : Admission) (s : LookupState) : Prop where
  target_eq : s.target = x.target
  requester_eq : s.requesterId = x.requesterId
  cooling_eq : s.cooling = x.cooling.peers
  alpha_eq : s.alpha = x.cfg.alpha
  k_eq : s.k = x.cfg.k
  keyed : ∀ e ∈ s.candidates, e.1 = distance x.target.asBytes e.2
  sorted : s.candidates.Pairwise fun e f => e.1 < f.1
  fresh : ∀ e ∈ s.candidates, e.2 ∉ s.queried
  queried_nodup : s.queried.Nodup
  candidate : ∀ e ∈ s.candidates, e.2 ≠ x.requesterId ∧ e.2 ∉ x.cooling.peers ∧ A.named e.2
  dialed : ∀ p ∈ s.queried, p ≠ x.requesterId ∧ p ∉ x.cooling.peers ∧ A.named p
  best : ∀ p ∈ s.queried, s.bestQueriedDistance ≤ distance x.target.asBytes p
  providers_nodup : (s.providers.map Prod.fst).Nodup
  provider : ∀ e ∈ s.providers, e.1 ≠ x.requesterId ∧ A.vouched e.1
  verdict : ∀ a v, s.verdicts.get a = some v → A.verified a v

variable {x : LookupInput} {A B : Admission} {s : LookupState} {p : NodeId}

theorem Sound.keyOf (h : Sound x A s) (p : NodeId) : s.keyOf p = distance x.target.asBytes p := by
  unfold LookupState.keyOf
  rw [h.target_eq]
  rfl

/-- Letting in more keeps the invariant. -/
theorem Sound.weaken (h : Sound x A s) (hle : A.Le B) : Sound x B s where
  target_eq := h.target_eq
  requester_eq := h.requester_eq
  cooling_eq := h.cooling_eq
  alpha_eq := h.alpha_eq
  k_eq := h.k_eq
  keyed := h.keyed
  sorted := h.sorted
  fresh := h.fresh
  queried_nodup := h.queried_nodup
  candidate e he :=
    ⟨(h.candidate e he).1, (h.candidate e he).2.1, hle.named _ (h.candidate e he).2.2⟩
  dialed p hp := ⟨(h.dialed p hp).1, (h.dialed p hp).2.1, hle.named _ (h.dialed p hp).2.2⟩
  best := h.best
  providers_nodup := h.providers_nodup
  provider e he := ⟨(h.provider e he).1, hle.vouched _ (h.provider e he).2⟩
  verdict a v hget := hle.verified a v (h.verdict a v hget)

/-! ## Candidates -/

theorem mem_insertCandidate {dist : Point} {l : List (Point × NodeId)} {e : Point × NodeId}
    (hnew : dist ∉ l.map Prod.fst) :
    e ∈ LookupState.insertCandidate dist p l ↔ e = (dist, p) ∨ e ∈ l := by
  induction l with
  | nil => simp [LookupState.insertCandidate]
  | cons f rest ih =>
    rw [List.map_cons, List.mem_cons, not_or] at hnew
    unfold LookupState.insertCandidate
    split
    · simp
    · rw [if_neg hnew.1, List.mem_cons, ih hnew.2, List.mem_cons]
      tauto

/-- An insertion keeps the order of the keys. -/
theorem sorted_insertCandidate {dist : Point} {l : List (Point × NodeId)}
    (hsorted : l.Pairwise fun e f => e.1 < f.1) (hnew : dist ∉ l.map Prod.fst) :
    (LookupState.insertCandidate dist p l).Pairwise fun e f => e.1 < f.1 := by
  induction l with
  | nil => exact List.pairwise_singleton _ _
  | cons f rest ih =>
    rcases List.pairwise_cons.mp hsorted with ⟨hfirst, hrest⟩
    rw [List.map_cons, List.mem_cons, not_or] at hnew
    unfold LookupState.insertCandidate
    split
    · rename_i hlt
      refine List.pairwise_cons.mpr ⟨fun e he => ?_, hsorted⟩
      rcases List.mem_cons.mp he with rfl | he
      · exact hlt
      · exact lt_trans hlt (hfirst e he)
    · rename_i hge
      rw [if_neg hnew.1]
      refine List.pairwise_cons.mpr ⟨fun e he => ?_, ih hrest hnew.2⟩
      rcases (mem_insertCandidate hnew.2).mp he with rfl | he
      · exact lt_of_le_of_ne (not_lt.mp hge) (Ne.symm hnew.1)
      · exact hfirst e he

/-- What `add_candidate` can do: count a cooling peer, nothing, or take the peer in. -/
theorem addCandidate_cases (s : LookupState) (p : NodeId) :
    (∃ skipped, s.addCandidate p = ({ s with coolingSkipped := skipped }, false)) ∨
      (p ≠ s.requesterId ∧ p ∉ s.cooling ∧ p ∉ s.queried ∧ s.keyOf p ∉ s.candidates.map Prod.fst ∧
        s.addCandidate p =
          ({ s with candidates := LookupState.insertCandidate (s.keyOf p) p s.candidates },
            decide (s.keyOf p < s.bestQueriedDistance))) := by
  unfold LookupState.addCandidate
  split
  · exact Or.inl ⟨s.coolingSkipped, rfl⟩
  · rename_i hself
    split
    · exact Or.inl ⟨_, rfl⟩
    · rename_i hcooling
      dsimp only
      split
      · exact Or.inl ⟨s.coolingSkipped, rfl⟩
      · rename_i hknown
        rw [not_or] at hknown
        exact Or.inr ⟨hself, hcooling, hknown.1, hknown.2, rfl⟩

/-- A named peer may be added. -/
theorem Sound.addCandidate (h : Sound x A s) (hnamed : A.named p) :
    Sound x A (s.addCandidate p).1 := by
  rcases addCandidate_cases s p with ⟨skipped, heq⟩ | ⟨hself, hcooling, hqueried, hnew, heq⟩
  · rw [heq]
    exact ⟨h.target_eq, h.requester_eq, h.cooling_eq, h.alpha_eq, h.k_eq, h.keyed, h.sorted, h.fresh,
      h.queried_nodup, h.candidate, h.dialed, h.best, h.providers_nodup, h.provider, h.verdict⟩
  · rw [heq]
    have hmem : ∀ e ∈ LookupState.insertCandidate (s.keyOf p) p s.candidates,
        e = (s.keyOf p, p) ∨ e ∈ s.candidates := fun e he => (mem_insertCandidate hnew).mp he
    refine ⟨h.target_eq, h.requester_eq, h.cooling_eq, h.alpha_eq, h.k_eq, ?_,
      sorted_insertCandidate h.sorted hnew, ?_, h.queried_nodup, ?_, h.dialed, h.best,
      h.providers_nodup, h.provider, h.verdict⟩
    · intro e he
      rcases hmem e he with rfl | hold
      · exact h.keyOf p
      · exact h.keyed e hold
    · intro e he
      rcases hmem e he with rfl | hold
      · exact hqueried
      · exact h.fresh e hold
    · intro e he
      rcases hmem e he with rfl | hold
      · exact ⟨h.requester_eq ▸ hself, h.cooling_eq ▸ hcooling, hnamed⟩
      · exact h.candidate e hold

/-! ## The batch of a round -/

/-- The nearest candidate may be queried. -/
theorem Sound.pick {dist : Point} {rest : List (Point × NodeId)} (h : Sound x A s)
    (hfirst : s.candidates = (dist, p) :: rest) :
    Sound x A { s with
      candidates := rest
      queried := p :: s.queried
      bestQueriedDistance :=
        if dist < s.bestQueriedDistance then dist else s.bestQueriedDistance } := by
  have hmem : (dist, p) ∈ s.candidates := hfirst ▸ List.mem_cons_self
  have hrest : ∀ e ∈ rest, e ∈ s.candidates := fun e he => hfirst ▸ List.mem_cons_of_mem _ he
  have hdist : dist = distance x.target.asBytes p := h.keyed _ hmem
  have hsorted := h.sorted
  rw [hfirst, List.pairwise_cons] at hsorted
  refine { h with
    keyed := fun e he => h.keyed e (hrest e he)
    sorted := hsorted.2
    fresh := fun e he => ?_
    queried_nodup := List.nodup_cons.mpr ⟨h.fresh _ hmem, h.queried_nodup⟩
    candidate := fun e he => h.candidate e (hrest e he)
    dialed := fun q hq => ?_
    best := fun q hq => ?_ }
  · -- another candidate at the same distance would be the same peer
    have hlt := hsorted.1 e he
    refine fun hin => (List.mem_cons.mp hin).elim (fun hsame => ?_) (h.fresh e (hrest e he))
    rw [h.keyed e (hrest e he), hsame, ← hdist] at hlt
    exact lt_irrefl _ hlt
  · rcases List.mem_cons.mp hq with rfl | hold
    · exact h.candidate _ hmem
    · exact h.dialed q hold
  · dsimp only
    rcases List.mem_cons.mp hq with rfl | hold
    · rw [← hdist]
      split
      · exact le_refl _
      · rename_i hge
        exact not_lt.mp hge
    · split
      · rename_i hlt
        exact le_trans (le_of_lt hlt) (h.best q hold)
      · exact h.best q hold

/-- A batch: candidates, as many as there is room for, queried from now on. -/
structure Picked (s : LookupState) (room : Nat) (batch : List NodeId) (s' : LookupState) : Prop where
  length : batch.length ≤ room
  candidate : ∀ p ∈ batch, ∃ e ∈ s.candidates, e.2 = p
  queried : ∀ p, p ∈ s'.queried ↔ p ∈ batch ∨ p ∈ s.queried
  nodup : s.queried.Nodup → batch.Nodup ∧ ∀ p ∈ batch, p ∉ s.queried
  providers : s'.providers = s.providers

theorem Sound.pickLoop (h : Sound x A s) (room : Nat) :
    Sound x A (s.pickLoop room).2 ∧ Picked s room (s.pickLoop room).1 (s.pickLoop room).2 := by
  induction room generalizing s with
  | zero =>
    exact ⟨h, Nat.le_refl _, fun p hp => absurd hp List.not_mem_nil,
      fun p => ⟨Or.inr, fun hp => hp.resolve_left List.not_mem_nil⟩,
      fun _ => ⟨List.nodup_nil, fun p hp => absurd hp List.not_mem_nil⟩, rfl⟩
  | succ room ih =>
    unfold LookupState.pickLoop
    split
    · exact ⟨h, Nat.zero_le _, fun p hp => absurd hp List.not_mem_nil,
        fun p => ⟨Or.inr, fun hp => hp.resolve_left List.not_mem_nil⟩,
        fun _ => ⟨List.nodup_nil, fun p hp => absurd hp List.not_mem_nil⟩, rfl⟩
    · rename_i dist peer rest hfirst
      have hmem : (dist, peer) ∈ s.candidates := hfirst ▸ List.mem_cons_self
      have hpick := h.pick hfirst
      rcases ih hpick with ⟨hsound, hpicked⟩
      refine ⟨hsound, Nat.succ_le_succ hpicked.length, fun p hp => ?_, fun p => ?_, fun _ => ?_,
        hpicked.providers⟩
      · rcases List.mem_cons.mp hp with rfl | hp
        · exact ⟨_, hmem, rfl⟩
        · rcases hpicked.candidate p hp with ⟨e, he, hep⟩
          exact ⟨e, hfirst ▸ List.mem_cons_of_mem _ he, hep⟩
      · rw [hpicked.queried p, List.mem_cons, List.mem_cons]
        tauto
      · rcases hpicked.nodup hpick.queried_nodup with ⟨hnodup, hout⟩
        refine ⟨List.nodup_cons.mpr ⟨fun hin => ?_, hnodup⟩, fun p hp => ?_⟩
        · exact hout peer hin List.mem_cons_self
        · rcases List.mem_cons.mp hp with rfl | hp
          · exact h.fresh _ hmem
          · exact fun hold => hout p hp (List.mem_cons_of_mem _ hold)

/-! ## Providers -/

theorem mem_insertProvider {coverage : Coverage} {l : List (NodeId × Coverage)} {q : NodeId} :
    q ∈ (LookupState.insertProvider p coverage l).map Prod.fst ↔ q = p ∨ q ∈ l.map Prod.fst := by
  induction l with
  | nil => simp [LookupState.insertProvider]
  | cons e rest ih =>
    unfold LookupState.insertProvider
    split
    · rename_i hsame
      simp [hsame]
    · rw [List.map_cons, List.mem_cons, ih, List.map_cons, List.mem_cons]
      tauto

theorem nodup_insertProvider {coverage : Coverage} {l : List (NodeId × Coverage)}
    (h : (l.map Prod.fst).Nodup) :
    ((LookupState.insertProvider p coverage l).map Prod.fst).Nodup := by
  induction l with
  | nil => exact List.nodup_singleton _
  | cons e rest ih =>
    rw [List.map_cons, List.nodup_cons] at h
    unfold LookupState.insertProvider
    split
    · rename_i hsame
      rw [List.map_cons, List.nodup_cons]
      exact ⟨hsame ▸ h.1, h.2⟩
    · rename_i hother
      rw [List.map_cons, List.nodup_cons]
      exact ⟨fun hin => (mem_insertProvider.mp hin).elim hother h.1, ih h.2⟩

/-- A provider that is vouched for may be recorded. -/
theorem Sound.recordProvider (h : Sound x A s) (hvouched : A.vouched p) (coverage : Coverage) :
    Sound x A (s.recordProvider p coverage) := by
  unfold LookupState.recordProvider
  split
  · exact h
  · rename_i hself
    refine { h with
      providers_nodup := nodup_insertProvider h.providers_nodup
      provider := fun e he => ?_ }
    have hkey : e.1 ∈ (LookupState.insertProvider p coverage s.providers).map Prod.fst :=
      List.mem_map_of_mem he
    rcases mem_insertProvider.mp hkey with hsame | hold
    · rw [hsame]
      exact ⟨h.requester_eq ▸ hself, hvouched⟩
    · rcases List.mem_map.mp hold with ⟨f, hf, hsame⟩
      rw [← hsame]
      exact h.provider f hf

/-- A verdict is the verifier's, now or when the attestation first came up. -/
theorem Sound.attestingOrigin {verifier : AttestationVerifier} {a : OriginAttestation}
    (h : Sound x A s) (hverified : A.verified a (verifier.verify x.target a)) :
    Sound x A (s.attestingOrigin verifier a).1 ∧ A.verified a (s.attestingOrigin verifier a).2 := by
  unfold LookupState.attestingOrigin
  split
  · rename_i verdict hget
    exact ⟨h, h.verdict a verdict hget⟩
  · have hverdict : A.verified a (verifier.verify s.target a) := by
      rw [h.target_eq]
      exact hverified
    refine ⟨{ h with verdict := fun b v hget => ?_ }, hverdict⟩
    rw [HashMap.get_insert] at hget
    split at hget
    · rename_i hsame
      rw [hsame, ← Option.some.inj hget]
      exact hverdict
    · exact h.verdict b v hget

theorem Sound.insertOrigin (h : Sound x A s) (origin : Address) :
    Sound x A (s.insertOrigin origin) := by
  unfold LookupState.insertOrigin
  split
  · exact h
  · exact { h with }

/-- An answer that the admission lets in. -/
structure Admits (x : LookupInput) (A : Admission) (a : Answer) : Prop where
  named : ∀ resp, a.result = .response resp → ∀ p ∈ resp.closerNodes,
    a.knowledge.isActive p = true → A.named p
  verified : ∀ resp, a.result = .response resp → ∀ att,
    A.verified att (a.knowledge.verifier.verify x.target att)
  vouched : ∀ resp, a.result = .response resp → ∀ pr ∈ resp.providers,
    a.knowledge.isActive pr.node = true → a.knowledge.containsActive pr.node x.target = false →
    (∃ origin, A.verified pr.attestation (some origin)) → A.vouched pr.node

theorem Sound.foldProvider {verifier : AttestationVerifier} {probeable : List NodeId}
    {w : LookupState × Nat} {pr : Provider} (h : Sound x A w.1)
    (hverified : A.verified pr.attestation (verifier.verify x.target pr.attestation))
    (hvouched : pr.node ∈ probeable → (∃ origin, A.verified pr.attestation (some origin)) →
      A.vouched pr.node) :
    Sound x A (Dht.foldProvider verifier probeable w pr).1 := by
  rcases h.attestingOrigin hverified with ⟨hsound, hverdict⟩
  unfold Dht.foldProvider
  dsimp only
  split
  · rename_i origin hsome
    rw [hsome] at hverdict
    have horigin := hsound.insertOrigin origin
    split
    · rename_i hprobe
      exact horigin.recordProvider (hvouched hprobe ⟨origin, hverdict⟩) _
    · exact horigin
  · exact hsound

/-! ## Closer nodes -/

/-- A state that differs by more candidates only, as far as the next batch goes. -/
structure Grown (s s' : LookupState) : Prop where
  candidates : ∀ e ∈ s.candidates, e ∈ s'.candidates
  queried : s'.queried = s.queried
  best : s'.bestQueriedDistance = s.bestQueriedDistance

theorem Grown.refl (s : LookupState) : Grown s s := ⟨fun _ he => he, rfl, rfl⟩

theorem Grown.trans {s' s'' : LookupState} (h : Grown s s') (h' : Grown s' s'') : Grown s s'' :=
  ⟨fun e he => h'.candidates e (h.candidates e he), h'.queried.trans h.queried,
    h'.best.trans h.best⟩

/-- A candidate that is new, not cooling and nearer than everyone queried. -/
structure Added (x : LookupInput) (s s' : LookupState) (p : NodeId) : Prop where
  unqueried : p ∉ s.queried
  warm : p ∉ x.cooling.peers
  new : ∀ e ∈ s.candidates, e.2 ≠ p
  taken : (distance x.target.asBytes p, p) ∈ s'.candidates
  nearer : ∀ q ∈ s.queried, distance x.target.asBytes p < distance x.target.asBytes q

theorem Added.mono {s₀ s₁ s₂ s₃ : LookupState} (h : Added x s₁ s₂ p) (hbefore : Grown s₀ s₁)
    (hafter : Grown s₂ s₃) : Added x s₀ s₃ p where
  unqueried := hbefore.queried ▸ h.unqueried
  warm := h.warm
  new e he := h.new e (hbefore.candidates e he)
  taken := hafter.candidates _ h.taken
  nearer q hq := h.nearer q (hbefore.queried ▸ hq)

/-- A candidate that counts as closer is one. -/
theorem Sound.addCandidate_grown (h : Sound x A s) (p : NodeId) :
    Grown s (s.addCandidate p).1 ∧
      ((s.addCandidate p).2 = true → Added x s (s.addCandidate p).1 p) := by
  rcases addCandidate_cases s p with ⟨skipped, heq⟩ | ⟨-, hcooling, hqueried, hnew, heq⟩
  · rw [heq]
    exact ⟨⟨fun _ he => he, rfl, rfl⟩, fun hfalse => absurd hfalse Bool.false_ne_true⟩
  · rw [heq]
    refine ⟨⟨fun e he => (mem_insertCandidate hnew).mpr (Or.inr he), rfl, rfl⟩, fun hcloser => ?_⟩
    refine ⟨hqueried, h.cooling_eq ▸ hcooling, fun e he hsame => ?_, ?_, fun q hq => ?_⟩
    · refine hnew (List.mem_map.mpr ⟨e, he, ?_⟩)
      rw [h.keyed e he, hsame, h.keyOf p]
    · rw [← h.keyOf p]
      exact (mem_insertCandidate hnew).mpr (Or.inl rfl)
    · rw [← h.keyOf p]
      exact lt_of_lt_of_le (of_decide_eq_true hcloser) (h.best q hq)

/-- What the fold over closer nodes has done so far. -/
structure Nearing (x : LookupInput) (A : Admission) (s : LookupState) (l : List NodeId)
    (w : LookupState × Bool) : Prop where
  sound : Sound x A w.1
  grown : Grown s w.1
  closer : w.2 = true → ∃ p ∈ l, Added x s w.1 p

theorem Sound.foldClosers {l : List NodeId} (h : Sound x A s) (hnamed : ∀ p ∈ l, A.named p) :
    Nearing x A s l (l.foldl foldCloser (s, false)) := by
  refine List.foldlRecOn l foldCloser
    ⟨h, Grown.refl s, fun hfalse => absurd hfalse Bool.false_ne_true⟩ ?_
  intro w hw p hp
  rcases hw.sound.addCandidate_grown p with ⟨hgrown, hadded⟩
  refine ⟨hw.sound.addCandidate (hnamed p hp), hw.grown.trans hgrown, fun hcloser => ?_⟩
  rcases Bool.or_eq_true_iff.mp hcloser with hbefore | hnow
  · rcases hw.closer hbefore with ⟨q, hq, hadd⟩
    exact ⟨q, hq, hadd.mono (Grown.refl s) hgrown⟩
  · exact ⟨p, hp, (hadded hnow).mono hw.grown (Grown.refl _)⟩

/-! ## Answers -/

/-- Folding a provider leaves the candidates. -/
theorem foldProvider_grown (verifier : AttestationVerifier) (probeable : List NodeId)
    (w : LookupState × Nat) (pr : Provider) :
    Grown w.1 (Dht.foldProvider verifier probeable w pr).1 := by
  have hattest : Grown w.1 (w.1.attestingOrigin verifier pr.attestation).1 := by
    unfold LookupState.attestingOrigin
    split
    · exact Grown.refl _
    · exact ⟨fun _ he => he, rfl, rfl⟩
  have horigin : ∀ (s : LookupState) origin, Grown s (s.insertOrigin origin) := by
    intro s origin
    unfold LookupState.insertOrigin
    split
    · exact Grown.refl _
    · exact ⟨fun _ he => he, rfl, rfl⟩
  have hrecord : ∀ (s : LookupState) p coverage, Grown s (s.recordProvider p coverage) := by
    intro s p coverage
    unfold LookupState.recordProvider
    split
    · exact Grown.refl _
    · exact ⟨fun _ he => he, rfl, rfl⟩
  unfold Dht.foldProvider
  dsimp only
  split
  · split
    · exact (hattest.trans (horigin _ _)).trans (hrecord _ _ _)
    · exact hattest.trans (horigin _ _)
  · exact hattest

/-- Folding an answer that is let in keeps the invariant, and observes a closer node only if the
answer names one. -/
theorem Sound.foldResponse {a : Answer} {resp : FindValueResponse} (h : Sound x A s)
    (hadmits : Admits x A a) (hresp : a.result = .response resp) :
    Sound x A (foldResponse a.knowledge resp a.responder s).1 ∧
      Grown s (foldResponse a.knowledge resp a.responder s).1 ∧
      ((foldResponse a.knowledge resp a.responder s).2.observedCloser = true →
        ∃ p ∈ resp.closerNodes, a.knowledge.isActive p = true ∧
          Added x s (foldResponse a.knowledge resp a.responder s).1 p) := by
  unfold Dht.foldResponse
  dsimp only
  generalize hbonded : filterActiveStakers (resp.providers.map Provider.node) a.knowledge.isActive =
    bonded
  generalize hprobeable : filterNegativeCache bonded s.target a.knowledge.containsActive = probeable
  generalize hclosers : filterActiveStakers (filterXorCloser resp.closerNodes s.target a.responder)
    a.knowledge.isActive = closers
  have hchecked : Sound x A ((resp.providers.filter fun p => decide (p.node ∈ bonded)).foldl
      (Dht.foldProvider a.knowledge.verifier probeable) (s, 0)).1 ∧
      Grown s ((resp.providers.filter fun p => decide (p.node ∈ bonded)).foldl
        (Dht.foldProvider a.knowledge.verifier probeable) (s, 0)).1 := by
    refine List.foldlRecOn (motive := fun w : LookupState × Nat => Sound x A w.1 ∧ Grown s w.1) _ _
      ⟨h, Grown.refl s⟩ fun w hw pr hpr => ?_
    have hmem := (List.mem_filter.mp hpr).1
    refine ⟨hw.1.foldProvider (hadmits.verified resp hresp pr.attestation)
      fun hprobe hverified => ?_,
      hw.2.trans (foldProvider_grown _ _ w pr)⟩
    rw [← hprobeable, ← hbonded] at hprobe
    rcases List.mem_filter.mp hprobe with ⟨hin, hcache⟩
    rw [h.target_eq, Bool.not_eq_true'] at hcache
    exact hadmits.vouched resp hresp pr hmem (List.mem_filter.mp hin).2 hcache hverified
  generalize (resp.providers.filter fun p => decide (p.node ∈ bonded)).foldl
    (Dht.foldProvider a.knowledge.verifier probeable) (s, 0) = checked at hchecked ⊢
  have hnamed : ∀ p ∈ closers, p ∈ resp.closerNodes ∧ a.knowledge.isActive p = true := by
    intro p hp
    rw [← hclosers] at hp
    rcases List.mem_filter.mp hp with ⟨hxor, hactive⟩
    exact ⟨(List.mem_filter.mp hxor).1, hactive⟩
  have hnearing := hchecked.1.foldClosers fun p hp =>
    hadmits.named resp hresp p (hnamed p hp).1 (hnamed p hp).2
  refine ⟨hnearing.sound, hchecked.2.trans hnearing.grown, fun hcloser => ?_⟩
  rcases hnearing.closer hcloser with ⟨p, hp, hadded⟩
  exact ⟨p, (hnamed p hp).1, (hnamed p hp).2, hadded.mono hchecked.2 (Grown.refl _)⟩

/-- Some answer names a bonded candidate that is new, not cooling and nearer than everyone
queried. -/
def NamesCloser (x : LookupInput) (s : LookupState) (answers : List Answer) (s' : LookupState) :
    Prop :=
  ∃ a ∈ answers, ∃ resp, a.result = .response resp ∧
    ∃ p ∈ resp.closerNodes, a.knowledge.isActive p = true ∧ Added x s s' p

/-- What a round has done so far. -/
structure Draining (x : LookupInput) (A : Admission) (s : LookupState) (answers : List Answer)
    (w : RoundState) : Prop where
  sound : Sound x A w.state
  grown : Grown s w.state
  closer : w.observedCloser = true → NamesCloser x s answers w.state

/-- A round keeps the invariant, and reports progress only for a candidate that it adds. -/
theorem Sound.runRound {round : RoundAnswers} (h : Sound x A s)
    (hadmits : ∀ a ∈ round.answers, Admits x A a) (batch : List NodeId) :
    Draining x A s round.answers (runRound batch round s) := by
  have hdrain : Draining x A s round.answers (round.answers.foldl drainAnswer { state := s }) := by
    refine List.foldlRecOn _ drainAnswer
      ⟨h, Grown.refl s, fun hfalse => absurd hfalse Bool.false_ne_true⟩ ?_
    intro w hw a ha
    unfold drainAnswer
    split
    · rename_i resp hresp
      rcases hw.sound.foldResponse (hadmits a ha) hresp with ⟨hsound, hgrown, hcloser⟩
      refine ⟨hsound, hw.grown.trans hgrown, fun hflag => ?_⟩
      rcases Bool.or_eq_true_iff.mp hflag with hbefore | hnow
      · rcases hw.closer hbefore with ⟨b, hb, other, hother, p, hp, hactive, hadded⟩
        exact ⟨b, hb, other, hother, p, hp, hactive, hadded.mono (Grown.refl s) hgrown⟩
      · rcases hcloser hnow with ⟨p, hp, hactive, hadded⟩
        exact ⟨a, ha, resp, hresp, p, hp, hactive, hadded.mono hw.grown (Grown.refl _)⟩
    · exact ⟨hw.sound, hw.grown, hw.closer⟩
    · exact ⟨hw.sound, hw.grown, hw.closer⟩
    · exact hw
  unfold Dht.runRound
  dsimp only
  split
  · exact ⟨hdrain.sound, hdrain.grown, hdrain.closer⟩
  · exact hdrain

/-! ## Whom the answers let in -/

/-- A bonded peer of the routing table. -/
def Seeded (x : LookupInput) (p : NodeId) : Prop :=
  p ∈ x.table.iterPeers ∧ x.isActive p = true

/-- A peer that an answer named, bonded at the time. -/
def NamedIn (rounds : List RoundReport) (p : NodeId) : Prop :=
  ∃ r ∈ rounds, ∃ a ∈ r.answers, ∃ resp, a.result = .response resp ∧ p ∈ resp.closerNodes ∧
    a.knowledge.isActive p = true

/-- The verifier mapped an attestation to this verdict when an answer was folded. -/
def VerifiedIn (x : LookupInput) (rounds : List RoundReport) (att : OriginAttestation)
    (verdict : Option Address) : Prop :=
  ∃ r ∈ rounds, ∃ a ∈ r.answers, a.knowledge.verifier.verify x.target att = verdict

/-- The verifier mapped an attestation to a seated origin when an answer was folded. -/
def AttestedIn (x : LookupInput) (rounds : List RoundReport) (att : OriginAttestation) : Prop :=
  ∃ r ∈ rounds, ∃ a ∈ r.answers, ∃ origin,
    a.knowledge.verifier.verify x.target att = some origin ∧
      a.knowledge.verifier.isSeated origin = true

/-- A provider that an answer named, bonded and not negatively cached at the time, with an
attestation that the verifier mapped to a seated origin. -/
def VouchedIn (x : LookupInput) (rounds : List RoundReport) (p : NodeId) : Prop :=
  ∃ r ∈ rounds, ∃ a ∈ r.answers, ∃ resp, a.result = .response resp ∧
    a.knowledge.isActive p = true ∧ a.knowledge.containsActive p x.target = false ∧
    ∃ pr ∈ resp.providers, pr.node = p ∧ AttestedIn x rounds pr.attestation

/-- A verdict names a seated origin. -/
theorem seated_of_verify {v : AttestationVerifier} {hash : ContentHash} {att : OriginAttestation}
    {origin : Address} (h : v.verify hash att = some origin) : v.isSeated origin = true :=
  (Bool.and_eq_true_iff.mp (Option.filter_eq_some_iff.mp h).2).1

/-- Whom the answers of rounds let in. -/
def admission (x : LookupInput) (rounds : List RoundReport) : Admission where
  named p := Seeded x p ∨ NamedIn rounds p
  vouched := VouchedIn x rounds
  verified := VerifiedIn x rounds

/-- More rounds let in more. -/
theorem admission_le {rounds rounds' : List RoundReport} (h : rounds ⊆ rounds') :
    (admission x rounds).Le (admission x rounds') := by
  have hverified : ∀ att v, VerifiedIn x rounds att v → VerifiedIn x rounds' att v := by
    rintro att v ⟨r, hr, hin⟩
    exact ⟨r, h hr, hin⟩
  refine ⟨?_, ?_, hverified⟩
  · rintro p (hseeded | ⟨r, hr, hin⟩)
    · exact Or.inl hseeded
    · exact Or.inr ⟨r, h hr, hin⟩
  · rintro p ⟨r, hr, a, ha, resp, hresp, hactive, hcache, pr, hpr, hnode, r', hr', hin⟩
    exact ⟨r, h hr, a, ha, resp, hresp, hactive, hcache, pr, hpr, hnode, r', h hr', hin⟩

/-- The answers of a round let in what they name. -/
theorem admission_admits {rounds : List RoundReport} {r : RoundReport} (hr : r ∈ rounds)
    {a : Answer} (ha : a ∈ r.answers) : Admits x (admission x rounds) a where
  named resp hresp p hp hactive := Or.inr ⟨r, hr, a, ha, resp, hresp, hp, hactive⟩
  verified resp hresp att := ⟨r, hr, a, ha, rfl⟩
  vouched resp hresp pr hpr hactive hcache hverified := by
    rcases hverified with ⟨origin, r', hr', a', ha', hverify⟩
    exact ⟨r, hr, a, ha, resp, hresp, hactive, hcache, pr, hpr, rfl,
      r', hr', a', ha', origin, hverify, seated_of_verify hverify⟩

/-! ## The start -/

/-- The seed is of peers from the table. -/
theorem mem_seedLoop {cooling : List NodeId} {seedCount skipped : Nat} {nearest seed : List NodeId}
    (hp : p ∈ (seedLoop cooling seedCount nearest seed skipped).1) : p ∈ seed ∨ p ∈ nearest := by
  induction nearest generalizing seed skipped with
  | nil => exact Or.inl hp
  | cons q rest ih =>
    unfold seedLoop at hp
    split at hp
    · exact Or.inl hp
    · split at hp
      · exact (ih hp).imp_right (List.mem_cons_of_mem _)
      · rcases ih hp with hin | hin
        · rcases List.mem_append.mp hin with hold | hnew
          · exact Or.inl hold
          · exact Or.inr (List.mem_singleton.mp hnew ▸ List.mem_cons_self)
        · exact Or.inr (List.mem_cons_of_mem _ hin)

/-- A query returns stored peers that it keeps. -/
theorem mem_closestWhere {t : RoutingTable} {target : Point} {n : Nat} {keep : NodeId → Bool}
    (hp : p ∈ t.closestWhere target n keep) : p ∈ t.iterPeers ∧ keep p = true := by
  rcases List.mem_map.mp hp with ⟨e, he, rfl⟩
  have hscored := List.mem_mergeSort.mp (List.mem_of_mem_take he)
  rcases List.mem_map.mp hscored with ⟨q, hq, rfl⟩
  exact List.mem_filter.mp hq

/-- A lookup starts in the invariant, with bonded peers of the table only. -/
theorem sound_new (x : LookupInput) : Sound x (admission x []) (.new x) := by
  unfold LookupState.new
  dsimp only
  refine List.foldlRecOn _ _ ?_ fun s hs p hp => hs.addCandidate (Or.inl ?_)
  · exact ⟨rfl, rfl, rfl, rfl, rfl, fun _ he => absurd he List.not_mem_nil, .nil,
      fun _ he => absurd he List.not_mem_nil, List.nodup_nil,
      fun _ he => absurd he List.not_mem_nil, fun _ hp => absurd hp List.not_mem_nil,
      fun _ hp => absurd hp List.not_mem_nil, List.nodup_nil,
      fun _ he => absurd he List.not_mem_nil, fun _ _ hget => nomatch hget⟩
  · exact mem_closestWhere ((mem_seedLoop hp).resolve_left List.not_mem_nil)

theorem queried_new (x : LookupInput) : (LookupState.new x).queried = [] ∧
    (LookupState.new x).providers = [] := by
  unfold LookupState.new
  dsimp only
  refine List.foldlRecOn (motive := fun s : LookupState => s.queried = [] ∧ s.providers = []) _ _
    ⟨rfl, rfl⟩ fun s hs p _ => ?_
  rcases addCandidate_cases s p with ⟨skipped, heq⟩ | ⟨-, -, -, -, heq⟩ <;>
  · rw [heq]
    exact hs

/-! ## The loop -/

/-- What every lookup has kept so far. -/
structure SafeRun (x : LookupInput) (run : LookupRun) : Prop where
  sound : Sound x (admission x run.rounds) run.state
  queried : ∀ p, p ∈ run.state.queried ↔ p ∈ run.requests
  requests_nodup : run.requests.Nodup
  batch_le : ∀ r ∈ run.rounds, r.batch.length ≤ x.cfg.alpha
  named : ∀ i r, run.rounds[i]? = some r → ∀ p ∈ r.batch,
    (admission x (run.rounds.take i)).named p
  progress : ∀ r ∈ run.rounds, r.after.observedCloser = true →
    NamesCloser x r.before r.answers r.after.state

/-- One round keeps a lookup safe. -/
theorem SafeRun.round {run : LookupRun} (h : SafeRun x run) (script : RoundAnswers) :
    SafeRun x ⟨(runRound run.state.pickRoundBatch.1 script run.state.pickRoundBatch.2).state,
      run.rounds ++ [⟨run.state.pickRoundBatch.1, run.state.pickRoundBatch.2, script.answers,
        runRound run.state.pickRoundBatch.1 script run.state.pickRoundBatch.2⟩]⟩ := by
  rcases h.sound.pickLoop run.state.alpha with ⟨hsound, hpicked⟩
  have hbatch := hpicked.candidate
  rw [show run.state.pickLoop run.state.alpha = run.state.pickRoundBatch from rfl]
    at hsound hpicked hbatch
  generalize run.state.pickRoundBatch = picked at hsound hpicked hbatch ⊢
  generalize hreport : (⟨picked.1, picked.2, script.answers, runRound picked.1 script picked.2⟩ :
    RoundReport) = report
  have hreport_batch : report.batch = picked.1 := hreport ▸ rfl
  have hreport_answers : report.answers = script.answers := hreport ▸ rfl
  have hreport_before : report.before = picked.2 := hreport ▸ rfl
  have hreport_after : report.after = runRound picked.1 script picked.2 := hreport ▸ rfl
  have hmem : report ∈ run.rounds ++ [report] := List.mem_append_right _ List.mem_cons_self
  have hround : Draining x (admission x (run.rounds ++ [report])) picked.2 script.answers
      (runRound picked.1 script picked.2) :=
    (hsound.weaken (admission_le (List.subset_append_left _ _))).runRound
      (fun a ha => admission_admits hmem (hreport_answers ▸ ha)) picked.1
  have hrequests : LookupRun.requests
      ⟨(runRound picked.1 script picked.2).state, run.rounds ++ [report]⟩ =
      run.requests ++ picked.1 := by
    unfold LookupRun.requests
    rw [List.flatMap_append, List.flatMap_singleton, hreport_batch]
  refine ⟨hround.sound, fun p => ?_, ?_, fun r hr => ?_, fun i r hi p hp => ?_, fun r hr => ?_⟩
  · rw [hrequests, List.mem_append, ← h.queried p, hround.grown.queried, hpicked.queried p]
    exact Or.comm
  · rcases hpicked.nodup h.sound.queried_nodup with ⟨hnodup, hfresh⟩
    rw [hrequests]
    refine List.nodup_append.mpr ⟨h.requests_nodup, hnodup, fun p hp q hq hsame => ?_⟩
    exact hfresh q hq ((h.queried q).mpr (hsame ▸ hp))
  · rcases List.mem_append.mp hr with hold | hnew
    · exact h.batch_le r hold
    · rw [List.mem_singleton.mp hnew, hreport_batch, ← h.sound.alpha_eq]
      exact hpicked.length
  · rcases Nat.lt_or_ge i run.rounds.length with hlt | hge
    · rw [List.getElem?_append_left hlt] at hi
      rw [List.take_append_of_le_length (Nat.le_of_lt hlt)]
      exact h.named i r hi p hp
    · -- the new round: its batch comes from the candidates of the rounds before
      rw [List.getElem?_append_right hge] at hi
      have hzero : i - run.rounds.length = 0 := by
        by_contra hpos
        rw [List.getElem?_eq_none (by simpa using Nat.one_le_iff_ne_zero.mpr hpos)] at hi
        cases hi
      have hlast : i = run.rounds.length := by omega
      rw [hzero] at hi
      rw [hlast, List.take_left]
      have hr : r = report := (Option.some.inj hi).symm
      rw [hr, hreport_batch] at hp
      rcases hbatch p hp with ⟨e, he, rfl⟩
      exact (h.sound.candidate e he).2.2
  · rcases List.mem_append.mp hr with hold | hnew
    · exact h.progress r hold
    · rw [List.mem_singleton.mp hnew, hreport_before, hreport_answers, hreport_after]
      exact hround.closer

/-- A lookup stays safe, and runs so many rounds at most. -/
theorem SafeRun.loop {run : LookupRun} (h : SafeRun x run)
    (responders : Nat → List NodeId → RoundAnswers) (round left : Nat) :
    SafeRun x (lookupLoop responders round left run) ∧
      (lookupLoop responders round left run).rounds.length ≤ run.rounds.length + left := by
  induction left generalizing round run with
  | zero => exact ⟨h, Nat.le_refl _⟩
  | succ left ih =>
    unfold lookupLoop
    dsimp only
    split
    · exact ⟨h, Nat.le_add_right _ _⟩
    · split
      · exact ⟨h, Nat.le_add_right _ _⟩
      · have hround := h.round (responders round run.state.pickRoundBatch.1)
        split
        · rcases ih hround (round + 1) with ⟨hsafe, hlength⟩
          refine ⟨hsafe, Nat.le_trans hlength ?_⟩
          rw [List.length_append, List.length_singleton]
          omega
        · refine ⟨hround, ?_⟩
          rw [List.length_append, List.length_singleton]
          omega

/-- Every lookup is safe. -/
theorem safeRun (x : LookupInput) :
    SafeRun x (runLookup x) ∧ (runLookup x).rounds.length ≤ maxLookupRounds := by
  have hstart : SafeRun x ⟨.new x, []⟩ :=
    ⟨sound_new x, fun p => (by rw [(queried_new x).1]; rfl), List.nodup_nil,
      fun _ hr => absurd hr List.not_mem_nil, fun _ _ hi => absurd hi (Option.some_ne_none _).symm,
      fun _ hr => absurd hr List.not_mem_nil⟩
  rcases hstart.loop x.responders 0 maxLookupRounds with ⟨hsafe, hlength⟩
  exact ⟨hsafe, Nat.le_trans hlength (Nat.le_of_eq (Nat.zero_add _))⟩

/-- Batches of a bounded size bound the requests. -/
theorem SafeRun.requests_le {run : LookupRun} (h : SafeRun x run) :
    run.requests.length ≤ x.cfg.alpha * run.rounds.length := by
  unfold LookupRun.requests
  rw [List.length_flatMap, Nat.mul_comm]
  refine (List.sum_le_card_nsmul _ x.cfg.alpha fun n hn => ?_).trans (by simp)
  rcases List.mem_map.mp hn with ⟨r, hr, rfl⟩
  exact h.batch_le r hr

/-! ## Safety -/

/-- Against any responders: a lookup dials no peer twice, and so many at most; whom it dials is
not itself, not cooling at the start, and bonded when the table or an earlier answer named it; a
round reports progress only for a bonded candidate that is new, not cooling and nearer than
everyone queried; and what it returns is at most `k` distinct providers, none of them itself, each
of them bonded and not negatively cached when an answer named it with an attestation that the
verifier mapped to a seated origin. -/
theorem lookup_safe (x : LookupInput) (rng : Shuffle (NodeId × Coverage)) :
    (runLookup x).requests.Nodup ∧
    (runLookup x).requests.length ≤ x.cfg.alpha * maxLookupRounds ∧
    (∀ i r, (runLookup x).rounds[i]? = some r → ∀ p ∈ r.batch,
      p ≠ x.requesterId ∧ (x.table.coolingPeers x.now).2 p = false ∧
        (Seeded x p ∨ NamedIn ((runLookup x).rounds.take i) p)) ∧
    (∀ r ∈ (runLookup x).rounds, r.after.observedCloser = true →
      NamesCloser x r.before r.answers r.after.state) ∧
    (findProviders x rng).providers.length ≤ x.cfg.k ∧
    ((findProviders x rng).providers.map Prod.fst).Nodup ∧
    ∀ e ∈ (findProviders x rng).providers,
      e.1 ≠ x.requesterId ∧ VouchedIn x (runLookup x).rounds e.1 := by
  rcases safeRun x with ⟨hsafe, hrounds⟩
  have hperm := rng.perm (runLookup x).state.providers
  refine ⟨hsafe.requests_nodup,
    hsafe.requests_le.trans (Nat.mul_le_mul_left _ hrounds), fun i r hi p hp => ?_,
    hsafe.progress, ?_, ?_, fun e he => ?_⟩
  · have hdialed : p ∈ (runLookup x).state.queried :=
      (hsafe.queried p).mpr (List.mem_flatMap.mpr ⟨r, List.mem_of_getElem? hi, hp⟩)
    rcases hsafe.sound.dialed p hdialed with ⟨hself, hcooling, -⟩
    refine ⟨hself, ?_, hsafe.named i r hi p hp⟩
    rw [x.cooling.mem_iff, Bool.not_eq_true] at hcooling
    exact hcooling
  · rw [← hsafe.sound.k_eq]
    exact List.length_take_le _ _
  · have hnodup := (hperm.map Prod.fst).nodup_iff.mpr hsafe.sound.providers_nodup
    exact hnodup.sublist ((List.take_sublist _ _).map Prod.fst)
  · exact hsafe.sound.provider e (hperm.mem_iff.mp (List.mem_of_mem_take he))

end Decdn.Dht
