import Decdn.Incentive.LaneClaim

/-!
# The off-lock preimage walk

`commit_one_preimage` reads the frontier under the lane's lock, hashes forward from the
reveal with the lock released, and folds the reveal under the lock again.  The answer of the
walk counts only while the frontier it was run against is the live one, and then it is the
answer the locked walk would give.

Main results:

- Theorem `advancePreimageVerified_snapshot`: whatever lane the snapshot was taken from, the
  fold is the locked one.
- Theorem `Walks.step`: what one snapshot, walk or fold keeps.
- Theorem `walk_off_lock`: any interleaving of genuine reveals folds the deepest of them.
-/

namespace Decdn.Incentive

open PaymentPool (Crypto)

variable {H : Crypto}

/-! ## One reveal -/

/-- Trusting the walk against a snapshot gives what the locked walk gives. -/
theorem advancePreimageVerified_snapshot (s : LaneState) (root : Bytes32) (index : UInt8)
    (preimage : Bytes32) (walked walked' : Option (Nat × Bytes32)) :
    s.advancePreimageVerified H root index preimage walked
        (LaneState.walk H index preimage walked) =
      s.advancePreimageVerified H root index preimage walked'
        (LaneState.walk H index preimage walked') := by
  unfold LaneState.advancePreimageVerified
  split
  · rfl
  · rename_i target hslot
    -- A snapshot of the live frontier was walked against the live tip.
    have hverified : ∀ snapshot : Option (Nat × Bytes32),
        (if snapshot = some (target.verifiedIndex, target.tip) then
          LaneState.walk H index preimage snapshot
        else verifyForward H preimage (index.toNat - target.verifiedIndex) target.tip) =
          verifyForward H preimage (index.toNat - target.verifiedIndex) target.tip := by
      intro snapshot
      split
      · rename_i hlive
        rw [hlive]
        rfl
      · rfl
    rw [hverified walked, hverified walked']

/-! ## Interleaved reveals -/

/-- Reveals of one chain on their way into a lane: not looked at yet, with their snapshot,
with the answer of their walk, folded with what they added, and refused. -/
structure Walks where
  lane : LaneState
  waiting : List UInt8
  snapshots : List (UInt8 × Option (Nat × Bytes32))
  answers : List (UInt8 × Option (Nat × Bytes32) × Bool)
  folded : List (UInt8 × Applied)
  refused : List UInt8

/-- Reveals that have all yet to reach the lane. -/
def Walks.start (lane : LaneState) (reveals : List UInt8) : Walks where
  lane := lane
  waiting := reveals
  snapshots := []
  answers := []
  folded := []
  refused := []

/-- The steps of `commit_one_preimage`. -/
inductive WalkEvent
  | snapshot (index : UInt8)
  | walk (index : UInt8) (walked : Option (Nat × Bytes32))
  | fold (index : UInt8) (walked : Option (Nat × Bytes32)) (walkedOk : Bool)

/-- One step of one reveal; `ladder` holds the released preimages. -/
def Walks.apply (H : Crypto) (root : Bytes32) (ladder : Nat → Bytes32) (w : Walks) :
    WalkEvent → Option Walks
  | .snapshot index =>
    if index ∈ w.waiting then
      some { w with
        waiting := w.waiting.erase index
        snapshots := (index, w.lane.preimageFrontier root index) :: w.snapshots }
    else none
  | .walk index walked =>
    if (index, walked) ∈ w.snapshots then
      some { w with
        snapshots := w.snapshots.erase (index, walked)
        answers :=
          (index, walked, LaneState.walk H index (ladder index.toNat) walked) :: w.answers }
    else none
  | .fold index walked walkedOk =>
    if (index, walked, walkedOk) ∈ w.answers then
      let answers := w.answers.erase (index, walked, walkedOk)
      match w.lane.advancePreimageVerified H root index (ladder index.toNat) walked walkedOk with
      | .ok (lane, applied) =>
        some { w with lane := lane, answers := answers, folded := (index, applied) :: w.folded }
      | .error _ => some { w with answers := answers, refused := index :: w.refused }
    else none

/-- The step relation. -/
def WalkStep (H : Crypto) (root : Bytes32) (ladder : Nat → Bytes32) (w : Walks) (e : WalkEvent)
    (w' : Walks) : Prop := w.apply H root ladder e = some w'

/-- Every reveal has been folded or refused. -/
def Walks.Done (w : Walks) : Prop := w.waiting = [] ∧ w.snapshots = [] ∧ w.answers = []

/-- The deepest of a frontier and some reveals. -/
def deepest (frontier : Nat) (reveals : List UInt8) : Nat :=
  reveals.foldr (fun index acc => max index.toNat acc) frontier

/-- The lane with its frontier at an index of the ladder. -/
def LaneState.atIndex (s : LaneState) (ladder : Nat → Bytes32) (index : Nat) : LaneState :=
  { s with chain := { s.chain with verifiedIndex := index, tip := ladder index } }

/-- A lane that meters the chain of a seed: it tracks the chain's root, and its tip is the
preimage at its frontier. -/
structure Meters (H : Crypto) (seed : Bytes32) (s : LaneState) : Prop where
  root_ne_zero : rootFromSeed H seed ≠ 0
  root_eq : s.chain.chainRoot = rootFromSeed H seed
  tip_eq : s.chain.tip = preimageAt H seed s.chain.verifiedIndex

theorem le_deepest (frontier : Nat) (reveals : List UInt8) : frontier ≤ deepest frontier reveals := by
  induction reveals with
  | nil => exact le_rfl
  | cons index reveals ih => exact le_trans ih (le_max_right _ _)

theorem deepest_perm {frontier : Nat} {reveals reveals' : List UInt8} (h : reveals.Perm reveals') :
    deepest frontier reveals = deepest frontier reveals' := by
  unfold deepest
  refine h.foldr_eq' ?_ _
  intro a _ b _ acc
  exact max_left_comm b.toNat a.toNat acc

/-- What holds while the reveals of a chain interleave. -/
structure Walks.Inv (H : Crypto) (seed : Bytes32) (s : LaneState) (reveals : List UInt8)
    (w : Walks) : Prop where
  lane_eq : w.lane =
    s.atIndex (preimageAt H seed) (deepest s.chain.verifiedIndex (w.folded.map Prod.fst))
  answer_eq : ∀ index walked walkedOk, (index, walked, walkedOk) ∈ w.answers →
    walkedOk = LaneState.walk H index (preimageAt H seed index.toNat) walked
  refused_nil : w.refused = []
  reveals_perm : (w.waiting ++ (w.snapshots.map Prod.fst ++ (w.answers.map Prod.fst ++
    w.folded.map Prod.fst))).Perm reveals
  amount_eq : (w.folded.map (·.2.amountDelta)).sum =
    s.chain.chunkPrice * (deepest s.chain.verifiedIndex (w.folded.map Prod.fst) -
      s.chain.verifiedIndex)
  bytes_eq : (w.folded.map (·.2.bytesDelta)).sum =
    chunkBytes * (deepest s.chain.verifiedIndex (w.folded.map Prod.fst) - s.chain.verifiedIndex)

theorem Walks.Inv.start {seed : Bytes32} {s : LaneState} (hmeters : Meters H seed s)
    (reveals : List UInt8) : (Walks.start s reveals).Inv H seed s reveals where
  lane_eq := by
    unfold LaneState.atIndex deepest
    simp only [Walks.start, List.map_nil, List.foldr_nil, ← hmeters.tip_eq]
  answer_eq := by
    intro index walked walkedOk h
    cases h
  refused_nil := rfl
  reveals_perm := by simp [Walks.start]
  amount_eq := by simp [Walks.start, deepest]
  bytes_eq := by simp [Walks.start, deepest]

theorem perm_moved {α β : Type*} [BEq α] [LawfulBEq α] {xs : List α} {a : α} (f : α → β) (h : a ∈ xs)
    (ys : List β) : ((xs.erase a).map f ++ f a :: ys).Perm (xs.map f ++ ys) :=
  List.perm_middle.trans (((List.perm_cons_erase h).map f).symm.append_right ys)

/-- A genuine reveal below the cap is never refused, and folds what lies past the frontier. -/
theorem fold_genuine {seed : Bytes32} {s : LaneState} (hmeters : Meters H seed s)
    (hwire : WireLane s) {index : UInt8} (frontier : Nat)
    (hcap : s.lastAmount + s.chain.chunkPrice * index.toNat ≤ s.cap)
    (walked : Option (Nat × Bytes32)) :
    (s.atIndex (preimageAt H seed) frontier).advancePreimageVerified H (rootFromSeed H seed) index
        (preimageAt H seed index.toNat) walked
        (LaneState.walk H index (preimageAt H seed index.toNat) walked) =
      .ok (s.atIndex (preimageAt H seed) (max index.toNat frontier),
        ⟨s.chain.chunkPrice * (index.toNat - frontier), chunkBytes * (index.toNat - frontier)⟩) := by
  rcases Nat.lt_or_ge frontier index.toNat with hdeeper | hcovered
  · have hindex : index.toNat ≤ maxChainLength := by
      have := index.toNat_lt
      unfold maxChainLength
      omega
    have hwalks : hashForward H (preimageAt H seed index.toNat) (index.toNat - frontier) =
        preimageAt H seed frontier :=
      hashForward_preimageAt seed (Nat.le_of_lt hdeeper) hindex
    have hbelow : U256.saturatingAdd s.lastAmount
        (U256.wrappingMul s.chain.chunkPrice index.toNat) ≤ s.cap := by
      have hsum := U256.saturatingAdd_le s.lastAmount
        (U256.wrappingMul s.chain.chunkPrice index.toNat)
      have hmod : U256.wrappingMul s.chain.chunkPrice index.toNat ≤
          s.chain.chunkPrice * index.toNat := Nat.mod_le _ _
      omega
    have hsteps : index.toNat - frontier ≤ 255 := by
      unfold maxChainLength at hindex
      omega
    have hprice : s.chain.chunkPrice * (index.toNat - frontier) < U256.modulus := by
      have hle := Nat.mul_le_mul hwire.price_le hsteps
      unfold u64Max at hle
      unfold U256.modulus
      omega
    have hbytes : chunkBytes * (index.toNat - frontier) < U256.modulus := by
      unfold chunkBytes U256.modulus
      omega
    have hfold := advancePreimageVerified_deeper (s := s.atIndex (preimageAt H seed) frontier)
      walked hmeters.root_ne_zero hmeters.root_eq.symm hdeeper hwalks hbelow
    rw [hfold, max_eq_left (Nat.le_of_lt hdeeper)]
    dsimp only [LaneState.atIndex]
    rw [U256.wrappingMul_eq hprice, U256.wrappingMul_eq hbytes]
  · rw [advancePreimageVerified_covered walked _ (.inr hcovered), max_eq_right hcovered,
      Nat.sub_eq_zero_of_le hcovered, Nat.mul_zero, Nat.mul_zero]

theorem span_deepened {start frontier index : Nat} (h : start ≤ frontier) :
    index - frontier + (frontier - start) = max index frontier - start := by
  omega

theorem Walks.Inv.step {seed : Bytes32} {s : LaneState} {reveals : List UInt8}
    (hmeters : Meters H seed s) (hwire : WireLane s)
    (hcap : ∀ index ∈ reveals, s.lastAmount + s.chain.chunkPrice * index.toNat ≤ s.cap)
    {w w' : Walks} {e : WalkEvent} (h : w.Inv H seed s reveals)
    (hstep : WalkStep H (rootFromSeed H seed) (preimageAt H seed) w e w') :
    w'.Inv H seed s reveals := by
  unfold WalkStep at hstep
  cases e with
  | snapshot index =>
    rw [Walks.apply, Option.ite_none_right_eq_some] at hstep
    rcases hstep with ⟨hmem, heq⟩
    rcases Option.some.inj heq with rfl
    refine ⟨h.lane_eq, h.answer_eq, h.refused_nil, ?_, h.amount_eq, h.bytes_eq⟩
    have hmoved := perm_moved id hmem
      (w.snapshots.map Prod.fst ++ (w.answers.map Prod.fst ++ w.folded.map Prod.fst))
    rw [List.map_id, List.map_id] at hmoved
    exact hmoved.trans h.reveals_perm
  | walk index walked =>
    rw [Walks.apply, Option.ite_none_right_eq_some] at hstep
    rcases hstep with ⟨hmem, heq⟩
    rcases Option.some.inj heq with rfl
    refine ⟨h.lane_eq, ?_, h.refused_nil, ?_, h.amount_eq, h.bytes_eq⟩
    · intro index' walked' walkedOk hanswer
      rcases List.mem_cons.mp hanswer with heq | hanswer
      · simp only [Prod.mk.injEq] at heq
        rcases heq with ⟨rfl, rfl, rfl⟩
        rfl
      · exact h.answer_eq index' walked' walkedOk hanswer
    · have hmoved := perm_moved Prod.fst hmem (w.answers.map Prod.fst ++ w.folded.map Prod.fst)
      exact (hmoved.append_left _).trans h.reveals_perm
  | fold index walked walkedOk =>
    rw [Walks.apply, Option.ite_none_right_eq_some] at hstep
    rcases hstep with ⟨hmem, heq⟩
    have hmoved := perm_moved Prod.fst hmem (w.folded.map Prod.fst)
    have hperm := ((hmoved.append_left (w.snapshots.map Prod.fst)).append_left w.waiting).trans
      h.reveals_perm
    have hindex : index ∈ reveals := hperm.subset (by simp)
    -- The answer is its own walk's, so the fold is the genuine one.
    have hfold := fold_genuine hmeters hwire (deepest s.chain.verifiedIndex (w.folded.map Prod.fst))
      (hcap index hindex) walked
    rw [← h.lane_eq, ← h.answer_eq index walked walkedOk hmem] at hfold
    rw [hfold] at heq
    rcases Option.some.inj heq with rfl
    have hle := le_deepest s.chain.verifiedIndex (w.folded.map Prod.fst)
    refine ⟨rfl, ?_, h.refused_nil, hperm, ?_, ?_⟩
    · intro index' walked' walkedOk' hanswer
      exact h.answer_eq index' walked' walkedOk' (List.mem_of_mem_erase hanswer)
    · simp only [List.map_cons, List.sum_cons, h.amount_eq, ← Nat.mul_add]
      rw [span_deepened hle]
      rfl
    · simp only [List.map_cons, List.sum_cons, h.bytes_eq, ← Nat.mul_add]
      rw [span_deepened hle]
      rfl

theorem Walks.Inv.of_reaches {seed : Bytes32} {s : LaneState} {reveals : List UInt8}
    (hmeters : Meters H seed s) (hwire : WireLane s)
    (hcap : ∀ index ∈ reveals, s.lastAmount + s.chain.chunkPrice * index.toNat ≤ s.cap) {w : Walks}
    (h : Reaches (WalkStep H (rootFromSeed H seed) (preimageAt H seed)) (fun _ _ => True)
      (Walks.start s reveals) w) : w.Inv H seed s reveals :=
  h.invariant (Walks.Inv.start hmeters reveals)
    fun _ _ _ _ hstep hinv => hinv.step hmeters hwire hcap hstep

/-- Whatever lane the snapshot of a reveal was taken from, folding the reveal with it gives
the locked result; so in every reachable lane that meters a chain, any interleaving of
genuine reveals that stay below the cap leaves the lane at the deepest of them with its
preimage as tip, and what they add sums to the whole advance. -/
theorem walk_off_lock {s₀ s : LaneState} (hfresh : s₀.Fresh)
    (hrun : Reaches (LaneState.step H) (fun s e => e.FitsWire s) s₀ s) :
    (∀ (earlier : LaneState) root index preimage,
      s.advancePreimageVerified H root index preimage (earlier.preimageFrontier root index)
          (LaneState.walk H index preimage (earlier.preimageFrontier root index)) =
        s.advancePreimage H root index preimage) ∧
    ∀ seed reveals w, Meters H seed s →
      (∀ index ∈ reveals, s.lastAmount + s.chain.chunkPrice * index.toNat ≤ s.cap) →
      Reaches (WalkStep H (rootFromSeed H seed) (preimageAt H seed)) (fun _ _ => True)
        (Walks.start s reveals) w → w.Done →
      w.refused = [] ∧ (w.folded.map Prod.fst).Perm reveals ∧
      w.lane = s.atIndex (preimageAt H seed) (deepest s.chain.verifiedIndex reveals) ∧
      (w.folded.map (·.2.amountDelta)).sum =
        s.chain.chunkPrice * (deepest s.chain.verifiedIndex reveals - s.chain.verifiedIndex) ∧
      (w.folded.map (·.2.bytesDelta)).sum =
        chunkBytes * (deepest s.chain.verifiedIndex reveals - s.chain.verifiedIndex) := by
  have hwire := WireLane.of_reaches hfresh hrun
  constructor
  · intro earlier root index preimage
    exact advancePreimageVerified_snapshot s root index preimage _ _
  · rintro seed reveals w hmeters hcap hwalks ⟨hwaiting, hsnapshots, hanswers⟩
    have hinv := Walks.Inv.of_reaches hmeters hwire hcap hwalks
    have hperm := hinv.reveals_perm
    rw [hwaiting, hsnapshots, hanswers] at hperm
    simp only [List.map_nil, List.nil_append] at hperm
    rw [← deepest_perm hperm]
    exact ⟨hinv.refused_nil, hperm, hinv.lane_eq, hinv.amount_eq, hinv.bytes_eq⟩

/-- A hash that leaves its input alone. -/
def plainCrypto : Crypto := { PaymentPool.sampleCrypto with keccak256 := id }

/-- The second reveal is folded between the snapshot and the fold of the first. -/
def sampleWalks : List WalkEvent :=
  [.snapshot 1, .snapshot 2, .walk 2 (some (0, sampleRoot)), .fold 2 (some (0, sampleRoot)) true,
    .walk 1 (some (0, sampleRoot)), .fold 1 (some (0, sampleRoot)) true]

/-- Two reveals of a chain at price 10, the deeper one first, add 20 units. -/
theorem walk_off_lock_sample :
    ∃ w : Walks, (w.folded.map (·.2.amountDelta)).sum = 20 := by
  have hfresh : sampleLane.Fresh := ⟨rfl, rfl, rfl, rfl⟩
  have hopen : LaneEvent.FitsWire sampleLane (.presigned (sampleSigned 1 0 10)) :=
    ⟨by decide, by decide, by decide⟩
  have hfirst : sampleLane.step plainCrypto (.presigned (sampleSigned 1 0 10)) sampleOpened := rfl
  have hrun := (Reaches.refl sampleLane).tail hopen hfirst
  have hroot : rootFromSeed plainCrypto sampleRoot = sampleRoot := by
    unfold rootFromSeed hashForward plainCrypto
    rw [Function.iterate_id]
    rfl
  have hladder : preimageAt plainCrypto sampleRoot = fun _ => sampleRoot := by
    funext index
    unfold preimageAt hashForward plainCrypto
    rw [Function.iterate_id]
    rfl
  have hmeters : Meters plainCrypto sampleRoot sampleOpened :=
    ⟨by rw [hroot]; decide, hroot.symm, hroot.symm⟩
  have hdone : (runEvents (Walks.apply plainCrypto (rootFromSeed plainCrypto sampleRoot)
      (preimageAt plainCrypto sampleRoot)) (fun _ _ => true) (Walks.start sampleOpened [1, 2])
      sampleWalks).map (fun w => (w.waiting.isEmpty, w.snapshots.isEmpty, w.answers.isEmpty)) =
        some (true, true, true) := by
    rw [hroot, hladder]
    decide +kernel
  rw [Option.map_eq_some_iff] at hdone
  rcases hdone with ⟨w, hwalks, hw⟩
  simp only [Prod.mk.injEq, List.isEmpty_iff] at hw
  have hcap : ∀ index ∈ ([1, 2] : List UInt8),
      sampleOpened.lastAmount + sampleOpened.chain.chunkPrice * index.toNat ≤ sampleOpened.cap := by
    decide +kernel
  exact ⟨w, ((walk_off_lock hfresh hrun).2 sampleRoot [1, 2] w hmeters hcap
    (Reaches.of_runEvents (fun _ _ _ => trivial) hwalks) hw).2.2.2.1⟩

end Decdn.Incentive
