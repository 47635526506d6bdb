import Decdn.Dht.Records
import Decdn.Dht.Routing
import Decdn.Foundations.HashMaps

/-!
# The iterative lookup

A node that looks for the providers of a hash asks the peers it knows nearest to the
hash, a few at a time, and then the nearer peers that their answers name (`lookup.rs`).
The answers of a round arrive in any order, some of them never.

An answer comes with what the node knows when it folds the answer: the staker set, the
negative cache and the seats of origins all change while a lookup runs.  Counters and
log lines are left out.

Main definitions:

- `LookupState`, `addCandidate`, `pickRoundBatch`, `foldResponse` and `runRound`: the
  state of a lookup and its operations.
- `runLookup` and `findProviders`: a lookup, against any responders.
-/

namespace Decdn.Dht

/-! ## What a lookup reads -/

/-- `AttestationVerifier`, by what it reads. -/
structure AttestationVerifier where
  recover : ContentHash → OriginAttestation → Option Address
  isSeated : Address → Bool
  isOriginDenied : Address → Bool

/-- `admits`. -/
def AttestationVerifier.admits (v : AttestationVerifier) (signer : Address) : Bool :=
  v.isSeated signer && !v.isOriginDenied signer

/-- `verify`. -/
def AttestationVerifier.verify (v : AttestationVerifier) (hash : ContentHash)
    (attestation : OriginAttestation) : Option Address :=
  (v.recover hash attestation).filter v.admits

/-- What the node knows at one moment. -/
structure Knowledge where
  isActive : NodeId → Bool
  containsActive : NodeId → ContentHash → Bool
  verifier : AttestationVerifier

/-- `FindValueResponse`. -/
structure FindValueResponse where
  providers : List Provider
  closerNodes : List NodeId

/-- What a round gets from one of its tasks. -/
inductive RpcResult where
  | response (resp : FindValueResponse)
  | invalidPubKey
  | transport (dialTimeout : Bool)
  | panicked

/-- A task of a round that ended, and what the node knows when it folds the result. -/
structure Answer where
  responder : NodeId
  result : RpcResult
  knowledge : Knowledge

/-- The tasks of a round that end, in the order in which they do.  The others are aborted when
the round times out. -/
structure RoundAnswers where
  answers : List Answer
  timedOut : Bool

/-- `LookupConfig`. -/
structure LookupConfig where
  alpha : Nat
  k : Nat
  alpha_pos : 0 < alpha
  k_pos : 0 < k

/-- `MAX_LOOKUP_ROUNDS`. -/
def maxLookupRounds : Nat := 4

/-- The set that `cooling_peers` returns, in the order in which it iterates. -/
structure CoolingSnapshot (t : RoutingTable) (now : Nat) where
  peers : List NodeId
  nodup : peers.Nodup
  mem_iff : ∀ p, p ∈ peers ↔ (t.coolingPeers now).2 p = true

/-- The shuffle of `rand`: some order of the same items. -/
structure Shuffle (α : Type) where
  shuffle : List α → List α
  perm : ∀ l, (shuffle l).Perm l

/-! ## The state -/

/-- `LookupState`: `candidates` by ascending key, `queried` and `cooling` as sets, `providers` and
`origins` in the order of insertion. -/
structure LookupState where
  target : ContentHash
  requesterId : NodeId
  candidates : List (Point × NodeId)
  queried : List NodeId
  providers : List (NodeId × Coverage)
  origins : List Address
  verdicts : HashMap OriginAttestation (Option Address)
  bestQueriedDistance : Point
  cooling : List NodeId
  coolingSkipped : Nat
  k : Nat
  alpha : Nat

namespace LookupState

/-- The key of a peer. -/
def keyOf (s : LookupState) (peer : NodeId) : Point :=
  xorDistanceBytes peer.asBytes s.target.asBytes

/-- `BTreeMap::insert`. -/
def insertCandidate (dist : Point) (peer : NodeId) : List (Point × NodeId) → List (Point × NodeId)
  | [] => [(dist, peer)]
  | e :: rest =>
    if dist < e.1 then (dist, peer) :: e :: rest
    else if dist = e.1 then (dist, peer) :: rest
    else e :: insertCandidate dist peer rest

/-- `add_candidate`. -/
def addCandidate (s : LookupState) (peer : NodeId) : LookupState × Bool :=
  if peer = s.requesterId then (s, false)
  else if peer ∈ s.cooling then
    ({ s with coolingSkipped := min (s.coolingSkipped + 1) (2 ^ 32 - 1) }, false)
  else
    let dist := s.keyOf peer
    if peer ∈ s.queried ∨ dist ∈ s.candidates.map Prod.fst then (s, false)
    else
      let strictlyCloser := decide (dist < s.bestQueriedDistance)
      ({ s with candidates := insertCandidate dist peer s.candidates }, strictlyCloser)

/-- The loop of `pick_round_batch`, with room for so many more peers. -/
def pickLoop (s : LookupState) : Nat → List NodeId × LookupState
  | 0 => ([], s)
  | room + 1 =>
    match s.candidates with
    | [] => ([], s)
    | (dist, peer) :: rest =>
      let best := if dist < s.bestQueriedDistance then dist else s.bestQueriedDistance
      let s := { s with candidates := rest, queried := peer :: s.queried,
                        bestQueriedDistance := best }
      let picked := s.pickLoop room
      (peer :: picked.1, picked.2)

/-- `pick_round_batch`. -/
def pickRoundBatch (s : LookupState) : List NodeId × LookupState := s.pickLoop s.alpha

/-- `IndexMap::insert`. -/
def insertProvider (peer : NodeId) (coverage : Coverage) :
    List (NodeId × Coverage) → List (NodeId × Coverage)
  | [] => [(peer, coverage)]
  | e :: rest =>
    if e.1 = peer then (peer, coverage) :: rest else e :: insertProvider peer coverage rest

/-- `record_provider`. -/
def recordProvider (s : LookupState) (peer : NodeId) (coverage : Coverage) : LookupState :=
  if peer = s.requesterId then s
  else { s with providers := insertProvider peer coverage s.providers }

/-- `attesting_origin`. -/
def attestingOrigin (s : LookupState) (verifier : AttestationVerifier)
    (attestation : OriginAttestation) : LookupState × Option Address :=
  match s.verdicts.get attestation with
  | some verdict => (s, verdict)
  | none =>
    let verdict := verifier.verify s.target attestation
    ({ s with verdicts := s.verdicts.insert attestation verdict }, verdict)

/-- `origins.insert`. -/
def insertOrigin (s : LookupState) (origin : Address) : LookupState :=
  if origin ∈ s.origins then s else { s with origins := s.origins ++ [origin] }

/-- `have_enough_providers`. -/
def haveEnoughProviders (s : LookupState) : Bool := decide (s.k ≤ s.providers.length)

end LookupState

/-! ## The seed -/

/-- The loop of `seed_from`. -/
def seedLoop (cooling : List NodeId) (seedCount : Nat) :
    List NodeId → List NodeId → Nat → List NodeId × Nat
  | [], seed, skipped => (seed, skipped)
  | peer :: rest, seed, skipped =>
    if seed.length = seedCount then (seed, skipped)
    else if peer ∈ cooling then
      seedLoop cooling seedCount rest seed (min (skipped + 1) (2 ^ 32 - 1))
    else seedLoop cooling seedCount rest (seed ++ [peer]) skipped

/-- `seed_from`: the seed, and how many cooling peers it passed over. -/
def seedFrom (t : RoutingTable) (now : Nat) (cooling : CoolingSnapshot t now)
    (isActive : NodeId → Bool) (target : ContentHash) (seedCount : Nat) : List NodeId × Nat :=
  let reach := U64.saturatingAdd seedCount cooling.peers.length
  let nearest := (t.coolingPeers now).1.closestWhere target.asBytes reach isActive
  seedLoop cooling.peers seedCount nearest [] 0

/-- What a lookup is called with, and what the peers make of each round and its batch. -/
structure LookupInput where
  table : RoutingTable
  now : Nat
  cooling : CoolingSnapshot table now
  isActive : NodeId → Bool
  requesterId : NodeId
  target : ContentHash
  cfg : LookupConfig
  responders : Nat → List NodeId → RoundAnswers

/-- The best distance of a lookup that has queried nobody. -/
def farthest : Point := ⟨Vector.replicate nodeIdLen 0xFF⟩

/-- `LookupState::new`. -/
def LookupState.new (x : LookupInput) : LookupState :=
  let seedCount := min (x.cfg.alpha * 4) u64Max
  let seed := seedFrom x.table x.now x.cooling x.isActive x.target seedCount
  let s : LookupState :=
    { target := x.target
      requesterId := x.requesterId
      candidates := []
      queried := []
      providers := []
      origins := []
      verdicts := HashMap.empty
      bestQueriedDistance := farthest
      cooling := x.cooling.peers
      coolingSkipped := seed.2
      k := x.cfg.k
      alpha := x.cfg.alpha }
  seed.1.foldl (fun s peer => (s.addCandidate peer).1) s

/-! ## Folding an answer -/

/-- `filter_xor_closer`. -/
def filterXorCloser (closerNodes : List NodeId) (target : ContentHash) (responder : NodeId) :
    List NodeId :=
  closerNodes.filter fun n =>
    xorDistanceBytes n.asBytes target.asBytes < xorDistanceBytes responder.asBytes target.asBytes

/-- `filter_active_stakers`. -/
def filterActiveStakers (nodes : List NodeId) (isActive : NodeId → Bool) : List NodeId :=
  nodes.filter isActive

/-- `filter_negative_cache`. -/
def filterNegativeCache (providers : List NodeId) (target : ContentHash)
    (containsActive : NodeId → ContentHash → Bool) : List NodeId :=
  providers.filter fun p => !containsActive p target

/-- One provider of an answer, that passed the staker filter. -/
def foldProvider (verifier : AttestationVerifier) (probeable : List NodeId)
    (w : LookupState × Nat) (p : Provider) : LookupState × Nat :=
  let attesting := w.1.attestingOrigin verifier p.attestation
  match attesting.2 with
  | some origin =>
    let s := attesting.1.insertOrigin origin
    if p.node ∈ probeable then (s.recordProvider p.node p.coverage, w.2) else (s, w.2)
  | none => (attesting.1, w.2 + 1)

/-- One closer node of an answer, that passed the filters. -/
def foldCloser (w : LookupState × Bool) (peer : NodeId) : LookupState × Bool :=
  let added := w.1.addCandidate peer
  (added.1, w.2 || added.2)

/-- `Folded`. -/
structure Folded where
  observedCloser : Bool
  dropped : Nat

/-- `fold_response`. -/
def foldResponse (knowledge : Knowledge) (resp : FindValueResponse) (responder : NodeId)
    (s : LookupState) : LookupState × Folded :=
  let keptCloser := filterActiveStakers (filterXorCloser resp.closerNodes s.target responder)
    knowledge.isActive
  let bonded := filterActiveStakers (resp.providers.map Provider.node) knowledge.isActive
  let probeable := filterNegativeCache bonded s.target knowledge.containsActive
  let checked := (resp.providers.filter fun p => decide (p.node ∈ bonded)).foldl
    (foldProvider knowledge.verifier probeable) (s, 0)
  let added := keptCloser.foldl foldCloser (checked.1, false)
  (added.1, ⟨added.2, checked.2⟩)

/-! ## A round -/

/-- A round under way: its state, whether it observed a closer node, who answered, and whom it
marks as unreachable. -/
structure RoundState where
  state : LookupState
  observedCloser : Bool := false
  answered : List NodeId := []
  unreachable : List NodeId := []

/-- One round of the drain of `run_round`. -/
def drainAnswer (w : RoundState) (a : Answer) : RoundState :=
  match a.result with
  | .response resp =>
    let folded := foldResponse a.knowledge resp a.responder w.state
    { w with
      state := folded.1
      observedCloser := w.observedCloser || folded.2.observedCloser
      answered := a.responder :: w.answered }
  | .invalidPubKey => { w with answered := a.responder :: w.answered }
  | .transport dialTimeout =>
    { w with
      answered := a.responder :: w.answered
      unreachable := if dialTimeout then w.unreachable ++ [a.responder] else w.unreachable }
  | .panicked => w

/-- `run_round`. -/
def runRound (batch : List NodeId) (round : RoundAnswers) (s : LookupState) : RoundState :=
  let w := round.answers.foldl drainAnswer { state := s }
  if round.timedOut then
    { w with unreachable := w.unreachable ++ batch.filter fun peer => decide (peer ∉ w.answered) }
  else w

/-! ## A lookup -/

/-- A round that a lookup ran: its batch, the state with the batch picked, the answers, and the
state after them. -/
structure RoundReport where
  batch : List NodeId
  before : LookupState
  answers : List Answer
  after : RoundState

/-- A lookup under way. -/
structure LookupRun where
  state : LookupState
  rounds : List RoundReport

/-- The loop of `find_providers`, with so many rounds left. -/
def lookupLoop (responders : Nat → List NodeId → RoundAnswers) (round : Nat) :
    Nat → LookupRun → LookupRun
  | 0, run => run
  | left + 1, run =>
    if run.state.haveEnoughProviders then run
    else
      let picked := run.state.pickRoundBatch
      if picked.1.isEmpty then run
      else
        let script := responders round picked.1
        let after := runRound picked.1 script picked.2
        let run := ⟨after.state, run.rounds ++ [⟨picked.1, picked.2, script.answers, after⟩]⟩
        if after.observedCloser then lookupLoop responders (round + 1) left run else run

/-- The rounds of `find_providers`. -/
def runLookup (x : LookupInput) : LookupRun :=
  lookupLoop x.responders 0 maxLookupRounds ⟨.new x, []⟩

/-- The peers a lookup dials. -/
def LookupRun.requests (run : LookupRun) : List NodeId := run.rounds.flatMap RoundReport.batch

/-- `Lookup`. -/
structure Lookup where
  providers : List (NodeId × Coverage)
  origins : List Address

/-- `into_lookup`. -/
def LookupState.intoLookup (s : LookupState) (rng : Shuffle (NodeId × Coverage)) : Lookup where
  providers := (rng.shuffle s.providers).take s.k
  origins := s.origins

/-- `find_providers`. -/
def findProviders (x : LookupInput) (rng : Shuffle (NodeId × Coverage)) : Lookup :=
  (runLookup x).state.intoLookup rng

end Decdn.Dht
