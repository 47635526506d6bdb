import Decdn.BaoRange.WireSize
import Mathlib.Data.Finset.Max
import Mathlib.Order.Interval.Finset.Nat

/-!
# The fill registry of a cache

`crates/cache/src/fill_session.rs`: the pulls in flight, by blob.  A miss asks the registry
with `claim`.  It attaches to a pull that covers it, opens a pull of its own, or opens one for
the part that no pull covers.  Each observer of a pull holds a lease, and the last lease that
goes cancels the pull.

A claim, the end of a lease and a change of demand run under the lock of the registry.  The
end of a pull, its paid frontier and its handle are fields of one session with locks of their
own, so their writes are single steps too: `extend_served_from` reads the frontier before it
raises it, and a frontier that only rises makes the two one.

Main definitions:

- Structure `State`: the registry with its sessions and leases.
- Definition `claim`: what a miss gets.
- Definition `teardown`: what the end of a lease does.

Main results:

- Theorem `plan_cases`: what each of the outcomes of a claim says about the live pulls.
- Theorem `contiguousByteSpan_eq_some`: the bytes of the part that a claim pulls itself.
-/

namespace Decdn.FillRegistry

open BaoRange

variable {Hash : Type}

/-! ## Chunks -/

/-- `CHUNK_BYTES`. -/
def chunkBytes : Nat := 1024

/-- The chunks within some boundaries; an open end adds none. -/
def chunksOf : ChunkRanges → Finset Nat
  | start :: stop :: rest => Finset.Ico start stop ∪ chunksOf rest
  | _ => ∅

/-- The bytes of a set of chunks without a gap, as an offset and a length. -/
def contiguousByteSpan (ranges : Finset Nat) (total : Nat) : Option (Nat × Nat) :=
  if h : ranges.Nonempty then
    let start := ranges.min' h
    let stop := ranges.max' h + 1
    if ranges = Finset.Ico start stop then
      let offset := saturatingMul start chunkBytes
      some (offset, min (saturatingMul stop chunkBytes) total - offset)
    else none
  else none

/-- The chunks that a request spans, and where its aligned fetch starts.  A request that cannot
be aligned spans none. -/
def requested (offset len total : Nat) : Finset Nat × Nat :=
  match alignRangeClamped offset len total with
  | .ok aligned => (chunksOf aligned.chunkRanges, aligned.fetchStart)
  | .error _ => (∅, 0)

/-! ## Sessions and leases -/

/-- `FillError`. -/
structure FillError where
  msg : String
  heldBytesCap : Bool := false
deriving DecidableEq, Repr

/-- `HashOutboard`: its identity, here the session that brought it, and the size of its tree. -/
structure HashOutboard where
  id : Nat
  totalBytes : Nat
deriving DecidableEq, Repr

/-- `FillSession`: one pull, as its observers share it. -/
structure FillSession (Hash : Type) where
  outboard : HashOutboard
  ended : Option (Except FillError Unit) := none
  servedPaid : Nat
  servedStart : Nat
  serveDemand : Nat → Option Nat := fun _ => none
  covered : Finset Nat
  observers : Nat := 0
  cancelled : Bool := false
  hash : Option Hash := none
  pullThread : Option Nat := none

namespace FillSession

/-- `starting_at`, scoped by `set_covered`. -/
def startingAt (id totalBytes servedStart : Nat) (covered : Finset Nat) : FillSession Hash :=
  { outboard := ⟨id, totalBytes⟩, servedPaid := servedStart, servedStart, covered }

/-- `is_dead`: the pull ended or was cancelled. -/
def isDead (session : FillSession Hash) : Bool := session.ended.isSome || session.cancelled

/-- The session's pull may still deliver some of the chunks. -/
def produces (session : FillSession Hash) (range : Finset Nat) : Bool :=
  !session.isDead && decide (session.covered ∩ range ≠ ∅)

/-- `route_own_demand`. -/
def routeOwnDemand (session : FillSession Hash) (slot byte stop : Nat) : FillSession Hash :=
  let demand := if session.produces {byte / chunkBytes} then some stop else none
  { session with serveDemand := Function.update session.serveDemand slot demand }

/-- `Demand::withdraw`. -/
def withdraw (session : FillSession Hash) (slot : Nat) : FillSession Hash :=
  { session with serveDemand := Function.update session.serveDemand slot none }

/-- `advance_served`. -/
def advanceServed (session : FillSession Hash) (served : Nat) : FillSession Hash :=
  { session with servedPaid := max session.servedPaid served }

/-- `extend_served_from`: an observer's payments count once the paid prefix reaches its start. -/
def extendServedFrom (session : FillSession Hash) (offset served : Nat) : FillSession Hash :=
  if offset ≤ session.servedPaid then session.advanceServed served else session

/-- `set_pull_handle`: the first handle is kept. -/
def setPullHandle (session : FillSession Hash) (handle : Nat) : FillSession Hash :=
  { session with pullThread := some (session.pullThread.getD handle) }

end FillSession

/-- `ObserverLease`. -/
structure ObserverLease (Hash : Type) where
  session : Nat
  hash : Hash
  armed : Bool := true
deriving DecidableEq, Repr

/-- `HashEntry`. -/
structure HashEntry where
  outboard : HashOutboard
  sessions : List Nat
deriving DecidableEq, Repr

/-- The registry, with the sessions and the leases that were ever made, and the handles of the
pulls that were handed to a caller to join. -/
structure State (Hash : Type) where
  map : Hash → Option HashEntry := fun _ => none
  sessions : Nat → FillSession Hash := fun id => .startingAt id 0 0 ∅
  nextSession : Nat := 0
  leases : List (ObserverLease Hash) := []
  nextHandle : Nat := 0
  joined : List Nat := []

namespace State

variable (s : State Hash)

/-- The sessions that the registry lists for a blob. -/
def listed (hash : Hash) : List Nat := (s.map hash).elim [] HashEntry.sessions

def setSession (id : Nat) (session : FillSession Hash) : State Hash :=
  { s with sessions := Function.update s.sessions id session }

/-- `mint_lease`. -/
def mintLease (id : Nat) (hash : Hash) : State Hash :=
  { s.setSession id { s.sessions id with observers := (s.sessions id).observers + 1 } with
    leases := s.leases ++ [⟨id, hash, true⟩] }

/-- `insert_session`: the new session joins the blob's entry and takes over its outboard. -/
def insertSession [DecidableEq Hash] (hash : Hash) (session : FillSession Hash) : State Hash :=
  let entry := (s.map hash).getD ⟨session.outboard, []⟩
  { s with
    map := Function.update s.map hash (some { entry with
      sessions := entry.sessions ++ [s.nextSession] })
    sessions := Function.update s.sessions s.nextSession
      { session with outboard := entry.outboard, hash := some hash }
    nextSession := s.nextSession + 1 }

/-- A session for the chunks, registered and with its owner's lease. -/
def openFill [DecidableEq Hash] (hash : Hash) (total servedStart : Nat)
    (covered : Finset Nat) : State Hash :=
  (s.insertSession hash (.startingAt s.nextSession total servedStart covered)).mintLease
    s.nextSession hash

/-- `range_still_live`. -/
def rangeStillLive (hash : Hash) (range : Finset Nat) : Bool :=
  (s.listed hash).any fun id => (s.sessions id).produces range

/-! ## A claim -/

/-- What the loop over the live sessions gathers: the chunks that they cover and the session with
the largest overlap, with its chunks and the size of the overlap. -/
structure Scan where
  coveredUnion : Finset Nat := ∅
  best : Option (Nat × Finset Nat × Nat) := none

/-- A session whose pull is running and whose paid frontier reaches the fetch's start. -/
def eligible (fetchStart id : Nat) : Bool :=
  !(s.sessions id).isDead && decide (fetchStart ≤ (s.sessions id).servedPaid)

def scanSession (r : Finset Nat) (fetchStart : Nat) (scan : Scan) (id : Nat) : Scan :=
  if s.eligible fetchStart id then
    let covered := (s.sessions id).covered
    let span := (r ∩ covered).card
    { coveredUnion := scan.coveredUnion ∪ covered
      best :=
        if r ∩ covered ≠ ∅ ∧ ∀ best ∈ scan.best, best.2.2 < span then some (id, covered, span)
        else scan.best }
  else scan

/-- How a claim is served. -/
inductive Plan where
  | attach (sibling : Nat)
  | mixed (sibling : Nat) (remainder : Finset Nat) (offset len : Nat)
  | own

def plan (hash : Hash) (r : Finset Nat) (fetchStart total : Nat) : Plan :=
  if r ≠ ∅ then
    let scan := (s.listed hash).foldl (s.scanSession r fetchStart) {}
    match scan.best with
    | some (sibling, covered, _) =>
      if r ∩ scan.coveredUnion ≠ ∅ then
        if r \ scan.coveredUnion = ∅ then .attach sibling
        else if (r ∩ scan.coveredUnion) \ covered = ∅ then
          match contiguousByteSpan (r \ covered) total with
          | some (offset, len) => .mixed sibling (r \ covered) offset len
          | none => .own
        else .own
      else .own
    | none => .own
  else .own

end State

/-- `FillClaim`, with sessions and leases by number. -/
inductive FillClaim where
  | attach (session lease : Nat)
  | owner (session lease : Nat)
  | mixed (owner ownerLease attach attachLease remainderOffset remainderLen : Nat)
deriving DecidableEq, Repr

/-- The sessions of an outcome, each with the lease that the caller got on it. -/
def FillClaim.held : FillClaim → List (Nat × Nat)
  | .attach session lease => [(session, lease)]
  | .owner session lease => [(session, lease)]
  | .mixed own ownLease sibling siblingLease _ _ => [(own, ownLease), (sibling, siblingLease)]

namespace State

variable (s : State Hash)

/-- `FillRegistry::claim`; a session that it makes starts with the paid frontier `servedStart`. -/
def claim [DecidableEq Hash] (hash : Hash) (offset len total servedStart : Nat) :
    State Hash × FillClaim :=
  let (r, fetchStart) := requested offset len total
  match s.plan hash r fetchStart total with
  | .attach sibling => (s.mintLease sibling hash, .attach sibling s.leases.length)
  | .mixed sibling remainder remOffset remLen =>
    ((s.openFill hash total servedStart remainder).mintLease sibling hash,
      .mixed s.nextSession s.leases.length sibling (s.leases.length + 1) remOffset remLen)
  | .own => (s.openFill hash total servedStart r, .owner s.nextSession s.leases.length)

/-! ## The end of a lease -/

/-- The session leaves the blob's entry, and an entry without sessions goes. -/
def removeSession [DecidableEq Hash] (hash : Hash) (id : Nat) : State Hash :=
  match s.map hash with
  | some entry =>
    let sessions := entry.sessions.filter (· ≠ id)
    let entry := if sessions = [] then none else some { entry with sessions }
    { s with map := Function.update s.map hash entry }
  | none => s

/-- The last observer leaves: the pull is cancelled unless it ended, and its handle goes to the
caller. -/
def lastOut [DecidableEq Hash] (hash : Hash) (id : Nat) : State Hash × Option Nat :=
  let session := s.sessions id
  let s := s.removeSession hash id
  ({ s.setSession id { session with
      cancelled := session.cancelled || session.ended.isNone, pullThread := none } with
      joined := s.joined ++ session.pullThread.toList },
    session.pullThread)

/-- `ObserverLease::teardown`, of `release` and of `drop`. -/
def teardown [DecidableEq Hash] (lease : Nat) : State Hash × Option Nat :=
  match s.leases[lease]? with
  | some l =>
    if l.armed then
      let session := s.sessions l.session
      let s := { s.setSession l.session { session with observers := session.observers - 1 } with
        leases := s.leases.set lease { l with armed := false } }
      if session.observers ≠ 1 then (s, none) else s.lastOut l.hash l.session
    else (s, none)
  | none => (s, none)

/-! ## Demand -/

/-- A change of all the sessions that the registry lists for a blob. -/
def mapListed (hash : Hash) (f : FillSession Hash → FillSession Hash) : State Hash :=
  { s with sessions := fun id => if id ∈ s.listed hash then f (s.sessions id) else s.sessions id }

/-- `DemandSlot::stand`, of a slot that was minted by the session. -/
def stand (id slot stop : Nat) : State Hash :=
  let stop := min stop (s.sessions id).outboard.totalBytes
  match (s.sessions id).hash with
  | some hash =>
    if stop = 0 then s.mapListed hash fun session => session.withdraw slot
    else s.mapListed hash fun session => session.routeOwnDemand slot (stop - 1) stop
  | none => s

/-- `DemandSlot::withdraw`, also of its drop. -/
def withdrawDemand (id slot : Nat) : State Hash :=
  match (s.sessions id).hash with
  | some hash => s.mapListed hash fun session => session.withdraw slot
  | none => s

end State

/-! ## What a request spans -/

/-- The bytes of a set of chunks without a gap. -/
theorem contiguousByteSpan_eq_some {ranges : Finset Nat} {total offset len : Nat}
    (hfits : total ≤ u64Max) (hwithin : ∀ c ∈ ranges, c * chunkBytes < total)
    (h : contiguousByteSpan ranges total = some (offset, len)) (byte : Nat) :
    (offset ≤ byte ∧ byte < offset + len) ↔ byte < total ∧ byte / chunkBytes ∈ ranges := by
  unfold contiguousByteSpan at h
  split at h
  · rename_i hne
    have hmin := hwithin _ (Finset.min'_mem ranges hne)
    have hmax := hwithin _ (Finset.max'_mem ranges hne)
    have hle := Finset.min'_le_max' ranges hne
    generalize ranges.min' hne = start at *
    generalize ranges.max' hne = last at *
    simp only at h
    split at h
    · rename_i hspan
      unfold saturatingMul chunkBytes at *
      rw [hspan, Finset.mem_Ico]
      simp only [Option.some.injEq, Prod.mk.injEq] at h
      generalize u64Max = bound at *
      omega
    · cases h
  · cases h

theorem chunksOf_pair (start stop c : Nat) :
    c ∈ chunksOf [start, stop] ↔ start ≤ c ∧ c < stop := by
  change c ∈ Finset.Ico start stop ∪ ∅ ↔ _
  rw [Finset.union_empty, Finset.mem_Ico]

/-- A request inside a blob is aligned, any other is not. -/
theorem requested_cases {total : Nat} (hfits : total ≤ u64Max) (offset len : Nat) :
    (total ≤ offset ∧ (requested offset len total).1 = ∅) ∨
      offset < total ∧ ∃ r : AlignedRange,
        r.Covers total (offset / chunkGroupBytes)
          (divCeil (if len = 0 then total else min (offset + len) total) chunkGroupBytes) ∧
        requested offset len total = (chunksOf r.chunkRanges, r.fetchStart) := by
  by_cases hin : offset < total
  · have hinside : startsOutside offset len total = false := by
      unfold startsOutside
      rw [if_neg (by omega), decide_eq_false_iff_not]
      omega
    have haligned : ∃ r, alignRangeClamped offset len total = .ok r := by
      unfold alignRangeClamped
      rw [hinside, if_neg Bool.false_ne_true]
      split
      · exact ⟨_, rfl⟩
      · split <;> exact ⟨_, rfl⟩
    rcases haligned with ⟨r, hr⟩
    refine .inr ⟨hin, r, aligned_shape (by omega) hfits (.inr hr), ?_⟩
    unfold requested
    rw [hr]
  · refine .inl ⟨Nat.le_of_not_lt hin, ?_⟩
    unfold requested
    split
    · rename_i r hr
      unfold alignRangeClamped at hr
      split at hr
      · cases hr
      · rename_i hinside
        rw [Bool.not_eq_true] at hinside
        unfold startsOutside at hinside
        split at hinside
        · rename_i hzero
          rw [decide_eq_false_iff_not, not_or, not_not, not_not] at hinside
          rw [if_pos hinside.2] at hr
          cases hr
          subst hzero
          rfl
        · rw [decide_eq_false_iff_not] at hinside
          omega
    · rfl

/-- A request spans the chunks of the chunk groups that hold its bytes. -/
theorem mem_requested {total : Nat} (hfits : total ≤ u64Max) (offset len c : Nat) :
    c ∈ (requested offset len total).1 ↔
      offset < total ∧ offset / chunkGroupBytes ≤ c / groupChunks ∧ c * chunkBytes < total ∧
        c / groupChunks * chunkGroupBytes <
          if len = 0 then total else min (offset + len) total := by
  rcases requested_cases hfits offset len with ⟨hout, hempty⟩ | ⟨hin, r, hcovers, hrequested⟩
  · rw [hempty]
    exact ⟨fun hc => absurd hc (Finset.notMem_empty c), fun hc => absurd hc.1 (Nat.not_lt.mpr hout)⟩
  · rw [hrequested, hcovers.chunkRanges_eq, chunksOf_pair]
    have hstop : (if len = 0 then total else min (offset + len) total) ≤ total := by
      split
      · exact Nat.le_refl _
      · exact Nat.min_le_right _ _
    generalize (if len = 0 then total else min (offset + len) total) = stop at *
    unfold boundary divCeil groupChunks chunkGroupBytes chunkBytes
    omega

/-! ## What a claim decides -/

namespace State

variable (s : State Hash) (r : Finset Nat) (fetchStart : Nat)

/-- A pull that a claim may count on covers the chunk. -/
def Reached (hash : Hash) (c : Nat) : Prop :=
  ∃ id ∈ s.listed hash, s.eligible fetchStart id = true ∧ c ∈ (s.sessions id).covered

/-- What the loop knows after it has seen some sessions. -/
structure Scanned (ids : List Nat) (scan : Scan) : Prop where
  union : ∀ c, c ∈ scan.coveredUnion ↔
    ∃ id ∈ ids, s.eligible fetchStart id = true ∧ c ∈ (s.sessions id).covered
  found : ∀ best ∈ scan.best, best.1 ∈ ids ∧ s.eligible fetchStart best.1 = true ∧
    best.2.1 = (s.sessions best.1).covered ∧ best.2.2 = (r ∩ (s.sessions best.1).covered).card ∧
    r ∩ (s.sessions best.1).covered ≠ ∅
  largest : ∀ id ∈ ids, s.eligible fetchStart id = true → r ∩ (s.sessions id).covered ≠ ∅ →
    ∃ best ∈ scan.best, (r ∩ (s.sessions id).covered).card ≤ best.2.2

variable {s r fetchStart}

theorem scanned_step {ids : List Nat} {scan : Scan} (h : s.Scanned r fetchStart ids scan)
    (id : Nat) : s.Scanned r fetchStart (ids ++ [id]) (s.scanSession r fetchStart scan id) := by
  unfold scanSession
  by_cases heligible : s.eligible fetchStart id = true
  · rw [if_pos heligible]
    refine ⟨fun c => ?_, ?_, ?_⟩
    · simp only [Finset.mem_union, h.union, List.mem_append, List.mem_singleton, or_and_right,
        exists_or, exists_eq_left, heligible, true_and]
    · intro best hbest
      dsimp only at hbest
      split at hbest
      · rename_i hnew
        rcases Option.some.inj hbest with rfl
        exact ⟨List.mem_append_right _ (List.mem_singleton_self id), heligible, rfl, rfl, hnew.1⟩
      · rcases h.found best hbest with ⟨hmem, hrest⟩
        exact ⟨List.mem_append_left _ hmem, hrest⟩
    · intro other hother hreaches hne
      dsimp only
      rcases List.mem_append.mp hother with hold | hnew
      · rcases h.largest other hold hreaches hne with ⟨best, hbest, hle⟩
        split
        · rename_i hbetter
          exact ⟨_, rfl, hle.trans (Nat.le_of_lt (hbetter.2 best hbest))⟩
        · exact ⟨best, hbest, hle⟩
      · rcases List.mem_singleton.mp hnew with rfl
        split
        · exact ⟨_, rfl, Nat.le_refl _⟩
        · rename_i hworse
          have hnone := not_and.mp hworse hne
          push Not at hnone
          exact hnone
  · rw [if_neg heligible]
    refine ⟨fun c => ?_, fun best hbest => ?_, fun other hother hreaches hne => ?_⟩
    · rw [h.union]
      constructor
      · rintro ⟨other, hother, hrest⟩
        exact ⟨other, List.mem_append_left _ hother, hrest⟩
      · rintro ⟨other, hother, hreaches, hc⟩
        rcases List.mem_append.mp hother with hold | hnew
        · exact ⟨other, hold, hreaches, hc⟩
        · rw [List.mem_singleton.mp hnew] at hreaches
          exact absurd hreaches heligible
    · rcases h.found best hbest with ⟨hmem, hrest⟩
      exact ⟨List.mem_append_left _ hmem, hrest⟩
    · rcases List.mem_append.mp hother with hold | hnew
      · exact h.largest other hold hreaches hne
      · rw [List.mem_singleton.mp hnew] at hreaches
        exact absurd hreaches heligible

theorem scanned (s : State Hash) (r : Finset Nat) (fetchStart : Nat) (ids : List Nat) :
    s.Scanned r fetchStart ids (ids.foldl (s.scanSession r fetchStart) {}) := by
  induction ids using List.reverseRecOn with
  | nil =>
    refine ⟨fun c => ?_, ?_, ?_⟩
    · simp
    · intro best hbest
      cases hbest
    · intro id hid
      cases hid
  | append_singleton ids id ih =>
    rw [List.foldl_append]
    exact scanned_step ih id

/-- What each plan says about the pulls that a claim may count on. -/
inductive Planned (s : State Hash) (hash : Hash) (r : Finset Nat) (fetchStart total : Nat) :
    Plan → Prop
  | attach {sibling : Nat} (hlisted : sibling ∈ s.listed hash)
      (heligible : s.eligible fetchStart sibling = true)
      (hoverlap : r ∩ (s.sessions sibling).covered ≠ ∅)
      (hlargest : ∀ id ∈ s.listed hash, s.eligible fetchStart id = true →
        (r ∩ (s.sessions id).covered).card ≤ (r ∩ (s.sessions sibling).covered).card)
      (hreached : ∀ c ∈ r, s.Reached fetchStart hash c) :
      Planned s hash r fetchStart total (.attach sibling)
  | mixed {sibling offset len : Nat} (hlisted : sibling ∈ s.listed hash)
      (heligible : s.eligible fetchStart sibling = true)
      (hoverlap : r ∩ (s.sessions sibling).covered ≠ ∅)
      (hapart : ∀ c ∈ r \ (s.sessions sibling).covered, ¬ s.Reached fetchStart hash c)
      (hspan : contiguousByteSpan (r \ (s.sessions sibling).covered) total = some (offset, len)) :
      Planned s hash r fetchStart total
        (.mixed sibling (r \ (s.sessions sibling).covered) offset len)
  | own : Planned s hash r fetchStart total .own

/-- What the outcomes of a claim say about the live pulls. -/
theorem plan_cases (s : State Hash) (hash : Hash) (r : Finset Nat) (fetchStart total : Nat) :
    Planned s hash r fetchStart total (s.plan hash r fetchStart total) := by
  have hscan := scanned s r fetchStart (s.listed hash)
  unfold plan
  generalize (s.listed hash).foldl (s.scanSession r fetchStart) {} = scan at *
  split
  · dsimp only
    split
    · rename_i sibling covered span hbest
      rcases hscan.found _ hbest with ⟨hlisted, heligible, hcovered, hspan, hoverlap⟩
      dsimp only at hlisted heligible hcovered hspan hoverlap
      subst hcovered hspan
      split
      · split
        · rename_i hrest
          refine .attach hlisted heligible hoverlap (fun id hid hreaches => ?_) fun c hc => ?_
          · by_cases hne : r ∩ (s.sessions id).covered = ∅
            · rw [hne]
              exact Nat.zero_le _
            · rcases hscan.largest id hid hreaches hne with ⟨best, hmem, hle⟩
              rcases Option.some.inj (hbest.symm.trans hmem) with rfl
              exact hle
          · exact (hscan.union c).mp (Finset.sdiff_eq_empty_iff_subset.mp hrest hc)
        · split
          · rename_i hinside
            split
            · rename_i offset len hspan
              refine .mixed hlisted heligible hoverlap (fun c hc hreached => ?_) hspan
              rcases Finset.mem_sdiff.mp hc with ⟨hr, hout⟩
              have hmem := Finset.mem_inter.mpr ⟨hr, (hscan.union c).mpr hreached⟩
              exact hout (Finset.sdiff_eq_empty_iff_subset.mp hinside hmem)
            · exact .own
          · exact .own
      · exact .own
    · exact .own
  · exact .own

/-- A request that one pull covers attaches, to a pull that covers it. -/
theorem plan_of_covered {hash : Hash} {id : Nat} (total : Nat) (hne : r ≠ ∅)
    (hlisted : id ∈ s.listed hash) (heligible : s.eligible fetchStart id = true)
    (hcovers : r ⊆ (s.sessions id).covered) :
    ∃ sibling, s.plan hash r fetchStart total = .attach sibling ∧
      r ⊆ (s.sessions sibling).covered := by
  have hscan := scanned s r fetchStart (s.listed hash)
  have hinter : r ∩ (s.sessions id).covered = r := Finset.inter_eq_left.mpr hcovers
  rcases hscan.largest id hlisted heligible (by rwa [hinter]) with ⟨best, hbest, hle⟩
  rcases hscan.found best hbest with ⟨hin, hreaches, hcovered, hspan, -⟩
  rw [hinter, hspan] at hle
  have hwhole := Finset.eq_of_subset_of_card_le Finset.inter_subset_left hle
  have hsubset : r ⊆ ((s.listed hash).foldl (s.scanSession r fetchStart) {}).coveredUnion :=
    fun c hc => (hscan.union c).mpr ⟨id, hlisted, heligible, hcovers hc⟩
  refine ⟨best.1, ?_, Finset.inter_eq_left.mp hwhole⟩
  unfold plan
  rw [if_pos hne]
  dsimp only
  rw [Option.mem_def.mp hbest]
  dsimp only
  rw [if_pos (by rwa [Finset.inter_eq_left.mpr hsubset]),
    if_pos (Finset.sdiff_eq_empty_iff_subset.mpr hsubset)]

end State

end Decdn.FillRegistry
