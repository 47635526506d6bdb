import Decdn.Foundations.Runs
import Decdn.Foundations.Words
import Mathlib.Data.List.Nodup
import Mathlib.Algebra.Order.Group.Int
import Mathlib.Order.MinMax
import Mathlib.Algebra.Order.Group.Multiset
import Mathlib.Tactic.Abel

/-!
# The warming allowance

The ledger of `crates/node/src/warming_allowance.rs`: one bucket for each source
of speculative buys, refilled by time, debited by buys and credited by serves.  A
serve binds its credit to the source tagged on the hash and queues it; one
aggregator applies the queue.  The bucket lock makes each ledger operation one
step, except that a debit publishes its tag first: a serve may read the tag before
the debit is booked.

The clock counts nanoseconds.  A refill reads it twice, for the time elapsed and
for the new stamp.

Main results:

- Theorem `Bounded.step`: every bucket stays between the two budgets.
- Theorem `Traced.step`: what every queued, applied or dropped credit goes back to.
- Theorem `projectedRemaining_refill`: a read that is a whole number of seconds away
  changes no later reading.
- Theorem `ledger_of_harmless_reads`: runs whose extra reads are such.
- Theorem `polling_starves_refill`: a source that is polled more often stays blocked.
-/

namespace Decdn.Node.Warming

/-! ## Machine integers -/

def i64Max : Int := 9223372036854775807
def i64Min : Int := -9223372036854775808

/-- `i64::saturating_add`. -/
def saturatingAdd (a b : Int) : Int := max i64Min (min i64Max (a + b))

/-- `i64::saturating_sub`. -/
def saturatingSub (a b : Int) : Int := max i64Min (min i64Max (a - b))

/-- `i64::try_from(n).unwrap_or(i64::MAX)`. -/
def toI64 (n : Nat) : Int := if (n : Int) ≤ i64Max then n else i64Max

/-! ## The ledger -/

/-- The configuration of `WarmingAllowance::new`. -/
structure Config where
  budget : UInt64
  refillPerSec : UInt64

/-- The budget as the ledger keeps it. -/
def Config.cap (C : Config) : Int := toI64 C.budget.toNat

/-- `enabled`. -/
def Config.enabled (C : Config) : Bool := decide (0 < C.cap)

/-- One source's allowance and the stamp of its last refill. -/
structure Bucket where
  remaining : Int
  last : Nat
deriving DecidableEq

def nanosPerSec : Nat := 1000000000

/-- `projected_remaining`: the allowance with its refill up to `now`. -/
def projectedRemaining (C : Config) (b : Bucket) (now : Nat) : Int :=
  let elapsedSecs := (now - b.last) / nanosPerSec
  let refill := min u64Max (C.refillPerSec.toNat * elapsedSecs)
  min (saturatingAdd b.remaining (toI64 refill)) C.cap

/-- `refill`: the elapsed time is read at `now`, the new stamp at `later`. -/
def refill (C : Config) (b : Bucket) (now later : Nat) : Bucket :=
  ⟨projectedRemaining C b now, later⟩

/-- The bucket of a source, made full if there is none. -/
def entry (C : Config) (now : Nat) : Option Bucket → Bucket
  | some b => b
  | none => ⟨C.cap, now⟩

/-- The bucket after a debit. -/
def debited (C : Config) (b : Option Bucket) (units : Nat) (now later : Nat) : Bucket :=
  let b := refill C (entry C now b) now later
  { b with remaining := max (saturatingSub b.remaining (toI64 units)) (-C.cap) }

/-- The bucket after a credit. -/
def credited (C : Config) (b : Option Bucket) (units : Nat) (now later : Nat) : Bucket :=
  let b := refill C (entry C now b) now later
  { b with remaining := min (saturatingAdd b.remaining (toI64 units)) C.cap }

/-! ## The system -/

/-- A speculative buy that is charged to a source. -/
structure Debit (Source Hash : Type*) where
  source : Source
  hash : Hash
  units : Nat

/-- A serve's credit.  The serial is that of the debit whose tag it read. -/
structure Credit (Source Hash : Type*) where
  id : Nat
  source : Source
  hash : Hash
  units : Nat
  serial : Nat

variable {Source Hash : Type*} [DecidableEq Source] [DecidableEq Hash]

/-- The ledger, the tags, the credits on their way, and the history. -/
structure State (Source Hash : Type*) where
  now : Nat := 0
  buckets : Source → Option Bucket := fun _ => none
  /-- The source tagged on each hash, and the debit that published the tag. -/
  sourceOf : Hash → Option (Source × Nat) := fun _ => none
  /-- The debit that holds the bucket lock: its tag is out, its units are not booked. -/
  debiting : Option (Debit Source Hash) := none
  /-- Serves that have read their tag and not yet sent. -/
  pending : List (Credit Source Hash) := []
  queue : List (Credit Source Hash) := []
  /-- The credit the aggregator has received and not yet applied. -/
  applying : Option (Credit Source Hash) := none
  debits : List (Debit Source Hash) := []
  served : List (Credit Source Hash) := []
  sent : List (Credit Source Hash) := []
  applied : List (Credit Source Hash) := []
  dropped : List (Credit Source Hash) := []

def creditCapacity : Nat := 1024

/-- `available`, the answer at `now`. -/
def State.availableAt (s : State Source Hash) (C : Config) (source : Source) (now : Nat) : Bool :=
  if C.enabled then
    match s.buckets source with
    | some b => decide (0 < projectedRemaining C b now)
    | none => true
  else false

/-- A source that `blocked_source_count` counts at `now`. -/
def State.blockedAt (s : State Source Hash) (C : Config) (source : Source) (now : Nat) : Bool :=
  C.enabled &&
    match s.buckets source with
    | some b => decide (projectedRemaining C b now ≤ 0)
    | none => false

/-- The events.  Ledger operations carry the two readings of the clock. -/
inductive Event (Source Hash : Type*) where
  | available (source : Source) (now later : Nat)
  | beginDebit (source : Source) (hash : Hash) (units : Nat)
  | commitDebit (now later : Nat)
  | serve (hash : Hash) (units : Nat)
  | trySend (k : Nat) (closed : Bool)
  | recv
  | applyCredit (now later : Nat)
  | forget (hash : Hash)

/-- A ledger operation: the lock is free and the clock has not run back. -/
def State.ready (s : State Source Hash) (now later : Nat) : Bool :=
  s.debiting.isNone && decide (s.now ≤ now ∧ now ≤ later)

/-- `available`, the write it makes: a source that has a bucket is refilled. -/
def touched (C : Config) (buckets : Source → Option Bucket) (source : Source) (now later : Nat) :
    Source → Option Bucket :=
  if C.enabled then
    match buckets source with
    | some b => Function.update buckets source (some (refill C b now later))
    | none => buckets
  else buckets

def State.touch (s : State Source Hash) (C : Config) (source : Source) (now later : Nat) :
    State Source Hash :=
  { s with now := later, buckets := touched C s.buckets source now later }

/-- `debit_speculative` up to the tag. -/
def State.publish (s : State Source Hash) (d : Debit Source Hash) : State Source Hash :=
  { s with
    sourceOf := Function.update s.sourceOf d.hash (some (d.source, s.debits.length))
    debiting := some d
    debits := s.debits ++ [d] }

/-- `debit_speculative`, the ledger's half. -/
def State.book (s : State Source Hash) (C : Config) (d : Debit Source Hash) (now later : Nat) :
    State Source Hash :=
  { s with
    now := later
    buckets := Function.update s.buckets d.source
      (some (debited C (s.buckets d.source) d.units now later))
    debiting := none }

/-- `ChannelWarmingCreditSink::credit` up to the tag's source. -/
def State.resolve (s : State Source Hash) (hash : Hash) (units : Nat) : State Source Hash :=
  match s.sourceOf hash with
  | some (source, serial) =>
    let c : Credit Source Hash := ⟨s.served.length, source, hash, units, serial⟩
    { s with pending := s.pending ++ [c], served := s.served ++ [c] }
  | none => s

/-- `try_send`: a full or closed queue drops the credit. -/
def State.trySend (s : State Source Hash) (k : Nat) (c : Credit Source Hash) (closed : Bool) :
    State Source Hash :=
  if closed ∨ creditCapacity ≤ s.queue.length then
    { s with pending := s.pending.eraseIdx k, dropped := s.dropped ++ [c] }
  else
    { s with pending := s.pending.eraseIdx k, queue := s.queue ++ [c], sent := s.sent ++ [c] }

/-- `credit_source`. -/
def State.credit (s : State Source Hash) (C : Config) (c : Credit Source Hash)
    (now later : Nat) : State Source Hash :=
  { s with
    now := later
    buckets := Function.update s.buckets c.source
      (some (credited C (s.buckets c.source) c.units now later))
    applying := none
    applied := s.applied ++ [c] }

/-- One event, or `none` where it cannot happen. -/
def State.apply (C : Config) (s : State Source Hash) : Event Source Hash →
    Option (State Source Hash)
  | .available source now later =>
    if s.ready now later then some (s.touch C source now later) else none
  | .beginDebit source hash units =>
    if s.debiting.isNone then some (s.publish ⟨source, hash, units⟩) else none
  | .commitDebit now later =>
    match s.debiting with
    | some d => if s.now ≤ now ∧ now ≤ later then some (s.book C d now later) else none
    | none => none
  | .serve hash units => some (s.resolve hash units)
  | .trySend k closed => (s.pending[k]?).map fun c => s.trySend k c closed
  | .recv =>
    match s.applying, s.queue with
    | none, c :: rest => some { s with queue := rest, applying := some c }
    | _, _ => none
  | .applyCredit now later =>
    match s.applying with
    | some c => if s.ready now later then some (s.credit C c now later) else none
    | none => none
  | .forget hash => some { s with sourceOf := Function.update s.sourceOf hash none }

/-- The step relation. -/
def Step (C : Config) (s : State Source Hash) (e : Event Source Hash) (t : State Source Hash) :
    Prop :=
  s.apply C e = some t

variable {C : Config} {s t : State Source Hash} {e : Event Source Hash}

/-! ## Inversion -/

/-- What a step does. -/
inductive Move (C : Config) (s : State Source Hash) : Event Source Hash → State Source Hash → Prop
    where
  | read (source : Source) (now later : Nat) (hlock : s.debiting = none) (hnow : s.now ≤ now)
      (hlater : now ≤ later) : Move C s (.available source now later) (s.touch C source now later)
  | published (d : Debit Source Hash) (hlock : s.debiting = none) :
      Move C s (.beginDebit d.source d.hash d.units) (s.publish d)
  | booked (d : Debit Source Hash) (now later : Nat) (hlock : s.debiting = some d)
      (hnow : s.now ≤ now) (hlater : now ≤ later) :
      Move C s (.commitDebit now later) (s.book C d now later)
  | resolved (hash : Hash) (units : Nat) (source : Source) (serial : Nat)
      (htag : s.sourceOf hash = some (source, serial)) :
      Move C s (.serve hash units) { s with
        pending := s.pending ++ [⟨s.served.length, source, hash, units, serial⟩]
        served := s.served ++ [⟨s.served.length, source, hash, units, serial⟩] }
  | untagged (hash : Hash) (units : Nat) (htag : s.sourceOf hash = none) :
      Move C s (.serve hash units) s
  | dropped (k : Nat) (closed : Bool) (c : Credit Source Hash) (hc : s.pending[k]? = some c) :
      Move C s (.trySend k closed) { s with
        pending := s.pending.eraseIdx k, dropped := s.dropped ++ [c] }
  | sent (k : Nat) (closed : Bool) (c : Credit Source Hash) (hc : s.pending[k]? = some c) :
      Move C s (.trySend k closed) { s with
        pending := s.pending.eraseIdx k, queue := s.queue ++ [c], sent := s.sent ++ [c] }
  | received (c : Credit Source Hash) (rest : List (Credit Source Hash))
      (hidle : s.applying = none) (hqueue : s.queue = c :: rest) :
      Move C s .recv { s with queue := rest, applying := some c }
  | credited (c : Credit Source Hash) (now later : Nat) (hc : s.applying = some c)
      (hlock : s.debiting = none) (hnow : s.now ≤ now) (hlater : now ≤ later) :
      Move C s (.applyCredit now later) (s.credit C c now later)
  | forgot (hash : Hash) :
      Move C s (.forget hash) { s with sourceOf := Function.update s.sourceOf hash none }

omit [DecidableEq Source] [DecidableEq Hash] in
theorem ready_cases {now later : Nat} (h : s.ready now later = true) :
    s.debiting = none ∧ s.now ≤ now ∧ now ≤ later := by
  simp only [State.ready, Bool.and_eq_true, Option.isNone_iff_eq_none, decide_eq_true_eq] at h
  exact h

theorem Step.move (h : Step C s e t) : Move C s e t := by
  unfold Step State.apply at h
  split at h
  · split at h
    · rename_i hready
      rcases ready_cases hready with ⟨hlock, hnow, hlater⟩
      rcases Option.some.inj h with rfl
      exact .read _ _ _ hlock hnow hlater
    · cases h
  · rename_i source hash units
    split at h
    · rename_i hlock
      rcases Option.some.inj h with rfl
      exact .published ⟨source, hash, units⟩ (Option.isNone_iff_eq_none.mp hlock)
    · cases h
  · split at h
    · rename_i d hd
      split at h
      · rename_i htime
        rcases Option.some.inj h with rfl
        exact .booked d _ _ hd htime.1 htime.2
      · cases h
    · cases h
  · rcases Option.some.inj h with rfl
    unfold State.resolve
    split
    · rename_i source serial htag
      exact .resolved _ _ source serial htag
    · rename_i htag
      exact .untagged _ _ htag
  · rcases Option.map_eq_some_iff.mp h with ⟨c, hc, rfl⟩
    unfold State.trySend
    split
    · exact .dropped _ _ c hc
    · exact .sent _ _ c hc
  · split at h
    · rename_i c rest hidle hqueue
      rcases Option.some.inj h with rfl
      exact .received c rest hidle hqueue
    · cases h
  · split at h
    · rename_i c hc
      split at h
      · rename_i hready
        rcases ready_cases hready with ⟨hlock, hnow, hlater⟩
        rcases Option.some.inj h with rfl
        exact .credited c _ _ hc hlock hnow hlater
      · cases h
    · cases h
  · rcases Option.some.inj h with rfl
    exact .forgot _

/-! ## Bounds -/

theorem toI64_eq (n : Nat) : toI64 n = min (n : Int) i64Max := by
  unfold toI64
  split <;> omega

theorem cap_nonneg (C : Config) : 0 ≤ C.cap := by
  unfold Config.cap
  rw [toI64_eq]
  unfold i64Max
  omega

theorem cap_le (C : Config) : C.cap ≤ i64Max := by
  unfold Config.cap
  rw [toI64_eq]
  exact Int.min_le_right _ _

/-- The allowance is between the two budgets. -/
def Bucket.Within (C : Config) (b : Bucket) : Prop :=
  -C.cap ≤ b.remaining ∧ b.remaining ≤ C.cap

/-- Within the bounds nothing saturates but the refill itself. -/
theorem projectedRemaining_eq {b : Bucket} (hb : b.Within C) (now : Nat) :
    projectedRemaining C b now =
      min (b.remaining +
        min i64Max ((C.refillPerSec.toNat * ((now - b.last) / nanosPerSec) : Nat) : Int)) C.cap := by
  have hcap := cap_le C
  have hpos := cap_nonneg C
  rcases hb with ⟨hlow, hhigh⟩
  unfold projectedRemaining saturatingAdd
  dsimp only
  rw [toI64_eq]
  unfold i64Max i64Min u64Max at *
  omega

theorem projectedRemaining_within {b : Bucket} (hb : b.Within C) (now : Nat) :
    -C.cap ≤ projectedRemaining C b now ∧ projectedRemaining C b now ≤ C.cap := by
  have hpos := cap_nonneg C
  rw [projectedRemaining_eq hb]
  rcases hb with ⟨hlow, hhigh⟩
  unfold i64Max
  omega

theorem entry_within {b : Option Bucket} (hb : ∀ b' ∈ b, b'.Within C) (now : Nat) :
    (entry C now b).Within C := by
  cases b with
  | some b' => exact hb b' rfl
  | none =>
    have hpos := cap_nonneg C
    exact ⟨by dsimp only [entry]; omega, Int.le_refl _⟩

theorem debited_within {b : Option Bucket} (hb : ∀ b' ∈ b, b'.Within C) (units now later : Nat) :
    (debited C b units now later).Within C := by
  have hcap := cap_le C
  have hpos := cap_nonneg C
  have hproj := projectedRemaining_within (entry_within hb now) now
  unfold debited refill Bucket.Within saturatingSub
  dsimp only
  rw [toI64_eq]
  unfold i64Max i64Min at *
  omega

theorem credited_within {b : Option Bucket} (hb : ∀ b' ∈ b, b'.Within C) (units now later : Nat) :
    (credited C b units now later).Within C := by
  have hcap := cap_le C
  have hpos := cap_nonneg C
  have hproj := projectedRemaining_within (entry_within hb now) now
  unfold credited refill Bucket.Within saturatingAdd
  dsimp only
  rw [toI64_eq]
  unfold i64Max i64Min at *
  omega

/-- Every bucket is within the bounds, and stamped in the past. -/
def Bounded (C : Config) (s : State Source Hash) : Prop :=
  ∀ source, ∀ b ∈ s.buckets source, b.Within C ∧ b.last ≤ s.now

omit [DecidableEq Hash] in
/-- A write to one bucket. -/
theorem Bounded.update (hs : Bounded C s) {source : Source} {b : Bucket} {later : Nat}
    (hb : b.Within C) (hlast : b.last = later) (hlater : s.now ≤ later)
    (hbuckets : t.buckets = Function.update s.buckets source (some b)) (hnow : t.now = later) :
    Bounded C t := by
  intro other b' hb'
  rw [hbuckets] at hb'
  rw [hnow]
  rcases eq_or_ne other source with rfl | hne
  · rw [Function.update_self] at hb'
    rcases Option.some.inj hb' with rfl
    exact ⟨hb, Nat.le_of_eq hlast⟩
  · rw [Function.update_of_ne hne] at hb'
    rcases hs other b' hb' with ⟨hwithin, hpast⟩
    exact ⟨hwithin, Nat.le_trans hpast hlater⟩

omit [DecidableEq Source] [DecidableEq Hash] in
/-- A step that leaves the buckets alone. -/
theorem Bounded.congr (hs : Bounded C s) (hbuckets : t.buckets = s.buckets) (hnow : s.now ≤ t.now) :
    Bounded C t := by
  intro source b hb
  rw [hbuckets] at hb
  rcases hs source b hb with ⟨hwithin, hpast⟩
  exact ⟨hwithin, Nat.le_trans hpast hnow⟩

omit [DecidableEq Hash] in
theorem Bounded.touch (hs : Bounded C s) (source : Source) {now later : Nat} (hnow : s.now ≤ now)
    (hlater : now ≤ later) : Bounded C (s.touch C source now later) := by
  unfold State.touch touched
  split
  · split
    · rename_i b hb
      exact hs.update (b := refill C b now later)
        (projectedRemaining_within (hs source b hb).1 now) rfl (Nat.le_trans hnow hlater) rfl rfl
    · exact hs.congr rfl (Nat.le_trans hnow hlater)
  · exact hs.congr rfl (Nat.le_trans hnow hlater)

/-- Every step keeps the buckets within their bounds. -/
theorem Bounded.step (hs : Bounded C s) (h : Step C s e t) : Bounded C t := by
  have hwithin : ∀ source, ∀ b ∈ s.buckets source, b.Within C := fun source b hb =>
    (hs source b hb).1
  cases h.move with
  | read source now later hlock hnow hlater => exact hs.touch source hnow hlater
  | booked d now later hlock hnow hlater =>
    exact hs.update (debited_within (hwithin d.source) _ _ _) rfl (Nat.le_trans hnow hlater) rfl rfl
  | credited c now later hc hlock hnow hlater =>
    exact hs.update (credited_within (hwithin c.source) _ _ _) rfl (Nat.le_trans hnow hlater)
      rfl rfl
  | published d hlock => exact hs.congr rfl (Nat.le_refl _)
  | resolved hash units source serial htag => exact hs.congr rfl (Nat.le_refl _)
  | untagged hash units htag => exact hs
  | dropped k closed c hc => exact hs.congr rfl (Nat.le_refl _)
  | sent k closed c hc => exact hs.congr rfl (Nat.le_refl _)
  | received c rest hidle hqueue => exact hs.congr rfl (Nat.le_refl _)
  | forgot hash => exact hs.congr rfl (Nat.le_refl _)

/-! ## Credits -/

/-- The debits that are booked. -/
def State.committed (s : State Source Hash) : Nat :=
  s.debits.length - s.debiting.toList.length

/-- Where every credit is, and the debit it goes back to. -/
structure Traced (s : State Source Hash) : Prop where
  tags : ∀ hash source serial, s.sourceOf hash = some (source, serial) →
    ∃ d, s.debits[serial]? = some d ∧ d.source = source ∧ d.hash = hash
  origin : ∀ c ∈ s.served, ∃ d, s.debits[c.serial]? = some d ∧ d.source = c.source ∧
    d.hash = c.hash
  ids : s.served.map Credit.id = List.range s.served.length
  places : (s.applied ++ s.applying.toList ++ s.queue ++ s.pending ++ s.dropped).Perm s.served
  fifo : s.sent = s.applied ++ s.applying.toList ++ s.queue
  booked : ∀ c ∈ s.applied, c.serial < s.committed

omit [DecidableEq Source] [DecidableEq Hash] in
theorem Traced.init : Traced ({} : State Source Hash) where
  tags := fun _ _ _ h => nomatch h
  origin := fun _ h => absurd h List.not_mem_nil
  ids := rfl
  places := List.Perm.refl _
  fifo := rfl
  booked := fun _ h => absurd h List.not_mem_nil

omit [DecidableEq Source] [DecidableEq Hash] in
/-- A debit that was there stays where it was. -/
theorem getElem?_append_of_some {l l' : List (Debit Source Hash)} {n : Nat}
    {d : Debit Source Hash} (h : l[n]? = some d) : (l ++ l')[n]? = some d := by
  rw [List.getElem?_append_left (List.getElem?_eq_some_iff.mp h).1, h]

omit [DecidableEq Source] [DecidableEq Hash] in
/-- The credit leaves its place among the pending ones. -/
theorem pending_perm {l : List (Credit Source Hash)} {k : Nat} {c : Credit Source Hash}
    (h : l[k]? = some c) : (c :: l.eraseIdx k).Perm l := by
  rcases List.getElem?_eq_some_iff.mp h with ⟨hlt, rfl⟩
  exact List.getElem_cons_eraseIdx_perm hlt

/-- Every step keeps the trail of the credits. -/
theorem Traced.step (hs : Traced s) (h : Step C s e t) : Traced t := by
  rcases hs with ⟨htags, horigin, hids, hplaces, hfifo, hbooked⟩
  cases h.move with
  | read source now later hfree hnow hlater =>
    exact ⟨htags, horigin, hids, hplaces, hfifo, hbooked⟩
  | published d hfree =>
    refine ⟨?_, ?_, hids, hplaces, hfifo, ?_⟩
    · intro hash source serial htag
      simp only [State.publish] at htag ⊢
      rcases eq_or_ne hash d.hash with rfl | hne
      · rw [Function.update_self] at htag
        rcases Prod.mk.inj (Option.some.inj htag) with ⟨rfl, rfl⟩
        exact ⟨d, by simp, rfl, rfl⟩
      · rw [Function.update_of_ne hne] at htag
        rcases htags hash source serial htag with ⟨d', hd', hrest⟩
        exact ⟨d', getElem?_append_of_some hd', hrest⟩
    · intro c hc
      rcases horigin c hc with ⟨d', hd', hrest⟩
      exact ⟨d', getElem?_append_of_some hd', hrest⟩
    · intro c hc
      have hlt := hbooked c hc
      simp only [State.committed, State.publish, hfree, Option.toList_none, Option.toList_some,
        List.length_append, List.length_nil, List.length_singleton] at hlt ⊢
      omega
  | booked d now later hheld hnow hlater =>
    refine ⟨htags, horigin, hids, hplaces, hfifo, ?_⟩
    intro c hc
    have hlt := hbooked c hc
    simp only [State.committed, State.book, Option.toList_none, List.length_nil] at hlt ⊢
    omega
  | resolved hash units source serial htag =>
    refine ⟨htags, ?_, ?_, ?_, hfifo, hbooked⟩
    · intro c hc
      rcases List.mem_append.1 hc with hold | hnew
      · exact horigin c hold
      · rcases List.mem_singleton.1 hnew with rfl
        exact htags hash source serial htag
    · simp only [List.map_append, hids, List.length_append, List.length_singleton, List.range_succ]
      rfl
    · rw [← Multiset.coe_eq_coe] at hplaces ⊢
      simp only [← Multiset.coe_add] at hplaces ⊢
      rw [← hplaces]
      abel
  | untagged hash units htag => exact ⟨htags, horigin, hids, hplaces, hfifo, hbooked⟩
  | dropped k closed c hc =>
    refine ⟨htags, horigin, hids, ?_, hfifo, hbooked⟩
    have hmoved := pending_perm hc
    rw [← Multiset.coe_eq_coe] at hplaces hmoved ⊢
    rw [← List.singleton_append] at hmoved
    simp only [← Multiset.coe_add] at hplaces hmoved ⊢
    rw [← hplaces, ← hmoved]
    abel
  | sent k closed c hc =>
    refine ⟨htags, horigin, hids, ?_, ?_, hbooked⟩
    · have hmoved := pending_perm hc
      rw [← Multiset.coe_eq_coe] at hplaces hmoved ⊢
      rw [← List.singleton_append] at hmoved
      simp only [← Multiset.coe_add] at hplaces hmoved ⊢
      rw [← hplaces, ← hmoved]
      abel
    · dsimp only
      rw [hfifo, List.append_assoc _ s.queue]
  | received c rest hidle hqueue =>
    refine ⟨htags, horigin, hids, ?_, ?_, hbooked⟩
    · rw [hidle, hqueue] at hplaces
      simpa using hplaces
    · rw [hidle, hqueue] at hfifo
      simpa using hfifo
  | credited c now later hc hfree hnow hlater =>
    refine ⟨htags, horigin, hids, ?_, ?_, ?_⟩
    · rw [hc] at hplaces
      simpa [State.credit] using hplaces
    · rw [hc] at hfifo
      simpa [State.credit] using hfifo
    · intro c' hc'
      have hkeep : (s.credit C c now later).committed = s.committed := rfl
      rw [hkeep]
      rcases List.mem_append.1 hc' with hold | hnew
      · exact hbooked c' hold
      · -- The lock is free, so every published debit is booked.
        rcases List.mem_singleton.1 hnew with rfl
        have hserved : c' ∈ s.served := by
          apply hplaces.mem_iff.mp
          simp [hc]
        rcases horigin c' hserved with ⟨d, hd, -⟩
        have hlt := (List.getElem?_eq_some_iff.mp hd).1
        simp only [State.committed, hfree, Option.toList_none, List.length_nil]
        omega
  | forgot hash =>
    refine ⟨?_, horigin, hids, hplaces, hfifo, hbooked⟩
    intro hash' source serial htag
    dsimp only at htag
    rcases eq_or_ne hash' hash with rfl | hne
    · rw [Function.update_self] at htag
      cases htag
    · rw [Function.update_of_ne hne] at htag
      exact htags hash' source serial htag

/-! ## Reads -/

/-- The read changes no later reading: nothing is refilled, the allowance is full, the bucket was
touched at this instant, or a whole number of seconds has passed since. -/
def harmless (C : Config) (b : Bucket) (now later : Nat) : Bool :=
  decide (C.refillPerSec = 0 ∨ projectedRemaining C b now = C.cap ∨
    (later = now ∧ (now = b.last ∨
      ((now - b.last) % nanosPerSec = 0 ∧ C.cap ≤ b.remaining + i64Max))))

/-- A refill that keeps every later reading of the allowance. -/
theorem projectedRemaining_refill {b : Bucket} {now later : Nat} (hb : b.Within C)
    (hpast : b.last ≤ now) (hlater : now ≤ later) (h : harmless C b now later = true) (when : Nat)
    (hwhen : later ≤ when) :
    projectedRemaining C (refill C b now later) when = projectedRemaining C b when := by
  have hcap := cap_le C
  have hpos := cap_nonneg C
  have hafter : (refill C b now later).Within C := projectedRemaining_within hb now
  rw [projectedRemaining_eq hafter, projectedRemaining_eq hb when]
  dsimp only [refill]
  rcases hb with ⟨hlow, hhigh⟩
  rcases of_decide_eq_true h with hrate | hfull | ⟨rfl, rfl | ⟨hwhole, hroom⟩⟩
  · have hzero : C.refillPerSec.toNat = 0 := by rw [hrate]; rfl
    rw [projectedRemaining_eq ⟨hlow, hhigh⟩, hzero]
    simp only [Nat.zero_mul, i64Max]
    omega
  · rw [hfull]
    rw [projectedRemaining_eq ⟨hlow, hhigh⟩] at hfull
    have hmono : C.refillPerSec.toNat * ((now - b.last) / nanosPerSec) ≤
        C.refillPerSec.toNat * ((when - b.last) / nanosPerSec) :=
      Nat.mul_le_mul_left _ (Nat.div_le_div_right (by omega))
    unfold i64Max at *
    omega
  · rw [projectedRemaining_eq ⟨hlow, hhigh⟩]
    simp only [Nat.sub_self, Nat.zero_div, Nat.mul_zero, i64Max]
    omega
  · -- The seconds before the read and those after it add up.
    have hsplit : (when - b.last) / nanosPerSec =
        (later - b.last) / nanosPerSec + (when - later) / nanosPerSec := by
      unfold nanosPerSec at *
      omega
    rw [projectedRemaining_eq ⟨hlow, hhigh⟩, hsplit, Nat.mul_add]
    generalize C.refillPerSec.toNat * ((later - b.last) / nanosPerSec) = before
    generalize C.refillPerSec.toNat * ((when - later) / nanosPerSec) = after
    unfold i64Max at *
    omega

/-! ## Extra reads -/

/-- A call of `available` that changes no later reading. -/
def harmlessRead (C : Config) (s : State Source Hash) : Event Source Hash → Bool
  | .available source now later =>
    !C.enabled ||
      match s.buckets source with
      | some b => harmless C b now later
      | none => true
  | _ => false

/-- Two buckets that read alike from `now` on. -/
def SameFuture (C : Config) (now : Nat) : Option Bucket → Option Bucket → Prop
  | some b, some b' => ∀ when, now ≤ when →
    projectedRemaining C b when = projectedRemaining C b' when
  | none, none => True
  | _, _ => False

theorem SameFuture.refl (C : Config) (now : Nat) (b : Option Bucket) : SameFuture C now b b := by
  cases b with
  | none => trivial
  | some b => exact fun _ _ => rfl

theorem SameFuture.mono {now later : Nat} {b b' : Option Bucket} (h : SameFuture C now b b')
    (hle : now ≤ later) : SameFuture C later b b' := by
  cases b <;> cases b'
  · trivial
  · exact h
  · exact h
  · exact fun when hwhen => h when (Nat.le_trans hle hwhen)

/-- A refill makes buckets equal that read alike. -/
theorem SameFuture.refill_entry {now later start : Nat} {b b' : Option Bucket}
    (h : SameFuture C start b b') (hstart : start ≤ now) :
    refill C (entry C now b) now later = refill C (entry C now b') now later := by
  cases b <;> cases b'
  · rfl
  · exact absurd h id
  · exact absurd h id
  · exact congrArg (fun r => (⟨r, later⟩ : Bucket)) (h now hstart)

/-- The states of two runs that differ in reads only: `s` without them, `t` with them. -/
structure Similar (C : Config) (s t : State Source Hash) : Prop where
  now_le : s.now ≤ t.now
  rest : s = { t with now := s.now, buckets := s.buckets }
  future : ∀ source, SameFuture C t.now (s.buckets source) (t.buckets source)

/-- Writing equal buckets to both. -/
theorem SameFuture.update {bs bs' : Source → Option Bucket} {now later : Nat}
    (h : ∀ source, SameFuture C now (bs source) (bs' source)) (hle : now ≤ later)
    (source : Source) {b b' : Bucket} (hb : b = b') (other : Source) :
    SameFuture C later (Function.update bs source (some b) other)
      (Function.update bs' source (some b') other) := by
  rcases eq_or_ne other source with rfl | hne
  · rw [Function.update_self, Function.update_self, hb]
    exact .refl C later _
  · rw [Function.update_of_ne hne, Function.update_of_ne hne]
    exact (h other).mono hle

/-- A read on both sides. -/
theorem SameFuture.touched_both {bs bs' : Source → Option Bucket} {start now later : Nat}
    (h : ∀ source, SameFuture C start (bs source) (bs' source)) (hnow : start ≤ now)
    (hlater : now ≤ later) (source other : Source) :
    SameFuture C later (touched C bs source now later other)
      (touched C bs' source now later other) := by
  have hle : start ≤ later := Nat.le_trans hnow hlater
  have hsource := h source
  unfold touched
  split
  · cases hb : bs source with
    | none =>
      cases hb' : bs' source with
      | none => exact (h other).mono hle
      | some b' =>
        rw [hb, hb'] at hsource
        exact absurd hsource id
    | some b =>
      cases hb' : bs' source with
      | none =>
        rw [hb, hb'] at hsource
        exact absurd hsource id
      | some b' =>
        rw [hb, hb'] at hsource
        exact SameFuture.update h hle source
          (congrArg (fun r => (⟨r, later⟩ : Bucket)) (hsource now hnow)) other
  · exact (h other).mono hle

/-- A harmless read on one side. -/
theorem SameFuture.touched_right {bs bs' : Source → Option Bucket} {start now later : Nat}
    (h : ∀ source, SameFuture C start (bs source) (bs' source)) (hnow : start ≤ now)
    (hlater : now ≤ later) (source other : Source)
    (hbounded : ∀ b ∈ bs' source, b.Within C ∧ b.last ≤ start)
    (hread : C.enabled = true → ∀ b ∈ bs' source, harmless C b now later = true) :
    SameFuture C later (bs other) (touched C bs' source now later other) := by
  have hle : start ≤ later := Nat.le_trans hnow hlater
  unfold touched
  split
  · rename_i henabled
    cases hb : bs' source with
    | none => exact (h other).mono hle
    | some b =>
      dsimp only
      rcases eq_or_ne other source with rfl | hne
      · have hsame := (h other).mono hle
        rcases hbounded b hb with ⟨hwithin, hpast⟩
        rw [Function.update_self]
        rw [hb] at hsame
        cases hs : bs other with
        | none =>
          rw [hs] at hsame
          exact hsame
        | some b' =>
          rw [hs] at hsame
          intro when hwhen
          rw [hsame when hwhen, projectedRemaining_refill hwithin (Nat.le_trans hpast hnow) hlater
            (hread henabled b hb) when hwhen]
      · rw [Function.update_of_ne hne]
        exact (h other).mono hle
  · exact (h other).mono hle

/-- A harmless read is not seen later. -/
theorem Similar.silent (hsim : Similar C s t) (hbounded : Bounded C t)
    (hread : harmlessRead C t e = true) {t' : State Source Hash} (h : Step C t e t') :
    Similar C s t' := by
  cases h.move with
  | read source now later hlock hnow hlater =>
    rcases hsim with ⟨hle, hrest, hfuture⟩
    simp only [harmlessRead, Bool.or_eq_true, Bool.not_eq_true'] at hread
    refine ⟨by dsimp only [State.touch]; omega, hrest, fun other => ?_⟩
    apply SameFuture.touched_right hfuture hnow hlater source other (hbounded source)
    intro henabled b hb
    rw [Option.mem_def.mp hb, henabled] at hread
    exact hread.resolve_left Bool.noConfusion
  | _ => cases hread

/-- Every other event does the same to both. -/
theorem Similar.step (hsim : Similar C s t) {t' : State Source Hash} (h : Step C t e t') :
    ∃ s', Step C s e s' ∧ Similar C s' t' := by
  rcases hsim with ⟨hle, hrest, hfuture⟩
  rw [hrest]
  generalize s.now = n at hle ⊢
  generalize s.buckets = bs at hfuture ⊢
  -- An event that neither reads nor writes the ledger.
  have hquiet : ∀ {u : State Source Hash},
      State.apply C { t with now := n, buckets := bs } e = some { u with now := n, buckets := bs } →
      u.now = t.now → u.buckets = t.buckets →
      ∃ s', Step C { t with now := n, buckets := bs } e s' ∧ Similar C s' u := by
    intro u hu hnow hbuckets
    refine ⟨_, hu, by dsimp only; omega, rfl, ?_⟩
    intro source
    rw [hnow, hbuckets]
    exact hfuture source
  cases h.move with
  | read source now later hlock hnow hlater =>
    have hready : State.ready { t with now := n, buckets := bs } now later = true := by
      simp only [State.ready, hlock, Option.isNone_none, Bool.true_and, decide_eq_true_eq]
      omega
    refine ⟨State.touch { t with now := n, buckets := bs } C source now later, ?_, Nat.le_refl _,
      rfl, SameFuture.touched_both hfuture hnow hlater source⟩
    rw [Step, State.apply, if_pos hready]
  | booked d now later hlock hnow hlater =>
    refine ⟨State.book { t with now := n, buckets := bs } C d now later, ?_, Nat.le_refl _, rfl, ?_⟩
    · simp only [Step, State.apply, hlock]
      rw [if_pos ⟨by omega, hlater⟩]
    · refine SameFuture.update hfuture (Nat.le_trans hnow hlater) d.source ?_
      simp only [debited, (hfuture d.source).refill_entry hnow]
  | credited c now later hc hlock hnow hlater =>
    have hready : State.ready { t with now := n, buckets := bs } now later = true := by
      simp only [State.ready, hlock, Option.isNone_none, Bool.true_and, decide_eq_true_eq]
      omega
    refine ⟨State.credit { t with now := n, buckets := bs } C c now later, ?_, Nat.le_refl _, rfl,
      ?_⟩
    · simp only [Step, State.apply, hc] at hready ⊢
      rw [if_pos hready]
    · refine SameFuture.update hfuture (Nat.le_trans hnow hlater) c.source ?_
      simp only [credited, (hfuture c.source).refill_entry hnow]
  | published d hlock =>
    refine hquiet ?_ rfl rfl
    simp only [State.apply, hlock, Option.isNone_none, if_true]
    rfl
  | resolved hash units source serial htag =>
    refine hquiet ?_ rfl rfl
    simp only [State.apply, State.resolve, htag]
  | untagged hash units htag =>
    refine hquiet ?_ rfl rfl
    simp only [State.apply, State.resolve, htag]
  | dropped k closed c hc =>
    refine hquiet ?_ rfl rfl
    unfold Step at h
    simp only [State.apply, hc, Option.map_some, State.trySend] at h ⊢
    split at h
    · rename_i hfull
      rw [if_pos hfull]
    · injection h with h
      injection h with h1 h2 h3 h4 h5 h6
      exact absurd h6 (by simp)
  | sent k closed c hc =>
    refine hquiet ?_ rfl rfl
    unfold Step at h
    simp only [State.apply, hc, Option.map_some, State.trySend] at h ⊢
    split at h
    · injection h with h
      injection h with h1 h2 h3 h4 h5 h6
      exact absurd h6 (by simp)
    · rename_i hroom
      rw [if_neg hroom]
  | received c rest hidle hqueue =>
    refine hquiet ?_ rfl rfl
    simp only [State.apply, hidle, hqueue]
  | forgot hash => exact hquiet rfl rfl rfl

/-! ## Runs -/

/-- Every credit was bound by a serve to the source tagged on the hash at that time. -/
def BoundAtServe (C : Config) (s : State Source Hash) : Prop :=
  Reaches (Step C) (fun _ _ => True) {} s ∧
  ∀ c ∈ s.served, ∃ u u', Reaches (Step C) (fun _ _ => True) {} u ∧
    Step C u (.serve c.hash c.units) u' ∧ Reaches (Step C) (fun _ _ => True) u' s ∧
    u.sourceOf c.hash = some (c.source, c.serial)

theorem BoundAtServe.step (hs : BoundAtServe C s) (h : Step C s e t) : BoundAtServe C t := by
  rcases hs with ⟨hreach, hserved⟩
  refine ⟨hreach.tail trivial h, ?_⟩
  have hkeep : ∀ c ∈ s.served, ∃ u u', Reaches (Step C) (fun _ _ => True) {} u ∧
      Step C u (.serve c.hash c.units) u' ∧ Reaches (Step C) (fun _ _ => True) u' t ∧
      u.sourceOf c.hash = some (c.source, c.serial) := by
    intro c hc
    rcases hserved c hc with ⟨u, u', hu, hstep, hu', htag⟩
    exact ⟨u, u', hu, hstep, hu'.tail trivial h, htag⟩
  cases h.move with
  | resolved hash units source serial htag =>
    intro c hc
    rcases List.mem_append.1 hc with hold | hnew
    · exact hkeep c hold
    · rcases List.mem_singleton.1 hnew with rfl
      exact ⟨s, _, hreach, h, .refl _, htag⟩
  | _ => exact hkeep

omit [DecidableEq Source] [DecidableEq Hash] in
/-- A dropped credit is not an applied one. -/
theorem Traced.not_dropped (hs : Traced s) {c : Credit Source Hash} (hc : c ∈ s.applied) :
    c ∉ s.dropped := by
  have hnodup : ((s.applied ++ s.applying.toList ++ s.queue ++ s.pending ++ s.dropped).map
      Credit.id).Nodup := by
    rw [(hs.places.map Credit.id).nodup_iff, hs.ids]
    exact List.nodup_range
  have hsplit := (List.nodup_append.mp hnodup.of_map).2.2
  intro hdropped
  exact hsplit c (by simp [hc]) c hdropped rfl

/-- An event that is marked is an extra read. -/
abbrev Marked (Source Hash : Type*) := Event Source Hash × Bool

/-- A run whose marked events are harmless reads. -/
def runMarked (C : Config) (ms : List (Marked Source Hash)) : Option (State Source Hash) :=
  runEvents (fun s m => State.apply C s m.1) (fun s m => !m.2 || harmlessRead C s m.1) {} ms

/-- The same run without the marked events. -/
def runUnmarked (C : Config) (ms : List (Marked Source Hash)) : Option (State Source Hash) :=
  runEvents (fun s (m : Marked Source Hash) => State.apply C s m.1) (fun _ _ => true) {}
    (ms.filter fun m => !m.2)

/-- The warming ledger, over every run whose extra reads are harmless.  The buckets keep their
bounds; an applied credit was bound to the source tagged when its serve ended, is booked after the
debit that published the tag, was not dropped, and keeps its place in the queue; the metric counts
the sources that `available` refuses; and without the extra reads the run answers every later
question alike. -/
theorem ledger_of_harmless_reads {ms : List (Marked Source Hash)}
    (h : runMarked C ms = some t) :
    (∀ source, ∀ b ∈ t.buckets source, -C.cap ≤ b.remaining ∧ b.remaining ≤ C.cap) ∧
    (∀ c ∈ t.applied, c ∉ t.dropped ∧ c.serial < t.committed ∧
      (∃ d, t.debits[c.serial]? = some d ∧ d.source = c.source ∧ d.hash = c.hash) ∧
      ∃ u u', Reaches (Step C) (fun _ _ => True) {} u ∧ Step C u (.serve c.hash c.units) u' ∧
        Reaches (Step C) (fun _ _ => True) u' t ∧ u.sourceOf c.hash = some (c.source, c.serial)) ∧
    t.sent = t.applied ++ t.applying.toList ++ t.queue ∧
    (∀ source when, t.availableAt C source when = (C.enabled && !t.blockedAt C source when)) ∧
    ∃ s, runUnmarked C ms = some s ∧ ∀ source when, t.now ≤ when →
      s.availableAt C source when = t.availableAt C source when ∧
      s.blockedAt C source when = t.blockedAt C source when := by
  have hinv : Bounded C t ∧ Traced t ∧ BoundAtServe C t := by
    refine runEvents_invariant (P := fun u => Bounded C u ∧ Traced u ∧ BoundAtServe C u)
      ?_ ⟨?_, .init, .refl _, fun c hc => absurd hc List.not_mem_nil⟩ h
    · rintro u m u' ⟨hbounded, htraced, hbound⟩ hstep
      exact ⟨hbounded.step hstep, htraced.step hstep, hbound.step hstep⟩
    · intro source b hb
      cases hb
  have hsim : ∃ s, runUnmarked C ms = some s ∧ Similar C s t ∧ Bounded C t := by
    unfold runUnmarked
    refine runEvents_without (R := fun a b => Similar C a b ∧ Bounded C b) ?_ ?_ ?_ h
    · rintro a b m b' ⟨hsimilar, hbounded⟩ hmarked hallowed hstep
      simp only [hmarked, Bool.not_true, Bool.false_or] at hallowed
      exact ⟨hsimilar.silent hbounded hallowed hstep, hbounded.step hstep⟩
    · rintro a b m b' ⟨hsimilar, hbounded⟩ - hstep
      rcases hsimilar.step hstep with ⟨a', ha', hsimilar'⟩
      exact ⟨a', ha', hsimilar', hbounded.step hstep⟩
    · refine ⟨⟨Nat.le_refl _, rfl, fun _ => trivial⟩, ?_⟩
      intro source b hb
      cases hb
  rcases hinv with ⟨hbounded, htraced, hbound⟩
  refine ⟨fun source b hb => (hbounded source b hb).1, ?_, htraced.fifo, ?_, ?_⟩
  · intro c hc
    have hserved : c ∈ t.served := htraced.places.mem_iff.mp (by simp [hc])
    exact ⟨htraced.not_dropped hc, htraced.booked c hc, htraced.origin c hserved,
      hbound.2 c hserved⟩
  · intro source when
    unfold State.availableAt State.blockedAt
    cases C.enabled with
    | false => rfl
    | true =>
      cases t.buckets source with
      | none => rfl
      | some b => simp only [Bool.true_and, if_true, ← decide_not, Int.not_le]
  · rcases hsim with ⟨s, hs, hsimilar, -⟩
    refine ⟨s, hs, fun source when hwhen => ?_⟩
    have hsame := hsimilar.future source
    unfold State.availableAt State.blockedAt
    cases hb : s.buckets source <;> cases hb' : t.buckets source <;> rw [hb, hb'] at hsame
    · exact ⟨rfl, rfl⟩
    · exact absurd hsame id
    · exact absurd hsame id
    · dsimp only
      rw [hsame when hwhen]
      exact ⟨rfl, rfl⟩

/-- A budget of one unit and a refill of one unit a second. -/
def sampleConfig : Config := ⟨1, 1⟩

/-- A buy that spends the budget at time zero, a read on the second, and a serve's credit. -/
def sampleEvents : List (Marked Nat Nat) :=
  [(.beginDebit 7 3 2, false), (.serve 3 1, false), (.commitDebit 0 0, false),
    (.trySend 0 false, false), (.available 7 1000000000 1000000000, true), (.recv, false),
    (.applyCredit 1500000000 1500000000, false)]

theorem ledger_of_harmless_reads_sample :
    ∃ s t, runMarked sampleConfig sampleEvents = some t ∧
      runUnmarked sampleConfig sampleEvents = some s ∧
      s.availableAt sampleConfig 7 2000000000 = t.availableAt sampleConfig 7 2000000000 := by
  have hrun : (runMarked sampleConfig sampleEvents).map State.now = some 1500000000 := by
    decide +kernel
  rcases Option.map_eq_some_iff.mp hrun with ⟨t, ht, hnow⟩
  rcases (ledger_of_harmless_reads ht).2.2.2.2 with ⟨s, hs, hsame⟩
  exact ⟨s, t, ht, hs, (hsame 7 2000000000 (by rw [hnow]; decide)).1⟩

/-- The budget is spent at time zero; half a second later somebody asks. -/
def samplePoll : List (Event Nat Nat) :=
  [.beginDebit 7 3 1, .commitDebit 0 0, .available 7 500000000 500000000]

/-- One read in between, and the source is still blocked when its second has passed. -/
theorem polling_starves_refill :
    ∃ s t : State Nat Nat,
      runEvents (State.apply sampleConfig) (fun _ _ => true) {} (samplePoll.take 2) = some s ∧
      runEvents (State.apply sampleConfig) (fun _ _ => true) {} samplePoll = some t ∧
      s.availableAt sampleConfig 7 1000000000 = true ∧
      t.availableAt sampleConfig 7 1000000000 = false := by
  have hs : (runEvents (State.apply sampleConfig) (fun _ _ => true) ({} : State Nat Nat)
      (samplePoll.take 2)).map (fun s => s.availableAt sampleConfig 7 1000000000) = some true := by
    decide +kernel
  have ht : (runEvents (State.apply sampleConfig) (fun _ _ => true) ({} : State Nat Nat)
      samplePoll).map (fun s => s.availableAt sampleConfig 7 1000000000) = some false := by
    decide +kernel
  rcases Option.map_eq_some_iff.mp hs with ⟨s, hs, hfree⟩
  rcases Option.map_eq_some_iff.mp ht with ⟨t, ht, hblocked⟩
  exact ⟨s, t, hs, ht, hfree, hblocked⟩

end Decdn.Node.Warming
