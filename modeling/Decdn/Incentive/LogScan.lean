import Decdn.Foundations.Loops
import Decdn.Foundations.Words
import Mathlib.Data.List.Chain
import Mathlib.Data.List.Infix
import Mathlib.Data.Nat.Log

/-!
# Log scans

A scan fetches the logs of a block range window by window (`log_scan.rs`).  A provider that
rejects a window as too wide gets half of it; after enough accepted windows the span doubles
back.

Main results:

- Theorem `WindowSpan.shrink_spec`: a rejected window is followed by a shorter one.
- Theorem `ScanInv.body`: what every round of the loop keeps.
- Theorem `scan_logs_exact`: a scan ends, and the accepted windows are the range.
-/

namespace Decdn.Incentive

/-! ## Windows -/

/-- `window_end`. -/
def windowEnd (start upTo span : Nat) : Nat := min (U64.saturatingAdd start (max span 1 - 1)) upTo

/-- `halved_span`. -/
def halvedSpan (start last : Nat) : Option Nat :=
  let last := last - start
  if last = 0 then none else some (last / 2 + last % 2)

/-- `SPAN_REGROW_AFTER_WINDOWS`. -/
def spanRegrowAfterWindows : Nat := 32

/-- `WindowSpan`. -/
structure WindowSpan where
  current : Nat
  ceiling : Nat
  probingFrom : Option Nat := none
  streak : Nat := 0
deriving DecidableEq, Repr

/-- `Shrunk`. -/
structure Shrunk where
  span : Nat
  rejectedProbe : Bool
deriving DecidableEq, Repr

namespace WindowSpan

/-- `WindowSpan::new`. -/
def new (ceiling : Nat) : WindowSpan := { current := ceiling, ceiling }

/-- `WindowSpan::shrink`. -/
def shrink (w : WindowSpan) (start last : Nat) : Option (WindowSpan × Shrunk) :=
  (halvedSpan start last).map fun halved =>
    let span := min halved w.current
    let rejectedProbe := w.probingFrom.any fun level => level ≤ span
    ({ w with current := span, probingFrom := none, streak := 0 }, ⟨span, rejectedProbe⟩)

/-- `WindowSpan::record_success`. -/
def recordSuccess (w : WindowSpan) : WindowSpan × Option Nat :=
  if w.ceiling ≤ w.current then (w, none)
  else
    let streak := min (w.streak + 1) (2 ^ 32 - 1)
    if streak < spanRegrowAfterWindows then ({ w with streak }, none)
    else
      let current := min (U64.saturatingAdd w.current w.current) w.ceiling
      ({ w with current, probingFrom := some w.current, streak := 0 }, some current)

end WindowSpan

/-! ## The provider's answers -/

/-- A failed request: an error response of the provider, or anything else. -/
inductive Failure where
  | response (message : String)
  | other (text : String)
deriving DecidableEq, Repr

/-- `LIMIT_WORDS`. -/
def limitWords : List String :=
  ["limit", "max", "exceed", "up to", " over ", "more than", "too many", "too wide", "too large",
    "not supported"]

/-- `str::contains`. -/
def contains (message word : String) : Bool := message.toList.tails.any word.toList.isPrefixOf

/-- `is_range_rejection`. -/
def Failure.isRangeRejection : Failure → Bool
  | .response message =>
    let message := message.map Char.toLower
    (contains message "range" || contains message "results") &&
      !contains message "out of range" && limitWords.any (contains message)
  | .other _ => false

/-- What a provider answers. -/
inductive Answer (Log : Type) where
  | logs (batch : List Log)
  | failed (failure : Failure)

/-- A request: its window, the span it was cut with, and its answer. -/
structure Call (Log : Type) where
  start : Nat
  last : Nat
  span : Nat
  answer : Answer Log

/-- A provider answers a window by whatever it has been asked before. -/
abbrev Provider (Log : Type) := List (Call Log) → Nat → Nat → Answer Log

/-! ## The scan -/

/-- `SCAN_WINDOW_RETRIES`. -/
def scanWindowRetries : Nat := 3

/-- `SCAN_WINDOW_RETRY_DELAY`, in seconds. -/
def scanWindowRetryDelay : Nat := 2

/-- `ScanEvent`. -/
inductive ScanEvent where
  | window (last upTo : Nat)
  | retry (start last attempt delay : Nat) (failure : Failure)
deriving DecidableEq, Repr

/-- The context that names a window. -/
def windowContext (start last : Nat) : String := s!"eth_getLogs [{start}, {last}]"

/-- The context of a rejected one-block window. -/
def oneBlockContext : String :=
  "the RPC provider rejects even a one-block eth_getLogs window (a range cap, or more results " ++
    "in one block than it returns); use another provider"

/-- The context of a window that failed every retry. -/
def gaveUpContext (start : Nat) : String :=
  s!"gave up after {scanWindowRetries} retries; blocks below {start} were scanned"

/-- An error: its contexts, the outermost first, and its cause. -/
structure ScanError where
  contexts : List String
  cause : Failure
deriving DecidableEq, Repr

/-- What the loop of `scan_logs` carries, with the requests so far. -/
structure Scan (Log : Type) where
  span : WindowSpan
  logs : List Log := []
  start : Nat
  retries : Nat := 0
  events : List ScanEvent := []
  calls : List (Call Log) := []

/-- What `scan_logs` returns, what it told its caller, and the requests it made. -/
structure ScanResult (Log : Type) where
  outcome : Except ScanError (List Log)
  events : List ScanEvent
  calls : List (Call Log)

variable {Log : Type}

/-- A round of the loop of `scan_logs`. -/
def scanBody (provider : Provider Log) (upTo : Nat) (s : Scan Log) : Scan Log ⊕ ScanResult Log :=
  if s.start ≤ upTo then
    let last := windowEnd s.start upTo s.span.current
    let answer := provider s.calls s.start last
    let calls := s.calls ++ [⟨s.start, last, s.span.current, answer⟩]
    match answer with
    | .logs batch =>
      let logs := s.logs ++ batch
      let events := s.events ++ [.window last upTo]
      -- At the largest block the start cannot move on.
      if last = u64Max then .inr ⟨.ok logs, events, calls⟩
      else .inl ⟨s.span.recordSuccess.1, logs, U64.saturatingAdd last 1, 0, events, calls⟩
    | .failed failure =>
      if failure.isRangeRejection then
        match s.span.shrink s.start last with
        | none =>
          .inr ⟨.error ⟨[oneBlockContext, windowContext s.start last], failure⟩, s.events, calls⟩
        | some (span, _) => .inl { s with span, calls }
      else if s.retries < scanWindowRetries then
        let delay := scanWindowRetryDelay * 2 ^ s.retries
        let retries := s.retries + 1
        let events := s.events ++ [.retry s.start last retries delay failure]
        .inl { s with retries, events, calls }
      else
        .inr ⟨.error ⟨[gaveUpContext s.start, windowContext s.start last], failure⟩, s.events, calls⟩
  else .inr ⟨.ok s.logs, s.events, s.calls⟩

/-- `scan_logs`, within so many rounds. -/
def scanLogs (provider : Provider Log) (start upTo ceiling : UInt64) (rounds : Nat) :
    Option (ScanResult Log) :=
  runLoop (scanBody provider upTo.toNat) rounds
    { span := .new ceiling.toNat, start := start.toNat }

/-! ## What windows do -/

variable {start last upTo ceiling : Nat} {w w' : WindowSpan} {s s' : Scan Log}

/-- A window starts at its first block, ends within the range, and is no longer than its span. -/
theorem windowEnd_spec {span : Nat} (hle : start ≤ upTo) (hmax : upTo ≤ u64Max) (hspan : 1 ≤ span) :
    start ≤ windowEnd start upTo span ∧ windowEnd start upTo span ≤ upTo ∧
      windowEnd start upTo span < start + span := by
  unfold windowEnd U64.saturatingAdd
  rw [max_eq_left hspan]
  omega

/-- Only a window of one block cannot be halved. -/
theorem WindowSpan.shrink_eq_none (hle : start ≤ last) (h : w.shrink start last = none) :
    start = last := by
  unfold WindowSpan.shrink halvedSpan at h
  rw [Option.map_eq_none_iff] at h
  dsimp only at h
  split at h
  · rename_i hzero
    omega
  · cases h

/-- Half a window is a window, and a shorter one; a single block has no half. -/
theorem halvedSpan_spec {half : Nat} (h : halvedSpan start last = some half) :
    1 ≤ half ∧ half ≤ last - start ∧ 2 * half ≤ last - start + 1 := by
  unfold halvedSpan at h
  dsimp only at h
  split at h
  · cases h
  · cases h
    omega

namespace WindowSpan

/-- A span between one block and the ceiling. -/
structure Within (ceiling : Nat) (w : WindowSpan) : Prop where
  pos : 1 ≤ w.current
  le : w.current ≤ w.ceiling
  ceiling_eq : w.ceiling = ceiling

/-- A rejected window shortens the span, to less than the window and to at most half of it. -/
theorem shrink_spec {shrunk : Shrunk} (h : w.Within ceiling) (hlast : last < start + w.current)
    (hshrink : w.shrink start last = some (w', shrunk)) :
    w'.Within ceiling ∧ w'.current ≤ last - start ∧ w'.current ≤ w.current / 2 := by
  unfold shrink at hshrink
  rcases Option.map_eq_some_iff.mp hshrink with ⟨half, hhalf, heq⟩
  cases heq
  rcases halvedSpan_spec hhalf with ⟨hpos, hless, htwice⟩
  have hcurrent := h.pos
  have hle := h.le
  refine ⟨⟨?_, ?_, h.ceiling_eq⟩, Nat.le_trans (Nat.min_le_left _ _) hless, ?_⟩
  · exact Nat.le_min.mpr ⟨hpos, hcurrent⟩
  · exact Nat.le_trans (Nat.min_le_right _ _) hle
  · exact Nat.le_trans (Nat.min_le_left _ _) (by omega)

/-- An accepted window keeps the span within its bounds. -/
theorem Within.recordSuccess (h : w.Within ceiling) (hmax : ceiling ≤ u64Max) :
    w.recordSuccess.1.Within ceiling := by
  have hpos := h.pos
  have hle := h.le
  have hceiling := h.ceiling_eq
  unfold WindowSpan.recordSuccess
  split
  · exact h
  · dsimp only
    split
    · exact ⟨hpos, hle, hceiling⟩
    · refine ⟨?_, Nat.min_le_right _ _, hceiling⟩
      unfold U64.saturatingAdd
      dsimp only
      omega

end WindowSpan

/-! ## Every round -/

/-- The windows a provider accepted. -/
def windows (calls : List (Call Log)) : List (Nat × Nat) :=
  calls.filterMap fun c =>
    match c.answer with
    | .logs _ => some (c.start, c.last)
    | .failed _ => none

/-- The answers to them, put together. -/
def batches (calls : List (Call Log)) : List Log :=
  calls.flatMap fun c =>
    match c.answer with
    | .logs batch => batch
    | .failed _ => []

/-- The blocks of windows, in order. -/
def blocks (windows : List (Nat × Nat)) : List Nat :=
  windows.flatMap fun w => List.range' w.1 (w.2 + 1 - w.1)

theorem windows_append (calls more : List (Call Log)) :
    windows (calls ++ more) = windows calls ++ windows more :=
  List.filterMap_append

theorem batches_append (calls more : List (Call Log)) :
    batches (calls ++ more) = batches calls ++ batches more :=
  List.flatMap_append

theorem blocks_append (ws more : List (Nat × Nat)) :
    blocks (ws ++ more) = blocks ws ++ blocks more :=
  List.flatMap_append

/-- The request that follows another: the next blocks after an accepted window, a strictly shorter
window after a range rejection, the same window after any other failure. -/
def Follows (c d : Call Log) : Prop :=
  match c.answer with
  | .logs _ => d.start = c.last + 1
  | .failed failure =>
    d.start = c.start ∧ if failure.isRangeRejection then d.last < c.last else d.last = c.last

/-- A request within its range and ceiling. -/
structure Call.Ok (upTo ceiling : Nat) (c : Call Log) : Prop where
  span_pos : 1 ≤ c.span
  span_le : c.span ≤ ceiling
  last_eq : c.last = windowEnd c.start upTo c.span
  le : c.start ≤ c.last
  last_le : c.last ≤ upTo

/-- How many requests a scan may still make. -/
def budget (upTo ceiling : Nat) (s : Scan Log) : Nat :=
  (upTo + 1 - s.start) * (Nat.log 2 ceiling + scanWindowRetries + 1) + Nat.log 2 s.span.current +
    (scanWindowRetries - s.retries)

/-- The invariant of the loop. -/
structure ScanInv (first upTo ceiling total : Nat) (s : Scan Log) : Prop where
  span : s.span.Within ceiling
  retries_le : s.retries ≤ scanWindowRetries
  le : first ≤ s.start
  start_le : s.start ≤ upTo + 1
  scanned : blocks (windows s.calls) = List.range' first (s.start - first)
  logs_eq : s.logs = batches s.calls
  spent : s.calls.length + budget upTo ceiling s ≤ total
  calls_ok : ∀ c ∈ s.calls, c.Ok upTo ceiling
  follows : s.calls.IsChain Follows
  next : ∀ c ∈ s.calls.getLast?, ∀ answer,
    Follows c ⟨s.start, windowEnd s.start upTo s.span.current, s.span.current, answer⟩

variable {first total : Nat} {provider : Provider Log}

/-- What is asked next. -/
def Scan.call (s : Scan Log) (upTo : Nat) (answer : Answer Log) : Call Log :=
  ⟨s.start, windowEnd s.start upTo s.span.current, s.span.current, answer⟩

/-- The next request is within its range and ceiling. -/
theorem ScanInv.call_ok (h : ScanInv first upTo ceiling total s) (hmax : upTo ≤ u64Max)
    (hle : s.start ≤ upTo) (answer : Answer Log) : (s.call upTo answer).Ok upTo ceiling := by
  rcases windowEnd_spec hle hmax h.span.pos with ⟨hstart, hlast, -⟩
  exact ⟨h.span.pos, h.span.ceiling_eq ▸ h.span.le, rfl, hstart, hlast⟩

/-- It joins the requests so far. -/
theorem ScanInv.calls_next (h : ScanInv first upTo ceiling total s) (hmax : upTo ≤ u64Max)
    (hle : s.start ≤ upTo) (answer : Answer Log) :
    (∀ c ∈ s.calls ++ [s.call upTo answer], c.Ok upTo ceiling) ∧
      (s.calls ++ [s.call upTo answer]).IsChain Follows := by
  constructor
  · intro c hc
    rcases List.mem_append.mp hc with hc | hc
    · exact h.calls_ok c hc
    · rw [List.mem_singleton.mp hc]
      exact h.call_ok hmax hle answer
  · refine List.isChain_append.mpr ⟨h.follows, List.isChain_singleton _, ?_⟩
    intro c hc d hd
    cases hd
    exact h.next c hc answer

/-- An accepted window adds its blocks. -/
theorem ScanInv.scanned_logs (h : ScanInv first upTo ceiling total s) (hmax : upTo ≤ u64Max)
    (hle : s.start ≤ upTo) (batch : List Log) :
    blocks (windows (s.calls ++ [s.call upTo (.logs batch)])) =
        List.range' first (windowEnd s.start upTo s.span.current + 1 - first) ∧
      s.logs ++ batch = batches (s.calls ++ [s.call upTo (.logs batch)]) := by
  rcases windowEnd_spec hle hmax h.span.pos with ⟨hstart, -, -⟩
  have hfirst := h.le
  constructor
  · have happend := @List.range'_append_1 first (s.start - first)
      (windowEnd s.start upTo s.span.current + 1 - s.start)
    rw [Nat.add_sub_cancel' hfirst] at happend
    have hone : blocks (windows [s.call upTo (.logs batch)]) =
        List.range' s.start (windowEnd s.start upTo s.span.current + 1 - s.start) :=
      List.append_nil _
    rw [windows_append, blocks_append, h.scanned, hone, happend]
    congr 1
    omega
  · have hone : batches [s.call upTo (.logs batch)] = batch := List.append_nil _
    rw [batches_append, ← h.logs_eq, hone]

/-- A failed window adds none. -/
theorem scanned_failed (s : Scan Log) (upTo : Nat) (failure : Failure) :
    windows (s.calls ++ [s.call upTo (.failed failure)]) = windows s.calls ∧
      batches (s.calls ++ [s.call upTo (.failed failure)]) = batches s.calls := by
  rw [windows_append, batches_append]
  exact ⟨List.append_nil _, List.append_nil _⟩

/-! ### The budget -/

/-- An accepted window pays for the retries and the shrinks of the next one. -/
theorem budget_accept {current span' log retries retries' : Nat} (hstart : start ≤ last)
    (hlast : last ≤ upTo) (hlog : span' ≤ log) :
    (upTo + 1 - (last + 1)) * (log + scanWindowRetries + 1) + span' +
        (scanWindowRetries - retries') + 1 ≤
      (upTo + 1 - start) * (log + scanWindowRetries + 1) + current +
        (scanWindowRetries - retries) := by
  have hmul : (upTo + 1 - (last + 1)) * (log + scanWindowRetries + 1) +
      (log + scanWindowRetries + 1) ≤ (upTo + 1 - start) * (log + scanWindowRetries + 1) := by
    rw [← Nat.succ_mul]
    exact Nat.mul_le_mul_right _ (by omega)
  omega

/-- A shrink halves the span. -/
theorem log_shrink {current half : Nat} (hpos : 1 ≤ half) (hhalf : half ≤ current / 2) :
    Nat.log 2 half + 1 ≤ Nat.log 2 current := by
  have hlog := Nat.log_mono_right hhalf (b := 2)
  rw [Nat.log_div_base] at hlog
  have htwo : 2 ≤ current := by omega
  have hone := Nat.log_pos Nat.one_lt_two htwo
  omega

/-! ### A round that goes on -/

/-- What a round that goes on did: it took a window, it shrank one, or it will retry it. -/
theorem scanBody_inl (h : scanBody provider upTo s = .inl s') :
    s.start ≤ upTo ∧
      ((∃ batch, windowEnd s.start upTo s.span.current ≠ u64Max ∧
          s' = ⟨s.span.recordSuccess.1, s.logs ++ batch,
            U64.saturatingAdd (windowEnd s.start upTo s.span.current) 1, 0,
            s.events ++ [.window (windowEnd s.start upTo s.span.current) upTo],
            s.calls ++ [s.call upTo (.logs batch)]⟩) ∨
        ∃ failure,
          (failure.isRangeRejection = true ∧ ∃ w shrunk,
            s.span.shrink s.start (windowEnd s.start upTo s.span.current) = some (w, shrunk) ∧
            s' = { s with span := w, calls := s.calls ++ [s.call upTo (.failed failure)] }) ∨
          (failure.isRangeRejection = false ∧ s.retries < scanWindowRetries ∧ ∃ events,
            s' = { s with
              retries := s.retries + 1
              events := events
              calls := s.calls ++ [s.call upTo (.failed failure)] })) := by
  unfold scanBody at h
  split at h
  · rename_i hle
    refine ⟨hle, ?_⟩
    dsimp only at h
    cases hanswer : provider s.calls s.start (windowEnd s.start upTo s.span.current) with
    | logs batch =>
      rw [hanswer] at h
      dsimp only at h
      split at h
      · cases h
      · rename_i hend
        cases h
        exact Or.inl ⟨batch, hend, rfl⟩
    | failed failure =>
      rw [hanswer] at h
      dsimp only at h
      refine Or.inr ⟨failure, ?_⟩
      split at h
      · rename_i hrange
        split at h
        · cases h
        · rename_i w shrunk hshrink
          cases h
          exact Or.inl ⟨hrange, w, shrunk, hshrink, rfl⟩
      · rename_i hrange
        split at h
        · rename_i hretry
          cases h
          exact Or.inr ⟨Bool.eq_false_iff.mpr hrange, hretry, _, rfl⟩
        · cases h
  · cases h

/-- The last of the requests is the new one. -/
theorem getLast?_call {c d : Call Log} (h : d ∈ (s.calls ++ [c]).getLast?) : d = c := by
  rw [List.getLast?_append, List.getLast?_singleton] at h
  exact (Option.some.inj h).symm

/-- A taken window keeps the invariant. -/
theorem ScanInv.accept (h : ScanInv first upTo ceiling total s) (hmax : upTo ≤ u64Max)
    (hceiling : ceiling ≤ u64Max) (hle : s.start ≤ upTo) (batch : List Log)
    (events : List ScanEvent) (hend : windowEnd s.start upTo s.span.current ≠ u64Max)
    (hs' : s' = ⟨s.span.recordSuccess.1, s.logs ++ batch,
      U64.saturatingAdd (windowEnd s.start upTo s.span.current) 1, 0, events,
      s.calls ++ [s.call upTo (.logs batch)]⟩) :
    ScanInv first upTo ceiling total s' ∧ budget upTo ceiling s' < budget upTo ceiling s := by
  rcases windowEnd_spec hle hmax h.span.pos with ⟨hstart, hlast, -⟩
  rcases h.calls_next hmax hle (.logs batch) with ⟨hok, hfollows⟩
  rcases h.scanned_logs hmax hle batch with ⟨hscanned, hlogs⟩
  rw [U64.saturatingAdd_eq (Nat.lt_of_le_of_ne (Nat.le_trans hlast hmax) hend)] at hs'
  subst hs'
  have hspan := h.span.recordSuccess hceiling
  have hless := @budget_accept s.start (windowEnd s.start upTo s.span.current) upTo
    (Nat.log 2 s.span.current) (Nat.log 2 s.span.recordSuccess.1.current) (Nat.log 2 ceiling)
    s.retries 0 hstart hlast (Nat.log_mono_right (hspan.ceiling_eq ▸ hspan.le))
  refine ⟨⟨hspan, Nat.zero_le _, Nat.le_succ_of_le (Nat.le_trans h.le hstart),
    Nat.succ_le_succ hlast, hscanned, hlogs, ?_, hok, hfollows, ?_⟩, hless⟩
  · have hspent := h.spent
    rw [List.length_append, List.length_singleton]
    unfold budget at hspent ⊢
    dsimp only at hless ⊢
    omega
  · intro c hc answer
    rw [getLast?_call hc]
    exact rfl

/-- A rejected window keeps the invariant. -/
theorem ScanInv.reject {shrunk : Shrunk} {failure : Failure}
    (h : ScanInv first upTo ceiling total s) (hmax : upTo ≤ u64Max) (hle : s.start ≤ upTo)
    (hrange : failure.isRangeRejection = true)
    (hshrink : s.span.shrink s.start (windowEnd s.start upTo s.span.current) = some (w, shrunk))
    (hs' : s' = { s with span := w, calls := s.calls ++ [s.call upTo (.failed failure)] }) :
    ScanInv first upTo ceiling total s' ∧ budget upTo ceiling s' < budget upTo ceiling s := by
  rcases windowEnd_spec hle hmax h.span.pos with ⟨hstart, -, hspan⟩
  rcases h.calls_next hmax hle (.failed failure) with ⟨hok, hfollows⟩
  rcases scanned_failed s upTo failure with ⟨hwindows, hbatches⟩
  rcases WindowSpan.shrink_spec h.span hspan hshrink with ⟨hwithin, hless, hhalf⟩
  have hlog := log_shrink hwithin.pos hhalf
  subst hs'
  refine ⟨⟨hwithin, h.retries_le, h.le, h.start_le, hwindows ▸ h.scanned, hbatches ▸ h.logs_eq, ?_,
    hok, hfollows, ?_⟩, ?_⟩
  · have hspent := h.spent
    rw [List.length_append, List.length_singleton]
    unfold budget at hspent ⊢
    dsimp only
    omega
  · intro c hc answer
    rw [getLast?_call hc]
    unfold Follows
    dsimp only [Scan.call]
    rw [if_pos hrange]
    rcases windowEnd_spec hle hmax hwithin.pos with ⟨-, -, hshort⟩
    exact ⟨rfl, by omega⟩
  · unfold budget
    dsimp only
    omega

/-- A failed window that will be retried keeps the invariant. -/
theorem ScanInv.retry {failure : Failure} {events : List ScanEvent}
    (h : ScanInv first upTo ceiling total s) (hmax : upTo ≤ u64Max) (hle : s.start ≤ upTo)
    (hrange : failure.isRangeRejection = false) (hretry : s.retries < scanWindowRetries)
    (hs' : s' = { s with
      retries := s.retries + 1
      events := events
      calls := s.calls ++ [s.call upTo (.failed failure)] }) :
    ScanInv first upTo ceiling total s' ∧ budget upTo ceiling s' < budget upTo ceiling s := by
  rcases h.calls_next hmax hle (.failed failure) with ⟨hok, hfollows⟩
  rcases scanned_failed s upTo failure with ⟨hwindows, hbatches⟩
  subst hs'
  refine ⟨⟨h.span, hretry, h.le, h.start_le, hwindows ▸ h.scanned, hbatches ▸ h.logs_eq, ?_, hok,
    hfollows, ?_⟩, ?_⟩
  · have hspent := h.spent
    rw [List.length_append, List.length_singleton]
    unfold budget at hspent ⊢
    dsimp only
    omega
  · intro c hc answer
    rw [getLast?_call hc]
    unfold Follows
    dsimp only [Scan.call]
    rw [hrange]
    exact ⟨rfl, rfl⟩
  · unfold budget
    dsimp only
    omega

/-- Every round that goes on keeps the invariant and spends a request. -/
theorem ScanInv.body (h : ScanInv first upTo ceiling total s) (hmax : upTo ≤ u64Max)
    (hceiling : ceiling ≤ u64Max) (hbody : scanBody provider upTo s = .inl s') :
    ScanInv first upTo ceiling total s' ∧ budget upTo ceiling s' < budget upTo ceiling s := by
  rcases scanBody_inl hbody with ⟨hle, ⟨batch, hend, hs'⟩ |
    ⟨failure, ⟨hrange, w, shrunk, hshrink, hs'⟩ | ⟨hrange, hretry, events, hs'⟩⟩⟩
  · exact h.accept hmax hceiling hle batch _ hend hs'
  · exact h.reject hmax hle hrange hshrink hs'
  · exact h.retry hmax hle hrange hretry hs'

/-! ### The round that ends -/

/-- What a scan leaves: when it succeeds, the accepted windows are the blocks of the range, in order
and each once, and the logs are their answers; when it fails, the last request is the one that
failed, its window starts at the first block that was not scanned, and the error names it.  Every
request is a window within the range and the ceiling that follows from the one before. -/
structure Scanned (first upTo ceiling total : Nat) (r : ScanResult Log) : Prop where
  ok : ∀ logs, r.outcome = .ok logs →
    blocks (windows r.calls) = List.range' first (upTo + 1 - first) ∧ logs = batches r.calls
  error : ∀ e, r.outcome = .error e → ∃ before c, r.calls = before ++ [c] ∧
    c.answer = .failed e.cause ∧ windowContext c.start c.last ∈ e.contexts ∧
    (e.cause.isRangeRejection = true → c.start = c.last) ∧
    first ≤ c.start ∧ c.start ≤ c.last ∧ c.last ≤ upTo ∧
      blocks (windows r.calls) = List.range' first (c.start - first)
  calls_ok : ∀ c ∈ r.calls, c.Ok upTo ceiling
  follows : r.calls.IsChain Follows
  length_le : r.calls.length ≤ total

/-- There is a request left as long as blocks are. -/
theorem ScanInv.length_next (h : ScanInv first upTo ceiling total s) (hle : s.start ≤ upTo)
    (c : Call Log) : (s.calls ++ [c]).length ≤ total := by
  have hspent := h.spent
  have hone : 1 * 1 ≤ (upTo + 1 - s.start) * (Nat.log 2 ceiling + scanWindowRetries + 1) :=
    Nat.mul_le_mul (by omega) (by omega)
  rw [List.length_append, List.length_singleton]
  unfold budget at hspent
  omega

/-- A scan that fails names the window it could not scan. -/
theorem ScanInv.failed {failure : Failure} {context : String}
    (h : ScanInv first upTo ceiling total s) (hmax : upTo ≤ u64Max) (hle : s.start ≤ upTo)
    (hone : failure.isRangeRejection = true →
      s.start = windowEnd s.start upTo s.span.current) (events : List ScanEvent) :
    Scanned first upTo ceiling total
      (⟨.error ⟨[context, windowContext s.start (windowEnd s.start upTo s.span.current)], failure⟩,
        events, s.calls ++ [s.call upTo (.failed failure)]⟩ : ScanResult Log) := by
  rcases windowEnd_spec hle hmax h.span.pos with ⟨hstart, hlast, -⟩
  rcases h.calls_next hmax hle (.failed failure) with ⟨hok, hfollows⟩
  refine ⟨nofun, ?_, hok, hfollows, h.length_next hle _⟩
  rintro e he
  cases he
  refine ⟨s.calls, s.call upTo (.failed failure), rfl, rfl,
    List.mem_cons_of_mem _ List.mem_cons_self, hone, h.le, hstart, hlast, ?_⟩
  rw [(scanned_failed s upTo failure).1]
  exact h.scanned

/-- The round that ends. -/
theorem ScanInv.exit {r : ScanResult Log} (h : ScanInv first upTo ceiling total s)
    (hmax : upTo ≤ u64Max) (hbody : scanBody provider upTo s = .inr r) :
    Scanned first upTo ceiling total r := by
  unfold scanBody at hbody
  split at hbody
  · rename_i hle
    dsimp only at hbody
    cases hanswer : provider s.calls s.start (windowEnd s.start upTo s.span.current) with
    | logs batch =>
      rw [hanswer] at hbody
      dsimp only at hbody
      split at hbody
      · rename_i hend
        cases hbody
        rcases windowEnd_spec hle hmax h.span.pos with ⟨-, hlast, -⟩
        rcases h.calls_next hmax hle (.logs batch) with ⟨hok, hfollows⟩
        rcases h.scanned_logs hmax hle batch with ⟨hscanned, hlogs⟩
        -- The last block of all is the last of the range.
        rw [Nat.le_antisymm hlast (hend ▸ hmax)] at hscanned
        refine ⟨?_, nofun, hok, hfollows, h.length_next hle _⟩
        rintro logs hlogs'
        cases hlogs'
        exact ⟨hscanned, hlogs⟩
      · cases hbody
    | failed failure =>
      rw [hanswer] at hbody
      dsimp only at hbody
      split at hbody
      · split at hbody
        · rename_i hshrink
          cases hbody
          rcases windowEnd_spec hle hmax h.span.pos with ⟨hstart, -, -⟩
          exact h.failed hmax hle (fun _ => WindowSpan.shrink_eq_none hstart hshrink) _
        · cases hbody
      · rename_i hother
        split at hbody
        · cases hbody
        · cases hbody
          exact h.failed hmax hle (fun hrange => absurd hrange hother) _
  · rename_i hend
    cases hbody
    have hstart : s.start = upTo + 1 := Nat.le_antisymm h.start_le (Nat.lt_of_not_le hend)
    have hscanned := h.scanned
    rw [hstart] at hscanned
    refine ⟨?_, nofun, h.calls_ok, h.follows, Nat.le_trans (Nat.le_add_right _ _) h.spent⟩
    rintro logs hlogs
    cases hlogs
    exact ⟨hscanned, h.logs_eq⟩

/-! ## The scan -/

/-- The requests a scan of a range makes at most. -/
def maxCalls (first upTo ceiling : Nat) : Nat :=
  (upTo + 1 - first) * (Nat.log 2 ceiling + scanWindowRetries + 1) + Nat.log 2 ceiling +
    scanWindowRetries

/-- The loop starts with nothing scanned. -/
theorem ScanInv.init (hle : first ≤ upTo) (hceiling : 1 ≤ ceiling) :
    ScanInv first upTo ceiling (maxCalls first upTo ceiling)
      ({ span := .new ceiling, start := first } : Scan Log) where
  span := ⟨hceiling, Nat.le_refl _, rfl⟩
  retries_le := Nat.zero_le _
  le := Nat.le_refl _
  start_le := Nat.le_succ_of_le hle
  scanned := by
    rw [Nat.sub_self]
    rfl
  logs_eq := rfl
  spent := Nat.le_of_eq (Nat.zero_add _)
  calls_ok := nofun
  follows := List.isChain_nil
  next := nofun

/-- For every range, ceiling and provider, a scan ends after a bounded number of requests.  If it
succeeds, the windows it was answered are the blocks of the range in ascending order, without a gap
or an overlap, and the logs are their answers; if it fails, the error names a window that starts at
the first block not scanned.  Every window holds between one block and the ceiling, and the
one after a range rejection is strictly shorter. -/
theorem scan_logs_exact (provider : Provider Log) (start upTo ceiling : UInt64)
    (hle : start ≤ upTo) (hceiling : ceiling ≠ 0) :
    ∃ r, Scanned start.toNat upTo.toNat ceiling.toNat
        (maxCalls start.toNat upTo.toNat ceiling.toNat) r ∧
      ∀ rounds, maxCalls start.toNat upTo.toNat ceiling.toNat < rounds →
        scanLogs provider start upTo ceiling rounds = some r := by
  have hmax := toNat_le_u64Max upTo
  have hpos : 1 ≤ ceiling.toNat := Nat.pos_of_ne_zero fun h => hceiling (UInt64.toNat_inj.mp h)
  exact runLoop_spec (ScanInv.init (UInt64.le_iff_toNat_le.mp hle) hpos)
    (fun _ _ h hbody => h.body hmax (toNat_le_u64Max ceiling) hbody)
    fun _ _ h hbody => h.exit hmax hbody

/-- A provider that answers at most two blocks up to block 64, and later any window. -/
def sampleProvider : Provider Nat := fun _ start last =>
  if start + 1 < last ∧ start < 64 then .failed (.response "block range exceeds the limit")
  else .logs [start]

/-- The requests of a scan: how many, the window of the first, and the accepted windows at both
ends. -/
def requests (r : ScanResult Nat) :
    Nat × Option (Nat × Nat) × Option (Nat × Nat) × Option (Nat × Nat) :=
  (r.calls.length, r.calls.head?.map fun c => (c.start, c.last), (windows r.calls).head?,
    (windows r.calls).getLast?)

/-- The window of four blocks is rejected, the halved one regrows after 32 windows. -/
theorem scan_logs_exact_last :
    ∃ r, Scanned 0 67 4 (maxCalls 0 67 4) r ∧
      scanLogs sampleProvider 0 67 4 (maxCalls 0 67 4 + 1) = some r ∧
      requests r = (34, some (0, 3), some (0, 1), some (64, 67)) := by
  rcases scan_logs_exact sampleProvider 0 67 4 (by decide) (by decide) with ⟨r, hscanned, hruns⟩
  have hrun := hruns (maxCalls 0 67 4 + 1) (Nat.lt_succ_self _)
  have hrequests : (scanLogs sampleProvider 0 67 4 (maxCalls 0 67 4 + 1)).map requests =
      some (34, some (0, 3), some (0, 1), some (64, 67)) := by
    decide +kernel
  rw [hrun] at hrequests
  exact ⟨r, hscanned, hrun, Option.some.inj hrequests⟩

end Decdn.Incentive
