import Decdn.Origins.SeatIndex
import Mathlib.Data.Finset.Basic

/-!
# The seated-origin set of a node

`crates/node/src/dht/seated_origins.rs` and `crates/node/src/origin_seat_watcher.rs`: a node
keeps the operators that hold a seat in some namespace.  It reads every seat at a block below
the head, follows the seat events from there, and replaces the set by a new reading every half
hour.  A replacement keeps nothing of what the events brought after the block it reads at.

Main definitions:

- Structure `SeatedOriginSet`: operators with the namespaces they are seated in.
- Definition `seatsAt`: the paged reading of every seat at one block.
- Definition `Run`: the watcher's runs over a chain.

Main results:

- Theorem `mem_seatsAt`: the paged reading is complete and exact.
- Theorem `Run.holds_iff`: what the set holds after any run.
- Theorem `seated_set_exact_iff`: when it is the set of the contract.
-/

namespace Decdn.SeatWatcher

open OriginAssignment

/-! ## The set -/

/-- The seated operators, each with the namespaces it is seated in.  No operator is kept
without a namespace. -/
structure SeatedOriginSet where
  seats : Address → Option (Finset Nat)
  nonempty : ∀ operator, seats operator ≠ some ∅

/-- `SeatedOriginSet::new`. -/
def SeatedOriginSet.new : SeatedOriginSet := ⟨fun _ => none, fun _ => (Option.some_ne_none ∅).symm⟩

/-- The operator is seated in the namespace. -/
def SeatedOriginSet.Holds (S : SeatedOriginSet) (namespaceId : Nat) (operator : Address) : Prop :=
  ∃ namespaces, S.seats operator = some namespaces ∧ namespaceId ∈ namespaces

/-- `is_seated`. -/
def SeatedOriginSet.isSeated (S : SeatedOriginSet) (operator : Address) : Bool :=
  (S.seats operator).isSome

/-- Store the namespaces of an operator, or drop it with its last one. -/
def keep (namespaces : Finset Nat) : Option (Finset Nat) :=
  if namespaces = ∅ then none else some namespaces

theorem keep_ne_empty (namespaces : Finset Nat) : keep namespaces ≠ some ∅ := by
  unfold keep
  split
  · exact (Option.some_ne_none ∅).symm
  · rename_i hne
    exact fun h => hne (Option.some.inj h)

theorem update_ne_empty (S : SeatedOriginSet) {operator : Address} {v : Option (Finset Nat)}
    (hv : v ≠ some ∅) (other : Address) : Function.update S.seats operator v other ≠ some ∅ := by
  by_cases h : other = operator
  · subst h
    rw [Function.update_self]
    exact hv
  · rw [Function.update_of_ne h]
    exact S.nonempty other

theorem insert_ne_empty (namespaceId : Nat) (namespaces : Finset Nat) :
    some (insert namespaceId namespaces) ≠ some ∅ :=
  fun h => Finset.insert_ne_empty namespaceId namespaces (Option.some.inj h)

/-- `seat`. -/
def SeatedOriginSet.seat (S : SeatedOriginSet) (namespaceId : Nat) (operator : Address) :
    SeatedOriginSet where
  seats := Function.update S.seats operator
    (some (insert namespaceId ((S.seats operator).getD ∅)))
  nonempty := update_ne_empty S (insert_ne_empty _ _)

/-- `unseat`: the operator leaves the set with its last seat. -/
def SeatedOriginSet.unseat (S : SeatedOriginSet) (namespaceId : Nat) (operator : Address) :
    SeatedOriginSet where
  seats := Function.update S.seats operator
    (keep (((S.seats operator).getD ∅).erase namespaceId))
  nonempty := update_ne_empty S (keep_ne_empty _)

/-- `replace`: the set of an enumeration of seats, whatever was held before. -/
def replace (seats : List (Nat × Address)) : SeatedOriginSet :=
  seats.foldl (fun S seat => S.seat seat.1 seat.2) .new

/-! ## The reading -/

/-- Namespaces read per page. -/
def pageSize : Nat := 256

/-- The loop of `seats_at` from `offset` on, in at most `fuel` pages. -/
def readPages (s : State) : Nat → Nat → List (Nat × Address)
  | 0, _ => []
  | fuel + 1, offset =>
    if s.assignedNamespaces.length ≤ offset then []
    else
      let page := s.assignedPage offset pageSize
      if page = [] then []
      else
        page.flatMap (fun namespaceId => (s.origins namespaceId).map fun op => (namespaceId, op)) ++
          readPages s fuel (offset + page.length)

/-- `seats_at`: every seat of the contract's state at one block.  A page is never empty before
the end, so there are at most as many pages as namespaces. -/
def seatsAt (s : State) : List (Nat × Address) := readPages s s.assignedNamespaces.length 0

/-! ## The watcher -/

/-- Seconds between two readings. -/
def reseedInterval : Nat := 30 * 60

/-- A reading is forced on recovery unless the last is younger than this part of the interval. -/
def recoveryFloorDivisor : Nat := 15

/-- The sink of the seat events. -/
structure SeatSink where
  seated : SeatedOriginSet
  lastReseed : Option Nat

/-- `apply`: one event of the log. -/
def SeatSink.apply (w : SeatSink) (e : Event) : SeatSink :=
  match e.seatChange with
  | some (true, namespaceId, operator) => { w with seated := w.seated.seat namespaceId operator }
  | some (false, namespaceId, operator) => { w with seated := w.seated.unseat namespaceId operator }
  | none => w

/-- A reading is due. -/
def SeatSink.Due (w : SeatSink) (now : Nat) : Prop :=
  ∀ last, w.lastReseed = some last → reseedInterval ≤ now - last

instance (w : SeatSink) (now : Nat) : Decidable (w.Due now) :=
  decidable_of_iff (∀ last ∈ w.lastReseed, reseedInterval ≤ now - last) Iff.rfl

/-- `on_tick_complete`: when a reading is due, its outcome replaces the set; a reading that
fails keeps the set and waits for the next interval as well. -/
def SeatSink.onTickComplete (w : SeatSink) (now : Nat) (read : Option (List (Nat × Address))) :
    SeatSink :=
  if w.Due now then
    match read with
    | some seats => { seated := replace seats, lastReseed := some now }
    | none => { w with lastReseed := some now }
  else w

/-- `on_recovered`. -/
def SeatSink.onRecovered (w : SeatSink) (now : Nat) : SeatSink :=
  match w.lastReseed with
  | none => w
  | some last =>
    if reseedInterval / recoveryFloorDivisor ≤ now - last then { w with lastReseed := none } else w

/-- A chain without reorganisation: the events, how many of them lie in the blocks up to each,
and the contract's state at each block. -/
structure Chain (L : Sets) where
  log : List Event
  through : Nat → Nat
  stateAt : Nat → State
  log_stateAt : ∀ n, (stateAt n).log = log.take (through n)
  through_le : ∀ n, through n ≤ log.length
  reachable : ∀ n, ∃ w, Reachable L w ∧ w.seats = stateAt n

variable {L : Sets}

/-- The runs of a watcher: `Run C w p s q` when its tail has applied the first `p` events, and its
last reading was at block `s`, made when the tail had applied the first `q`. -/
inductive Run (C : Chain L) : SeatSink → Nat → Nat → Nat → Prop where
  /-- The tail starts no later than the end of the block that was read. -/
  | boot {at_ p : Nat} (now : Nat) (hp : p ≤ C.through at_) :
      Run C ⟨replace (seatsAt (C.stateAt at_)), some now⟩ p at_ p
  | apply {w : SeatSink} {p s q : Nat} {e : Event} (h : Run C w p s q) (he : C.log[p]? = some e) :
      Run C (w.apply e) (p + 1) s q
  | reread {w : SeatSink} {p s q : Nat} (now n : Nat) (h : Run C w p s q) (hdue : w.Due now) :
      Run C (w.onTickComplete now (some (seatsAt (C.stateAt n)))) p n p
  | failed {w : SeatSink} {p s q : Nat} (now : Nat) (h : Run C w p s q) :
      Run C (w.onTickComplete now none) p s q
  | idle {w : SeatSink} {p s q : Nat} (now : Nat) (read : Option (List (Nat × Address)))
      (h : Run C w p s q) (hdue : ¬ w.Due now) : Run C (w.onTickComplete now read) p s q
  | recovered {w : SeatSink} {p s q : Nat} (now : Nat) (h : Run C w p s q) :
      Run C (w.onRecovered now) p s q

/-! ## The set and the reading -/

theorem isSeated_iff (S : SeatedOriginSet) (operator : Address) :
    S.isSeated operator = true ↔ ∃ namespaceId, S.Holds namespaceId operator := by
  unfold SeatedOriginSet.isSeated SeatedOriginSet.Holds
  rw [Option.isSome_iff_exists]
  constructor
  · rintro ⟨namespaces, h⟩
    have hne : namespaces ≠ ∅ := fun hempty => S.nonempty operator (hempty ▸ h)
    rcases Finset.nonempty_iff_ne_empty.mpr hne with ⟨namespaceId, hmem⟩
    exact ⟨namespaceId, namespaces, h, hmem⟩
  · rintro ⟨namespaceId, namespaces, h, -⟩
    exact ⟨namespaces, h⟩

theorem holds_getD (S : SeatedOriginSet) (namespaceId : Nat) (operator : Address) :
    S.Holds namespaceId operator ↔ namespaceId ∈ (S.seats operator).getD ∅ := by
  unfold SeatedOriginSet.Holds
  cases S.seats operator with
  | none => simp
  | some namespaces => simp

theorem getD_keep (namespaces : Finset Nat) : (keep namespaces).getD ∅ = namespaces := by
  unfold keep
  split
  · rename_i h
    exact h.symm
  · rfl

@[simp]
theorem holds_new (namespaceId : Nat) (operator : Address) :
    ¬ SeatedOriginSet.new.Holds namespaceId operator := by
  rw [holds_getD]
  exact Finset.notMem_empty _

@[simp]
theorem holds_seat (S : SeatedOriginSet) (id namespaceId : Nat) (op operator : Address) :
    (S.seat id op).Holds namespaceId operator ↔
      (namespaceId = id ∧ operator = op) ∨ S.Holds namespaceId operator := by
  simp only [holds_getD, SeatedOriginSet.seat]
  by_cases hop : operator = op
  · subst hop
    simp
  · simp [hop]

@[simp]
theorem holds_unseat (S : SeatedOriginSet) (id namespaceId : Nat) (op operator : Address) :
    (S.unseat id op).Holds namespaceId operator ↔
      ¬ (namespaceId = id ∧ operator = op) ∧ S.Holds namespaceId operator := by
  simp only [holds_getD, SeatedOriginSet.unseat]
  by_cases hop : operator = op
  · subst hop
    simp [getD_keep]
  · simp [hop]

/-- A replacement holds what was enumerated. -/
theorem holds_replace (seats : List (Nat × Address)) (namespaceId : Nat) (operator : Address) :
    (replace seats).Holds namespaceId operator ↔ (namespaceId, operator) ∈ seats := by
  unfold replace
  induction seats using List.reverseRecOn with
  | nil => simp
  | append_singleton seats seat ih =>
    rw [List.foldl_append, List.foldl_cons, List.foldl_nil, holds_seat, ih, List.mem_append,
      List.mem_singleton, Prod.mk.injEq, or_comm]

/-- The loop reads the seats of the namespaces from `offset` on. -/
theorem mem_readPages (s : State) {fuel offset : Nat}
    (hfuel : s.assignedNamespaces.length ≤ offset + fuel) (namespaceId : Nat)
    (operator : Address) :
    (namespaceId, operator) ∈ readPages s fuel offset ↔
      namespaceId ∈ s.assignedNamespaces.drop offset ∧ operator ∈ s.origins namespaceId := by
  induction fuel generalizing offset with
  | zero =>
    have hnil : s.assignedNamespaces.drop offset = [] := List.drop_eq_nil_of_le hfuel
    simp [hnil, readPages]
  | succ fuel ih =>
    unfold readPages
    split
    · rename_i hpast
      simp [List.drop_eq_nil_of_le hpast]
    · rename_i hmore
      have hpage : s.assignedPage offset pageSize =
          (s.assignedNamespaces.drop offset).take pageSize := page_eq _ _ _
      have hlength : (s.assignedPage offset pageSize).length =
          min pageSize (s.assignedNamespaces.length - offset) := by
        rw [hpage, List.length_take, List.length_drop]
      have hpositive : 0 < (s.assignedPage offset pageSize).length := by
        unfold pageSize at hlength ⊢
        omega
      rw [if_neg (List.ne_nil_of_length_pos hpositive), List.mem_append, ih (by omega)]
      have hsplit : namespaceId ∈ s.assignedNamespaces.drop offset ↔
          namespaceId ∈ s.assignedPage offset pageSize ∨
            namespaceId ∈ s.assignedNamespaces.drop
              (offset + (s.assignedPage offset pageSize).length) := by
        rw [← List.drop_drop, hpage, ← List.mem_append,
          List.prefix_iff_eq_append.mp (List.take_prefix _ _)]
      rw [hsplit]
      simp only [List.mem_flatMap, List.mem_map, Prod.mk.injEq]
      constructor
      · rintro (⟨id, hid, op, hop, rfl, rfl⟩ | ⟨hid, hop⟩)
        · exact ⟨.inl hid, hop⟩
        · exact ⟨.inr hid, hop⟩
      · rintro ⟨hid | hid, hop⟩
        · exact .inl ⟨namespaceId, hid, operator, hop, rfl, rfl⟩
        · exact .inr ⟨hid, hop⟩

/-- The paged reading of a block returns exactly the seats of the contract there. -/
theorem mem_seatsAt {s : State} (h : Indexed s) (namespaceId : Nat) (operator : Address) :
    (namespaceId, operator) ∈ seatsAt s ↔ operator ∈ s.origins namespaceId := by
  rw [seatsAt, mem_readPages s (Nat.le_add_left _ _), List.drop_zero, h.mem_assigned]
  exact ⟨fun hboth => hboth.2, fun hop => ⟨List.ne_nil_of_mem hop, hop⟩⟩

/-! ## Runs -/

variable {C : Chain L} {w : SeatSink} {p s q : Nat} {namespaceId : Nat} {operator : Address}

/-- The seats after the first `p` events. -/
def Chain.seated (C : Chain L) (p : Nat) (namespaceId : Nat) (operator : Address) : Bool :=
  seatedIn (C.log.take p) namespaceId operator

/-- Some event from number `q` up to number `p` is about the seat. -/
def Chain.Touched (C : Chain L) (q p : Nat) (namespaceId : Nat) (operator : Address) : Prop :=
  ∃ i e change, q ≤ i ∧ i < p ∧ C.log[i]? = some e ∧
    e.seatChange = some (change, namespaceId, operator)

/-- A reading of block `n` is the state of the log there. -/
theorem Chain.holds_reading (C : Chain L) (n : Nat) :
    (replace (seatsAt (C.stateAt n))).Holds namespaceId operator ↔
      C.seated (C.through n) namespaceId operator = true := by
  rcases C.reachable n with ⟨w, hw, hstate⟩
  have hindexed : Indexed (C.stateAt n) := hstate ▸ hw.inv.indexed
  rw [holds_replace, mem_seatsAt hindexed, hindexed.replayed, C.log_stateAt n]
  rfl

/-- One event changes the set as it changes the seats. -/
theorem holds_apply {w : SeatSink} {seated : Bool} (e : Event)
    (h : w.seated.Holds namespaceId operator ↔ seated = true) :
    (w.apply e).seated.Holds namespaceId operator ↔
      replaySeat namespaceId operator seated e = true := by
  unfold SeatSink.apply replaySeat
  cases hchange : e.seatChange with
  | none => exact h
  | some change =>
    rcases change with ⟨_ | _, id, op⟩
    · simp only [holds_unseat, h]
      by_cases hseat : id = namespaceId ∧ op = operator
      · rw [if_pos hseat, hseat.1, hseat.2]
        simp
      · rw [if_neg hseat]
        exact ⟨fun hboth => hboth.2,
          fun hheld => ⟨fun heq => hseat ⟨heq.1.symm, heq.2.symm⟩, hheld⟩⟩
    · simp only [holds_seat, h]
      by_cases hseat : id = namespaceId ∧ op = operator
      · rw [if_pos hseat, hseat.1, hseat.2]
        simp
      · rw [if_neg hseat]
        exact ⟨fun hor => hor.resolve_left fun heq => hseat ⟨heq.1.symm, heq.2.symm⟩, .inr⟩

/-- A tick that does not replace the set leaves it alone. -/
theorem seated_onTickComplete_none (w : SeatSink) (now : Nat) :
    (w.onTickComplete now none).seated = w.seated := by
  unfold SeatSink.onTickComplete
  split <;> rfl

theorem seated_onRecovered (w : SeatSink) (now : Nat) : (w.onRecovered now).seated = w.seated := by
  unfold SeatSink.onRecovered
  split
  · rfl
  · split <;> rfl

/-- What the set holds after any run: the seats at the block of the last reading, changed by the
events that were applied after it. -/
theorem Run.holds_iff (h : Run C w p s q) (namespaceId : Nat) (operator : Address) :
    q ≤ p ∧ p ≤ C.log.length ∧ (w.seated.Holds namespaceId operator ↔
      ((C.log.take p).drop q).foldl (replaySeat namespaceId operator)
        (C.seated (C.through s) namespaceId operator) = true) := by
  induction h with
  | boot now hp =>
    refine ⟨Nat.le_refl _, hp.trans (C.through_le _), ?_⟩
    rw [C.holds_reading, List.drop_eq_nil_of_le (List.length_take_le _ _), List.foldl_nil]
  | @apply w p s q e h he ih =>
    rcases ih with ⟨hle, -, hholds⟩
    have hlt : p < C.log.length := (List.getElem?_eq_some_iff.mp he).1
    have htake : C.log.take (p + 1) = C.log.take p ++ [e] := by
      rw [List.take_add_one, he, Option.toList_some]
    have hlength : q ≤ (C.log.take p).length := by
      rw [List.length_take]
      omega
    refine ⟨Nat.le_succ_of_le hle, hlt, ?_⟩
    rw [htake, List.drop_append_of_le_length hlength, List.foldl_append, List.foldl_cons,
      List.foldl_nil]
    exact holds_apply e hholds
  | @reread w p s q now n h hdue ih =>
    refine ⟨Nat.le_refl _, ih.2.1, ?_⟩
    unfold SeatSink.onTickComplete
    rw [if_pos hdue, List.drop_eq_nil_of_le (List.length_take_le _ _), List.foldl_nil]
    exact C.holds_reading n
  | failed now h ih =>
    rw [seated_onTickComplete_none]
    exact ih
  | idle now read h hdue ih =>
    unfold SeatSink.onTickComplete
    rw [if_neg hdue]
    exact ih
  | recovered now h ih =>
    rw [seated_onRecovered]
    exact ih

/-- Events about other seats leave a seat alone. -/
theorem foldl_replaySeat_untouched {es : List Event}
    (h : ∀ e ∈ es, ∀ change, e.seatChange ≠ some (change, namespaceId, operator)) (seated : Bool) :
    es.foldl (replaySeat namespaceId operator) seated = seated := by
  induction es generalizing seated with
  | nil => rfl
  | cons e es ih =>
    rw [List.foldl_cons, ih fun e' he' => h e' (List.mem_cons_of_mem _ he')]
    unfold replaySeat
    split
    · rename_i change id op hchange
      rw [if_neg]
      rintro ⟨rfl, rfl⟩
      exact h e List.mem_cons_self change hchange
    · rfl

/-- After an event about the seat, what was before no longer matters. -/
theorem foldl_replaySeat_touched {es : List Event}
    (h : ∃ e ∈ es, ∃ change, e.seatChange = some (change, namespaceId, operator))
    (seated seated' : Bool) :
    es.foldl (replaySeat namespaceId operator) seated =
      es.foldl (replaySeat namespaceId operator) seated' := by
  induction es generalizing seated seated' with
  | nil =>
    rcases h with ⟨e, he, -⟩
    exact absurd he List.not_mem_nil
  | cons e es ih =>
    rw [List.foldl_cons, List.foldl_cons]
    rcases h with ⟨e', he', change, hchange⟩
    rcases List.mem_cons.mp he' with rfl | he'
    · unfold replaySeat
      simp [hchange]
    · exact ih ⟨e', he', change, hchange⟩ _ _

theorem Chain.touched_iff (C : Chain L) {q p : Nat} :
    C.Touched q p namespaceId operator ↔ ∃ e ∈ (C.log.take p).drop q, ∃ change,
      e.seatChange = some (change, namespaceId, operator) := by
  unfold Chain.Touched
  constructor
  · rintro ⟨i, e, change, hqi, hip, he, hchange⟩
    refine ⟨e, ?_, change, hchange⟩
    rw [List.mem_iff_getElem?]
    refine ⟨i - q, ?_⟩
    rw [List.getElem?_drop, Nat.add_sub_cancel' hqi, List.getElem?_take_of_lt hip]
    exact he
  · rintro ⟨e, he, change, hchange⟩
    rcases List.mem_iff_getElem?.mp he with ⟨j, hj⟩
    rw [List.getElem?_drop] at hj
    have hlt : q + j < p := by
      have := (List.getElem?_eq_some_iff.mp hj).1
      rw [List.length_take] at this
      omega
    rw [List.getElem?_take_of_lt hlt] at hj
    exact ⟨q + j, e, change, Nat.le_add_right _ _, hlt, hj, hchange⟩

/-- A later truth replays the events since an earlier one. -/
theorem Chain.seated_eq (C : Chain L) {q p : Nat} (h : q ≤ p) :
    C.seated p namespaceId operator = ((C.log.take p).drop q).foldl
      (replaySeat namespaceId operator) (C.seated q namespaceId operator) := by
  have hsplit : C.log.take p = C.log.take q ++ (C.log.take p).drop q := by
    conv_lhs => rw [← List.take_append_drop q (C.log.take p)]
    rw [List.take_take, Nat.min_eq_left h]
  unfold Chain.seated seatedIn
  conv_lhs => rw [hsplit]
  rw [List.foldl_append]

/-- The set agrees with the seats after `p` events, one seat at a time. -/
theorem Run.agrees_iff (h : Run C w p s q) (namespaceId : Nat) (operator : Address) :
    (w.seated.Holds namespaceId operator ↔ C.seated p namespaceId operator = true) ↔
      C.Touched q p namespaceId operator ∨
        C.seated (C.through s) namespaceId operator = C.seated q namespaceId operator := by
  rcases h.holds_iff namespaceId operator with ⟨hle, -, hholds⟩
  rw [hholds, C.seated_eq hle, C.touched_iff]
  by_cases htouched : ∃ e ∈ (C.log.take p).drop q, ∃ change,
      e.seatChange = some (change, namespaceId, operator)
  · rw [foldl_replaySeat_touched htouched _ (C.seated q namespaceId operator)]
    exact ⟨fun _ => .inl htouched, fun _ => Iff.rfl⟩
  · have huntouched : ∀ e ∈ (C.log.take p).drop q, ∀ change,
        e.seatChange ≠ some (change, namespaceId, operator) :=
      fun e he change hchange => htouched ⟨e, he, change, hchange⟩
    rw [foldl_replaySeat_untouched huntouched, foldl_replaySeat_untouched huntouched,
      or_iff_right htouched]
    exact Bool.eq_iff_iff.symm

/-! ## Main result -/

/-- After every run that has applied the events through block `f`, the set is the seats of the
contract at `f` exactly when every seat was the same at the block of the last reading as after
the events the tail had applied by then, or was changed by an event since.  A reading that was
neither behind the tail nor past `f` always meets this; one that was behind forgets what lay
between. -/
theorem seated_set_exact_iff {f : Nat} (h : Run C w (C.through f) s q) :
    (∀ operator, w.seated.isSeated operator = true ↔
      ∃ namespaceId, w.seated.Holds namespaceId operator) ∧
    ((∀ namespaceId operator, w.seated.Holds namespaceId operator ↔
        operator ∈ (C.stateAt f).origins namespaceId) ↔
      ∀ namespaceId operator, C.Touched q (C.through f) namespaceId operator ∨
        C.seated (C.through s) namespaceId operator = C.seated q namespaceId operator) ∧
    (q ≤ C.through s → C.through s ≤ C.through f →
      ∀ namespaceId operator, w.seated.Holds namespaceId operator ↔
        operator ∈ (C.stateAt f).origins namespaceId) := by
  have hstate : ∀ namespaceId operator, operator ∈ (C.stateAt f).origins namespaceId ↔
      C.seated (C.through f) namespaceId operator = true := by
    intro namespaceId operator
    rcases C.reachable f with ⟨w, hw, hstate⟩
    rw [← hstate, hw.inv.indexed.replayed, hstate, C.log_stateAt f]
    rfl
  refine ⟨isSeated_iff w.seated, ?_, ?_⟩
  · refine forall_congr' fun namespaceId => forall_congr' fun operator => ?_
    rw [hstate]
    exact h.agrees_iff namespaceId operator
  · intro hahead hpast namespaceId operator
    rw [hstate]
    refine (h.agrees_iff namespaceId operator).mpr ?_
    by_cases htouched : C.Touched q (C.through f) namespaceId operator
    · exact .inl htouched
    · right
      rw [C.seated_eq hahead, foldl_replaySeat_untouched]
      intro e he change hchange
      rcases C.touched_iff.mpr ⟨e, he, change, hchange⟩ with ⟨i, e', change', hqi, his, he', hc⟩
      exact htouched ⟨i, e', change', hqi, Nat.lt_of_lt_of_le his hpast, he', hc⟩

/-- The contract after account 5 seated operator 4 in namespace 1. -/
def sampleSeated : State :=
  { vettingPolicy := 3
    origins := Function.update (fun _ => []) 1 [4]
    assignedNamespaces := [1]
    log := [.originAdded 1 4 5] }

theorem sampleSeated_reachable : ∃ w, Reachable sampleSets w ∧ w.seats = sampleSeated := by
  have hdeployed : Reachable sampleSets ⟨100, {}, { vettingPolicy := 3 }⟩ :=
    .deployed sampleTx 1 2 3 9 rfl
  have hcreated := hdeployed.step
    (.registry (sampleRegistryTx 5 100) .createNamespace (Nat.le_refl _) rfl)
  have hseated := hcreated.step (.seats sampleTx (.addOrigin 1 4) (Nat.le_refl _) rfl)
  exact ⟨_, hseated, rfl⟩

/-- The seat is taken in block 1. -/
def sampleChain : Chain sampleSets where
  log := [.originAdded 1 4 5]
  through := fun n => if n = 0 then 0 else 1
  stateAt := fun n => if n = 0 then { vettingPolicy := 3 } else sampleSeated
  log_stateAt := by
    intro n
    split <;> rfl
  through_le := by
    intro n
    split
    · exact Nat.zero_le _
    · exact Nat.le_refl _
  reachable := by
    intro n
    split
    · exact ⟨_, .deployed sampleTx 1 2 3 9 rfl, rfl⟩
    · exact sampleSeated_reachable

/-- A reading one block behind the tail makes the set forget a seat that the contract holds. -/
theorem seated_set_exact_iff_sample : ∃ w, Run sampleChain w (sampleChain.through 1) 0 1 ∧
    4 ∈ (sampleChain.stateAt 1).origins 1 ∧
    ¬ ∀ namespaceId operator, w.seated.Holds namespaceId operator ↔
      operator ∈ (sampleChain.stateAt 1).origins namespaceId := by
  have hboot : Run sampleChain _ 1 1 1 := .boot 0 (Nat.le_refl _)
  have hdue : SeatSink.Due ⟨replace (seatsAt (sampleChain.stateAt 1)), some 0⟩ 1800 := by decide
  have hrun := hboot.reread 1800 0 hdue
  refine ⟨_, hrun, List.mem_cons_self, fun hexact => ?_⟩
  rcases (seated_set_exact_iff (f := 1) hrun).2.1.mp hexact 1 4 with htouched | hsame
  · rcases htouched with ⟨i, e, change, hqi, hip, -⟩
    exact absurd hip (Nat.not_lt.mpr hqi)
  · exact absurd hsame (by decide)

end Decdn.SeatWatcher
