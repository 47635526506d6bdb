import Decdn.Appeals.System

/-!
# The ledger of the appeals

Every appeal is filed once and closed once.  Its bond leaves the contract with the closing
event: back to the appellant if the slash was reversed, burned if it stands.

Main definitions:

- Definition `Event.payments`: the payment that goes with an event.
- Structure `Books`: the log, the payments and the appeals say the same.

Main results:

- Theorem `Reachable.books`: they do in every reachable world.
- Theorem `bond_settled_once`: where the bonds are.
-/

namespace Decdn.SlashAppeal

open CapacityBond (Payment SlashStatus)

/-! ## What the events say -/

/-- The appellant and the bond of an appeal about the slash, if the event files one. -/
def Event.filing (slashId : Nat) : Event → Option (Address × Nat)
  | .appealOpened id _ appellant bond _ => if id = slashId then some (appellant, bond) else none
  | _ => none

/-- The slash whose appeal the event closes, and what the slash becomes. -/
def Event.verdict : Event → Option (Nat × SlashStatus)
  | .appealRejected slashId _ | .appealUpheld slashId _ => some (slashId, .upheld)
  | .appealGranted slashId _ _ => some (slashId, .reversed)
  | .appealLapsed slashId reason => some (slashId, if reason = 1 then .upheld else .reversed)
  | _ => none

/-- The appellant and the bond that a log names for the appeal of a slash. -/
def filedIn (log : List Event) (slashId : Nat) : Option (Address × Nat) :=
  log.findSome? (Event.filing slashId)

/-- How a bond leaves the contract. -/
def settlement (status : SlashStatus) (appellant : Address) (bond : Nat) : Payment :=
  if status = .upheld then .burn bond else .transfer appellant bond

/-- The payments an event goes with. -/
def Event.payments (log : List Event) (e : Event) : List Payment :=
  match e.verdict with
  | none => []
  | some (slashId, status) =>
    match filedIn log slashId with
    | none => []
    | some (appellant, bond) => [settlement status appellant bond]

/-- The event files an appeal about the slash. -/
def Event.opens (slashId : Nat) (e : Event) : Bool := (e.filing slashId).isSome

/-- The event closes the appeal about the slash. -/
def Event.closes (slashId : Nat) (e : Event) : Bool :=
  decide (e.verdict.map Prod.fst = some slashId)

/-- The amount an event names is the bond the appeal was filed with. -/
def Event.Exact (log : List Event) : Event → Prop
  | .appealRejected slashId amount | .appealUpheld slashId amount =>
    ∃ appellant, filedIn log slashId = some (appellant, amount)
  | .appealGranted slashId operator amount => filedIn log slashId = some (operator, amount)
  | _ => True

/-- An event that neither files nor closes an appeal. -/
def Event.Quiet (e : Event) : Prop := (∀ id, e.filing id = none) ∧ e.verdict = none

/-- The log, the payments and the appeals say the same. -/
structure Books (w : World) : Prop where
  opened : ∀ id, w.appeal.log.countP (Event.opens id) =
    if (w.appeal.appeals id).status = .none then 0 else 1
  closed : ∀ id, w.appeal.log.countP (Event.closes id) =
    if (w.appeal.appeals id).status = .resolved then 1 else 0
  filed : ∀ id, (w.appeal.appeals id).status ≠ .none → ∃ bond,
    filedIn w.appeal.log id = some ((w.appeal.appeals id).appellant, bond) ∧
    appealBondFloor ≤ bond ∧ ((w.appeal.appeals id).Pending → bond = (w.appeal.appeals id).bond)
  verdicts : ∀ e ∈ w.appeal.log, ∀ id status, e.verdict = some (id, status) →
    (w.bond.slashRecords id).status = status
  amounts : ∀ e ∈ w.appeal.log, e.Exact w.appeal.log
  ledger : w.appeal.payments = w.appeal.log.flatMap (Event.payments w.appeal.log)

/-! ## Longer logs -/

section Logs

variable {log log' events : List Event} {e : Event}

/-- Quiet events name no filing. -/
theorem filedIn_append_quiet (h : ∀ e ∈ events, e.Quiet) (id : Nat) :
    filedIn (log ++ events) id = filedIn log id := by
  have hnone : events.findSome? (Event.filing id) = none :=
    List.findSome?_eq_none_iff.mpr fun e he => (h e he).1 id
  unfold filedIn
  rw [List.findSome?_append, hnone, Option.or_none]

/-- An event is exact in a log that names the same filings for what it closes. -/
theorem Event.Exact.congr (h : e.Exact log)
    (hsame : ∀ id, e.closes id = true → filedIn log' id = filedIn log id) : e.Exact log' := by
  have hself : ∀ {id status}, e.verdict = some (id, status) → filedIn log' id = filedIn log id := by
    intro id status hverdict
    exact hsame id (by simp [Event.closes, hverdict])
  cases e with
  | appealRejected slashId amount =>
    rcases h with ⟨appellant, h⟩
    exact ⟨appellant, (hself rfl).trans h⟩
  | appealUpheld slashId amount =>
    rcases h with ⟨appellant, h⟩
    exact ⟨appellant, (hself rfl).trans h⟩
  | appealGranted slashId operator amount => exact (hself rfl).trans h
  | appealOpened | appealFastTracked | appealLapsed | appealBondUpdated => trivial

/-- What an event pays depends on the filing it closes only. -/
theorem Event.payments_congr
    (hsame : ∀ id, e.closes id = true → filedIn log' id = filedIn log id) :
    e.payments log' = e.payments log := by
  unfold Event.payments
  split
  · rfl
  · rename_i slashId status hverdict
    rw [hsame slashId (by simp [Event.closes, hverdict])]

/-- A log with no event about the slash. -/
theorem forall_of_countP_zero {p : Event → Bool} (h : log.countP p = 0) : ∀ e ∈ log, p e = false :=
  fun e he => by simpa using List.countP_eq_zero.mp h e he

end Logs

variable {H : CapacityBond.Wiring} {w w' : World}

/-- A closed appeal is resolved. -/
theorem Books.resolved_of_closes (hbooks : Books w) {e : Event} (he : e ∈ w.appeal.log) (id : Nat)
    (hcloses : e.closes id = true) : (w.appeal.appeals id).status = .resolved := by
  by_contra hne
  have hcount := hbooks.closed id
  rw [if_neg hne] at hcount
  have hzero := forall_of_countP_zero hcount e he
  rw [hcloses] at hzero
  cases hzero

/-! ## Steps -/

/-- A step that files and closes nothing. -/
theorem Books.quiet (hbooks : Books w) {now : Nat} {b : CapacityBond.State} {s : State}
    (events : List Event) (hquiet : ∀ e ∈ events, e.Quiet) (hlog : s.log = w.appeal.log ++ events)
    (hpayments : s.payments = w.appeal.payments)
    (hrecords : ∀ id, (w.appeal.appeals id).status = .resolved →
      (b.slashRecords id).status = (w.bond.slashRecords id).status)
    (hnone : ∀ id, (s.appeals id).status = .none ↔ (w.appeal.appeals id).status = .none)
    (hresolved : ∀ id, (s.appeals id).status = .resolved ↔
      (w.appeal.appeals id).status = .resolved)
    (happellant : ∀ id, (s.appeals id).appellant = (w.appeal.appeals id).appellant)
    (hbond : ∀ id, (s.appeals id).bond = (w.appeal.appeals id).bond) : Books ⟨now, b, s⟩ := by
  have hfiling : ∀ id, filedIn s.log id = filedIn w.appeal.log id := by
    intro id
    rw [hlog, filedIn_append_quiet hquiet]
  have hcount : ∀ {p : Event → Bool}, (∀ e, e.Quiet → p e = false) →
      s.log.countP p = w.appeal.log.countP p := by
    intro p hp
    have hzero : events.countP p = 0 := by
      rw [List.countP_eq_zero]
      intro e he
      simp [hp e (hquiet e he)]
    rw [hlog, List.countP_append, hzero, Nat.add_zero]
  have hold : ∀ e ∈ s.log, e.verdict ≠ none → e ∈ w.appeal.log := by
    intro e he hverdict
    rw [hlog, List.mem_append] at he
    exact he.resolve_right fun he => hverdict (hquiet e he).2
  refine ⟨fun id => ?_, fun id => ?_, fun id h => ?_, fun e he id status hverdict => ?_,
    fun e he => ?_, ?_⟩
  · change s.log.countP _ = if (s.appeals id).status = .none then 0 else 1
    rw [hcount fun e he => by simp [Event.opens, he.1 id], hbooks.opened]
    simp only [hnone]
  · change s.log.countP _ = if (s.appeals id).status = .resolved then 1 else 0
    rw [hcount fun e he => by simp [Event.closes, he.2], hbooks.closed]
    simp only [hresolved]
  · change (s.appeals id).status ≠ .none at h
    rcases hbooks.filed id (mt (hnone id).mpr h) with ⟨bond, hfiled, hfloor, hlive⟩
    refine ⟨bond, ?_, hfloor, fun hpending => ?_⟩
    · change filedIn s.log id = some ((s.appeals id).appellant, bond)
      rw [hfiling, happellant]
      exact hfiled
    · change bond = (s.appeals id).bond
      rw [hbond]
      refine hlive ?_
      change (s.appeals id).Pending at hpending
      -- An appeal that is neither absent nor resolved is pending.
      cases hstatus : (w.appeal.appeals id).status with
      | none => exact absurd ((hnone id).mpr hstatus) h
      | opened => exact .inl hstatus
      | fastTracked => exact .inr hstatus
      | resolved =>
        exact absurd hpending (not_pending_of_resolved ((hresolved id).mpr hstatus))
  · have hmem := hold e he (by rw [hverdict]; simp)
    have hres := hbooks.resolved_of_closes hmem id (by simp [Event.closes, hverdict])
    exact (hrecords id hres).trans (hbooks.verdicts e hmem id status hverdict)
  · change e ∈ s.log at he
    change e.Exact s.log
    rw [hlog, List.mem_append] at he
    rcases he with he | he
    · exact (hbooks.amounts e he).congr fun id _ => hfiling id
    · have hverdict := (hquiet e he).2
      cases e <;> trivial
  · change s.payments = s.log.flatMap (Event.payments s.log)
    have hzero : events.flatMap (Event.payments s.log) = [] := by
      rw [List.flatMap_eq_nil_iff]
      intro e he
      simp [Event.payments, (hquiet e he).2]
    have hsame : Event.payments s.log = Event.payments w.appeal.log :=
      funext fun e => Event.payments_congr fun id _ => hfiling id
    rw [hpayments, hbooks.ledger]
    conv_rhs => rw [hlog, List.flatMap_append, ← hlog, hzero, List.append_nil, hsame]

/-- Filing an appeal. -/
theorem Books.filing (hbooks : Books w) (hinv : Inv w) {tx : Tx} {b : CapacityBond.State}
    {slashId : Nat} {hash : Bytes32} (hfresh : (w.appeal.appeals slashId).status = .none)
    (hrecords : ∀ id, (w.appeal.appeals id).status = .resolved →
      (b.slashRecords id).status = (w.bond.slashRecords id).status) :
    Books ⟨tx.timestamp, b, filedState tx w.appeal slashId hash⟩ := by
  have hself : (filedState tx w.appeal slashId hash).appeals slashId =
      ⟨tx.sender, tx.sender, w.appeal.appealBond, hash, tx.timestamp, 0, .opened⟩ :=
    Function.update_self ..
  have hother : ∀ id, id ≠ slashId →
      (filedState tx w.appeal slashId hash).appeals id = w.appeal.appeals id :=
    fun id hne => Function.update_of_ne hne ..
  -- The log has neither filed nor closed an appeal about the slash before.
  have hunfiled : filedIn w.appeal.log slashId = none := by
    have hcount := hbooks.opened slashId
    rw [if_pos hfresh] at hcount
    refine List.findSome?_eq_none_iff.mpr fun e he => ?_
    simpa [Event.opens] using forall_of_countP_zero hcount e he
  have hfiling : ∀ id, filedIn (filedState tx w.appeal slashId hash).log id =
      if id = slashId then some (tx.sender, w.appeal.appealBond) else filedIn w.appeal.log id := by
    intro id
    change filedIn (w.appeal.log ++ [_]) id = _
    unfold filedIn at hunfiled ⊢
    rw [List.findSome?_append, List.findSome?_singleton]
    rcases eq_or_ne id slashId with rfl | hne
    · rw [hunfiled, if_pos rfl]
      simp [Event.filing]
    · rw [if_neg hne]
      simp [Event.filing, hne.symm]
  have hkept : ∀ e ∈ w.appeal.log, ∀ id, e.closes id = true →
      filedIn (filedState tx w.appeal slashId hash).log id = filedIn w.appeal.log id := by
    intro e he id hcloses
    have hresolved := hbooks.resolved_of_closes he _ hcloses
    rw [hfiling, if_neg]
    rintro rfl
    rw [hfresh] at hresolved
    cases hresolved
  refine ⟨fun id => ?_, fun id => ?_, fun id h => ?_, fun e he id status hverdict => ?_,
    fun e he => ?_, ?_⟩
  · change (w.appeal.log ++ [_]).countP _ = _
    rw [List.countP_append, List.countP_singleton, hbooks.opened]
    rcases eq_or_ne id slashId with rfl | hne
    · simp only [hself, hfresh]
      simp [Event.opens, Event.filing]
    · simp only [hother id hne]
      simp [Event.opens, Event.filing, hne.symm]
  · change (w.appeal.log ++ [_]).countP _ = _
    rw [List.countP_append, List.countP_singleton, hbooks.closed]
    rcases eq_or_ne id slashId with rfl | hne
    · simp only [hself, hfresh]
      simp [Event.closes, Event.verdict]
    · simp only [hother id hne]
      simp [Event.closes, Event.verdict]
  · simp only [hfiling]
    rcases eq_or_ne id slashId with rfl | hne
    · simp only [hself, if_pos]
      exact ⟨_, rfl, hinv.floor, fun _ => rfl⟩
    · simp only [hother id hne, if_neg hne] at h ⊢
      exact hbooks.filed id h
  · change e ∈ w.appeal.log ++ [_] at he
    rcases List.mem_append.mp he with he | he
    · have hresolved := hbooks.resolved_of_closes he id (by simp [Event.closes, hverdict])
      exact (hrecords id hresolved).trans (hbooks.verdicts e he id status hverdict)
    · rw [List.mem_singleton.mp he] at hverdict
      cases hverdict
  · change e ∈ w.appeal.log ++ [_] at he
    rcases List.mem_append.mp he with he | he
    · exact (hbooks.amounts e he).congr (hkept e he)
    · rw [List.mem_singleton.mp he]
      trivial
  · change w.appeal.payments = (w.appeal.log ++ [_]).flatMap _
    have hsame : w.appeal.log.flatMap (Event.payments (filedState tx w.appeal slashId hash).log) =
        w.appeal.log.flatMap (Event.payments w.appeal.log) := by
      rw [List.flatMap_def, List.flatMap_def, List.map_congr_left fun e he =>
        Event.payments_congr (hkept e he)]
    rw [List.flatMap_append, hsame, ← hbooks.ledger]
    exact (List.append_nil _).symm

/-- Closing an appeal either way. -/
theorem Books.closing (hbooks : Books w) {now slashId : Nat} {status : SlashStatus}
    {b : CapacityBond.State} {s : State} {e : Event} (hwas : (w.appeal.appeals slashId).Pending)
    (hfiles : ∀ id, e.filing id = none) (hverdict : e.verdict = some (slashId, status))
    (hexact : filedIn w.appeal.log slashId =
      some ((w.appeal.appeals slashId).appellant, (w.appeal.appeals slashId).bond) →
        e.Exact w.appeal.log)
    (hrecords : b.slashRecords = (w.bond.setSlashStatus slashId status).slashRecords)
    (happeals : s.appeals = (markResolved w.appeal slashId).appeals)
    (hlog : s.log = w.appeal.log ++ [e])
    (hpayments : s.payments = w.appeal.payments ++ CapacityBond.paid
      (settlement status (w.appeal.appeals slashId).appellant (w.appeal.appeals slashId).bond)) :
    Books ⟨now, b, s⟩ := by
  have hnone : (w.appeal.appeals slashId).status ≠ .none := by
    rcases hwas with h | h <;> rw [h] <;> simp
  have hunresolved : (w.appeal.appeals slashId).status ≠ .resolved :=
    fun h => not_pending_of_resolved h hwas
  rcases hbooks.filed slashId hnone with ⟨bond, hfiled, hfloor, hlive⟩
  rcases hlive hwas with rfl
  have hself : s.appeals slashId =
      { w.appeal.appeals slashId with bond := 0, status := .resolved } := by
    rw [happeals]
    exact Function.update_self ..
  have hother : ∀ id, id ≠ slashId → s.appeals id = w.appeal.appeals id := by
    intro id hne
    rw [happeals]
    exact Function.update_of_ne hne ..
  have hfiling : ∀ id, filedIn s.log id = filedIn w.appeal.log id := by
    intro id
    rw [hlog]
    unfold filedIn
    rw [List.findSome?_append, List.findSome?_singleton, hfiles, Option.or_none]
  refine ⟨fun id => ?_, fun id => ?_, fun id h => ?_, fun e' he id status' hverdict' => ?_,
    fun e' he => ?_, ?_⟩
  · change s.log.countP _ = if (s.appeals id).status = .none then 0 else 1
    rw [hlog, List.countP_append, List.countP_singleton, hbooks.opened]
    rcases eq_or_ne id slashId with rfl | hne
    · rw [hself]
      simp [Event.opens, hfiles, hnone]
    · rw [hother id hne]
      simp [Event.opens, hfiles]
  · change s.log.countP _ = if (s.appeals id).status = .resolved then 1 else 0
    rw [hlog, List.countP_append, List.countP_singleton, hbooks.closed]
    rcases eq_or_ne id slashId with rfl | hne
    · rw [hself]
      simp [Event.closes, hverdict, hunresolved]
    · rw [hother id hne]
      simp [Event.closes, hverdict, hne.symm]
  · change (s.appeals id).status ≠ .none at h
    change ∃ bond, filedIn s.log id = some ((s.appeals id).appellant, bond) ∧
      appealBondFloor ≤ bond ∧ ((s.appeals id).Pending → bond = (s.appeals id).bond)
    rw [hfiling]
    rcases eq_or_ne id slashId with rfl | hne
    · rw [hself]
      exact ⟨_, hfiled, hfloor, fun hpending => absurd hpending (not_pending_of_resolved rfl)⟩
    · rw [hother id hne] at h ⊢
      exact hbooks.filed id h
  · change e' ∈ s.log at he
    change (b.slashRecords id).status = status'
    rw [hlog, List.mem_append, List.mem_singleton] at he
    rw [hrecords]
    rcases he with he | rfl
    · have hresolved := hbooks.resolved_of_closes he id (by simp [Event.closes, hverdict'])
      have hne : id ≠ slashId := by
        rintro rfl
        exact hunresolved hresolved
      rw [CapacityBond.setSlashStatus_of_ne w.bond hne]
      exact hbooks.verdicts e' he id status' hverdict'
    · rcases Prod.mk.inj (Option.some.inj (hverdict.symm.trans hverdict')) with ⟨rfl, rfl⟩
      rw [CapacityBond.setSlashStatus_self]
  · change e' ∈ s.log at he
    rw [hlog, List.mem_append, List.mem_singleton] at he
    rcases he with he | rfl
    · exact (hbooks.amounts e' he).congr fun id _ => hfiling id
    · exact (hexact hfiled).congr fun id _ => hfiling id
  · change s.payments = s.log.flatMap (Event.payments s.log)
    have hsame : Event.payments s.log = Event.payments w.appeal.log :=
      funext fun e => Event.payments_congr fun id _ => hfiling id
    have hpaid : e.payments w.appeal.log = [settlement status
        (w.appeal.appeals slashId).appellant (w.appeal.appeals slashId).bond] := by
      simp only [Event.payments, hverdict, hfiled]
    have hpositive : (settlement status (w.appeal.appeals slashId).appellant
        (w.appeal.appeals slashId).bond).amount ≠ 0 := by
      have hzero : (w.appeal.appeals slashId).bond ≠ 0 := by
        unfold appealBondFloor wad at hfloor
        omega
      unfold settlement
      split <;> exact hzero
    rw [hsame, hlog, List.flatMap_append, List.flatMap_singleton, hpaid, hpayments, hbooks.ledger,
      CapacityBond.paid, if_neg hpositive]

/-! ## Runs -/

theorem UpheldBy.event {tx : Tx} {b : CapacityBond.State} {s : State} {slashId : Nat} {e : Event}
    (h : UpheldBy tx b s slashId e) : (∀ id, e.filing id = none) ∧
      e.verdict = some (slashId, .upheld) ∧
      ∀ {log}, filedIn log slashId =
        some ((s.appeals slashId).appellant, (s.appeals slashId).bond) → e.Exact log := by
  rcases h with ⟨-, -, rfl⟩ | ⟨-, -, rfl⟩ | ⟨-, -, rfl⟩
  · exact ⟨fun _ => rfl, rfl, fun h => ⟨_, h⟩⟩
  · exact ⟨fun _ => rfl, rfl, fun h => ⟨_, h⟩⟩
  · exact ⟨fun _ => rfl, rfl, fun _ => trivial⟩

theorem GrantedBy.event {tx : Tx} {b : CapacityBond.State} {s : State} {slashId : Nat} {e : Event}
    (h : GrantedBy tx b s slashId e)
    (hoperator : (s.appeals slashId).operator = (s.appeals slashId).appellant) :
    (∀ id, e.filing id = none) ∧ e.verdict = some (slashId, .reversed) ∧
      ∀ {log}, filedIn log slashId =
        some ((s.appeals slashId).appellant, (s.appeals slashId).bond) → e.Exact log := by
  rcases h with ⟨-, ⟨-, rfl⟩ | ⟨-, rfl⟩⟩
  · exact ⟨fun _ => rfl, rfl, fun h => by rwa [← hoperator] at h⟩
  · exact ⟨fun _ => rfl, rfl, fun _ => trivial⟩

/-- Every call of the appeal contract keeps the books. -/
theorem Books.move (hbooks : Books w) (hinv : Inv w) {tx : Tx} {b : CapacityBond.State} {s : State}
    (h : Move tx w.bond w.appeal s b) : Books ⟨tx.timestamp, b, s⟩ := by
  cases h with
  | @filed slashId hash b hoperator hfresh hfree hrested hmark =>
    refine hbooks.filing hinv hfresh fun id hresolved => ?_
    rcases CapacityBond.markAppealOpen_cases hmark with ⟨-, -, -, -, -, rfl⟩
    have hne : id ≠ slashId := by
      rintro rfl
      rw [hfresh] at hresolved
      cases hresolved
    exact congrArg _ (CapacityBond.setSlashStatus_of_ne w.bond hne _)
  | @forwarded slashId hlive hopened =>
    have hstatus : ∀ id, ((forwardedState tx w.appeal slashId).appeals id = w.appeal.appeals id) ∨
        id = slashId ∧ (forwardedState tx w.appeal slashId).appeals id =
          { w.appeal.appeals id with status := .fastTracked, fastTrackedAt := tx.timestamp } := by
      intro id
      rcases eq_or_ne id slashId with rfl | hne
      · exact .inr ⟨rfl, Function.update_self ..⟩
      · exact .inl (Function.update_of_ne hne ..)
    refine hbooks.quiet [.appealFastTracked slashId] ?_ rfl rfl (fun _ _ => rfl)
      (fun id => ?_) (fun id => ?_) (fun id => ?_) (fun id => ?_)
    · simp [Event.Quiet, Event.filing, Event.verdict]
    all_goals rcases hstatus id with h | ⟨rfl, h⟩ <;> rw [h]
    · rw [hopened]
      simp
    · rw [hopened]
      simp
  | upheld hlive hcause hbond hsettle =>
    rcases CapacityBond.settleAppealUpheld_cases hsettle with ⟨-, -, -, -, -, -, rfl⟩
    rcases hcause.event with ⟨hfiles, hverdict, hexact⟩
    exact hbooks.closing hcause.pending hfiles hverdict hexact rfl rfl rfl rfl
  | granted hlive hcause hbond hsettle =>
    rcases CapacityBond.settleAppealGranted_cases hsettle with ⟨-, -, -, -, -, -, rfl⟩
    rcases (hinv.agrees _).operator_eq (.inr hcause.1) with ⟨-, hoperator, happellant, -, -⟩
    rcases hcause.event (hoperator.trans happellant.symm) with ⟨hfiles, hverdict, hexact⟩
    exact hbooks.closing (.inr hcause.1) hfiles hverdict hexact rfl rfl rfl rfl
  | @setBond newBond hfloor hceiling =>
    exact hbooks.quiet [.appealBondUpdated w.appeal.appealBond newBond]
      (by simp [Event.Quiet, Event.filing, Event.verdict]) rfl rfl (fun _ _ => rfl)
      (fun _ => Iff.rfl) (fun _ => Iff.rfl) (fun _ => rfl) fun _ => rfl
  | pause hlive =>
    exact hbooks.quiet [] (by simp) (List.append_nil _).symm rfl (fun _ _ => rfl)
      (fun _ => Iff.rfl) (fun _ => Iff.rfl) (fun _ => rfl) fun _ => rfl
  | unpause hpaused hstamp hcredit =>
    rcases hcredit with rfl
    exact hbooks.quiet [] (by simp) (List.append_nil _).symm rfl (fun _ _ => rfl)
      (fun _ => Iff.rfl) (fun _ => Iff.rfl) (fun _ => rfl) fun _ => rfl

/-- A direct call on CapacityBond changes no slash whose appeal is resolved. -/
theorem Inv.resolved_kept (hinv : Inv w) {tx : CapacityBond.Tx} {c : CapacityBond.Call}
    {b : CapacityBond.State} (hrole : tx.hasRole .slashAppeal tx.sender = false)
    (hexec : CapacityBond.exec H tx w.bond c = .ok b) {id : Nat}
    (hresolved : (w.appeal.appeals id).status = .resolved) :
    b.slashRecords id = w.bond.slashRecords id := by
  have hsettled : (w.bond.slashRecords id).status = .upheld ∨
      (w.bond.slashRecords id).status = .reversed := by
    rcases hinv.agrees id with ⟨hnone, -⟩ | ⟨hpending, -, -, -, -, -⟩ | ⟨-, hrecord, -, -, -⟩
    · rw [hnone] at hresolved
      cases hresolved
    · exact absurd hpending (not_pending_of_resolved hresolved)
    · exact hrecord
  rcases outsider_records hinv.bond hrole hexec id with hsame | ⟨hescrowed, -, -, -⟩ | hminted
  · exact hsame
  · rw [hescrowed] at hsettled
    rcases hsettled with h | h <;> cases h
  · rw [hminted.fresh] at hsettled
    rcases hsettled with h | h <;> cases h

/-- The books of every reachable world. -/
theorem Reachable.books (h : Reachable H w) : Books w := by
  induction h with
  | deployed bondTx tx minBond unbonding cooldown size window terms token capacityBond admin
      appealBond hnow hbond happeal =>
    rcases deploy_cases happeal with ⟨-, -, rfl⟩
    constructor <;> simp
  | @step w w' hreach hstep ih =>
    have hidle : ∀ {now : Nat} {b : CapacityBond.State} {balance : Nat},
        (∀ id, (w.appeal.appeals id).status = .resolved →
          (b.slashRecords id).status = (w.bond.slashRecords id).status) →
        Books ⟨now, b, { w.appeal with tokenBalance := balance }⟩ :=
      fun hrecords => ih.quiet [] (by simp) (List.append_nil _).symm rfl hrecords
        (fun _ => Iff.rfl) (fun _ => Iff.rfl) (fun _ => rfl) fun _ => rfl
    cases hstep with
    | bond tx c hnow hrole hexec =>
      exact hidle fun id hid => congrArg _ (hreach.inv.resolved_kept hrole hexec hid)
    | appeal tx c hnow hexec => exact ih.move hreach.inv (exec_move hexec)
    | bondDonation amount => exact hidle fun _ _ => rfl
    | donation amount => exact hidle fun _ _ => rfl

/-- Where the bonds of the appeals are, in every world that the two contracts reach: each slash
has at most one appeal, filed with a bond of at least the floor that is held until it is resolved;
the payments are those of the closing events, one for each resolved appeal and of the whole bond
it was filed with; a bond is refunded to the appellant if the slash was reversed and burned if it
stands; and the balance covers the bonds of all pending appeals. -/
theorem bond_settled_once (h : Reachable H w) :
    (∀ id, w.appeal.log.countP (Event.opens id) =
      if (w.appeal.appeals id).status = .none then 0 else 1) ∧
    (∀ id, w.appeal.log.countP (Event.closes id) =
      if (w.appeal.appeals id).status = .resolved then 1 else 0) ∧
    (∀ id, (w.appeal.appeals id).status ≠ .none → ∃ bond,
      filedIn w.appeal.log id = some ((w.appeal.appeals id).appellant, bond) ∧
      appealBondFloor ≤ bond ∧ (w.appeal.appeals id).bond =
        if (w.appeal.appeals id).status = .resolved then 0 else bond) ∧
    (∀ e ∈ w.appeal.log, ∀ id status, e.verdict = some (id, status) →
      (w.bond.slashRecords id).status = status ∧ ∃ appellant bond,
        filedIn w.appeal.log id = some (appellant, bond) ∧
        e.payments w.appeal.log = [settlement status appellant bond]) ∧
    w.appeal.payments = w.appeal.log.flatMap (Event.payments w.appeal.log) ∧
    (∀ e ∈ w.appeal.log, e.Exact w.appeal.log) ∧
    ∑ id ∈ Finset.range w.bond.slashCounter with (w.appeal.appeals id).Pending,
      (w.appeal.appeals id).bond ≤ w.appeal.tokenBalance := by
  have hinv := h.inv
  have hbooks := h.books
  refine ⟨hbooks.opened, hbooks.closed, fun id hopened => ?_, fun e he id status hverdict => ?_,
    hbooks.ledger, hbooks.amounts, ?_⟩
  · rcases hbooks.filed id hopened with ⟨bond, hfiled, hfloor, hheld⟩
    refine ⟨bond, hfiled, hfloor, ?_⟩
    rcases hinv.agrees id with ⟨hnone, -⟩ | ⟨hpending, -, -, -, -, -⟩ |
      ⟨hresolved, -, -, -, hbond⟩
    · exact absurd (congrArg Appeal.status hnone) hopened
    · rw [if_neg fun hresolved => not_pending_of_resolved hresolved hpending]
      exact (hheld hpending).symm
    · rw [if_pos hresolved]
      exact hbond
  · have hresolved := hbooks.resolved_of_closes he id (by simp [Event.closes, hverdict])
    rcases hbooks.filed id (by rw [hresolved]; simp) with ⟨bond, hfiled, -, -⟩
    refine ⟨hbooks.verdicts e he id status hverdict, _, bond, hfiled, ?_⟩
    simp only [Event.payments, hverdict, hfiled]
  · exact (Finset.sum_le_sum_of_subset (Finset.filter_subset _ _)).trans hinv.custody

/-- In the sample run both appeals are granted and both bonds refunded. -/
theorem bond_settled_once_sample :
    (sampleAfter 9).appeal.payments =
        [.transfer 1 100000000000000000000, .transfer 1 100000000000000000000] ∧
      (sampleAfter 9).appeal.log.countP (Event.closes 1) =
        if ((sampleAfter 9).appeal.appeals 1).status = .resolved then 1 else 0 :=
  ⟨by decide +kernel, (bond_settled_once (sampleAfter_reachable le_rfl)).2.1 1⟩

end Decdn.SlashAppeal
