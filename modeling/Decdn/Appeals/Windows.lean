import Decdn.Appeals.Agreement
import Decdn.Foundations.AwakeTime

/-!
# The windows of an appeal

Both contracts can be paused, and a pause holds up the parties of an appeal.  CapacityBond
keeps the paused time of both and every window is put off by all of it, so a window is never
shorter than promised in time awake.  An appeal whose window is over can always be closed.

Main results:

- Theorem `lapse_awake`: an appeal lapses after its whole window awake.
- Theorem `finalize_awake`: so is a slash that nobody appealed.
- Theorem `expired_appeal_closes`: an expired appeal can be closed by anybody.
-/

namespace Decdn.SlashAppeal

open CapacityBond (SlashRecord SlashStatus)

variable {H : CapacityBond.Wiring} {w w' v : World}

/-! ## Pauses -/

/-- What one call does to the pause of CapacityBond. -/
inductive PauseMove (tx : CapacityBond.Tx) (b b' : CapacityBond.State) : Prop where
  | kept (hpaused : b'.paused = b.paused) (hat : b'.pausedAt = b.pausedAt)
      (htotal : b'.pausedTotal = b.pausedTotal)
  | paused (hlive : b.paused = false) (hpaused : b'.paused = true)
      (hat : b'.pausedAt = tx.timestamp) (htotal : b'.pausedTotal = b.pausedTotal)
  | unpaused (hpaused : b.paused = true) (hlive : b'.paused = false)
      (htotal : b'.pausedTotal = b.pausedTotal + (tx.timestamp - b.pausedAt))

/-- A call of anybody but the appeal contract pauses, unpauses, or leaves the pause alone. -/
theorem outsider_pause {tx : CapacityBond.Tx} {b b' : CapacityBond.State} {c : CapacityBond.Call}
    (hrole : tx.hasRole .slashAppeal tx.sender = false)
    (h : CapacityBond.exec H tx b c = .ok b') : PauseMove tx b b' := by
  have hsetter : c.IsSetter → PauseMove tx b b' := by
    intro hset
    rcases CapacityBond.setter_cases hset h with ⟨p, e, rfl, -⟩
    exact .kept rfl rfl rfl
  cases c with
  | bond amount =>
    rcases CapacityBond.bond_cases h with ⟨-, -, -, rfl⟩
    exact .kept rfl rfl rfl
  | requestUnbond amount =>
    rcases CapacityBond.requestUnbond_cases h with ⟨-, -, -, rfl⟩
    exact .kept rfl rfl rfl
  | unbond =>
    rcases CapacityBond.unbond_cases h with ⟨-, -, -, rfl⟩
    exact .kept rfl rfl rfl
  | declareMbps mbps =>
    rcases CapacityBond.declareMbps_cases h with ⟨-, history, -, rfl⟩
    exact .kept rfl rfl rfl
  | updateRegion newRegion =>
    rcases CapacityBond.updateRegion_cases h with ⟨-, -, -, -, rfl⟩
    exact .kept rfl rfl rfl
  | registerNode nodeId multiaddrs regionHint termsHash bindingSignature ed25519Signature =>
    rcases CapacityBond.registerNode_cases h with ⟨-, -, -, -, -, -, -, -, -, -, rfl⟩
    exact .kept rfl rfl rfl
  | deregisterNode =>
    rcases CapacityBond.deregisterNode_cases h with
      ⟨-, addrs, index, history, events, -, -, -, rfl⟩
    exact .kept rfl rfl rfl
  | bindNodeId nodeId bindingSignature ed25519Signature =>
    rcases CapacityBond.bindNodeId_cases h with ⟨-, -, -, toAddress, nonces, -, rfl⟩
    exact .kept rfl rfl rfl
  | reclaimNodeId nodeId ed25519Signature =>
    rcases CapacityBond.reclaimNodeId_cases h with
      ⟨-, -, -, holder, addrs, index, nodes, events, -, -, rfl⟩
    exact .kept rfl rfl rfl
  | updateMultiaddrs multiaddrs =>
    rcases CapacityBond.updateMultiaddrs_cases h with rfl
    exact .kept rfl rfl rfl
  | slash operator challenger offenseType evidenceHash =>
    rcases CapacityBond.exec_slash_cases h with ⟨slashId, amount, hslash⟩
    rcases CapacityBond.slash_cases hslash with ⟨-, -, -, -, -, -, r, -, -, -, events, tail,
      ejected, nodes, nonces, addrs, index, -, -, -, rfl⟩
    exact .kept rfl rfl rfl
  | finalizeUnappealedSlash slashId =>
    rcases CapacityBond.finalizeUnappealedSlash_cases h with ⟨-, -, -, -, -, -, rfl⟩
    exact .kept rfl rfl rfl
  | markAppealOpen slashId =>
    rw [(CapacityBond.markAppealOpen_cases h).2.1] at hrole
    cases hrole
  | creditPauseTime delta =>
    rw [(CapacityBond.creditPauseTime_cases h).1] at hrole
    cases hrole
  | settleAppealUpheld slashId =>
    rw [(CapacityBond.settleAppealUpheld_cases h).2.1] at hrole
    cases hrole
  | settleAppealGranted slashId =>
    rw [(CapacityBond.settleAppealGranted_cases h).2.1] at hrole
    cases hrole
  | ejectNode operator =>
    rcases CapacityBond.ejectNode_cases h with
      ⟨-, rfl⟩ | ⟨-, nodes, nonces, addrs, index, events, -, -, rfl⟩ <;>
      exact .kept rfl rfl rfl
  | unEjectNode operator =>
    rcases CapacityBond.unEjectNode_cases h with rfl | rfl <;> exact .kept rfl rfl rfl
  | pause =>
    rcases CapacityBond.pause_cases h with ⟨hlive, rfl⟩
    exact .paused hlive rfl rfl rfl
  | unpause =>
    rcases CapacityBond.unpause_cases h with ⟨hpaused, -, rfl⟩
    exact .unpaused hpaused rfl rfl
  | _ => exact hsetter trivial

/-- A pause that runs started in the past. -/
def Stamped (w : World) : Prop :=
  (w.bond.paused = true → w.bond.pausedAt ≤ w.now) ∧
    (w.appeal.paused = true → w.appeal.pausedAt ≤ w.now)

/-- How long a pause that runs has lasted. -/
def running (paused : Bool) (pausedAt now : Nat) : Nat := if paused then now - pausedAt else 0

/-- The paused time of CapacityBond, its running pause included. -/
def bondCredit (w : World) : Nat :=
  w.bond.pausedTotal + running w.bond.paused w.bond.pausedAt w.now

/-- The paused time of both contracts. -/
def credit (w : World) : Nat :=
  bondCredit w + running w.appeal.paused w.appeal.pausedAt w.now

/-- CapacityBond is paused. -/
def bondAsleep (w : World) : Bool := w.bond.paused

/-- One of the two contracts is paused. -/
def asleep (w : World) : Bool := w.bond.paused || w.appeal.paused

/-- What the appeal contract's calls do to the pause of CapacityBond: the end of a pause of its
own is credited there. -/
structure Credited (tx : Tx) (b b' : CapacityBond.State) (s s' : State) : Prop where
  paused : b'.paused = b.paused
  pausedAt : b'.pausedAt = b.pausedAt
  total_le : b.pausedTotal ≤ b'.pausedTotal
  total : b'.pausedTotal + running s'.paused s'.pausedAt tx.timestamp =
    b.pausedTotal + running s.paused s.pausedAt tx.timestamp
  stamp : s'.paused = true → s'.pausedAt = s.pausedAt ∧ s.paused = true ∨
    s'.pausedAt = tx.timestamp

theorem Move.credited {tx : Tx} {b b' : CapacityBond.State} {s s' : State}
    (h : Move tx b s s' b') : Credited tx b b' s s' := by
  cases h with
  | filed hoperator hfresh hfree hrested hmark =>
    rcases CapacityBond.markAppealOpen_cases hmark with ⟨-, -, -, -, -, rfl⟩
    exact ⟨rfl, rfl, le_rfl, rfl, fun h => .inl ⟨rfl, h⟩⟩
  | forwarded hlive hopened => exact ⟨rfl, rfl, le_rfl, rfl, fun h => .inl ⟨rfl, h⟩⟩
  | upheld hlive hcause hbond hsettle =>
    rcases CapacityBond.settleAppealUpheld_cases hsettle with ⟨-, -, -, -, -, -, rfl⟩
    exact ⟨rfl, rfl, le_rfl, rfl, fun h => .inl ⟨rfl, h⟩⟩
  | granted hlive hcause hbond hsettle =>
    rcases CapacityBond.settleAppealGranted_cases hsettle with ⟨-, -, -, -, -, -, rfl⟩
    exact ⟨rfl, rfl, le_rfl, rfl, fun h => .inl ⟨rfl, h⟩⟩
  | setBond hfloor hceiling => exact ⟨rfl, rfl, le_rfl, rfl, fun h => .inl ⟨rfl, h⟩⟩
  | pause hlive =>
    refine ⟨rfl, rfl, le_rfl, ?_, fun _ => .inr rfl⟩
    simp [running, hlive]
  | unpause hpaused hstamp hcredit =>
    rcases hcredit with rfl
    refine ⟨rfl, rfl, Nat.le_add_right _ _, ?_, fun h => by cases h⟩
    simp [running, hpaused]

theorem Step.stamped (hstamped : Stamped w) (h : Step H w w') : Stamped w' := by
  cases h with
  | bond tx c hnow hrole hexec =>
    refine ⟨fun h => ?_, fun h => (hstamped.2 h).trans hnow⟩
    change _ ≤ tx.timestamp
    rcases outsider_pause hrole hexec with ⟨hpaused, hat, -⟩ | ⟨-, -, hat, -⟩ | ⟨-, hlive, -⟩
    · dsimp only at h ⊢
      rw [hat]
      exact (hstamped.1 (hpaused ▸ h)).trans hnow
    · exact hat.le
    · dsimp only at h
      rw [hlive] at h
      cases h
  | appeal tx c hnow hexec =>
    have hcredited := (exec_move hexec).credited
    refine ⟨fun h => ?_, fun h => ?_⟩
    · dsimp only at h ⊢
      rw [hcredited.pausedAt]
      exact (hstamped.1 (hcredited.paused ▸ h)).trans hnow
    · rcases hcredited.stamp h with ⟨hsame, hwas⟩ | hfresh
      · exact hsame.le.trans ((hstamped.2 hwas).trans hnow)
      · exact hfresh.le
  | bondDonation amount => exact hstamped
  | donation amount => exact hstamped

/-- Time that passes in a pause is credited, and a credit is never taken back. -/
theorem running_later {paused : Bool} {pausedAt now later : Nat}
    (hstamp : paused = true → pausedAt ≤ now) (hle : now ≤ later) :
    running paused pausedAt later =
      running paused pausedAt now + if paused = true then later - now else 0 := by
  cases paused with
  | false => rfl
  | true =>
    have hat := hstamp rfl
    simp only [running, if_true]
    omega

/-- One step credits what CapacityBond sleeps. -/
theorem Step.bondCredit (hstamped : Stamped w) (h : Step H w w') :
    bondCredit w + (if bondAsleep w then w'.now - w.now else 0) ≤ bondCredit w' := by
  have hlater := running_later hstamped.1 h.now_le
  unfold SlashAppeal.bondCredit bondAsleep
  cases h with
  | bond tx c hnow hrole hexec =>
    dsimp only at hlater ⊢
    rcases outsider_pause hrole hexec with ⟨hpaused, hat, htotal⟩ | ⟨hlive, -, -, htotal⟩ |
      ⟨hpaused, hlive, htotal⟩
    · rw [hpaused, hat, htotal]
      omega
    · rw [htotal, hlive]
      simp [running]
    · rw [htotal]
      simp only [hpaused, running, if_true] at hlater ⊢
      omega
  | appeal tx c hnow hexec =>
    have hcredited := (exec_move hexec).credited
    have hmore := hcredited.total_le
    dsimp only at hlater ⊢
    rw [hcredited.paused, hcredited.pausedAt]
    omega
  | bondDonation amount =>
    dsimp only at hlater ⊢
    omega
  | donation amount =>
    dsimp only at hlater ⊢
    omega

/-- One step credits what either contract sleeps. -/
theorem Step.credit (hstamped : Stamped w) (h : Step H w w') :
    credit w + (if asleep w then w'.now - w.now else 0) ≤ credit w' := by
  have hbond := h.bondCredit hstamped
  have hlater := running_later hstamped.1 h.now_le
  have hown := running_later hstamped.2 h.now_le
  have hsplit : (if asleep w then w'.now - w.now else 0) ≤
      (if bondAsleep w then w'.now - w.now else 0) +
        if w.appeal.paused = true then w'.now - w.now else 0 := by
    unfold asleep bondAsleep
    cases w.bond.paused <;> simp
  unfold SlashAppeal.credit
  cases h with
  | bond tx c hnow hrole hexec =>
    dsimp only at hown hbond hsplit ⊢
    omega
  | appeal tx c hnow hexec =>
    have hcredited := (exec_move hexec).credited
    have htotal := hcredited.total
    unfold SlashAppeal.bondCredit bondAsleep at *
    dsimp only at hlater hown hbond hsplit ⊢
    rw [hcredited.paused, hcredited.pausedAt]
    omega
  | bondDonation amount =>
    dsimp only at hown hbond hsplit ⊢
    omega
  | donation amount =>
    dsimp only at hown hbond hsplit ⊢
    omega

/-! ## Windows -/

/-- When the window of a pending appeal started. -/
def Appeal.stamp (a : Appeal) : Nat := if a.status = .opened then a.openedAt else a.fastTrackedAt

/-- The window in which a pending appeal is to be decided. -/
def Appeal.window (a : Appeal) : Nat :=
  if a.status = .opened then appealReviewWindow else appealRatificationWindow

/-- An appeal is filed once and forwarded once. -/
structure Later (a a' : Appeal) : Prop where
  filed : a.status ≠ .none → a'.status ≠ .none ∧ a'.openedAt = a.openedAt
  forwarded : a.status = .fastTracked ∨ a.status = .resolved →
    (a'.status = .fastTracked ∨ a'.status = .resolved) ∧ a'.fastTrackedAt = a.fastTrackedAt

theorem Later.refl (a : Appeal) : Later a a := ⟨fun h => ⟨h, rfl⟩, fun h => ⟨h, rfl⟩⟩

theorem Later.trans {a a' a'' : Appeal} (h : Later a a') (h' : Later a' a'') : Later a a'' := by
  refine ⟨fun hfiled => ?_, fun hforwarded => ?_⟩
  · rcases h.filed hfiled with ⟨hne, heq⟩
    rcases h'.filed hne with ⟨hne', heq'⟩
    exact ⟨hne', heq'.trans heq⟩
  · rcases h.forwarded hforwarded with ⟨hst, heq⟩
    rcases h'.forwarded hst with ⟨hst', heq'⟩
    exact ⟨hst', heq'.trans heq⟩

/-- Only the appeal of one slash changes in a call. -/
theorem later_update {appeals : Nat → Appeal} {slashId : Nat} {a : Appeal}
    (h : Later (appeals slashId) a) (id : Nat) :
    Later (appeals id) (Function.update appeals slashId a id) := by
  rcases eq_or_ne id slashId with rfl | hne
  · rwa [Function.update_self]
  · rw [Function.update_of_ne hne]
    exact .refl _

theorem Later.resolved (a : Appeal) : Later a { a with bond := 0, status := .resolved } :=
  ⟨fun _ => ⟨by simp, rfl⟩, fun _ => ⟨.inr rfl, rfl⟩⟩

theorem Step.later (h : Step H w w') (id : Nat) :
    Later (w.appeal.appeals id) (w'.appeal.appeals id) := by
  cases h with
  | bond tx c hnow hrole hexec => exact .refl _
  | appeal tx c hnow hexec =>
    cases exec_move hexec with
    | filed hoperator hfresh hfree hrested hmark =>
      refine later_update ⟨fun hne => absurd hfresh hne, fun hforwarded => ?_⟩ id
      rw [hfresh] at hforwarded
      rcases hforwarded with hst | hst <;> cases hst
    | @forwarded slashId hlive hopened =>
      have hone : Later (w.appeal.appeals slashId) { w.appeal.appeals slashId with
          status := .fastTracked
          fastTrackedAt := tx.timestamp } := by
        refine ⟨fun _ => ⟨by simp, rfl⟩, fun hforwarded => ?_⟩
        rw [hopened] at hforwarded
        rcases hforwarded with hst | hst <;> cases hst
      exact later_update hone id
    | upheld hlive hcause hbond hsettle => exact later_update (.resolved _) id
    | granted hlive hcause hbond hsettle => exact later_update (.resolved _) id
    | setBond | pause | unpause => exact .refl _
  | bondDonation amount => exact .refl _
  | donation amount => exact .refl _

/-- A pending appeal keeps its stamp while its status stays the same. -/
theorem Later.stamp_eq {a a' : Appeal} (h : Later a a') (hpending : a.Pending)
    (hsame : a'.status = a.status) : a'.stamp = a.stamp ∧ a'.window = a.window := by
  unfold Appeal.stamp Appeal.window
  rw [hsame]
  rcases hpending with hopened | hforwarded
  · rw [if_pos hopened, if_pos hopened]
    exact ⟨(h.filed (by rw [hopened]; simp)).2, rfl⟩
  · have hne : a.status ≠ .opened := by
      rw [hforwarded]
      simp
    rw [if_neg hne, if_neg hne]
    exact ⟨(h.forwarded (.inl hforwarded)).2, rfl⟩

theorem Reachable.stamped (h : Reachable H w) : Stamped w := by
  induction h with
  | deployed bondTx tx minBond unbonding cooldown size window terms token capacityBond admin
      appealBond hnow hbond happeal =>
    rcases CapacityBond.deploy_cases hbond with ⟨-, -, -, -, -, -, rfl⟩
    rcases deploy_cases happeal with ⟨-, -, rfl⟩
    refine ⟨fun h => ?_, fun h => ?_⟩ <;> cases h
  | step _ hstep ih => exact hstep.stamped ih

/-- A call that closes an expired appeal runs while neither contract is paused, after the window
put off by the paused time. -/
theorem cleanup_late {tx : Tx} {b b' : CapacityBond.State} {s s' : State} {slashId : Nat}
    (h : exec tx b s (.cleanupExpiredAppeal slashId) = .ok (s', b')) :
    s.paused = false ∧ b.paused = false ∧
      (s.appeals slashId).stamp + (s.appeals slashId).window + b.pausedTotal ≤ tx.timestamp := by
  simp only [exec, cleanupExpiredAppeal, bind_eq_ok, whenNotPaused_eq_ok] at h
  rcases h with ⟨_, hlive, h⟩
  unfold Appeal.stamp Appeal.window
  split at h
  · rename_i hopened
    simp only [bind_eq_ok, readyAt_eq_ok] at h
    rcases h with ⟨_, ⟨-, rfl⟩, h⟩
    split at h
    · cases h
    · rename_i hlate
      simp only [settleUpheld, bind_eq_ok, onCapacityBond_eq_ok] at h
      rcases h with ⟨_, hsettle, -⟩
      rw [if_pos hopened, if_pos hopened]
      exact ⟨hlive, (CapacityBond.settleAppealUpheld_cases hsettle).1, not_lt.mp hlate⟩
  · rename_i hforwarded
    simp only [bind_eq_ok, readyAt_eq_ok] at h
    rcases h with ⟨_, ⟨-, rfl⟩, h⟩
    split at h
    · cases h
    · rename_i hlate
      simp only [settleGranted, bind_eq_ok, onCapacityBond_eq_ok] at h
      rcases h with ⟨_, hsettle, -⟩
      rw [if_neg (by rw [hforwarded]; simp), if_neg (by rw [hforwarded]; simp)]
      exact ⟨hlive, (CapacityBond.settleAppealGranted_cases hsettle).1, not_lt.mp hlate⟩
  · cases h
  · cases h

/-- An appeal lapses only after its whole window was spent awake: from the call that filed (or
forwarded) it, in whatever run, at least the review (or ratification) window passed while neither
contract was paused. -/
theorem lapse_awake {id n : Nat} (h : Reachable H w) (hpending : (w.appeal.appeals id).Pending)
    (hstamp : (w.appeal.appeals id).stamp = w.now)
    (hrun : Awake (Step H) World.now asleep w v n)
    (hsame : (v.appeal.appeals id).status = (w.appeal.appeals id).status) {tx : Tx} {s : State}
    {b : CapacityBond.State} (hnow : v.now ≤ tx.timestamp)
    (hexec : exec tx v.bond v.appeal (.cleanupExpiredAppeal id) = .ok (s, b)) :
    (w.appeal.appeals id).window ≤ n + (tx.timestamp - v.now) := by
  have hlater : Later (w.appeal.appeals id) (v.appeal.appeals id) :=
    hrun.invariant (P := fun u => Later (w.appeal.appeals id) (u.appeal.appeals id)) (.refl _)
      fun a a' hstep ih => ih.trans (hstep.later id)
  rcases hlater.stamp_eq hpending hsame with ⟨hstampEq, hwindowEq⟩
  rcases cleanup_late hexec with ⟨hlive, hbondLive, hlate⟩
  have hcredit : credit v = v.bond.pausedTotal := by
    unfold credit bondCredit
    rw [hlive, hbondLive]
    rfl
  refine hrun.window_le _ h.stamped (fun a b hstep ha => hstep.stamped ha)
    (fun a b hstep => hstep.now_le) (fun a b hstep ha => hstep.credit ha) hnow ?_
  rw [hcredit, ← hstamp, ← hstampEq, ← hwindowEq]
  exact hlate

/-- An appeal is filed at time 30 and the contract is paused for a minute. -/
def samplePause : List Action :=
  sampleRun.take 3 ++ [.appeal (sampleTx (CapacityBond.sampleTx 4 40)) .pause,
    .appeal (sampleTx (CapacityBond.sampleTx 4 100)) .unpause]

/-- The run with the pause after `n` calls. -/
def pauseAfter (n : Nat) : World := after CapacityBond.sampleWiring sampleDeployed samplePause n

theorem samplePause_evaluates : ∀ k ≤ 5, (runEvents (World.apply CapacityBond.sampleWiring)
    (fun _ _ => true) sampleDeployed (samplePause.take k)).isSome = true := by
  decide +kernel

/-- The appeal lapses a minute later than it would have without the pause. -/
theorem lapse_awake_sample :
    ∃ n, Awake (Step CapacityBond.sampleWiring) World.now asleep (pauseAfter 3) (pauseAfter 5) n ∧
      ((pauseAfter 3).appeal.appeals 0).window ≤ n + (1209690 - (pauseAfter 5).now) := by
  have hstep : ∀ {n}, n < 5 → Step CapacityBond.sampleWiring (pauseAfter n) (pauseAfter (n + 1)) :=
    fun hn => after_step hn (samplePause_evaluates _ hn)
  have hreach : Reachable CapacityBond.sampleWiring (pauseAfter 3) :=
    (sampleDeployed_reachable _).trans (after_run (Nat.zero_le 3) (by decide)
      fun k hk => samplePause_evaluates k (hk.trans (by decide)))
  have hcleanup : (exec (sampleTx (CapacityBond.sampleTx 4 1209690)) (pauseAfter 5).bond
      (pauseAfter 5).appeal (.cleanupExpiredAppeal 0)).toOption.isSome = true := by
    decide +kernel
  cases hexec : exec (sampleTx (CapacityBond.sampleTx 4 1209690)) (pauseAfter 5).bond
      (pauseAfter 5).appeal (.cleanupExpiredAppeal 0) with
  | error e =>
    rw [hexec] at hcleanup
    cases hcleanup
  | ok result =>
    have hrun : Awake (Step CapacityBond.sampleWiring) World.now asleep (pauseAfter 3)
        (pauseAfter 5) _ :=
      (Awake.refl.tail (hstep (by decide : 3 < 5))).tail (hstep (by decide : 4 < 5))
    exact ⟨_, hrun, lapse_awake hreach (by decide +kernel) (by decide +kernel) hrun
      (by decide +kernel) (by decide +kernel) hexec⟩

/-- The filing window of a slash closes thirty days after the slash. -/
theorem Reachable.window_close (h : Reachable H w) (id : Nat)
    (hminted : (w.bond.slashRecords id).status ≠ .none) :
    (w.bond.slashRecords id).appealWindowClose =
      (w.bond.slashRecords id).slashedAt + CapacityBond.appealFilingWindow := by
  induction h with
  | deployed bondTx tx minBond unbonding cooldown size window terms token capacityBond admin
      appealBond hnow hbond happeal =>
    rcases CapacityBond.deploy_cases hbond with ⟨-, -, -, -, -, -, rfl⟩
    exact absurd rfl hminted
  | @step w w' hreach hstep ih =>
    have hset : ∀ {slashId : Nat} {status : SlashStatus},
        (w.bond.slashRecords slashId).status ≠ .none →
        ((w.bond.setSlashStatus slashId status).slashRecords id).status ≠ .none →
        ((w.bond.setSlashStatus slashId status).slashRecords id).appealWindowClose =
          ((w.bond.setSlashStatus slashId status).slashRecords id).slashedAt +
            CapacityBond.appealFilingWindow := by
      intro slashId status hwas hnow
      rcases eq_or_ne id slashId with rfl | hne
      · rw [CapacityBond.setSlashStatus_self]
        exact ih hwas
      · rw [CapacityBond.setSlashStatus_of_ne w.bond hne] at hnow ⊢
        exact ih hnow
    cases hstep with
    | bond tx c hnow hrole hexec =>
      dsimp only at hminted ⊢
      rcases outsider_records hreach.inv.bond hrole hexec id with
        hsame | ⟨hescrowed, -, -, hupheld⟩ | hnew
      · rw [hsame] at hminted ⊢
        exact ih hminted
      · rw [hupheld]
        exact ih (by rw [hescrowed]; simp)
      · rw [hnew.window, hnew.slashedAt]
    | appeal tx c hnow hexec =>
      cases exec_move hexec with
      | filed hoperator hfresh hfree hrested hmark =>
        rcases CapacityBond.markAppealOpen_cases hmark with ⟨-, -, -, hescrowed, -, rfl⟩
        exact hset (by rw [hescrowed]; simp) hminted
      | upheld hlive hcause hbond hsettle =>
        rcases CapacityBond.settleAppealUpheld_cases hsettle with ⟨-, -, -, hopen, -, -, rfl⟩
        exact hset (by rw [hopen]; simp) hminted
      | granted hlive hcause hbond hsettle =>
        rcases CapacityBond.settleAppealGranted_cases hsettle with ⟨-, -, -, hopen, -, -, rfl⟩
        exact hset (by rw [hopen]; simp) hminted
      | unpause hpaused hstamp hcredit =>
        rcases hcredit with rfl
        exact ih hminted
      | forwarded | setBond | pause => exact ih hminted
    | bondDonation amount => exact ih hminted
    | donation amount => exact ih hminted

/-- A slash record keeps its filing window and the time it was slashed at. -/
theorem Step.window_kept (hinv : Inv w) (h : Step H w w') {id : Nat}
    (hminted : (w.bond.slashRecords id).status ≠ .none) :
    (w'.bond.slashRecords id).status ≠ .none ∧
      (w'.bond.slashRecords id).appealWindowClose = (w.bond.slashRecords id).appealWindowClose := by
  have hset : ∀ {slashId : Nat} {status : SlashStatus}, status ≠ .none →
      ((w.bond.setSlashStatus slashId status).slashRecords id).status ≠ .none ∧
      ((w.bond.setSlashStatus slashId status).slashRecords id).appealWindowClose =
        (w.bond.slashRecords id).appealWindowClose := by
    intro slashId status hstatus
    rcases eq_or_ne id slashId with rfl | hne
    · rw [CapacityBond.setSlashStatus_self]
      exact ⟨hstatus, rfl⟩
    · rw [CapacityBond.setSlashStatus_of_ne w.bond hne]
      exact ⟨hminted, rfl⟩
  cases h with
  | bond tx c hnow hrole hexec =>
    dsimp only
    rcases outsider_records hinv.bond hrole hexec id with hsame | ⟨-, -, -, hupheld⟩ | hnew
    · rw [hsame]
      exact ⟨hminted, rfl⟩
    · rw [hupheld]
      exact ⟨by simp, rfl⟩
    · rw [hnew.fresh] at hminted
      exact absurd rfl hminted
  | appeal tx c hnow hexec =>
    cases exec_move hexec with
    | filed hoperator hfresh hfree hrested hmark =>
      rcases CapacityBond.markAppealOpen_cases hmark with ⟨-, -, -, -, -, rfl⟩
      exact hset (by simp)
    | upheld hlive hcause hbond hsettle =>
      rcases CapacityBond.settleAppealUpheld_cases hsettle with ⟨-, -, -, -, -, -, rfl⟩
      exact hset (by simp)
    | granted hlive hcause hbond hsettle =>
      rcases CapacityBond.settleAppealGranted_cases hsettle with ⟨-, -, -, -, -, -, rfl⟩
      exact hset (by simp)
    | unpause hpaused hstamp hcredit =>
      rcases hcredit with rfl
      exact ⟨hminted, rfl⟩
    | forwarded | setBond | pause => exact ⟨hminted, rfl⟩
  | bondDonation amount => exact ⟨hminted, rfl⟩
  | donation amount => exact ⟨hminted, rfl⟩

/-- A slash is distributed without an appeal only after thirty days in which CapacityBond, which
takes the appeals, was not paused. -/
theorem finalize_awake {id n : Nat} (h : Reachable H w)
    (hminted : (w.bond.slashRecords id).status ≠ .none)
    (hstamp : (w.bond.slashRecords id).slashedAt = w.now)
    (hrun : Awake (Step H) World.now bondAsleep w v n) {tx : CapacityBond.Tx}
    {b : CapacityBond.State} (hnow : v.now ≤ tx.timestamp)
    (hexec : CapacityBond.finalizeUnappealedSlash tx v.bond id = .ok b) :
    CapacityBond.appealFilingWindow < n + (tx.timestamp - v.now) := by
  have hkept : Reachable H v ∧ (v.bond.slashRecords id).status ≠ .none ∧
      (v.bond.slashRecords id).appealWindowClose = (w.bond.slashRecords id).appealWindowClose := by
    refine hrun.invariant (P := fun u => Reachable H u ∧ (u.bond.slashRecords id).status ≠ .none ∧
      (u.bond.slashRecords id).appealWindowClose = (w.bond.slashRecords id).appealWindowClose)
      ⟨h, hminted, rfl⟩ ?_
    rintro a a' hstep ⟨hreach, hwas, hsame⟩
    rcases hstep.window_kept hreach.inv hwas with ⟨hne, heq⟩
    exact ⟨hreach.step hstep, hne, heq.trans hsame⟩
  rcases CapacityBond.finalizeUnappealedSlash_cases hexec with ⟨hlive, -, -, hlate, -, -, -⟩
  rw [hkept.2.2, h.window_close id hminted, hstamp] at hlate
  have hcredit : bondCredit v = v.bond.pausedTotal := by
    unfold bondCredit
    rw [hlive]
    rfl
  refine hrun.window_le (CapacityBond.appealFilingWindow + 1) h.stamped
    (fun a b hstep ha => hstep.stamped ha) (fun a b hstep => hstep.now_le)
    (fun a b hstep ha => hstep.bondCredit ha) hnow ?_
  rw [hcredit]
  omega

/-- A slash at time 20 in the sample run. -/
theorem finalize_awake_sample :
    CapacityBond.appealFilingWindow < 0 + (2592021 - (sampleAfter 2).now) := by
  have hfinalize : (CapacityBond.finalizeUnappealedSlash (CapacityBond.sampleTx 4 2592021)
      (sampleAfter 2).bond 0).toOption.isSome = true := by
    decide +kernel
  cases hexec : CapacityBond.finalizeUnappealedSlash (CapacityBond.sampleTx 4 2592021)
      (sampleAfter 2).bond 0 with
  | error e =>
    rw [hexec] at hfinalize
    cases hfinalize
  | ok b =>
    exact finalize_awake (sampleAfter_reachable (by decide)) (by decide +kernel)
      (by decide +kernel) .refl (by decide +kernel) hexec

/-! ## Progress -/

section Settling

variable {tx : CapacityBond.Tx} {b : CapacityBond.State} {id : Nat}

/-- The escrow of a record that waits is in the balance. -/
theorem escrow_in_balance (hinv : CapacityBond.Inv b)
    (hstatus : (b.slashRecords id).status = .appealOpen) :
    id < b.slashCounter ∧ (b.slashRecords id).slashAmount ≤ b.escrowedTotal ∧
      (b.slashRecords id).slashAmount ≤ b.tokenBalance := by
  have hwait : (b.slashRecords id).status.Waiting := by
    rw [hstatus]
    trivial
  rcases hinv.escrow_le hwait with ⟨hid, hamount⟩
  have hsolvent := hinv.solvent
  unfold CapacityBond.State.owed at hsolvent
  exact ⟨hid, hamount, by omega⟩

theorem bond_payOut_ok {p : CapacityBond.Payment} (htoken : tx.transferOut = true)
    (hle : p.amount ≤ b.tokenBalance) : ∃ b', CapacityBond.payOut tx b p = .ok b' := by
  unfold CapacityBond.payOut
  split
  · exact ⟨b, rfl⟩
  · rw [if_pos ⟨htoken, hle⟩]
    exact ⟨_, rfl⟩

/-- CapacityBond settles a slash that is locked for an appeal either way. -/
theorem settleAppealUpheld_ok (hinv : CapacityBond.Inv b)
    (hdivisible : Divisible (b.slashRecords id)) (hlive : b.paused = false)
    (hrole : tx.hasRole .slashAppeal tx.sender = true) (htoken : tx.transferOut = true)
    (hstatus : (b.slashRecords id).status = .appealOpen) :
    ∃ b', CapacityBond.settleAppealUpheld tx b id = .ok b' := by
  rcases escrow_in_balance hinv hstatus with ⟨hid, hescrow, hbalance⟩
  have hshare := CapacityBond.challengerShare_le (b.slashRecords id).slashAmount
  unfold CapacityBond.challengerShare at hshare
  rcases bond_payOut_ok (b := b.setSlashStatus id .upheld)
    (p := .transfer (b.slashRecords id).challenger ((b.slashRecords id).slashAmount *
      CapacityBond.challengerBps / bpsDenominator)) htoken
    (hshare.trans hbalance) with ⟨t, ht⟩
  have htShape := (CapacityBond.payOut_cases ht).2
  have hrest : (b.slashRecords id).slashAmount - (b.slashRecords id).slashAmount *
      CapacityBond.challengerBps / bpsDenominator ≤ t.tokenBalance := by
    rw [htShape]
    exact Nat.sub_le_sub_right hbalance _
  rcases bond_payOut_ok (p := .burn ((b.slashRecords id).slashAmount -
    (b.slashRecords id).slashAmount * CapacityBond.challengerBps /
      bpsDenominator)) htoken hrest with ⟨u, hu⟩
  have huShape := (CapacityBond.payOut_cases hu).2
  have huEscrow : (b.slashRecords id).slashAmount ≤ u.escrowedTotal := by
    rw [huShape, htShape]
    exact hescrow
  have hdistribute : CapacityBond.distribute tx b id true = .ok (u.emit (.slashUpheld id true
      ((b.slashRecords id).slashAmount * CapacityBond.challengerBps / bpsDenominator)
      ((b.slashRecords id).slashAmount - (b.slashRecords id).slashAmount *
        CapacityBond.challengerBps / bpsDenominator)),
      (b.slashRecords id).slashAmount) := by
    unfold CapacityBond.distribute
    simp only [bind_eq_ok, pure_eq_ok, CapacityBond.checkedMul_eq_ok,
      CapacityBond.checkedSub_eq_ok]
    exact ⟨_, ⟨hdivisible, rfl⟩, _, ⟨hshare, rfl⟩, t, ht, u, hu, rfl⟩
  have hsettle : CapacityBond.settleUpheld tx b id = CapacityBond.distribute tx b id true := by
    unfold CapacityBond.settleUpheld
    rw [if_neg (not_le.mpr hid), if_neg (not_not.mpr hstatus)]
  unfold CapacityBond.settleAppealUpheld CapacityBond.releaseEscrow
  simp only [bind_eq_ok, pure_eq_ok, CapacityBond.checkedSub_eq_ok,
    CapacityBond.whenNotPaused_eq_ok, CapacityBond.onlyRole_eq_ok]
  exact ⟨_, (), hlive, (), hrole, _, hsettle.trans hdistribute, _, ⟨huEscrow, rfl⟩, rfl⟩

theorem settleAppealGranted_ok (hinv : CapacityBond.Inv b) (hlive : b.paused = false)
    (hrole : tx.hasRole .slashAppeal tx.sender = true) (htoken : tx.transferOut = true)
    (hstatus : (b.slashRecords id).status = .appealOpen) :
    ∃ b', CapacityBond.settleAppealGranted tx b id = .ok b' := by
  rcases escrow_in_balance hinv hstatus with ⟨hid, hescrow, hbalance⟩
  unfold CapacityBond.settleAppealGranted CapacityBond.settleGranted CapacityBond.releaseEscrow
  rw [if_neg (not_le.mpr hid), if_neg (not_not.mpr hstatus)]
  simp only [bind_eq_ok, pure_eq_ok, CapacityBond.checkedSub_eq_ok,
    CapacityBond.whenNotPaused_eq_ok, CapacityBond.onlyRole_eq_ok]
  rcases bond_payOut_ok (b := { (CapacityBond.recomputeSlashedAtEpoch
      (b.setSlashStatus id .reversed) (b.slashRecords id).operator).emit (.slashReversed id
        (b.slashRecords id).operator (b.slashRecords id).slashAmount) with
      escrowedTotal := b.escrowedTotal - (b.slashRecords id).slashAmount })
    (p := .transfer (b.slashRecords id).operator (b.slashRecords id).slashAmount) htoken
    hbalance with ⟨b', hb'⟩
  exact ⟨b', (), hlive, (), hrole, _, rfl, _, ⟨_, ⟨hescrow, rfl⟩, rfl⟩, hb'⟩

end Settling

theorem payOut_ok {tx : Tx} {s : State} {p : CapacityBond.Payment} (htoken : tx.transferOut = true)
    (hle : p.amount ≤ s.tokenBalance) : ∃ s', payOut tx s p = .ok s' := by
  unfold payOut
  split
  · exact ⟨s, rfl⟩
  · rw [if_pos ⟨htoken, hle⟩]
    exact ⟨_, rfl⟩

/-- The bond of a pending appeal is in the balance. -/
theorem Inv.bond_in_balance (hinv : Inv w) {id : Nat} (hpending : (w.appeal.appeals id).Pending) :
    (w.appeal.appeals id).bond ≤ w.appeal.tokenBalance := by
  have hid : id < w.bond.slashCounter := by
    refine hinv.lt_counter ?_
    rcases hpending with h | h <;> rw [h] <;> simp
  exact (Finset.single_le_sum (f := fun id => (w.appeal.appeals id).bond)
    (fun _ _ => Nat.zero_le _) (Finset.mem_range.mpr hid)).trans hinv.custody

theorem settleUpheld_closes {tx : Tx} {b b' : CapacityBond.State} {s s' : State} {id : Nat}
    {e : Event} (h : settleUpheld tx b s id e = .ok (s', b')) :
    (s'.appeals id).status = .resolved ∧ (b'.slashRecords id).status = .upheld := by
  simp only [settleUpheld, bind_eq_ok, onCapacityBond_eq_ok, pure_eq_ok, Prod.mk.injEq] at h
  rcases h with ⟨_, hsettle, t, hpay, rfl, rfl⟩
  rcases payOut_cases hpay with ⟨-, rfl⟩
  rcases CapacityBond.settleAppealUpheld_cases hsettle with ⟨-, -, -, -, -, -, rfl⟩
  refine ⟨?_, ?_⟩
  · change (Function.update s.appeals id _ id).status = _
    rw [Function.update_self]
  · change ((b.setSlashStatus id .upheld).slashRecords id).status = _
    rw [CapacityBond.setSlashStatus_self]

theorem settleGranted_closes {tx : Tx} {b b' : CapacityBond.State} {s s' : State} {id : Nat}
    {e : Event} (h : settleGranted tx b s id e = .ok (s', b')) :
    (s'.appeals id).status = .resolved ∧ (b'.slashRecords id).status = .reversed := by
  simp only [settleGranted, bind_eq_ok, onCapacityBond_eq_ok, pure_eq_ok, Prod.mk.injEq] at h
  rcases h with ⟨_, hsettle, t, hpay, rfl, rfl⟩
  rcases payOut_cases hpay with ⟨-, rfl⟩
  rcases CapacityBond.settleAppealGranted_cases hsettle with ⟨-, -, -, -, -, -, rfl⟩
  refine ⟨?_, ?_⟩
  · change (Function.update s.appeals id _ id).status = _
    rw [Function.update_self]
  · change ((b.setSlashStatus id .reversed).slashRecords id).status = _
    rw [CapacityBond.setSlashStatus_self]

/-- A pending appeal never gets stuck: once its window, put off by the paused time, is over and
neither contract is paused, anybody's call closes it, against the operator if the appeal was not
forwarded and for the operator if it was.  No arithmetic overflows on the way, and both balances
cover what is paid. -/
theorem expired_appeal_closes (h : Reachable H w) {id : Nat}
    (hpending : (w.appeal.appeals id).Pending) {tx : Tx} (hlive : w.appeal.paused = false)
    (hbondLive : w.bond.paused = false)
    (hrole : tx.bond.hasRole .slashAppeal tx.bond.sender = true) (htoken : tx.transferOut = true)
    (hbondToken : tx.bond.transferOut = true)
    (hexpired : (w.appeal.appeals id).stamp + (w.appeal.appeals id).window + w.bond.pausedTotal ≤
      tx.timestamp) :
    ∃ s b, exec tx w.bond w.appeal (.cleanupExpiredAppeal id) = .ok (s, b) ∧
      (s.appeals id).status = .resolved ∧ (b.slashRecords id).status =
        if (w.appeal.appeals id).status = .opened then .upheld else .reversed := by
  have hinv := h.inv
  have hbond := hinv.bond_in_balance hpending
  have hopen := ((hinv.agrees id).operator_eq hpending).1
  have hfits : tx.timestamp ≤ u64Max := tx.bond.timestamp_le
  unfold Appeal.stamp Appeal.window at hexpired
  rcases hpending with hopened | hforwarded
  · rw [if_pos hopened, if_pos hopened] at hexpired
    rcases settleAppealUpheld_ok hinv.bond (hinv.divisible id) hbondLive hrole hbondToken hopen
      with ⟨b, hb⟩
    rcases payOut_ok (s := markResolved w.appeal id)
      (p := .burn (w.appeal.appeals id).bond) htoken hbond with ⟨t, ht⟩
    have hready : readyAt w.bond (w.appeal.appeals id).openedAt appealReviewWindow =
        .ok ((w.appeal.appeals id).openedAt + appealReviewWindow + w.bond.pausedTotal) :=
      readyAt_eq_ok.mpr ⟨hexpired.trans hfits, rfl⟩
    have hsettle : settleUpheld tx w.bond w.appeal id (.appealLapsed id 1) =
        .ok (t.emit (.appealLapsed id 1), b) := by
      simp only [settleUpheld, bind_eq_ok, onCapacityBond_eq_ok, pure_eq_ok]
      exact ⟨b, hb, t, ht, rfl⟩
    refine ⟨t.emit (.appealLapsed id 1), b, ?_, ?_⟩
    · simp only [exec, cleanupExpiredAppeal, hopened, bind_eq_ok, whenNotPaused_eq_ok]
      exact ⟨(), hlive, _, hready, by rw [if_neg (not_lt.mpr hexpired)]; exact hsettle⟩
    · rw [if_pos hopened]
      exact settleUpheld_closes hsettle
  · have hne : (w.appeal.appeals id).status ≠ .opened := by
      rw [hforwarded]
      simp
    rw [if_neg hne, if_neg hne] at hexpired
    rcases settleAppealGranted_ok hinv.bond hbondLive hrole hbondToken hopen with ⟨b, hb⟩
    rcases payOut_ok (s := { markResolved w.appeal id with
        lastAcceptedAppealAt := Function.update w.appeal.lastAcceptedAppealAt
          (w.appeal.appeals id).operator (tx.timestamp % 2 ^ 64) })
      (p := .transfer (w.appeal.appeals id).appellant (w.appeal.appeals id).bond) htoken hbond
      with ⟨t, ht⟩
    have hready : readyAt w.bond (w.appeal.appeals id).fastTrackedAt appealRatificationWindow =
        .ok ((w.appeal.appeals id).fastTrackedAt + appealRatificationWindow +
          w.bond.pausedTotal) :=
      readyAt_eq_ok.mpr ⟨hexpired.trans hfits, rfl⟩
    have hsettle : settleGranted tx w.bond w.appeal id (.appealLapsed id 2) =
        .ok (t.emit (.appealLapsed id 2), b) := by
      simp only [settleGranted, bind_eq_ok, onCapacityBond_eq_ok, pure_eq_ok]
      exact ⟨b, hb, t, ht, rfl⟩
    refine ⟨t.emit (.appealLapsed id 2), b, ?_, ?_⟩
    · simp only [exec, cleanupExpiredAppeal, hforwarded, bind_eq_ok, whenNotPaused_eq_ok]
      exact ⟨(), hlive, _, hready, by rw [if_neg (not_lt.mpr hexpired)]; exact hsettle⟩
    · rw [if_neg hne]
      exact settleGranted_closes hsettle

/-- The first appeal of the sample run, two weeks after it was filed. -/
theorem expired_appeal_closes_sample :
    ∃ s b, exec (sampleTx (CapacityBond.sampleTx 8 1209630)) (sampleAfter 3).bond
        (sampleAfter 3).appeal (.cleanupExpiredAppeal 0) = .ok (s, b) ∧
      (s.appeals 0).status = .resolved ∧ (b.slashRecords 0).status =
        if ((sampleAfter 3).appeal.appeals 0).status = .opened then .upheld else .reversed :=
  expired_appeal_closes (sampleAfter_reachable (by decide)) (by decide +kernel)
    (by decide +kernel) (by decide +kernel) rfl rfl rfl (by decide +kernel)

end Decdn.SlashAppeal
