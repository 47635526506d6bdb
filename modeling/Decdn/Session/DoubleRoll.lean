import Decdn.Session.Acceptance

/-!
# A chain rolled twice

What goes wrong when a rollover folds nothing.  Two streams find the same chain
spent.  Both roll it, the second with nothing accrued since, so the two vouchers
sign the same amount under different roots.  The node may read the second first
and a reveal under it; the first is then an under-fold, and the stream that sent
it is refused.

Main results:

- Theorem `Scene.pay`, Theorem `Scene.deliver` and Theorem `Scene.read`: the
  bookkeeping of a run of which only the counters matter.
- Theorem `double_roll_refused`: whatever the hash, two rollovers of one spent
  chain lead to a rejection.
- Theorem `honest_payer_refused`: so an honest payer can be refused.
-/

namespace Decdn.Session

open PaymentPool (Crypto)
open Incentive Client Node
open PoolLedger (Issue)

/-! ## Masks -/

section Mask

variable {ι : Type*}

/-- A session in which some streams are replaced by others. -/
def LaneSession.mask (s : LaneSession ι) (hidden : ι → Option Stream) : LaneSession ι :=
  { s with streams := fun σ => (hidden σ).getD (s.streams σ) }

/-- The stream an event is about. -/
def Terms.Event.stream : Terms.Event ι → ι
  | .frame σ _ | .verify σ _ | .pay σ _ | .read σ _ _ => σ

variable {t : Terms ι} {s s' : LaneSession ι} {hidden : ι → Option Stream} {σ : ι}

/-- A stream in sight is as it is. -/
theorem LaneSession.mask_streams (s : LaneSession ι) (hσ : hidden σ = none) :
    (s.mask hidden).streams σ = s.streams σ := by
  simp only [LaneSession.mask, hσ, Option.getD_none]

variable [DecidableEq ι]

/-- So is a change to it. -/
theorem LaneSession.mask_update (s : LaneSession ι) (hσ : hidden σ = none) (l : PoolLedger)
    (lane : LaneDeliveryState) (stream : Stream) (roots : List Bytes32) :
    LaneSession.mask ⟨l, lane, Function.update s.streams σ stream, roots⟩ hidden =
      ⟨l, lane, Function.update (s.mask hidden).streams σ stream, roots⟩ := by
  unfold LaneSession.mask
  congr 1
  funext τ
  rcases eq_or_ne τ σ with rfl | hne
  · simp only [Function.update_self, hσ, Option.getD_none]
  · simp only [Function.update_of_ne hne]

/-- The steps of a stream in sight are the same under the mask. -/
theorem Terms.apply_mask {e : Terms.Event ι} (hσ : hidden e.stream = none)
    (h : t.apply s e = some s') : t.apply (s.mask hidden) e = some (s'.mask hidden) := by
  have hledger : (s.mask hidden).ledger = s.ledger := rfl
  have hlane : (s.mask hidden).lane = s.lane := rfl
  cases e with
  | frame σ len =>
    have hsame : (s.mask hidden).streams σ = s.streams σ := s.mask_streams hσ
    rcases Option.map_eq_some_iff.mp h with ⟨stream, hframe, rfl⟩
    simp only [Terms.apply, hsame, hframe, Option.map_some]
    exact congrArg some (s.mask_update hσ _ _ _ _).symm
  | verify σ wire =>
    have hsame : (s.mask hidden).streams σ = s.streams σ := s.mask_streams hσ
    rcases Option.map_eq_some_iff.mp h with ⟨stream, hverify, rfl⟩
    simp only [Terms.apply, hsame, hverify, Option.map_some]
    exact congrArg some (s.mask_update hσ _ _ _ _).symm
  | pay σ seed =>
    have hsame : (s.mask hidden).streams σ = s.streams σ := s.mask_streams hσ
    change t.pay s σ seed = some s' at h
    change t.pay (s.mask hidden) σ seed = some (s'.mask hidden)
    unfold Terms.pay at h ⊢
    rw [hsame, hledger]
    split at h
    · cases h
      exact congrArg some (s.mask_update hσ _ _ _ _).symm
    · cases h
  | read σ now walked =>
    have hsame : (s.mask hidden).streams σ = s.streams σ := s.mask_streams hσ
    change t.read s σ now walked = some s' at h
    change t.read (s.mask hidden) σ now walked = some (s'.mask hidden)
    unfold Terms.read at h ⊢
    rw [hsame, hlane]
    split at h
    · cases h
      exact congrArg some (s.mask_update hσ _ _ _ _).symm
    · cases h

end Mask

/-! ## Looking for the chain -/

section Steps

variable {m : StreamMeter} {l : PoolLedger} {live : ChainEpoch} {ratePerMb : Nat}
  {preimages : Nat → Bytes32}

/-- A stream with a chunk to prove looks for the chain. -/
theorem pay_idle (hpc : m.pc = .idle) (hchunk : chunkBytes ≤ m.unproved) :
    m.pay l ratePerMb preimages = some ({ m with pc := .anchor, rolled := false }, l, none) := by
  unfold StreamMeter.pay
  rw [hpc]
  exact if_pos hchunk

/-- It finds a live chain. -/
theorem pay_anchor (hpc : m.pc = .anchor) (hlive : l.epoch = some live) :
    m.pay l ratePerMb preimages = some ({ m with pc := .naming }, l, none) := by
  simp only [StreamMeter.pay, hpc, PoolLedger.chainRoot, hlive, Option.map_some, Option.isNone_some,
    Bool.false_eq_true, if_false]

/-- It finds none. -/
theorem pay_unanchored (hpc : m.pc = .anchor) (hnone : l.epoch = none) :
    m.pay l ratePerMb preimages = some ({ m with pc := .opening }, l, none) := by
  simp only [StreamMeter.pay, hpc, PoolLedger.chainRoot, hnone, Option.map_none, Option.isNone_none,
    if_true]

/-- It opens one. -/
theorem pay_opening (hpc : m.pc = .opening)
    (hfits : (l.issue 0 ratePerMb .opened preimages).2.fitsWire = true) :
    m.pay l ratePerMb preimages = some ({ m with
      pc := .metering
      anchoredRoot := (l.issue 0 ratePerMb .opened preimages).2.anchorRoot },
      (l.issue 0 ratePerMb .opened preimages).1,
      some ⟨.voucher (l.issue 0 ratePerMb .opened preimages).2, 0⟩) := by
  simp only [StreamMeter.pay, hpc, StreamMeter.sendVoucher, hfits, if_true]

/-- It rolls a spent one. -/
theorem pay_rolling (hpc : m.pc = .rolling)
    (hfits : (l.issue 0 ratePerMb .roll preimages).2.fitsWire = true) :
    m.pay l ratePerMb preimages = some ({ m with
      pc := .anchor
      rolled := true
      anchoredRoot := (l.issue 0 ratePerMb .roll preimages).2.anchorRoot },
      (l.issue 0 ratePerMb .roll preimages).1,
      some ⟨.voucher (l.issue 0 ratePerMb .roll preimages).2, 0⟩) := by
  simp only [StreamMeter.pay, hpc, StreamMeter.sendVoucher, hfits, if_true]

/-- It names the live chain. -/
theorem pay_reanchoring (hpc : m.pc = .reanchoring) (hlive : l.epoch = some live)
    (hfits : Issue.fitsWire ⟨l.pipeline.committed, ⟨live.root, live.chunkPrice⟩⟩ = true) :
    m.pay l ratePerMb preimages = some ({ m with
      anchoredRoot := some live.root
      pc := .metering }, l,
      some ⟨.voucher ⟨l.pipeline.committed, ⟨live.root, live.chunkPrice⟩⟩, 0⟩) := by
  simp only [StreamMeter.pay, hpc, PoolLedger.reanchor, hlive, Option.map_some, hfits, if_true]

/-- It carries the live root already, or names it first. -/
theorem pay_naming (hpc : m.pc = .naming) (hlive : l.epoch = some live) :
    m.pay l ratePerMb preimages = some ({ m with
      pc := if m.anchoredRoot = some live.root then .metering else .reanchoring }, l, none) := by
  by_cases hroot : m.anchoredRoot = some live.root
  · simp [StreamMeter.pay, hpc, PoolLedger.chainRoot, hlive, hroot]
  · simp [StreamMeter.pay, hpc, PoolLedger.chainRoot, hlive, hroot]

/-- It reveals the next index of the chain. -/
theorem pay_reveal (hpc : m.pc = .metering) (hlive : l.epoch = some live)
    (hroot : m.anchoredRoot = some live.root) (hmore : live.released + 1 ≤ maxChainLength) :
    m.pay l ratePerMb preimages =
      some ({ m with unproved := m.unproved - chunkBytes, pc := .idle },
        l.meterAdvance ⟨live.preimages (live.released + 1), live.released + 1, live.root⟩
          live.chunkPrice,
        some ⟨.chunkPreimage ⟨live.preimages (live.released + 1), live.released + 1, live.root⟩,
          chunkBytes⟩) := by
  have hread : l.meterRead m.anchoredRoot =
      .released ⟨live.preimages (live.released + 1), live.released + 1, live.root⟩
        live.chunkPrice := by
    unfold PoolLedger.meterRead ChainEpoch.nextIndex
    simp only [hlive, hroot, ne_eq, not_true_eq_false, if_false]
    rw [if_pos (Nat.lt_of_succ_le hmore)]
  simp only [StreamMeter.pay, hpc, hread]

/-- It finds the chain spent. -/
theorem pay_spent (hpc : m.pc = .metering) (hlive : l.epoch = some live)
    (hroot : m.anchoredRoot = some live.root) (hspent : live.released = maxChainLength)
    (hrolled : m.rolled = false) :
    m.pay l ratePerMb preimages = some ({ m with pc := .rolling }, l, none) := by
  have hread : l.meterRead m.anchoredRoot = .exhausted := by
    unfold PoolLedger.meterRead ChainEpoch.nextIndex
    simp only [hlive, hroot, ne_eq, not_true_eq_false, if_false]
    rw [if_neg (by rw [hspent]; exact Nat.lt_irrefl _)]
  simp only [StreamMeter.pay, hpc, hread, hrolled, Bool.false_eq_true, if_false]

end Steps

/-! ## Scenes -/

section Scene

variable {ι : Type*} [Fintype ι] [DecidableEq ι]

/-- What the run tracks of a stream, at a chunk boundary. -/
structure Seen where
  meter : StreamMeter := {}
  verified : Nat := 0
  delivered : Nat := 0
  queue : List Sent := []

/-- A stream as it is tracked. -/
structure Seen.At (v : Seen) (stream : Stream) : Prop where
  meter : stream.meter = v.meter
  verified : stream.verified = v.verified
  delivered : stream.delivered = v.delivered
  unvouchered : stream.unvouchered = 0
  queue : stream.queue = v.queue

/-- Recouping a chunk drops the proof and leaves the payer's end alone. -/
theorem Seen.At.recoup {v : Seen} {stream : Stream} {rest : List Sent} {owed : OwedChunk}
    {chunks : List OwedChunk} {anchor : StreamAnchor} {stop : VoucherStop} (h : v.At stream) :
    Seen.At { v with queue := rest } (stream.recoup rest owed chunks anchor stop) := by
  unfold Stream.recoup
  split
  · split
    · exact ⟨h.meter, h.verified, h.delivered, h.unvouchered, rfl⟩
    · exact ⟨h.meter, h.verified, h.delivered, h.unvouchered, rfl⟩
  · exact ⟨h.meter, h.verified, h.delivered, h.unvouchered, rfl⟩

/-- A run has come to a session with this ledger and these streams, and the joint
invariant holds of it, the hidden streams apart.  Those wait for a proof of a
chunk. -/
def Scene (t : Terms ι) (hidden : ι → Option Stream) (l : PoolLedger) (roots : List Bytes32)
    (seen : ι → Seen) : Prop :=
  ∃ s, Reaches t.step t.Assumed t.start s ∧ (∃ C, Joint t (s.mask hidden) C) ∧ s.ledger = l ∧
    (∀ r ∈ s.roots, r ∈ roots) ∧ (∀ σ, (seen σ).At (s.streams σ)) ∧
    ∀ σ, (hidden σ).isSome = true → (s.streams σ).pending ≠ [] ∧ (s.streams σ).stop = none

variable {t : Terms ι} {hidden : ι → Option Stream} {l : PoolLedger} {roots : List Bytes32}
  {seen : ι → Seen} {s s' : LaneSession ι} {σ : ι}

omit [Fintype ι] in
/-- The hidden streams stand as they stood. -/
theorem waiting_update {stream : Stream} (hσ : hidden σ = none)
    (h : ∀ τ, (hidden τ).isSome = true → (s.streams τ).pending ≠ [] ∧ (s.streams τ).stop = none) :
    ∀ τ, (hidden τ).isSome = true → (Function.update s.streams σ stream τ).pending ≠ [] ∧
      (Function.update s.streams σ stream τ).stop = none := by
  intro τ hτ
  rcases eq_or_ne τ σ with rfl | hne
  · rw [hσ] at hτ
    cases hτ
  · rw [Function.update_of_ne hne]
    exact h τ hτ

omit [Fintype ι] in
/-- One stream is tracked on. -/
theorem seen_update {stream : Stream} {v : Seen} (hnew : v.At stream)
    (h : ∀ τ, (seen τ).At (s.streams τ)) :
    ∀ τ, (Function.update seen σ v τ).At (Function.update s.streams σ stream τ) := by
  intro τ
  rcases eq_or_ne τ σ with rfl | hne
  · rw [Function.update_self, Function.update_self]
    exact hnew
  · rw [Function.update_of_ne hne, Function.update_of_ne hne]
    exact h τ

/-- A step of a stream in sight. -/
theorem masked_step {e : Terms.Event ι} (hσ : hidden e.stream = none)
    (hrun : Reaches t.step t.Assumed t.start s) (hjoint : ∃ C, Joint t (s.mask hidden) C)
    (hassumed : t.Assumed s e) (hmasked : t.Assumed (s.mask hidden) e)
    (hfolds : e.Folds (s.mask hidden)) (hstep : t.apply s e = some s') :
    Reaches t.step t.Assumed t.start s' ∧ ∃ C, Joint t (s'.mask hidden) C := by
  rcases hjoint with ⟨C, hC⟩
  exact ⟨hrun.tail hassumed hstep, hC.step hmasked hfolds (Terms.apply_mask hσ hstep)⟩

/-- A stream pays. -/
theorem Scene.pay {meter : StreamMeter} {l' : PoolLedger} {sent : Option Sent}
    {roots' : List Bytes32} (h : Scene t hidden l roots seen) (hσ : hidden σ = none) (seed : Bytes32)
    (hpay : (seen σ).meter.pay l t.ratePerMb.toNat (preimageAt t.env.H seed) =
      some (meter, l', sent))
    (hfresh : rootFromSeed t.env.H seed ∉ roots) (hcap : l'.pipeline.owed.amount ≤ t.lane.cap)
    (hfolds : (seen σ).meter.pc = .rolling → l.pipeline.accrued.amount ≠ 0)
    (hroots : ∀ r ∈ l'.chainRoot.toList ++ roots, r ∈ roots') :
    Scene t hidden l' roots'
      (Function.update seen σ
        { seen σ with meter := meter, queue := (seen σ).queue ++ sent.toList }) := by
  rcases h with ⟨s, hrun, hjoint, rfl, hsub, hseen, hwait⟩
  have hmeter := (hseen σ).meter
  rw [← hmeter] at hpay hfolds
  have hstep : t.pay s σ seed = some { s with
      ledger := l'
      streams := Function.update s.streams σ
        { s.streams σ with meter := meter, queue := (s.streams σ).queue ++ sent.toList }
      roots := l'.chainRoot.toList ++ s.roots } := by
    unfold Terms.pay
    rw [hpay]
  have hassumed : t.Assumed s (.pay σ seed) := by
    refine ⟨fun hmem => hfresh (hsub _ hmem), ?_⟩
    intro s' hs'
    rw [← Option.some.inj (hstep.symm.trans hs')]
    exact hcap
  have hmasked : t.Assumed (s.mask hidden) (.pay σ seed) := by
    refine ⟨hassumed.1, ?_⟩
    intro s' hs'
    have hboth := Terms.apply_mask (e := .pay σ seed) hσ hstep
    rw [← Option.some.inj (hboth.symm.trans hs')]
    exact hcap
  have hfolds' : Terms.Event.Folds (s.mask hidden) (.pay σ seed) := by
    change ((s.mask hidden).streams σ).meter.pc = .rolling → s.ledger.pipeline.accrued.amount ≠ 0
    rw [s.mask_streams hσ]
    exact hfolds
  rcases masked_step hσ hrun hjoint hassumed hmasked hfolds' hstep with ⟨hrun', hjoint'⟩
  refine ⟨_, hrun', hjoint', rfl, ?_, ?_, waiting_update hσ hwait⟩
  · intro r hr
    apply hroots
    rcases List.mem_append.mp hr with hnew | hold
    · exact List.mem_append_left _ hnew
    · exact List.mem_append_right _ (hsub r hold)
  · refine seen_update ⟨rfl, (hseen σ).verified, (hseen σ).delivered, (hseen σ).unvouchered, ?_⟩
      hseen
    rw [← (hseen σ).queue]

/-- The serve loop or the decoder moves a stream on. -/
theorem Scene.move {e : Terms.Event ι} {v : Seen} (h : Scene t hidden l roots seen)
    (hσ : hidden σ = none) (he : e.stream = σ) (hfree : ∀ s, t.Assumed s e ∧ e.Folds s)
    (hstep : ∀ s, s.ledger = l → (seen σ).At (s.streams σ) → (s.streams σ).stop = none →
      ∃ stream, t.apply s e = some { s with streams := Function.update s.streams σ stream } ∧
        v.At stream) :
    Scene t hidden l roots (Function.update seen σ v) := by
  rcases h with ⟨s, hrun, hjoint, hledger, hsub, hseen, hwait⟩
  have hserving : (s.streams σ).stop = none := by
    rcases hjoint with ⟨C, hC⟩
    have hmasked := (hC.streams σ).serving
    rw [s.mask_streams hσ] at hmasked
    exact hmasked
  rcases hstep s hledger (hseen σ) hserving with ⟨stream, happly, hat⟩
  rcases masked_step (by rw [he]; exact hσ) hrun hjoint (hfree _).1 (hfree _).1 (hfree _).2 happly
    with ⟨hrun', hjoint'⟩
  exact ⟨_, hrun', hjoint', hledger, hsub, seen_update hat hseen, waiting_update hσ hwait⟩

/-- The node sends a stream one whole chunk. -/
theorem Scene.frame (h : Scene t hidden l roots seen) (hσ : hidden σ = none)
    (hrange : (seen σ).delivered + chunkBytes ≤ t.expected σ) :
    Scene t hidden l roots (Function.update seen σ
      { seen σ with delivered := (seen σ).delivered + chunkBytes }) := by
  have hpos : 0 < chunkBytes := t.tariff.unit_pos
  refine h.move (e := .frame σ chunkBytes) hσ rfl (fun _ => ⟨trivial, trivial⟩) ?_
  intro s _ hat hserving
  have hlen : 0 < chunkBytes ∧ (s.streams σ).unvouchered + chunkBytes ≤ chunkBytes ∧
      (s.streams σ).delivered + chunkBytes ≤ t.expected σ ∧ (s.streams σ).stop = none := by
    rw [hat.unvouchered, hat.delivered]
    exact ⟨hpos, le_of_eq (Nat.zero_add _), hrange, hserving⟩
  have hfull : (s.streams σ).unvouchered + chunkBytes = chunkBytes := by
    rw [hat.unvouchered, Nat.zero_add]
  refine ⟨{ s.streams σ with
    delivered := (s.streams σ).delivered + chunkBytes
    unvouchered := 0
    pending := (s.streams σ).pending ++
      [OwedChunk.new ((s.streams σ).unvouchered + chunkBytes) (Nat.add_pos_right _ hpos)
        (le_trans hlen.2.1 chunkBytes_le_u64Max)] }, ?_, ?_⟩
  · simp only [Terms.apply, Stream.frame]
    rw [dif_pos hlen, if_pos (.inl hfull)]
    rfl
  · exact ⟨hat.meter, hat.verified, congrArg (· + chunkBytes) hat.delivered, rfl, hat.queue⟩

/-- The payer verifies all that was delivered. -/
theorem Scene.verify (h : Scene t hidden l roots seen) (hσ : hidden σ = none)
    (hidle : (seen σ).meter.pc = .idle) (hmore : (seen σ).verified < (seen σ).delivered) :
    Scene t hidden l roots (Function.update seen σ
      { seen σ with
        meter := { (seen σ).meter with
          unproved := (seen σ).meter.unproved + ((seen σ).delivered - (seen σ).verified)
          complete := decide (t.expected σ ≤ (seen σ).delivered) }
        verified := (seen σ).delivered }) := by
  refine h.move (e := .verify σ (seen σ).delivered) hσ rfl (fun _ => ⟨trivial, trivial⟩) ?_
  intro s _ hat _
  refine ⟨{ s.streams σ with
    verified := (seen σ).delivered
    meter := { (seen σ).meter with
      unproved := (seen σ).meter.unproved + ((seen σ).delivered - (seen σ).verified)
      complete := decide (t.expected σ ≤ (seen σ).delivered) } }, ?_, ?_⟩
  · simp only [Terms.apply, Stream.verify, hat.meter, hat.verified, hat.delivered, hidle, hmore,
      min_self, if_true, Option.map_some]
  · exact ⟨rfl, rfl, hat.delivered, hat.unvouchered, hat.queue⟩

/-- The node reads the next proof of a stream. -/
theorem Scene.read {now : Nat} {sent : Sent} {rest : List Sent} (h : Scene t hidden l roots seen)
    (hσ : hidden σ = none) (hqueue : (seen σ).queue = sent :: rest)
    (hnow : NodeEnv.insideExpiryMargin { t.env with now := now } t.lane.expiry = false) :
    Scene t hidden l roots (Function.update seen σ { seen σ with queue := rest }) := by
  rcases h with ⟨s, hrun, hjoint, hledger, hsub, hseen, hwait⟩
  have hat := hseen σ
  rcases hjoint with ⟨C, hC⟩
  have hstream := hC.streams σ
  rw [s.mask_streams hσ] at hstream
  have hfirst : (s.streams σ).queue = sent :: rest := hat.queue.trans hqueue
  have hpending : (s.streams σ).pending ≠ [] := hstream.unpaid.2 (by rw [hfirst]; exact nofun)
  cases hchunks : (s.streams σ).pending with
  | nil => exact absurd hchunks hpending
  | cons owed chunks =>
    have hstep : t.apply s (.read σ now none) = some { s with
        lane := (commitOneProof { t.env with now := now } s.lane (s.streams σ).anchor
          (t.proof sent.message none) t.ratePerMb owed).lane
        streams := Function.update s.streams σ
          ((s.streams σ).recoup rest owed chunks
            (commitOneProof { t.env with now := now } s.lane (s.streams σ).anchor
              (t.proof sent.message none) t.ratePerMb owed).anchor
            (commitOneProof { t.env with now := now } s.lane (s.streams σ).anchor
              (t.proof sent.message none) t.ratePerMb owed).stop) } := by
      simp only [Terms.apply, Terms.read, hfirst, hchunks, hstream.serving]
    rcases masked_step (e := .read σ now none) hσ hrun ⟨C, hC⟩ hnow hnow trivial hstep with ⟨hrun', hjoint'⟩
    refine ⟨_, hrun', hjoint', hledger, hsub, seen_update ?_ hseen, waiting_update hσ hwait⟩
    exact Seen.At.recoup hat

/-- The node reads all proofs of a stream. -/
theorem Scene.drain {now : Nat} (h : Scene t hidden l roots seen) (hσ : hidden σ = none)
    (hnow : NodeEnv.insideExpiryMargin { t.env with now := now } t.lane.expiry = false) :
    Scene t hidden l roots (Function.update seen σ { seen σ with queue := [] }) := by
  generalize hqueue : (seen σ).queue = queue
  induction queue generalizing seen with
  | nil =>
    rw [← hqueue, Function.update_eq_self]
    exact h
  | cons sent rest ih =>
    have hread := ih (h.read hσ hqueue hnow) (by rw [Function.update_self])
    rw [Function.update_idem, Function.update_self] at hread
    exact hread

/-- A stream only looks. -/
theorem Scene.quiet {meter : StreamMeter} (h : Scene t hidden l roots seen) (hσ : hidden σ = none)
    (seed : Bytes32)
    (hpay : (seen σ).meter.pay l t.ratePerMb.toNat (preimageAt t.env.H seed) =
      some (meter, l, none))
    (hfresh : rootFromSeed t.env.H seed ∉ roots) (hcap : l.pipeline.owed.amount ≤ t.lane.cap)
    (hpc : (seen σ).meter.pc ≠ .rolling) (hroot : ∀ r ∈ l.chainRoot, r ∈ roots) :
    Scene t hidden l roots (Function.update seen σ { seen σ with meter := meter }) := by
  have hpaid := h.pay hσ seed hpay hfresh hcap (fun hrolling => absurd hrolling hpc) (by
    intro r hr
    rcases List.mem_append.mp hr with hlive | hold
    · exact hroot r (Option.mem_toList.mp hlive)
    · exact hold)
  rw [Option.toList_none, List.append_nil] at hpaid
  exact hpaid

/-- A stream with nothing to prove gets one more chunk and looks for the chain. -/
theorem Scene.begin {m : StreamMeter} {bytes : Nat} {queue : List Sent}
    (h : Scene t hidden l roots seen) (hσ : hidden σ = none) (seed : Bytes32)
    (hseen : seen σ = ⟨m, bytes, bytes, queue⟩) (hpc : m.pc = .idle) (hunproved : m.unproved = 0)
    (hrange : bytes + chunkBytes ≤ t.expected σ)
    (hfresh : rootFromSeed t.env.H seed ∉ roots) (hcap : l.pipeline.owed.amount ≤ t.lane.cap)
    (hroots : ∀ r ∈ l.chainRoot, r ∈ roots) :
    Scene t hidden l roots (Function.update seen σ
      ⟨{ m with
          unproved := chunkBytes
          complete := decide (t.expected σ ≤ bytes + chunkBytes)
          pc := .anchor
          rolled := false }, bytes + chunkBytes, bytes + chunkBytes, queue⟩) := by
  have hchunk : 0 < chunkBytes := t.tariff.unit_pos
  have hframe := h.frame hσ (by rw [hseen]; exact hrange)
  rw [hseen] at hframe
  have hverify := hframe.verify (σ := σ) hσ (by rw [Function.update_self]; exact hpc) (by
    rw [Function.update_self]
    exact Nat.lt_add_of_pos_right hchunk)
  rw [Function.update_idem, Function.update_self] at hverify
  simp only [hunproved, Nat.zero_add, Nat.add_sub_cancel_left] at hverify
  have hidle := hverify.quiet (σ := σ) hσ seed
    (pay_idle (by rw [Function.update_self]; exact hpc) (by rw [Function.update_self])) hfresh hcap
    (by rw [Function.update_self]; exact fun heq => nomatch hpc.symm.trans heq) hroots
  rw [Function.update_idem, Function.update_self] at hidle
  exact hidle

/-- A stream that carries the live root gets to its reveal. -/
theorem Scene.meter {live : ChainEpoch} (h : Scene t hidden l roots seen) (hσ : hidden σ = none)
    (seed : Bytes32) (hpc : (seen σ).meter.pc = .anchor) (hlive : l.epoch = some live)
    (hroot : (seen σ).meter.anchoredRoot = some live.root)
    (hfresh : rootFromSeed t.env.H seed ∉ roots) (hcap : l.pipeline.owed.amount ≤ t.lane.cap)
    (hroots : ∀ r ∈ l.chainRoot, r ∈ roots) :
    Scene t hidden l roots (Function.update seen σ
      { seen σ with meter := { (seen σ).meter with pc := .metering } }) := by
  have hnaming := h.quiet hσ seed (pay_anchor hpc hlive) hfresh hcap (by rw [hpc]; exact nofun) hroots
  have hmetering := hnaming.quiet hσ seed (pay_naming (by rw [Function.update_self]) hlive) hfresh hcap
    (by rw [Function.update_self]; exact nofun) hroots
  rw [Function.update_idem, Function.update_self] at hmetering
  simp only [hroot, if_true] at hmetering ⊢
  exact hmetering

end Scene

/-! ## Two streams and one chain -/

/-- The ledger has released `n` preimages of the chain drawn from a seed, over an
anchor. -/
structure Metered (t : Terms Bool) (seed : Bytes32) (anchor : Cumulative) (n : Nat)
    (l : PoolLedger) : Prop where
  epoch : l.epoch = some
    { ChainEpoch.opened (preimageAt t.env.H seed) t.ratePerMb.toNat with released := n }
  armed : l.pipeline.armed = none
  committed : l.pipeline.committed = anchor
  accrued : l.pipeline.accrued = ⟨n * chunkBytes, n * t.ratePerMb.toNat⟩

/-- The money and the bytes are far from the widths. -/
structure Roomy (t : Terms Bool) (anchor : Cumulative) (n : Nat) : Prop where
  length : n ≤ maxChainLength
  amount : anchor.amount + n * t.ratePerMb.toNat ≤ t.lane.cap
  bytes : anchor.bytes ≤ maxChainLength * chunkBytes

section Metered

variable {t : Terms Bool} {seed seed' : Bytes32} {anchor : Cumulative} {n : Nat} {l : PoolLedger}

/-- Saturation is far away. -/
theorem saturatingAdd_small {a b : Nat} (ha : a + b ≤ u64Max) : U256.saturatingAdd a b = a + b := by
  apply U256.saturatingAdd_eq
  unfold U256.modulus
  unfold u64Max at ha
  omega

/-- The bytes fit the wire. -/
theorem Roomy.bytes_small (h : Roomy t anchor n) : anchor.bytes + n * chunkBytes ≤ u64Max := by
  have hlength := h.length
  have hbytes := h.bytes
  unfold maxChainLength at hlength hbytes
  unfold chunkBytes at hbytes ⊢
  unfold u64Max
  omega

/-- The root of the chain, however much of it is released. -/
theorem metered_root (H : Crypto) (seed : Bytes32) (ratePerMb n : Nat) :
    ChainEpoch.root { ChainEpoch.opened (preimageAt H seed) ratePerMb with released := n } =
      rootFromSeed H seed := by
  simp only [ChainEpoch.root, ChainEpoch.opened, preimageAt_zero]

/-- The live root. -/
theorem Metered.chainRoot (h : Metered t seed anchor n l) :
    l.chainRoot = some (rootFromSeed t.env.H seed) := by
  simp only [PoolLedger.chainRoot, h.epoch, Option.map_some, metered_root]

/-- What the ledger owes. -/
theorem Metered.owed (h : Metered t seed anchor n l) (hroom : Roomy t anchor n) :
    l.pipeline.owed =
      ⟨anchor.bytes + n * chunkBytes, anchor.amount + n * t.ratePerMb.toNat⟩ := by
  have hamount := le_trans hroom.amount t.cap_le
  have hsmall := hroom.bytes_small
  simp only [Pipeline.owed, Cumulative.plus, h.committed, h.accrued]
  rw [saturatingAdd_small hsmall, saturatingAdd_small hamount]

/-- One more reveal. -/
theorem Metered.advance (h : Metered t seed anchor n l) (hroom : Roomy t anchor (n + 1))
    (released : Released) (hindex : released.index = n + 1) :
    Metered t seed anchor (n + 1) (l.meterAdvance released t.ratePerMb.toNat) := by
  have hlength := hroom.length
  have hamount := le_trans hroom.amount t.cap_le
  have hmul : n * t.ratePerMb.toNat + t.ratePerMb.toNat = (n + 1) * t.ratePerMb.toNat :=
    (Nat.succ_mul _ _).symm
  have hbytes : n * chunkBytes + chunkBytes ≤ u64Max := by
    unfold maxChainLength at hlength
    unfold chunkBytes u64Max
    omega
  refine ⟨?_, h.armed, h.committed, ?_⟩
  · simp only [PoolLedger.meterAdvance, h.epoch, Option.map_some, hindex]
  · simp only [PoolLedger.meterAdvance, h.accrued]
    rw [saturatingAdd_small hbytes, saturatingAdd_small (by omega), hmul, ← Nat.succ_mul]

/-- A voucher for no bytes signs what it finds. -/
theorem nextVoucher_zero {cur : Cumulative} {ratePerMb : Nat} (hbytes : cur.bytes ≤ u64Max)
    (hamount : cur.amount ≤ u64Max) : nextVoucher cur 0 ratePerMb = cur := by
  have hfree : (U256.saturatingMul 0 ratePerMb + (mbBytes - 1)) / mbBytes = 0 := by
    have hzero : U256.saturatingMul 0 ratePerMb = 0 := by
      unfold U256.saturatingMul
      rw [Nat.zero_mul]
      exact Nat.zero_min _
    rw [hzero]
    decide
  unfold nextVoucher
  rw [hfree, saturatingAdd_small hbytes, saturatingAdd_small hamount]
  rfl

/-- A rollover signs all that is owed under a new root. -/
theorem Metered.roll (h : Metered t seed anchor n l) (hroom : Roomy t anchor n) (seed' : Bytes32) :
    (l.issue 0 t.ratePerMb.toNat .roll (preimageAt t.env.H seed')).2 =
        ⟨l.pipeline.owed, ⟨rootFromSeed t.env.H seed', t.ratePerMb.toNat⟩⟩ ∧
      Metered t seed' l.pipeline.owed 0
        (l.issue 0 t.ratePerMb.toNat .roll (preimageAt t.env.H seed')).1 := by
  have howed := h.owed hroom
  have hnext : nextVoucher l.settlement 0 t.ratePerMb.toNat = l.pipeline.owed := by
    have hsettled : l.settlement = l.pipeline.owed := by
      unfold PoolLedger.settlement Pipeline.settlement
      rw [h.armed]
    rw [hsettled]
    apply nextVoucher_zero
    · rw [howed]
      exact hroom.bytes_small
    · rw [howed]
      exact le_trans hroom.amount t.cap_le
  have haction : l.issueAction .roll = .roll := by
    unfold PoolLedger.issueAction
    exact ite_self _
  have hepoch : (l.commitEpoch (l.issueAction .roll) t.ratePerMb.toNat
      (preimageAt t.env.H seed')).epoch =
      some (ChainEpoch.opened (preimageAt t.env.H seed') t.ratePerMb.toNat) := by
    rw [haction]
    rfl
  constructor
  · simp only [PoolLedger.issue, PoolLedger.issueArm, hnext, hepoch]
    rw [← opened_root]
    rfl
  · refine ⟨hepoch, rfl, hnext, ?_⟩
    change Cumulative.zero = _
    rw [Nat.zero_mul, Nat.zero_mul]
    rfl

end Metered

/-- The two streams. -/
def pair (first second : Seen) : Bool → Seen
  | true => first
  | false => second

@[simp]
theorem update_pair_true (x y z : Seen) : Function.update (pair x y) true z = pair z y := by
  funext σ
  cases σ <;> rfl

@[simp]
theorem update_pair_false (x y z : Seen) : Function.update (pair x y) false z = pair x z := by
  funext σ
  cases σ <;> rfl

/-- Both streams ask for one chunk more than a chain meters, the cap is not
reached, and four chains can be drawn. -/
structure Stage (t : Terms Bool) (a b c d : Bytes32) (now : Nat) : Prop where
  cap : (maxChainLength + 1) * t.ratePerMb.toNat ≤ t.lane.cap
  range : ∀ σ, (maxChainLength + 1) * chunkBytes ≤ t.expected σ
  unexpired : NodeEnv.insideExpiryMargin { t.env with now := now } t.lane.expiry = false
  nodup : [0, rootFromSeed t.env.H a, rootFromSeed t.env.H b, rootFromSeed t.env.H c,
    rootFromSeed t.env.H d].Nodup

section Script

variable {t : Terms Bool} {a b c d : Bytes32} {now n : Nat}

/-- A chain of the run leaves room. -/
theorem Stage.roomy (h : Stage t a b c d now) (hn : n ≤ maxChainLength) : Roomy t .zero n := by
  refine ⟨hn, ?_, Nat.zero_le _⟩
  have hle : n * t.ratePerMb.toNat ≤ (maxChainLength + 1) * t.ratePerMb.toNat :=
    Nat.mul_le_mul_right _ (le_trans hn (Nat.le_succ _))
  calc Cumulative.zero.amount + n * t.ratePerMb.toNat = n * t.ratePerMb.toNat := Nat.zero_add _
    _ ≤ t.lane.cap := le_trans hle h.cap

/-- The first stream is at its reveal with `n` released. -/
def Selling (t : Terms Bool) (a : Bytes32) (n : Nat) : Prop :=
  ∃ l m bytes queue, bytes = (n + 1) * chunkBytes ∧ Metered t a .zero n l ∧ m.pc = .metering ∧
    m.anchoredRoot = some (rootFromSeed t.env.H a) ∧ m.unproved = chunkBytes ∧ m.rolled = false ∧
    Scene t (fun _ => none) l [rootFromSeed t.env.H a, 0] (pair ⟨m, bytes, bytes, queue⟩ {})

/-- The run starts. -/
theorem scene_start (t : Terms Bool) : Scene t (fun _ => none) (.new .zero) [0] (pair {} {}) := by
  refine ⟨t.start, Reaches.refl _, ⟨.blank, Joint.start t⟩, rfl, fun _ hr => hr, ?_, nofun⟩
  intro σ
  cases σ <;> exact ⟨rfl, rfl, rfl, rfl, rfl⟩

/-- The first voucher of a new ledger opens a chain over nothing. -/
theorem new_opens (t : Terms Bool) (a : Bytes32) :
    (PoolLedger.issue (.new .zero) 0 t.ratePerMb.toNat .opened (preimageAt t.env.H a)).2 =
        ⟨.zero, ⟨rootFromSeed t.env.H a, t.ratePerMb.toNat⟩⟩ ∧
      Metered t a .zero 0
        (PoolLedger.issue (.new .zero) 0 t.ratePerMb.toNat .opened (preimageAt t.env.H a)).1 := by
  have hnext : nextVoucher (PoolLedger.new .zero).settlement 0 t.ratePerMb.toNat = .zero :=
    nextVoucher_zero (Nat.zero_le _) (Nat.zero_le _)
  constructor
  · simp only [PoolLedger.issue, PoolLedger.issueArm, hnext]
    rw [← opened_root]
    rfl
  · refine ⟨rfl, rfl, hnext, ?_⟩
    change Cumulative.zero = _
    rw [Nat.zero_mul, Nat.zero_mul]
    rfl

/-- A voucher of the run can be written. -/
theorem fits_of_le {next : Cumulative} {root : Bytes32} (t : Terms Bool)
    (hbytes : next.bytes ≤ u64Max) (hamount : next.amount ≤ u64Max) :
    Issue.fitsWire ⟨next, ⟨root, t.ratePerMb.toNat⟩⟩ = true :=
  decide_eq_true ⟨hamount, hbytes, toNat_le_u64Max t.ratePerMb⟩

/-- A stream that finds no chain opens one. -/
theorem Scene.opens {hidden : Bool → Option Stream} {l : PoolLedger} {roots : List Bytes32}
    {m : StreamMeter} {bytes : Nat} {queue : List Sent} {y : Seen}
    (h : Scene t hidden l roots (pair ⟨m, bytes, bytes, queue⟩ y)) (hσ : hidden true = none)
    (hpc : m.pc = .anchor) (hnone : l.epoch = none) (hroot : rootFromSeed t.env.H a ≠ 0)
    (hissue : (l.issue 0 t.ratePerMb.toNat .opened (preimageAt t.env.H a)).2 =
      ⟨.zero, ⟨rootFromSeed t.env.H a, t.ratePerMb.toNat⟩⟩)
    (hmetered : Metered t a .zero 0
      (l.issue 0 t.ratePerMb.toNat .opened (preimageAt t.env.H a)).1)
    (hfresh : rootFromSeed t.env.H a ∉ roots) (hcap : l.pipeline.owed.amount ≤ t.lane.cap) :
    Scene t hidden (l.issue 0 t.ratePerMb.toNat .opened (preimageAt t.env.H a)).1
      (rootFromSeed t.env.H a :: roots)
      (pair ⟨{ m with anchoredRoot := some (rootFromSeed t.env.H a), pc := .metering }, bytes, bytes,
        queue ++ [⟨.voucher ⟨.zero, ⟨rootFromSeed t.env.H a, t.ratePerMb.toNat⟩⟩, 0⟩]⟩ y) := by
  have hfits : (l.issue 0 t.ratePerMb.toNat .opened (preimageAt t.env.H a)).2.fitsWire = true := by
    rw [hissue]
    exact fits_of_le t (Nat.zero_le _) (Nat.zero_le _)
  have hanchor : (l.issue 0 t.ratePerMb.toNat .opened (preimageAt t.env.H a)).2.anchorRoot =
      some (rootFromSeed t.env.H a) := by
    rw [hissue]
    simp only [PoolLedger.Issue.anchorRoot, if_neg hroot]
  have hroomy : Roomy t .zero 0 :=
    ⟨Nat.zero_le _, by simp [Cumulative.zero], Nat.zero_le _⟩
  have hnoRoot : ∀ r ∈ l.chainRoot, r ∈ roots := by
    intro r hr
    rw [PoolLedger.chainRoot, hnone] at hr
    cases hr
  have hopening := h.quiet (σ := true) hσ a (pay_unanchored hpc hnone) hfresh hcap
    (by change m.pc ≠ _; rw [hpc]; exact MeterPc.noConfusion) hnoRoot
  rw [update_pair_true] at hopening
  have hpay := pay_opening (m := { m with pc := .opening }) rfl hfits
  rw [hanchor, hissue] at hpay
  have hopened : Scene t hidden _ (rootFromSeed t.env.H a :: roots) _ :=
    hopening.pay (σ := true) hσ a hpay hfresh (by
      rw [hmetered.owed hroomy]
      exact hroomy.amount) MeterPc.noConfusion (by
      rw [hmetered.chainRoot]
      exact fun _ hr => hr)
  rw [update_pair_true] at hopened
  exact hopened

/-- The first stream opens a chain. -/
theorem selling_zero (h : Stage t a b c d now) : Selling t a 0 := by
  have hrange : chunkBytes ≤ t.expected true :=
    le_trans (Nat.le_mul_of_pos_left _ (Nat.succ_pos _)) (h.range true)
  have hnodup := h.nodup
  simp only [List.nodup_cons, List.mem_cons, List.not_mem_nil, or_false, not_or] at hnodup
  have hroot : rootFromSeed t.env.H a ≠ 0 := fun heq => hnodup.1.1 heq.symm
  have hfresh : rootFromSeed t.env.H a ∉ [0] := by simpa using hroot
  have hcap : (PoolLedger.new .zero).pipeline.owed.amount ≤ t.lane.cap := Nat.zero_le _
  rcases new_opens t a with ⟨hissue, hmetered⟩
  have hbegin := (scene_start t).begin (σ := true) rfl a rfl rfl rfl
    (le_trans (le_of_eq (Nat.zero_add _)) hrange) hfresh hcap nofun
  rw [update_pair_true] at hbegin
  have hopened := hbegin.opens rfl rfl rfl hroot hissue hmetered hfresh hcap
  exact ⟨_, _, _, _, (Nat.succ_mul 0 _).symm ▸ (Nat.zero_mul chunkBytes).symm ▸ rfl, hmetered, rfl,
    rfl, rfl, rfl, hopened⟩

/-- A stream at its reveal releases the next preimage. -/
theorem Scene.reveal {hidden : Bool → Option Stream} {l : PoolLedger} {roots : List Bytes32}
    {seen : Bool → Seen} {σ : Bool} {m : StreamMeter} {bytes : Nat} {queue : List Sent}
    {seed seed' : Bytes32} {anchor : Cumulative} (h : Scene t hidden l roots seen)
    (hσ : hidden σ = none) (hseen : seen σ = ⟨m, bytes, bytes, queue⟩) (hpc : m.pc = .metering)
    (hanchored : m.anchoredRoot = some (rootFromSeed t.env.H seed))
    (hunproved : m.unproved = chunkBytes) (hmetered : Metered t seed anchor n l)
    (hroom : Roomy t anchor (n + 1)) (hfresh : rootFromSeed t.env.H seed' ∉ roots)
    (hdrawn : rootFromSeed t.env.H seed ∈ roots) :
    ∃ l' queue', Metered t seed anchor (n + 1) l' ∧
      Scene t hidden l' roots (Function.update seen σ
        ⟨{ m with unproved := 0, pc := .idle }, bytes, bytes, queue'⟩) := by
  have hpay : m.pay l t.ratePerMb.toNat (preimageAt t.env.H seed') = some _ :=
    pay_reveal hpc hmetered.epoch (by rw [metered_root]; exact hanchored) hroom.length
  have hnext : ∀ preimage root, Metered t seed anchor (n + 1)
      (l.meterAdvance ⟨preimage, n + 1, root⟩ t.ratePerMb.toNat) :=
    fun _ _ => hmetered.advance hroom _ rfl
  rw [hunproved, Nat.sub_self] at hpay
  have hcap : ∀ preimage root, (l.meterAdvance ⟨preimage, n + 1, root⟩
      t.ratePerMb.toNat).pipeline.owed.amount ≤ t.lane.cap := by
    intro preimage root
    rw [(hnext preimage root).owed hroom]
    exact hroom.amount
  have hroots : ∀ preimage root, ∀ r ∈ (l.meterAdvance ⟨preimage, n + 1, root⟩
      t.ratePerMb.toNat).chainRoot.toList ++ roots, r ∈ roots := by
    intro preimage root r hr
    rw [(hnext preimage root).chainRoot] at hr
    rcases List.mem_cons.mp hr with rfl | hold
    · exact hdrawn
    · exact hold
  have hrevealed : Scene t hidden _ roots _ :=
    h.pay hσ seed' (by rw [hseen]; exact hpay) hfresh (hcap _ _)
      (by rw [hseen]; exact fun heq => nomatch hpc.symm.trans heq) (hroots _ _)
  rw [hseen] at hrevealed
  exact ⟨_, _, hnext _ _, hrevealed⟩

/-- One round: the chunk is paid for and read, the next one delivered. -/
theorem selling_succ (h : Stage t a b c d now) (hn : n + 1 ≤ maxChainLength)
    (hselling : Selling t a n) : Selling t a (n + 1) := by
  rcases hselling with
    ⟨l, m, bytes, queue, hbytes, hmetered, hpc, hanchored, hunproved, hrolled, hscene⟩
  have hroom := h.roomy hn
  have hnodup := h.nodup
  simp only [List.nodup_cons, List.mem_cons, List.not_mem_nil, or_false, not_or] at hnodup
  have hfresh : rootFromSeed t.env.H b ∉ [rootFromSeed t.env.H a, 0] := by
    simp only [List.mem_cons, List.not_mem_nil, or_false, not_or]
    exact ⟨fun heq => hnodup.2.1.1 heq.symm, fun heq => hnodup.1.2.1 heq.symm⟩
  rcases hscene.reveal (σ := true) rfl rfl hpc hanchored hunproved hmetered hroom hfresh
    List.mem_cons_self with ⟨l', queue', hnext, hrevealed⟩
  rw [update_pair_true] at hrevealed
  have hcap : l'.pipeline.owed.amount ≤ t.lane.cap := by
    rw [hnext.owed hroom]
    exact hroom.amount
  have hroots : ∀ r ∈ l'.chainRoot, r ∈ [rootFromSeed t.env.H a, 0] := by
    rw [hnext.chainRoot]
    intro r hr
    cases hr
    exact List.mem_cons_self
  have hdrained := hrevealed.drain (σ := true) rfl h.unexpired
  rw [update_pair_true] at hdrained
  have hrange : bytes + chunkBytes ≤ t.expected true := by
    rw [hbytes, ← Nat.succ_mul]
    exact le_trans (Nat.mul_le_mul_right _ (Nat.succ_le_succ hn)) (h.range true)
  have hbegin := hdrained.begin (σ := true) rfl b rfl rfl rfl hrange hfresh hcap hroots
  rw [update_pair_true] at hbegin
  have hmeter := hbegin.meter (σ := true) rfl b rfl hnext.epoch
    (by rw [metered_root]; exact hanchored) hfresh hcap hroots
  rw [update_pair_true] at hmeter
  exact ⟨l', { m with
    unproved := chunkBytes
    complete := _
    pc := .metering
    rolled := false }, bytes + chunkBytes, _, by rw [hbytes, ← Nat.succ_mul], hnext, rfl, hanchored,
    rfl, rfl, hmeter⟩

/-- The chain is metered to its end. -/
theorem selling_spent (h : Stage t a b c d now) : Selling t a maxChainLength := by
  have hall : ∀ n ≤ maxChainLength, Selling t a n := by
    intro n
    induction n with
    | zero => exact fun _ => selling_zero h
    | succ n ih => exact fun hn => selling_succ h hn (ih (Nat.le_of_succ_le hn))
  exact hall _ le_rfl

/-- Both streams find the chain spent, the second after naming it. -/
theorem both_spent (h : Stage t a b c d now) :
    ∃ l m m' bytes bytes', Metered t a .zero maxChainLength l ∧ m.pc = .rolling ∧
      m'.pc = .rolling ∧ m.unproved = chunkBytes ∧ m'.unproved = chunkBytes ∧
      Scene t (fun _ => none) l [rootFromSeed t.env.H a, 0]
        (pair ⟨m, bytes, bytes, []⟩ ⟨m', bytes', bytes', []⟩) := by
  rcases selling_spent h with
    ⟨l, m, bytes, queue, -, hmetered, hpc, hanchored, hunproved, hrolled, hscene⟩
  have hroom := h.roomy le_rfl
  have hnodup := h.nodup
  simp only [List.nodup_cons, List.mem_cons, List.not_mem_nil, or_false, not_or] at hnodup
  have hfresh : rootFromSeed t.env.H b ∉ [rootFromSeed t.env.H a, 0] := by
    simp only [List.mem_cons, List.not_mem_nil, or_false, not_or]
    exact ⟨fun heq => hnodup.2.1.1 heq.symm, fun heq => hnodup.1.2.1 heq.symm⟩
  have hcap : l.pipeline.owed.amount ≤ t.lane.cap := by
    rw [hmetered.owed hroom]
    exact hroom.amount
  have hroots : ∀ r ∈ l.chainRoot, r ∈ [rootFromSeed t.env.H a, 0] := by
    rw [hmetered.chainRoot]
    intro r hr
    cases hr
    exact List.mem_cons_self
  have hrange : 0 + chunkBytes ≤ t.expected false :=
    le_trans (le_of_eq (Nat.zero_add _))
      (le_trans (Nat.le_mul_of_pos_left _ (Nat.succ_pos _)) (h.range false))
  -- The first stream.
  have hdrained := hscene.drain (σ := true) rfl h.unexpired
  rw [update_pair_true] at hdrained
  have hspent := hdrained.quiet (σ := true) rfl b
    (pay_spent hpc hmetered.epoch (by rw [metered_root]; exact hanchored) rfl hrolled) hfresh hcap
    (fun heq => nomatch hpc.symm.trans heq) hroots
  rw [update_pair_true] at hspent
  -- The second stream.
  have hbegin := hspent.begin (σ := false) rfl b rfl rfl rfl hrange hfresh hcap hroots
  rw [update_pair_false] at hbegin
  have hnaming := hbegin.quiet (σ := false) rfl b (pay_anchor rfl hmetered.epoch) hfresh hcap nofun
    hroots
  rw [update_pair_false] at hnaming
  have hunnamed := hnaming.quiet (σ := false) rfl b (pay_naming rfl hmetered.epoch) hfresh hcap nofun
    hroots
  rw [update_pair_false] at hunnamed
  have hfits : Issue.fitsWire ⟨l.pipeline.committed, ⟨rootFromSeed t.env.H a,
      t.ratePerMb.toNat⟩⟩ = true := by
    rw [hmetered.committed]
    exact fits_of_le t (Nat.zero_le _) (Nat.zero_le _)
  have hnamed : Scene t (fun _ => none) l [rootFromSeed t.env.H a, 0] _ :=
    hunnamed.pay (σ := false) rfl b
      (pay_reanchoring rfl hmetered.epoch (by rw [metered_root]; exact hfits)) hfresh hcap nofun (by
        rw [hmetered.chainRoot]
        intro r hr
        rcases List.mem_cons.mp hr with rfl | hold
        · exact List.mem_cons_self
        · exact hold)
  rw [update_pair_false] at hnamed
  have hread := hnamed.drain (σ := false) rfl h.unexpired
  rw [update_pair_false] at hread
  have hspent' := hread.quiet (σ := false) rfl b
    (pay_spent rfl hmetered.epoch rfl rfl rfl) hfresh hcap nofun hroots
  rw [update_pair_false] at hspent'
  exact ⟨l, { m with pc := .rolling },
    { anchoredRoot := _, unproved := chunkBytes, complete := _, pc := .rolling, rolled := false },
    bytes, _, hmetered, rfl, rfl, hunproved, rfl, hspent'⟩

/-- Two ledgers at the same point of a chain stand at the same front. -/
theorem Metered.payerAt {C : Chronicle Bool} {l l' : PoolLedger} {roots roots' : List Bytes32}
    {anchor : Cumulative} (h : Metered t a anchor n l) (h' : Metered t a anchor n l')
    (hpayer : PayerAt t C roots l) (hroots : ∀ r ∈ roots, r ∈ roots') :
    PayerAt t C roots' l' where
  ordered := hpayer.ordered
  armed := h'.armed
  committed := by rw [h'.committed, ← h.committed, hpayer.committed]
  accrued := by rw [h'.accrued, ← h.accrued, hpayer.accrued]
  epoch := by rw [h'.epoch, ← h.epoch, hpayer.epoch]
  released := hpayer.released
  sealed := hpayer.sealed
  price := hpayer.price
  ladder := hpayer.ladder
  ticks_le := hpayer.ticks_le
  drawn k hk := hroots _ (hpayer.drawn k hk)
  distinct := hpayer.distinct
  claim_le := hpayer.claim_le
  bytes_le := hpayer.bytes_le

/-- The first stream is out of sight. -/
def hideFirst (stream : Stream) : Bool → Option Stream
  | true => some stream
  | false => none

/-- A stream has rolled the chain: its voucher signs all that was owed. -/
def Terms.rolled (t : Terms Bool) (s : LaneSession Bool) (σ : Bool) (l' : PoolLedger)
    (seed : Bytes32) : LaneSession Bool :=
  { s with
    ledger := l'
    streams := Function.update s.streams σ { s.streams σ with
      meter := { (s.streams σ).meter with
        pc := .anchor
        rolled := true
        anchoredRoot := some (rootFromSeed t.env.H seed) }
      queue := (s.streams σ).queue ++ [⟨.voucher ⟨s.ledger.pipeline.owed,
        ⟨rootFromSeed t.env.H seed, t.ratePerMb.toNat⟩⟩, 0⟩] }
    roots := rootFromSeed t.env.H seed :: s.roots }

/-- The stream that rolled. -/
theorem Terms.rolled_self (t : Terms Bool) (s : LaneSession Bool) (σ : Bool) (l' : PoolLedger)
    (seed : Bytes32) :
    (t.rolled s σ l' seed).streams σ = { s.streams σ with
      meter := { (s.streams σ).meter with
        pc := .anchor
        rolled := true
        anchoredRoot := some (rootFromSeed t.env.H seed) }
      queue := (s.streams σ).queue ++ [⟨.voucher ⟨s.ledger.pipeline.owed,
        ⟨rootFromSeed t.env.H seed, t.ratePerMb.toNat⟩⟩, 0⟩] } :=
  Function.update_self _ _ _

/-- The other one. -/
theorem Terms.rolled_other (t : Terms Bool) (s : LaneSession Bool) {σ τ : Bool} (l' : PoolLedger)
    (seed : Bytes32) (hne : τ ≠ σ) : (t.rolled s σ l' seed).streams τ = s.streams τ :=
  Function.update_of_ne hne _ _

/-- A rollover of one of the two streams, as a step. -/
theorem Metered.pay_roll {s : LaneSession Bool} {σ : Bool} {seed seed' : Bytes32}
    {anchor : Cumulative} (h : Metered t seed anchor n s.ledger) (hroom : Roomy t anchor n)
    (hroot : rootFromSeed t.env.H seed' ≠ 0) (hpc : (s.streams σ).meter.pc = .rolling) :
    ∃ l', Metered t seed' s.ledger.pipeline.owed 0 l' ∧
      t.pay s σ seed' = some (t.rolled s σ l' seed') := by
  rcases h.roll hroom seed' with ⟨hissue, hmetered⟩
  have howed := h.owed hroom
  have hfits : (s.ledger.issue 0 t.ratePerMb.toNat .roll
      (preimageAt t.env.H seed')).2.fitsWire = true := by
    rw [hissue, howed]
    exact fits_of_le t hroom.bytes_small (le_trans hroom.amount t.cap_le)
  have hanchor : (s.ledger.issue 0 t.ratePerMb.toNat .roll
      (preimageAt t.env.H seed')).2.anchorRoot = some (rootFromSeed t.env.H seed') := by
    rw [hissue]
    simp only [PoolLedger.Issue.anchorRoot, if_neg hroot]
  have hpay := pay_rolling hpc hfits
  rw [hanchor, hissue] at hpay
  refine ⟨_, hmetered, ?_⟩
  unfold Terms.pay
  rw [hpay]
  dsimp only
  rw [hmetered.chainRoot]
  rfl

/-- A stream that has rolled, as it is tracked. -/
theorem Seen.At.rolled {v : Seen} {stream : Stream} (h : v.At stream) (t : Terms Bool)
    (owed : Cumulative) (seed : Bytes32) :
    Seen.At ⟨{ v.meter with
        pc := .anchor
        rolled := true
        anchoredRoot := some (rootFromSeed t.env.H seed) }, v.verified, v.delivered,
        v.queue ++ [⟨.voucher ⟨owed, ⟨rootFromSeed t.env.H seed, t.ratePerMb.toNat⟩⟩, 0⟩]⟩
      { stream with
        meter := { stream.meter with
          pc := .anchor
          rolled := true
          anchoredRoot := some (rootFromSeed t.env.H seed) }
        queue := stream.queue ++
          [⟨.voucher ⟨owed, ⟨rootFromSeed t.env.H seed, t.ratePerMb.toNat⟩⟩, 0⟩] } :=
  ⟨by rw [h.meter], h.verified, h.delivered, h.unvouchered, by rw [h.queue]⟩

/-- What a step of `pay` assumes, of the state it leads to. -/
theorem assumed_pay {s s' : LaneSession Bool} {σ : Bool} {seed : Bytes32}
    (hstep : t.pay s σ seed = some s') (hfresh : rootFromSeed t.env.H seed ∉ s.roots)
    (hcap : s'.ledger.pipeline.owed.amount ≤ t.lane.cap) : t.Assumed s (.pay σ seed) := by
  refine ⟨hfresh, ?_⟩
  intro s'' hs''
  rw [← Option.some.inj (hstep.symm.trans hs'')]
  exact hcap

/-- Both streams roll the chain.  As far as the ledger and the second stream are
concerned, the second rollover alone has happened. -/
theorem Scene.twice {l : PoolLedger} {m m' : StreamMeter} {bytes bytes' : Nat}
    (h : Stage t a b c d now) (hmetered : Metered t a .zero maxChainLength l)
    (hpc : m.pc = .rolling) (hpc' : m'.pc = .rolling) (hunproved : m.unproved = chunkBytes)
    (hscene : Scene t (fun _ => none) l [rootFromSeed t.env.H a, 0]
      (pair ⟨m, bytes, bytes, []⟩ ⟨m', bytes', bytes', []⟩)) :
    ∃ l' stream, Metered t c l.pipeline.owed 0 l' ∧ stream.queue = [] ∧
      Scene t (hideFirst stream) l'
        [rootFromSeed t.env.H c, rootFromSeed t.env.H b, rootFromSeed t.env.H a, 0]
        (pair
          ⟨{ m with
              pc := .anchor
              rolled := true
              anchoredRoot := some (rootFromSeed t.env.H b) }, bytes, bytes,
            [⟨.voucher ⟨l.pipeline.owed, ⟨rootFromSeed t.env.H b, t.ratePerMb.toNat⟩⟩, 0⟩]⟩
          ⟨{ m' with
              pc := .anchor
              rolled := true
              anchoredRoot := some (rootFromSeed t.env.H c) }, bytes', bytes',
            [⟨.voucher ⟨l.pipeline.owed, ⟨rootFromSeed t.env.H c, t.ratePerMb.toNat⟩⟩, 0⟩]⟩) := by
  rcases hscene with ⟨s, hrun, ⟨C, hC⟩, rfl, hsub, hseen, -⟩
  change Joint t s C at hC
  have hroom := h.roomy le_rfl
  have hnodup := h.nodup
  simp only [List.nodup_cons, List.mem_cons, List.not_mem_nil, or_false, not_or] at hnodup
  have howed := hmetered.owed hroom
  have hroom' : Roomy t s.ledger.pipeline.owed 0 := by
    rw [howed]
    exact ⟨Nat.zero_le _, by simpa using hroom.amount, le_of_eq (Nat.zero_add _)⟩
  have hcap : s.ledger.pipeline.owed.amount + 0 * t.ratePerMb.toNat ≤ t.lane.cap := hroom'.amount
  have hfirst : (s.streams true).meter.pc = .rolling := by rw [(hseen true).meter]; exact hpc
  have hsecond : (s.streams false).meter.pc = .rolling := by rw [(hseen false).meter]; exact hpc'
  -- The first rollover, and the second on top of it.
  rcases hmetered.pay_roll hroom (fun heq => hnodup.1.2.1 heq.symm) hfirst with ⟨l₁, hl₁, hstep₁⟩
  have howed₁ : l₁.pipeline.owed = s.ledger.pipeline.owed := by
    rw [hl₁.owed hroom', Nat.zero_mul, Nat.zero_mul]
    rfl
  have hroots₁ : ∀ r ∈ (t.rolled s true l₁ b).roots,
      r ∈ [rootFromSeed t.env.H b, rootFromSeed t.env.H a, 0] := by
    intro r hr
    rcases List.mem_cons.mp hr with rfl | hold
    · exact List.mem_cons_self
    · exact List.mem_cons_of_mem _ (hsub r hold)
  have hmetered₁ : Metered t b s.ledger.pipeline.owed 0 (t.rolled s true l₁ b).ledger := hl₁
  rcases hmetered₁.pay_roll hroom' (σ := false) (fun heq => hnodup.1.2.2.1 heq.symm) hsecond with
    ⟨l₂, hl₂, hstep₂⟩
  have hl₂ : Metered t c s.ledger.pipeline.owed 0 l₂ := howed₁ ▸ hl₂
  -- The second rollover alone, which folds and keeps the joint invariant.
  rcases hmetered.pay_roll hroom (fun heq => hnodup.1.2.2.1 heq.symm) hsecond with ⟨l₃, hl₃, hstep₃⟩
  have hcaps : ∀ {seed : Bytes32} {l' : PoolLedger},
      Metered t seed s.ledger.pipeline.owed 0 l' → l'.pipeline.owed.amount ≤ t.lane.cap := by
    intro seed l' hl'
    rw [hl'.owed hroom']
    exact hroom'.amount
  have hfreshC : rootFromSeed t.env.H c ∉ [rootFromSeed t.env.H b, rootFromSeed t.env.H a, 0] := by
    simp only [List.mem_cons, List.not_mem_nil, or_false, not_or]
    exact ⟨fun heq => hnodup.2.2.1.1 heq.symm, fun heq => hnodup.2.1.2.1 heq.symm,
      fun heq => hnodup.1.2.2.1 heq.symm⟩
  have hfreshB : rootFromSeed t.env.H b ∉ [rootFromSeed t.env.H a, 0] := by
    simp only [List.mem_cons, List.not_mem_nil, or_false, not_or]
    exact ⟨fun heq => hnodup.2.1.1 heq.symm, fun heq => hnodup.1.2.1 heq.symm⟩
  have hassumed₁ := assumed_pay hstep₁ (fun hmem => hfreshB (hsub _ hmem)) (hcaps hl₁)
  have hassumed₂ := assumed_pay hstep₂ (fun hmem => hfreshC (hroots₁ _ hmem)) (hcaps hl₂)
  have hassumed₃ := assumed_pay hstep₃
    (fun hmem => hfreshC (List.mem_cons_of_mem _ (hsub _ hmem))) (hcaps hl₃)
  have hfolds : Terms.Event.Folds s (.pay false c) := by
    intro _
    rw [hmetered.accrued]
    exact Nat.mul_ne_zero (by decide) (Nat.pos_iff_ne_zero.mp t.rate_pos)
  rcases hC.pay hassumed₃ hfolds hstep₃ with ⟨C', hC'⟩
  have hrun' := (hrun.tail hassumed₁ hstep₁).tail hassumed₂ hstep₂
  -- The first stream still waits for a proof of its last chunk.
  have hwaits : (s.streams true).pending ≠ [] := by
    intro hpending
    have hunpaid := (hC.streams true).unpaid.1
    unfold Stream.unpaid Stream.underWay at hunpaid
    rw [hpending, (hseen true).unvouchered, (hseen true).delivered, (hseen true).verified,
      (hseen true).meter, (hseen true).queue] at hunpaid
    have hpos : 0 < chunkBytes := t.tariff.unit_pos
    simp only [pair, hunproved, List.map_nil, List.sum_nil] at hunpaid
    omega
  have hledger : (t.rolled s true l₁ b).ledger.pipeline.owed = s.ledger.pipeline.owed := howed₁
  have hfalse : (t.rolled s true l₁ b).streams false = s.streams false :=
    t.rolled_other s l₁ b nofun
  have hstream : (t.rolled (t.rolled s true l₁ b) false l₂ c).streams false =
      (t.rolled s false l₃ c).streams false := by
    rw [t.rolled_self, t.rolled_self, hfalse, hledger]
  have htrue : (t.rolled (t.rolled s true l₁ b) false l₂ c).streams true =
      (t.rolled s true l₁ b).streams true := t.rolled_other _ l₂ c nofun
  have hkept : (t.rolled s false l₃ c).streams true = s.streams true :=
    t.rolled_other s l₃ c nofun
  refine ⟨l₂, s.streams true, hl₂, (hseen true).queue,
    t.rolled (t.rolled s true l₁ b) false l₂ c, hrun', ⟨C', ?_⟩, rfl, ?_, ?_, ?_⟩
  · refine ⟨hl₃.payerAt hl₂ hC'.payer ?_, hC'.reached, hC'.lane, hC'.conserved, ?_⟩
    · intro r hr
      rcases List.mem_cons.mp hr with rfl | hold
      · exact List.mem_cons_self
      · exact List.mem_cons_of_mem _ (List.mem_cons_of_mem _ hold)
    · intro σ
      cases σ with
      | true =>
        have hC'true := hC'.streams true
        rw [hkept] at hC'true
        exact hC'true
      | false =>
        rw [LaneSession.mask_streams _ rfl, hstream]
        exact hC'.streams false
  · intro r hr
    rcases List.mem_cons.mp hr with rfl | hold
    · exact List.mem_cons_self
    · exact List.mem_cons_of_mem _ (hroots₁ r hold)
  · intro σ
    cases σ with
    | true =>
      rw [htrue, t.rolled_self]
      exact (hseen true).rolled t _ _
    | false =>
      rw [hstream, t.rolled_self]
      exact (hseen false).rolled t _ _
  · intro σ hσ
    cases σ with
    | true =>
      rw [htrue, t.rolled_self]
      exact ⟨hwaits, (hC.streams true).serving⟩
    | false => cases hσ

/-- A lane whose every proof has been read stands at the front of the ledger. -/
theorem Joint.settled {s : LaneSession Bool} {C : Chronicle Bool} {anchor : Cumulative}
    (hC : Joint t s C) (hqueues : ∀ σ, (s.streams σ).queue = [])
    (hmetered : Metered t a anchor 1 s.ledger) :
    s.lane.state.lastAmount = anchor.amount ∧
      s.lane.state.chain.chainRoot = rootFromSeed t.env.H a ∧
      s.lane.state.owed = anchor.amount + t.ratePerMb.toNat := by
  have hitems : ∀ σ, C.items σ = [] := by
    intro σ
    have hsent := (hC.streams σ).sent
    rw [hqueues σ] at hsent
    exact List.forall₂_nil_left_iff.mp hsent
  have hpaid : ∀ Q : Position, Q.In C.journal → C.position.Le Q →
      Q.bytes t.tariff = s.lane.paidCredited := by
    intro Q hQ hle
    rw [hC.conserved.total Q hQ hle]
    simp [hitems]
  have htop : C.top ≠ 0 := by
    intro hzero
    have hepoch := hC.payer.epoch
    rw [if_pos hzero, hmetered.epoch] at hepoch
    cases hepoch
  have hlive := hC.payer.epoch
  rw [if_neg htop, hmetered.epoch, Option.some.injEq] at hlive
  have hticks : C.journal.ticks C.top = 1 := by
    rw [← hC.payer.released C.top le_rfl, ← hlive]
  have hlast : C.journal.last.amount = anchor.amount := by
    have hcommitted := hC.payer.committed
    rw [hmetered.committed] at hcommitted
    rw [hcommitted]
  have hfront := hC.payer.ordered.le_front hC.reached
  rcases hC.payer.ordered.eq_front hC.reached (by rw [← Chronicle.top, hticks]; exact Nat.one_pos)
    ((hpaid _ hC.reached (Position.Le.refl _)).trans
      (hpaid _ C.journal.front_in hfront.1).symm) with ⟨hepoch, hindex, hamount⟩
  rw [← Chronicle.top] at hepoch
  rw [← Chronicle.top, hticks] at hindex
  have hstate := hC.lane.state_eq
  have howed := (hC.lane.owed hC.payer hC.reached).1
  refine ⟨?_, ?_, ?_⟩
  · rw [hstate]
    exact hamount.trans hlast
  · rw [hstate]
    change (C.chains C.position.entry.epoch).root = _
    rw [hepoch, ← hlive, metered_root]
  · rw [howed, Position.amount, hamount, hlast, hindex, Nat.one_mul]
    rfl

/-- One more chain is drawn. -/
def Chronicle.draw (C : Chronicle Bool) (epoch : ChainEpoch) : Chronicle Bool :=
  { C with chains := Function.update C.chains (C.top + 1) epoch }

/-- The epochs so far stay. -/
theorem Chronicle.extends_draw (C : Chronicle Bool) (epoch : ChainEpoch) :
    C.Extends (C.draw epoch) := by
  have hold : ∀ k ≤ C.top, (C.draw epoch).chains k = C.chains k :=
    fun k hk => Function.update_of_ne (by omega) _ _
  exact ⟨rfl, le_rfl, fun k hk => congrArg _ (hold k hk), fun k hk => congrArg _ (hold k hk)⟩

/-- A voucher that opens another chain at the lane's anchor, below its live claim,
is refused. -/
theorem LaneAt.refuses {C : Chronicle Bool} {P : Position} {lane : LaneDeliveryState}
    {next : Cumulative} {root : Bytes32} (hlane : LaneAt t C P lane) (anchor : StreamAnchor)
    (owed : OwedChunk) (hP : P.entry.epoch ≤ C.top)
    (hseed : root = rootFromSeed t.env.H b)
    (hfits : Issue.fitsWire ⟨next, ⟨root, t.ratePerMb.toNat⟩⟩ = true) (hzero : root ≠ 0)
    (hexpiry : NodeEnv.insideExpiryMargin { t.env with now := now } t.lane.expiry = false)
    (hamount : next.amount = lane.state.lastAmount) (hroot : root ≠ lane.state.chain.chainRoot)
    (hlive : next.amount < lane.state.owed) :
    (Node.commitVoucher { t.env with now := now } lane anchor
      (t.wire ⟨next, ⟨root, t.ratePerMb.toNat⟩⟩) t.ratePerMb owed).stop =
      .rejected .underFold (watermarkBundleForReject .underFold lane.state) := by
  -- The voucher belongs to a chronicle of its own that has the lane's epochs.
  have hcarried : Carried (C.draw (ChainEpoch.opened (preimageAt t.env.H b) t.ratePerMb.toNat))
      ⟨next, ⟨root, t.ratePerMb.toNat⟩⟩ ⟨C.top + 1, next.amount, next.bytes⟩ := by
    refine ⟨hfits, rfl, ?_⟩
    simp only [Chronicle.commit, Chronicle.draw, Function.update_self]
    rw [opened_root, hseed]
    rfl
  have hext := C.extends_draw (ChainEpoch.opened (preimageAt t.env.H b) t.ratePerMb.toNat)
  have hsigned := hcarried.signed (hlane.extend hext hP)
  have hprice : chunkPriceMatchesQuote (t.wire ⟨next, ⟨root, t.ratePerMb.toNat⟩⟩) t.ratePerMb =
      true := by
    unfold chunkPriceMatchesQuote Terms.wire
    apply decide_eq_true
    dsimp only
    rw [if_neg hzero]
    exact UInt64.ofNat_toNat
  have hadvance : lane.state.advancePresigned
      ⟨t.voucherOf ⟨next, ⟨root, t.ratePerMb.toNat⟩⟩,
        t.sign (t.voucherOf ⟨next, ⟨root, t.ratePerMb.toNat⟩⟩)⟩ =
      .error (.underFold .amount lane.state.owed next.amount) :=
    advancePresigned_underFold hamount hzero hroot hlive
  have hexpiry' : lane.state.expiry = t.lane.expiry := by rw [hlane.state_eq]
  have hsigner : lane.state.signer = t.lane.signer := by rw [hlane.state_eq]
  have hverified := t.verifySigner ⟨next, ⟨root, t.ratePerMb.toNat⟩⟩ t.env.H t.env.K rfl rfl
  unfold Node.commitVoucher
  dsimp only
  rw [if_neg (by simp [hprice]), hsigned]
  dsimp only
  rw [hsigner, hverified]
  dsimp only
  rw [hexpiry', hexpiry, if_neg Bool.false_ne_true]
  unfold Node.verifyVoucher
  rw [hadvance]
  rfl

/-- A refused voucher stops its stream. -/
theorem Terms.read_rejected {s : LaneSession Bool} {σ : Bool} {v : Issue} {worth : Nat}
    {rest : List Sent} {owed : OwedChunk} {chunks : List OwedChunk} {reason : RejectReason}
    {bundle : Option WatermarkBundle} (hqueue : (s.streams σ).queue = ⟨.voucher v, worth⟩ :: rest)
    (hpending : (s.streams σ).pending = owed :: chunks) (hstop : (s.streams σ).stop = none)
    (hrejected : (Node.commitVoucher { t.env with now := now } s.lane (s.streams σ).anchor
      (t.wire v) t.ratePerMb owed).stop = .rejected reason bundle) :
    ∃ s', t.read s σ now none = some s' ∧
      (s'.streams σ).stop = some (.rejected reason bundle) := by
  unfold Terms.read
  rw [hqueue, hpending, hstop]
  refine ⟨_, rfl, ?_⟩
  dsimp only [Terms.proof, Node.commitOneProof]
  rw [hrejected, Function.update_self]
  rfl

/-- Whatever the hash, two streams that roll one spent chain can get one of them
refused. -/
theorem double_roll_refused (h : Stage t a b c d now) :
    ∃ s, Reaches t.step t.Assumed t.start s ∧
      ∃ bundle, (s.streams true).stop = some (.rejected .underFold bundle) := by
  rcases both_spent h with
    ⟨l, m, m', bytes, bytes', hmetered, hpc, hpc', hunproved, hunproved', hscene⟩
  have hroom := h.roomy le_rfl
  have howed := hmetered.owed hroom
  have hnodup := h.nodup
  simp only [List.nodup_cons, List.mem_cons, List.not_mem_nil, or_false, not_or] at hnodup
  have hroomNext : ∀ n ≤ 1, Roomy t l.pipeline.owed n := by
    intro n hn
    have hcap := h.cap
    rw [howed]
    refine ⟨le_trans hn (by decide), ?_, le_of_eq (Nat.zero_add _)⟩
    calc Cumulative.zero.amount + maxChainLength * t.ratePerMb.toNat + n * t.ratePerMb.toNat
        = (maxChainLength + n) * t.ratePerMb.toNat := by
          rw [Nat.add_mul]
          exact congrArg (· + n * t.ratePerMb.toNat) (Nat.zero_add _)
      _ ≤ t.lane.cap := le_trans (Nat.mul_le_mul_right _ (Nat.add_le_add_left hn _)) hcap
  have hfresh : rootFromSeed t.env.H d ∉ [rootFromSeed t.env.H c, rootFromSeed t.env.H b,
      rootFromSeed t.env.H a, 0] := by
    simp only [List.mem_cons, List.not_mem_nil, or_false, not_or]
    exact ⟨fun heq => hnodup.2.2.2.1 heq.symm, fun heq => hnodup.2.2.1.2 heq.symm,
      fun heq => hnodup.2.1.2.2 heq.symm, fun heq => hnodup.1.2.2.2 heq.symm⟩
  rcases hscene.twice h hmetered hpc hpc' hunproved with ⟨l', stream, hmetered', hempty, htwice⟩
  have hcap : l'.pipeline.owed.amount ≤ t.lane.cap := by
    rw [hmetered'.owed (hroomNext 0 (Nat.zero_le _))]
    exact (hroomNext 0 (Nat.zero_le _)).amount
  have hroots : ∀ r ∈ l'.chainRoot, r ∈ [rootFromSeed t.env.H c, rootFromSeed t.env.H b,
      rootFromSeed t.env.H a, 0] := by
    rw [hmetered'.chainRoot]
    intro r hr
    cases hr
    exact List.mem_cons_self
  -- The second stream reveals under its own chain, and the node reads all it sent.
  have hmeter := htwice.meter (σ := false) rfl d rfl hmetered'.epoch
    (by rw [metered_root]; rfl) hfresh hcap hroots
  rw [update_pair_false] at hmeter
  rcases hmeter.reveal (σ := false) rfl rfl rfl rfl hunproved' hmetered' (hroomNext 1 le_rfl) hfresh
    List.mem_cons_self with ⟨l'', queue, hmetered'', hrevealed⟩
  rw [update_pair_false] at hrevealed
  have hdrained := hrevealed.drain (σ := false) rfl h.unexpired
  rw [update_pair_false] at hdrained
  rcases hdrained with ⟨s, hrun, ⟨C, hC⟩, hledger, -, hseen, hwaits⟩
  have hqueues : ∀ σ, ((s.mask (hideFirst stream)).streams σ).queue = [] := by
    intro σ
    cases σ with
    | true => exact hempty
    | false =>
      rw [LaneSession.mask_streams s rfl]
      exact (hseen false).queue
  rcases hC.settled hqueues (hledger.symm ▸ hmetered'') with ⟨hamount, hroot, hlive⟩
  rcases hwaits true rfl with ⟨hpending, hstop⟩
  have hqueue := (hseen true).queue
  cases hchunks : (s.streams true).pending with
  | nil => exact absurd hchunks hpending
  | cons owed chunks =>
    have hrefused := hC.lane.refuses (s.streams true).anchor owed
      (hC.payer.epoch_le hC.reached.entry_mem) rfl
      (fits_of_le t (by rw [howed]; exact hroom.bytes_small)
        (by rw [howed]; exact le_trans hroom.amount t.cap_le))
      (fun heq => hnodup.1.2.1 heq.symm) h.unexpired hamount.symm
      (fun heq => hnodup.2.2.1.1 (heq.trans hroot)) (by
        rw [hlive]
        exact Nat.lt_add_of_pos_right t.rate_pos)
    rcases Terms.read_rejected hqueue hchunks hstop hrefused with ⟨s', hread, hstopped⟩
    exact ⟨s', hrun.tail (e := .read true now none) h.unexpired hread, _, hstopped⟩

end Script

/-- Four chains can be drawn on the sample lane, and its cap is not reached. -/
theorem sampleStage :
    Stage (sampleTerms fun _ => (maxChainLength + 1) * chunkBytes) 1 2 3 4 10 where
  cap := by decide
  range _ := le_rfl
  unexpired := by decide
  nodup := by decide +kernel

/-- An honest payer can be refused by an honest node: two streams of 256 chunks
find their chain spent and both roll it, and the node reads the second rollover
and a reveal under it before the first. -/
theorem honest_payer_refused :
    ∃ s, Reaches (sampleTerms fun _ => (maxChainLength + 1) * chunkBytes).step
        (sampleTerms fun _ => (maxChainLength + 1) * chunkBytes).Assumed
        (sampleTerms fun _ => (maxChainLength + 1) * chunkBytes).start s ∧
      ∃ bundle, (s.streams true).stop = some (.rejected .underFold bundle) :=
  double_roll_refused sampleStage

end Decdn.Session
