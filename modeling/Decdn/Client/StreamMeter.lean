import Decdn.Client.Ledger

/-!
# One stream's payments

`StreamMeter` of `client/src/lib.rs`: a stream pays for the bytes it has verified
with one reveal per whole chunk and one closing voucher for the residual.  Before
a reveal it names the lane's live chain to the node, opening, re-stating or
rolling it where needed.

`pay` is an async loop over a ledger that sibling streams share.  It is modelled
as a machine whose steps are its accesses to the ledger, so that siblings may run
between any two of them: the two unlocked reads of the chain root in `anchor`,
and the calls of `issue`, `reanchor` and `meter`, each atomic under the issuance
lock.  Every send succeeds.

Main results:

- Theorem `StreamMeter.pay_cases`: what one step of a stream can do.
-/

namespace Decdn.Client

open Incentive
open PoolLedger (Issue)

/-! ## Messages -/

/-- `ClientMessage`, as far as a stream pays with it.  The wire drops the chain
root of a reveal: the node places it by the stream. -/
inductive ClientMessage where
  | voucher (v : Issue)
  | chunkPreimage (released : Released)
deriving DecidableEq, Repr

/-- A message on its way, and the delivered bytes it pays for (proof-only). -/
structure Sent where
  message : ClientMessage
  worth : Nat
deriving DecidableEq, Repr

/-! ## The machine -/

/-- Where a stream stands in `pay`. -/
inductive MeterPc where
  /-- Between two proofs. -/
  | idle
  /-- At the first read of the chain root in `anchor`. -/
  | anchor
  /-- No chain was live: the opening voucher. -/
  | opening
  /-- At the second read of the chain root. -/
  | naming
  /-- The stream does not carry the live root: a re-anchor. -/
  | reanchoring
  /-- At `meter`. -/
  | metering
  /-- The epoch is spent: the rollover. -/
  | rolling
  /-- Spent again after its own rollover, a local fault. -/
  | failed
deriving DecidableEq, Repr

/-- `StreamMeter`, with the arguments and locals of `pay`. -/
structure StreamMeter where
  anchoredRoot : Option Bytes32 := none
  unproved : Nat := 0
  complete : Bool := false
  pc : MeterPc := .idle
  rolled : Bool := false
deriving DecidableEq, Repr

/-- `issue_stamped` with a send that succeeds. -/
def PoolLedger.issue (l : PoolLedger) (deltaBytes ratePerMb : Nat) (action : EpochAction)
    (preimages : Nat → Bytes32) : PoolLedger × Issue :=
  let armed := l.issueArm deltaBytes ratePerMb action preimages
  (armed.1.issueCommit armed.2, armed.2)

/-- The root a voucher anchors its stream to; a sealed one anchors to none. -/
def PoolLedger.Issue.anchorRoot (v : Issue) : Option Bytes32 :=
  if v.commit.chainRoot = 0 then none else some v.commit.chainRoot

namespace StreamMeter

/-- `send_voucher`, in the state of the stream it leads to. -/
def sendVoucher (m : StreamMeter) (l : PoolLedger) (deltaBytes ratePerMb : Nat)
    (action : EpochAction) (preimages : Nat → Bytes32) :
    Option (StreamMeter × PoolLedger × Option Sent) :=
  let issued := l.issue deltaBytes ratePerMb action preimages
  if issued.2.fitsWire then
    some ({ m with anchoredRoot := issued.2.anchorRoot }, issued.1,
      some ⟨.voucher issued.2, deltaBytes⟩)
  else none

/-- One step of `pay`.  `preimages` is the ladder a voucher draws if it opens a
chain. -/
def pay (m : StreamMeter) (l : PoolLedger) (ratePerMb : Nat) (preimages : Nat → Bytes32) :
    Option (StreamMeter × PoolLedger × Option Sent) :=
  match m.pc with
  | .idle =>
    if chunkBytes ≤ m.unproved then some ({ m with pc := .anchor, rolled := false }, l, none)
    else if m.complete = true ∧ 0 < m.unproved then
      -- `settle_residual`
      sendVoucher { m with unproved := 0 } l m.unproved ratePerMb .keep preimages
    else none
  | .anchor => some ({ m with pc := if l.chainRoot.isNone then .opening else .naming }, l, none)
  | .opening => sendVoucher { m with pc := .metering } l 0 ratePerMb .opened preimages
  | .naming =>
    some ({ m with
      pc := if l.chainRoot.isSome ∧ m.anchoredRoot ≠ l.chainRoot then .reanchoring
        else .metering }, l, none)
  | .reanchoring =>
    match l.reanchor with
    | some v =>
      if v.fitsWire then
        some ({ m with anchoredRoot := some v.commit.chainRoot, pc := .metering }, l,
          some ⟨.voucher v, 0⟩)
      else none
    | none => some ({ m with anchoredRoot := none, pc := .metering }, l, none)
  | .metering =>
    match l.meterRead m.anchoredRoot with
    | .released released chunkPrice =>
      some ({ m with unproved := m.unproved - chunkBytes, pc := .idle },
        l.meterAdvance released chunkPrice, some ⟨.chunkPreimage released, chunkBytes⟩)
    | .moved => some ({ m with pc := .anchor }, l, none)
    | .exhausted => some ({ m with pc := if m.rolled then .failed else .rolling }, l, none)
  | .rolling =>
    sendVoucher { m with pc := .anchor, rolled := true } l 0 ratePerMb .roll preimages
  | .failed => none

/-! ## What a step can do -/

/-- What one step of `pay` does: nothing on the wire, a voucher that meters
nothing itself, a re-anchor, a reveal or the closing voucher. -/
inductive Pays (m : StreamMeter) (l : PoolLedger) (ratePerMb : Nat) (preimages : Nat → Bytes32) :
    StreamMeter → PoolLedger → Option Sent → Prop where
  | quiet {m' : StreamMeter} (hbusy : chunkBytes ≤ m.unproved ∨ m.pc ≠ .idle)
      (hunproved : m'.unproved = m.unproved) (hcomplete : m'.complete = m.complete)
      (hroot : m'.anchoredRoot = m.anchoredRoot ∨ m'.anchoredRoot = none) :
      Pays m l ratePerMb preimages m' l none
  | metering {m' : StreamMeter} {action : EpochAction} (hbusy : m.pc ≠ .idle)
      (haction : action = .opened ∨ (action = .roll ∧ m.pc = .rolling))
      (hfits : (l.issue 0 ratePerMb action preimages).2.fitsWire = true)
      (hunproved : m'.unproved = m.unproved) (hcomplete : m'.complete = m.complete)
      (hroot : m'.anchoredRoot = (l.issue 0 ratePerMb action preimages).2.anchorRoot) :
      Pays m l ratePerMb preimages m' (l.issue 0 ratePerMb action preimages).1
        (some ⟨.voucher (l.issue 0 ratePerMb action preimages).2, 0⟩)
  | reanchored {m' : StreamMeter} {v : Issue} (hbusy : m.pc ≠ .idle) (hv : l.reanchor = some v)
      (hfits : v.fitsWire = true) (hunproved : m'.unproved = m.unproved)
      (hcomplete : m'.complete = m.complete)
      (hroot : m'.anchoredRoot = some v.commit.chainRoot) :
      Pays m l ratePerMb preimages m' l (some ⟨.voucher v, 0⟩)
  | revealed {m' : StreamMeter} {released : Released} {chunkPrice : Nat} (hbusy : m.pc ≠ .idle)
      (hread : l.meterRead m.anchoredRoot = .released released chunkPrice)
      (hidle : m'.pc = .idle) (hunproved : m'.unproved = m.unproved - chunkBytes)
      (hcomplete : m'.complete = m.complete) (hroot : m'.anchoredRoot = m.anchoredRoot) :
      Pays m l ratePerMb preimages m' (l.meterAdvance released chunkPrice)
        (some ⟨.chunkPreimage released, chunkBytes⟩)
  | residual {m' : StreamMeter} (hsmall : m.unproved < chunkBytes) (hpos : 0 < m.unproved)
      (hdone : m.complete = true)
      (hfits : (l.issue m.unproved ratePerMb .keep preimages).2.fitsWire = true)
      (hidle : m'.pc = .idle) (hunproved : m'.unproved = 0)
      (hcomplete : m'.complete = m.complete)
      (hroot : m'.anchoredRoot = (l.issue m.unproved ratePerMb .keep preimages).2.anchorRoot) :
      Pays m l ratePerMb preimages m' (l.issue m.unproved ratePerMb .keep preimages).1
        (some ⟨.voucher (l.issue m.unproved ratePerMb .keep preimages).2, m.unproved⟩)

variable {m m' : StreamMeter} {l l' : PoolLedger} {ratePerMb : Nat} {preimages : Nat → Bytes32}
  {sent : Option Sent}

/-- A voucher that can be written is sent. -/
theorem sendVoucher_eq_some {deltaBytes : Nat} {action : EpochAction}
    (h : sendVoucher m l deltaBytes ratePerMb action preimages = some (m', l', sent)) :
    (l.issue deltaBytes ratePerMb action preimages).2.fitsWire = true ∧
      m' = { m with
        anchoredRoot := (l.issue deltaBytes ratePerMb action preimages).2.anchorRoot } ∧
      l' = (l.issue deltaBytes ratePerMb action preimages).1 ∧
      sent = some ⟨.voucher (l.issue deltaBytes ratePerMb action preimages).2, deltaBytes⟩ := by
  unfold sendVoucher at h
  dsimp only at h
  split at h
  · rename_i hfits
    cases h
    exact ⟨hfits, rfl, rfl, rfl⟩
  · cases h

/-- Every step of `pay` is one of these. -/
theorem pay_cases (h : m.pay l ratePerMb preimages = some (m', l', sent)) :
    Pays m l ratePerMb preimages m' l' sent := by
  unfold pay at h
  split at h
  · -- idle
    split at h
    · rename_i hchunk
      cases h
      exact .quiet (.inl hchunk) rfl rfl (.inl rfl)
    · split at h
      · rename_i hsmall hclosing
        rename_i hidle
        rcases sendVoucher_eq_some h with ⟨hfits, rfl, rfl, rfl⟩
        exact .residual (by omega) hclosing.2 hclosing.1 hfits hidle rfl rfl rfl
      · cases h
  · rename_i hpc
    cases h
    exact .quiet (.inr (by simp [hpc])) rfl rfl (.inl rfl)
  · rename_i hpc
    rcases sendVoucher_eq_some h with ⟨hfits, rfl, rfl, rfl⟩
    exact .metering (by simp [hpc]) (.inl rfl) hfits rfl rfl rfl
  · rename_i hpc
    cases h
    exact .quiet (.inr (by simp [hpc])) rfl rfl (.inl rfl)
  · rename_i hpc
    split at h
    · rename_i v hv
      split at h
      · rename_i hfits
        cases h
        exact .reanchored (by simp [hpc]) hv hfits rfl rfl rfl
      · cases h
    · cases h
      exact .quiet (.inr (by simp [hpc])) rfl rfl (.inr rfl)
  · rename_i hpc
    split at h
    · rename_i released chunkPrice hread
      cases h
      exact .revealed (by simp [hpc]) hread rfl rfl rfl rfl
    · cases h
      exact .quiet (.inr (by simp [hpc])) rfl rfl (.inl rfl)
    · cases h
      exact .quiet (.inr (by simp [hpc])) rfl rfl (.inl rfl)
  · rename_i hpc
    rcases sendVoucher_eq_some h with ⟨hfits, rfl, rfl, rfl⟩
    exact .metering (by simp [hpc]) (.inr ⟨rfl, hpc⟩) hfits rfl rfl rfl
  · cases h

end StreamMeter

end Decdn.Client
