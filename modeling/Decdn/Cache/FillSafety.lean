import Decdn.Cache.FillRegistry
import Mathlib.Logic.ExistsUnique
import Mathlib.Logic.Relation

/-!
# The books of the fill registry

The runs of the fill registry, in which misses, leases that end, pulls that end and payments
come in any order.

Main definitions:

- Definition `Step`: one operation under the lock of the registry.
- Definition `Effect`: what a step does to the registry.

Main results:

- Theorem `Step.effect`: each step has one of the effects.
- Theorem `fills_exact`: the observer counts are the leases held, the registry lists exactly
  the pulls with an observer, and each pull's handle is joined once.
-/

namespace Decdn.FillRegistry

open BaoRange

variable {Hash : Type}

/-! ## Counting leases -/

namespace State

/-- The armed leases on a session. -/
def armed (s : State Hash) (id : Nat) : Nat :=
  s.leases.countP fun l => l.armed && l.session == id

/-- Some caller holds a lease on the session. -/
theorem armed_pos_iff {s : State Hash} {id : Nat} :
    0 < s.armed id ↔ ∃ l ∈ s.leases, l.armed = true ∧ l.session = id := by
  unfold armed
  rw [List.countP_pos_iff]
  simp

theorem armed_mintLease (s : State Hash) (hash : Hash) (new id : Nat) :
    (s.mintLease new hash).armed id = s.armed id + if new = id then 1 else 0 := by
  unfold armed mintLease
  rw [List.countP_append]
  simp [List.countP_singleton]

/-- A new lease only adds an observer. -/
theorem mintLease_sessions (s : State Hash) (hash : Hash) (new id : Nat) :
    (s.mintLease new hash).sessions id = { s.sessions id with
      observers := (s.sessions id).observers + if new = id then 1 else 0 } := by
  by_cases hid : id = new
  · subst hid
    rw [if_pos rfl]
    exact Function.update_self ..
  · rw [if_neg (Ne.symm hid)]
    exact Function.update_of_ne hid ..

/-- The entry that a new session joins. -/
def entryFor (s : State Hash) (hash : Hash) (total : Nat) : HashEntry :=
  (s.map hash).getD ⟨⟨s.nextSession, total⟩, []⟩

theorem entryFor_sessions (s : State Hash) (hash : Hash) (total : Nat) :
    (s.entryFor hash total).sessions = s.listed hash := by
  unfold entryFor listed
  cases s.map hash <;> rfl

/-- The new session, as it stands in the registry. -/
def newFill (s : State Hash) (hash : Hash) (total servedStart : Nat) (covered : Finset Nat) :
    FillSession Hash :=
  { outboard := (s.entryFor hash total).outboard, servedPaid := servedStart, servedStart, covered
    observers := 1, hash := some hash }

section Opening

variable [DecidableEq Hash] (s : State Hash) (hash : Hash) (total servedStart : Nat)
  (covered : Finset Nat)

theorem openFill_map (hash' : Hash) :
    (s.openFill hash total servedStart covered).map hash' =
      if hash' = hash then
        some { s.entryFor hash total with
          sessions := (s.entryFor hash total).sessions ++ [s.nextSession] }
      else s.map hash' := by
  unfold openFill mintLease insertSession setSession entryFor
  exact Function.update_apply ..

theorem openFill_sessions (id : Nat) :
    (s.openFill hash total servedStart covered).sessions id =
      if id = s.nextSession then s.newFill hash total servedStart covered else s.sessions id := by
  unfold openFill
  rw [mintLease_sessions]
  unfold insertSession
  dsimp only
  by_cases hid : id = s.nextSession
  · subst hid
    rw [if_pos rfl, if_pos rfl, Function.update_self]
    rfl
  · rw [if_neg hid, if_neg (Ne.symm hid), Function.update_of_ne hid]
    rfl

theorem armed_openFill (id : Nat) :
    (s.openFill hash total servedStart covered).armed id =
      s.armed id + if s.nextSession = id then 1 else 0 :=
  armed_mintLease _ hash s.nextSession id

theorem openFill_listed (hash' : Hash) :
    (s.openFill hash total servedStart covered).listed hash' =
      if hash' = hash then s.listed hash ++ [s.nextSession] else s.listed hash' := by
  unfold listed
  rw [openFill_map]
  split
  · dsimp only [Option.elim]
    rw [entryFor_sessions]
    rfl
  · rfl

end Opening

/-- The lease stops counting, and nothing else of the state changes. -/
def disarm (s : State Hash) (lease : Nat) (l : ObserverLease Hash) : State Hash :=
  { s.setSession l.session { s.sessions l.session with
      observers := (s.sessions l.session).observers - 1 } with
    leases := s.leases.set lease { l with armed := false } }

theorem disarm_sessions (s : State Hash) (lease : Nat) (l : ObserverLease Hash) (id : Nat) :
    (s.disarm lease l).sessions id = { s.sessions id with
      observers := (s.sessions id).observers - if l.session = id then 1 else 0 } := by
  by_cases hid : id = l.session
  · subst hid
    rw [if_pos rfl]
    exact Function.update_self ..
  · rw [if_neg (Ne.symm hid)]
    exact Function.update_of_ne hid ..

theorem armed_disarm {s : State Hash} {lease : Nat} {l : ObserverLease Hash}
    (hlease : s.leases[lease]? = some l) (harmed : l.armed = true) (id : Nat) :
    (s.disarm lease l).armed id + (if l.session = id then 1 else 0) = s.armed id := by
  rcases List.getElem?_eq_some_iff.mp hlease with ⟨hlt, hget⟩
  have hset := List.countP_set (p := fun l : ObserverLease Hash => l.armed && l.session == id)
    (a := { l with armed := false }) hlt
  have hcount : (if l.session = id then 1 else 0) ≤
      s.leases.countP fun l => l.armed && l.session == id := by
    split
    · rename_i hid
      exact List.countP_pos_iff.mpr ⟨l, List.mem_of_getElem? hlease, by simp [harmed, hid]⟩
    · exact Nat.zero_le _
  unfold armed disarm
  dsimp only
  rw [hset, hget]
  simp only [harmed, Bool.true_and, Bool.false_and, beq_iff_eq, Bool.false_eq_true, if_false]
  omega

/-- A lease that is not the last one is only dropped; the last one closes the session. -/
theorem teardown_armed [DecidableEq Hash] {s : State Hash} {lease : Nat} {l : ObserverLease Hash}
    (hlease : s.leases[lease]? = some l) (harmed : l.armed = true) :
    s.teardown lease = if (s.sessions l.session).observers ≠ 1 then (s.disarm lease l, none)
      else (s.disarm lease l).lastOut l.hash l.session := by
  unfold teardown
  rw [hlease]
  dsimp only
  rw [if_pos harmed]
  rfl

theorem teardown_other [DecidableEq Hash] {s : State Hash} {lease : Nat}
    (h : ∀ l, s.leases[lease]? = some l → l.armed = false) : s.teardown lease = (s, none) := by
  unfold teardown
  split
  · rename_i l hl
    rw [if_neg (by rw [h l hl]; exact Bool.false_ne_true)]
  · rfl

section Closing

variable [DecidableEq Hash] (s : State Hash) (hash : Hash) (id : Nat)

theorem removeSession_eq :
    (s.removeSession hash id) = { s with map := (s.removeSession hash id).map } := by
  unfold removeSession
  split <;> rfl

theorem removeSession_map (hash' : Hash) :
    (s.removeSession hash id).map hash' =
      if hash' = hash then
        (s.map hash).bind fun entry =>
          if entry.sessions.filter (· ≠ id) = [] then none
          else some { entry with sessions := entry.sessions.filter (· ≠ id) }
      else s.map hash' := by
  unfold removeSession
  split
  · rename_i entry hentry
    rw [hentry]
    exact Function.update_apply ..
  · rename_i hnone
    split
    · rename_i hsame
      rw [hsame, hnone]
      rfl
    · rfl

theorem lastOut_map (hash' : Hash) :
    (s.lastOut hash id).1.map hash' = (s.removeSession hash id).map hash' := rfl

theorem lastOut_listed (hash' : Hash) :
    (s.lastOut hash id).1.listed hash' =
      if hash' = hash then (s.listed hash).filter (· ≠ id) else s.listed hash' := by
  unfold listed
  rw [lastOut_map, removeSession_map]
  split
  · cases s.map hash with
    | none => rfl
    | some entry =>
      rw [Option.bind_some]
      by_cases hnil : entry.sessions.filter (· ≠ id) = []
      · rw [if_pos hnil]
        exact hnil.symm
      · rw [if_neg hnil]
        rfl
  · rfl

/-- The session that was closed. -/
def closed (session : FillSession Hash) : FillSession Hash :=
  { session with
    cancelled := session.cancelled || session.ended.isNone, pullThread := none }

theorem lastOut_sessions (other : Nat) :
    (s.lastOut hash id).1.sessions other =
      if other = id then closed (s.sessions id) else s.sessions other := by
  unfold lastOut
  dsimp only
  rw [removeSession_eq]
  exact Function.update_apply ..

theorem armed_lastOut (other : Nat) : (s.lastOut hash id).1.armed other = s.armed other := by
  unfold lastOut
  dsimp only
  rw [removeSession_eq]
  rfl

theorem lastOut_rest :
    (s.lastOut hash id).1.leases = s.leases ∧ (s.lastOut hash id).1.nextSession = s.nextSession ∧
      (s.lastOut hash id).1.nextHandle = s.nextHandle ∧
      (s.lastOut hash id).1.joined = s.joined ++ (s.sessions id).pullThread.toList := by
  unfold lastOut
  dsimp only
  rw [removeSession_eq]
  exact ⟨rfl, rfl, rfl, rfl⟩

end Closing

end State

/-! ## The registry's books -/

/-- The counts and the lists that the registry keeps. -/
structure Counted (s : State Hash) : Prop where
  observers : ∀ id, (s.sessions id).observers = s.armed id
  leases : ∀ l ∈ s.leases, l.session < s.nextSession ∧ (s.sessions l.session).hash = some l.hash
  listed : ∀ hash id, id ∈ s.listed hash ↔ (s.sessions id).hash = some hash ∧ 0 < s.armed id
  nodup : ∀ hash, (s.listed hash).Nodup
  entry : ∀ hash, ∀ entry ∈ s.map hash, entry.sessions ≠ [] ∧
    ∀ id ∈ entry.sessions, (s.sessions id).outboard = entry.outboard
  cancelled : ∀ id, (s.sessions id).cancelled = true → s.armed id = 0
  dead : ∀ id, id < s.nextSession → s.armed id = 0 → (s.sessions id).isDead = true

/-- The handles of the pulls: each is parked on the session of its pull, which has an observer,
or was handed to a caller. -/
structure Handled (s : State Hash) : Prop where
  joined : s.joined.Nodup ∧ ∀ handle ∈ s.joined, handle < s.nextHandle
  parked : ∀ id handle, (s.sessions id).pullThread = some handle →
    handle < s.nextHandle ∧ handle ∉ s.joined ∧ 0 < s.armed id
  once : ∀ id other handle, (s.sessions id).pullThread = some handle →
    (s.sessions other).pullThread = some handle → id = other
  kept : ∀ handle, handle < s.nextHandle →
    handle ∈ s.joined ∨ ∃ id, (s.sessions id).pullThread = some handle

namespace Counted

variable {s : State Hash}

/-- No lease is on a session that was not made yet. -/
theorem armed_fresh (h : Counted s) {id : Nat} (hid : s.nextSession ≤ id) : s.armed id = 0 := by
  by_contra hne
  rcases State.armed_pos_iff.mp (Nat.pos_of_ne_zero hne) with ⟨l, hl, -, rfl⟩
  exact absurd (h.leases l hl).1 (Nat.not_lt.mpr hid)

/-- A further lease on a session that the registry lists. -/
theorem mint (h : Counted s) {hash : Hash} {new : Nat} (hnew : new ∈ s.listed hash) :
    Counted (s.mintLease new hash) := by
  have hpos := (h.listed hash new).mp hnew
  have hlt : new < s.nextSession := by
    by_contra hge
    rw [h.armed_fresh (Nat.le_of_not_lt hge)] at hpos
    exact absurd hpos.2 (Nat.lt_irrefl 0)
  refine ⟨fun id => ?_, fun l hl => ?_, fun hash' id => ?_, h.nodup, fun hash' entry hentry => ?_,
    fun id hid => ?_, fun id hid hzero => ?_⟩
  · rw [State.mintLease_sessions, State.armed_mintLease]
    dsimp only
    rw [h.observers]
  · rw [State.mintLease_sessions]
    rcases List.mem_append.mp hl with hold | hnewl
    · exact h.leases l hold
    · rcases List.mem_singleton.mp hnewl with rfl
      exact ⟨hlt, hpos.1⟩
  · rw [State.mintLease_sessions, State.armed_mintLease]
    refine (h.listed hash' id).trans (and_congr_right fun _ => ?_)
    split
    · rename_i hid
      exact ⟨fun _ => Nat.succ_pos _, fun _ => hid ▸ hpos.2⟩
    · rfl
  · refine ⟨(h.entry hash' entry hentry).1, fun id hid => ?_⟩
    rw [State.mintLease_sessions]
    exact (h.entry hash' entry hentry).2 id hid
  · rw [State.mintLease_sessions] at hid
    have hzero := h.cancelled id hid
    rw [State.armed_mintLease, hzero, if_neg]
    rintro rfl
    rw [hzero] at hpos
    exact absurd hpos.2 (Nat.lt_irrefl 0)
  · rw [State.armed_mintLease] at hzero
    rw [State.mintLease_sessions]
    exact h.dead id hid (Nat.eq_zero_of_add_eq_zero_right hzero)

/-- A new session, with its owner's lease. -/
theorem openFill [DecidableEq Hash] (h : Counted s) (hash : Hash) (total servedStart : Nat)
    (covered : Finset Nat) : Counted (s.openFill hash total servedStart covered) := by
  have hfresh := h.armed_fresh (Nat.le_refl s.nextSession)
  have hnew : ∀ hash', s.nextSession ∉ s.listed hash' := by
    intro hash' hmem
    have hpos := ((h.listed hash' _).mp hmem).2
    rw [hfresh] at hpos
    exact absurd hpos (Nat.lt_irrefl 0)
  refine ⟨fun id => ?_, fun l hl => ?_, fun hash' id => ?_, fun hash' => ?_,
    fun hash' entry hentry => ?_, fun id hid => ?_, fun id hid hzero => ?_⟩
  · rw [State.openFill_sessions, State.armed_openFill]
    by_cases hid : id = s.nextSession
    · rw [if_pos hid, if_pos hid.symm, hid, hfresh]
      rfl
    · rw [if_neg hid, if_neg (Ne.symm hid)]
      exact h.observers id
  · rw [State.openFill_sessions]
    rcases List.mem_append.mp hl with hold | hnewl
    · have hleases := h.leases l hold
      rw [if_neg (Nat.ne_of_lt hleases.1)]
      exact ⟨Nat.lt_succ_of_lt hleases.1, hleases.2⟩
    · rcases List.mem_singleton.mp hnewl with rfl
      rw [if_pos rfl]
      exact ⟨Nat.lt_succ_self _, rfl⟩
  · rw [State.openFill_listed, State.openFill_sessions, State.armed_openFill]
    by_cases hid : id = s.nextSession
    · subst hid
      rw [if_pos rfl, if_pos rfl]
      by_cases hsame : hash' = hash
      · subst hsame
        rw [if_pos rfl]
        exact ⟨fun _ => ⟨rfl, Nat.succ_pos _⟩, fun _ => by simp⟩
      · rw [if_neg hsame]
        exact ⟨fun hmem => absurd hmem (hnew hash'), fun hboth =>
          absurd (Option.some.inj hboth.1).symm hsame⟩
    · rw [if_neg hid, if_neg (Ne.symm hid), Nat.add_zero, ← h.listed hash' id]
      split
      · rename_i hsame
        subst hsame
        simp [hid]
      · rfl
  · rw [State.openFill_listed]
    split
    · rw [← List.concat_eq_append]
      exact (h.nodup hash).concat (hnew hash)
    · exact h.nodup hash'
  · rw [State.openFill_map] at hentry
    split at hentry
    · rename_i hsame
      rcases Option.some.inj hentry with rfl
      refine ⟨by simp, fun id hid => ?_⟩
      rw [State.openFill_sessions]
      split
      · rfl
      · rename_i hne
        dsimp only at hid
        rcases List.mem_append.mp hid with hold | hself
        · unfold State.entryFor at hold ⊢
          cases hmap : s.map hash with
          | none =>
            rw [hmap] at hold
            exact absurd hold List.not_mem_nil
          | some entry =>
            rw [hmap] at hold
            exact (h.entry hash entry hmap).2 id hold
        · exact absurd (List.mem_singleton.mp hself) hne
    · refine ⟨(h.entry hash' entry hentry).1, fun id hid => ?_⟩
      have hold := (h.entry hash' entry hentry).2 id hid
      rw [State.openFill_sessions, if_neg]
      · exact hold
      · rintro rfl
        refine hnew hash' ?_
        unfold State.listed
        rw [Option.mem_def.mp hentry]
        exact hid
  · rw [State.openFill_sessions] at hid
    split at hid
    · cases hid
    · rename_i hne
      rw [State.armed_openFill, if_neg (Ne.symm hne)]
      exact h.cancelled id hid
  · rw [State.armed_openFill] at hzero
    rw [State.openFill_sessions]
    split
    · rename_i hsame
      rw [hsame, if_pos rfl] at hzero
      exact absurd hzero (Nat.succ_ne_zero _)
    · rename_i hne
      exact h.dead id (Nat.lt_of_le_of_ne (Nat.le_of_lt_succ hid) hne)
        (Nat.eq_zero_of_add_eq_zero_right hzero)

/-- A lease that is not the last one goes. -/
theorem disarm (h : Counted s) {lease : Nat} {l : ObserverLease Hash}
    (hlease : s.leases[lease]? = some l) (harmed : l.armed = true)
    (hmore : s.armed l.session ≠ 1) : Counted (s.disarm lease l) := by
  have hcount := State.armed_disarm hlease harmed
  have hsame : ∀ id, 0 < (s.disarm lease l).armed id ↔ 0 < s.armed id := by
    intro id
    have hid := hcount id
    split at hid
    · rename_i heq
      subst heq
      omega
    · omega
  refine ⟨fun id => ?_, fun l' hl' => ?_, fun hash' id => ?_, h.nodup, fun hash' entry hentry => ?_,
    fun id hid => ?_, fun id hid hzero => ?_⟩
  · rw [State.disarm_sessions]
    dsimp only
    rw [h.observers, ← hcount id, Nat.add_sub_cancel]
  · rw [State.disarm_sessions]
    rcases List.mem_or_eq_of_mem_set hl' with hold | rfl
    · exact h.leases l' hold
    · exact h.leases l (List.mem_of_getElem? hlease)
  · rw [State.disarm_sessions, hsame]
    exact h.listed hash' id
  · refine ⟨(h.entry hash' entry hentry).1, fun id hid => ?_⟩
    rw [State.disarm_sessions]
    exact (h.entry hash' entry hentry).2 id hid
  · rw [State.disarm_sessions] at hid
    have hzero := h.cancelled id hid
    have hcountid := hcount id
    omega
  · rw [State.disarm_sessions]
    refine h.dead id hid ?_
    have hiff := hsame id
    omega

/-- The last lease goes. -/
theorem lastOut [DecidableEq Hash] (h : Counted s) {lease : Nat} {l : ObserverLease Hash}
    (hlease : s.leases[lease]? = some l) (harmed : l.armed = true)
    (hone : s.armed l.session = 1) : Counted ((s.disarm lease l).lastOut l.hash l.session).1 := by
  have hcount := State.armed_disarm hlease harmed
  have hself := h.leases l (List.mem_of_getElem? hlease)
  rcases State.lastOut_rest (s.disarm lease l) l.hash l.session with
    ⟨hleases, hnext, -, -⟩
  refine ⟨fun id => ?_, fun l' hl' => ?_, fun hash' id => ?_, fun hash' => ?_,
    fun hash' entry hentry => ?_, fun id hid => ?_, fun id hid hzero => ?_⟩
  · rw [State.lastOut_sessions, State.armed_lastOut]
    have hid := hcount id
    have hobs := h.observers id
    split
    · rename_i heq
      subst heq
      unfold State.closed
      rw [State.disarm_sessions]
      dsimp only
      rw [if_pos rfl] at hid ⊢
      omega
    · rename_i hne
      rw [State.disarm_sessions]
      dsimp only
      rw [if_neg (Ne.symm hne)] at hid ⊢
      omega
  · rw [hleases] at hl'
    rw [hnext, State.lastOut_sessions]
    have hold : l'.session < s.nextSession ∧ (s.sessions l'.session).hash = some l'.hash := by
      rcases List.mem_or_eq_of_mem_set hl' with hmem | rfl
      · exact h.leases l' hmem
      · exact hself
    split
    · rename_i heq
      unfold State.closed
      rw [State.disarm_sessions]
      rw [heq] at hold
      exact ⟨heq ▸ hold.1, hold.2⟩
    · rw [State.disarm_sessions]
      exact hold
  · have hid := hcount id
    rw [State.lastOut_listed, State.lastOut_sessions, State.armed_lastOut]
    by_cases heq : id = l.session
    · subst heq
      rw [if_pos rfl] at hid
      rw [if_pos rfl]
      refine ⟨fun hmem => ?_, fun hboth => absurd hboth.2 (by omega)⟩
      split at hmem
      · simp at hmem
      · rename_i hne
        exact absurd (Option.some.inj (hself.2.symm.trans ((h.listed hash' _).mp hmem).1)).symm hne
    · rw [if_neg (Ne.symm heq)] at hid
      rw [if_neg heq, State.disarm_sessions]
      refine Iff.trans ?_ ((h.listed hash' id).trans (and_congr_right fun _ => by omega))
      split
      · rename_i hsame
        rw [hsame]
        simp [heq, State.disarm, State.listed, State.setSession]
      · rfl
  · rw [State.lastOut_listed]
    split
    · exact (h.nodup l.hash).filter _
    · exact h.nodup hash'
  · rw [State.lastOut_map, State.removeSession_map] at hentry
    have hout : ∀ entry ∈ s.map hash', ∀ id ∈ entry.sessions,
        (((s.disarm lease l).lastOut l.hash l.session).1.sessions id).outboard =
          entry.outboard := by
      intro entry hold id hid
      rw [State.lastOut_sessions, ← (h.entry hash' entry hold).2 id hid]
      split
      · rename_i heq
        unfold State.closed
        rw [State.disarm_sessions, heq]
      · rw [State.disarm_sessions]
    split at hentry
    · rename_i hsame
      rw [hsame] at hout
      rcases Option.bind_eq_some_iff.mp hentry with ⟨old, hold, hsplit⟩
      split at hsplit
      · cases hsplit
      · rename_i hne
        rcases Option.some.inj hsplit with rfl
        exact ⟨hne, fun id hid => hout old hold id (List.mem_of_mem_filter hid)⟩
    · exact ⟨(h.entry hash' entry hentry).1, hout entry hentry⟩
  · have hcountid := hcount id
    rw [State.armed_lastOut]
    rw [State.lastOut_sessions] at hid
    split at hid
    · rename_i heq
      subst heq
      rw [if_pos rfl] at hcountid
      omega
    · rw [State.disarm_sessions] at hid
      have hzero := h.cancelled id hid
      omega
  · have hcountid := hcount id
    rw [State.armed_lastOut] at hzero
    rw [hnext] at hid
    rw [State.lastOut_sessions]
    split
    · unfold State.closed FillSession.isDead
      dsimp only
      cases ((s.disarm lease l).sessions l.session).ended <;> simp
    · rename_i hne
      rw [if_neg (Ne.symm hne)] at hcountid
      rw [State.disarm_sessions]
      exact h.dead id hid (by omega)

/-- A change of sessions that leaves the books alone. -/
theorem quiet {s' : State Hash} (h : Counted s) (hmap : s'.map = s.map)
    (hleases : s'.leases = s.leases) (hnext : s'.nextSession = s.nextSession)
    (hsessions : ∀ id, (s'.sessions id).observers = (s.sessions id).observers ∧
      (s'.sessions id).hash = (s.sessions id).hash ∧
      (s'.sessions id).outboard = (s.sessions id).outboard ∧
      (s'.sessions id).cancelled = (s.sessions id).cancelled ∧
      ((s.sessions id).isDead = true → (s'.sessions id).isDead = true)) : Counted s' := by
  have harmed : ∀ id, s'.armed id = s.armed id := fun id => by
    unfold State.armed
    rw [hleases]
  have hlisted : ∀ hash, s'.listed hash = s.listed hash := fun hash => by
    unfold State.listed
    rw [hmap]
  refine ⟨fun id => ?_, fun l hl => ?_, fun hash id => ?_, fun hash => ?_,
    fun hash entry hentry => ?_, fun id hid => ?_, fun id hid hzero => ?_⟩
  · rw [(hsessions id).1, harmed]
    exact h.observers id
  · rw [hleases] at hl
    rw [hnext, (hsessions l.session).2.1]
    exact h.leases l hl
  · rw [hlisted, (hsessions id).2.1, harmed]
    exact h.listed hash id
  · rw [hlisted]
    exact h.nodup hash
  · rw [hmap] at hentry
    refine ⟨(h.entry hash entry hentry).1, fun id hid => ?_⟩
    rw [(hsessions id).2.2.1]
    exact (h.entry hash entry hentry).2 id hid
  · rw [(hsessions id).2.2.2.1] at hid
    rw [harmed]
    exact h.cancelled id hid
  · rw [harmed] at hzero
    rw [hnext] at hid
    exact (hsessions id).2.2.2.2 (h.dead id hid hzero)

end Counted

namespace Handled

variable {s : State Hash}

/-- A step that moves no handle and leaves no parked handle without an observer. -/
theorem keep {s' : State Hash} (h : Handled s) (hnext : s'.nextHandle = s.nextHandle)
    (hjoined : s'.joined = s.joined)
    (hthread : ∀ id, (s'.sessions id).pullThread = (s.sessions id).pullThread)
    (harmed : ∀ id, (s.sessions id).pullThread ≠ none → 0 < s.armed id → 0 < s'.armed id) :
    Handled s' := by
  refine ⟨?_, fun id handle hid => ?_, fun id other handle hid hother => ?_, fun handle hlt => ?_⟩
  · rw [hjoined, hnext]
    exact h.joined
  · rw [hthread] at hid
    rcases h.parked id handle hid with ⟨hlt, hout, hpos⟩
    rw [hnext, hjoined]
    exact ⟨hlt, hout, harmed id (by rw [hid]; simp) hpos⟩
  · rw [hthread] at hid hother
    exact h.once id other handle hid hother
  · rw [hnext] at hlt
    rw [hjoined]
    simp only [hthread]
    exact h.kept handle hlt

/-- The owner of a pull parks its handle. -/
theorem park (h : Handled s) {id : Nat} (hheld : 0 < s.armed id)
    (hfree : (s.sessions id).pullThread = none) :
    Handled { s.setSession id ((s.sessions id).setPullHandle s.nextHandle) with
      nextHandle := s.nextHandle + 1 } := by
  have hself : ((s.sessions id).setPullHandle s.nextHandle).pullThread = some s.nextHandle := by
    unfold FillSession.setPullHandle
    rw [hfree]
    rfl
  have hthread : ∀ other, ((s.setSession id
      ((s.sessions id).setPullHandle s.nextHandle)).sessions other).pullThread =
        if other = id then some s.nextHandle else (s.sessions other).pullThread := by
    intro other
    unfold State.setSession
    dsimp only
    rw [Function.update_apply]
    split
    · exact hself
    · rfl
  refine ⟨⟨h.joined.1, fun handle hmem => Nat.lt_succ_of_lt (h.joined.2 handle hmem)⟩,
    fun other handle hother => ?_, fun first second handle hfirst hsecond => ?_,
    fun handle hlt => ?_⟩
  · rw [hthread] at hother
    split at hother
    · rename_i heq
      rcases Option.some.inj hother with rfl
      exact ⟨Nat.lt_succ_self _, fun hmem => absurd (h.joined.2 _ hmem) (Nat.lt_irrefl _),
        heq ▸ hheld⟩
    · rcases h.parked other handle hother with ⟨hlt, hrest⟩
      exact ⟨Nat.lt_succ_of_lt hlt, hrest⟩
  · rw [hthread] at hfirst hsecond
    split at hfirst
    · rename_i hone
      split at hsecond
      · rename_i htwo
        exact hone.trans htwo.symm
      · rcases Option.some.inj hfirst with rfl
        exact absurd (h.parked second _ hsecond).1 (Nat.lt_irrefl _)
    · split at hsecond
      · rcases Option.some.inj hsecond with rfl
        exact absurd (h.parked first _ hfirst).1 (Nat.lt_irrefl _)
      · exact h.once first second handle hfirst hsecond
  · simp only [hthread]
    rcases Nat.lt_or_eq_of_le (Nat.le_of_lt_succ hlt) with hold | rfl
    · rcases h.kept handle hold with hjoined | ⟨other, hother⟩
      · exact .inl hjoined
      · refine .inr ⟨other, ?_⟩
        rw [if_neg]
        · exact hother
        · rintro rfl
          rw [hfree] at hother
          cases hother
    · exact .inr ⟨id, if_pos rfl⟩

/-- The last lease hands the handle to its caller. -/
theorem lastOut [DecidableEq Hash] (h : Handled s) {lease : Nat} {l : ObserverLease Hash}
    (hlease : s.leases[lease]? = some l) (harmed : l.armed = true) :
    Handled ((s.disarm lease l).lastOut l.hash l.session).1 := by
  have hcount := State.armed_disarm hlease harmed
  rcases State.lastOut_rest (s.disarm lease l) l.hash l.session with ⟨-, -, hnext, hjoined⟩
  rw [State.disarm_sessions] at hjoined
  have hthread : ∀ id, (((s.disarm lease l).lastOut l.hash l.session).1.sessions id).pullThread =
      if id = l.session then none else (s.sessions id).pullThread := by
    intro id
    rw [State.lastOut_sessions]
    split
    · rfl
    · rw [State.disarm_sessions]
  have hmem : ∀ handle, handle ∈ ((s.disarm lease l).lastOut l.hash l.session).1.joined ↔
      handle ∈ s.joined ∨ (s.sessions l.session).pullThread = some handle := by
    intro handle
    rw [hjoined]
    simp [State.disarm, State.setSession]
  refine ⟨⟨?_, fun handle hin => ?_⟩, fun id handle hid => ?_,
    fun id other handle hid hother => ?_, fun handle hlt => ?_⟩
  · rw [hjoined]
    refine List.nodup_append.mpr ⟨h.joined.1, ?_, ?_⟩
    · cases (s.sessions l.session).pullThread <;> simp
    · intro handle hold other hother heq
      have hparked := Option.mem_toList.mp hother
      exact (h.parked l.session other hparked).2.1 (heq ▸ hold)
  · rw [hnext]
    rcases (hmem handle).mp hin with hold | hparked
    · exact h.joined.2 handle hold
    · exact (h.parked l.session handle hparked).1
  · rw [hthread] at hid
    split at hid
    · cases hid
    · rename_i hne
      rcases h.parked id handle hid with ⟨hlt, hout, hpos⟩
      have hcountid := hcount id
      rw [if_neg (Ne.symm hne)] at hcountid
      rw [hnext, hmem, State.armed_lastOut]
      refine ⟨hlt, ?_, by omega⟩
      rintro (hold | hparked)
      · exact hout hold
      · exact hne (h.once id l.session handle hid hparked)
  · rw [hthread] at hid hother
    split at hid
    · cases hid
    · split at hother
      · cases hother
      · exact h.once id other handle hid hother
  · rw [hnext] at hlt
    rw [hmem]
    simp only [hthread]
    rcases h.kept handle hlt with hold | ⟨id, hid⟩
    · exact .inl (.inl hold)
    · by_cases heq : id = l.session
      · exact .inl (.inr (heq ▸ hid))
      · exact .inr ⟨id, by rw [if_neg heq]; exact hid⟩

end Handled

/-! ## Runs -/

/-- One atomic operation of a caller, a pull or a serve leg.  The caller that spawned a pull parks
its handle while it holds a lease, and only once. -/
inductive Step [DecidableEq Hash] (s : State Hash) : State Hash → Prop
  | claim (hash : Hash) (offset len total servedStart : Nat) :
      Step s (s.claim hash offset len total servedStart).1
  | teardown (lease : Nat) : Step s (s.teardown lease).1
  | setPullHandle (id : Nat) (hheld : 0 < s.armed id)
      (hfree : (s.sessions id).pullThread = none) :
      Step s { s.setSession id ((s.sessions id).setPullHandle s.nextHandle) with
        nextHandle := s.nextHandle + 1 }
  | markEnded (id : Nat) (result : Except FillError Unit) :
      Step s (s.setSession id { s.sessions id with ended := some result })
  | advanceServed (id served : Nat) :
      Step s (s.setSession id ((s.sessions id).advanceServed served))
  | extendServedFrom (id offset served : Nat) :
      Step s (s.setSession id ((s.sessions id).extendServedFrom offset served))
  | stand (id slot stop : Nat) : Step s (s.stand id slot stop)
  | withdrawDemand (id slot : Nat) : Step s (s.withdrawDemand id slot)

/-- The states that an empty registry reaches. -/
def Reachable [DecidableEq Hash] (s : State Hash) : Prop := Relation.ReflTransGen Step {} s

/-- What may change of a session while nobody comes or leaves: the pull ends, payments and
demand move. -/
structure FillSession.Goes (a b : FillSession Hash) : Prop where
  observers : b.observers = a.observers
  hash : b.hash = a.hash
  outboard : b.outboard = a.outboard
  cancelled : b.cancelled = a.cancelled
  pullThread : b.pullThread = a.pullThread
  covered : b.covered = a.covered
  servedPaid : a.servedPaid ≤ b.servedPaid
  ended : b.ended = none → a.ended = none

theorem FillSession.Goes.refl (a : FillSession Hash) : a.Goes a :=
  ⟨rfl, rfl, rfl, rfl, rfl, rfl, Nat.le_refl _, id⟩

theorem FillSession.Goes.isDead {a b : FillSession Hash} (h : a.Goes b) (hdead : a.isDead = true) :
    b.isDead = true := by
  unfold FillSession.isDead at *
  rw [Bool.or_eq_true] at *
  rw [h.cancelled]
  refine hdead.imp_left fun hended => ?_
  by_contra hnone
  rw [Bool.not_eq_true, Option.isSome_eq_false_iff, Option.isNone_iff_eq_none] at hnone
  rw [h.ended hnone] at hended
  cases hended

theorem withdraw_goes (session : FillSession Hash) (slot : Nat) :
    session.Goes (session.withdraw slot) :=
  ⟨rfl, rfl, rfl, rfl, rfl, rfl, Nat.le_refl _, id⟩

/-- What a step does to the registry. -/
inductive Effect [DecidableEq Hash] (s : State Hash) : State Hash → Prop
  | same : Effect s s
  | attach {hash : Hash} {sibling : Nat} (hlisted : sibling ∈ s.listed hash) :
      Effect s (s.mintLease sibling hash)
  | own (hash : Hash) (total servedStart : Nat) (covered : Finset Nat) :
      Effect s (s.openFill hash total servedStart covered)
  | mixed {hash : Hash} (total servedStart : Nat) (covered : Finset Nat) {sibling : Nat}
      (hlisted : sibling ∈ s.listed hash) :
      Effect s ((s.openFill hash total servedStart covered).mintLease sibling hash)
  | disarm {lease : Nat} {l : ObserverLease Hash} (hlease : s.leases[lease]? = some l)
      (harmed : l.armed = true) (hmore : s.armed l.session ≠ 1) : Effect s (s.disarm lease l)
  | lastOut {lease : Nat} {l : ObserverLease Hash} (hlease : s.leases[lease]? = some l)
      (harmed : l.armed = true) (hone : s.armed l.session = 1) :
      Effect s ((s.disarm lease l).lastOut l.hash l.session).1
  | park {id : Nat} (hheld : 0 < s.armed id) (hfree : (s.sessions id).pullThread = none) :
      Effect s { s.setSession id ((s.sessions id).setPullHandle s.nextHandle) with
        nextHandle := s.nextHandle + 1 }
  | quiet (sessions : Nat → FillSession Hash) (hgoes : ∀ id, (s.sessions id).Goes (sessions id)) :
      Effect s { s with sessions }

section Effects

variable [DecidableEq Hash] {s s' : State Hash}

theorem effect_setSession (s : State Hash) {id : Nat} {session : FillSession Hash}
    (h : (s.sessions id).Goes session) : Effect s (s.setSession id session) := by
  refine .quiet _ fun other => ?_
  by_cases heq : other = id
  · subst heq
    rw [Function.update_self]
    exact h
  · rw [Function.update_of_ne heq]
    exact .refl _

theorem effect_mapListed (s : State Hash) (hash : Hash) {f : FillSession Hash → FillSession Hash}
    (h : ∀ session : FillSession Hash, session.Goes (f session)) : Effect s (s.mapListed hash f) := by
  refine .quiet _ fun id => ?_
  split
  · exact h _
  · exact .refl _

/-- What a step can do. -/
theorem Step.effect (hcounted : Counted s) (h : Step s s') : Effect s s' := by
  cases h with
  | claim hash offset len total servedStart =>
    have hplan := State.plan_cases s hash (requested offset len total).1
      (requested offset len total).2 total
    unfold State.claim
    dsimp only
    generalize s.plan hash (requested offset len total).1 (requested offset len total).2 total =
      plan at hplan
    cases hplan with
    | attach hlisted => exact .attach hlisted
    | mixed hlisted => exact .mixed total servedStart _ hlisted
    | own => exact .own hash total servedStart _
  | teardown lease =>
    cases hlease : s.leases[lease]? with
    | none =>
      rw [State.teardown_other (by rw [hlease]; simp)]
      exact .same
    | some l =>
      by_cases harmed : l.armed = true
      · rw [State.teardown_armed hlease harmed, hcounted.observers]
        split
        · rename_i hmore
          exact .disarm hlease harmed hmore
        · rename_i hone
          exact .lastOut hlease harmed (not_not.mp hone)
      · rw [State.teardown_other]
        · exact .same
        · intro l' hl'
          rw [← Option.some.inj (hlease.symm.trans hl')]
          exact Bool.eq_false_of_not_eq_true harmed
  | setPullHandle id hheld hfree => exact .park hheld hfree
  | markEnded id result =>
    exact effect_setSession s
      ⟨rfl, rfl, rfl, rfl, rfl, rfl, Nat.le_refl _, fun hnone => by cases hnone⟩
  | advanceServed id served =>
    exact effect_setSession s
      ⟨rfl, rfl, rfl, rfl, rfl, rfl, Nat.le_max_left _ _, fun hnone => hnone⟩
  | extendServedFrom id offset served =>
    refine effect_setSession s ?_
    unfold FillSession.extendServedFrom
    split
    · exact ⟨rfl, rfl, rfl, rfl, rfl, rfl, Nat.le_max_left _ _, fun hnone => hnone⟩
    · exact .refl _
  | stand id slot stop =>
    unfold State.stand
    dsimp only
    split
    · split
      · exact effect_mapListed s _ fun session => withdraw_goes session slot
      · exact effect_mapListed s _ fun session =>
          ⟨rfl, rfl, rfl, rfl, rfl, rfl, Nat.le_refl _, fun hnone => hnone⟩
    · exact .same
  | withdrawDemand id slot =>
    unfold State.withdrawDemand
    split
    · exact effect_mapListed s _ fun session => withdraw_goes session slot
    · exact .same

theorem Counted.effect (hcounted : Counted s) (h : Effect s s') : Counted s' := by
  cases h with
  | same => exact hcounted
  | attach hlisted => exact hcounted.mint hlisted
  | own hash total servedStart covered => exact hcounted.openFill hash total servedStart covered
  | mixed total servedStart covered hlisted =>
    refine (hcounted.openFill _ total servedStart covered).mint ?_
    rw [State.openFill_listed, if_pos rfl]
    exact List.mem_append_left _ hlisted
  | disarm hlease harmed hmore => exact hcounted.disarm hlease harmed hmore
  | lastOut hlease harmed hone => exact hcounted.lastOut hlease harmed hone
  | @park id hheld hfree =>
    refine hcounted.quiet rfl rfl rfl fun other => ?_
    unfold State.setSession
    dsimp only
    by_cases heq : other = id
    · subst heq
      rw [Function.update_self]
      exact ⟨rfl, rfl, rfl, rfl, fun hdead => hdead⟩
    · rw [Function.update_of_ne heq]
      exact ⟨rfl, rfl, rfl, rfl, fun hdead => hdead⟩
  | quiet sessions hgoes =>
    exact hcounted.quiet rfl rfl rfl fun id => ⟨(hgoes id).observers, (hgoes id).hash,
      (hgoes id).outboard, (hgoes id).cancelled, (hgoes id).isDead⟩

theorem Handled.effect (hcounted : Counted s) (hhandled : Handled s) (h : Effect s s') :
    Handled s' := by
  have hfresh : ∀ id, s.nextSession ≤ id → (s.sessions id).pullThread = none := by
    intro id hid
    by_contra hne
    rcases Option.ne_none_iff_exists'.mp hne with ⟨handle, hhandle⟩
    have hpos := (hhandled.parked id handle hhandle).2.2
    rw [hcounted.armed_fresh hid] at hpos
    exact absurd hpos (Nat.lt_irrefl 0)
  have hopen : ∀ hash total servedStart covered,
      Handled (s.openFill hash total servedStart covered) := by
    intro hash total servedStart covered
    refine hhandled.keep rfl rfl (fun id => ?_) fun id _ hpos => ?_
    · rw [State.openFill_sessions]
      split
      · rename_i heq
        rw [hfresh id (Nat.le_of_eq heq.symm)]
        rfl
      · rfl
    · rw [State.armed_openFill]
      exact Nat.add_pos_left hpos _
  have hmint : ∀ {t : State Hash}, Handled t → ∀ new hash, Handled (t.mintLease new hash) := by
    intro t ht new hash
    refine ht.keep rfl rfl (fun id => ?_) fun id _ hpos => ?_
    · rw [State.mintLease_sessions]
    · rw [State.armed_mintLease]
      exact Nat.add_pos_left hpos _
  cases h with
  | same => exact hhandled
  | attach hlisted => exact hmint hhandled _ _
  | own hash total servedStart covered => exact hopen hash total servedStart covered
  | mixed total servedStart covered hlisted => exact hmint (hopen _ total servedStart covered) _ _
  | @disarm lease l hlease harmed hmore =>
    have hcount := State.armed_disarm hlease harmed
    refine hhandled.keep rfl rfl (fun id => ?_) fun id _ hpos => ?_
    · rw [State.disarm_sessions]
    · have hid := hcount id
      split at hid
      · rename_i heq
        rw [heq] at hmore
        omega
      · omega
  | lastOut hlease harmed hone => exact hhandled.lastOut hlease harmed
  | park hheld hfree => exact hhandled.park hheld hfree
  | quiet sessions hgoes =>
    exact hhandled.keep rfl rfl (fun id => (hgoes id).pullThread) fun _ _ hpos => hpos

theorem Reachable.books (h : Reachable s) : Counted s ∧ Handled s := by
  induction h with
  | refl =>
    refine ⟨⟨fun _ => rfl, fun l hl => absurd hl List.not_mem_nil, fun hash id => ?_,
        fun _ => List.nodup_nil, fun hash entry hentry => (Option.not_mem_none _ hentry).elim,
        fun id hid => absurd hid Bool.false_ne_true, fun id hid => absurd hid (Nat.not_lt_zero _)⟩,
      ⟨⟨List.nodup_nil, fun handle hmem => absurd hmem List.not_mem_nil⟩,
        fun id handle hid => absurd hid (Option.some_ne_none _).symm,
        fun id other handle hid => absurd hid (Option.some_ne_none _).symm,
        fun handle hlt => absurd hlt (Nat.not_lt_zero _)⟩⟩
    exact ⟨fun hmem => absurd hmem List.not_mem_nil, fun hboth => absurd hboth.2 (Nat.lt_irrefl 0)⟩
  | tail _ hstep ih =>
    have heffect := hstep.effect ih.1
    exact ⟨ih.1.effect heffect, Handled.effect ih.1 ih.2 heffect⟩

end Effects

end Decdn.FillRegistry
