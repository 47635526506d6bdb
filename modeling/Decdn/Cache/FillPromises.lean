import Decdn.Cache.FillSafety

/-!
# What a claim can count on

A claim reads the chunks of all the pulls in flight, but its leases keep only some of these
pulls alive.

Main results:

- Theorem `claim_split`: what a claim pulls itself and what it attaches to.
- Theorem `promise_kept_iff`: which claims keep their chunks, whatever the others do.
- Theorem `covered_claim_attaches`: a request inside a pull in flight opens no second pull.
-/

namespace Decdn.FillRegistry

open BaoRange Relation

variable {Hash : Type}

/-! ## Later states -/

/-- What stays of a state: the sessions keep their blob and their chunks, their frontier only
rises, and a lease is not armed again. -/
structure Later (s v : State Hash) : Prop where
  made : s.nextSession ≤ v.nextSession
  session : ∀ id, id < s.nextSession →
    (v.sessions id).covered = (s.sessions id).covered ∧
    (v.sessions id).hash = (s.sessions id).hash ∧
    (s.sessions id).servedPaid ≤ (v.sessions id).servedPaid
  lease : ∀ (i : Nat) (l : ObserverLease Hash), s.leases[i]? = some l →
    ∃ l' : ObserverLease Hash, v.leases[i]? = some l' ∧ l'.session = l.session

theorem Later.refl (s : State Hash) : Later s s :=
  ⟨Nat.le_refl _, fun _ _ => ⟨rfl, rfl, Nat.le_refl _⟩, fun _ l hl => ⟨l, hl, rfl⟩⟩

theorem Later.trans {s t v : State Hash} (h : Later s t) (h' : Later t v) : Later s v := by
  refine ⟨h.made.trans h'.made, fun id hid => ?_, fun i l hl => ?_⟩
  · rcases h.session id hid with ⟨hcovered, hhash, hpaid⟩
    rcases h'.session id (Nat.lt_of_lt_of_le hid h.made) with ⟨hcovered', hhash', hpaid'⟩
    exact ⟨hcovered'.trans hcovered, hhash'.trans hhash, hpaid.trans hpaid'⟩
  · rcases h.lease i l hl with ⟨l', hl', hsame⟩
    rcases h'.lease i l' hl' with ⟨l'', hl'', hsame'⟩
    exact ⟨l'', hl'', hsame'.trans hsame⟩

theorem later_mintLease (s : State Hash) (new : Nat) (hash : Hash) :
    Later s (s.mintLease new hash) := by
  refine ⟨Nat.le_refl _, fun id _ => ?_, fun i l hl => ⟨l, ?_, rfl⟩⟩
  · rw [State.mintLease_sessions]
    exact ⟨rfl, rfl, Nat.le_refl _⟩
  · exact List.getElem?_append_left (List.getElem?_eq_some_iff.mp hl).1 |>.trans hl

theorem later_disarm (s : State Hash) (lease : Nat) {l : ObserverLease Hash}
    (hlease : s.leases[lease]? = some l) : Later s (s.disarm lease l) := by
  refine ⟨Nat.le_refl _, fun id _ => ?_, fun i l' hl' => ?_⟩
  · rw [State.disarm_sessions]
    exact ⟨rfl, rfl, Nat.le_refl _⟩
  · unfold State.disarm
    dsimp only
    rw [List.getElem?_set]
    split
    · rename_i heq
      subst heq
      rw [hlease] at hl'
      rcases Option.some.inj hl' with rfl
      rw [if_pos (List.getElem?_eq_some_iff.mp hlease).1]
      exact ⟨_, rfl, rfl⟩
    · exact ⟨l', hl', rfl⟩

section Runs

variable [DecidableEq Hash] {s s' : State Hash}

theorem later_openFill (s : State Hash) (hash : Hash) (total servedStart : Nat)
    (covered : Finset Nat) : Later s (s.openFill hash total servedStart covered) := by
  refine ⟨Nat.le_succ _, fun id hid => ?_, fun i l hl => ⟨l, ?_, rfl⟩⟩
  · rw [State.openFill_sessions, if_neg (Nat.ne_of_lt hid)]
    exact ⟨rfl, rfl, Nat.le_refl _⟩
  · exact List.getElem?_append_left (List.getElem?_eq_some_iff.mp hl).1 |>.trans hl

theorem later_lastOut (s : State Hash) (hash : Hash) (id : Nat) :
    Later s (s.lastOut hash id).1 := by
  rcases State.lastOut_rest s hash id with ⟨hleases, hnext, -, -⟩
  refine ⟨Nat.le_of_eq hnext.symm, fun other _ => ?_, fun i l hl => ⟨l, by rwa [hleases], rfl⟩⟩
  rw [State.lastOut_sessions]
  split
  · rename_i heq
    rw [heq]
    exact ⟨rfl, rfl, Nat.le_refl _⟩
  · exact ⟨rfl, rfl, Nat.le_refl _⟩

theorem Effect.later (h : Effect s s') : Later s s' := by
  cases h with
  | same => exact .refl s
  | attach => exact later_mintLease s _ _
  | own hash total servedStart covered => exact later_openFill s hash total servedStart covered
  | mixed total servedStart covered =>
    exact (later_openFill s _ total servedStart covered).trans (later_mintLease _ _ _)
  | disarm hlease => exact later_disarm s _ hlease
  | lastOut hlease => exact (later_disarm s _ hlease).trans (later_lastOut _ _ _)
  | @park id hheld hfree =>
    refine ⟨Nat.le_refl _, fun other _ => ?_, fun i l hl => ⟨l, hl, rfl⟩⟩
    unfold State.setSession
    dsimp only
    by_cases heq : other = id
    · subst heq
      rw [Function.update_self]
      exact ⟨rfl, rfl, Nat.le_refl _⟩
    · rw [Function.update_of_ne heq]
      exact ⟨rfl, rfl, Nat.le_refl _⟩
  | quiet sessions hgoes =>
    exact ⟨Nat.le_refl _, fun id _ => ⟨(hgoes id).covered, (hgoes id).hash, (hgoes id).servedPaid⟩,
      fun i l hl => ⟨l, hl, rfl⟩⟩

theorem Reachable.later {v : State Hash} (h : Reachable s) (hrun : ReflTransGen Step s v) :
    Later s v := by
  induction hrun with
  | refl => exact .refl s
  | tail hprefix hstep ih =>
    have hcounted := (Reachable.books (h.trans hprefix)).1
    exact ih.trans (hstep.effect hcounted).later

/-! ## What a claim splits -/

/-- The outcome of a claim, by its plan. -/
inductive Claimed (s : State Hash) (hash : Hash) (r : Finset Nat)
    (fetchStart total servedStart : Nat) : State Hash × FillClaim → Prop
  | attach {sibling : Nat}
      (hplan : State.Planned s hash r fetchStart total (.attach sibling)) :
      Claimed s hash r fetchStart total servedStart
        (s.mintLease sibling hash, .attach sibling s.leases.length)
  | mixed {sibling offset len : Nat}
      (hplan : State.Planned s hash r fetchStart total
        (.mixed sibling (r \ (s.sessions sibling).covered) offset len)) :
      Claimed s hash r fetchStart total servedStart
        ((s.openFill hash total servedStart (r \ (s.sessions sibling).covered)).mintLease
          sibling hash,
          .mixed s.nextSession s.leases.length sibling (s.leases.length + 1) offset len)
  | own : Claimed s hash r fetchStart total servedStart
      (s.openFill hash total servedStart r, .owner s.nextSession s.leases.length)

theorem claim_cases (s : State Hash) (hash : Hash) (offset len total servedStart : Nat) :
    Claimed s hash (requested offset len total).1 (requested offset len total).2 total servedStart
      (s.claim hash offset len total servedStart) := by
  have hplan := State.plan_cases s hash (requested offset len total).1
    (requested offset len total).2 total
  unfold State.claim
  dsimp only
  generalize s.plan hash (requested offset len total).1 (requested offset len total).2 total =
    plan at hplan
  cases hplan with
  | attach hlisted heligible hoverlap hlargest hreached =>
    exact .attach (.attach hlisted heligible hoverlap hlargest hreached)
  | mixed hlisted heligible hoverlap hapart hspan =>
    exact .mixed (.mixed hlisted heligible hoverlap hapart hspan)
  | own => exact .own

/-- The caller has the leases of the outcome, on sessions that the registry lists. -/
theorem claim_held (s : State Hash) (hash : Hash) (offset len total servedStart : Nat) :
    ∀ held ∈ (s.claim hash offset len total servedStart).2.held,
      (s.claim hash offset len total servedStart).1.leases[held.2]? =
        some ⟨held.1, hash, true⟩ := by
  have hcases := claim_cases s hash offset len total servedStart
  generalize s.claim hash offset len total servedStart = claimed at hcases
  have hnew : ∀ (t : State Hash) (id : Nat),
      (t.mintLease id hash).leases[t.leases.length]? = some ⟨id, hash, true⟩ :=
    fun t id => by simp [State.mintLease]
  cases hcases with
  | attach hplan =>
    intro held hheld
    rcases List.mem_singleton.mp hheld with rfl
    exact hnew s _
  | own =>
    intro held hheld
    rcases List.mem_singleton.mp hheld with rfl
    exact hnew _ s.nextSession
  | @mixed sibling offset' len' hplan =>
    intro held hheld
    generalize hopen : s.openFill hash total servedStart _ = t
    have hlength : t.leases.length = s.leases.length + 1 := by
      rw [← hopen]
      simp [State.openFill, State.mintLease, State.insertSession, State.setSession]
    have hfirst : t.leases[s.leases.length]? = some ⟨s.nextSession, hash, true⟩ := by
      rw [← hopen]
      exact hnew _ s.nextSession
    rcases List.mem_cons.mp hheld with rfl | hsecond
    · change (t.leases ++ [_])[s.leases.length]? = _
      rw [List.getElem?_append_left (by omega)]
      exact hfirst
    · rcases List.mem_singleton.mp hsecond with rfl
      dsimp only
      rw [← hlength]
      exact hnew t sibling

/-- What a claim pulls itself and what it leaves to others.  The chunks hold the request's
bytes.  A claim attaches only if the live pulls whose paid frontier reaches its start cover all of
them; a mixed claim pulls what its sibling lacks, which is one span of bytes that no such pull
covers; and an owner pulls all of its chunks, also those that such pulls cover. -/
theorem claim_split (h : Reachable s) (hash : Hash) (offset len total servedStart : Nat)
    (hfits : total ≤ u64Max) :
    (∀ byte, offset ≤ byte → byte < (if len = 0 then total else min (offset + len) total) →
      byte / chunkBytes ∈ (requested offset len total).1) ∧
    match s.claim hash offset len total servedStart with
    | (_, .attach id _) => id ∈ s.listed hash ∧ (s.sessions id).isDead = false ∧
      (∃ c ∈ (requested offset len total).1, c ∈ (s.sessions id).covered) ∧
      ∀ c ∈ (requested offset len total).1,
        s.Reached (requested offset len total).2 hash c
    | (v, .owner id _) => id ∉ s.listed hash ∧ (v.sessions id).isDead = false ∧
      (v.sessions id).covered = (requested offset len total).1
    | (v, .mixed own _ id _ remOffset remLen) => own ∉ s.listed hash ∧ id ∈ s.listed hash ∧
      (v.sessions own).isDead = false ∧ (s.sessions id).isDead = false ∧
      (v.sessions own).covered = (requested offset len total).1 \ (s.sessions id).covered ∧
      (∀ c ∈ (v.sessions own).covered, ¬ s.Reached (requested offset len total).2 hash c) ∧
      ∀ byte, (remOffset ≤ byte ∧ byte < remOffset + remLen) ↔
        byte < total ∧ byte / chunkBytes ∈ (v.sessions own).covered := by
  have hcounted := h.books.1
  have hfresh : s.nextSession ∉ s.listed hash := by
    intro hmem
    have hpos := ((hcounted.listed hash _).mp hmem).2
    rw [hcounted.armed_fresh (Nat.le_refl _)] at hpos
    exact absurd hpos (Nat.lt_irrefl 0)
  have halive : ∀ {id}, s.eligible (requested offset len total).2 id = true →
      (s.sessions id).isDead = false := by
    intro id heligible
    unfold State.eligible at heligible
    rw [Bool.and_eq_true, Bool.not_eq_true'] at heligible
    exact heligible.1
  refine ⟨fun byte hlow hhigh => ?_, ?_⟩
  · rw [mem_requested hfits]
    have hstop : (if len = 0 then total else min (offset + len) total) ≤ total := by
      split
      · exact Nat.le_refl _
      · exact Nat.min_le_right _ _
    unfold chunkGroupBytes groupChunks chunkBytes
    generalize (if len = 0 then total else min (offset + len) total) = stop at *
    omega
  · have hcases := claim_cases s hash offset len total servedStart
    generalize s.claim hash offset len total servedStart = claimed at hcases
    cases hcases with
    | attach hplan =>
      cases hplan with
      | attach hlisted heligible hoverlap hlargest hreached =>
        rcases Finset.nonempty_iff_ne_empty.mpr hoverlap with ⟨c, hc⟩
        exact ⟨hlisted, halive heligible,
          ⟨c, (Finset.mem_inter.mp hc).1, (Finset.mem_inter.mp hc).2⟩, hreached⟩
    | own =>
      dsimp only
      rw [State.openFill_sessions, if_pos rfl]
      exact ⟨hfresh, rfl, rfl⟩
    | mixed hplan =>
      cases hplan with
      | mixed hlisted heligible hoverlap hapart hspan =>
        dsimp only
        rw [State.mintLease_sessions, State.openFill_sessions, if_pos rfl]
        refine ⟨hfresh, hlisted, rfl, halive heligible, rfl, hapart,
          contiguousByteSpan_eq_some hfits (fun c hc => ?_) hspan⟩
        exact ((mem_requested hfits offset len c).mp (Finset.mem_sdiff.mp hc).1).2.2.1

/-! ## What the leases keep -/

/-- The caller still holds its leases, and the pulls that it holds have not ended. -/
def State.Kept (v : State Hash) (claim : FillClaim) : Prop :=
  ∀ held ∈ claim.held, (∃ l : ObserverLease Hash, v.leases[held.2]? = some l ∧ l.armed = true) ∧
    (v.sessions held.1).ended = none

/-- A session stays listed and uncancelled while a lease on it is held, with its chunks, and its
frontier only rises. -/
theorem held_alive {claimed v : State Hash} {hash : Hash} {id lease : Nat}
    (h : Reachable claimed) (hlease : claimed.leases[lease]? = some ⟨id, hash, true⟩)
    (hrun : ReflTransGen Step claimed v)
    (harmed : ∃ l : ObserverLease Hash, v.leases[lease]? = some l ∧ l.armed = true) :
    id ∈ v.listed hash ∧ (v.sessions id).cancelled = false ∧
      (v.sessions id).covered = (claimed.sessions id).covered ∧
      (claimed.sessions id).servedPaid ≤ (v.sessions id).servedPaid := by
  have hbefore := h.books.1.leases _ (List.mem_of_getElem? hlease)
  have hafter : Counted v := (Reachable.books (ReflTransGen.trans h hrun)).1
  have hlater := h.later hrun
  rcases harmed with ⟨l, hl, harmed⟩
  rcases hlater.lease _ _ hlease with ⟨l', hl', hsession⟩
  rcases Option.some.inj (hl.symm.trans hl') with rfl
  have hpos : 0 < v.armed id :=
    State.armed_pos_iff.mpr ⟨l, List.mem_of_getElem? hl, harmed, hsession⟩
  rcases hlater.session id hbefore.1 with ⟨hsame, hhash, hpaid⟩
  refine ⟨(hafter.listed hash id).mpr ⟨hhash.trans hbefore.2, hpos⟩, ?_, hsame, hpaid⟩
  by_contra hyes
  rw [Bool.not_eq_false] at hyes
  rw [hafter.cancelled id hyes] at hpos
  exact absurd hpos (Nat.lt_irrefl 0)

/-- A chunk of a session that the caller holds stays live. -/
theorem live_of_held (h : Reachable s) (hash : Hash) (offset len total servedStart : Nat)
    {v : State Hash}
    (hrun : ReflTransGen Step (s.claim hash offset len total servedStart).1 v)
    (hkept : v.Kept (s.claim hash offset len total servedStart).2) {c : Nat}
    (hcovered : ∃ held ∈ (s.claim hash offset len total servedStart).2.held,
      c ∈ ((s.claim hash offset len total servedStart).1.sessions held.1).covered) :
    v.rangeStillLive hash {c} = true := by
  rcases hcovered with ⟨held, hheld, hc⟩
  have hlease := claim_held s hash offset len total servedStart held hheld
  have hclaimed : Reachable (s.claim hash offset len total servedStart).1 :=
    h.tail (.claim hash offset len total servedStart)
  rcases hkept held hheld with ⟨harmed, hended⟩
  rcases held_alive hclaimed hlease hrun harmed with ⟨hlisted, hcancelled, hsame, -⟩
  refine List.any_eq_true.mpr ⟨held.1, hlisted, ?_⟩
  unfold FillSession.produces FillSession.isDead
  rw [hended, hcancelled, hsame, Finset.inter_singleton_of_mem hc]
  simp

/-- The end of a lease disarms it and leaves the pulls' outcomes and chunks alone. -/
theorem teardown_spec (s : State Hash) (lease : Nat) :
    (∀ i : Nat, (s.teardown lease).1.leases[i]? = if i = lease then
      s.leases[i]?.map fun l => { l with armed := false } else s.leases[i]?) ∧
    ∀ id, ((s.teardown lease).1.sessions id).ended = (s.sessions id).ended ∧
      ((s.teardown lease).1.sessions id).covered = (s.sessions id).covered := by
  have hunarmed : (∀ l, s.leases[lease]? = some l → l.armed = false) →
      ∀ i : Nat, s.leases[i]? = if i = lease then
        s.leases[i]?.map fun l => { l with armed := false } else s.leases[i]? := by
    intro hall i
    split
    · rename_i heq
      subst heq
      cases hl : s.leases[i]? with
      | none => rfl
      | some l =>
        rw [Option.map_some, ← hall l hl]
    · rfl
  by_cases hex : ∃ l, s.leases[lease]? = some l ∧ l.armed = true
  · rcases hex with ⟨l, hlease, harmed⟩
    have hdisarm : ∀ i : Nat, (s.disarm lease l).leases[i]? = if i = lease then
        s.leases[i]?.map fun l => { l with armed := false } else s.leases[i]? := by
      intro i
      unfold State.disarm
      dsimp only
      rw [List.getElem?_set]
      by_cases heq : lease = i
      · subst heq
        rw [if_pos rfl, if_pos (List.getElem?_eq_some_iff.mp hlease).1, if_pos rfl, hlease]
        rfl
      · rw [if_neg heq, if_neg (Ne.symm heq)]
    rw [State.teardown_armed hlease harmed]
    split
    · refine ⟨hdisarm, fun id => ?_⟩
      rw [State.disarm_sessions]
      exact ⟨rfl, rfl⟩
    · rw [(State.lastOut_rest _ l.hash l.session).1]
      refine ⟨hdisarm, fun id => ?_⟩
      rw [State.lastOut_sessions]
      split
      · rename_i heq
        unfold State.closed
        rw [State.disarm_sessions, heq]
        exact ⟨rfl, rfl⟩
      · rw [State.disarm_sessions]
        exact ⟨rfl, rfl⟩
  · push Not at hex
    have hall : ∀ l, s.leases[lease]? = some l → l.armed = false :=
      fun l hl => Bool.eq_false_of_not_eq_true (hex l hl)
    rw [State.teardown_other hall]
    exact ⟨hunarmed hall, fun _ => ⟨rfl, rfl⟩⟩

/-- Some of the leases end, one after the other. -/
theorem exists_teardowns (s : State Hash) (leases : List Nat) :
    ∃ v, ReflTransGen Step s v ∧
      (∀ i : Nat, v.leases[i]? = if i ∈ leases then
        s.leases[i]?.map fun l => { l with armed := false } else s.leases[i]?) ∧
      ∀ id, (v.sessions id).ended = (s.sessions id).ended ∧
        (v.sessions id).covered = (s.sessions id).covered := by
  induction leases using List.reverseRecOn with
  | nil => exact ⟨s, .refl, fun i => by simp, fun _ => ⟨rfl, rfl⟩⟩
  | append_singleton leases lease ih =>
    rcases ih with ⟨v, hrun, hleases, hsessions⟩
    rcases teardown_spec v lease with ⟨hlast, hsame⟩
    refine ⟨_, hrun.tail (.teardown lease), fun i => ?_, fun id => ?_⟩
    · rw [hlast, hleases]
      by_cases heq : i = lease
      · have hlast : i ∈ leases ++ [lease] := List.mem_append_right _ (by simp [heq])
        rw [if_pos heq, if_pos hlast]
        split
        · cases s.leases[i]? <;> rfl
        · rfl
      · rw [if_neg heq]
        simp [heq]
    · rw [(hsame id).1, (hsame id).2]
      exact hsessions id

/-- The eligible sibling of a claim has not ended. -/
theorem claim_kept (s : State Hash) (hash : Hash) (offset len total servedStart : Nat) :
    ∀ held ∈ (s.claim hash offset len total servedStart).2.held,
      ((s.claim hash offset len total servedStart).1.sessions held.1).ended = none := by
  have halive : ∀ {fetchStart id}, s.eligible fetchStart id = true →
      (s.sessions id).ended = none := by
    intro fetchStart id heligible
    unfold State.eligible FillSession.isDead at heligible
    rw [Bool.and_eq_true, Bool.not_eq_true', Bool.or_eq_false_iff,
      Option.isSome_eq_false_iff, Option.isNone_iff_eq_none] at heligible
    exact heligible.1.1
  have hcases := claim_cases s hash offset len total servedStart
  generalize s.claim hash offset len total servedStart = claimed at hcases
  cases hcases with
  | attach hplan =>
    intro held hheld
    rcases List.mem_singleton.mp hheld with rfl
    cases hplan with
    | attach hlisted heligible =>
      rw [State.mintLease_sessions]
      exact halive heligible
  | own =>
    intro held hheld
    rcases List.mem_singleton.mp hheld with rfl
    rw [State.openFill_sessions, if_pos rfl]
    rfl
  | mixed hplan =>
    intro held hheld
    cases hplan with
    | mixed hlisted heligible =>
      rw [State.mintLease_sessions, State.openFill_sessions]
      split
      · rfl
      · rename_i hne
        rcases List.mem_cons.mp hheld with rfl | hsecond
        · exact absurd rfl hne
        · rcases List.mem_singleton.mp hsecond with rfl
          exact halive heligible

/-- The caller of a claim can count on its chunks, while it holds its leases and the pulls that
it holds have not ended, exactly when these pulls cover them: then no run of the others takes a
chunk away, and otherwise some run does.  An owner and a mixed claim can always count on them; a
claim that attached because several pulls together cover its chunks cannot. -/
theorem promise_kept_iff (h : Reachable s) (hash : Hash) (offset len total servedStart : Nat) :
    ((∀ v, ReflTransGen Step (s.claim hash offset len total servedStart).1 v →
        v.Kept (s.claim hash offset len total servedStart).2 →
        ∀ c ∈ (requested offset len total).1, v.rangeStillLive hash {c} = true) ↔
      ∀ c ∈ (requested offset len total).1,
        ∃ held ∈ (s.claim hash offset len total servedStart).2.held,
          c ∈ ((s.claim hash offset len total servedStart).1.sessions held.1).covered) ∧
    ((∀ id lease, (s.claim hash offset len total servedStart).2 ≠ .attach id lease) →
      ∀ c ∈ (requested offset len total).1,
        ∃ held ∈ (s.claim hash offset len total servedStart).2.held,
          c ∈ ((s.claim hash offset len total servedStart).1.sessions held.1).covered) := by
  constructor
  · constructor
    · intro hlive c hc
      have hheld := claim_held s hash offset len total servedStart
      have hended := claim_kept s hash offset len total servedStart
      have hclaimed : Reachable (s.claim hash offset len total servedStart).1 :=
        h.tail (.claim hash offset len total servedStart)
      generalize s.claim hash offset len total servedStart = claimed at *
      -- All the others leave.
      rcases exists_teardowns claimed.1 ((List.range claimed.1.leases.length).filter
        (· ∉ claimed.2.held.map Prod.snd)) with ⟨v, hrun, hleases, hsame⟩
      have hcounted : Counted v := (Reachable.books (ReflTransGen.trans hclaimed hrun)).1
      have hkept : v.Kept claimed.2 := by
        intro held hmem
        rw [(hsame held.1).1]
        refine ⟨⟨⟨held.1, hash, true⟩, ?_, rfl⟩, hended held hmem⟩
        rw [hleases, if_neg, hheld held hmem]
        intro hfilter
        refine (of_decide_eq_true (List.mem_filter.mp hfilter).2) ?_
        exact List.mem_map_of_mem hmem
      rcases List.any_eq_true.mp (hlive v hrun hkept c hc) with ⟨id, hlisted, hproduces⟩
      rcases State.armed_pos_iff.mp ((hcounted.listed hash id).mp hlisted).2 with
        ⟨l, hl, harmed, hsession⟩
      rcases List.getElem?_of_mem hl with ⟨i, hi⟩
      rw [hleases] at hi
      split at hi
      · rcases Option.map_eq_some_iff.mp hi with ⟨l', -, rfl⟩
        exact absurd harmed Bool.false_ne_true
      · rename_i hout
        have hlt := (List.getElem?_eq_some_iff.mp hi).1
        have hmem : i ∈ claimed.2.held.map Prod.snd := by
          by_contra hnot
          exact hout (List.mem_filter.mpr ⟨List.mem_range.mpr hlt, decide_eq_true hnot⟩)
        rcases List.mem_map.mp hmem with ⟨held, hmemheld, rfl⟩
        rw [hheld held hmemheld] at hi
        rcases Option.some.inj hi with rfl
        refine ⟨held, hmemheld, ?_⟩
        dsimp only at hsession
        unfold FillSession.produces at hproduces
        rw [Bool.and_eq_true, decide_eq_true_iff, ← hsession, (hsame held.1).2] at hproduces
        by_contra hnot
        exact hproduces.2 (Finset.inter_singleton_of_notMem hnot)
    · intro hcovered v hrun hkept c hc
      exact live_of_held h hash offset len total servedStart hrun hkept (hcovered c hc)
  · intro hnot c hc
    have hcases := claim_cases s hash offset len total servedStart
    generalize s.claim hash offset len total servedStart = claimed at hcases hnot
    cases hcases with
    | attach => exact absurd rfl (hnot _ _)
    | own =>
      refine ⟨_, List.mem_cons_self, ?_⟩
      rw [State.openFill_sessions, if_pos rfl]
      exact hc
    | @mixed sibling offset' len' hplan =>
      by_cases hin : c ∈ (s.sessions sibling).covered
      · refine ⟨_, List.mem_cons_of_mem _ List.mem_cons_self, ?_⟩
        cases hplan with
        | mixed hlisted =>
          rw [State.mintLease_sessions, State.openFill_sessions]
          rw [if_neg]
          · exact hin
          · rintro rfl
            have hpos := ((h.books.1.listed hash _).mp hlisted).2
            rw [h.books.1.armed_fresh (Nat.le_refl _)] at hpos
            exact absurd hpos (Nat.lt_irrefl 0)
      · refine ⟨_, List.mem_cons_self, ?_⟩
        rw [State.mintLease_sessions, State.openFill_sessions, if_pos rfl]
        exact Finset.mem_sdiff.mpr ⟨hc, hin⟩

/-- The pull that a claim opened, with the lease of the caller on it. -/
def FillClaim.opened : FillClaim → Option (Nat × Nat)
  | .attach _ _ => none
  | .owner session lease => some (session, lease)
  | .mixed own ownLease _ _ _ _ => some (own, ownLease)

/-- While the caller that opened a pull, for all of its request or for what a sibling lacks, holds
its lease on it and the pull has not ended, a request inside the pull's chunks that starts at or
behind its paid frontier, such as the same request again, opens no second pull: it attaches to one
pull that covers all of it. -/
theorem covered_claim_attaches (h : Reachable s) {hash : Hash} {offset len total servedStart : Nat}
    {claimed v : State Hash} {claim : FillClaim} {id lease : Nat}
    (hclaim : s.claim hash offset len total servedStart = (claimed, claim))
    (hopened : claim.opened = some (id, lease)) (hrun : ReflTransGen Step claimed v)
    (hkept : v.Kept (.owner id lease))
    {offset' len' total' : Nat} (servedStart' : Nat)
    (hne : (requested offset' len' total').1 ≠ ∅)
    (hinside : (requested offset' len' total').1 ⊆ (claimed.sessions id).covered)
    (hreached : (requested offset' len' total').2 ≤ (v.sessions id).servedPaid) :
    (claim = .owner id lease → (claimed.sessions id).covered = (requested offset len total).1) ∧
    servedStart ≤ (v.sessions id).servedPaid ∧
    ∃ sibling, v.claim hash offset' len' total' servedStart' =
        (v.mintLease sibling hash, .attach sibling v.leases.length) ∧
      (requested offset' len' total').1 ⊆ (v.sessions sibling).covered := by
  have hclaimed : Reachable claimed := by
    have hstep := h.tail (.claim hash offset len total servedStart)
    rwa [hclaim] at hstep
  have hheld := claim_held s hash offset len total servedStart
  have hcases := claim_cases s hash offset len total servedStart
  rw [hclaim] at hheld hcases
  have hlease : claimed.leases[lease]? = some ⟨id, hash, true⟩ ∧
      (claimed.sessions id).servedPaid = servedStart ∧
      (claim = .owner id lease →
        (claimed.sessions id).covered = (requested offset len total).1) := by
    cases hcases with
    | attach => cases hopened
    | own =>
      cases hopened
      rw [State.openFill_sessions, if_pos rfl]
      exact ⟨hheld _ List.mem_cons_self, rfl, fun _ => rfl⟩
    | mixed =>
      cases hopened
      rw [State.mintLease_sessions, State.openFill_sessions, if_pos rfl]
      exact ⟨hheld _ List.mem_cons_self, rfl, FillClaim.noConfusion⟩
  rcases hkept _ List.mem_cons_self with ⟨harmed, hended⟩
  rcases held_alive hclaimed hlease.1 hrun harmed with ⟨hlisted, hcancelled, hsame, hpaid⟩
  have heligible : v.eligible (requested offset' len' total').2 id = true := by
    unfold State.eligible FillSession.isDead
    rw [hended, hcancelled]
    simpa using hreached
  rw [hlease.2.1] at hpaid
  refine ⟨hlease.2.2, hpaid, ?_⟩
  rcases State.plan_of_covered total' hne hlisted heligible (by rwa [hsame]) with
    ⟨sibling, hplan, hcovers⟩
  refine ⟨sibling, ?_, hcovers⟩
  unfold State.claim
  dsimp only
  rw [hplan]

end Runs

/-! ## Samples -/

/-- Two requests of one blob, each for half of it, and the second ahead of what is paid. -/
def sampleState : State Nat :=
  ((State.claim {} 7 0 32768 65536 0).1.claim 7 32768 32768 65536 32768).1

theorem sampleState_reachable : Reachable sampleState :=
  (ReflTransGen.refl.tail (.claim 7 0 32768 65536 0)).tail (.claim 7 32768 32768 65536 32768)

/-- A request for all of the blob after one for its first half: it attaches to the first pull and
opens one for the second half. -/
theorem claim_split_sample : ∃ v, (State.claim ({} : State Nat) 7 0 32768 65536 0).1.claim
      7 0 65536 65536 32768 = (v, .mixed 1 1 0 2 32768 32768) ∧
    ∀ byte, (32768 ≤ byte ∧ byte < 65536) ↔
      byte < 65536 ∧ byte / chunkBytes ∈ (v.sessions 1).covered := by
  have hfirst : Reachable (State.claim ({} : State Nat) 7 0 32768 65536 0).1 :=
    ReflTransGen.refl.tail (.claim 7 0 32768 65536 0)
  have hsplit := claim_split hfirst 7 0 65536 65536 32768 (by decide)
  generalize hclaim : (State.claim ({} : State Nat) 7 0 32768 65536 0).1.claim
    7 0 65536 65536 32768 = claimed at hsplit
  have houtcome : claimed.2 = .mixed 1 1 0 2 32768 32768 := by
    rw [← hclaim]
    decide +kernel
  rcases claimed with ⟨v, claim⟩
  dsimp only at houtcome
  subst houtcome
  exact ⟨v, rfl, hsplit.2.2.2.2.2.2.2⟩

/-- A third request for all of the blob attaches to the first pull only, and loses the second half
when the second request goes. -/
theorem promise_kept_iff_sample : Reachable sampleState ∧
    ¬ ∀ v, ReflTransGen Step (sampleState.claim 7 0 65536 65536 0).1 v →
      v.Kept (sampleState.claim 7 0 65536 65536 0).2 →
      ∀ c ∈ (requested 0 65536 65536).1, v.rangeStillLive 7 {c} = true := by
  refine ⟨sampleState_reachable, fun hall => ?_⟩
  have hheld := (promise_kept_iff sampleState_reachable 7 0 65536 65536 0).1.mp hall 32
    (by decide +kernel)
  revert hheld
  decide +kernel

/-- The pull that a mixed claim opened for the second half of a blob serves a request for it. -/
theorem covered_claim_attaches_sample : ∃ v sibling,
    (State.claim ({} : State Nat) 7 0 32768 65536 0).1.claim 7 0 65536 65536 32768 =
      (v, .mixed 1 1 0 2 32768 32768) ∧
    v.claim 7 32768 32768 65536 0 = (v.mintLease sibling 7, .attach sibling v.leases.length) := by
  have hfirst : Reachable (State.claim ({} : State Nat) 7 0 32768 65536 0).1 :=
    ReflTransGen.refl.tail (.claim 7 0 32768 65536 0)
  generalize hclaim : (State.claim ({} : State Nat) 7 0 32768 65536 0).1.claim
    7 0 65536 65536 32768 = claimed
  have houtcome : claimed.2 = .mixed 1 1 0 2 32768 32768 := by
    rw [← hclaim]
    decide +kernel
  have hlease : claimed.1.leases[1]? = some ⟨1, 7, true⟩ := by
    rw [← hclaim]
    decide +kernel
  have hended : ((claimed.1.sessions 1).ended.isNone) = true := by
    rw [← hclaim]
    decide +kernel
  have hkept : claimed.1.Kept (.owner 1 1) := by
    intro held hheld
    rcases List.mem_singleton.mp hheld with rfl
    exact ⟨⟨_, hlease, rfl⟩, Option.isNone_iff_eq_none.mp hended⟩
  have hinside : (requested 32768 32768 65536).1 ⊆ (claimed.1.sessions 1).covered := by
    rw [← hclaim]
    decide +kernel
  have hreached : (requested 32768 32768 65536).2 ≤ (claimed.1.sessions 1).servedPaid := by
    rw [← hclaim]
    decide +kernel
  rcases claimed with ⟨v, claim⟩
  dsimp only at houtcome
  subst houtcome
  rcases (covered_claim_attaches hfirst hclaim rfl .refl hkept 0 (by decide +kernel) hinside
    hreached).2.2 with ⟨sibling, hattach, -⟩
  exact ⟨v, sibling, rfl, hattach⟩

end Decdn.FillRegistry
