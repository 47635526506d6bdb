import Decdn.Foundations.Runs
import Decdn.Foundations.Waiting
import Decdn.Foundations.Words

/-!
# Claims on a provider's streams

The streams of one provider (`stream_cap.rs`): a semaphore of permits, and the claims of
the lanes that were refused one.  An ask leaves a permit for each claim ahead of it, so a
lane that keeps asking is not passed by lanes that ask later.

Main results:

- Theorem `ProviderStreams.Inv.step`: the permits stay within the cap, and no lane claims twice.
- Theorem `take_leaves_room`: an ask granted behind a claim leaves a permit for that claim.
- Theorem `waits_run`: nobody gets ahead of a lane that keeps asking.
- Theorem `claims_not_overtaken`: all of it, over every run.
-/

namespace Decdn.Client

open U64 (saturatingAdd)

/-! ## Permits and claims -/

/-- `CLAIM_TTL`, in nanoseconds. -/
def claimTtl : Nat := 3 * 1000000000

/-- `Claim`. -/
structure Claim where
  lane : Nat
  keep : Nat
  bare : Bool
  at_ : Nat
deriving DecidableEq, Repr

/-- `ProviderStreams`, with the clock and, for the proof only, the permits that are out. -/
structure ProviderStreams where
  available : Nat
  claims : List Claim := []
  now : Nat := 0
  out : Nat := 0
deriving DecidableEq, Repr

namespace ProviderStreams

/-- `ProviderStreams::new`. -/
def new (n : UInt64) : ProviderStreams where
  available := n.toNat

/-- `try_acquire_owned`. -/
def tryAcquire (s : ProviderStreams) : Option ProviderStreams :=
  if 0 < s.available then some { s with available := s.available - 1, out := s.out + 1 } else none

/-- A claim that still counts. -/
def live (s : ProviderStreams) (c : Claim) : Bool := decide (s.now - c.at_ < claimTtl)

/-- The claims that still count. -/
def liveClaims (s : ProviderStreams) : List Claim := s.claims.filter s.live

/-- The place of a lane's claim. -/
def position (lane : Nat) (claims : List Claim) : Option Nat :=
  claims.findIdx? fun c => c.lane = lane

/-- The claims ahead that an ask counts: how many, and the largest `keep` of them and its own. -/
def ahead (claims : List Claim) (own : Option Nat) (keep : Nat) (bare : Bool) : Nat × Nat :=
  ((claims.take (own.getD claims.length)).filter fun c => !bare || c.bare).foldl
    (fun (n, kept) c => (saturatingAdd n 1, max kept c.keep)) (0, keep)

/-- `take`: whether a permit is granted. -/
def take (s : ProviderStreams) (lane keep : Nat) (bare : Bool) : ProviderStreams × Bool :=
  let claims := s.liveClaims
  let own := position lane claims
  let (n, kept) := ahead claims own keep bare
  if s.available ≤ saturatingAdd n kept then
    let claim : Claim := ⟨lane, keep, bare, s.now⟩
    let claims := match own with
      | some i => claims.set i claim
      | none => claims ++ [claim]
    ({ s with claims := claims }, false)
  else
    match s.tryAcquire with
    | some s =>
      let claims := match own with
        | some i => claims.eraseIdx i
        | none => claims
      ({ s with claims := claims }, true)
    | none => ({ s with claims := claims }, false)

/-- `forget`. -/
def forget (s : ProviderStreams) (lane : Nat) : ProviderStreams :=
  { s with claims := s.claims.filter fun c => c.lane ≠ lane }

/-- A permit is dropped. -/
def release (s : ProviderStreams) : Option ProviderStreams :=
  if 0 < s.out then some { s with available := s.available + 1, out := s.out - 1 } else none

/-- What happens to the streams of a provider. -/
inductive Event where
  | take (lane keep : UInt64) (bare : Bool)
  | release
  | tryPermit
  | forget (lane : UInt64)
  | advance (elapsed : Nat)

/-- One step, if it is enabled. -/
def apply (s : ProviderStreams) : Event → Option ProviderStreams
  | .take lane keep bare => some (s.take lane.toNat keep.toNat bare).1
  | .release => s.release
  | .tryPermit => some (s.tryAcquire.getD s)
  | .forget lane => some (s.forget lane.toNat)
  | .advance elapsed => some { s with now := s.now + elapsed }

/-- One enabled step. -/
def step (s : ProviderStreams) (e : Event) (s' : ProviderStreams) : Prop := s.apply e = some s'

/-! ## What an ask does -/

variable {s s' t : ProviderStreams} {claims rest : List Claim} {lane keep : Nat} {bare : Bool}
  {a : Claim}

/-- The claims with one of them renewed in its place, or added at the end. -/
def renew (claim : Claim) : List Claim → List Claim
  | [] => [claim]
  | c :: claims => if c.lane = claim.lane then claim :: claims else c :: renew claim claims

/-- A refused ask renews the claim. -/
theorem renew_eq (claim : Claim) (claims : List Claim) :
    (match position claim.lane claims with
      | some i => claims.set i claim
      | none => claims ++ [claim]) = renew claim claims := by
  unfold position
  induction claims with
  | nil => rfl
  | cons c claims ih =>
    unfold renew
    rw [List.findIdx?_cons]
    by_cases hc : c.lane = claim.lane
    · simp [hc]
    · rw [if_neg hc, ← ih]
      cases claims.findIdx? fun c => decide (c.lane = claim.lane) with
      | none => simp [hc]
      | some i => simp [hc]

/-- A renewal keeps the places. -/
theorem lanes_renew (claim : Claim) (claims : List Claim) :
    (renew claim claims).map Claim.lane =
      if claim.lane ∈ claims.map Claim.lane then claims.map Claim.lane
      else claims.map Claim.lane ++ [claim.lane] := by
  induction claims with
  | nil => rfl
  | cons c claims ih =>
    unfold renew
    by_cases hc : c.lane = claim.lane
    · rw [if_pos hc, List.map_cons, List.map_cons, if_pos (by rw [hc]; exact List.mem_cons_self), hc]
    · rw [if_neg hc, List.map_cons, List.map_cons, ih]
      by_cases hin : claim.lane ∈ claims.map Claim.lane
      · rw [if_pos hin, if_pos (List.mem_cons_of_mem _ hin)]
      · rw [if_neg hin, if_neg, List.cons_append]
        rw [List.mem_cons, not_or]
        exact ⟨Ne.symm hc, hin⟩

/-- What an ask does: it is granted and ends its claim, it is refused and renews its claim, or it
finds the semaphore empty. -/
theorem take_cases (s : ProviderStreams) (lane keep : Nat) (bare : Bool) :
    (s.available ≤ saturatingAdd (ahead s.liveClaims (position lane s.liveClaims) keep bare).1
        (ahead s.liveClaims (position lane s.liveClaims) keep bare).2 ∧
      s.take lane keep bare =
        ({ s with claims := renew ⟨lane, keep, bare, s.now⟩ s.liveClaims }, false)) ∨
    (saturatingAdd (ahead s.liveClaims (position lane s.liveClaims) keep bare).1
        (ahead s.liveClaims (position lane s.liveClaims) keep bare).2 < s.available ∧
      s.take lane keep bare =
        ({ s with
            available := s.available - 1
            out := s.out + 1
            claims := s.liveClaims.eraseP fun c => c.lane = lane }, true)) := by
  unfold take
  dsimp only
  split
  · rename_i hfull
    refine Or.inl ⟨hfull, ?_⟩
    rw [← renew_eq]
  · rename_i hfree
    have hlt := Nat.lt_of_not_le hfree
    right
    unfold tryAcquire
    rw [if_pos (Nat.zero_lt_of_lt hlt)]
    refine ⟨hlt, ?_⟩
    dsimp only
    rw [List.eraseP_eq_eraseIdx]
    unfold position
    cases s.liveClaims.findIdx? fun c => decide (c.lane = lane) with
    | none => rfl
    | some i => rfl

/-! ## The invariant -/

/-- The permits out and the free ones are those of the cap, and no lane claims twice. -/
structure Inv (n : Nat) (s : ProviderStreams) : Prop where
  total : s.out + s.available = n
  nodup : (s.claims.map Claim.lane).Nodup

variable {n : Nat}

/-- The lanes with a claim that counts. -/
def lanes (s : ProviderStreams) : List Nat := s.liveClaims.map Claim.lane

/-- The lanes that claim stay apart when some claims end. -/
theorem Inv.lanes_nodup (h : Inv n s) : s.lanes.Nodup :=
  h.nodup.sublist (List.filter_sublist.map _)

/-- Renewing a claim adds no second one. -/
theorem nodup_renew (claim : Claim) (h : (claims.map Claim.lane).Nodup) :
    ((renew claim claims).map Claim.lane).Nodup := by
  rw [lanes_renew]
  split
  · exact h
  · rename_i hout
    refine List.nodup_append.mpr ⟨h, List.nodup_singleton _, ?_⟩
    intro x hx y hy
    rw [List.mem_singleton.mp hy]
    exact fun hxy => hout (hxy ▸ hx)

/-- An ask keeps the invariant. -/
theorem Inv.take (h : Inv n s) (lane keep : Nat) (bare : Bool) :
    Inv n (s.take lane keep bare).1 := by
  have htotal := h.total
  rcases s.take_cases lane keep bare with ⟨-, heq⟩ | ⟨hfree, heq⟩
  · rw [heq]
    exact ⟨htotal, nodup_renew _ h.lanes_nodup⟩
  · rw [heq]
    refine ⟨?_, h.lanes_nodup.sublist (List.eraseP_sublist.map _)⟩
    dsimp only
    omega

/-- Every step keeps the invariant. -/
theorem Inv.step {e : Event} (h : Inv n s) (hstep : s.step e s') : Inv n s' := by
  unfold ProviderStreams.step at hstep
  have htotal := h.total
  cases e with
  | take lane keep bare =>
    cases hstep
    exact h.take lane.toNat keep.toNat bare
  | release =>
    simp only [ProviderStreams.apply, ProviderStreams.release] at hstep
    split at hstep
    · cases hstep
      refine ⟨?_, h.nodup⟩
      dsimp only
      omega
    · cases hstep
  | tryPermit =>
    simp only [ProviderStreams.apply, tryAcquire] at hstep
    split at hstep
    · cases hstep
      refine ⟨?_, h.nodup⟩
      dsimp only [Option.getD_some]
      omega
    · cases hstep
      exact h
  | forget lane =>
    cases hstep
    exact ⟨htotal, h.nodup.sublist (List.filter_sublist.map _)⟩
  | advance elapsed =>
    cases hstep
    exact ⟨htotal, h.nodup⟩

/-! ## Asks behind a claim -/

/-- The claims ahead of a lane's own: all of them, when it has none. -/
def claimsAhead (s : ProviderStreams) (lane : Nat) : List Claim :=
  s.liveClaims.takeWhile fun c => c.lane ≠ lane

/-- Their lanes are those that wait before it. -/
theorem lanes_claimsAhead (s : ProviderStreams) (lane : Nat) :
    (s.claimsAhead lane).map Claim.lane = before lane s.lanes := by
  unfold claimsAhead lanes before
  rw [List.takeWhile_map]
  rfl

/-- The claims an ask counts are those ahead of its own. -/
theorem take_position (lane : Nat) (claims : List Claim) :
    claims.take ((position lane claims).getD claims.length) =
      claims.takeWhile fun c => c.lane ≠ lane := by
  unfold position
  rw [← List.findIdx_eq_getD_findIdx?, List.takeWhile_eq_take_findIdx_not]
  simp

/-- The walk over the claims counts them and takes the largest `keep`. -/
theorem foldl_ahead (claims : List Claim) {n kept : Nat} (hn : n ≤ u64Max) :
    (claims.foldl (fun (n, kept) c => (saturatingAdd n 1, max kept c.keep)) (n, kept)).1 =
        min (n + claims.length) u64Max ∧
      ∀ m, (claims.foldl (fun (n, kept) c => (saturatingAdd n 1, max kept c.keep)) (n, kept)).2 ≤ m ↔
        kept ≤ m ∧ ∀ c ∈ claims, c.keep ≤ m := by
  induction claims generalizing n kept with
  | nil => exact ⟨(Nat.min_eq_left hn).symm, fun m => by simp⟩
  | cons c claims ih =>
    have hnext : saturatingAdd n 1 ≤ u64Max := Nat.min_le_right _ _
    rcases @ih (saturatingAdd n 1) (max kept c.keep) hnext with ⟨hcount, hkept⟩
    rw [List.foldl_cons]
    constructor
    · rw [hcount, List.length_cons]
      unfold saturatingAdd
      omega
    · intro m
      rw [hkept, max_le_iff, List.forall_mem_cons, and_assoc]

/-- The claims of a lane's `ask` that hold a permit back. -/
def counted (s : ProviderStreams) (lane : Nat) (bare : Bool) : List Claim :=
  (s.claimsAhead lane).filter fun c => !bare || c.bare

/-- What an ask counts: those claims, and the largest `keep` of them and its own. -/
theorem ahead_eq (s : ProviderStreams) (lane keep : Nat) (bare : Bool) :
    ∃ kept, ahead s.liveClaims (position lane s.liveClaims) keep bare =
        (min (s.counted lane bare).length u64Max, kept) ∧
      ∀ m, kept ≤ m ↔ keep ≤ m ∧ ∀ c ∈ s.counted lane bare, c.keep ≤ m := by
  unfold ahead
  rw [take_position]
  rcases @foldl_ahead (s.counted lane bare) 0 keep (Nat.zero_le u64Max) with ⟨hcount, hkept⟩
  rw [Nat.zero_add] at hcount
  exact ⟨_, Prod.ext hcount rfl, hkept⟩

/-- A word below a saturated sum is below the sum. -/
theorem saturated_lt {count kept available : Nat} (hmax : available ≤ u64Max) :
    saturatingAdd (min count u64Max) kept < available ↔ count + kept < available := by
  unfold saturatingAdd
  omega

/-- An ask is granted exactly if the free permits are more than the claims it counts and what is
kept after them. -/
theorem take_granted_iff (h : Inv n s) (hn : n ≤ u64Max) :
    (s.take lane keep bare).2 = true ↔
      ∃ kept, keep ≤ kept ∧ (∀ c ∈ s.counted lane bare, c.keep ≤ kept) ∧
        (s.counted lane bare).length + kept < s.available := by
  have hmax : s.available ≤ u64Max := Nat.le_trans (h.total ▸ Nat.le_add_left _ _) hn
  rcases s.ahead_eq lane keep bare with ⟨least, hahead, hleast⟩
  rcases hleast least |>.mp (Nat.le_refl _) with ⟨hown, hall⟩
  rcases s.take_cases lane keep bare with ⟨hfull, heq⟩ | ⟨hfree, heq⟩
  · rw [hahead, ← Nat.not_lt, saturated_lt hmax] at hfull
    rw [heq]
    refine iff_of_false Bool.false_ne_true ?_
    rintro ⟨kept, hkeep, hkept, hlt⟩
    have hle := (hleast kept).mpr ⟨hkeep, hkept⟩
    omega
  · rw [hahead, saturated_lt hmax] at hfree
    rw [heq]
    exact iff_of_true rfl ⟨least, hown, hall, hfree⟩

/-- What a granted ask leaves. -/
theorem take_granted (h : (s.take lane keep bare).2 = true) :
    (s.take lane keep bare).1 = { s with
      available := s.available - 1
      out := s.out + 1
      claims := s.liveClaims.eraseP fun c => c.lane = lane } := by
  rcases s.take_cases lane keep bare with ⟨-, heq⟩ | ⟨-, heq⟩
  · rw [heq] at h
    cases h
  · rw [heq]

/-- A claim that counts stays, with those ahead of it, when the claims behind it change. -/
theorem claimsAhead_split {pre post : List Claim} (hsplit : s.liveClaims = pre ++ a :: post)
    (hnodup : s.lanes.Nodup) : s.claimsAhead a.lane = pre := by
  unfold claimsAhead
  unfold lanes at hnodup
  rw [hsplit] at hnodup ⊢
  rw [List.map_append, List.map_cons] at hnodup
  have hout : ∀ c ∈ pre, c.lane ≠ a.lane := by
    intro c hc heq
    exact (List.nodup_append.mp hnodup).2.2 _ (List.mem_map_of_mem hc) _ List.mem_cons_self heq
  rw [List.takeWhile_append_of_pos fun c hc => by simpa using hout c hc]
  simp

/-- The claims that count after a granted ask. -/
theorem liveClaims_granted (h : (s.take lane keep bare).2 = true) :
    (s.take lane keep bare).1.liveClaims = s.liveClaims.eraseP fun c => c.lane = lane := by
  rw [take_granted h]
  refine List.filter_eq_self.mpr fun c hc => ?_
  exact List.of_mem_filter (List.eraseP_sublist.subset hc)

/-- Among the claims ahead of a lane, one splits them. -/
theorem split_of_ahead (ha : a ∈ s.claimsAhead lane) :
    ∃ pre mid post, s.claimsAhead lane = pre ++ a :: mid ∧
      s.liveClaims = pre ++ a :: (mid ++ post) ∧ ∀ c ∈ pre ++ a :: mid, c.lane ≠ lane := by
  rcases List.append_of_mem ha with ⟨pre, mid, hsplit⟩
  refine ⟨pre, mid, s.liveClaims.dropWhile fun c => c.lane ≠ lane, hsplit, ?_, ?_⟩
  · rw [← List.cons_append, ← List.append_assoc, ← hsplit]
    exact (List.takeWhile_append_dropWhile).symm
  · intro c hc
    rw [← hsplit] at hc
    simpa using List.mem_takeWhile_imp hc

/-- An ask granted behind a claim that counts for it leaves a permit for that claim. -/
theorem take_leaves_room (h : Inv n s) (hn : n ≤ u64Max) (ha : a ∈ s.claimsAhead lane)
    (hcounts : bare = true → a.bare = true) (hgranted : (s.take lane keep bare).2 = true) :
    ((s.take lane keep bare).1.take a.lane a.keep a.bare).2 = true := by
  rcases split_of_ahead ha with ⟨pre, mid, post, hahead, hlive, hother⟩
  rcases (take_granted_iff h hn).mp hgranted with ⟨kept, -, hkept, hlt⟩
  have hrest : (s.take lane keep bare).1.liveClaims =
      pre ++ a :: (mid ++ post.eraseP fun c => c.lane = lane) := by
    rw [liveClaims_granted hgranted, hlive, ← List.cons_append, ← List.append_assoc,
      List.eraseP_append_right _ fun c hc => by simpa using hother c hc, List.append_assoc,
      List.cons_append]
  have hnext := h.take lane keep bare
  -- The claim's own ask counts only claims that the granted ask counted, and not itself.
  have hmine : ((s.take lane keep bare).1.counted a.lane a.bare).Sublist
      (pre.filter fun c => !bare || c.bare) := by
    unfold counted
    rw [claimsAhead_split hrest hnext.lanes_nodup]
    refine List.monotone_filter_right pre fun c hc => ?_
    cases hbare : bare with
    | false => rfl
    | true =>
      rw [hcounts hbare] at hc
      exact hc
  have htheirs : s.counted lane bare =
      (pre.filter fun c => !bare || c.bare) ++ a :: (mid.filter fun c => !bare || c.bare) := by
    have hcounted : (!bare || a.bare) = true := by
      cases hbare : bare with
      | false => rfl
      | true => exact hcounts hbare
    unfold counted
    rw [hahead, List.filter_append]
    exact congrArg _ (List.filter_cons_of_pos hcounted)
  have havailable : (s.take lane keep bare).1.available = s.available - 1 :=
    congrArg available (take_granted hgranted)
  refine (take_granted_iff hnext hn).mpr ⟨kept, ?_, ?_, ?_⟩
  · apply hkept
    rw [htheirs]
    exact List.mem_append_right _ List.mem_cons_self
  · intro c hc
    apply hkept
    rw [htheirs]
    exact List.mem_append_left _ (hmine.subset hc)
  · have hlength := hmine.length_le
    rw [htheirs, List.length_append, List.length_cons] at hlt
    rw [havailable]
    omega

/-! ## A lane that keeps asking -/

/-- The lane keeps its claim: its asks are refused, it does not give up, and it asks again before
its claim expires. -/
def Keeps (lane : Nat) (s : ProviderStreams) : Event → Prop
  | .take lane' keep bare => lane'.toNat = lane → (s.take lane keep.toNat bare).2 = false
  | .forget lane' => lane'.toNat ≠ lane
  | .advance elapsed => ∀ c ∈ s.liveClaims, c.lane = lane → s.now + elapsed - c.at_ < claimTtl
  | .release => True
  | .tryPermit => True

/-- A renewal leaves the other claims. -/
theorem mem_renew {claim c : Claim} (h : c ∈ renew claim claims) : c = claim ∨ c ∈ claims := by
  induction claims with
  | nil => exact Or.inl (List.mem_singleton.mp h)
  | cons d claims ih =>
    unfold renew at h
    split at h
    · exact (List.mem_cons.mp h).imp_right (List.mem_cons_of_mem _)
    · rcases List.mem_cons.mp h with rfl | h
      · exact Or.inr List.mem_cons_self
      · exact (ih h).imp_right (List.mem_cons_of_mem _)

/-- A refused ask keeps its lane's place, or gives it the last one. -/
theorem lanes_refused (h : (s.take lane keep bare).2 = false) :
    (s.take lane keep bare).1.lanes =
      if lane ∈ s.lanes then s.lanes else s.lanes ++ [lane] := by
  rcases s.take_cases lane keep bare with ⟨-, heq⟩ | ⟨-, heq⟩
  · rw [heq]
    have hlive : (renew ⟨lane, keep, bare, s.now⟩ s.liveClaims).filter s.live =
        renew ⟨lane, keep, bare, s.now⟩ s.liveClaims := by
      refine List.filter_eq_self.mpr fun c hc => ?_
      rcases mem_renew hc with rfl | hc
      · unfold live
        rw [Nat.sub_self]
        exact decide_eq_true (by unfold claimTtl; omega)
      · exact List.of_mem_filter hc
    exact (congrArg (List.map Claim.lane) hlive).trans (lanes_renew _ _)
  · rw [heq] at h
    cases h

/-- A granted ask ends its own claim only. -/
theorem lanes_granted {other : Nat} (h : (s.take lane keep bare).2 = true) (hne : other ≠ lane)
    (hin : other ∈ s.lanes) :
    (s.take lane keep bare).1.lanes.Sublist s.lanes ∧
      other ∈ (s.take lane keep bare).1.lanes := by
  unfold lanes
  rw [liveClaims_granted h]
  refine ⟨List.eraseP_sublist.map _, ?_⟩
  rcases List.mem_map.mp hin with ⟨c, hc, rfl⟩
  exact List.mem_map_of_mem ((List.mem_eraseP_of_neg (by simpa using hne)).mpr hc)

/-- Nobody gets ahead of a lane that keeps its claim. -/
theorem waits_step {e : Event} (h : Inv n s) (hlane : lane ∈ s.lanes) (hkeeps : Keeps lane s e)
    (hstep : s.step e s') :
    lane ∈ s'.lanes ∧ (before lane s'.lanes).Sublist (before lane s.lanes) := by
  have hsub : ∀ t : ProviderStreams, t.lanes.Sublist s.lanes → lane ∈ t.lanes →
      lane ∈ t.lanes ∧ (before lane t.lanes).Sublist (before lane s.lanes) :=
    fun t ht hin => ⟨hin, before_sublist ht h.lanes_nodup hin⟩
  unfold ProviderStreams.step at hstep
  cases e with
  | take lane' keep bare =>
    cases hstep
    cases hresult : (s.take lane'.toNat keep.toNat bare).2 with
    | true =>
      have hne : lane ≠ lane'.toNat := by
        rintro rfl
        rw [hkeeps rfl] at hresult
        cases hresult
      rcases lanes_granted hresult hne hlane with ⟨hless, hin⟩
      exact hsub _ hless hin
    | false =>
      rw [lanes_refused hresult]
      split
      · exact ⟨hlane, List.Sublist.refl _⟩
      · rw [before_append hlane]
        exact ⟨List.mem_append_left _ hlane, List.Sublist.refl _⟩
  | release =>
    simp only [ProviderStreams.apply, ProviderStreams.release] at hstep
    split at hstep
    · cases hstep
      exact hsub _ (List.Sublist.refl _) hlane
    · cases hstep
  | tryPermit =>
    simp only [ProviderStreams.apply, tryAcquire] at hstep
    split at hstep
    · cases hstep
      exact hsub _ (List.Sublist.refl _) hlane
    · cases hstep
      exact hsub _ (List.Sublist.refl _) hlane
  | forget lane' =>
    cases hstep
    refine hsub _ ((List.filter_sublist.filter _).map _) ?_
    rcases List.mem_map.mp hlane with ⟨c, hc, rfl⟩
    refine List.mem_map_of_mem (List.mem_filter.mpr ⟨List.mem_filter.mpr
      ⟨(List.mem_filter.mp hc).1, ?_⟩, (List.mem_filter.mp hc).2⟩)
    simpa using Ne.symm hkeeps
  | advance elapsed =>
    cases hstep
    refine hsub _ (List.Sublist.map _ (List.monotone_filter_right s.claims fun c hc => ?_)) ?_
    · unfold live at hc ⊢
      have hlater := of_decide_eq_true hc
      dsimp only at hlater
      exact decide_eq_true (by omega)
    · rcases List.mem_map.mp hlane with ⟨c, hc, heq⟩
      rw [← heq]
      refine List.mem_map_of_mem (List.mem_filter.mpr ⟨(List.mem_filter.mp hc).1, ?_⟩)
      exact decide_eq_true (hkeeps c hc heq)

/-- Nobody gets ahead of a lane over a run in which it keeps its claim. -/
theorem waits_run (h : Inv n s) (hlane : lane ∈ s.lanes)
    (hrun : Reaches ProviderStreams.step (Keeps lane) s t) :
    lane ∈ t.lanes ∧ (before lane t.lanes).Sublist (before lane s.lanes) := by
  have hall : Inv n t ∧ lane ∈ t.lanes ∧ (before lane t.lanes).Sublist (before lane s.lanes) := by
    refine hrun.invariant (I := fun u => Inv n u ∧ lane ∈ u.lanes ∧
      (before lane u.lanes).Sublist (before lane s.lanes)) ⟨h, hlane, List.Sublist.refl _⟩ ?_
    rintro u e v hkeeps hstep ⟨hinv, hin, hbefore⟩
    rcases waits_step hinv hin hkeeps hstep with ⟨hin', hbefore'⟩
    exact ⟨hinv.step hstep, hin', hbefore'.trans hbefore⟩
  exact hall.2

/-- A claim stands ahead of every other lane that does not stand ahead of it. -/
theorem mem_claimsAhead {asker : Nat} (h : Inv n s) (ha : a ∈ s.liveClaims)
    (hout : asker ∉ before a.lane s.lanes) (hne : asker ≠ a.lane) : a ∈ s.claimsAhead asker := by
  rcases List.append_of_mem ha with ⟨pre, post, hsplit⟩
  rw [← lanes_claimsAhead, claimsAhead_split hsplit h.lanes_nodup] at hout
  unfold claimsAhead
  rw [hsplit, List.takeWhile_append_of_pos]
  · refine List.mem_append_right _ ?_
    rw [List.takeWhile_cons_of_pos (by simpa using Ne.symm hne)]
    exact List.mem_cons_self
  · intro c hc
    simpa using fun heq : c.lane = asker => hout (heq ▸ List.mem_map_of_mem hc)

/-- The runs from a cap of `n`. -/
theorem inv_of_reaches {n : UInt64} (hrun : Reaches ProviderStreams.step (fun _ _ => True)
    (new n) s) : Inv n.toNat s :=
  hrun.invariant (I := Inv n.toNat) ⟨Nat.zero_add _, List.nodup_nil⟩
    fun _ _ _ _ hstep h => h.step hstep

/-- Over every run of asks, permit releases, withdrawn claims and clock advances: the permits out
stay within the cap, a lane has at most one claim and keeps its place when it is renewed, an ask
granted behind a claim that counts for it leaves that claim its permit, and a lane that keeps
asking is passed only by those that stood ahead of it all along. -/
theorem claims_not_overtaken {n : UInt64} (hrun : Reaches ProviderStreams.step (fun _ _ => True)
    (new n) s) :
    s.out ≤ n.toNat ∧ (s.claims.map Claim.lane).Nodup ∧
      (∀ lane keep bare, (s.take lane keep bare).2 = false →
        (s.take lane keep bare).1.lanes =
          if lane ∈ s.lanes then s.lanes else s.lanes ++ [lane]) ∧
      (∀ lane keep bare, (s.take lane keep bare).2 = true →
        ∀ a ∈ s.claimsAhead lane, (bare = true → a.bare = true) →
          ((s.take lane keep bare).1.take a.lane a.keep a.bare).2 = true) ∧
      ∀ lane ∈ s.lanes, ∀ t, Reaches ProviderStreams.step (Keeps lane) s t →
        lane ∈ t.lanes ∧ (before lane t.lanes).Sublist (before lane s.lanes) ∧
          ∀ asker keep bare, asker ∉ before lane s.lanes → asker ≠ lane →
            (t.take asker keep bare).2 = true →
              ∀ a ∈ t.liveClaims, a.lane = lane → (bare = true → a.bare = true) →
                ((t.take asker keep bare).1.take lane a.keep a.bare).2 = true := by
  have h := inv_of_reaches hrun
  have hn := toNat_le_u64Max n
  refine ⟨h.total ▸ Nat.le_add_right _ _, h.nodup, fun _ _ _ => lanes_refused, ?_, ?_⟩
  · intro lane keep bare hgranted a ha hcounts
    exact take_leaves_room h hn ha hcounts hgranted
  · intro lane hlane t hkeeps
    have hend : Inv n.toNat t := inv_of_reaches (hrun.trans (hkeeps.weaken fun _ _ _ => trivial))
    rcases waits_run h hlane hkeeps with ⟨hin, hbefore⟩
    refine ⟨hin, hbefore, ?_⟩
    rintro asker keep bare hout hne hgranted a ha rfl hcounts
    exact take_leaves_room hend hn
      (mem_claimsAhead hend ha (fun hlater => hout (hbefore.subset hlater)) hne) hcounts hgranted

/-- Two permits, three lanes: the third lane's claim stands while the first two hold the permits,
and is served when one of them is given back. -/
theorem claims_not_overtaken_sample :
    ∃ s, Reaches ProviderStreams.step (fun _ _ => True) (new 2) s ∧ 3 ∈ s.lanes ∧
      s.out ≤ (2 : UInt64).toNat ∧ (s.take 4 0 false).2 = false := by
  have hrun : Reaches ProviderStreams.step (fun _ _ => True) (new 2)
      { available := 1, claims := [⟨3, 0, false, 0⟩], now := 0, out := 1 } := by
    have hevents : runEvents ProviderStreams.apply (fun _ _ => true) (new 2)
        [.take 1 0 true, .take 2 0 true, .take 3 0 false, .release] = some
          { available := 1, claims := [⟨3, 0, false, 0⟩], now := 0, out := 1 } := by
      decide
    exact Reaches.of_runEvents (fun _ _ _ => trivial) hevents
  exact ⟨_, hrun, by decide, (claims_not_overtaken hrun).1, by decide⟩

end ProviderStreams

end Decdn.Client
