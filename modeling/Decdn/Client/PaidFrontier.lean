import Decdn.BaoRange.WireSize

/-!
# The content a paid wire prefix covers

How a payer maps the wire bytes it paid for back to content
(`content_paid_frontier` of `sink.rs`).  The wire cost of a range grows with its
end, so a binary search over the group boundaries finds the last one whose range
was paid for in full.

Main results:

- Theorem `wireTo_boundary`: the wire cost of whole groups.
- Theorem `searchFrontier_spec`: the search stops at the last boundary that fits.
- Theorem `content_paid_frontier_inverse`: the frontier is the last boundary paid
  for, and the paid position is less than one group further.
-/

namespace Decdn.Client

open BinTree BaoRange
open U64 (saturatingAdd)

/-! ## The search -/

/-- The wire cost of the content up to `c`. -/
def wireTo (walked : Nat → ChunkRanges → Nat) (fetchStart totalBytes c : Nat) : Nat :=
  if c ≤ fetchStart then 0
  else
    match alignRange fetchStart (c - fetchStart) totalBytes with
    | .ok r => baoEncodedSize walked totalBytes r.chunkRanges
    | .error _ => u64Max

/-- The candidate frontiers: the group boundaries, and the end of the blob. -/
def candidate (fetchStart totalBytes k : Nat) : Nat :=
  min (saturatingAdd (saturatingMul k chunkGroupBytes) fetchStart) totalBytes

/-- The search loop, for at most `fuel` rounds. -/
def searchFrontier (fits : Nat → Bool) : Nat → Nat → Nat → Nat → Option Nat
  | 0, _, _, _ => none
  | fuel + 1, lo, hi, best =>
    if lo ≤ hi then
      let mid := saturatingAdd lo ((hi - lo) / 2)
      if fits mid then searchFrontier fits fuel (saturatingAdd mid 1) hi mid
      else if mid = 0 then some best
      else searchFrontier fits fuel lo (mid - 1) best
    else some best

/-- `content_paid_frontier`, given rounds for its search. -/
def contentPaidFrontier (walked : Nat → ChunkRanges → Nat)
    (fuel fetchStart totalBytes paidWire : Nat) : Option Nat :=
  let span := totalBytes - fetchStart
  if paidWire = 0 ∨ span = 0 then some (min fetchStart totalBytes)
  else
    let kMax := divCeil span chunkGroupBytes
    let fits k := decide (wireTo walked fetchStart totalBytes (candidate fetchStart totalBytes k) ≤
      paidWire)
    (searchFrontier fits fuel 0 kMax 0).map (candidate fetchStart totalBytes)

/-- The search stops at the last number that fits. -/
theorem searchFrontier_spec {fits : Nat → Bool} {kMax : Nat} (hmax : kMax < u64Max)
    (hmono : ∀ i j, i ≤ j → j ≤ kMax → fits j = true → fits i = true) (hzero : fits 0 = true)
    (fuel lo : Nat) {hi best : Nat} (hfuel : hi + 1 < fuel + lo) (hhi : hi ≤ kMax) (hlo : lo ≤ hi + 1)
    (hbest : (lo = 0 ∧ best = 0) ∨ (lo = best + 1 ∧ fits best = true))
    (habove : ∀ k, hi < k → k ≤ kMax → fits k = false) :
    ∃ m, searchFrontier fits fuel lo hi best = some m ∧ m ≤ kMax ∧ fits m = true ∧
      ∀ k, m < k → k ≤ kMax → fits k = false := by
  induction fuel generalizing lo hi best with
  | zero => omega
  | succ fuel ih =>
    unfold searchFrontier
    by_cases hopen : lo ≤ hi
    · have hmid : saturatingAdd lo ((hi - lo) / 2) = lo + (hi - lo) / 2 :=
        Nat.min_eq_left (by omega)
      have hbounds : lo ≤ lo + (hi - lo) / 2 ∧ lo + (hi - lo) / 2 ≤ hi := by omega
      rw [if_pos hopen]
      dsimp only
      rw [hmid]
      generalize lo + (hi - lo) / 2 = mid at hbounds
      have hnext : saturatingAdd mid 1 = mid + 1 := Nat.min_eq_left (by omega)
      rw [hnext]
      split
      · rename_i hfits
        exact ih _ (by omega) hhi (by omega) (.inr ⟨rfl, hfits⟩) habove
      · rename_i hover
        split
        · rename_i hnone
          rw [hnone] at hover
          exact absurd hzero hover
        · refine ih _ (by omega) (by omega) (by omega) hbest fun k hk hkMax => ?_
          -- what is at or above the middle does not fit, since the middle does not
          by_contra hfits
          rw [Bool.not_eq_false] at hfits
          exact hover (hmono mid k (by omega) hkMax hfits)
    · rw [if_neg hopen]
      rcases hbest with ⟨rfl, -⟩ | ⟨rfl, hfits⟩
      · omega
      · exact ⟨best, rfl, by omega, hfits, fun k hk => habove k (by omega)⟩

/-! ## The frontier -/

variable {total paid a c : Nat}

/-- A start inside the blob is the boundary of one of its groups. -/
theorem start_of_lt (h : a * chunkGroupBytes < total) :
    a < groupCount total ∧ boundary total a = a * chunkGroupBytes := by
  unfold groupCount divCeil boundary
  unfold chunkGroupBytes at *
  omega

/-- The wire cost of whole groups, capped at the 64-bit bound. -/
theorem wireTo_boundary (walked : Nat → ChunkRanges → Nat) (htotal : 0 < total)
    (hfits : total ≤ u64Max) (ha : a * chunkGroupBytes < total) (hac : a ≤ c) (hc : c ≤ groupCount total) :
    wireTo walked (a * chunkGroupBytes) total (boundary total c) =
      min (wireSize total a c) u64Max := by
  rcases start_of_lt ha with ⟨hgroup, hstart⟩
  unfold wireTo
  rw [← hstart]
  rcases Nat.eq_or_lt_of_le hac with rfl | hlt
  · have hempty : wireSize total a a = 0 := by
      unfold wireSize encoded
      rw [if_neg (Nat.lt_irrefl a)]
      rfl
    rw [if_pos (Nat.le_refl _), hempty]
    rfl
  · have hbelow := boundary_lt hlt hgroup
    rcases alignRange_boundaries hfits hlt hc with ⟨r, halign, hcovers⟩
    rw [if_neg (Nat.not_le_of_lt hbelow), halign]
    exact baoEncodedSize_eq htotal hfits hcovers walked

/-- The candidates are the boundaries from the start on. -/
theorem candidate_eq (hfits : total ≤ u64Max) (k : Nat) :
    candidate (a * chunkGroupBytes) total k = boundary total (a + k) := by
  unfold candidate saturatingAdd saturatingMul boundary
  rw [Nat.add_mul]
  omega

/-- There is a candidate for each group from the start on. -/
theorem candidates_eq (ha : a * chunkGroupBytes < total) :
    divCeil (total - a * chunkGroupBytes) chunkGroupBytes = groupCount total - a := by
  unfold groupCount divCeil
  unfold chunkGroupBytes at *
  omega

/-- A longer range costs no less. -/
theorem wireSize_mono {d : Nat} (htotal : 0 < total) (hac : a ≤ c) (hcd : c ≤ d)
    (hd : d ≤ groupCount total) : wireSize total a c ≤ wireSize total a d :=
  (Nat.le_add_right _ _).trans (wireSize_add_le htotal hac hcd hd)

/-- The frontier is the last boundary whose capped wire cost is paid. -/
theorem contentPaidFrontier_spec (walked : Nat → ChunkRanges → Nat) (htotal : 0 < total)
    (hfits : total ≤ u64Max) (ha : a * chunkGroupBytes < total) (paid : Nat) :
    ∃ c, a ≤ c ∧ c ≤ groupCount total ∧
      (∀ fuel, groupCount total - a + 1 < fuel →
        contentPaidFrontier walked fuel (a * chunkGroupBytes) total paid =
          some (boundary total c)) ∧
      min (wireSize total a c) u64Max ≤ paid ∧
      ∀ d, c < d → d ≤ groupCount total → paid < min (wireSize total a d) u64Max := by
  rcases start_of_lt ha with ⟨hgroup, hstart⟩
  have hempty : wireSize total a a = 0 := by
    unfold wireSize encoded
    rw [if_neg (Nat.lt_irrefl a)]
    rfl
  by_cases hnone : paid = 0
  · refine ⟨a, Nat.le_refl a, Nat.le_of_lt hgroup, fun fuel _ => ?_, ?_, fun d had hd => ?_⟩
    · unfold contentPaidFrontier
      dsimp only
      rw [if_pos (.inl hnone), ← hstart]
      exact congrArg some (Nat.min_eq_left (Nat.min_le_right _ _))
    · rw [hempty]
      exact Nat.zero_le _
    · have hgrows := wireSize_strictMono htotal (Nat.le_refl a) had hd
      unfold u64Max
      omega
  · have hfitsEq : ∀ k, k ≤ groupCount total - a →
        (decide (wireTo walked (a * chunkGroupBytes) total
          (candidate (a * chunkGroupBytes) total k) ≤ paid) = true ↔
            min (wireSize total a (a + k)) u64Max ≤ paid) := by
      intro k hk
      rw [candidate_eq hfits, wireTo_boundary walked htotal hfits ha (Nat.le_add_right a k) (by omega),
        decide_eq_true_eq]
    have hmax : groupCount total - a < u64Max := by
      unfold groupCount divCeil chunkGroupBytes
      unfold u64Max at *
      omega
    have hmono : ∀ i j, i ≤ j → j ≤ groupCount total - a →
        decide (wireTo walked (a * chunkGroupBytes) total
          (candidate (a * chunkGroupBytes) total j) ≤ paid) = true →
        decide (wireTo walked (a * chunkGroupBytes) total
          (candidate (a * chunkGroupBytes) total i) ≤ paid) = true := by
      intro i j hij hj hfit
      rw [hfitsEq i (hij.trans hj)]
      have hcost := wireSize_mono htotal (Nat.le_add_right a i) (Nat.add_le_add_left hij a)
        (show a + j ≤ groupCount total by omega)
      exact (min_le_min hcost (Nat.le_refl _)).trans ((hfitsEq j hj).mp hfit)
    have hzero : decide (wireTo walked (a * chunkGroupBytes) total
        (candidate (a * chunkGroupBytes) total 0) ≤ paid) = true := by
      rw [hfitsEq 0 (Nat.zero_le _), Nat.add_zero, hempty]
      exact Nat.zero_le _
    have hsearch := fun fuel (hfuel : groupCount total - a + 1 < fuel) =>
      searchFrontier_spec hmax hmono hzero fuel 0 (by omega) (Nat.le_refl _) (Nat.zero_le _)
        (.inl ⟨rfl, rfl⟩) fun k hk hkMax => by omega
    rcases hsearch _ (Nat.lt_succ_self _) with ⟨m, -, hm, hfit, habove⟩
    refine ⟨a + m, Nat.le_add_right a m, by omega, fun fuel hfuel => ?_, (hfitsEq m hm).mp hfit,
      fun d hd hdn => ?_⟩
    · -- the last number that fits is the same for any rounds that suffice
      rcases hsearch fuel hfuel with ⟨m', hsome, hm', hfit', habove'⟩
      have hsame : m' = m := by
        rcases Nat.lt_trichotomy m' m with hlt | heq | hlt
        · rw [habove' m hlt hm] at hfit
          cases hfit
        · exact heq
        · rw [habove m' hlt hm'] at hfit'
          cases hfit'
      unfold contentPaidFrontier
      dsimp only
      rw [if_neg (by omega), candidates_eq ha, hsome, Option.map_some, candidate_eq hfits, hsame]
    · have hover := habove (d - a) (by omega) (by omega)
      have hiff := hfitsEq (d - a) (by omega)
      rw [hover, Nat.add_sub_cancel' (by omega)] at hiff
      by_contra hle
      exact Bool.false_ne_true (hiff.mpr (Nat.le_of_not_lt hle))

/-! ## The paid position -/

/-- How far the content reaches that is within the first `paid` bytes of the stream from group
`a` to the end of the blob. -/
def paidPosition (total a paid : Nat) : Nat :=
  boundary total a +
    leafWithin parentWireBytes (groupBytes total) paid (encoded total a (groupCount total))

/-- The data of a range of groups. -/
theorem sum_groupBytes (hac : a ≤ c) :
    ((List.range' a (c - a)).map (groupBytes total)).sum = boundary total c - boundary total a := by
  have hsum := (sum_leaves (boundary total) boundary_succ a (c - a)).1
  rwa [Nat.add_sub_cancel' hac] at hsum

/-- Content that is paid for is within the paid position. -/
theorem boundary_le_paidPosition (htotal : 0 < total) (hac : a ≤ c) (hc : c ≤ groupCount total)
    (hpaid : wireSize total a c ≤ paid) : boundary total c ≤ paidPosition total a paid := by
  have hprefix : encoded total a c <+: encoded total a (groupCount total) := encoded_prefix hc
  rcases hprefix with ⟨rest, hrest⟩
  have hwithin := leafWithin_of_le hpaid
  rw [delivered_groups htotal hc, sum_groupBytes hac] at hwithin
  have hmono : boundary total a ≤ boundary total c := boundary_mono hac
  unfold paidPosition
  rw [← hrest, leafWithin_append, hwithin]
  omega

/-- Content of a group that is not paid for in full is not within the paid position in full. -/
theorem paidPosition_lt (htotal : 0 < total) (hac : a ≤ c) (hc : c < groupCount total)
    (hpaid : paid < wireSize total a (c + 1)) :
    paidPosition total a paid < boundary total (c + 1) := by
  have hprefix : encoded total a (c + 1) <+: encoded total a (groupCount total) :=
    encoded_prefix hc
  rcases hprefix with ⟨rest, hrest⟩
  have hsize := size_leftFull (groupCount_pos htotal)
  have hlast : (encoded total a (c + 1)).getLast? = some (.leaf c) := by
    unfold encoded
    rw [if_pos (by omega)]
    exact getLast_walk (by omega) (by omega) (by rw [hsize]; omega) (by rw [hsize]; omega)
  rcases List.getLast?_eq_some_iff.mp hlast with ⟨front, hfront⟩
  have hleaves := delivered_groups (a := a) htotal (Nat.succ_le_of_lt hc)
  have hleaf : (Piece.leaf c).leaf? = some c := rfl
  rw [hfront, List.filterMap_append, List.filterMap_cons_some hleaf, List.filterMap_nil] at hleaves
  have hdata : ((front.filterMap Piece.leaf?).map (groupBytes total)).sum + groupBytes total c =
      boundary total (c + 1) - boundary total a := by
    rw [← sum_groupBytes (by omega : a ≤ c + 1), ← hleaves, List.map_append, List.sum_append,
      List.map_singleton, List.sum_singleton]
  have hmono : boundary total a ≤ boundary total (c + 1) := boundary_mono (by omega)
  have hshort : paid - ((encoded total a (c + 1)).map (pieceBytes total)).sum = 0 :=
    Nat.sub_eq_zero_of_le (Nat.le_of_lt hpaid)
  unfold wireSize at hpaid
  rw [hfront] at hpaid
  have hlt := leafWithin_concat_lt (groupBytes_bounds hc).1 hpaid
  unfold paidPosition
  rw [← hrest, leafWithin_append]
  unfold pieceBytes at hshort
  rw [hshort, leafWithin_zero, hfront]
  omega

/-- The frontier that the paid bytes `paid` of a stream from group `a` of a blob map to, whatever
rounds the search is given from a bound on: it is the last boundary whose wire cost is paid, it
grows with the payment, and it is the end of the blob once the whole wire cost is paid.  Unless
the wire cost is beyond 64 bits and `paid` at their bound, what lies before it is covered by the
paid bytes, which cover less than one group more. -/
theorem content_paid_frontier_inverse (walked : Nat → ChunkRanges → Nat) (htotal : 0 < total)
    (hfits : total ≤ u64Max) (ha : a * chunkGroupBytes < total) (paid : Nat) :
    ∃ c, a ≤ c ∧ c ≤ groupCount total ∧
      (∀ fuel, groupCount total - a + 1 < fuel →
        contentPaidFrontier walked fuel (a * chunkGroupBytes) total paid =
          some (boundary total c)) ∧
      wireTo walked (a * chunkGroupBytes) total (boundary total c) ≤ paid ∧
      (∀ d, c < d → d ≤ groupCount total →
        paid < wireTo walked (a * chunkGroupBytes) total (boundary total d)) ∧
      (wireTo walked (a * chunkGroupBytes) total total ≤ paid → boundary total c = total) ∧
      (∀ more, paid ≤ more → ∃ c', c ≤ c' ∧ ∀ fuel, groupCount total - a + 1 < fuel →
        contentPaidFrontier walked fuel (a * chunkGroupBytes) total more =
          some (boundary total c')) ∧
      (paid < u64Max ∨ wireSize total a (groupCount total) ≤ u64Max →
        wireSize total a c ≤ paid ∧ boundary total c ≤ paidPosition total a paid ∧
          paidPosition total a paid < boundary total c + chunkGroupBytes) := by
  rcases contentPaidFrontier_spec walked htotal hfits ha paid with
    ⟨c, hac, hc, hresult, hcost, habove⟩
  refine ⟨c, hac, hc, hresult, ?_, fun d hd hdn => ?_, fun hall => ?_, fun more hmore => ?_,
    fun hexact => ?_⟩
  · rwa [wireTo_boundary walked htotal hfits ha hac hc]
  · rw [wireTo_boundary walked htotal hfits ha (by omega) hdn]
    exact habove d hd hdn
  · have hend := wireTo_boundary walked htotal hfits ha (hac.trans hc) (Nat.le_refl _)
    rw [boundary_groupCount] at hend
    rcases Nat.eq_or_lt_of_le hc with heq | hlt
    · rw [heq, boundary_groupCount]
    · have hover := habove _ hlt (Nat.le_refl _)
      omega
  · rcases contentPaidFrontier_spec walked htotal hfits ha more with
      ⟨c', -, hc', hresult', -, habove'⟩
    refine ⟨c', ?_, hresult'⟩
    by_contra hlt
    have hover := habove' c (Nat.lt_of_not_le hlt) hc
    omega
  · have hfull := wireSize_mono htotal hac hc (Nat.le_refl _)
    have hpaid : wireSize total a c ≤ paid := by omega
    refine ⟨hpaid, boundary_le_paidPosition htotal hac hc hpaid, ?_⟩
    rcases Nat.eq_or_lt_of_le hc with heq | hlt
    · have hdata : paidPosition total a paid = total := by
        have hwithin := leafWithin_of_le hpaid
        rw [delivered_groups htotal hc, sum_groupBytes hac, heq, boundary_groupCount] at hwithin
        have hstart : boundary total a ≤ total := Nat.min_le_right _ _
        unfold paidPosition
        rw [hwithin]
        omega
      rw [hdata, heq, boundary_groupCount]
      unfold chunkGroupBytes
      omega
    · have hover := habove (c + 1) (Nat.lt_succ_self c) hlt
      have hnext := paidPosition_lt htotal hac hlt (show paid < wireSize total a (c + 1) by omega)
      have hgroup := (groupBytes_bounds hlt).2
      unfold groupBytes at hgroup
      omega

/-- A stream from the second group of a blob of two groups and one byte, with nothing paid, is
resumed where it began. -/
theorem content_paid_frontier_inverse_sample : ∃ total fuel, total = 2 * chunkGroupBytes + 1 ∧
    contentPaidFrontier (fun _ _ => 0) fuel (1 * chunkGroupBytes) total 0 =
      some (boundary total 1) := by
  have hexists : ∃ total, total = 2 * chunkGroupBytes + 1 := ⟨_, rfl⟩
  rcases hexists with ⟨total, htotal⟩
  have hpos : 0 < total := by omega
  have hfits : total ≤ u64Max := by
    unfold chunkGroupBytes at htotal
    unfold u64Max
    omega
  have hstart : 1 * chunkGroupBytes < total := by omega
  have hsome : (0 : Nat) < u64Max := by
    unfold u64Max
    omega
  rcases content_paid_frontier_inverse (fun _ _ => 0) hpos hfits hstart 0 with
    ⟨c, hac, hc, hresult, -, -, -, -, hexact⟩
  have hpaid := (hexact (.inl hsome)).1
  have hfirst : c = 1 := by
    by_contra hne
    have hgrows := wireSize_strictMono (a := 1) (c := 1) hpos (Nat.le_refl 1)
      (show 1 < c by omega) hc
    omega
  have hresult' := hresult _ (Nat.lt_succ_self _)
  rw [hfirst] at hresult'
  exact ⟨total, _, htotal, hresult'⟩

/-- The largest blob is taken for paid in full when its payer paid less than its wire size. -/
theorem frontier_past_payment : ∃ total paid, total ≤ u64Max ∧ paid ≤ u64Max ∧
    (∃ fuel, contentPaidFrontier (fun _ _ => 0) fuel (0 * chunkGroupBytes) total paid =
      some total) ∧ paid < wireSize total 0 (groupCount total) := by
  have hexists : ∃ total, total = u64Max := ⟨_, rfl⟩
  rcases hexists with ⟨total, htotal⟩
  have hpos : 0 * chunkGroupBytes < total := by
    unfold u64Max at htotal
    omega
  have hgroups : 2 ≤ groupCount total := by
    unfold u64Max at htotal
    unfold groupCount divCeil chunkGroupBytes
    omega
  have htotalPos : 0 < total := by omega
  rcases contentPaidFrontier_spec (fun _ _ => 0) htotalPos (Nat.le_of_eq htotal) hpos
    u64Max with ⟨c, -, hc, hresult, -, habove⟩
  have hend : c = groupCount total := by
    by_contra hne
    have hover := habove _ (Nat.lt_of_le_of_ne hc hne) (Nat.le_refl _)
    omega
  have hwhole := wireSize_whole htotalPos
  unfold parentWireBytes at hwhole
  have hresult' := hresult _ (Nat.lt_succ_self _)
  rw [hend, boundary_groupCount] at hresult'
  exact ⟨total, u64Max, Nat.le_of_eq htotal, Nat.le_refl _, ⟨_, hresult'⟩, by omega⟩

end Decdn.Client
