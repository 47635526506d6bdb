import Decdn.Foundations.Waiting
import Mathlib.Data.Finset.Card
import Mathlib.Data.List.Sublists

/-!
# Bounded maps in order of use

A map that keeps its entries in the order of their last use and drops the one that was
used longest ago when it grows past its capacity.  An entry carries the time it expires
at; a reading of an expired entry drops it, and any other reading moves the entry to the
front without changing its time.

Main definitions:

- Structure `RecentMap`: the entries, most recently used first.
- Definition `RecentMap.run`: the map after a history of uses.

Main results:

- Theorem `RecentMap.stored_of_get`: what is read is the last entry stored for its key.
- Theorem `RecentMap.get_of_stored`: the last entry stored for a key is read until it expires,
  unless as many other keys as the map has room for were used since.
-/

namespace Decdn

universe u v

/-- A value with the time it expires at. -/
structure Timed (ν : Type v) where
  value : ν
  expiry : Nat
deriving DecidableEq, Repr

/-- Entries in order of use, most recent first, at most `cap` of them. -/
structure RecentMap (κ : Type u) (ν : Type v) where
  cap : Nat
  entries : List (κ × Timed ν)
  cap_pos : 0 < cap
  nodup : (entries.map Prod.fst).Nodup
  length_le : entries.length ≤ cap

namespace RecentMap

variable {κ : Type u} {ν : Type v} [DecidableEq κ]

/-! ## Operations -/

/-- The entries of all other keys. -/
def others (k : κ) (es : List (κ × Timed ν)) : List (κ × Timed ν) := es.filter fun e => e.1 ≠ k

theorem others_sublist (k : κ) (es : List (κ × Timed ν)) : (others k es).Sublist es :=
  List.filter_sublist

theorem not_mem_others (k : κ) (es : List (κ × Timed ν)) : k ∉ (others k es).map Prod.fst := by
  intro h
  rcases List.mem_map.mp h with ⟨e, he, rfl⟩
  simpa using (List.mem_filter.mp he).2

/-- Put an entry to the front. -/
def front (k : κ) (v : Timed ν) (es : List (κ × Timed ν)) : List (κ × Timed ν) :=
  (k, v) :: others k es

theorem nodup_front {k : κ} {v : Timed ν} {es : List (κ × Timed ν)}
    (h : (es.map Prod.fst).Nodup) : ((front k v es).map Prod.fst).Nodup :=
  List.nodup_cons.mpr ⟨not_mem_others k es, h.sublist ((others_sublist k es).map _)⟩

/-- Drop the last entry of a list that is too long. -/
def trim (cap : Nat) (es : List (κ × Timed ν)) : List (κ × Timed ν) :=
  if cap < es.length then es.dropLast else es

omit [DecidableEq κ] in
theorem trim_sublist (cap : Nat) (es : List (κ × Timed ν)) : (trim cap es).Sublist es := by
  unfold trim
  split
  · exact List.dropLast_sublist es
  · exact List.Sublist.refl es

/-- An empty map with room for `cap` entries, and for one at least. -/
def new (cap : Nat) : RecentMap κ ν where
  cap := max cap 1
  entries := []
  cap_pos := Nat.lt_of_lt_of_le Nat.one_pos (Nat.le_max_right cap 1)
  nodup := List.nodup_nil
  length_le := Nat.zero_le _

/-- The entry of a key. -/
def find (m : RecentMap κ ν) (k : κ) : Option (Timed ν) :=
  (m.entries.find? fun e => e.1 = k).map Prod.snd

/-- Drop the entry of a key. -/
def erase (m : RecentMap κ ν) (k : κ) : RecentMap κ ν where
  cap := m.cap
  entries := others k m.entries
  cap_pos := m.cap_pos
  nodup := m.nodup.sublist ((others_sublist k m.entries).map _)
  length_le := (others_sublist k m.entries).length_le.trans m.length_le

theorem length_trim_front (m : RecentMap κ ν) (k : κ) (v : Timed ν) :
    (trim m.cap (front k v m.entries)).length ≤ m.cap := by
  have hrest := (others_sublist k m.entries).length_le.trans m.length_le
  have hfront : (front k v m.entries).length = (others k m.entries).length + 1 := rfl
  unfold trim
  split
  · rw [List.length_dropLast]
    omega
  · omega

/-- Store an entry at the front, and drop the last one if there is no room. -/
def insert (m : RecentMap κ ν) (k : κ) (v : Timed ν) : RecentMap κ ν where
  cap := m.cap
  entries := trim m.cap (front k v m.entries)
  cap_pos := m.cap_pos
  nodup := (nodup_front m.nodup).sublist ((trim_sublist _ _).map _)
  length_le := m.length_trim_front k v

/-- Read a key: an expired entry is dropped, any other moves to the front. -/
def get (m : RecentMap κ ν) (now : Nat) (k : κ) : Option ν × RecentMap κ ν :=
  match m.find k with
  | none => (none, m)
  | some v => if v.expiry ≤ now then (none, m.erase k) else (some v.value, m.insert k v)

/-! ## Entries after an operation -/

theorem find_cons {k k' : κ} {v : Timed ν} {es : List (κ × Timed ν)} :
    (((k, v) :: es).find? fun e => e.1 = k') =
      if k = k' then some (k, v) else es.find? fun e => e.1 = k' := by
  rw [List.find?_cons]
  by_cases h : k = k' <;> simp [h]

theorem find?_others {k k' : κ} (es : List (κ × Timed ν)) :
    ((others k es).find? fun e => e.1 = k') =
      if k = k' then none else es.find? fun e => e.1 = k' := by
  by_cases h : k = k'
  · subst h
    rw [if_pos rfl, List.find?_eq_none]
    intro e he
    simpa using (List.mem_filter.mp he).2
  · rw [if_neg h]
    unfold others
    rw [List.find?_filter]
    congr 1
    funext e
    by_cases he : e.1 = k'
    · simp [he, Ne.symm h]
    · simp [he]

theorem find_erase (m : RecentMap κ ν) (k k' : κ) :
    (m.erase k).find k' = if k = k' then none else m.find k' := by
  unfold find erase
  rw [find?_others]
  split <;> rfl

/-- What a trimmed list finds, the whole list finds. -/
theorem find?_of_trim {cap : Nat} {es : List (κ × Timed ν)} {k : κ} {e : κ × Timed ν}
    (h : ((trim cap es).find? fun e => e.1 = k) = some e) :
    (es.find? fun e => e.1 = k) = some e := by
  unfold trim at h
  split at h
  · rcases List.eq_nil_or_concat es with rfl | ⟨init, last, rfl⟩
    · exact h
    · rw [List.concat_eq_append, List.dropLast_concat] at h
      rw [List.concat_eq_append, List.find?_append, h]
      rfl
  · exact h

omit [DecidableEq κ] in
/-- The first entry stays. -/
theorem trim_cons {cap : Nat} (hcap : 0 < cap) (e : κ × Timed ν) (es : List (κ × Timed ν)) :
    ∃ rest, trim cap (e :: es) = e :: rest := by
  unfold trim
  split
  · cases es with
    | nil =>
      rename_i hlong
      simp only [List.length_cons, List.length_nil] at hlong
      omega
    | cons e' es => exact ⟨(e' :: es).dropLast, List.dropLast_cons_cons⟩
  · exact ⟨es, rfl⟩

/-- A stored entry is found. -/
theorem find_insert_self (m : RecentMap κ ν) (k : κ) (v : Timed ν) :
    (m.insert k v).find k = some v := by
  rcases trim_cons m.cap_pos (k, v) (others k m.entries) with ⟨rest, hrest⟩
  change ((trim m.cap ((k, v) :: others k m.entries)).find? fun e => e.1 = k).map Prod.snd = some v
  rw [hrest, find_cons, if_pos rfl]
  rfl

/-- An entry of another key that is found after a store was there before. -/
theorem find_of_insert {m : RecentMap κ ν} {k k' : κ} {v v' : Timed ν} (hne : k ≠ k')
    (h : (m.insert k v).find k' = some v') : m.find k' = some v' := by
  unfold find insert at h
  rcases Option.map_eq_some_iff.mp h with ⟨e, he, rfl⟩
  have hfront := find?_of_trim he
  unfold front at hfront
  rw [find_cons, if_neg hne, find?_others, if_neg hne] at hfront
  unfold find
  rw [hfront]
  rfl

/-- What a reading does. -/
theorem get_cases (m : RecentMap κ ν) (now : Nat) (k : κ) :
    (m.find k = none ∧ m.get now k = (none, m)) ∨
    (∃ v, m.find k = some v ∧ v.expiry ≤ now ∧ m.get now k = (none, m.erase k)) ∨
    ∃ v, m.find k = some v ∧ now < v.expiry ∧ m.get now k = (some v.value, m.insert k v) := by
  unfold get
  cases m.find k with
  | none => exact .inl ⟨rfl, rfl⟩
  | some v =>
    right
    by_cases hexpired : v.expiry ≤ now
    · exact .inl ⟨v, rfl, hexpired, if_pos hexpired⟩
    · exact .inr ⟨v, rfl, not_le.mp hexpired, if_neg hexpired⟩

/-! ## Histories -/

/-- One use of the map. -/
inductive Use (κ : Type u) (ν : Type v) where
  | store (k : κ) (v : Timed ν)
  | read (now : Nat) (k : κ)
  | drop (k : κ)

/-- The key of a use. -/
def Use.key : Use κ ν → κ
  | .store k _ | .read _ k | .drop k => k

/-- The map after one use. -/
def use (m : RecentMap κ ν) : Use κ ν → RecentMap κ ν
  | .store k v => m.insert k v
  | .read now k => (m.get now k).2
  | .drop k => m.erase k

/-- The map after a history of uses. -/
def run (cap : Nat) (uses : List (Use κ ν)) : RecentMap κ ν := uses.foldl use (new cap)

theorem run_concat (cap : Nat) (uses : List (Use κ ν)) (u : Use κ ν) :
    run cap (uses ++ [u]) = (run cap uses).use u := by
  simp [run]

/-- A use that neither stores nor drops an entry of the key. -/
def Use.Keeps (k : κ) : Use κ ν → Prop
  | .store k' _ | .drop k' => k' ≠ k
  | .read _ _ => True

/-- A use that keeps the key and is followed by finding it, found it. -/
theorem find_of_use {m : RecentMap κ ν} {u : Use κ ν} {k : κ} {v : Timed ν} (hkeeps : u.Keeps k)
    (h : (m.use u).find k = some v) : m.find k = some v := by
  cases u with
  | store k' v' => exact find_of_insert hkeeps h
  | drop k' =>
    change (m.erase k').find k = some v at h
    rw [find_erase, if_neg hkeeps] at h
    exact h
  | read now k' =>
    change (m.get now k').2.find k = some v at h
    rcases m.get_cases now k' with ⟨-, hget⟩ | ⟨v', -, -, hget⟩ | ⟨v', hfound, -, hget⟩
    · rw [hget] at h
      exact h
    · rw [hget] at h
      simp only [find_erase] at h
      split at h
      · cases h
      · exact h
    · rw [hget] at h
      by_cases hk : k' = k
      · subst hk
        simp only [find_insert_self] at h
        rw [hfound, h]
      · exact find_of_insert hk h

/-- An entry that is found was stored, and nothing stored or dropped its key since. -/
theorem stored_of_find {cap : Nat} {uses : List (Use κ ν)} {k : κ} {v : Timed ν}
    (h : (run cap uses).find k = some v) :
    ∃ before after, uses = before ++ .store k v :: after ∧ ∀ u ∈ after, u.Keeps k := by
  induction uses using List.reverseRecOn with
  | nil => cases h
  | append_singleton uses u ih =>
    rw [run_concat] at h
    by_cases hkeeps : u.Keeps k
    · rcases ih (find_of_use hkeeps h) with ⟨before, after, rfl, hafter⟩
      refine ⟨before, after ++ [u], by simp, fun u' hu' => ?_⟩
      rcases List.mem_append.mp hu' with hu' | hu'
      · exact hafter u' hu'
      · exact List.mem_singleton.mp hu' ▸ hkeeps
    · cases u with
      | read now k' => exact absurd trivial hkeeps
      | drop k' =>
        change ((run cap uses).erase k').find k = some v at h
        rw [find_erase, if_pos (not_not.mp hkeeps)] at h
        cases h
      | store k' v' =>
        rcases not_not.mp hkeeps with rfl
        change ((run cap uses).insert k' v').find k' = some v at h
        rw [find_insert_self] at h
        rcases Option.some.inj h with rfl
        exact ⟨uses, [], rfl, fun u hu => absurd hu List.not_mem_nil⟩

/-! ## Room -/

/-- The keys, most recently used first. -/
def keys (m : RecentMap κ ν) : List κ := m.entries.map Prod.fst

omit [DecidableEq κ] in
theorem map_fst_trim (cap : Nat) (es : List (κ × Timed ν)) :
    (trim cap es).map Prod.fst =
      if cap < es.length then (es.map Prod.fst).dropLast else es.map Prod.fst := by
  unfold trim
  split
  · rw [List.map_dropLast]
  · rfl

theorem map_fst_others (k : κ) (es : List (κ × Timed ν)) :
    (others k es).map Prod.fst = (es.map Prod.fst).filter (· ≠ k) := by
  unfold others
  rw [List.filter_map]
  rfl

/-- Dropping the last of a list keeps one that has another behind it. -/
theorem before_dropLast {k : κ} {l : List κ} (h : k ∈ l) (hroom : (before k l).length + 1 < l.length) :
    k ∈ l.dropLast ∧ before k l.dropLast = before k l := by
  rcases mem_iff_split.mp h with ⟨rest, hrest⟩
  rcases List.eq_nil_or_concat rest with rfl | ⟨init, last, rfl⟩
  · have hlength := congrArg List.length hrest
    rw [List.length_append, List.length_singleton] at hlength
    omega
  · have hdrop : l.dropLast = before k l ++ k :: init := by
      conv_lhs => rw [hrest]
      rw [List.concat_eq_append, ← List.cons_append, ← List.append_assoc, List.dropLast_concat]
    rw [hdrop]
    exact ⟨List.mem_append_right _ List.mem_cons_self, before_split not_mem_before⟩

/-- The keys used after `k`, and `k` itself still there. -/
def Within (m : RecentMap κ ν) (k : κ) (used : Finset κ) : Prop :=
  k ∈ m.keys ∧ ∀ x ∈ before k m.keys, x ∈ used

theorem mem_keys_of_find {m : RecentMap κ ν} {k : κ} {v : Timed ν} (h : m.find k = some v) :
    k ∈ m.keys := by
  rcases Option.map_eq_some_iff.mp h with ⟨e, he, -⟩
  have hkey : e.1 = k := by simpa using List.find?_some he
  exact hkey ▸ List.mem_map_of_mem (List.mem_of_find?_eq_some he)

/-- A store of another key keeps a key if there is room for all keys used since. -/
theorem Within.insert {m : RecentMap κ ν} {k k' : κ} {used : Finset κ} (v : Timed ν)
    (h : m.Within k used) (hne : k' ≠ k) (hroom : (Insert.insert k' used).card < m.cap) :
    (m.insert k' v).Within k (Insert.insert k' used) := by
  have hkeys : (m.insert k' v).keys = if m.cap < (front k' v m.entries).length then
      (k' :: m.keys.filter (· ≠ k')).dropLast else k' :: m.keys.filter (· ≠ k') := by
    change (trim m.cap (front k' v m.entries)).map Prod.fst = _
    rw [map_fst_trim]
    unfold front keys
    rw [List.map_cons, map_fst_others]
  have hmem : k ∈ k' :: m.keys.filter (· ≠ k') :=
    List.mem_cons_of_mem _ (List.mem_filter.mpr ⟨h.1, by simpa using Ne.symm hne⟩)
  have hbefore : ∀ x ∈ before k (k' :: m.keys.filter (· ≠ k')), x ∈ Insert.insert k' used := by
    intro x hx
    unfold before at hx
    rw [List.takeWhile_cons_of_pos (by simpa using hne)] at hx
    rcases List.mem_cons.mp hx with rfl | hx
    · exact Finset.mem_insert_self x used
    · have hsub := before_sublist (List.filter_sublist (p := (· ≠ k')) (l := m.keys)) m.nodup
        (List.mem_filter.mpr ⟨h.1, by simpa using Ne.symm hne⟩)
      exact Finset.mem_insert_of_mem (h.2 x (hsub.subset hx))
  have hnodup : (k' :: m.keys.filter (· ≠ k')).Nodup := by
    have hfront := nodup_front (k := k') (v := v) m.nodup
    unfold front at hfront
    rwa [List.map_cons, map_fst_others] at hfront
  have hshort : (before k (k' :: m.keys.filter (· ≠ k'))).length < m.cap := by
    have hnodup' : (before k (k' :: m.keys.filter (· ≠ k'))).Nodup :=
      hnodup.sublist (List.takeWhile_sublist _)
    refine Nat.lt_of_le_of_lt ?_ hroom
    rw [← List.toFinset_card_of_nodup hnodup']
    exact Finset.card_le_card fun x hx => hbefore x (List.mem_toFinset.mp hx)
  unfold Within
  rw [hkeys]
  split
  · rename_i hlong
    have hlength : (front k' v m.entries).length = (k' :: m.keys.filter (· ≠ k')).length := by
      unfold front keys
      rw [List.length_cons, List.length_cons, ← map_fst_others, List.length_map]
    rcases before_dropLast hmem (by omega) with ⟨hstays, hsame⟩
    rw [hsame]
    exact ⟨hstays, hbefore⟩
  · exact ⟨hmem, hbefore⟩

/-- Dropping another key keeps a key. -/
theorem Within.erase {m : RecentMap κ ν} {k k' : κ} {used : Finset κ} (h : m.Within k used)
    (hne : k' ≠ k) : (m.erase k').Within k used := by
  have hkeys : (m.erase k').keys = m.keys.filter (· ≠ k') := map_fst_others k' m.entries
  have hmem : k ∈ m.keys.filter (· ≠ k') :=
    List.mem_filter.mpr ⟨h.1, by simpa using Ne.symm hne⟩
  unfold Within
  rw [hkeys]
  exact ⟨hmem, fun x hx => h.2 x ((before_sublist List.filter_sublist m.nodup hmem).subset hx)⟩

/-- A key that was just stored. -/
theorem Within.stored (m : RecentMap κ ν) (k : κ) (v : Timed ν) (used : Finset κ) :
    (m.insert k v).Within k used := by
  refine ⟨mem_keys_of_find (find_insert_self m k v), fun x hx => ?_⟩
  rcases trim_cons m.cap_pos (k, v) (others k m.entries) with ⟨rest, hrest⟩
  have hkeys : (m.insert k v).keys = k :: rest.map Prod.fst := by
    change (trim m.cap ((k, v) :: others k m.entries)).map Prod.fst = _
    rw [hrest]
    rfl
  rw [hkeys] at hx
  simp [before] at hx

/-- A key that is there is found, with what was found before. -/
theorem find_kept {m : RecentMap κ ν} {u : Use κ ν} {k : κ} {v : Timed ν} (hkeeps : u.Keeps k)
    (hmem : k ∈ (m.use u).keys) (h : m.find k = some v) : (m.use u).find k = some v := by
  have hsome : ∃ v', (m.use u).find k = some v' := by
    rcases List.mem_map.mp hmem with ⟨e, he, hkey⟩
    unfold find
    cases hfind : (m.use u).entries.find? fun e => e.1 = k with
    | none => exact absurd hkey (by simpa using List.find?_eq_none.mp hfind e he)
    | some e' => exact ⟨e'.2, rfl⟩
  rcases hsome with ⟨v', hv'⟩
  rw [hv', ← find_of_use hkeeps hv', h]

/-- One use of another key. -/
theorem Within.use {m : RecentMap κ ν} {u : Use κ ν} {k : κ} {used : Finset κ}
    (h : m.Within k used) (hne : u.key ≠ k) (hroom : (Insert.insert u.key used).card < m.cap) :
    (m.use u).Within k (Insert.insert u.key used) := by
  have hmore : ∀ {m' : RecentMap κ ν}, m'.Within k used → m'.Within k (Insert.insert u.key used) :=
    fun h => ⟨h.1, fun x hx => Finset.mem_insert_of_mem (h.2 x hx)⟩
  cases u with
  | store k' v' => exact h.insert v' hne hroom
  | drop k' => exact hmore (h.erase hne)
  | read now k' =>
    change ((m.get now k').2).Within k _
    rcases m.get_cases now k' with ⟨-, hget⟩ | ⟨v', -, -, hget⟩ | ⟨v', -, -, hget⟩
    · rw [hget]
      exact hmore h
    · rw [hget]
      exact hmore (h.erase hne)
    · rw [hget]
      exact h.insert v' hne hroom

theorem cap_use (m : RecentMap κ ν) (u : Use κ ν) : (m.use u).cap = m.cap := by
  cases u with
  | store k v => rfl
  | drop k => rfl
  | read now k =>
    change (m.get now k).2.cap = m.cap
    rcases m.get_cases now k with ⟨-, hget⟩ | ⟨v', -, -, hget⟩ | ⟨v', -, -, hget⟩ <;>
      rw [hget] <;> rfl

theorem cap_run (cap : Nat) (uses : List (Use κ ν)) : (run cap uses).cap = max cap 1 := by
  induction uses using List.reverseRecOn with
  | nil => rfl
  | append_singleton uses u ih => rw [run_concat, cap_use, ih]

/-- The keys other than `k` that a history uses. -/
def otherKeys (k : κ) (uses : List (Use κ ν)) : Finset κ := ((uses.map Use.key).toFinset).erase k

/-- The last entry stored for a key is found as long as it is read before it expires only, and
fewer other keys than the map has room for are used. -/
theorem find_of_stored {cap : Nat} (before : List (Use κ ν)) {after : List (Use κ ν)} {k : κ}
    {v : Timed ν} (hkeeps : ∀ u ∈ after, u.Keeps k) (hlive : ∀ now, .read now k ∈ after → now < v.expiry)
    (hroom : (otherKeys k after).card < max cap 1) :
    (run cap (before ++ .store k v :: after)).find k = some v ∧
      (run cap (before ++ .store k v :: after)).Within k (otherKeys k after) := by
  induction after using List.reverseRecOn with
  | nil =>
    rw [run_concat]
    exact ⟨find_insert_self _ k v, .stored _ k v _⟩
  | append_singleton after u ih =>
    have hsub : otherKeys k after ⊆ otherKeys k (after ++ [u]) := by
      intro x hx
      simp only [otherKeys, List.map_append, List.toFinset_append] at hx ⊢
      exact Finset.erase_subset_erase k Finset.subset_union_left hx
    rcases ih (fun u' hu' => hkeeps u' (List.mem_append_left _ hu'))
        (fun now hnow => hlive now (List.mem_append_left _ hnow))
        (Nat.lt_of_le_of_lt (Finset.card_le_card hsub) hroom) with ⟨hfind, hwithin⟩
    rw [← List.cons_append, ← List.append_assoc, run_concat]
    have hu := hkeeps u (List.mem_append_right _ (List.mem_singleton_self u))
    by_cases hkey : u.key = k
    · cases u with
      | store k' v' => exact absurd hkey hu
      | drop k' => exact absurd hkey hu
      | read now k' =>
        rcases hkey with rfl
        have hnow := hlive now (List.mem_append_right _ (List.mem_singleton_self _))
        change ((run cap (before ++ .store k' v :: after)).get now k').2.find k' = some v ∧
          ((run cap (before ++ .store k' v :: after)).get now k').2.Within k' _
        have hstored : (run cap (before ++ .store k' v :: after)).find k' = some v := hfind
        rcases (run cap (before ++ .store k' v :: after)).get_cases now k' with
          ⟨hnone, -⟩ | ⟨v', hv', hexpired, -⟩ | ⟨v', hv', -, hget⟩
        · rw [hstored] at hnone
          cases hnone
        · rcases Option.some.inj (hstored.symm.trans hv') with rfl
          exact absurd hexpired (not_le.mpr hnow)
        · rcases Option.some.inj (hstored.symm.trans hv') with rfl
          rw [hget]
          exact ⟨find_insert_self _ k' v, .stored _ k' v _⟩
    · have hused : otherKeys k (after ++ [u]) = Insert.insert u.key (otherKeys k after) := by
        unfold otherKeys
        rw [List.map_append, List.toFinset_append, Finset.union_comm]
        simp only [List.map_cons, List.map_nil, List.toFinset_cons, List.toFinset_nil]
        rw [Finset.insert_union, Finset.union_comm, Finset.union_empty,
          Finset.erase_insert_of_ne hkey]
      rw [hused] at hroom ⊢
      have hwithin' := hwithin.use hkey (by rw [cap_run]; exact hroom)
      exact ⟨find_kept hu hwithin'.1 hfind, hwithin'⟩

/-! ## Readings -/

/-- What is read is the last entry stored for its key, before it expires. -/
theorem stored_of_get {cap now : Nat} {uses : List (Use κ ν)} {k : κ} {x : ν}
    (h : ((run cap uses).get now k).1 = some x) :
    ∃ before after expiry, uses = before ++ .store k ⟨x, expiry⟩ :: after ∧
      (∀ u ∈ after, u.Keeps k) ∧ now < expiry := by
  rcases (run cap uses).get_cases now k with ⟨-, hget⟩ | ⟨v, -, -, hget⟩ | ⟨v, hfind, hlive, hget⟩
  · rw [hget] at h
    cases h
  · rw [hget] at h
    cases h
  · rw [hget] at h
    rcases Option.some.inj h with rfl
    rcases stored_of_find hfind with ⟨before, after, huses, hkeeps⟩
    exact ⟨before, after, v.expiry, huses, hkeeps, hlive⟩

/-- The last entry stored for a key is read until it expires, if fewer other keys than the map
has room for were used since. -/
theorem get_of_stored {cap now : Nat} (before : List (Use κ ν)) {after : List (Use κ ν)} {k : κ}
    {v : Timed ν} (hkeeps : ∀ u ∈ after, u.Keeps k) (hreads : ∀ now', .read now' k ∈ after → now' < v.expiry)
    (hroom : (otherKeys k after).card < max cap 1) (hlive : now < v.expiry) :
    ((run cap (before ++ .store k v :: after)).get now k).1 = some v.value := by
  have hfind := (find_of_stored before hkeeps hreads hroom).1
  rcases (run cap (before ++ .store k v :: after)).get_cases now k with
    ⟨hnone, -⟩ | ⟨v', hv', hexpired, -⟩ | ⟨v', hv', -, hget⟩
  · rw [hfind] at hnone
    cases hnone
  · rcases Option.some.inj (hfind.symm.trans hv') with rfl
    exact absurd hexpired (not_le.mpr hlive)
  · rcases Option.some.inj (hfind.symm.trans hv') with rfl
    rw [hget]

end RecentMap

end Decdn
