import Decdn.Dht.Records
import Mathlib.Data.List.Perm.Basic
import Mathlib.Data.Set.Card

/-!
# The three indexes of the record store

The lists of holders are the records; the global order and the publisher counts
are derived from them.  Taking a record out and putting one in move the three
together, and every operation is made of these two steps.

Main results:

- Theorem `removeEntry_present` and Theorem `addEntry_index`: the two steps keep
  the indexes in agreement.
- Theorem `insertAt_spec`, Theorem `gc_spec` and Theorem `providersAt_spec`: what
  each operation does to the records.
- Theorem `record_store_sound`: every run of the store.
-/

namespace Decdn.Dht

open Finset

namespace RecordStore

variable {s s' : RecordStore} {holder : NodeId} {hash : ContentHash} {e : HolderEntry}

/-! ## The indexes agree -/

/-- The store has the record for the hash. -/
def Holds (s : RecordStore) (hash : ContentHash) (e : HolderEntry) : Prop :=
  ∃ entries, s.byHash hash = some entries ∧ e ∈ entries

/-- The key of a record in the global order. -/
def keyOf (hash : ContentHash) (e : HolderEntry) : LruKey :=
  ⟨e.receiveUs, e.sequence, hash, e.holder⟩

/-- The keys of a publisher's records. -/
def recordsOf (s : RecordStore) (holder : NodeId) : Finset LruKey :=
  s.globalLru.filter fun k => k.holder = holder

/-- The hashes a publisher has a record for. -/
def hashesOf (s : RecordStore) (holder : NodeId) : Set ContentHash :=
  {hash | ∃ e, s.Holds hash e ∧ e.holder = holder}

/-- The three indexes describe one set of records: a hash has at least one record or no
list, and no two of one holder; the global order has the key of each record and no other; a
publisher's count is the number of its records, and absent without any.  No error was ever
logged. -/
structure TriIndex (s : RecordStore) : Prop where
  bucket : ∀ {hash entries}, s.byHash hash = some entries → entries ≠ []
  holders : ∀ {hash entries}, s.byHash hash = some entries →
    (entries.map HolderEntry.holder).Nodup
  expiry : ∀ {hash e}, s.Holds hash e → e.expiryUs = U64.wordAdd e.receiveUs s.cfg.ttlUs
  lru : ∀ k, k ∈ s.globalLru ↔ ∃ e, s.Holds k.hash e ∧ keyOf k.hash e = k
  count : ∀ holder, s.byPublisherCount holder =
    if (s.recordsOf holder).card = 0 then none else some (s.recordsOf holder).card
  logged : s.logged = []

/-- The caps on records are kept. -/
structure Within (s : RecordStore) : Prop where
  global : s.globalLru.card ≤ s.cfg.maxRecordsGlobal
  publisher : ∀ holder, (s.recordsOf holder).card ≤ s.cfg.maxRecordsPerPublisher
  hash : ∀ {hash entries}, s.byHash hash = some entries →
    entries.length ≤ s.cfg.maxProvidersPerHash

/-- A hash has one record of each holder. -/
theorem TriIndex.unique (h : TriIndex s) {x y : HolderEntry} (hx : s.Holds hash x)
    (hy : s.Holds hash y) (hholder : x.holder = y.holder) : x = y := by
  rcases hx with ⟨entries, hentries, hx⟩
  rcases hy with ⟨entries', hentries', hy⟩
  rw [hentries, Option.some.injEq] at hentries'
  subst hentries'
  exact List.inj_on_of_nodup_map (h.holders hentries) hx hy hholder

theorem TriIndex.key_mem (h : TriIndex s) (he : s.Holds hash e) : keyOf hash e ∈ s.globalLru :=
  (h.lru _).mpr ⟨e, he, rfl⟩

theorem TriIndex.publisherRecordCount_eq (h : TriIndex s) (holder : NodeId) :
    s.publisherRecordCount holder = (s.recordsOf holder).card := by
  unfold publisherRecordCount
  rw [h.count]
  split
  · rename_i hzero
    rw [hzero]
    rfl
  · rfl

/-- The count of a publisher is the number of hashes it has a record for. -/
theorem TriIndex.card_recordsOf (h : TriIndex s) (holder : NodeId) :
    (s.recordsOf holder).card = (s.hashesOf holder).ncard := by
  have himage : s.hashesOf holder = (s.recordsOf holder).image LruKey.hash := by
    ext hash
    rw [coe_image, Set.mem_image]
    constructor
    · rintro ⟨e, he, hholder⟩
      exact ⟨keyOf hash e, mem_coe.mpr (mem_filter.mpr ⟨h.key_mem he, hholder⟩), rfl⟩
    · rintro ⟨k, hk, rfl⟩
      rcases mem_filter.mp (mem_coe.mp hk) with ⟨hmem, hholder⟩
      rcases (h.lru k).mp hmem with ⟨e, he, hkey⟩
      refine ⟨e, he, ?_⟩
      rw [← hholder, ← hkey]
      rfl
  rw [himage, Set.ncard_coe_finset, card_image_of_injOn]
  intro k hk k' hk' hhash
  rcases mem_filter.mp (mem_coe.mp hk) with ⟨hmem, hholder⟩
  rcases mem_filter.mp (mem_coe.mp hk') with ⟨hmem', hholder'⟩
  rcases (h.lru k).mp hmem with ⟨e, he, hkey⟩
  rcases (h.lru k').mp hmem' with ⟨e', he', hkey'⟩
  rw [← hhash] at he' hkey'
  have hsame : e.holder = e'.holder := by
    have hleft : e.holder = k.holder := congrArg LruKey.holder hkey
    have hright : e'.holder = k'.holder := congrArg LruKey.holder hkey'
    rw [hleft, hright, hholder, hholder']
  rw [← hkey, ← hkey', h.unique he he' hsame]

/-! ## Taking a record out -/

/-- The entries after a swap removal, in another order. -/
theorem swapRemove_perm {α : Type} {xs : List α} {i : Nat} (h : i < xs.length) :
    (swapRemove xs i).Perm (xs.eraseIdx i) := by
  rcases List.eq_nil_or_concat xs with rfl | ⟨front, last, rfl⟩
  · exact absurd h (Nat.not_lt_zero i)
  · have hlast : (front.concat last).getLast? = some last := by
      rw [List.concat_eq_append, List.getLast?_concat]
    unfold swapRemove
    rw [hlast]
    dsimp only
    rw [List.concat_eq_append] at h ⊢
    rw [List.length_append, List.length_singleton] at h
    by_cases hfront : i < front.length
    · rw [List.set_append_left i last hfront, List.dropLast_concat,
        List.eraseIdx_append_of_lt_length hfront]
      exact (List.set_perm_cons_eraseIdx hfront last).trans (List.perm_append_singleton _ _).symm
    · have hi : i = front.length := by omega
      rw [hi, List.set_append_right front.length last le_rfl,
        List.eraseIdx_append_of_length_le le_rfl, Nat.sub_self]
      simp

/-- What taking a record out leaves. -/
structure Removed (s : RecordStore) (hash : ContentHash) (e : HolderEntry) (s' : RecordStore) :
    Prop where
  index : TriIndex s'
  cfg : s'.cfg = s.cfg
  holds : ∀ h x, s'.Holds h x ↔ s.Holds h x ∧ ¬ (h = hash ∧ x.holder = e.holder)
  lru : s'.globalLru = s.globalLru.erase (keyOf hash e)
  length : ∀ {h entries'}, s'.byHash h = some entries' →
    ∃ entries, s.byHash h = some entries ∧ entries'.length ≤ entries.length ∧
      (h = hash → entries'.length + 1 = entries.length)

/-- Without a record there is nothing to take out. -/
theorem removeEntry_absent (h : ∀ x, s.Holds hash x → x.holder ≠ holder) :
    s.removeEntry holder hash = (s, none) := by
  unfold removeEntry
  cases hentries : s.byHash hash with
  | none => rfl
  | some entries =>
    have hfind : (entries.findIdx? fun e => e.holder = holder) = none := by
      rw [List.findIdx?_eq_none_iff]
      intro x hx
      exact decide_eq_false (h x ⟨entries, hentries, hx⟩)
    dsimp only
    rw [hfind]

/-- The store without a record, the rest of its hash's list in any order. -/
def without (s : RecordStore) (hash : ContentHash) (e : HolderEntry) (rest : List HolderEntry) :
    RecordStore :=
  { s with
    byHash := Function.update s.byHash hash (if rest = [] then none else some rest)
    globalLru := s.globalLru.erase (keyOf hash e)
    byPublisherCount := decrementPublisherCount s.byPublisherCount e.holder }

theorem without_byHash {rest entries : List HolderEntry} {h : ContentHash}
    (hentries : (s.without hash e rest).byHash h = some entries) :
    (h = hash ∧ entries = rest ∧ rest ≠ []) ∨ (h ≠ hash ∧ s.byHash h = some entries) := by
  unfold without at hentries
  dsimp only at hentries
  by_cases hh : h = hash
  · subst hh
    rw [Function.update_self] at hentries
    split at hentries
    · cases hentries
    · rename_i hne
      cases hentries
      exact .inl ⟨rfl, rfl, hne⟩
  · rw [Function.update_of_ne hh] at hentries
    exact .inr ⟨hh, hentries⟩

theorem without_holds {entries rest : List HolderEntry} (hentries : s.byHash hash = some entries)
    (hperm : entries.Perm (e :: rest)) (hnodup : (entries.map HolderEntry.holder).Nodup)
    (h : ContentHash) (x : HolderEntry) :
    (s.without hash e rest).Holds h x ↔ s.Holds h x ∧ ¬ (h = hash ∧ x.holder = e.holder) := by
  have hlist : (e.holder :: rest.map HolderEntry.holder).Nodup :=
    (hperm.map HolderEntry.holder).nodup hnodup
  rw [List.nodup_cons] at hlist
  unfold Holds without
  dsimp only
  by_cases hh : h = hash
  · subst hh
    rw [Function.update_self, hentries]
    constructor
    · rintro ⟨entries', hsome, hx⟩
      split at hsome
      · cases hsome
      · cases hsome
        refine ⟨⟨entries, rfl, hperm.mem_iff.mpr (List.mem_cons_of_mem _ hx)⟩, ?_⟩
        rintro ⟨-, hholder⟩
        rw [← hholder] at hlist
        exact hlist.1 (List.mem_map_of_mem hx)
    · rintro ⟨⟨entries', hsome, hx⟩, hother⟩
      cases hsome
      rcases List.mem_cons.mp (hperm.mem_iff.mp hx) with rfl | hrest
      · exact absurd ⟨rfl, rfl⟩ hother
      · exact ⟨rest, if_neg (List.ne_nil_of_mem hrest), hrest⟩
  · rw [Function.update_of_ne hh]
    constructor
    · intro hx
      exact ⟨hx, fun hother => hh hother.1⟩
    · rintro ⟨hx, -⟩
      exact hx

theorem recordsOf_without (rest : List HolderEntry) (p : NodeId) :
    (s.without hash e rest).recordsOf p = (s.recordsOf p).erase (keyOf hash e) :=
  filter_erase _ _ _

/-- Taking a record out keeps the indexes in agreement. -/
theorem TriIndex.without (h : TriIndex s) {entries rest : List HolderEntry}
    (hentries : s.byHash hash = some entries) (hperm : entries.Perm (e :: rest)) :
    Removed s hash e (s.without hash e rest) := by
  have he : s.Holds hash e := ⟨entries, hentries, hperm.mem_iff.mpr List.mem_cons_self⟩
  have hnodup := h.holders hentries
  have hholds := without_holds hentries hperm hnodup
  refine ⟨⟨?_, ?_, ?_, ?_, ?_, h.logged⟩, rfl, hholds, rfl, ?_⟩
  · intro k entries' hk
    rcases without_byHash hk with ⟨-, rfl, hne⟩ | ⟨-, hk⟩
    · exact hne
    · exact h.bucket hk
  · intro k entries' hk
    rcases without_byHash hk with ⟨-, rfl, -⟩ | ⟨-, hk⟩
    · have hlist := (hperm.map HolderEntry.holder).nodup hnodup
      exact (List.nodup_cons.mp hlist).2
    · exact h.holders hk
  · intro k x hx
    exact h.expiry ((hholds k x).mp hx).1
  · intro k
    rw [RecordStore.without, mem_erase, h.lru]
    constructor
    · rintro ⟨hne, x, hx, hkey⟩
      refine ⟨x, (hholds _ _).mpr ⟨hx, ?_⟩, hkey⟩
      rintro ⟨hhash, hholder⟩
      rw [hhash] at hx hkey
      rw [h.unique hx he hholder] at hkey
      exact hne hkey.symm
    · rintro ⟨x, hx, hkey⟩
      rcases (hholds _ _).mp hx with ⟨hx, hother⟩
      refine ⟨?_, x, hx, hkey⟩
      rintro rfl
      exact hother ⟨rfl, congrArg LruKey.holder hkey⟩
  · intro p
    have hmem : keyOf hash e ∈ s.recordsOf e.holder := mem_filter.mpr ⟨h.key_mem he, rfl⟩
    rw [recordsOf_without]
    unfold RecordStore.without decrementPublisherCount
    dsimp only
    have hpos : (s.recordsOf e.holder).card ≠ 0 := (card_pos.mpr ⟨_, hmem⟩).ne'
    rw [h.count e.holder, if_neg hpos]
    dsimp only
    by_cases hp : p = e.holder
    · subst hp
      rw [Function.update_self, card_erase_of_mem hmem]
    · rw [Function.update_of_ne hp, h.count, erase_eq_of_notMem]
      intro hkey
      exact hp (mem_filter.mp hkey).2.symm
  · intro k entries' hk
    rcases without_byHash hk with ⟨rfl, rfl, -⟩ | ⟨hne, hk⟩
    · have hlen := hperm.length_eq
      rw [List.length_cons] at hlen
      exact ⟨entries, hentries, by omega, fun _ => hlen.symm⟩
    · exact ⟨entries', hk, le_rfl, fun hsame => absurd hsame hne⟩

/-- A record is found by its holder and taken out of the three indexes. -/
theorem removeEntry_present (h : TriIndex s) (he : s.Holds hash e) :
    ∃ s', s.removeEntry e.holder hash = (s', some e) ∧ Removed s hash e s' := by
  rcases he with ⟨entries, hentries, hmem⟩
  unfold removeEntry
  rw [hentries]
  dsimp only
  split
  · rename_i hfind
    rw [List.findIdx?_eq_none_iff] at hfind
    exact absurd (hfind e hmem) (by simp)
  · rename_i idx hfind
    rcases List.findIdx?_eq_some_iff_getElem.mp hfind with ⟨hidx, hholder, -⟩
    have hentry : entries[idx] = e := by
      apply h.unique ⟨entries, hentries, List.getElem_mem hidx⟩ ⟨entries, hentries, hmem⟩
      exact of_decide_eq_true hholder
    rw [List.getElem?_eq_getElem hidx, hentry]
    have hperm : entries.Perm (e :: swapRemove entries idx) := by
      have hout := (List.getElem_cons_eraseIdx_perm hidx).symm
      rw [hentry] at hout
      exact hout.trans ((swapRemove_perm hidx).symm.cons e)
    exact ⟨_, rfl, h.without hentries hperm⟩

/-! ## Putting a record in -/

variable {coverage : Coverage} {attested : AttestedBy} {receiveUs sequence : UInt64}

/-- The record `add_entry` puts in. -/
def newEntry (s : RecordStore) (holder : NodeId) (coverage : Coverage) (attested : AttestedBy)
    (receiveUs sequence : UInt64) : HolderEntry :=
  ⟨holder, receiveUs, sequence, U64.wordAdd receiveUs s.cfg.ttlUs, coverage,
    attested.attestation, attested.signer⟩

/-- What putting a record in leaves. -/
structure Added (s : RecordStore) (hash : ContentHash) (e : HolderEntry) (s' : RecordStore) :
    Prop where
  index : TriIndex s'
  cfg : s'.cfg = s.cfg
  holds : ∀ h x, s'.Holds h x ↔ s.Holds h x ∨ (h = hash ∧ x = e)
  lru : s'.globalLru = insert (keyOf hash e) s.globalLru
  length : ∀ {h entries'}, s'.byHash h = some entries' →
    (h ≠ hash ∧ s.byHash h = some entries') ∨
      (h = hash ∧ entries'.length = ((s.byHash hash).getD []).length + 1)

theorem addEntry_byHash {h : ContentHash} {entries : List HolderEntry}
    (hentries :
      (s.addEntry holder hash coverage attested receiveUs sequence).byHash h = some entries) :
    (h = hash ∧ entries = (s.byHash hash).getD [] ++
        [s.newEntry holder coverage attested receiveUs sequence]) ∨
      (h ≠ hash ∧ s.byHash h = some entries) := by
  unfold addEntry at hentries
  dsimp only at hentries
  by_cases hh : h = hash
  · subst hh
    rw [Function.update_self, Option.some.injEq] at hentries
    exact .inl ⟨rfl, hentries.symm⟩
  · rw [Function.update_of_ne hh] at hentries
    exact .inr ⟨hh, hentries⟩

/-- The list of a hash holds its records, and is empty without any. -/
theorem mem_getD {x : HolderEntry} : x ∈ (s.byHash hash).getD [] ↔ s.Holds hash x := by
  unfold Holds
  cases s.byHash hash with
  | none => simp
  | some entries => simp

theorem addEntry_holds (h : ContentHash) (x : HolderEntry) :
    (s.addEntry holder hash coverage attested receiveUs sequence).Holds h x ↔
      s.Holds h x ∨ (h = hash ∧ x = s.newEntry holder coverage attested receiveUs sequence) := by
  constructor
  · rintro ⟨entries, hentries, hx⟩
    rcases addEntry_byHash hentries with ⟨rfl, rfl⟩ | ⟨-, hentries⟩
    · rcases List.mem_append.mp hx with hx | hx
      · exact .inl (mem_getD.mp hx)
      · exact .inr ⟨rfl, List.mem_singleton.mp hx⟩
    · exact .inl ⟨entries, hentries, hx⟩
  · intro hx
    unfold Holds addEntry
    dsimp only
    by_cases hh : h = hash
    · subst hh
      rw [Function.update_self]
      refine ⟨_, rfl, List.mem_append.mpr ?_⟩
      rcases hx with hx | ⟨-, rfl⟩
      · exact .inl (mem_getD.mpr hx)
      · exact .inr (List.mem_singleton.mpr rfl)
    · rw [Function.update_of_ne hh]
      rcases hx with hx | ⟨hsame, -⟩
      · exact hx
      · exact absurd hsame hh

theorem recordsOf_addEntry (p : NodeId) :
    (s.addEntry holder hash coverage attested receiveUs sequence).recordsOf p =
      if holder = p then
        insert (keyOf hash (s.newEntry holder coverage attested receiveUs sequence)) (s.recordsOf p)
      else s.recordsOf p :=
  filter_insert _ _ _

/-- Putting in the only record of a holder for a hash keeps the indexes in agreement. -/
theorem addEntry_index (h : TriIndex s) (coverage : Coverage) (attested : AttestedBy)
    (receiveUs sequence : UInt64) (hnew : ∀ x, s.Holds hash x → x.holder ≠ holder) :
    Added s hash (s.newEntry holder coverage attested receiveUs sequence)
      (s.addEntry holder hash coverage attested receiveUs sequence) := by
  have hkey : keyOf hash (s.newEntry holder coverage attested receiveUs sequence) ∉ s.globalLru := by
    intro hmem
    rcases (h.lru _).mp hmem with ⟨x, hx, hsame⟩
    exact hnew x hx (congrArg LruKey.holder hsame)
  refine ⟨⟨?_, ?_, ?_, ?_, ?_, h.logged⟩, rfl, addEntry_holds, rfl, ?_⟩
  · intro k entries hk
    rcases addEntry_byHash hk with ⟨-, rfl⟩ | ⟨-, hk⟩
    · exact List.append_ne_nil_of_right_ne_nil _ (List.cons_ne_nil _ _)
    · exact h.bucket hk
  · intro k entries hk
    rcases addEntry_byHash hk with ⟨-, rfl⟩ | ⟨-, hk⟩
    · rw [List.map_append, List.nodup_append]
      refine ⟨?_, List.nodup_singleton _, ?_⟩
      · cases hlist : s.byHash hash with
        | none => exact List.nodup_nil
        | some entries => exact h.holders hlist
      · intro p hp q hq
        rcases List.mem_map.mp hp with ⟨x, hx, rfl⟩
        rw [List.map_singleton, List.mem_singleton] at hq
        rw [hq]
        exact hnew x (mem_getD.mp hx)
    · exact h.holders hk
  · intro k x hx
    rcases (addEntry_holds k x).mp hx with hx | ⟨-, rfl⟩
    · exact h.expiry hx
    · rfl
  · intro k
    rw [addEntry, mem_insert, h.lru]
    constructor
    · rintro (rfl | ⟨x, hx, hkey⟩)
      · exact ⟨_, (addEntry_holds _ _).mpr (.inr ⟨rfl, rfl⟩), rfl⟩
      · exact ⟨x, (addEntry_holds _ _).mpr (.inl hx), hkey⟩
    · rintro ⟨x, hx, hkey⟩
      rcases (addEntry_holds _ _).mp hx with hx | ⟨hhash, rfl⟩
      · exact .inr ⟨x, hx, hkey⟩
      · rw [hhash] at hkey
        exact .inl hkey.symm
  · intro p
    rw [recordsOf_addEntry]
    unfold addEntry
    dsimp only
    by_cases hp : p = holder
    · subst hp
      have hfresh : keyOf hash (s.newEntry p coverage attested receiveUs sequence) ∉
          s.recordsOf p := fun hmem => hkey (mem_filter.mp hmem).1
      have hcount := h.publisherRecordCount_eq p
      unfold publisherRecordCount at hcount
      rw [Function.update_self, if_pos rfl, card_insert_of_notMem hfresh,
        if_neg (Nat.succ_ne_zero _), hcount]
    · rw [Function.update_of_ne hp, if_neg (Ne.symm hp), h.count]
  · intro k entries hk
    rcases addEntry_byHash hk with ⟨rfl, rfl⟩ | ⟨hne, hk⟩
    · refine .inr ⟨rfl, ?_⟩
      rw [List.length_append, List.length_singleton]
    · exact .inl ⟨hne, hk⟩

/-! ## The caps -/

/-- Taking a record out keeps the caps. -/
theorem Removed.within (h : Removed s hash e s') (hw : Within s) : Within s' := by
  refine ⟨?_, ?_, ?_⟩
  · rw [h.lru, h.cfg]
    exact le_trans (card_erase_le) hw.global
  · intro p
    have hsub : s'.recordsOf p ⊆ s.recordsOf p := by
      unfold recordsOf
      rw [h.lru]
      exact filter_subset_filter _ (erase_subset _ _)
    rw [h.cfg]
    exact le_trans (card_le_card hsub) (hw.publisher p)
  · intro k entries' hk
    rcases h.length hk with ⟨entries, hentries, hle, -⟩
    rw [h.cfg]
    exact le_trans hle (hw.hash hentries)

/-- Room for one record under each cap. -/
structure Room (s : RecordStore) (holder : NodeId) (hash : ContentHash) : Prop where
  global : s.globalLru.card < s.cfg.maxRecordsGlobal
  publisher : (s.recordsOf holder).card < s.cfg.maxRecordsPerPublisher
  hash : ((s.byHash hash).getD []).length < s.cfg.maxProvidersPerHash

/-- With room, putting a record in keeps the caps. -/
theorem Added.within (h : Added s hash e s') (hw : Within s) (hroom : Room s e.holder hash) :
    Within s' := by
  refine ⟨?_, ?_, ?_⟩
  · rw [h.lru, h.cfg]
    exact le_trans (card_insert_le _ _) hroom.global
  · intro p
    unfold recordsOf
    rw [h.lru, h.cfg, filter_insert]
    split
    · rename_i hp
      have hp : e.holder = p := hp
      subst hp
      exact le_trans (card_insert_le _ _) hroom.publisher
    · exact hw.publisher p
  · intro k entries' hk
    rw [h.cfg]
    rcases h.length hk with ⟨-, hk⟩ | ⟨rfl, hlen⟩
    · exact hw.hash hk
    · rw [hlen]
      exact hroom.hash

/-! ## Evictions -/

theorem firstKey_eq_some {k : LruKey} (h : s.firstKey = some k) :
    k ∈ s.globalLru ∧ ∀ k' ∈ s.globalLru, k ≤ k' := by
  unfold firstKey at h
  split at h
  · cases h
    exact ⟨min'_mem _ _, fun k' hk' => min'_le _ _ hk'⟩
  · cases h

theorem firstKey_eq_none (h : s.firstKey = none) : s.globalLru = ∅ := by
  unfold firstKey at h
  split at h
  · cases h
  · rename_i hempty
    exact not_nonempty_iff_eq_empty.mp hempty

/-- Nothing, or one record, is taken out. -/
def Evicts (s s' : RecordStore) : Prop :=
  s' = s ∨ ∃ hash e, s.Holds hash e ∧ Removed s hash e s'

theorem Removed.lru_card (h : Removed s hash e s') (hs : TriIndex s) (he : s.Holds hash e) :
    s'.globalLru.card + 1 = s.globalLru.card := by
  rw [h.lru, card_erase_add_one (hs.key_mem he)]

theorem Evicts.index (h : Evicts s s') (hs : TriIndex s) : TriIndex s' := by
  rcases h with rfl | ⟨k, e, -, hremoved⟩
  · exact hs
  · exact hremoved.index

theorem Evicts.within (h : Evicts s s') (hw : Within s) : Within s' := by
  rcases h with rfl | ⟨k, e, -, hremoved⟩
  · exact hw
  · exact hremoved.within hw

theorem Evicts.cfg (h : Evicts s s') : s'.cfg = s.cfg := by
  rcases h with rfl | ⟨k, e, -, hremoved⟩
  · rfl
  · exact hremoved.cfg

theorem Evicts.holds (h : Evicts s s') {k : ContentHash} {x : HolderEntry}
    (hx : s'.Holds k x) : s.Holds k x := by
  rcases h with rfl | ⟨k', e, -, hremoved⟩
  · exact hx
  · exact ((hremoved.holds k x).mp hx).1

/-- Two records that an eviction took are one. -/
theorem Evicts.lost (h : Evicts s s') (hs : TriIndex s) {k k' : ContentHash} {x x' : HolderEntry}
    (hx : s.Holds k x) (hlost : ¬ s'.Holds k x) (hx' : s.Holds k' x')
    (hlost' : ¬ s'.Holds k' x') : k = k' ∧ x = x' := by
  rcases h with rfl | ⟨k₀, e, he, hremoved⟩
  · exact absurd hx hlost
  · rw [hremoved.holds, not_and, not_not] at hlost hlost'
    rcases hlost hx with ⟨rfl, hholder⟩
    rcases hlost' hx' with ⟨rfl, hholder'⟩
    exact ⟨rfl, hs.unique hx hx' (hholder.trans hholder'.symm)⟩

theorem Evicts.recordsOf_card (h : Evicts s s') (p : NodeId) :
    (s'.recordsOf p).card ≤ (s.recordsOf p).card := by
  rcases h with rfl | ⟨k, e, -, hremoved⟩
  · exact le_rfl
  · unfold recordsOf
    rw [hremoved.lru]
    exact card_le_card (filter_subset_filter _ (erase_subset _ _))

theorem Evicts.bucket (h : Evicts s s') (k : ContentHash) :
    ((s'.byHash k).getD []).length ≤ ((s.byHash k).getD []).length := by
  rcases h with rfl | ⟨k', e, -, hremoved⟩
  · exact le_rfl
  · cases hk : s'.byHash k with
    | none => exact Nat.zero_le _
    | some entries' =>
      rcases hremoved.length hk with ⟨entries, hentries, hle, -⟩
      rw [hentries]
      exact hle

/-- The oldest record leaves a store that has one. -/
theorem evictGloballyOldest_spec (h : TriIndex s) (hne : s.globalLru.Nonempty) :
    ∃ hash e, s.Holds hash e ∧ Removed s hash e s.evictGloballyOldest := by
  unfold evictGloballyOldest
  split
  · rename_i hnone
    rw [firstKey_eq_none hnone] at hne
    exact absurd hne not_nonempty_empty
  · rename_i k hk
    rcases (h.lru k).mp (firstKey_eq_some hk).1 with ⟨e, he, hkey⟩
    have hholder : e.holder = k.holder := congrArg LruKey.holder hkey
    rcases removeEntry_present h he with ⟨s', hremove, hremoved⟩
    rw [← hholder, hremove]
    exact ⟨k.hash, e, he, hremoved⟩

/-- The victim of the provider cap is a holder of a hash at the cap. -/
theorem evictHolder_eq_some {old : NodeId} (h : s.evictHolder hash = some old) :
    ∃ e, s.Holds hash e ∧ e.holder = old ∧
      s.cfg.maxProvidersPerHash ≤ ((s.byHash hash).getD []).length := by
  unfold evictHolder at h
  simp only [Option.bind_eq_bind, Option.bind_eq_some_iff, Option.ite_none_right_eq_some,
    Option.pure_def, Option.some.injEq] at h
  rcases h with ⟨entries, hentries, hcap, e, he, rfl⟩
  refine ⟨e, ⟨entries, hentries, List.argmin_mem he⟩, rfl, ?_⟩
  rw [hentries]
  exact hcap

/-- Without a victim the hash has room. -/
theorem evictHolder_eq_none (hcap : 0 < s.cfg.maxProvidersPerHash)
    (h : s.evictHolder hash = none) :
    ((s.byHash hash).getD []).length < s.cfg.maxProvidersPerHash := by
  cases hentries : s.byHash hash with
  | none => exact hcap
  | some entries =>
    by_contra hfull
    rw [Nat.not_lt, Option.getD_some] at hfull
    unfold evictHolder at h
    rw [hentries] at h
    simp only [Option.bind_eq_bind, Option.bind_some, if_pos hfull, Option.bind_eq_none_iff,
      Option.pure_def, reduceCtorEq, imp_false] at h
    have hnone : entries.argmin (fun e => e.receiveUs.toNat) = none :=
      Option.eq_none_iff_forall_ne_some.mpr h
    rw [List.argmin_eq_none] at hnone
    rw [hnone, List.length_nil] at hfull
    omega

/-! ## Inserts -/

/-- Every cap allows at least one record. -/
structure Positive (cfg : RecordStoreConfig) : Prop where
  publisher : 0 < cfg.maxRecordsPerPublisher
  global : 0 < cfg.maxRecordsGlobal
  hash : 0 < cfg.maxProvidersPerHash

/-- A record taken out leaves room in the global order. -/
theorem Removed.room_global (h : Removed s hash e s') (hs : TriIndex s) (hw : Within s)
    (he : s.Holds hash e) : s'.globalLru.card < s'.cfg.maxRecordsGlobal := by
  have hcard := h.lru_card hs he
  have hglobal := hw.global
  rw [h.cfg]
  omega

/-- A record taken out leaves room for another of its hash. -/
theorem Removed.room_hash (h : Removed s hash e s') (hw : Within s) (hcfg : Positive s.cfg) :
    ((s'.byHash hash).getD []).length < s'.cfg.maxProvidersPerHash := by
  rw [h.cfg]
  cases hk : s'.byHash hash with
  | none => exact hcfg.hash
  | some entries' =>
    rcases h.length hk with ⟨entries, hentries, -, hlen⟩
    have hcap := hw.hash hentries
    have hone := hlen rfl
    rw [Option.getD_some]
    omega

/-- A record taken out leaves room for another of its publisher. -/
theorem Removed.room_publisher (h : Removed s hash e s') (hs : TriIndex s) (hw : Within s)
    (he : s.Holds hash e) :
    (s'.recordsOf e.holder).card < s'.cfg.maxRecordsPerPublisher := by
  have hmem : keyOf hash e ∈ s.recordsOf e.holder := mem_filter.mpr ⟨hs.key_mem he, rfl⟩
  have hrecords : s'.recordsOf e.holder = (s.recordsOf e.holder).erase (keyOf hash e) := by
    unfold recordsOf
    rw [h.lru, filter_erase]
  have hcap := hw.publisher e.holder
  have hcard := card_erase_add_one hmem
  rw [h.cfg, hrecords]
  omega

/-- What an insert of a holder's record for a hash does.  `others` are the records it is not
about. -/
structure InsertSpec (s : RecordStore) (holder : NodeId) (hash : ContentHash)
    (s' : RecordStore) (outcome : InsertOutcome) : Prop where
  cfg : s'.cfg = s.cfg
  refreshed : outcome = .refreshed ↔ ∃ e, s.Holds hash e ∧ e.holder = holder
  quota : outcome = .rejectedQuotaExceeded ↔
    (¬ ∃ e, s.Holds hash e ∧ e.holder = holder) ∧
      s.cfg.maxRecordsPerPublisher ≤ s.publisherRecordCount holder
  stored : outcome ≠ .rejectedQuotaExceeded ↔ ∃ e, s'.Holds hash e ∧ e.holder = holder
  others : ∀ k x, s'.Holds k x → ¬ (k = hash ∧ x.holder = holder) → s.Holds k x
  kept : outcome ≠ .inserted → ∀ k x, s.Holds k x → ¬ (k = hash ∧ x.holder = holder) →
    s'.Holds k x
  lost : ∀ k x k' x',
    s.Holds k x → ¬ s'.Holds k x → ¬ (k = hash ∧ x.holder = holder) →
    s.Holds k' x' → ¬ s'.Holds k' x' → ¬ (k' = hash ∧ x'.holder = holder) → k = k' ∧ x = x'

/-- The allocation of a sequence number touches no record. -/
theorem TriIndex.ticked (h : TriIndex s) (n : UInt64) : TriIndex { s with nextSequence := n } :=
  ⟨h.bucket, h.holders, h.expiry, h.lru, h.count, h.logged⟩

theorem Within.ticked (h : Within s) (n : UInt64) : Within { s with nextSequence := n } :=
  ⟨h.global, h.publisher, h.hash⟩

theorem InsertSpec.of_ticked {n : UInt64} {outcome : InsertOutcome}
    (h : InsertSpec { s with nextSequence := n } holder hash s' outcome) :
    InsertSpec s holder hash s' outcome :=
  ⟨h.cfg, h.refreshed, h.quota, h.stored, h.others, h.kept, h.lost⟩

/-- An insert of a new record first takes out at most one record, and then there is room. -/
theorem makeRoom_spec (h : TriIndex s) (hw : Within s) (hcfg : Positive s.cfg)
    (hash : ContentHash) (hquota : s.publisherRecordCount holder < s.cfg.maxRecordsPerPublisher) :
    Evicts s (s.makeRoom hash) ∧ Room (s.makeRoom hash) holder hash := by
  rw [h.publisherRecordCount_eq] at hquota
  unfold makeRoom
  cases hold : s.evictHolder hash with
  | some old =>
    rcases evictHolder_eq_some hold with ⟨e, he, rfl, hfull⟩
    rcases removeEntry_present h he with ⟨s', hremove, hremoved⟩
    have hevicts : Evicts s s' := .inr ⟨hash, e, he, hremoved⟩
    dsimp only
    rw [hremove, if_neg (fun hgrows => Bool.false_ne_true hgrows.1)]
    refine ⟨hevicts, hremoved.room_global h hw he, ?_, hremoved.room_hash hw hcfg⟩
    dsimp only
    rw [hremoved.cfg]
    exact lt_of_le_of_lt (hevicts.recordsOf_card holder) hquota
  | none =>
    have hroom := evictHolder_eq_none hcfg.hash hold
    dsimp only
    by_cases hfull : s.cfg.maxRecordsGlobal ≤ s.globalLru.card
    · have hne : s.globalLru.Nonempty := by
        rw [← card_pos]
        exact lt_of_lt_of_le hcfg.global hfull
      rcases evictGloballyOldest_spec h hne with ⟨k, e, he, hremoved⟩
      have hevicts : Evicts s s.evictGloballyOldest := .inr ⟨k, e, he, hremoved⟩
      rw [if_pos ⟨rfl, hfull⟩]
      refine ⟨hevicts, hremoved.room_global h hw he, ?_, ?_⟩
      · rw [hremoved.cfg]
        exact lt_of_le_of_lt (hevicts.recordsOf_card holder) hquota
      · rw [hremoved.cfg]
        exact lt_of_le_of_lt (hevicts.bucket hash) hroom
    · rw [if_neg fun hgrows => hfull hgrows.2]
      exact ⟨.inl rfl, Nat.lt_of_not_le hfull, hquota, hroom⟩

/-- A re-publish takes the record out and puts it in again. -/
theorem refresh_spec (h : TriIndex s) (hw : Within s) (hcfg : Positive s.cfg)
    (he : s.Holds hash e) (hremoved : Removed s hash e s') (coverage : Coverage)
    (attested : AttestedBy) (receiveUs sequence : UInt64) :
    TriIndex (s'.addEntry e.holder hash coverage attested receiveUs sequence) ∧
      Within (s'.addEntry e.holder hash coverage attested receiveUs sequence) ∧
      InsertSpec s e.holder hash
        (s'.addEntry e.holder hash coverage attested receiveUs sequence) .refreshed := by
  have hnew : ∀ x, s'.Holds hash x → x.holder ≠ e.holder := by
    intro x hx hholder
    exact ((hremoved.holds hash x).mp hx).2 ⟨rfl, hholder⟩
  have hadded := addEntry_index hremoved.index coverage attested receiveUs sequence hnew
  have hkept : ∀ k x, s.Holds k x → ¬ (k = hash ∧ x.holder = e.holder) →
      (s'.addEntry e.holder hash coverage attested receiveUs sequence).Holds k x := by
    intro k x hx hother
    exact (hadded.holds k x).mpr (.inl ((hremoved.holds k x).mpr ⟨hx, hother⟩))
  refine ⟨hadded.index, hadded.within (hremoved.within hw) ?_, ?_⟩
  · exact ⟨hremoved.room_global h hw he, hremoved.room_publisher h hw he,
      hremoved.room_hash hw hcfg⟩
  · refine ⟨hadded.cfg.trans hremoved.cfg, ?_, ?_, ?_, ?_, fun _ => hkept, ?_⟩
    · exact ⟨fun _ => ⟨e, he, rfl⟩, fun _ => rfl⟩
    · constructor
      · intro hquota
        cases hquota
      · rintro ⟨hnone, -⟩
        exact absurd ⟨e, he, rfl⟩ hnone
    · constructor
      · intro _
        exact ⟨_, (hadded.holds hash _).mpr (.inr ⟨rfl, rfl⟩), rfl⟩
      · intro _ hquota
        cases hquota
    · intro k x hx hother
      rcases (hadded.holds k x).mp hx with hx | ⟨rfl, rfl⟩
      · exact ((hremoved.holds k x).mp hx).1
      · exact absurd ⟨rfl, rfl⟩ hother
    · intro k x _ _ hx hlost hother
      exact absurd (hkept k x hx hother) hlost

/-- A new record is put in once there is room. -/
theorem inserted_spec (h : TriIndex s) (hw : Within s)
    (habsent : ¬ ∃ e, s.Holds hash e ∧ e.holder = holder)
    (hquota : s.publisherRecordCount holder < s.cfg.maxRecordsPerPublisher)
    (hevicts : Evicts s s') (hroom : Room s' holder hash) (coverage : Coverage)
    (attested : AttestedBy) (receiveUs sequence : UInt64) :
    TriIndex (s'.addEntry holder hash coverage attested receiveUs sequence) ∧
      Within (s'.addEntry holder hash coverage attested receiveUs sequence) ∧
      InsertSpec s holder hash
        (s'.addEntry holder hash coverage attested receiveUs sequence) .inserted := by
  have hnew : ∀ x, s'.Holds hash x → x.holder ≠ holder := by
    intro x hx hholder
    exact habsent ⟨x, hevicts.holds hx, hholder⟩
  have hadded := addEntry_index (hevicts.index h) coverage attested receiveUs sequence hnew
  have hlost : ∀ k x,
      ¬ (s'.addEntry holder hash coverage attested receiveUs sequence).Holds k x →
        ¬ s'.Holds k x := by
    intro k x hnot hx
    exact hnot ((hadded.holds k x).mpr (.inl hx))
  refine ⟨hadded.index, hadded.within (hevicts.within hw) hroom, ?_⟩
  refine ⟨hadded.cfg.trans hevicts.cfg, ?_, ?_, ?_, ?_, fun hne => absurd rfl hne, ?_⟩
  · constructor
    · intro hrefreshed
      cases hrefreshed
    · intro hpresent
      exact absurd hpresent habsent
  · constructor
    · intro hrejected
      cases hrejected
    · rintro ⟨-, hfull⟩
      omega
  · constructor
    · intro _
      exact ⟨_, (hadded.holds hash _).mpr (.inr ⟨rfl, rfl⟩), rfl⟩
    · intro _ hrejected
      cases hrejected
  · intro k x hx hother
    rcases (hadded.holds k x).mp hx with hx | ⟨rfl, rfl⟩
    · exact hevicts.holds hx
    · exact absurd ⟨rfl, rfl⟩ hother
  · intro k x k' x' hx hgone _ hx' hgone' _
    exact hevicts.lost h hx (hlost k x hgone) hx' (hlost k' x' hgone')

/-- An insert keeps the indexes in agreement and the caps, whatever the clock says. -/
theorem insertAt_spec (h : TriIndex s) (hw : Within s) (hcfg : Positive s.cfg) :
    TriIndex (s.insertAt holder hash coverage attested receiveUs).1 ∧
      Within (s.insertAt holder hash coverage attested receiveUs).1 ∧
      InsertSpec s holder hash (s.insertAt holder hash coverage attested receiveUs).1
        (s.insertAt holder hash coverage attested receiveUs).2 := by
  have ht := h.ticked (s.nextSequence + 1)
  have hwt := hw.ticked (s.nextSequence + 1)
  unfold insertAt
  dsimp only
  by_cases hpresent : ∃ e, s.Holds hash e ∧ e.holder = holder
  · rcases hpresent with ⟨e, he, rfl⟩
    rcases removeEntry_present ht he with ⟨s₁, hremove, hremoved⟩
    rw [hremove]
    have hspec := refresh_spec ht hwt hcfg he hremoved coverage attested receiveUs s.nextSequence
    exact ⟨hspec.1, hspec.2.1, hspec.2.2.of_ticked⟩
  · have habsent : ∀ x, ({ s with nextSequence := s.nextSequence + 1 } : RecordStore).Holds hash x →
        x.holder ≠ holder := fun x hx hholder => hpresent ⟨x, hx, hholder⟩
    rw [removeEntry_absent habsent]
    dsimp only
    split
    · rename_i hfull
      refine ⟨ht, hwt, ⟨rfl, ?_, ?_, ?_, fun _ _ hx _ => hx, fun _ _ _ hx _ => hx, ?_⟩⟩
      · constructor
        · intro hrefreshed
          cases hrefreshed
        · intro hpres
          exact absurd hpres hpresent
      · exact ⟨fun _ => ⟨hpresent, hfull⟩, fun _ => rfl⟩
      · constructor
        · intro hne
          exact absurd rfl hne
        · intro hpres
          exact absurd hpres hpresent
      · intro k x _ _ hx hgone
        exact absurd hx hgone
    · rename_i hquota
      have hquota := Nat.lt_of_not_le hquota
      rcases makeRoom_spec ht hwt hcfg hash hquota with ⟨hevicts, hroom⟩
      have hspec := inserted_spec ht hwt hpresent hquota hevicts hroom coverage attested receiveUs
        s.nextSequence
      exact ⟨hspec.1, hspec.2.1, hspec.2.2.of_ticked⟩

/-! ## Reads -/

/-- Some records go, the others stay, and the indexes agree on both sides. -/
structure Drops (s : RecordStore) (gone : ContentHash → HolderEntry → Prop) (s' : RecordStore) :
    Prop where
  index : TriIndex s'
  within : Within s → Within s'
  cfg : s'.cfg = s.cfg
  holds : ∀ k x, s'.Holds k x ↔ s.Holds k x ∧ ¬ gone k x

theorem Drops.none (h : TriIndex s) {gone : ContentHash → HolderEntry → Prop}
    (hgone : ∀ k x, s.Holds k x → ¬ gone k x) : Drops s gone s where
  index := h
  within := id
  cfg := rfl
  holds := fun k x => ⟨fun hx => ⟨hx, hgone k x hx⟩, fun hx => hx.1⟩

/-- The removal of a holder's record for a hash, if there is one. -/
theorem removeEntry_drops (h : TriIndex s) (holder : NodeId) (hash : ContentHash) :
    Drops s (fun k x => k = hash ∧ x.holder = holder) (s.removeEntry holder hash).1 := by
  by_cases hpresent : ∃ e, s.Holds hash e ∧ e.holder = holder
  · rcases hpresent with ⟨e, he, rfl⟩
    rcases removeEntry_present h he with ⟨s', hremove, hremoved⟩
    rw [hremove]
    exact ⟨hremoved.index, hremoved.within, hremoved.cfg, hremoved.holds⟩
  · rw [removeEntry_absent fun x hx hholder => hpresent ⟨x, hx, hholder⟩]
    apply Drops.none h
    rintro k x hx ⟨rfl, hholder⟩
    exact hpresent ⟨x, hx, hholder⟩

theorem removeHolders_drops (h : TriIndex s) (holders : List NodeId) (hash : ContentHash) :
    Drops s (fun k x => k = hash ∧ x.holder ∈ holders)
      (holders.foldl (fun s holder => (s.removeEntry holder hash).1) s) := by
  induction holders generalizing s with
  | nil =>
    apply Drops.none h
    rintro k x - ⟨-, hmem⟩
    cases hmem
  | cons holder holders ih =>
    have hfirst := removeEntry_drops h holder hash
    have hrest := ih hfirst.index
    refine ⟨hrest.index, fun hw => hrest.within (hfirst.within hw), hrest.cfg.trans hfirst.cfg, ?_⟩
    intro k x
    rw [List.foldl_cons, hrest.holds, hfirst.holds, List.mem_cons]
    constructor
    · rintro ⟨⟨hx, hfirst⟩, hrest⟩
      refine ⟨hx, ?_⟩
      rintro ⟨hk, hholder | hholder⟩
      · exact hfirst ⟨hk, hholder⟩
      · exact hrest ⟨hk, hholder⟩
    · rintro ⟨hx, hgone⟩
      exact ⟨⟨hx, fun hfirst => hgone ⟨hfirst.1, .inl hfirst.2⟩⟩,
        fun hrest => hgone ⟨hrest.1, .inr hrest.2⟩⟩

/-- A read drops the expired records of its hash. -/
theorem scrubHashExpired_drops (h : TriIndex s) (hash : ContentHash) (nowUs : UInt64) :
    Drops s (fun k x => k = hash ∧ x.expiryUs ≤ nowUs) (s.scrubHashExpired hash nowUs).1 := by
  unfold scrubHashExpired
  cases hentries : s.byHash hash with
  | none =>
    apply Drops.none h
    rintro k x ⟨entries, hk, -⟩ ⟨rfl, -⟩
    rw [hentries] at hk
    cases hk
  | some entries =>
    dsimp only
    have hdrops := removeHolders_drops h
      ((entries.filter fun e => e.expiryUs ≤ nowUs).map HolderEntry.holder) hash
    refine ⟨hdrops.index, hdrops.within, hdrops.cfg, ?_⟩
    intro k x
    rw [hdrops.holds, and_congr_right_iff, not_iff_not]
    intro hx
    rw [and_congr_right_iff]
    rintro rfl
    rw [List.mem_map]
    constructor
    · rintro ⟨y, hy, hholder⟩
      rcases List.mem_filter.mp hy with ⟨hy, hexpired⟩
      rw [← h.unique ⟨entries, hentries, hy⟩ hx hholder]
      exact of_decide_eq_true hexpired
    · intro hexpired
      rcases hx with ⟨entries', hk, hx⟩
      rw [hentries, Option.some.injEq] at hk
      subst hk
      exact ⟨x, List.mem_filter.mpr ⟨hx, decide_eq_true hexpired⟩, rfl⟩

/-- The providers of a hash are those of its unexpired records whose signer is admitted. -/
theorem providersAt_spec (h : TriIndex s) (hash : ContentHash) (nowUs : UInt64)
    (admits : Address → Bool) :
    Drops s (fun k x => k = hash ∧ x.expiryUs ≤ nowUs) (s.providersAt hash nowUs admits).1 ∧
      ∀ p, p ∈ (s.providersAt hash nowUs admits).2 ↔
        ∃ e, s.Holds hash e ∧ nowUs < e.expiryUs ∧ admits e.signer ∧
          p = ⟨e.holder, e.coverage, e.attestation⟩ := by
  have hdrops := scrubHashExpired_drops h hash nowUs
  refine ⟨hdrops, ?_⟩
  intro p
  have hlive : ∀ e, (s.scrubHashExpired hash nowUs).1.Holds hash e ↔
      s.Holds hash e ∧ nowUs < e.expiryUs := by
    intro e
    rw [hdrops.holds, and_congr_right_iff]
    intro _
    rw [not_and, UInt64.not_le]
    exact ⟨fun hlt => hlt rfl, fun hlt _ => hlt⟩
  have hlist : (s.providersAt hash nowUs admits).2 =
      ((((s.scrubHashExpired hash nowUs).1.byHash hash).getD []).filter
        fun e => admits e.signer).map fun e => ⟨e.holder, e.coverage, e.attestation⟩ := by
    unfold providersAt
    dsimp only
    cases (s.scrubHashExpired hash nowUs).1.byHash hash with
    | none => rfl
    | some entries => rfl
  rw [hlist, List.mem_map]
  constructor
  · rintro ⟨e, he, rfl⟩
    rcases List.mem_filter.mp he with ⟨he, hadmits⟩
    rcases (hlive e).mp (mem_getD.mp he) with ⟨he, hexpiry⟩
    exact ⟨e, he, hexpiry, hadmits, rfl⟩
  · rintro ⟨e, he, hexpiry, hadmits, rfl⟩
    exact ⟨e, List.mem_filter.mpr ⟨mem_getD.mpr ((hlive e).mpr ⟨he, hexpiry⟩), hadmits⟩, rfl⟩

/-! ## The sweep -/

/-- The global order is an order by time of acceptance. -/
theorem receiveUs_le {k k' : LruKey} (h : k ≤ k') : k.receiveUs.toNat ≤ k'.receiveUs.toNat := by
  have hlex : k.toLexOrder ≤ k'.toLexOrder := h
  rcases Prod.Lex.le_iff.mp hlex with hlt | ⟨heq, -⟩
  · exact le_of_lt hlt
  · exact le_of_eq heq

/-- A later acceptance never expires earlier, also where the sum is clamped. -/
theorem wordAdd_mono {a b c : UInt64} (h : a.toNat ≤ b.toNat) :
    (U64.wordAdd a c).toNat ≤ (U64.wordAdd b c).toNat := by
  unfold U64.wordAdd U64.saturatingAdd
  rw [U64.toNat_ofNat (min_le_right _ _), U64.toNat_ofNat (min_le_right _ _)]
  exact min_le_min (Nat.add_le_add_right h _) le_rfl

/-- The walk takes the expired records off the front and counts them.  Behind the first key that
is not expired no key is. -/
theorem gcLoop_drops {fuel : Nat} (h : TriIndex s) (nowUs : UInt64)
    (hfuel : s.globalLru.card < fuel) :
    Drops s (fun _ x => x.expiryUs ≤ nowUs) (gcLoop nowUs fuel s).1 ∧
      (gcLoop nowUs fuel s).2 + (gcLoop nowUs fuel s).1.globalLru.card = s.globalLru.card := by
  induction fuel generalizing s with
  | zero => exact absurd hfuel (Nat.not_lt_zero _)
  | succ fuel ih =>
    unfold gcLoop
    split
    · rename_i hnone
      refine ⟨Drops.none h ?_, Nat.zero_add _⟩
      intro k x hx
      have hmem := h.key_mem hx
      rw [firstKey_eq_none hnone] at hmem
      exact absurd hmem (notMem_empty _)
    · rename_i key hkey
      rcases firstKey_eq_some hkey with ⟨hmem, hfirst⟩
      dsimp only
      split
      · rename_i hlive
        refine ⟨Drops.none h ?_, Nat.zero_add _⟩
        intro k x hx hexpired
        rw [h.expiry hx, UInt64.le_iff_toNat_le] at hexpired
        rw [UInt64.lt_iff_toNat_lt] at hlive
        have hmono := wordAdd_mono (c := s.cfg.ttlUs) (receiveUs_le (hfirst _ (h.key_mem hx)))
        exact absurd (lt_of_lt_of_le hlive hmono) (Nat.not_lt.mpr hexpired)
      · rename_i hexpired
        rcases (h.lru key).mp hmem with ⟨e, he, hsame⟩
        have hholder : e.holder = key.holder := congrArg LruKey.holder hsame
        have hreceive : e.receiveUs = key.receiveUs := congrArg LruKey.receiveUs hsame
        rcases removeEntry_present h he with ⟨s₁, hremove, hremoved⟩
        have hcard := hremoved.lru_card h he
        rw [← hholder, hremove]
        dsimp only
        rcases ih hremoved.index (by omega) with ⟨hdrops, hcount⟩
        refine ⟨⟨hdrops.index, fun hw => hdrops.within (hremoved.within hw),
          hdrops.cfg.trans hremoved.cfg, ?_⟩, by omega⟩
        intro k x
        rw [hdrops.holds, hremoved.holds]
        constructor
        · rintro ⟨⟨hx, -⟩, hlive⟩
          exact ⟨hx, hlive⟩
        · rintro ⟨hx, hlive⟩
          refine ⟨⟨hx, ?_⟩, hlive⟩
          rintro ⟨rfl, hsameHolder⟩
          rw [h.unique hx he hsameHolder, h.expiry he, hreceive] at hlive
          exact hlive (UInt64.not_lt.mp hexpired)

/-- The sweep removes exactly the expired records and returns their number. -/
theorem gc_spec (h : TriIndex s) (nowUs : UInt64) :
    Drops s (fun _ x => x.expiryUs ≤ nowUs) (s.gc nowUs).1 ∧
      (s.gc nowUs).2 =
        (s.globalLru.filter fun k => U64.wordAdd k.receiveUs s.cfg.ttlUs ≤ nowUs).card := by
  have hwalk := gcLoop_drops h nowUs (Nat.lt_succ_self s.globalLru.card)
  have hdrops : Drops s (fun _ x => x.expiryUs ≤ nowUs) (s.gc nowUs).1 := hwalk.1
  have hcount : (s.gc nowUs).2 + (s.gc nowUs).1.globalLru.card = s.globalLru.card := hwalk.2
  refine ⟨hdrops, ?_⟩
  have hleft : (s.gc nowUs).1.globalLru =
      s.globalLru.filter fun k => ¬ U64.wordAdd k.receiveUs s.cfg.ttlUs ≤ nowUs := by
    ext k
    rw [hdrops.index.lru, mem_filter, h.lru]
    constructor
    · rintro ⟨x, hx, hkey⟩
      rcases (hdrops.holds _ _).mp hx with ⟨hx, hlive⟩
      refine ⟨⟨x, hx, hkey⟩, ?_⟩
      rw [h.expiry hx] at hlive
      rw [← hkey]
      exact hlive
    · rintro ⟨⟨x, hx, hkey⟩, hlive⟩
      refine ⟨x, (hdrops.holds _ _).mpr ⟨hx, ?_⟩, hkey⟩
      rw [h.expiry hx]
      rw [← hkey] at hlive
      exact hlive
  have hsplit := card_filter_add_card_filter_not
    (s := s.globalLru) (fun k => U64.wordAdd k.receiveUs s.cfg.ttlUs ≤ nowUs)
  rw [hleft] at hcount
  omega

/-! ## Runs -/

theorem triIndex_new (cfg : RecordStoreConfig) : TriIndex (new cfg) := by
  refine ⟨?_, ?_, ?_, ?_, ?_, rfl⟩
  · intro hash entries h
    cases h
  · intro hash entries h
    cases h
  · rintro hash e ⟨entries, h, -⟩
    cases h
  · intro k
    refine ⟨fun h => absurd h (notMem_empty _), ?_⟩
    rintro ⟨e, ⟨entries, h, -⟩, -⟩
    cases h
  · intro holder
    rfl

theorem within_new (cfg : RecordStoreConfig) : Within (new cfg) := by
  refine ⟨Nat.zero_le _, fun _ => Nat.zero_le _, ?_⟩
  intro hash entries h
  cases h

/-- Every operation keeps the indexes in agreement, the caps and the configuration. -/
theorem apply_sound (h : TriIndex s) (hw : Within s) (hcfg : Positive s.cfg) (op : Op) :
    TriIndex (s.apply op) ∧ Within (s.apply op) ∧ (s.apply op).cfg = s.cfg := by
  cases op with
  | insertAt holder hash coverage attested receiveUs =>
    rcases insertAt_spec h hw hcfg with ⟨hindex, hwithin, hspec⟩
    exact ⟨hindex, hwithin, hspec.cfg⟩
  | providersAt hash nowUs admits =>
    have hdrops := (providersAt_spec h hash nowUs admits).1
    exact ⟨hdrops.index, hdrops.within hw, hdrops.cfg⟩
  | gc nowUs =>
    have hdrops := (gc_spec h nowUs).1
    exact ⟨hdrops.index, hdrops.within hw, hdrops.cfg⟩

theorem run_sound {cfg : RecordStoreConfig} (hcfg : Positive cfg) (ops : List Op) :
    TriIndex (run cfg ops) ∧ Within (run cfg ops) ∧ (run cfg ops).cfg = cfg := by
  induction ops using List.reverseRecOn with
  | nil => exact ⟨triIndex_new cfg, within_new cfg, rfl⟩
  | append_singleton ops op ih =>
    rcases ih with ⟨hindex, hwithin, hsame⟩
    have hrun : run cfg (ops ++ [op]) = (run cfg ops).apply op := by
      unfold run
      rw [List.foldl_append]
      rfl
    rw [hrun]
    have hpos : Positive (run cfg ops).cfg := by
      rw [hsame]
      exact hcfg
    rcases apply_sound hindex hwithin hpos op with ⟨hindex', hwithin', hsame'⟩
    exact ⟨hindex', hwithin', hsame'.trans hsame⟩

/-- After any sequence of operations, at any clock readings, the three indexes describe one set
of records and no error was logged; the caps are kept; an insert is a refresh exactly when the
record is there, and then neither rejected nor evicting; one insert removes at most one other
record; the sweep removes exactly the expired records and returns their number; and a read
returns no expired record. -/
theorem record_store_sound {cfg : RecordStoreConfig} (hcfg : Positive cfg) (ops : List Op) :
    TriIndex (run cfg ops) ∧ Within (run cfg ops) ∧
      (∀ holder, (run cfg ops).publisherRecordCount holder =
        ((run cfg ops).hashesOf holder).ncard) ∧
      (∀ holder hash coverage attested receiveUs,
        InsertSpec (run cfg ops) holder hash
          ((run cfg ops).insertAt holder hash coverage attested receiveUs).1
          ((run cfg ops).insertAt holder hash coverage attested receiveUs).2) ∧
      (∀ nowUs,
        (∀ k x, ((run cfg ops).gc nowUs).1.Holds k x ↔
          (run cfg ops).Holds k x ∧ ¬ U64.wordAdd x.receiveUs cfg.ttlUs ≤ nowUs) ∧
        ((run cfg ops).gc nowUs).2 = ((run cfg ops).globalLru.filter
          fun k => U64.wordAdd k.receiveUs cfg.ttlUs ≤ nowUs).card) ∧
      ∀ hash nowUs admits, ∀ p ∈ ((run cfg ops).providersAt hash nowUs admits).2,
        ∃ e, (run cfg ops).Holds hash e ∧ nowUs < e.expiryUs ∧
          p = ⟨e.holder, e.coverage, e.attestation⟩ := by
  rcases run_sound hcfg ops with ⟨hindex, hwithin, hsame⟩
  have hpos : Positive (run cfg ops).cfg := by
    rw [hsame]
    exact hcfg
  refine ⟨hindex, hwithin, ?_, ?_, ?_, ?_⟩
  · intro holder
    rw [hindex.publisherRecordCount_eq, hindex.card_recordsOf]
  · intro holder hash coverage attested receiveUs
    exact (insertAt_spec hindex hwithin hpos).2.2
  · intro nowUs
    rcases gc_spec hindex nowUs with ⟨hdrops, hcount⟩
    rw [hsame] at hcount
    refine ⟨?_, hcount⟩
    intro k x
    rw [hdrops.holds, and_congr_right_iff]
    intro hx
    rw [hindex.expiry hx, hsame]
  · intro hash nowUs admits p hp
    rcases ((providersAt_spec hindex hash nowUs admits).2 p).mp hp with
      ⟨e, he, hexpiry, -, hprovider⟩
    exact ⟨e, he, hexpiry, hprovider⟩

/-- A holder publishes twice, the second time at an earlier clock reading. -/
def sampleOps : List Op :=
  let point : Point := ⟨Vector.replicate nodeIdLen 1⟩
  let attested : AttestedBy := ⟨⟨1, 1, 1, []⟩, 1⟩
  [.insertAt ⟨point⟩ ⟨point⟩ ⟨[1]⟩ attested 9, .insertAt ⟨point⟩ ⟨point⟩ ⟨[1]⟩ attested 4]

theorem record_store_sound_sample :
    ((run ⟨1, 1, 1, 10⟩ sampleOps).gc 15).2 = 1 ∧ TriIndex (run ⟨1, 1, 1, 10⟩ sampleOps) ∧
      Within (run ⟨1, 1, 1, 10⟩ sampleOps) :=
  have hsound := record_store_sound ⟨by decide, by decide, by decide⟩ sampleOps
  ⟨by decide, hsound.1, hsound.2.1⟩

end RecordStore

end Decdn.Dht
