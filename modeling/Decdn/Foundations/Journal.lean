import Decdn.Foundations.FiniteMaps

/-!
# Metered accounts

A writer keeps a journal of cumulative entries.  Between two entries it may sell
ticks, each worth one fixed step on a money axis and on a quantity axis; an entry
that opens a new epoch folds the ticks of the epoch before it.  A reader follows
the journal from items that arrive on many queues, each in order but the queues
in any order, and stands at some entry and some tick of its epoch.

The quantity at any position the reader can reach is what has been paid out so
far plus what the items still under way add up to, as far as that position
covers them.  So whatever arrives next finds its worth.

Main results:

- Theorem `Journal.Ordered.enter` and Theorem `Journal.Ordered.tick`: the
  journal stays ordered.
- Theorem `Position.read_covers`: reading an item moves the position past it.
- Theorem `Conserved.enter`, Theorem `Conserved.tick` and Theorem
  `Conserved.read`: the accounting of the two ends.
-/

namespace Decdn

/-! ## Journals -/

/-- What a tick costs and what it is for, and the rate at which quantity may grow
with money. -/
structure Tariff where
  price : Nat
  unit : Nat
  rate : Nat
  scale : Nat
  price_pos : 0 < price
  unit_pos : 0 < unit
  fair : unit * rate ≤ price * scale

/-- A cumulative entry of an epoch. -/
structure Entry where
  epoch : Nat
  amount : Nat
  bytes : Nat
deriving DecidableEq, Repr

/-- The entries, newest first, and the ticks sold in each epoch. -/
structure Journal where
  last : Entry
  older : List Entry
  ticks : Nat → Nat

/-- All entries, newest first. -/
def Journal.entries (J : Journal) : List Entry := J.last :: J.older

variable {T : Tariff} {J : Journal} {x y e : Entry}

/-- `x` is an entry at or before `y`. -/
structure Entry.Precedes (T : Tariff) (ticks : Nat → Nat) (x y : Entry) : Prop where
  epoch_le : x.epoch ≤ y.epoch
  amount_le : x.amount ≤ y.amount
  bytes_le : x.bytes ≤ y.bytes
  rate : (y.bytes - x.bytes) * T.rate ≤ (y.amount - x.amount) * T.scale
  tie : x.amount = y.amount ↔ x.bytes = y.bytes
  folds : x.epoch < y.epoch → x.amount + ticks x.epoch * T.price ≤ y.amount ∧
    x.bytes + ticks x.epoch * T.unit ≤ y.bytes
  /-- Only the epoch before the first may end without a tick. -/
  strict : 0 < x.epoch → x.epoch < y.epoch → x.amount < y.amount

/-- An entry precedes itself. -/
theorem Entry.Precedes.refl (T : Tariff) (ticks : Nat → Nat) (x : Entry) :
    x.Precedes T ticks x where
  epoch_le := le_rfl
  amount_le := le_rfl
  bytes_le := le_rfl
  rate := by simp
  tie := ⟨fun _ => rfl, fun _ => rfl⟩
  folds h := absurd h (Nat.lt_irrefl _)
  strict _ h := absurd h (Nat.lt_irrefl _)

/-- The entries of a journal are ordered. -/
structure Journal.Ordered (T : Tariff) (J : Journal) : Prop where
  precedes : J.entries.Pairwise fun newer older => older.Precedes T J.ticks newer
  ticks_zero : J.ticks 0 = 0
  ticks_later : ∀ k, J.last.epoch < k → J.ticks k = 0

/-- Every entry is at or before the newest. -/
theorem Journal.Ordered.precedes_last (h : J.Ordered T) (hx : x ∈ J.entries) :
    x.Precedes T J.ticks J.last := by
  rcases List.mem_cons.mp hx with rfl | hold
  · exact Entry.Precedes.refl T J.ticks _
  · exact (List.pairwise_cons.mp h.precedes).1 x hold

/-- Any two entries are ordered one way or the other. -/
theorem Journal.Ordered.comparable (h : J.Ordered T) (hx : x ∈ J.entries) (hy : y ∈ J.entries) :
    x.Precedes T J.ticks y ∨ y.Precedes T J.ticks x := by
  have hall : ∀ es : List Entry, es.Pairwise (fun newer older => older.Precedes T J.ticks newer) →
      x ∈ es → y ∈ es → x.Precedes T J.ticks y ∨ y.Precedes T J.ticks x := by
    intro es hes
    induction es with
    | nil => exact nofun
    | cons e es ih =>
      intro hx hy
      rcases List.pairwise_cons.mp hes with ⟨hhead, htail⟩
      rcases List.mem_cons.mp hx with rfl | hx'
      · rcases List.mem_cons.mp hy with rfl | hy'
        · exact .inl (Entry.Precedes.refl T J.ticks _)
        · exact .inr (hhead y hy')
      · rcases List.mem_cons.mp hy with rfl | hy'
        · exact .inl (hhead x hx')
        · exact ih htail hx' hy'
  exact hall J.entries h.precedes hx hy

/-! ## Writing -/

/-- The newest entry with the ticks of its epoch folded, and `quantity` more for
`cost`. -/
def Journal.next (T : Tariff) (J : Journal) (epoch cost quantity : Nat) : Entry where
  epoch := epoch
  amount := J.last.amount + J.ticks J.last.epoch * T.price + cost
  bytes := J.last.bytes + J.ticks J.last.epoch * T.unit + quantity

/-- Add an entry. -/
def Journal.enter (T : Tariff) (J : Journal) (epoch cost quantity : Nat) : Journal where
  last := J.next T epoch cost quantity
  older := J.entries
  ticks := J.ticks

/-- Sell one more tick of the newest epoch. -/
def Journal.tick (J : Journal) : Journal :=
  { J with ticks := Function.update J.ticks J.last.epoch (J.ticks J.last.epoch + 1) }

/-- No epoch loses a tick. -/
theorem Journal.ticks_le_tick (J : Journal) (k : Nat) : J.ticks k ≤ J.tick.ticks k := by
  rcases eq_or_ne k J.last.epoch with rfl | hne
  · simp [Journal.tick]
  · simp [Journal.tick, Function.update_of_ne hne]

/-- An entry may be added: the quantity is paid for, and its epoch is the newest
one with no ticks, or the one after it. -/
structure Journal.Enters (T : Tariff) (J : Journal) (epoch cost quantity : Nat) : Prop where
  paid : quantity * T.rate ≤ cost * T.scale
  free : cost = 0 ↔ quantity = 0
  epoch : (epoch = J.last.epoch ∧ J.ticks J.last.epoch = 0) ∨
    (epoch = J.last.epoch + 1 ∧ (0 < J.last.epoch → 0 < J.ticks J.last.epoch))

section Enter

variable {epoch cost quantity : Nat}

/-- The new entry comes after every other. -/
theorem Journal.Ordered.precedes_next (h : J.Ordered T) (henter : J.Enters T epoch cost quantity)
    (hx : x ∈ J.entries) : x.Precedes T J.ticks (J.next T epoch cost quantity) := by
  have hlast := h.precedes_last hx
  rcases henter with ⟨hpaid, hfree, hepoch⟩
  have hfair : J.ticks J.last.epoch * (T.unit * T.rate) ≤
      J.ticks J.last.epoch * (T.price * T.scale) := Nat.mul_le_mul_left _ T.fair
  have hticks : J.ticks J.last.epoch * T.price = 0 ↔ J.ticks J.last.epoch * T.unit = 0 := by
    rw [Nat.mul_eq_zero, Nat.mul_eq_zero]
    have hprice := T.price_pos
    have hunit := T.unit_pos
    omega
  have hamount := hlast.amount_le
  have hbytes := hlast.bytes_le
  have htie := hlast.tie
  constructor
  · have hle := hlast.epoch_le
    simp only [Journal.next]
    omega
  · simp only [Journal.next]
    omega
  · simp only [Journal.next]
    omega
  · -- What was entered before, the ticks and the new quantity are each paid for.
    have hsplit : J.last.bytes + J.ticks J.last.epoch * T.unit + quantity - x.bytes =
        (J.last.bytes - x.bytes) + J.ticks J.last.epoch * T.unit + quantity := by omega
    have hsplit' : J.last.amount + J.ticks J.last.epoch * T.price + cost - x.amount =
        (J.last.amount - x.amount) + J.ticks J.last.epoch * T.price + cost := by omega
    simp only [Journal.next]
    rw [hsplit, hsplit', Nat.add_mul, Nat.add_mul, Nat.add_mul, Nat.add_mul, Nat.mul_assoc,
      Nat.mul_assoc]
    exact Nat.add_le_add (Nat.add_le_add hlast.rate hfair) hpaid
  · simp only [Journal.next]
    omega
  · intro hlt
    simp only [Journal.next] at hlt ⊢
    rcases Nat.lt_or_ge x.epoch J.last.epoch with hbefore | hsame
    · have hfolds := hlast.folds hbefore
      omega
    · have heq : x.epoch = J.last.epoch := le_antisymm hlast.epoch_le hsame
      rw [heq]
      omega
  · intro hpos hlt
    simp only [Journal.next] at hlt ⊢
    rcases Nat.lt_or_ge x.epoch J.last.epoch with hbefore | hsame
    · have hstrict := hlast.strict hpos hbefore
      omega
    · have heq : x.epoch = J.last.epoch := le_antisymm hlast.epoch_le hsame
      have hsold : 0 < J.ticks J.last.epoch * T.price :=
        Nat.mul_pos (by omega) T.price_pos
      omega

/-- Adding an entry keeps the order. -/
theorem Journal.Ordered.enter (h : J.Ordered T) (henter : J.Enters T epoch cost quantity) :
    (J.enter T epoch cost quantity).Ordered T where
  precedes := List.pairwise_cons.mpr ⟨fun _ hx => h.precedes_next henter hx, h.precedes⟩
  ticks_zero := h.ticks_zero
  ticks_later k hk := by
    apply h.ticks_later k
    rcases henter.epoch with ⟨heq, -⟩ | ⟨heq, -⟩
    · exact heq ▸ hk
    · have hk : epoch < k := hk
      omega

end Enter

/-- Selling a tick keeps the order: no later entry has folded it. -/
theorem Journal.Ordered.tick (h : J.Ordered T) (hopen : 0 < J.last.epoch) : J.tick.Ordered T := by
  have hkeep : ∀ newer older : Entry, newer ∈ J.entries → older.Precedes T J.ticks newer →
      older.Precedes T J.tick.ticks newer := by
    intro newer older hnewer hprec
    refine ⟨hprec.epoch_le, hprec.amount_le, hprec.bytes_le, hprec.rate, hprec.tie, ?_,
      hprec.strict⟩
    intro hlt
    have hlast := (h.precedes_last hnewer).epoch_le
    have hne : older.epoch ≠ J.last.epoch := by omega
    simp only [Journal.tick, Function.update_of_ne hne]
    exact hprec.folds hlt
  constructor
  · apply h.precedes.imp_of_mem
    intro newer older hnewer _ hprec
    exact hkeep newer older hnewer hprec
  · simp only [Journal.tick]
    rw [Function.update_of_ne (by omega)]
    exact h.ticks_zero
  · intro k hk
    have hk : J.last.epoch < k := hk
    simp only [Journal.tick]
    rw [Function.update_of_ne (by omega)]
    exact h.ticks_later k hk

/-! ## Positions -/

/-- Where a reader stands: an entry and a number of ticks of its epoch. -/
structure Position where
  entry : Entry
  index : Nat

variable {P Q R : Position}

/-- The money at a position. -/
def Position.amount (T : Tariff) (P : Position) : Nat := P.entry.amount + P.index * T.price

/-- The quantity at a position. -/
def Position.bytes (T : Tariff) (P : Position) : Nat := P.entry.bytes + P.index * T.unit

/-- A position of the journal. -/
structure Position.In (J : Journal) (P : Position) : Prop where
  entry_mem : P.entry ∈ J.entries
  index_le : P.index ≤ J.ticks P.entry.epoch

/-- One position is at or before another. -/
def Position.Le (P Q : Position) : Prop :=
  P.entry.amount ≤ Q.entry.amount ∧
    (P.entry.epoch < Q.entry.epoch ∨ P.entry.epoch = Q.entry.epoch ∧ P.index ≤ Q.index)

/-- The newest position. -/
def Journal.front (J : Journal) : Position := ⟨J.last, J.ticks J.last.epoch⟩

/-- The newest position is one of the journal. -/
theorem Journal.front_in (J : Journal) : J.front.In J :=
  ⟨List.mem_cons_self, le_rfl⟩

/-- A position is at or before itself. -/
theorem Position.Le.refl (P : Position) : P.Le P :=
  ⟨le_rfl, .inr ⟨rfl, le_rfl⟩⟩

/-- Positions are ordered. -/
theorem Position.Le.trans (h : P.Le Q) (h' : Q.Le R) : P.Le R := by
  rcases h with ⟨hamount, hstep⟩
  rcases h' with ⟨hamount', hstep'⟩
  refine ⟨le_trans hamount hamount', ?_⟩
  omega

/-- Every position is at or before the newest, and worth no more. -/
theorem Journal.Ordered.le_front (h : J.Ordered T) (hP : P.In J) :
    P.Le J.front ∧ P.amount T ≤ J.front.amount T ∧ P.bytes T ≤ J.front.bytes T := by
  have hlast := h.precedes_last hP.entry_mem
  have hindex := hP.index_le
  have hprice : P.index * T.price ≤ J.ticks P.entry.epoch * T.price :=
    Nat.mul_le_mul_right _ hindex
  have hunit : P.index * T.unit ≤ J.ticks P.entry.epoch * T.unit :=
    Nat.mul_le_mul_right _ hindex
  have hamount := hlast.amount_le
  have hbytes := hlast.bytes_le
  simp only [Position.Le, Position.amount, Position.bytes, Journal.front]
  rcases Nat.lt_or_ge P.entry.epoch J.last.epoch with hbefore | hsame
  · have hfolds := hlast.folds hbefore
    exact ⟨⟨hamount, .inl hbefore⟩, by omega, by omega⟩
  · have heq : P.entry.epoch = J.last.epoch := le_antisymm hlast.epoch_le hsame
    rw [heq] at hindex hprice hunit
    exact ⟨⟨hamount, .inr ⟨heq, hindex⟩⟩, by omega, by omega⟩

/-- Once the newest epoch has sold a tick, a position worth the front's quantity is
at the front. -/
theorem Journal.Ordered.eq_front (h : J.Ordered T) (hP : P.In J)
    (hsold : 0 < J.ticks J.last.epoch) (hbytes : P.bytes T = J.front.bytes T) :
    P.entry.epoch = J.last.epoch ∧ P.index = J.ticks J.last.epoch ∧
      P.entry.amount = J.last.amount := by
  have hlast := h.precedes_last hP.entry_mem
  have hindex := hP.index_le
  have hunit : P.index * T.unit ≤ J.ticks P.entry.epoch * T.unit := Nat.mul_le_mul_right _ hindex
  have hticks : 0 < J.ticks J.last.epoch * T.unit := Nat.mul_pos hsold T.unit_pos
  simp only [Position.bytes, Journal.front] at hbytes
  have hepoch : P.entry.epoch = J.last.epoch := by
    rcases Nat.lt_or_eq_of_le hlast.epoch_le with hlt | heq
    · have hfolds := (hlast.folds hlt).2
      omega
    · exact heq
  rw [hepoch] at hunit
  have hle := hlast.bytes_le
  have hsame : P.entry.bytes = J.last.bytes := by omega
  have hequal : P.index * T.unit = J.ticks J.last.epoch * T.unit := by omega
  exact ⟨hepoch, Nat.eq_of_mul_eq_mul_right T.unit_pos hequal, hlast.tie.mpr hsame⟩

/-! ## Items -/

/-- What the writer sends: an entry, or the tick of an epoch at an index. -/
inductive Item where
  | entry (e : Entry)
  | tick (epoch index : Nat)
deriving DecidableEq, Repr

/-- The item is one of the journal. -/
def Item.In (J : Journal) : Item → Prop
  | .entry e => e ∈ J.entries
  | .tick epoch index => index ≤ J.ticks epoch ∧ epoch ≤ J.last.epoch

/-- The position is past the item. -/
def Position.Covers (P : Position) : Item → Prop
  | .entry e => e.amount ≤ P.entry.amount
  | .tick epoch index =>
    epoch < P.entry.epoch ∨ epoch = P.entry.epoch ∧ index ≤ P.index

instance (P : Position) (m : Item) : Decidable (P.Covers m) :=
  match m with
  | .entry e => inferInstanceAs (Decidable (e.amount ≤ P.entry.amount))
  | .tick epoch index => inferInstanceAs (Decidable
      (epoch < P.entry.epoch ∨ epoch = P.entry.epoch ∧ index ≤ P.index))

/-- A later position covers what an earlier one does. -/
theorem Position.Covers.mono {m : Item} (h : P.Covers m) (hle : P.Le Q) : Q.Covers m := by
  rcases hle with ⟨hamount, hstep⟩
  cases m with
  | entry e => exact le_trans h hamount
  | tick epoch index =>
    have h : epoch < P.entry.epoch ∨ epoch = P.entry.epoch ∧ index ≤ P.index := h
    change epoch < Q.entry.epoch ∨ epoch = Q.entry.epoch ∧ index ≤ Q.index
    omega

/-- An entry the reader does not stand at or past. -/
def Position.Behind (P : Position) (e : Entry) : Prop :=
  P.entry.amount < e.amount ∨ P.entry.amount = e.amount ∧ P.entry.epoch < e.epoch

instance (P : Position) (e : Entry) : Decidable (P.Behind e) :=
  inferInstanceAs (Decidable (_ ∨ _))

/-- Read one item: a newer entry moves the reader, keeping its ticks within the
epoch, and a deeper tick of the reader's own epoch moves the index. -/
def Position.read (P : Position) : Item → Position
  | .entry e =>
    if P.Behind e then ⟨e, if e.epoch = P.entry.epoch then P.index else 0⟩ else P
  | .tick epoch index =>
    if epoch = P.entry.epoch ∧ P.index < index then ⟨P.entry, index⟩ else P

/-- An entry ahead of the reader comes after the one it stands at. -/
theorem Journal.Ordered.precedes_of_behind (h : J.Ordered T) (hP : P.In J) (he : e ∈ J.entries)
    (hbehind : P.Behind e) : P.entry.Precedes T J.ticks e := by
  rcases h.comparable hP.entry_mem he with hprec | hprec
  · exact hprec
  · have hamount := hprec.amount_le
    have hepoch := hprec.epoch_le
    unfold Position.Behind at hbehind
    omega

/-- Reading keeps to the journal. -/
theorem Position.In.read {m : Item} (hP : P.In J) (hm : m.In J) : (P.read m).In J := by
  cases m with
  | entry e =>
    simp only [Position.read]
    split
    · constructor
      · exact hm
      · dsimp only
        split
        · rename_i heq
          rw [heq]
          exact hP.index_le
        · exact Nat.zero_le _
    · exact hP
  | tick epoch index =>
    simp only [Position.read]
    split
    · rename_i hdeeper
      exact ⟨hP.entry_mem, hdeeper.1 ▸ hm.1⟩
    · exact hP

/-- Reading never goes back. -/
theorem Position.le_read {m : Item} (h : J.Ordered T) (hP : P.In J) (hm : m.In J) :
    P.Le (P.read m) := by
  cases m with
  | entry e =>
    simp only [Position.read]
    split
    · rename_i hbehind
      have hprec := h.precedes_of_behind hP hm hbehind
      refine ⟨hprec.amount_le, ?_⟩
      dsimp only
      split
      · rename_i heq
        exact .inr ⟨heq.symm, le_rfl⟩
      · rename_i hne
        exact .inl (lt_of_le_of_ne hprec.epoch_le (Ne.symm hne))
    · exact Position.Le.refl P
  | tick epoch index =>
    simp only [Position.read]
    split
    · rename_i hdeeper
      exact ⟨le_rfl, .inr ⟨rfl, le_of_lt hdeeper.2⟩⟩
    · exact Position.Le.refl P

/-- After reading, the reader's epoch is at least the entry's. -/
theorem Position.epoch_le_read (h : J.Ordered T) (hP : P.In J) (he : e ∈ J.entries) :
    e.epoch ≤ (P.read (.entry e)).entry.epoch := by
  simp only [Position.read]
  split
  · exact le_rfl
  · rename_i hpast
    unfold Position.Behind at hpast
    rcases h.comparable hP.entry_mem he with hprec | hprec
    · have hamount := hprec.amount_le
      have hepoch := hprec.epoch_le
      omega
    · exact hprec.epoch_le

/-- Reading an item moves past it; a tick must be of an epoch the reader has
reached. -/
theorem Position.read_covers {m : Item}
    (hreached : ∀ epoch index, m = .tick epoch index → epoch ≤ P.entry.epoch) :
    (P.read m).Covers m := by
  cases m with
  | entry e =>
    simp only [Position.read]
    split
    · exact le_refl e.amount
    · rename_i hpast
      unfold Position.Behind at hpast
      change e.amount ≤ P.entry.amount
      omega
  | tick epoch index =>
    have hle := hreached epoch index rfl
    simp only [Position.read]
    split
    · rename_i hdeeper
      exact .inr ⟨hdeeper.1, le_rfl⟩
    · change epoch < P.entry.epoch ∨ epoch = P.entry.epoch ∧ index ≤ P.index
      omega

/-! ## Queues -/

/-- What a position covers of a queue of items, each with its worth. -/
def Position.weight (Q : Position) (queue : List (Item × Nat)) : Nat :=
  (queue.map fun m => if Q.Covers m.1 then m.2 else 0).sum

@[simp]
theorem Position.weight_cons (Q : Position) (m : Item × Nat) (queue : List (Item × Nat)) :
    Q.weight (m :: queue) = (if Q.Covers m.1 then m.2 else 0) + Q.weight queue := by
  simp [Position.weight]

@[simp]
theorem Position.weight_append (Q : Position) (queue queue' : List (Item × Nat)) :
    Q.weight (queue ++ queue') = Q.weight queue + Q.weight queue' := by
  simp [Position.weight]

@[simp]
theorem Position.weight_nil (Q : Position) : Q.weight [] = 0 := rfl

/-- Positions that cover the same items weigh a queue the same. -/
theorem Position.weight_congr {queue : List (Item × Nat)}
    (h : ∀ m ∈ queue, P.Covers m.1 ↔ Q.Covers m.1) : P.weight queue = Q.weight queue := by
  unfold Position.weight
  congr 1
  apply List.map_congr_left
  intro m hm
  simp only [h m hm]

/-- The newest position covers every item of the journal. -/
theorem Journal.Ordered.front_covers {m : Item} (h : J.Ordered T) (hm : m.In J) :
    J.front.Covers m := by
  cases m with
  | entry e => exact (h.precedes_last hm).amount_le
  | tick epoch index =>
    rcases Nat.lt_or_ge epoch J.last.epoch with hbefore | hsame
    · exact .inl hbefore
    · have heq : epoch = J.last.epoch := le_antisymm hm.2 hsame
      have hsold := hm.1
      rw [heq] at hsold
      exact .inr ⟨heq, hsold⟩

/-! ## Accounting -/

section Accounting

variable {ι : Type*} [DecidableEq ι] {paid : Nat} {queues : ι → List (Item × Nat)}

/-- Items of an updated queue. -/
theorem known_append {i : ι} {m : Item × Nat} {K : Journal}
    (hold : ∀ j, ∀ n ∈ queues j, n.1.In K) (hnew : m.1.In K) :
    ∀ j, ∀ n ∈ Function.update queues i (queues i ++ [m]) j, n.1.In K := by
  intro j n hn
  rcases eq_or_ne j i with rfl | hne
  · rw [Function.update_self] at hn
    rcases List.mem_append.mp hn with hmem | hmem
    · exact hold j n hmem
    · rw [List.mem_singleton.mp hmem]
      exact hnew
  · rw [Function.update_of_ne hne] at hn
    exact hold j n hn

variable [Fintype ι]

/-- At every position from the reader's on, the quantity is what has been paid
out and what the queues still hold for it. -/
structure Conserved (T : Tariff) (J : Journal) (P : Position) (paid : Nat)
    (queues : ι → List (Item × Nat)) : Prop where
  known : ∀ i, ∀ m ∈ queues i, m.1.In J
  total : ∀ Q : Position, Q.In J → P.Le Q → Q.bytes T = paid + ∑ i, Q.weight (queues i)

/-- What one more item adds to a total. -/
theorem sum_weight_append (Q : Position) (queues : ι → List (Item × Nat)) (i : ι)
    (m : Item × Nat) :
    ∑ j, Q.weight (Function.update queues i (queues i ++ [m]) j) =
      ∑ j, Q.weight (queues j) + if Q.Covers m.1 then m.2 else 0 := by
  have hsum := sum_update_add queues Q.weight i (queues i ++ [m])
  simp only [Position.weight_append, Position.weight_cons, Position.weight_nil] at hsum
  omega

/-- Sending an entry already in the journal, worth nothing. -/
theorem Conserved.resend (h : Conserved T J P paid queues) (i : ι) (he : e ∈ J.entries) :
    Conserved T J P paid (Function.update queues i (queues i ++ [(.entry e, 0)])) where
  known := known_append h.known he
  total Q hQ hle := by
    rw [h.total Q hQ hle, sum_weight_append]
    simp

/-- Sending a new entry, worth the quantity it adds. -/
theorem Conserved.enter {epoch cost quantity : Nat} (h : Conserved T J P paid queues)
    (hJ : J.Ordered T) (hP : P.In J) (henter : J.Enters T epoch cost quantity) (i : ι) :
    Conserved T (J.enter T epoch cost quantity) P paid
      (Function.update queues i
        (queues i ++ [(.entry (J.next T epoch cost quantity), quantity)])) := by
  have hepoch : J.last.epoch ≤ epoch := by
    rcases henter.epoch with ⟨heq, -⟩ | ⟨heq, -⟩ <;> omega
  have hknown : ∀ {m : Item}, m.In J → m.In (J.enter T epoch cost quantity) := by
    intro m hm
    cases m with
    | entry e => exact List.mem_cons_of_mem _ hm
    | tick k index => exact ⟨hm.1, le_trans hm.2 hepoch⟩
  constructor
  · exact known_append (fun j n hn => hknown (h.known j n hn)) List.mem_cons_self
  · intro Q hQ hle
    rw [sum_weight_append]
    rcases List.mem_cons.mp hQ.entry_mem with hnew | hold
    · -- The new entry covers everything sent so far, and itself.
      have hindex : Q.index = 0 := by
        have hlimit : Q.index ≤ J.ticks Q.entry.epoch := hQ.index_le
        rw [hnew] at hlimit
        have hticks : J.ticks epoch = 0 := by
          rcases henter.epoch with ⟨heq, hzero⟩ | ⟨heq, -⟩
          · rw [heq, hzero]
          · exact hJ.ticks_later epoch (by omega)
        change Q.index ≤ J.ticks epoch at hlimit
        omega
      have hcovers : ∀ m : Item, m.In J → Q.Covers m := by
        intro m hm
        cases m with
        | entry e =>
          have hlast := (hJ.precedes_last hm).amount_le
          change e.amount ≤ Q.entry.amount
          rw [hnew]
          simp only [Journal.enter, Journal.next]
          omega
        | tick k index =>
          change k < Q.entry.epoch ∨ k = Q.entry.epoch ∧ index ≤ Q.index
          rw [hnew]
          simp only [Journal.enter, Journal.next]
          rcases henter.epoch with ⟨heq, hzero⟩ | ⟨heq, -⟩
          · rcases Nat.lt_or_ge k J.last.epoch with hbefore | hsame
            · exact .inl (by omega)
            · have hk : k = J.last.epoch := le_antisymm hm.2 hsame
              have hsold := hm.1
              rw [hk, hzero] at hsold
              exact .inr ⟨by omega, by omega⟩
          · have hk := hm.2
            exact .inl (by omega)
      have hsame : ∀ j, Q.weight (queues j) = J.front.weight (queues j) := by
        intro j
        apply Position.weight_congr
        intro m hm
        have hin := h.known j m hm
        exact ⟨fun _ => hJ.front_covers hin, fun _ => hcovers m.1 hin⟩
      have hfront := h.total J.front J.front_in (hJ.le_front hP).1
      have hself : Q.Covers (.entry (J.next T epoch cost quantity)) := by
        change _ ≤ Q.entry.amount
        rw [hnew]
        exact le_rfl
      rw [if_pos hself]
      simp only [hsame]
      simp only [Position.bytes, Journal.front] at hfront ⊢
      rw [hnew, hindex]
      simp only [Journal.enter, Journal.next]
      omega
    · -- An older entry does not reach a new one that is worth something.
      have hQ' : Q.In J := ⟨hold, hQ.index_le⟩
      have hzero : (if Q.Covers (.entry (J.next T epoch cost quantity)) then quantity else 0) = 0 := by
        split
        · rename_i hcovers
          have hle : (J.next T epoch cost quantity).amount ≤ Q.entry.amount := hcovers
          have hlast := (hJ.precedes_last hold).amount_le
          have hfree := henter.free
          simp only [Journal.next] at hle
          omega
        · rfl
      dsimp only
      rw [hzero]
      exact h.total Q hQ' hle

/-- Sending a tick, worth one unit. -/
theorem Conserved.tick (h : Conserved T J P paid queues) (hJ : J.Ordered T) (hP : P.In J) (i : ι) :
    Conserved T J.tick P paid
      (Function.update queues i
        (queues i ++ [(.tick J.last.epoch (J.ticks J.last.epoch + 1), T.unit)])) := by
  have hmore := J.ticks_le_tick
  have hknown : ∀ {m : Item}, m.In J → m.In J.tick := by
    intro m hm
    cases m with
    | entry e => exact hm
    | tick k index => exact ⟨le_trans hm.1 (hmore k), hm.2⟩
  constructor
  · apply known_append fun j n hn => hknown (h.known j n hn)
    exact ⟨by simp [Journal.tick], le_rfl⟩
  · intro Q hQ hle
    have hmem : Q.entry ∈ J.entries := hQ.entry_mem
    have hepoch := (hJ.precedes_last hmem).epoch_le
    rw [sum_weight_append]
    rcases Nat.lt_or_ge (J.ticks Q.entry.epoch) Q.index with hdeep | hshallow
    · -- Only the new tick is past what was sold before.
      have hlast : Q.entry.epoch = J.last.epoch := by
        by_contra hne
        have hlimit := hQ.index_le
        simp only [Journal.tick, Function.update_of_ne hne] at hlimit
        omega
      have hindex : Q.index = J.ticks J.last.epoch + 1 := by
        have hlimit := hQ.index_le
        simp only [Journal.tick, hlast, Function.update_self] at hlimit
        rw [hlast] at hdeep
        omega
      have hback : Position.In J ⟨Q.entry, J.ticks J.last.epoch⟩ := ⟨hmem, by rw [hlast]⟩
      have hPback : P.Le ⟨Q.entry, J.ticks J.last.epoch⟩ := by
        have hlimit := hP.index_le
        refine ⟨hle.1, ?_⟩
        rcases hle.2 with hbefore | ⟨heq, -⟩
        · exact .inl hbefore
        · rw [heq, hlast] at hlimit
          exact .inr ⟨heq, hlimit⟩
      have hsame : ∀ j, Q.weight (queues j) =
          Position.weight ⟨Q.entry, J.ticks J.last.epoch⟩ (queues j) := by
        intro j
        apply Position.weight_congr
        intro m hm
        have hin := h.known j m hm
        rcases m with ⟨m, w⟩
        cases m with
        | entry e => exact Iff.rfl
        | tick k index =>
          have hsold : index ≤ J.ticks k := hin.1
          change k < Q.entry.epoch ∨ k = Q.entry.epoch ∧ index ≤ Q.index ↔
            k < Q.entry.epoch ∨ k = Q.entry.epoch ∧ index ≤ J.ticks J.last.epoch
          constructor
          · rintro (hbefore | ⟨rfl, -⟩)
            · exact .inl hbefore
            · exact .inr ⟨rfl, hlast ▸ hsold⟩
          · rintro (hbefore | ⟨rfl, hle⟩)
            · exact .inl hbefore
            · exact .inr ⟨rfl, by omega⟩
      have hfront := h.total _ hback hPback
      have hcovers : Q.Covers (.tick J.last.epoch (J.ticks J.last.epoch + 1)) :=
        .inr ⟨hlast.symm, by omega⟩
      rw [if_pos hcovers]
      simp only [hsame]
      simp only [Position.bytes] at hfront ⊢
      rw [hindex, Nat.add_mul, Nat.one_mul]
      omega
    · have hzero : (if Q.Covers (.tick J.last.epoch (J.ticks J.last.epoch + 1)) then T.unit
          else 0) = 0 := by
        rw [if_neg]
        rintro (hbefore | ⟨heq, hdeep⟩)
        · omega
        · rw [← heq] at hshallow
          omega
      dsimp only
      rw [hzero]
      exact h.total Q ⟨hmem, hshallow⟩ hle

/-- Reading the first item of a queue and paying out its worth. -/
theorem Conserved.read {i : ι} {m : Item × Nat} {rest : List (Item × Nat)}
    (h : Conserved T J P paid queues) (hJ : J.Ordered T) (hP : P.In J) (hqueue : queues i = m :: rest)
    (hreached : ∀ epoch index, m.1 = .tick epoch index → epoch ≤ P.entry.epoch) :
    Conserved T J (P.read m.1) (paid + m.2) (Function.update queues i rest) := by
  have hin : m.1.In J := h.known i m (by rw [hqueue]; exact List.mem_cons_self)
  constructor
  · intro j n hn
    rcases eq_or_ne j i with rfl | hne
    · rw [Function.update_self] at hn
      exact h.known j n (by rw [hqueue]; exact List.mem_cons_of_mem _ hn)
    · rw [Function.update_of_ne hne] at hn
      exact h.known j n hn
  · intro Q hQ hle
    have hcovers : Q.Covers m.1 := (Position.read_covers hreached).mono hle
    have hsum := sum_update_add queues Q.weight i rest
    rw [hqueue, Position.weight_cons, if_pos hcovers] at hsum
    rw [h.total Q hQ ((Position.le_read hJ hP hin).trans hle)]
    omega

end Accounting

/-! ## Order within a queue -/

/-- Every tick of a queue is of the epoch of the last entry before it; the reader
of the queue is at epoch `k` before it and at `k'` after it. -/
def Follows (k : Nat) : List (Item × Nat) → Nat → Prop
  | [], k' => k = k'
  | (.entry e, _) :: rest, k' => Follows e.epoch rest k'
  | (.tick epoch _, _) :: rest, k' => epoch = k ∧ Follows k rest k'

/-- An entry may follow anything. -/
theorem Follows.entry {k k' worth : Nat} {queue : List (Item × Nat)} (h : Follows k queue k')
    (e : Entry) : Follows k (queue ++ [(.entry e, worth)]) e.epoch := by
  induction queue generalizing k with
  | nil => exact rfl
  | cons m queue ih =>
    rcases m with ⟨m, w⟩
    cases m with
    | entry e' => exact ih h
    | tick epoch index => exact ⟨h.1, ih h.2⟩

/-- A tick follows an entry of its epoch. -/
theorem Follows.tick {k k' worth : Nat} {queue : List (Item × Nat)} (h : Follows k queue k')
    (index : Nat) : Follows k (queue ++ [(.tick k' index, worth)]) k' := by
  induction queue generalizing k with
  | nil => exact ⟨Eq.symm h, h⟩
  | cons m queue ih =>
    rcases m with ⟨m, w⟩
    cases m with
    | entry e' => exact ih h
    | tick epoch index => exact ⟨h.1, ih h.2⟩

end Decdn
