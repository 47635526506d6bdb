import Mathlib.Data.List.Basic
import Mathlib.Logic.Function.Basic

/-!
# Directories

A directory binds names to files, and an open handle is a file: it follows the file through
renames and outlives its names.  Names are numbers, read from a highest one down to 0, so
that the files under them are one list, oldest first.

Main results:

- Theorem `Directory.readDown_rename_up` and Theorem `Directory.readDown_rename_down`: moving
  a file to an empty name beside its own changes nothing that is read.
- Theorem `Directory.readDown_append`: an entry appended to the newest file is read last.
- Theorem `Directory.WellFormed.rename` and its likes: the operations give no file two names.
-/

namespace Decdn

/-- Names, the files that they are bound to, and what the files hold. -/
structure Directory (α : Type*) where
  names : Nat → Option Nat := fun _ => none
  files : Nat → List α := fun _ => []
  fresh : Nat := 0

namespace Directory

variable {α : Type*} (d : Directory α)

/-- What is read under a name. -/
def contents (name : Nat) : List α := (d.names name).elim [] d.files

/-- Binds the file of one name to another, in place of what was there. -/
def rename (a b : Nat) : Directory α :=
  match d.names a with
  | none => d
  | some f => { d with names := Function.update (Function.update d.names b (some f)) a none }

def remove (a : Nat) : Directory α := { d with names := Function.update d.names a none }

/-- A new, empty file under a name. -/
def create (a : Nat) : Directory α where
  names := Function.update d.names a (some d.fresh)
  files := Function.update d.files d.fresh []
  fresh := d.fresh + 1

def append (f : Nat) (x : α) : Directory α :=
  { d with files := Function.update d.files f (d.files f ++ [x]) }

def truncate (f : Nat) : Directory α := { d with files := Function.update d.files f [] }

/-- What is read from a name down to 0. -/
def readDown : Nat → List α
  | 0 => d.contents 0
  | n + 1 => d.contents (n + 1) ++ readDown n

/-- No file has two names, and a new file is none of those that have one. -/
structure WellFormed : Prop where
  injective : ∀ a b f, d.names a = some f → d.names b = some f → a = b
  bounded : ∀ a f, d.names a = some f → f < d.fresh

/-! ## Names -/

variable {d}

theorem contents_of_none {a : Nat} (h : d.names a = none) : d.contents a = [] := by
  rw [contents, h]
  rfl

theorem contents_of_some {a f : Nat} (h : d.names a = some f) : d.contents a = d.files f := by
  rw [contents, h]
  rfl

/-- The names after a move to a free name. -/
theorem names_rename {a b : Nat} (hfree : d.names b = none) (c : Nat) :
    (d.rename a b).names c =
      if c = a then none else if c = b then d.names a else d.names c := by
  rw [rename]
  cases ha : d.names a with
  | none =>
    show d.names c = _
    by_cases hca : c = a
    · rw [if_pos hca, hca, ha]
    · by_cases hcb : c = b
      · rw [if_neg hca, if_pos hcb, hcb, hfree]
      · rw [if_neg hca, if_neg hcb]
  | some f =>
    show Function.update (Function.update d.names b (some f)) a none c = _
    simp only [Function.update_apply]

@[simp] theorem files_rename (a b : Nat) : (d.rename a b).files = d.files := by
  rw [rename]
  split <;> rfl

@[simp] theorem fresh_rename (a b : Nat) : (d.rename a b).fresh = d.fresh := by
  rw [rename]
  split <;> rfl

/-- The names after a removal. -/
theorem names_remove (a c : Nat) :
    (d.remove a).names c = if c = a then none else d.names c := by
  rw [remove]
  simp only [Function.update_apply]

/-- A move to a name takes its place. -/
theorem rename_eq_remove {a b f : Nat} (hname : d.names a = some f) (hne : a ≠ b) :
    d.rename a b = (d.remove b).rename a b := by
  have hkept : (d.remove b).names a = some f := by
    rw [names_remove, if_neg hne, hname]
  simp only [rename, hname, hkept]
  simp [remove]

theorem names_create (a c : Nat) :
    (d.create a).names c = if c = a then some d.fresh else d.names c := by
  rw [create]
  simp only [Function.update_apply]

/-! ## Well-formed directories -/

namespace WellFormed

theorem rename (h : d.WellFormed) {a b : Nat} (hfree : d.names b = none) :
    (d.rename a b).WellFormed := by
  have hmoved : ∀ {c f}, (d.rename a b).names c = some f →
      c ≠ a ∧ (c = b ∧ d.names a = some f ∨ c ≠ b ∧ d.names c = some f) := by
    intro c f hc
    rw [names_rename hfree] at hc
    split at hc
    · cases hc
    · rename_i hca
      split at hc
      · rename_i hcb
        exact ⟨hca, .inl ⟨hcb, hc⟩⟩
      · rename_i hcb
        exact ⟨hca, .inr ⟨hcb, hc⟩⟩
  constructor
  · intro c c' f hc hc'
    rcases hmoved hc with ⟨hca, ⟨hcb, hname⟩ | ⟨_, hname⟩⟩
    · rcases hmoved hc' with ⟨hca', ⟨hcb', _⟩ | ⟨_, hname'⟩⟩
      · rw [hcb, hcb']
      · exact absurd (h.injective c' a f hname' hname) hca'
    · rcases hmoved hc' with ⟨hca', ⟨_, hname'⟩ | ⟨_, hname'⟩⟩
      · exact absurd (h.injective c a f hname hname') hca
      · exact h.injective c c' f hname hname'
  · intro c f hc
    rw [fresh_rename]
    rcases (hmoved hc).2 with ⟨_, hname⟩ | ⟨_, hname⟩
    · exact h.bounded a f hname
    · exact h.bounded c f hname

theorem remove (h : d.WellFormed) (a : Nat) : (d.remove a).WellFormed := by
  have hmem : ∀ {c f}, (d.remove a).names c = some f → d.names c = some f := by
    intro c f hc
    rw [names_remove] at hc
    split at hc
    · cases hc
    · exact hc
  exact ⟨fun c c' f hc hc' => h.injective c c' f (hmem hc) (hmem hc'),
    fun c f hc => h.bounded c f (hmem hc)⟩

theorem create (h : d.WellFormed) (a : Nat) : (d.create a).WellFormed := by
  refine ⟨fun c c' f hc hc' => ?_, fun c f hc => ?_⟩
  · rw [names_create] at hc hc'
    split at hc <;> split at hc'
    · rename_i h1 h2
      rw [h1, h2]
    · exact absurd (h.bounded c' f hc') (by rw [← Option.some.inj hc]; exact Nat.lt_irrefl _)
    · exact absurd (h.bounded c f hc) (by rw [← Option.some.inj hc']; exact Nat.lt_irrefl _)
    · exact h.injective c c' f hc hc'
  · rw [names_create] at hc
    show f < d.fresh + 1
    split at hc
    · rw [← Option.some.inj hc]
      exact Nat.lt_succ_self _
    · exact Nat.lt_succ_of_lt (h.bounded c f hc)

theorem append (h : d.WellFormed) (f : Nat) (x : α) : (d.append f x).WellFormed :=
  ⟨h.injective, h.bounded⟩

theorem truncate (h : d.WellFormed) (f : Nat) : (d.truncate f).WellFormed :=
  ⟨h.injective, h.bounded⟩

end WellFormed

/-! ## Reading -/

variable {d' : Directory α} {n i : Nat}

theorem readDown_congr (h : ∀ c ≤ n, d'.contents c = d.contents c) :
    d'.readDown n = d.readDown n := by
  induction n with
  | zero => exact h 0 (Nat.le_refl 0)
  | succ n ih =>
    rw [readDown, readDown, h (n + 1) (Nat.le_refl _), ih fun c hc => h c (Nat.le_succ_of_le hc)]

/-- What two neighbouring names hold together is read as one. -/
theorem readDown_pair (hpair : d'.contents (i + 1) ++ d'.contents i =
      d.contents (i + 1) ++ d.contents i)
    (hrest : ∀ c, c ≠ i → c ≠ i + 1 → d'.contents c = d.contents c) (hi : i + 1 ≤ n) :
    d'.readDown n = d.readDown n := by
  induction n with
  | zero => omega
  | succ n ih =>
    by_cases hn : i = n
    · subst hn
      have hbelow : ∀ c < i, d'.contents c = d.contents c :=
        fun c hc => hrest c (by omega) (by omega)
      cases i with
      | zero => exact hpair
      | succ i =>
        rw [readDown, readDown, readDown, readDown, ← List.append_assoc, hpair,
          List.append_assoc, readDown_congr fun c hc => hbelow c (Nat.lt_succ_of_le hc)]
    · rw [readDown, readDown, hrest (n + 1) (by omega) (by omega), ih (by omega)]

theorem contents_rename {a b : Nat} (hfree : d.names b = none) (c : Nat) :
    (d.rename a b).contents c =
      if c = a then [] else if c = b then d.contents a else d.contents c := by
  rw [contents, names_rename hfree, files_rename]
  split
  · rfl
  · split <;> rfl

/-- A file moves to the empty name above its own. -/
theorem readDown_rename_up (hfree : d.names (i + 1) = none) (hi : i + 1 ≤ n) :
    (d.rename i (i + 1)).readDown n = d.readDown n := by
  have hcontents := contents_rename (a := i) hfree
  refine readDown_pair (i := i) ?_ (fun c hc hc' => ?_) hi
  · rw [hcontents, hcontents, contents_of_none hfree]
    simp
  · rw [hcontents, if_neg hc, if_neg hc']

/-- A file moves to the empty name below its own. -/
theorem readDown_rename_down (hfree : d.names i = none) (hi : i + 1 ≤ n) :
    (d.rename (i + 1) i).readDown n = d.readDown n := by
  have hcontents := contents_rename (a := i + 1) hfree
  refine readDown_pair (i := i) ?_ (fun c hc hc' => ?_) hi
  · rw [hcontents, hcontents, contents_of_none hfree]
    simp
  · rw [hcontents, if_neg hc', if_neg hc]

/-- A new file at a free name holds nothing. -/
theorem readDown_create (h : d.WellFormed) {a : Nat} (hfree : d.names a = none) :
    (d.create a).readDown n = d.readDown n := by
  refine readDown_congr fun c _ => ?_
  rw [contents, names_create]
  split
  case isTrue hc =>
    rw [hc, contents_of_none hfree]
    exact Function.update_self _ _ _
  case isFalse hc =>
    cases hname : d.names c with
    | none => rw [contents_of_none hname]; rfl
    | some f =>
      rw [contents_of_some hname]
      exact Function.update_of_ne (Nat.ne_of_lt (h.bounded c f hname)) _ _

/-- Removing an empty file changes nothing that is read. -/
theorem readDown_remove_empty {a : Nat} (h : d.contents a = []) :
    (d.remove a).readDown n = d.readDown n := by
  refine readDown_congr fun c _ => ?_
  rw [contents, names_remove]
  split
  case isTrue hc =>
    rw [hc, h]
    rfl
  case isFalse hc => rfl

/-- Without its highest name, a directory reads less at the front. -/
theorem readDown_remove (n : Nat) :
    d.contents n ++ (d.remove n).readDown n = d.readDown n := by
  have hself : (d.remove n).contents n = [] :=
    contents_of_none (by rw [names_remove, if_pos rfl])
  have hrest : ∀ c < n, (d.remove n).contents c = d.contents c := by
    intro c hc
    rw [contents, names_remove, if_neg (Nat.ne_of_lt hc)]
    rfl
  cases n with
  | zero => rw [readDown, hself, List.append_nil, readDown]
  | succ n =>
    rw [readDown, hself, List.nil_append, readDown,
      readDown_congr fun c hc => hrest c (Nat.lt_succ_of_le hc)]

/-- Appending to a file changes what is read under its name only. -/
theorem contents_append (h : d.WellFormed) {a f : Nat} (hname : d.names a = some f) (x : α)
    (c : Nat) :
    (d.append f x).contents c = if c = a then d.contents a ++ [x] else d.contents c := by
  split
  case isTrue hc =>
    rw [hc, contents_of_some hname, contents_of_some (d := d.append f x) hname]
    exact Function.update_self _ _ _
  case isFalse hc =>
    cases hc' : d.names c with
    | none => rw [contents_of_none hc', contents_of_none (d := d.append f x) hc']
    | some g =>
      rw [contents_of_some hc', contents_of_some (d := d.append f x) hc']
      refine Function.update_of_ne ?_ _ _
      rintro rfl
      exact hc (h.injective c a g hc' hname)

/-- The newest file is under the lowest name, or under the next where the lowest is free. -/
def Newest (d : Directory α) (f : Nat) : Prop :=
  d.names 0 = some f ∨ d.names 0 = none ∧ d.names 1 = some f

/-- An entry appended to the newest file is read last. -/
theorem readDown_append (h : d.WellFormed) {f : Nat} (hnewest : d.Newest f)
    (hn : d.names 0 = none → 1 ≤ n) (x : α) :
    (d.append f x).readDown n = d.readDown n ++ [x] := by
  rcases hnewest with hzero | ⟨hfree, hone⟩
  · have hcontents := contents_append h hzero x
    induction n with
    | zero => exact (hcontents 0).trans (if_pos rfl)
    | succ n ih =>
      rw [readDown, readDown, hcontents, if_neg (Nat.succ_ne_zero n),
        ih fun hfree => absurd (hzero.symm.trans hfree) (Option.some_ne_none f),
        List.append_assoc]
  · have hcontents := contents_append h hone x
    have hempty : (d.append f x).contents 0 = d.contents 0 :=
      (hcontents 0).trans (if_neg Nat.zero_ne_one)
    have hnil := contents_of_none hfree
    have hpos := hn hfree
    induction n with
    | zero => omega
    | succ n ih =>
      cases n with
      | zero =>
        rw [readDown, readDown, readDown, readDown, hempty, hcontents, if_pos rfl, hnil,
          List.append_nil, List.append_nil]
      | succ n =>
        show (d.append f x).contents (n + 2) ++ (d.append f x).readDown (n + 1) =
          d.contents (n + 2) ++ d.readDown (n + 1) ++ [x]
        rw [hcontents, if_neg (by omega),
          ih (fun _ => Nat.succ_le_succ n.zero_le) (Nat.succ_le_succ n.zero_le),
          List.append_assoc]

end Directory

end Decdn
