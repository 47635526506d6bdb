import Decdn.Foundations.Wire

/-!
# Formats of lists

A number of any size in seven-bit groups, and a list of values after their number.

Main results:

- Theorem `Wire.lawful_natural`: the format of a number.
- Theorem `Wire.Lawful.list`: the format of a list.
-/

namespace Decdn.Wire

/-! ## Numbers of any size -/

/-- A number in groups of seven bits, the lowest first. -/
def putNatural (n : Nat) : List UInt8 :=
  if n < 128 then [UInt8.ofNat n] else UInt8.ofNat (n % 128 + 128) :: putNatural (n / 128)
termination_by n

/-- Read a number in groups of seven bits. -/
def takeNatural : List UInt8 → Option (Nat × List UInt8)
  | [] => none
  | b :: rest =>
    if b.toNat < 128 then some (b.toNat, rest)
    else (takeNatural rest).map fun p => (b.toNat - 128 + 128 * p.1, p.2)

/-- A number of any size. -/
def natural : Wire Nat := ⟨putNatural, takeNatural⟩

/-- The first group of a number. -/
theorem putNatural_cases (n : Nat) :
    (n < 128 ∧ ∃ b : UInt8, b.toNat = n ∧ putNatural n = [b]) ∨
      128 ≤ n ∧ ∃ b : UInt8, b.toNat = n % 128 + 128 ∧ putNatural n = b :: putNatural (n / 128) := by
  rw [putNatural]
  split
  · rename_i hsmall
    refine .inl ⟨hsmall, _, ?_, rfl⟩
    rw [UInt8.toNat_ofNat']
    omega
  · rename_i hlarge
    refine .inr ⟨Nat.le_of_not_lt hlarge, _, ?_, rfl⟩
    rw [UInt8.toNat_ofNat']
    omega

/-- A number in groups is a lawful format. -/
theorem lawful_natural : natural.Lawful where
  round_trip n rest := by
    change takeNatural (putNatural n ++ rest) = some (n, rest)
    induction n using Nat.strong_induction_on with
    | _ n ih =>
      rcases putNatural_cases n with ⟨hsmall, b, hb, hput⟩ | ⟨hlarge, b, hb, hput⟩
      · rw [hput, List.singleton_append, takeNatural, hb, if_pos hsmall]
      · rw [hput, List.cons_append, takeNatural, hb, if_neg (by omega),
          ih (n / 128) (by omega), Option.map_some]
        congr 2
        omega
  whole n bytes more hput hmore := by
    change takeNatural bytes = none
    change putNatural n = bytes ++ more at hput
    induction bytes generalizing n with
    | nil => rfl
    | cons b bytes ih =>
      rcases putNatural_cases n with ⟨hsmall, c, hc, hgroups⟩ | ⟨hlarge, c, hc, hgroups⟩
      · rw [hgroups] at hput
        have hempty := (List.cons.inj hput).2
        exact absurd (List.append_eq_nil_iff.mp hempty.symm).2 hmore
      · rw [hgroups] at hput
        rcases List.cons.inj hput with ⟨rfl, htail⟩
        rw [takeNatural, hc, if_neg (by omega), ih _ htail, Option.map_none]

/-! ## Lists -/

variable {α : Type} {w : Wire α}

/-- Some values in a row. -/
def takeItems (w : Wire α) : Nat → List UInt8 → Option (List α × List UInt8)
  | 0, bytes => some ([], bytes)
  | n + 1, bytes =>
    match w.take bytes with
    | some (a, rest) => (takeItems w n rest).map fun p => (a :: p.1, p.2)
    | none => none

/-- The values of a list after their number. -/
def list (w : Wire α) : Wire (List α) where
  put l := natural.put l.length ++ l.flatMap w.put
  take bytes :=
    match natural.take bytes with
    | some (n, rest) => takeItems w n rest
    | none => none

theorem takeItems_put (h : w.Lawful) (l : List α) (rest : List UInt8) :
    takeItems w l.length (l.flatMap w.put ++ rest) = some (l, rest) := by
  induction l with
  | nil => rfl
  | cons a l ih =>
    rw [List.flatMap_cons, List.length_cons, takeItems, List.append_assoc, h.round_trip]
    dsimp only
    rw [ih, Option.map_some]

theorem takeItems_part (h : w.Lawful) {l : List α} {bytes more : List UInt8}
    (hput : l.flatMap w.put = bytes ++ more) (hmore : more ≠ []) :
    takeItems w l.length bytes = none := by
  induction l generalizing bytes with
  | nil => exact absurd (List.append_eq_nil_iff.mp hput.symm).2 hmore
  | cons a l ih =>
    rw [List.flatMap_cons] at hput
    rw [List.length_cons, takeItems]
    -- the cut falls behind the first value, or into it
    rcases List.append_eq_append_iff.mp hput with ⟨behind, hbytes, hrest⟩ | ⟨part, hfirst, -⟩
    · rw [hbytes, h.round_trip]
      dsimp only
      rw [ih hrest, Option.map_none]
    · by_cases hnil : part = []
      · rw [hnil, List.append_nil] at hfirst
        rw [← hfirst] at hput ⊢
        have hitems : l.flatMap w.put = [] ++ more := List.append_cancel_left hput
        rw [← List.append_nil (w.put a), h.round_trip]
        dsimp only
        rw [ih hitems, Option.map_none]
      · rw [h.whole a bytes part hfirst hnil]

/-- The list of a lawful format is a lawful format. -/
theorem Lawful.list (h : w.Lawful) : (Wire.list w).Lawful where
  round_trip l rest := by
    unfold Wire.list
    dsimp only
    rw [List.append_assoc, lawful_natural.round_trip]
    exact takeItems_put h l rest
  whole l bytes more hput hmore := by
    unfold Wire.list at hput ⊢
    dsimp only at hput ⊢
    rcases List.append_eq_append_iff.mp hput with ⟨items, hbytes, hitems⟩ | ⟨part, hfirst, hrest⟩
    · rw [hbytes, lawful_natural.round_trip]
      exact takeItems_part h hitems hmore
    · by_cases hnil : part = []
      · rw [hnil, List.append_nil] at hfirst
        rw [hnil, List.nil_append] at hrest
        have hitems : l.flatMap w.put = [] ++ more := hrest.symm
        rw [← hfirst, lawful_natural.take_put]
        exact takeItems_part h hitems hmore
      · rw [lawful_natural.whole l.length bytes part hfirst hnil]

end Decdn.Wire
