import Decdn.Foundations.Directories
import Decdn.Foundations.Words

/-!
# The rotation of the receipt log

The append-only receipt log of `crates/node/src/receipt_log.rs`: a live file, its numbered
backups and an open handle.  The name 0 is the live path and the name `n` the `n`-th backup.
Each call of the file system may fail; a write that fails may have landed some bytes.

Main results:

- Theorem `rotate_spec`: what one rotation does, whether or not it returns.
- Theorem `rotation_keeps_newest`: the log over every run without failures, and over every
  run in which no permission is left untightened on a file that a rotation has created.
- Theorem `rotation_erodes`: an unbounded live file, a history that retries wear off, and a
  handle that moves up the chain.
-/

namespace Decdn.Node.ReceiptLog

open U64

/-! ## Data model -/

/-- One receipt, as its line without the newline. -/
abbrev Line := List UInt8

def Line.bytes (line : Line) : List UInt8 := line ++ [10]

/-- What a write lands in a file: a line, or at least one byte of one. -/
inductive Chunk where
  | line (line : Line)
  | torn (head : UInt8) (tail : List UInt8)
deriving DecidableEq

def Chunk.size : Chunk → Nat
  | .line text => text.bytes.length
  | .torn _ tail => tail.length + 1

/-- The length of a file, as the 64-bit word that `metadata` reports. -/
def len (chunks : List Chunk) : Nat := min (chunks.map Chunk.size).sum u64Max

/-- The number of bytes of a line, as a 64-bit word. -/
def lineLen (line : Line) : Nat := min line.bytes.length u64Max

structure RotationPolicy where
  maxFileBytes : UInt64
  retainedFiles : UInt32

/-- The handle, and the count of the bytes behind it. -/
structure LogState where
  file : Nat
  written : Nat
deriving DecidableEq

/-- Which calls fail, with an error other than `NotFound`.  The write lands `some` many bytes
before it fails. -/
structure Faults where
  pruneFails : Nat → Bool := fun _ => false
  truncateFails : Bool := false
  existsFails : Bool := false
  removeFails : Bool := false
  shiftFails : Nat → Bool := fun _ => false
  moveFails : Bool := false
  openFails : Bool := false
  tightenFails : Bool := false
  restoreFails : Bool := false
  writeFails : Option Nat := none
  lenFails : Bool := false

abbrev Dir := Directory Chunk

/-! ## Rotation -/

/-- The loop of `prune_backups_above`. -/
def pruneFrom (faults : Faults) : Nat → Nat → Dir → Dir
  | 0, _, d => d
  | rounds + 1, n, d =>
    if faults.pruneFails n ∨ d.names n = none then d
    else if n = 2 ^ 32 - 1 then d.remove n
    else pruneFrom faults rounds (n + 1) (d.remove n)

/-- `prune_backups_above`, from `retained.saturating_add(1)` on. -/
def pruneBackupsAbove (faults : Faults) (retained : Nat) (d : Dir) : Dir :=
  pruneFrom faults (2 ^ 32) (min (retained + 1) (2 ^ 32 - 1)) d

/-- `open_append` at the live path.  A file is created before its mode is tightened. -/
def openAppend (faults : Faults) (d : Dir) : Dir × Option Nat :=
  if faults.openFails then (d, none)
  else
    let opened :=
      match d.names 0 with
      | some file => (d, file)
      | none => (d.create 0, d.fresh)
    (opened.1, if faults.tightenFails then none else some opened.2)

/-- The loop over `(1..retained).rev()`, with the renames from this name down. -/
def shift (faults : Faults) : Nat → Dir → Dir × Bool
  | 0, d => (d, true)
  | i + 1, d =>
    if faults.shiftFails (i + 1) then (d, false) else shift faults i (d.rename (i + 1) (i + 2))

/-- The branch that finds no live path. -/
def recreate (faults : Faults) (d : Dir) (s : LogState) : Dir × LogState × Bool :=
  match openAppend faults d with
  | (d, some file) => (d, ⟨file, 0⟩, true)
  | (d, none) => (d, s, false)

/-- The live file becomes the first backup and a fresh one is opened. -/
def moveLive (faults : Faults) (d : Dir) (s : LogState) : Dir × LogState × Bool :=
  if faults.moveFails then (d, s, false)
  else
    match openAppend faults (d.rename 0 1) with
    | (d, some file) => (d, ⟨file, 0⟩, true)
    | (d, none) => (if faults.restoreFails then d else d.rename 1 0, s, false)

/-- `JsonlReceiptLog::rotate`, and whether it returns `Ok`. -/
def rotate (policy : RotationPolicy) (faults : Faults) (d : Dir) (s : LogState) :
    Dir × LogState × Bool :=
  let retained := policy.retainedFiles.toNat
  let d := pruneBackupsAbove faults retained d
  if retained = 0 then
    if faults.truncateFails then (d, s, false) else (d.truncate s.file, ⟨s.file, 0⟩, true)
  else if faults.existsFails ∨ d.names 0 = none then recreate faults d s
  else if faults.removeFails then (d, s, false)
  else
    match shift faults (retained - 1) (d.remove retained) with
    | (d, true) => moveLive faults d s
    | (d, false) => (d, s, false)

/-! ## Append -/

/-- Whether the line would push the live file past the cap. -/
def overflows (policy : RotationPolicy) (s : LogState) (line : Line) : Bool :=
  0 < policy.maxFileBytes.toNat ∧ 0 < s.written ∧
    policy.maxFileBytes.toNat < saturatingAdd s.written (lineLen line)

/-- What the write of a line lands. -/
def landing (faults : Faults) (line : Line) : Option Chunk :=
  match faults.writeFails with
  | none => some (.line line)
  | some count =>
    match line.bytes.take count with
    | [] => none
    | head :: tail => some (.torn head tail)

def land (file : Nat) (d : Dir) : Option Chunk → Dir
  | none => d
  | some chunk => d.append file chunk

/-- The rotation of an append, if it makes one. -/
def makeRoom (policy : RotationPolicy) (faults : Faults) (line : Line) (d : Dir)
    (s : LogState) : Dir × LogState :=
  if overflows policy s line then
    let rotated := rotate policy faults d s
    (rotated.1, rotated.2.1)
  else (d, s)

/-- `JsonlReceiptLog::append`, and whether it returns `Ok`. -/
def append (policy : RotationPolicy) (faults : Faults) (line : Line) (d : Dir) (s : LogState) :
    Dir × LogState × Bool :=
  let room := makeRoom policy faults line d s
  let s := room.2
  let d := land s.file room.1 (landing faults line)
  match faults.writeFails with
  | none => (d, { s with written := saturatingAdd s.written (lineLen line) }, true)
  | some _ =>
    (d, { s with written := if faults.lenFails then s.written else len (d.files s.file) }, false)

/-! ## Runs -/

/-- The directory, the log if it is open, and all that writes have landed so far. -/
structure World where
  dir : Dir := {}
  log : Option LogState := none
  landed : List Chunk := []

inductive Event where
  | append (line : Line) (faults : Faults)
  | restart (faults : Faults)

/-- `JsonlReceiptLog::open`: where it fails, the node goes on without the log. -/
def World.restart (w : World) (faults : Faults) : World :=
  match openAppend faults w.dir with
  | (d, some file) =>
    { w with dir := d, log := if faults.lenFails then none else some ⟨file, len (d.files file)⟩ }
  | (d, none) => { w with dir := d, log := none }

def World.append (policy : RotationPolicy) (w : World) (line : Line) (faults : Faults) : World :=
  match w.log with
  | none => w
  | some s =>
    let result := ReceiptLog.append policy faults line w.dir s
    { dir := result.1, log := some result.2.1, landed := w.landed ++ (landing faults line).toList }

def World.step (policy : RotationPolicy) (w : World) : Event → World
  | .append line faults => w.append policy line faults
  | .restart faults => w.restart faults

def World.run (policy : RotationPolicy) (events : List Event) : World :=
  events.foldl (World.step policy) {}

/-! ## What a rotation does -/

/-- The directory of a log: its names go up to the number of retained backups. -/
structure Chain (retained : Nat) (d : Dir) : Prop where
  wellFormed : d.WellFormed
  bounded : ∀ n, retained < n → d.names n = none

/-- What is read from the oldest backup down to the live file. -/
def reading (retained : Nat) (d : Dir) : List Chunk := d.readDown retained

/-- A change of the directory that takes at most the oldest backup from what is read. -/
def Trimmed (retained : Nat) (d d' : Dir) : Prop :=
  reading retained d' = reading retained d ∨
    reading retained d = d.contents retained ++ reading retained d'

section
variable {retained : Nat} {d d' : Dir}

theorem Chain.remove (h : Chain retained d) (n : Nat) : Chain retained (d.remove n) where
  wellFormed := h.wellFormed.remove n
  bounded m hm := by
    rw [Directory.names_remove, h.bounded m hm, ite_self]

theorem Chain.rename (h : Chain retained d) {a b : Nat} (hfree : d.names b = none)
    (hb : b ≤ retained) : Chain retained (d.rename a b) where
  wellFormed := h.wellFormed.rename hfree
  bounded m hm := by
    have hne : m ≠ b := by omega
    rw [Directory.names_rename hfree, if_neg hne, h.bounded m hm, ite_self]

theorem Chain.create (h : Chain retained d) {a : Nat} (ha : a ≤ retained) :
    Chain retained (d.create a) where
  wellFormed := h.wellFormed.create a
  bounded m hm := by
    have hne : m ≠ a := by omega
    rw [Directory.names_create, if_neg hne, h.bounded m hm]

theorem Chain.remove_trimmed : Trimmed retained d (d.remove retained) :=
  .inr (Directory.readDown_remove retained).symm

/-- Pruning stops at a free name. -/
theorem pruneFrom_stop (faults : Faults) {rounds n : Nat} (h : d.names n = none) :
    pruneFrom faults rounds n d = d := by
  cases rounds with
  | zero => rfl
  | succ rounds => rw [pruneFrom, if_pos (.inr h)]

/-- Pruning from the last number there is removes at most that backup. -/
theorem pruneFrom_last (faults : Faults) (rounds : Nat) (d : Dir) :
    pruneFrom faults rounds (2 ^ 32 - 1) d = d ∨
      pruneFrom faults rounds (2 ^ 32 - 1) d = d.remove (2 ^ 32 - 1) := by
  cases rounds with
  | zero => exact .inl rfl
  | succ rounds =>
    rw [pruneFrom]
    split
    · exact .inl rfl
    · exact .inr (if_pos rfl)

/-- Pruning finds nothing above the retained backups, except where the number above them
saturates at that of the oldest. -/
theorem pruneBackupsAbove_cases (h : Chain retained d) (faults : Faults)
    (hbound : retained < 2 ^ 32) :
    pruneBackupsAbove faults retained d = d ∨
      pruneBackupsAbove faults retained d = d.remove retained ∧ retained = 2 ^ 32 - 1 := by
  by_cases hlast : retained = 2 ^ 32 - 1
  · have hmin : min (retained + 1) (2 ^ 32 - 1) = 2 ^ 32 - 1 := by omega
    rw [pruneBackupsAbove, hmin, hlast]
    exact (pruneFrom_last faults (2 ^ 32) d).imp id fun hremove => ⟨hremove, rfl⟩
  · exact .inl (pruneFrom_stop faults (h.bounded _ (by omega)))

/-- The shift moves no live file, loses nothing, and where it returns the first backup is free. -/
structure Shifted (retained : Nat) (d : Dir) (result : Dir × Bool) : Prop where
  chain : Chain retained result.1
  same : reading retained result.1 = reading retained d
  live : result.1.names 0 = d.names 0
  files : result.1.files = d.files
  free : result.2 = true → result.1.names 1 = none

theorem shift_spec (faults : Faults) {i : Nat} (h : Chain retained d)
    (hfree : d.names (i + 1) = none) (hi : i + 1 ≤ retained) :
    Shifted retained d (shift faults i d) := by
  induction i generalizing d with
  | zero => exact ⟨h, rfl, rfl, rfl, fun _ => hfree⟩
  | succ i ih =>
    rw [shift]
    split
    · exact ⟨h, rfl, rfl, rfl, nofun⟩
    · have hmoved : (d.rename (i + 1) (i + 2)).names (i + 1) = none := by
        rw [Directory.names_rename hfree, if_pos rfl]
      rcases ih (h.rename hfree hi) hmoved (Nat.le_of_succ_le hi)
        with ⟨hchain, hsame, hlive, hfiles, hfirst⟩
      refine ⟨hchain, hsame.trans (Directory.readDown_rename_up hfree hi), ?_, ?_, hfirst⟩
      · rw [hlive, Directory.names_rename hfree, if_neg (by omega), if_neg (by omega)]
      · rw [hfiles, Directory.files_rename]

/-- What opening the live path does: a file that is created stays where its mode cannot be
tightened. -/
theorem openAppend_spec (faults : Faults) (d : Dir) :
    openAppend faults d = (d, none) ∨
    (∃ file, d.names 0 = some file ∧ openAppend faults d = (d, some file)) ∨
    (d.names 0 = none ∧ openAppend faults d = (d.create 0, some d.fresh)) ∨
    (d.names 0 = none ∧ faults.tightenFails = true ∧ openAppend faults d = (d.create 0, none)) := by
  rw [openAppend]
  split
  · exact .inl rfl
  · cases hname : d.names 0 with
    | none =>
      cases htight : faults.tightenFails with
      | false => exact .inr (.inr (.inl ⟨rfl, rfl⟩))
      | true => exact .inr (.inr (.inr ⟨rfl, rfl, rfl⟩))
    | some file =>
      cases faults.tightenFails with
      | false => exact .inr (.inl ⟨file, rfl, rfl⟩)
      | true => exact .inl rfl

/-- A live file whose mode cannot be tightened is moved back over: there is one to move, and the
move succeeds. -/
def Faults.Undone (faults : Faults) (d : Dir) : Prop :=
  faults.tightenFails = true → faults.restoreFails = false ∧ d.names 0 ≠ none

theorem undone_plain : ({} : Faults).Undone d := fun htight => absurd htight Bool.false_ne_true

/-- What one rotation leaves: the handle at the newest file, and at most the oldest backup
taken from what is read; where nothing is retained, a rotation that returns empties the log. -/
structure Rotated (retained : Nat) (d : Dir) (result : Dir × LogState × Bool) : Prop where
  chain : Chain retained result.1
  newest : result.1.Newest result.2.1.file
  trimmed : Trimmed retained d result.1 ∨ retained = 0 ∧ result.2.2 = true ∧
    reading retained result.1 = []
  named : result.2.2 = true → result.1.names 0 = some result.2.1.file

/-- A rotation of a trimmed directory that takes nothing more. -/
theorem Rotated.of_same {result : Dir × LogState × Bool} (hchain : Chain retained result.1)
    (hnewest : result.1.Newest result.2.1.file) (htrim : Trimmed retained d d')
    (hsame : reading retained result.1 = reading retained d')
    (hnamed : result.2.2 = true → result.1.names 0 = some result.2.1.file) :
    Rotated retained d result := by
  refine ⟨hchain, hnewest, .inl ?_, hnamed⟩
  rw [Trimmed, hsame]
  exact htrim

/-- The branch without a live path completes the rotation before it, or changes nothing. -/
theorem recreate_spec (faults : Faults) {s : LogState} (h : Chain retained d')
    (hundone : faults.Undone d') (hnewest : d'.Newest s.file)
    (htrim : Trimmed retained d d') : Rotated retained d (recreate faults d' s) := by
  rw [recreate]
  rcases openAppend_spec faults d' with hopen | ⟨file, hname, hopen⟩ | ⟨hfree, hopen⟩ |
    ⟨hfree, htight, _⟩
  · rw [hopen]
    exact .of_same h hnewest htrim rfl nofun
  · rw [hopen]
    exact .of_same h (.inl hname) htrim rfl fun _ => hname
  · rw [hopen]
    have hname : (d'.create 0).names 0 = some d'.fresh := by
      rw [Directory.names_create, if_pos rfl]
    exact .of_same (h.create (Nat.zero_le _)) (.inl hname) htrim
      (Directory.readDown_create h.wellFormed hfree) fun _ => hname
  · exact absurd hfree (hundone htight).2

/-- Moving the live file to a free first backup and back loses nothing. -/
theorem moveLive_spec (faults : Faults) {s : LogState} (h : Chain retained d')
    (hundone : faults.Undone d') (hlive : d'.names 0 = some s.file)
    (hfree : d'.names 1 = none) (hpos : 1 ≤ retained) (htrim : Trimmed retained d d') :
    Rotated retained d (moveLive faults d' s) := by
  have hmoved : Chain retained (d'.rename 0 1) := h.rename hfree hpos
  have hsame : reading retained (d'.rename 0 1) = reading retained d' :=
    Directory.readDown_rename_up hfree hpos
  have hzero : (d'.rename 0 1).names 0 = none := by
    rw [Directory.names_rename hfree, if_pos rfl]
  have hone : (d'.rename 0 1).names 1 = some s.file := by
    rw [Directory.names_rename hfree, if_neg Nat.one_ne_zero, if_pos rfl, hlive]
  rw [moveLive]
  split
  · exact .of_same h (.inl hlive) htrim rfl nofun
  · rcases openAppend_spec faults (d'.rename 0 1) with hopen | ⟨_, hname, _⟩ | ⟨_, hopen⟩ |
      ⟨_, htight, hopen⟩
    · rw [hopen]
      cases faults.restoreFails with
      | true => exact .of_same hmoved (.inr ⟨hzero, hone⟩) htrim hsame nofun
      | false =>
        have hback : ((d'.rename 0 1).rename 1 0).names 0 = some s.file := by
          rw [Directory.names_rename hzero, if_neg Nat.zero_ne_one, if_pos rfl, hone]
        exact .of_same (hmoved.rename hzero (Nat.zero_le _)) (.inl hback) htrim
          ((Directory.readDown_rename_down hzero hpos).trans hsame) nofun
    · exact absurd (hzero.symm.trans hname) (Option.some_ne_none _).symm
    · rw [hopen]
      have hname : ((d'.rename 0 1).create 0).names 0 = some (d'.rename 0 1).fresh := by
        rw [Directory.names_create, if_pos rfl]
      exact .of_same (hmoved.create (Nat.zero_le _)) (.inl hname) htrim
        ((Directory.readDown_create hmoved.wellFormed hzero).trans hsame) fun _ => hname
    · -- The fresh file is moved over by the old one.
      rw [hopen, (hundone htight).1]
      have hcreated : Chain retained ((d'.rename 0 1).create 0) := hmoved.create (Nat.zero_le _)
      have hone' : ((d'.rename 0 1).create 0).names 1 = some s.file := by
        rw [Directory.names_create, if_neg Nat.one_ne_zero, hone]
      have hempty : ((d'.rename 0 1).create 0).contents 0 = [] := by
        have hname : ((d'.rename 0 1).create 0).names 0 = some (d'.rename 0 1).fresh := by
          rw [Directory.names_create, if_pos rfl]
        rw [Directory.contents_of_some hname]
        exact Function.update_self _ _ _
      have hremoved : (((d'.rename 0 1).create 0).remove 0).names 0 = none := by
        rw [Directory.names_remove, if_pos rfl]
      have hback : ((((d'.rename 0 1).create 0).remove 0).rename 1 0).names 0 = some s.file := by
        rw [Directory.names_rename hremoved, if_neg Nat.zero_ne_one, if_pos rfl,
          Directory.names_remove, if_neg Nat.one_ne_zero, hone']
      dsimp only
      rw [if_neg Bool.false_ne_true, Directory.rename_eq_remove hone' Nat.one_ne_zero]
      refine .of_same ((hcreated.remove 0).rename hremoved (Nat.zero_le _)) (.inl hback) htrim ?_
        nofun
      have hread : reading retained (((d'.rename 0 1).create 0).remove 0) =
          reading retained (d'.rename 0 1) := (Directory.readDown_remove_empty hempty).trans
        (Directory.readDown_create hmoved.wellFormed hzero)
      exact ((Directory.readDown_rename_down hremoved hpos).trans hread).trans hsame

/-- With nothing retained, the live file is emptied in place. -/
theorem truncate_spec {s : LogState} (h : Chain 0 d) (hnewest : d.Newest s.file) :
    Rotated 0 d (d.truncate s.file, ⟨s.file, 0⟩, true) := by
  have hlive : d.names 0 = some s.file := by
    rcases hnewest with hlive | ⟨_, hone⟩
    · exact hlive
    · rw [h.bounded 1 Nat.zero_lt_one] at hone
      cases hone
  have hempty : reading 0 (d.truncate s.file) = [] := by
    show (d.truncate s.file).contents 0 = []
    rw [Directory.contents_of_some (d := d.truncate s.file) hlive]
    exact Function.update_self _ _ _
  exact ⟨⟨h.wellFormed.truncate _, h.bounded⟩, .inl hlive, .inr ⟨rfl, rfl, hempty⟩,
    fun _ => hlive⟩

/-- One rotation, whichever of its calls fail, where no live file is left untightened. -/
theorem rotate_spec (policy : RotationPolicy) (faults : Faults) {s : LogState}
    (h : Chain policy.retainedFiles.toNat d) (hundone : faults.Undone d)
    (hnewest : d.Newest s.file) :
    Rotated policy.retainedFiles.toNat d (rotate policy faults d s) := by
  have hbound : policy.retainedFiles.toNat < 2 ^ 32 := policy.retainedFiles.toNat_lt
  rw [rotate]
  generalize policy.retainedFiles.toNat = retained at h hbound
  have hprune := pruneBackupsAbove_cases h faults hbound
  generalize pruneBackupsAbove faults retained d = pruned at hprune
  split
  case isTrue hzero =>
    subst hzero
    have hpruned : pruned = d := hprune.resolve_right fun hlast => by omega
    subst hpruned
    split
    · exact .of_same h hnewest (.inl rfl) rfl fun hok => absurd hok Bool.false_ne_true
    · exact truncate_spec h hnewest
  case isFalse hpos =>
    have hchain : Chain retained pruned := by
      rcases hprune with rfl | ⟨rfl, _⟩
      · exact h
      · exact h.remove _
    have htrim : Trimmed retained d pruned := by
      rcases hprune with rfl | ⟨rfl, _⟩
      · exact .inl rfl
      · exact Chain.remove_trimmed
    have hnewest' : pruned.Newest s.file := by
      rcases hprune with rfl | ⟨rfl, hlast⟩
      · exact hnewest
      · rw [Directory.Newest, Directory.names_remove, Directory.names_remove,
          if_neg (by omega), if_neg (by omega)]
        exact hnewest
    have hundone' : faults.Undone pruned := by
      rcases hprune with rfl | ⟨rfl, hlast⟩
      · exact hundone
      · rw [Faults.Undone, Directory.names_remove, if_neg (by omega)]
        exact hundone
    split
    · exact recreate_spec faults hchain hundone' hnewest' htrim
    · rename_i hexists
      have hlive : pruned.names 0 = some s.file := by
        rcases hnewest' with hlive | ⟨hnone, _⟩
        · exact hlive
        · exact absurd (.inr hnone) hexists
      split
      · exact .of_same hchain hnewest' htrim rfl fun hok => absurd hok Bool.false_ne_true
      · have hremoved : pruned.remove retained = d.remove retained := by
          rcases hprune with rfl | ⟨rfl, _⟩
          · rfl
          · simp [Directory.remove]
        have hfree : (pruned.remove retained).names (retained - 1 + 1) = none := by
          rw [Directory.names_remove, if_pos (by omega)]
        have hshift := shift_spec faults (hchain.remove retained) hfree (by omega)
        have htrim' : Trimmed retained d (pruned.remove retained) := by
          rw [hremoved]
          exact Chain.remove_trimmed
        have hlive' : (pruned.remove retained).names 0 = some s.file := by
          rw [Directory.names_remove, if_neg (by omega), hlive]
        generalize shift faults (retained - 1) (pruned.remove retained) = shifted at hshift
        rcases shifted with ⟨d', ok⟩
        rcases hshift with ⟨hchain', hsame, hname, _, hfirst⟩
        have hname' : d'.names 0 = some s.file := hname.trans hlive'
        have htrim'' : Trimmed retained d d' := by
          rw [Trimmed, hsame]
          exact htrim'
        cases ok with
        | true =>
          have hmove : faults.Undone d' := fun htight => by
            rw [hname']
            exact ⟨(hundone htight).1, Option.some_ne_none _⟩
          exact moveLive_spec faults hchain' hmove hname' (hfirst rfl) (by omega) htrim''
        | false =>
          exact .of_same hchain' (.inl hname') htrim'' rfl fun hok => absurd hok Bool.false_ne_true

end

/-! ## Runs with failures -/

section
variable {policy : RotationPolicy} {d : Dir} {s : LogState}

/-- What can be read after a rotation is the end of what could be read before. -/
theorem Trimmed.suffix {retained : Nat} {d d' : Dir} (h : Trimmed retained d d') :
    reading retained d' <:+ reading retained d := by
  rcases h with hsame | htrim
  · rw [hsame]
  · exact ⟨_, htrim.symm⟩

/-- The rotation of an append keeps the handle at the newest file, and the end of what is
read. -/
theorem makeRoom_spec (faults : Faults) (line : Line)
    (h : Chain policy.retainedFiles.toNat d) (hundone : faults.Undone d)
    (hnewest : d.Newest s.file) :
    Chain policy.retainedFiles.toNat (makeRoom policy faults line d s).1 ∧
      (makeRoom policy faults line d s).1.Newest (makeRoom policy faults line d s).2.file ∧
      reading policy.retainedFiles.toNat (makeRoom policy faults line d s).1 <:+
        reading policy.retainedFiles.toNat d := by
  rw [makeRoom]
  split
  · rcases rotate_spec policy faults h hundone hnewest with ⟨hchain, hnewest', htrim, _⟩
    refine ⟨hchain, hnewest', ?_⟩
    rcases htrim with htrim | ⟨_, _, hempty⟩
    · exact htrim.suffix
    · show reading _ (rotate policy faults d s).1 <:+ _
      rw [hempty]
      exact List.nil_suffix
  · exact ⟨h, hnewest, List.suffix_rfl⟩

/-- What a write lands is read last. -/
theorem land_spec {retained file : Nat} (h : Chain retained d) (hnewest : d.Newest file)
    (chunk : Option Chunk) :
    Chain retained (land file d chunk) ∧ (land file d chunk).Newest file ∧
      reading retained (land file d chunk) = reading retained d ++ chunk.toList := by
  cases chunk with
  | none => exact ⟨h, hnewest, (List.append_nil _).symm⟩
  | some chunk =>
    refine ⟨⟨h.wellFormed.append _ _, h.bounded⟩, hnewest, ?_⟩
    refine Directory.readDown_append h.wellFormed hnewest (fun hnone => ?_) chunk
    rcases hnewest with hlive | ⟨_, hone⟩
    · exact absurd (hlive.symm.trans hnone) (Option.some_ne_none _)
    · by_contra hzero
      rw [h.bounded 1 (by omega)] at hone
      cases hone

/-- What an append leaves: the handle at the newest file, which ends with the line where the
append returns. -/
structure Appended (retained : Nat) (line : Line) (result : Dir × LogState × Bool) : Prop where
  chain : Chain retained result.1
  newest : result.1.Newest result.2.1.file
  last : result.2.2 = true →
    (result.1.files result.2.1.file).getLast? = some (.line line)

theorem append_dir (faults : Faults) (line : Line) :
    (append policy faults line d s).1 =
      land (makeRoom policy faults line d s).2.file (makeRoom policy faults line d s).1
        (landing faults line) := by
  rw [append]
  cases faults.writeFails <;> rfl

theorem append_file (faults : Faults) (line : Line) :
    (append policy faults line d s).2.1.file = (makeRoom policy faults line d s).2.file := by
  rw [append]
  cases faults.writeFails <;> rfl

/-- An append returns where its write does not fail. -/
theorem append_ok (faults : Faults) (line : Line)
    (h : (append policy faults line d s).2.2 = true) : landing faults line = some (.line line) := by
  rw [append] at h
  rw [landing]
  cases hwrite : faults.writeFails with
  | none => rfl
  | some count =>
    rw [hwrite] at h
    cases h

/-- One append, whichever of its calls fail. -/
theorem append_spec (faults : Faults) (line : Line)
    (h : Chain policy.retainedFiles.toNat d) (hundone : faults.Undone d)
    (hnewest : d.Newest s.file) :
    Appended policy.retainedFiles.toNat line (append policy faults line d s) ∧
      ∃ kept, kept <:+ reading policy.retainedFiles.toNat d ∧
        reading policy.retainedFiles.toNat (append policy faults line d s).1 =
          kept ++ (landing faults line).toList := by
  rcases makeRoom_spec faults line h hundone hnewest with ⟨hchain, hnewest', hsuffix⟩
  rcases land_spec hchain hnewest' (landing faults line) with ⟨hchain', hlanded, hread⟩
  rw [← append_dir] at hchain' hlanded hread
  refine ⟨⟨hchain', by rw [append_file]; exact hlanded, fun hok => ?_⟩, _, hsuffix, hread⟩
  rw [append_dir, append_file, append_ok faults line hok]
  show ((Function.update _ _ _ : Nat → List Chunk) _).getLast? = _
  rw [Function.update_self, List.getLast?_concat]

/-- Where the log stands after every run in which a rotation leaves no live file untightened. -/
structure Kept (policy : RotationPolicy) (w : World) : Prop where
  chain : Chain policy.retainedFiles.toNat w.dir
  newest : ∀ s, w.log = some s → w.dir.Newest s.file
  suffix : reading policy.retainedFiles.toNat w.dir <:+ w.landed

/-- The condition on an event: an append leaves no live file untightened. -/
def Event.Tight (w : World) : Event → Prop
  | .append _ faults => faults.Undone w.dir
  | .restart _ => True

theorem Kept.append {w : World} (hw : Kept policy w) (line : Line) {faults : Faults}
    (hundone : faults.Undone w.dir) : Kept policy (w.append policy line faults) := by
  rw [World.append]
  cases hlog : w.log with
  | none => exact hw
  | some s =>
    rcases append_spec faults line hw.chain hundone (hw.newest s hlog) with
      ⟨⟨hchain, hnewest, _⟩, kept, hkept, hread⟩
    refine ⟨hchain, fun s' hs' => ?_, ?_⟩
    · rw [← Option.some.inj hs']
      exact hnewest
    · show reading _ (ReceiptLog.append policy faults line w.dir s).1 <:+ _
      rw [hread]
      rcases hkept.trans hw.suffix with ⟨lost, hlost⟩
      exact ⟨lost, by rw [← List.append_assoc, hlost]⟩

/-- Opening creates at most the live file, which then has the handle. -/
theorem openAppend_cases (faults : Faults) (d : Dir) :
    ((openAppend faults d).1 = d ∨
      d.names 0 = none ∧ (openAppend faults d).1 = d.create 0) ∧
    ∀ file, (openAppend faults d).2 = some file → (openAppend faults d).1.names 0 = some file := by
  rw [openAppend]
  split
  · exact ⟨.inl rfl, nofun⟩
  · cases hname : d.names 0 with
    | none =>
      refine ⟨.inr ⟨rfl, rfl⟩, fun file hfile => ?_⟩
      have hfresh : d.fresh = file := by
        dsimp only at hfile
        split at hfile
        · cases hfile
        · exact Option.some.inj hfile
      rw [← hfresh, Directory.names_create, if_pos rfl]
    | some live =>
      refine ⟨.inl rfl, fun file hfile => ?_⟩
      dsimp only at hfile
      split at hfile
      · cases hfile
      · rw [← Option.some.inj hfile]
        exact hname

theorem Kept.restart {w : World} (hw : Kept policy w) (faults : Faults) :
    Kept policy (w.restart faults) := by
  rcases openAppend_cases faults w.dir with ⟨hdir, hhandle⟩
  have hchain : Chain policy.retainedFiles.toNat (openAppend faults w.dir).1 := by
    rcases hdir with hdir | ⟨_, hdir⟩
    · rw [hdir]
      exact hw.chain
    · rw [hdir]
      exact hw.chain.create (Nat.zero_le _)
  have hread : reading policy.retainedFiles.toNat (openAppend faults w.dir).1 =
      reading policy.retainedFiles.toNat w.dir := by
    rcases hdir with hdir | ⟨hfree, hdir⟩
    · rw [hdir]
    · rw [hdir]
      exact Directory.readDown_create hw.chain.wellFormed hfree
  have hsuffix := hw.suffix
  rw [← hread] at hsuffix
  rw [World.restart]
  generalize openAppend faults w.dir = opened at hchain hsuffix hhandle
  rcases opened with ⟨d, _ | file⟩
  · exact ⟨hchain, nofun, hsuffix⟩
  · refine ⟨hchain, fun s hs => .inl ?_, hsuffix⟩
    dsimp only at hs
    split at hs
    · cases hs
    · rw [← Option.some.inj hs]
      exact hhandle file rfl

/-- The empty directory. -/
theorem kept_empty (policy : RotationPolicy) : Kept policy {} :=
  ⟨⟨⟨nofun, nofun⟩, fun _ _ => rfl⟩, nofun, by
    have hempty : ∀ n, ({} : Dir).readDown n = [] := by
      intro n
      induction n with
      | zero => rfl
      | succ n ih => rw [Directory.readDown, ih]; rfl
    rw [reading, hempty]⟩

/-- Every event finds the log where it can be kept. -/
def TightRun (policy : RotationPolicy) (events : List Event) : Prop :=
  ∀ (i : Nat) (e : Event), events[i]? = some e → e.Tight (World.run policy (events.take i))

theorem kept_run {events : List Event} (h : TightRun policy events) :
    Kept policy (World.run policy events) := by
  induction events using List.reverseRecOn with
  | nil => exact kept_empty policy
  | append_singleton before e ih =>
    have hbefore : TightRun policy before := by
      intro i a ha
      rcases List.getElem?_eq_some_iff.mp ha with ⟨hi, -⟩
      have htight := h i a (by rw [List.getElem?_append_left hi, ha])
      rwa [List.take_append_of_le_length (Nat.le_of_lt hi)] at htight
    have hlast : e.Tight (World.run policy before) := by
      have htight := h before.length e (by simp)
      rwa [List.take_left'] at htight
      rfl
    have hrun : World.run policy (before ++ [e]) = (World.run policy before).step policy e :=
      List.foldl_concat _ _ _ _
    rw [hrun]
    cases e with
    | append line faults => exact (ih hbefore).append line hlast
    | restart faults => exact (ih hbefore).restart faults

end

/-! ## Runs without failures -/

section
variable {policy : RotationPolicy} {d : Dir} {s : LogState}

/-- A rotation without failures returns, with an empty live file and no other file changed. -/
structure Emptied (d : Dir) (result : Dir × LogState × Bool) : Prop where
  ok : result.2.2 = true
  empty : result.1.files result.2.1.file = []
  written : result.2.1.written = 0
  files : ∀ file, result.1.files file = d.files file ∨ result.1.files file = []

theorem shift_ok (i : Nat) (d : Dir) : (shift {} i d).2 = true := by
  induction i generalizing d with
  | zero => rfl
  | succ i ih => exact ih _

/-- The files of a directory, all but a new one. -/
theorem files_create (d : Dir) (file : Nat) :
    (d.create 0).files file = d.files file ∨ (d.create 0).files file = [] := by
  by_cases hfile : file = d.fresh
  · exact .inr (by rw [hfile]; exact Function.update_self _ _ _)
  · exact .inl (Function.update_of_ne hfile _ _)

theorem moveLive_emptied {d : Dir} (hfree : d.names 1 = none) : Emptied d (moveLive {} d s) := by
  have hzero : (d.rename 0 1).names 0 = none := by
    rw [Directory.names_rename hfree, if_pos rfl]
  have hopen : openAppend {} (d.rename 0 1) =
      ((d.rename 0 1).create 0, some (d.rename 0 1).fresh) := by
    rw [openAppend, hzero]
    rfl
  have hmove : moveLive {} d s =
      ((d.rename 0 1).create 0, ⟨(d.rename 0 1).fresh, 0⟩, true) := by
    rw [moveLive, if_neg Bool.false_ne_true, hopen]
  rw [hmove]
  refine ⟨rfl, Function.update_self _ _ _, rfl, fun file => ?_⟩
  have hfiles := files_create (d.rename 0 1) file
  rwa [Directory.files_rename] at hfiles

theorem rotate_emptied (h : Chain policy.retainedFiles.toNat d)
    (hlive : d.names 0 = some s.file) : Emptied d (rotate policy {} d s) := by
  have hprune := pruneBackupsAbove_cases h {} policy.retainedFiles.toNat_lt
  rw [rotate]
  generalize policy.retainedFiles.toNat = retained at h hprune
  generalize pruneBackupsAbove {} retained d = pruned at hprune
  have hfiles : pruned.files = d.files := by
    rcases hprune with rfl | ⟨rfl, _⟩ <;> rfl
  split
  case isTrue hzero =>
    rw [if_neg Bool.false_ne_true]
    refine ⟨rfl, Function.update_self _ _ _, rfl, fun file => ?_⟩
    by_cases hfile : file = s.file
    · exact .inr (by rw [hfile]; exact Function.update_self _ _ _)
    · left
      rw [← hfiles]
      exact Function.update_of_ne hfile _ _
  case isFalse hpos =>
    have hchain : Chain retained pruned := by
      rcases hprune with rfl | ⟨rfl, _⟩
      · exact h
      · exact h.remove _
    have hlive' : pruned.names 0 = some s.file := by
      rcases hprune with rfl | ⟨rfl, _⟩
      · exact hlive
      · rw [Directory.names_remove, if_neg (Ne.symm hpos), hlive]
    have hexists : ¬ ((({} : Faults).existsFails = true) ∨ pruned.names 0 = none) := by
      rw [hlive']
      exact fun h => h.elim Bool.false_ne_true (Option.some_ne_none _)
    have hfree : (pruned.remove retained).names (retained - 1 + 1) = none := by
      rw [Directory.names_remove, if_pos (by omega)]
    have hshift := shift_spec {} (hchain.remove retained) hfree (by omega)
    have hok := shift_ok (retained - 1) (pruned.remove retained)
    rw [if_neg hexists, if_neg Bool.false_ne_true]
    generalize shift {} (retained - 1) (pruned.remove retained) = shifted at hshift hok
    rcases shifted with ⟨d', ok⟩
    cases hok
    rcases moveLive_emptied (s := s) (hshift.free rfl) with ⟨hret, hempty, hwritten, hrest⟩
    refine ⟨hret, hempty, hwritten, fun file => ?_⟩
    have hsame : d'.files = d.files := hshift.files.trans hfiles
    rw [← hsame]
    exact hrest file

/-- A file within the cap, or with a single line. -/
def Sized (policy : RotationPolicy) (chunks : List Chunk) : Prop :=
  len chunks ≤ policy.maxFileBytes.toNat ∨ chunks.length ≤ 1

theorem len_append (chunks : List Chunk) (line : Line) :
    len (chunks ++ [.line line]) = saturatingAdd (len chunks) (lineLen line) := by
  simp only [len, lineLen, saturatingAdd, List.map_append, List.sum_append, List.map_cons,
    List.map_nil, List.sum_cons, List.sum_nil, Chunk.size]
  omega

/-- An empty length is that of an empty file. -/
theorem eq_nil_of_len (chunks : List Chunk) (h : len chunks = 0) : chunks = [] := by
  cases chunks with
  | nil => rfl
  | cons chunk rest =>
    have hpos : 0 < chunk.size := by
      cases chunk with
      | line text =>
        show 0 < (text ++ [10]).length
        rw [List.length_append]
        exact Nat.succ_pos _
      | torn head tail => exact Nat.succ_pos _
    have hmax : 0 < u64Max := by decide
    rw [len, List.map_cons, List.sum_cons] at h
    omega

/-- Where a log without failures stands, after the appends of these lines. -/
structure Intact (policy : RotationPolicy) (lines : List Line) (w : World) : Prop where
  chain : Chain policy.retainedFiles.toNat w.dir
  live : ∃ s, w.log = some s ∧ w.dir.names 0 = some s.file ∧
    s.written = len (w.dir.files s.file)
  suffix : reading policy.retainedFiles.toNat w.dir <:+ lines.map .line
  sized : ∀ file, Sized policy (w.dir.files file)

/-- Room is made for a line: after it the file is within the cap or holds the line alone. -/
theorem makeRoom_sized (line : Line) (hcap : policy.maxFileBytes ≠ 0)
    (h : Chain policy.retainedFiles.toNat d) (hlive : d.names 0 = some s.file)
    (hwritten : s.written = len (d.files s.file))
    (hsized : ∀ file, Sized policy (d.files file)) :
    let room := makeRoom policy {} line d s
    room.1.names 0 = some room.2.file ∧ room.2.written = len (room.1.files room.2.file) ∧
      (∀ file, Sized policy (room.1.files file)) ∧
      Sized policy (room.1.files room.2.file ++ [.line line]) := by
  rw [makeRoom]
  split
  case isTrue hover =>
    rcases rotate_emptied h hlive with ⟨hok, hempty, hzero, hfiles⟩
    have hrotated := rotate_spec policy {} h undone_plain (.inl hlive)
    refine ⟨hrotated.named hok, ?_, fun file => ?_, ?_⟩
    · show (rotate policy {} d s).2.1.written = _
      rw [hzero]
      show 0 = len ((rotate policy {} d s).1.files (rotate policy {} d s).2.1.file)
      rw [hempty]
      rfl
    · rcases hfiles file with hsame | hnil
      · show Sized policy ((rotate policy {} d s).1.files file)
        rw [hsame]
        exact hsized file
      · show Sized policy ((rotate policy {} d s).1.files file)
        rw [hnil]
        exact .inr (Nat.zero_le _)
    · show Sized policy ((rotate policy {} d s).1.files (rotate policy {} d s).2.1.file ++ _)
      rw [hempty]
      exact .inr (Nat.le_refl _)
  case isFalse hroom =>
    refine ⟨hlive, hwritten, hsized, ?_⟩
    have hpos : 0 < policy.maxFileBytes.toNat := by
      refine Nat.pos_of_ne_zero fun hzero => hcap ?_
      exact UInt64.toNat_inj.mp hzero
    rw [overflows, decide_eq_true_iff] at hroom
    by_cases hzero : s.written = 0
    · rw [eq_nil_of_len _ (hwritten.symm.trans hzero)]
      exact .inr (Nat.le_refl _)
    · left
      rw [len_append, ← hwritten]
      by_contra hover
      exact hroom ⟨hpos, Nat.pos_of_ne_zero hzero, Nat.lt_of_not_le hover⟩

theorem Intact.append {lines : List Line} {w : World} (hw : Intact policy lines w)
    (hcap : policy.maxFileBytes ≠ 0) (line : Line) :
    Intact policy (lines ++ [line]) (w.append policy line {}) := by
  rcases hw.live with ⟨s, hlog, hname, hwritten⟩
  rcases makeRoom_sized line hcap hw.chain hname hwritten hw.sized with
    ⟨hname', hwritten', hsized, hroom⟩
  rcases append_spec {} line hw.chain undone_plain (.inl hname) with
    ⟨⟨hchain, _, _⟩, kept, hkept, hread⟩
  rw [World.append, hlog]
  refine ⟨hchain, ⟨_, rfl, ?_, ?_⟩, ?_, fun file => ?_⟩
  · exact hname'
  · have hfile : ((makeRoom policy {} line w.dir s).1.append
        (makeRoom policy {} line w.dir s).2.file (.line line)).files
          (makeRoom policy {} line w.dir s).2.file =
        (makeRoom policy {} line w.dir s).1.files (makeRoom policy {} line w.dir s).2.file ++
          [.line line] := Function.update_self _ _ _
    show saturatingAdd (makeRoom policy {} line w.dir s).2.written (lineLen line) =
      len (((makeRoom policy {} line w.dir s).1.append
        (makeRoom policy {} line w.dir s).2.file (.line line)).files
          (makeRoom policy {} line w.dir s).2.file)
    rw [hfile, len_append, hwritten']
  · show reading _ (ReceiptLog.append policy {} line w.dir s).1 <:+ _
    rw [hread, List.map_append]
    rcases hkept.trans hw.suffix with ⟨lost, hlost⟩
    exact ⟨lost, by rw [← List.append_assoc, hlost]; rfl⟩
  · show Sized policy ((Function.update _ _ _ : Nat → List Chunk) file)
    by_cases hfile : file = (makeRoom policy {} line w.dir s).2.file
    · rw [hfile, Function.update_self]
      exact hroom
    · rw [Function.update_of_ne hfile]
      exact hsized file

theorem Intact.restart {lines : List Line} {w : World} (hw : Intact policy lines w) :
    Intact policy lines (w.restart {}) := by
  rcases hw.live with ⟨s, hlog, hname, hwritten⟩
  have hopen : w.restart {} = { w with log := some ⟨s.file, len (w.dir.files s.file)⟩ } := by
    rw [World.restart, openAppend, hname]
    rfl
  rw [hopen]
  exact ⟨hw.chain, ⟨_, rfl, hname, rfl⟩, hw.suffix, hw.sized⟩

/-- The first start, in an empty directory. -/
theorem intact_start (policy : RotationPolicy) : Intact policy [] (World.restart {} {}) := by
  have hkept := (kept_empty policy).restart {}
  have hfiles : ∀ file, (World.restart {} {}).dir.files file = [] := by
    intro file
    show Function.update (fun _ => []) 0 [] file = []
    by_cases hfile : file = 0
    · rw [hfile, Function.update_self]
    · rw [Function.update_of_ne hfile]
  refine ⟨hkept.chain, ⟨⟨0, 0⟩, rfl, rfl, ?_⟩, hkept.suffix, fun file => ?_⟩
  · rw [hfiles]
    rfl
  · rw [hfiles]
    exact .inr (Nat.zero_le _)

/-- An event without failures. -/
inductive Plain where
  | append (line : Line)
  | restart

def Plain.event : Plain → Event
  | .append line => .append line {}
  | .restart => .restart {}

/-- The lines that the events append. -/
def linesOf (events : List Plain) : List Line :=
  events.filterMap fun e => match e with
    | .append line => some line
    | .restart => none

theorem intact_run {events : List Plain} {lines : List Line} {w : World}
    (hw : Intact policy lines w) (hcap : policy.maxFileBytes ≠ 0) :
    Intact policy (lines ++ linesOf events)
      ((events.map Plain.event).foldl (World.step policy) w) := by
  induction events generalizing lines w with
  | nil =>
    rw [linesOf, List.filterMap_nil, List.append_nil]
    exact hw
  | cons e rest ih =>
    cases e with
    | append line =>
      have hnext := ih (hw.append hcap line)
      rwa [List.append_assoc] at hnext
    | restart => exact ih hw.restart

/-! ## Every run -/

/-- Without failures, where rotation is not disabled: the backups and the live file hold the
end of the appended lines, in order, within the cap.  With failures, where a rotation that cannot
tighten the live file it has created moves the old one back: the same end is held of what was
written, an append that returns ends the file of the handle, which is the newest, and a rotation takes
at most the oldest backup. -/
theorem rotation_keeps_newest (policy : RotationPolicy) :
    (policy.maxFileBytes ≠ 0 → ∀ events : List Plain, Intact policy (linesOf events)
      (World.run policy (.restart {} :: events.map Plain.event))) ∧
    ∀ events : List Event, TightRun policy events → Kept policy (World.run policy events) ∧
      ∀ s, (World.run policy events).log = some s → ∀ faults : Faults,
        faults.Undone (World.run policy events).dir →
        (∀ line, Appended policy.retainedFiles.toNat line
          (append policy faults line (World.run policy events).dir s)) ∧
        Rotated policy.retainedFiles.toNat (World.run policy events).dir
          (rotate policy faults (World.run policy events).dir s) := by
  constructor
  · intro hcap events
    exact intact_run (intact_start policy) hcap
  · intro events htight
    have hkept := kept_run htight
    refine ⟨hkept, fun s hlog faults hfaults => ⟨fun line => ?_, ?_⟩⟩
    · exact (append_spec faults line hkept.chain hfaults (hkept.newest s hlog)).1
    · exact rotate_spec policy faults hkept.chain hfaults (hkept.newest s hlog)

end

/-! ## Three runs -/

/-- Two bytes for each file, and two backups: a line of one byte fills a file. -/
def twoBackups : RotationPolicy := ⟨2, 2⟩

/-- Three lines, and then two whose rotations cannot open the fresh live file. -/
def retriedOpens : List Event :=
  [.restart {}, .append [1] {}, .append [2] {}, .append [3] {},
    .append [4] { openFails := true }, .append [5] { openFails := true }]

/-- A rotation that creates the live file, cannot tighten its mode and cannot move the old one
back, and then one that stops after its shift. -/
def untightened : List Event :=
  [.restart {}, .append [1] {}, .append [2] { tightenFails := true, restoreFails := true },
    .append [3] { moveFails := true }]

/-- With a cap of zero the live file grows; two failed rotations in a row remove both backups,
with nothing in their place; and a handle is left writing to the second backup. -/
theorem rotation_erodes :
    (let w := World.run ⟨0, 1⟩ [.restart {}, .append [1] {}, .append [2] {}];
      w.dir.contents 0 = [.line [1], .line [2]] ∧ 0 < len (w.dir.contents 0)) ∧
    (let w := World.run twoBackups (retriedOpens.take 4);
      w.dir.contents 2 = [.line [1]] ∧ w.dir.contents 1 = [.line [2]]) ∧
    (let w := World.run twoBackups (retriedOpens.take 5);
      w.dir.contents 2 = [.line [2]] ∧ w.dir.names 1 = none) ∧
    (let w := World.run twoBackups retriedOpens;
      w.dir.names 2 = none ∧ w.dir.names 1 = none ∧
        w.dir.contents 0 = [.line [3], .line [4], .line [5]]) ∧
    (let w := World.run twoBackups untightened;
      w.dir.names 2 = w.log.map LogState.file ∧ w.dir.names 1 = none ∧
        w.dir.names 0 ≠ w.log.map LogState.file ∧
        w.dir.contents 2 = [.line [1], .line [2], .line [3]]) := by
  decide +kernel

/-- Four lines and a restart. -/
def fourLines : List Plain :=
  [.append [1], .append [2], .restart, .append [3], .append [4]]

/-- The third line finds a live file that cannot be tightened, and is put behind the second; the
fifth finds none. -/
def movedBack : List Event :=
  [.restart {}, .append [1] {}, .append [2] {}, .append [3] { tightenFails := true },
    .append [4] {}, .append [5] { openFails := true }]

theorem movedBack_tight : TightRun twoBackups movedBack := by
  intro i e he
  match i with
  | 0 =>
    cases he
    trivial
  | 3 =>
    cases he
    exact fun _ => ⟨rfl, by decide +kernel⟩
  | 1 | 2 | 4 | 5 =>
    cases he
    exact undone_plain
  | i + 6 => cases he

theorem rotation_keeps_newest_sample :
    reading 2 (World.run twoBackups (.restart {} :: fourLines.map Plain.event)).dir =
        [.line [2], .line [3], .line [4]] ∧
      Intact twoBackups (linesOf fourLines)
        (World.run twoBackups (.restart {} :: fourLines.map Plain.event)) ∧
      reading 2 (World.run twoBackups movedBack).dir =
        [.line [2], .line [3], .line [4], .line [5]] ∧
      Kept twoBackups (World.run twoBackups movedBack) :=
  ⟨by decide +kernel, (rotation_keeps_newest twoBackups).1 (by decide) fourLines,
    by decide +kernel, ((rotation_keeps_newest twoBackups).2 movedBack movedBack_tight).1⟩

end Decdn.Node.ReceiptLog
