import Mathlib.Data.List.Forall2

/-!
# Incremental decoders

A decoder looks at the front of a buffer and finds an item, asks for more
symbols, or refuses.  A reader appends whatever arrives to the buffer and takes
items off its front.  What such a reader produces depends on the symbols alone,
and not on the reads they arrive in, as soon as no verdict of the decoder is
changed by symbols that arrive after it.

Main results:

- Theorem `drain_append`: draining a concatenation drains its parts in turn.
- Theorem `receive_eq_drain`: the cut into reads makes no difference.
- Theorem `drain_encoded`: a stream of encoded items drains to the items.
-/

namespace Decdn.Incremental

universe u v w

variable {σ : Type u} {ε : Type v} {β : Type w}

/-- What a decoder makes of the front of a buffer: an error, a request for more, or an item
together with the number of symbols it takes. -/
abbrev Decoder (σ : Type u) (ε : Type v) (β : Type w) :=
  List σ → Except ε (Option (β × Nat))

/-- Items taken off a buffer, and what is left of it or the error that ended the reading. -/
abbrev Drained (σ : Type u) (ε : Type v) (β : Type w) := List β × Except ε (List σ)

/-! ## The reader -/

/-- Go on with what is left, after an error not at all. -/
def Drained.andThen (d : Drained σ ε β) (next : List σ → Drained σ ε β) : Drained σ ε β :=
  match d.2 with
  | .error e => (d.1, .error e)
  | .ok rest => (d.1 ++ (next rest).1, (next rest).2)

/-- Take at most `fuel` items off the buffer. -/
def drainFor (parse : Decoder σ ε β) : Nat → List σ → Drained σ ε β
  | 0, buf => ([], .ok buf)
  | fuel + 1, buf =>
    match parse buf with
    | .error e => ([], .error e)
    | .ok none => ([], .ok buf)
    | .ok (some (item, taken)) =>
      Drained.andThen ([item], .ok (buf.drop taken)) (drainFor parse fuel)

/-- Take every item off the buffer. -/
def drain (parse : Decoder σ ε β) (buf : List σ) : Drained σ ε β :=
  drainFor parse (buf.length + 1) buf

/-- Append each read to the buffer and take every item off it. -/
def receive (parse : Decoder σ ε β) : List σ → List (List σ) → Drained σ ε β
  | buf, [] => ([], .ok buf)
  | buf, read :: reads =>
    (drain parse (buf ++ read)).andThen fun rest => receive parse rest reads

/-! ## Stable decoders -/

/-- A decoder whose verdicts outlast every extension of the buffer, and whose items take at
least one symbol and no more than there are. -/
structure Stable (parse : Decoder σ ε β) : Prop where
  empty : parse [] = .ok none
  found : ∀ {buf item}, parse buf = .ok (some item) → ∀ more, parse (buf ++ more) = .ok (some item)
  refused : ∀ {buf e}, parse buf = .error e → ∀ more, parse (buf ++ more) = .error e
  taken : ∀ {buf item n}, parse buf = .ok (some (item, n)) → 0 < n ∧ n ≤ buf.length

/-- The symbols stand for the item, whatever follows them. -/
def Encodes (parse : Decoder σ ε β) (item : β) (frame : List σ) : Prop :=
  ∀ rest, parse (frame ++ rest) = .ok (some (item, frame.length))

variable {parse : Decoder σ ε β} {buf : List σ}

/-! ## Sequencing -/

@[simp]
theorem andThen_error {items : List β} {e : ε} {next : List σ → Drained σ ε β} :
    Drained.andThen (items, .error e) next = (items, .error e) :=
  rfl

@[simp]
theorem andThen_ok {items : List β} {rest : List σ} {next : List σ → Drained σ ε β} :
    Drained.andThen (items, .ok rest) next = (items ++ (next rest).1, (next rest).2) :=
  rfl

theorem andThen_assoc (d : Drained σ ε β) (f g : List σ → Drained σ ε β) :
    (d.andThen f).andThen g = d.andThen fun rest => (f rest).andThen g := by
  rcases d with ⟨items, e | rest⟩
  · rfl
  · rw [andThen_ok, andThen_ok]
    rcases f rest with ⟨more, e | left⟩
    · rfl
    · simp only [andThen_ok, List.append_assoc]

/-- Two continuations that agree on what is left agree. -/
theorem andThen_congr {d : Drained σ ε β} {f g : List σ → Drained σ ε β}
    (h : ∀ rest, d.2 = .ok rest → f rest = g rest) : d.andThen f = d.andThen g := by
  rcases d with ⟨items, e | rest⟩
  · rfl
  · rw [andThen_ok, andThen_ok, h rest rfl]

/-! ## Draining -/

/-- More fuel than symbols is enough. -/
theorem drainFor_eq (hparse : Stable parse) {fuel fuel' : Nat} {buf : List σ}
    (h : buf.length < fuel) (h' : buf.length < fuel') :
    drainFor parse fuel buf = drainFor parse fuel' buf := by
  induction fuel generalizing fuel' buf with
  | zero => exact absurd h (Nat.not_lt_zero _)
  | succ fuel ih =>
    rcases Nat.exists_eq_add_one_of_ne_zero (Nat.ne_zero_of_lt h') with ⟨fuel', rfl⟩
    unfold drainFor
    split
    · rfl
    · rfl
    · rename_i item taken hfound
      have htaken := hparse.taken hfound
      apply andThen_congr
      intro rest hrest
      cases hrest
      apply ih
      · rw [List.length_drop]
        omega
      · rw [List.length_drop]
        omega

theorem drain_more (h : parse buf = .ok none) : drain parse buf = ([], .ok buf) := by
  unfold drain drainFor
  rw [h]

theorem drain_refused {e : ε} (h : parse buf = .error e) :
    drain parse buf = ([], .error e) := by
  unfold drain drainFor
  rw [h]

/-- One item off the buffer, then the rest. -/
theorem drain_found (hparse : Stable parse) {item : β} {n : Nat}
    (h : parse buf = .ok (some (item, n))) :
    drain parse buf = Drained.andThen ([item], .ok (buf.drop n)) (drain parse) := by
  have htaken := hparse.taken h
  unfold drain
  rw [drainFor, h]
  apply andThen_congr
  intro rest hrest
  cases hrest
  apply drainFor_eq hparse
  · rw [List.length_drop]
    omega
  · exact Nat.lt_succ_self _

/-- What a drained buffer leaves behind waits for more. -/
theorem parse_of_drain (hparse : Stable parse) {buf rest : List σ}
    (h : (drain parse buf).2 = .ok rest) : parse rest = .ok none := by
  induction hlen : buf.length using Nat.strongRecOn generalizing buf with
  | ind len ih =>
    match hbuf : parse buf with
    | .error e =>
      rw [drain_refused hbuf] at h
      cases h
    | .ok none =>
      rw [drain_more hbuf] at h
      cases h
      exact hbuf
    | .ok (some (item, n)) =>
      have htaken := hparse.taken hbuf
      rw [drain_found hparse hbuf, andThen_ok] at h
      refine ih (buf.drop n).length ?_ h rfl
      rw [List.length_drop]
      omega

/-- Draining a concatenation drains the first part, and then what it leaves in front of the
second. -/
theorem drain_append (hparse : Stable parse) (buf more : List σ) :
    drain parse (buf ++ more) = (drain parse buf).andThen fun rest => drain parse (rest ++ more) := by
  induction hlen : buf.length using Nat.strongRecOn generalizing buf with
  | ind len ih =>
    match hbuf : parse buf with
    | .error e => rw [drain_refused hbuf, drain_refused (hparse.refused hbuf more), andThen_error]
    | .ok none =>
      rw [drain_more hbuf, andThen_ok, List.nil_append]
    | .ok (some (item, n)) =>
      have htaken := hparse.taken hbuf
      have hshort : (buf.drop n).length < len := by
        rw [List.length_drop]
        omega
      rw [drain_found hparse (hparse.found hbuf more), drain_found hparse hbuf, andThen_assoc,
        List.drop_append_of_le_length htaken.2, andThen_ok, andThen_ok,
        ih (buf.drop n).length hshort (buf.drop n) rfl]

/-- Whatever reads the symbols arrive in, the reader produces what it makes of them at once. -/
theorem receive_eq_drain (hparse : Stable parse) {buf : List σ} (hbuf : parse buf = .ok none)
    (reads : List (List σ)) : receive parse buf reads = drain parse (buf ++ reads.flatten) := by
  induction reads generalizing buf with
  | nil =>
    rw [receive, List.flatten_nil, List.append_nil, drain_more hbuf]
  | cons read reads ih =>
    rw [receive, List.flatten_cons, ← List.append_assoc, drain_append hparse (buf ++ read)]
    apply andThen_congr
    intro rest hrest
    exact ih (parse_of_drain hparse hrest)

/-! ## Encoded streams -/

/-- The concatenation of encoded items drains to the items, with nothing left. -/
theorem drain_encoded (hparse : Stable parse) {items : List β} {frames : List (List σ)}
    (h : List.Forall₂ (Encodes parse) items frames) :
    drain parse frames.flatten = (items, .ok []) := by
  induction h with
  | nil => exact drain_more hparse.empty
  | cons hitem _ ih =>
    rw [List.flatten_cons, drain_found hparse (hitem _), andThen_ok, List.drop_left, ih]
    rfl

end Decdn.Incremental
