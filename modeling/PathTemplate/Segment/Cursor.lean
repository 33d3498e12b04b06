/-!
# Reading a template: the byte cursor

A placeholder is an opening brace, one or more characters that are no brace, and a closing brace.
Every other brace is literal text.  The scan below finds the placeholders in one pass over the
UTF-8 bytes of a template.  It can go byte by byte because both braces are ASCII: no byte of a
longer character equals one of them.

A `Cursor` remembers where the literal text in hand began, how far the scan has come, and the
pieces found so far.  `Cursor.step` moves it on:

* over a byte that opens nothing;
* behind a placeholder, of which it keeps a record;
* to the next opening brace, if that comes before any closing one;
* over an opening brace that no closing one follows, or that one follows at once.

Each step moves strictly forward (`pos_lt_step`), so the scan ends.  Pieces are kept as byte ranges;
cutting the text at them is left to the module that reads the pieces as segments.
-/

namespace PathTemplate

/-- The two characters that have a meaning in a template. -/
inductive Brace where
  | opening
  | closing
  deriving DecidableEq, Repr

namespace Brace

/-- The brace that a byte stands for. -/
def ofByte? (byte : UInt8) : Option Brace :=
  if byte = 0x7b then some opening else if byte = 0x7d then some closing else none

/-- The brace that stands at a byte position. -/
def at? (bytes : ByteArray) (i : Nat) : Option Brace :=
  bytes[i]?.bind ofByte?

/-- The first brace at or after a byte position, with its own position. -/
def next? (bytes : ByteArray) (i : Nat) : Option (Nat × Brace) :=
  if h : i < bytes.size then
    match ofByte? bytes[i] with
    | some brace => some (i, brace)
    | none => next? bytes (i + 1)
  else
    none
termination_by bytes.size - i

/-- A brace that is found lies inside the text, not before the start of the search. -/
theorem bounds_of_next? {bytes : ByteArray} {i j : Nat} {brace : Brace}
    (h : next? bytes i = some (j, brace)) : i ≤ j ∧ j < bytes.size := by
  fun_induction next? bytes i with
  | case1 i hi b _ =>
    cases h
    exact ⟨Nat.le_refl _, hi⟩
  | case2 i _ _ ih =>
    have := ih h
    omega
  | case3 => simp at h

end Brace

/-- The bytes from `start` up to but not including `stop`. -/
structure Span where
  start : Nat
  stop : Nat
  deriving DecidableEq, Repr

/-- A stretch of a template, by where it stands. -/
inductive Piece where
  /-- Literal text. -/
  | literal (text : Span)
  /-- A placeholder, by the span of its name alone. -/
  | placeholder (name : Span)
  deriving DecidableEq, Repr

/-- Where a piece, or its name, stands. -/
def Piece.span : Piece → Span
  | literal text => text
  | placeholder name => name

/-- How far a scan has come. -/
structure Cursor where
  /-- Where the literal text that is not yet recorded begins. -/
  literalStart : Nat
  /-- The position to look at next. -/
  pos : Nat
  /-- The pieces that end at or before `literalStart`. -/
  pieces : Array Piece

namespace Cursor

/-- The cursor before the first byte. -/
def start : Cursor := ⟨0, 0, #[]⟩

/-- The pieces found, with the literal text that ends at `stop` unless it is empty. -/
def flush (c : Cursor) (stop : Nat) : Array Piece :=
  if c.literalStart < stop then c.pieces.push (.literal ⟨c.literalStart, stop⟩) else c.pieces

/-- The cursor further on in the same literal text. -/
def skipTo (c : Cursor) (pos : Nat) : Cursor :=
  { c with pos }

/-- The cursor behind a placeholder that opens here and closes at `close`. -/
def take (c : Cursor) (close : Nat) : Cursor :=
  ⟨close + 1, close + 1, (c.flush c.pos).push (.placeholder ⟨c.pos + 1, close⟩)⟩

/-- One move of the scan. -/
def step (bytes : ByteArray) (c : Cursor) : Cursor :=
  match Brace.at? bytes c.pos with
  | some .opening =>
    match Brace.next? bytes (c.pos + 1) with
    | some (close, .closing) => if c.pos + 1 < close then c.take close else c.skipTo (c.pos + 1)
    | some (inner, .opening) => c.skipTo inner
    | none => c.skipTo (c.pos + 1)
  | _ => c.skipTo (c.pos + 1)

/-- Each move goes strictly forward. -/
theorem pos_lt_step (bytes : ByteArray) (c : Cursor) : c.pos < (c.step bytes).pos := by
  unfold step
  split
  · split
    · split <;> simp only [take, skipTo] <;> omega
    · next inner h =>
      have := Brace.bounds_of_next? h
      simp only [skipTo]
      omega
    · simp [skipTo]
  · simp [skipTo]

/-- Moves on to the end of the text. -/
def run (bytes : ByteArray) (c : Cursor) : Cursor :=
  if c.pos < bytes.size then run bytes (c.step bytes) else c
termination_by bytes.size - c.pos
decreasing_by
  have := pos_lt_step bytes c
  omega

/-- A cursor that a scan of the text comes by. -/
inductive Visited (bytes : ByteArray) : Cursor → Prop where
  | start : Visited bytes start
  | step {c : Cursor} : Visited bytes c → c.pos < bytes.size → Visited bytes (c.step bytes)

end Cursor

/-- The pieces of a whole text, in order. -/
def Piece.scan (bytes : ByteArray) : Array Piece :=
  (Cursor.start.run bytes).flush bytes.size

end PathTemplate
