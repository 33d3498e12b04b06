import PathTemplate.Segment

/-!
# Reading a template: character by character

The reading of a template in terms of its characters alone, without byte positions.  It makes the
same decisions at the same places as the byte cursor: where an opening brace stands, the run of
characters up to the next brace is the name of a placeholder if that brace closes and the run is not
empty; if that brace opens, the scan resumes there; otherwise the opening brace is literal.

`PlaceholderAt` says what a placeholder is without any scan, and `Canonical` which lists of segments
are readings.
-/

namespace PathTemplate

/-- Tells whether a character is a brace. -/
def isBrace (c : Char) : Bool := c = '{' ∨ c = '}'

/-- From index `i` to index `e` of a text stands a placeholder: braces at both ends, and between
them at least one character and no brace. -/
structure PlaceholderAt (text : List Char) (i e : Nat) : Prop where
  opening : text[i]? = some '{'
  closing : text[e]? = some '}'
  named : i + 1 < e
  unbroken : ∀ k, i < k → k < e → ∀ c ∈ text[k]?, isBrace c = false

namespace Segment

/-- Literal text as segments: none if there is no text. -/
def ofLiteral (text : List Char) : List Segment :=
  if text = [] then [] else [literal (String.ofList text)]

/-- The segments of a text that comes after some literal text, which is held back and kept last
character first. -/
def readChars (held : List Char) : List Char → List Segment
  | [] => ofLiteral held.reverse
  | c :: rest =>
    if c = '{' then
      let name := rest.takeWhile (!isBrace ·)
      match _h : rest.dropWhile (!isBrace ·) with
      | '}' :: after =>
        if name = [] then readChars (c :: held) rest
        else ofLiteral held.reverse ++ placeholder (String.ofList name) :: readChars [] after
      | '{' :: after => readChars (name.reverse ++ c :: held) ('{' :: after)
      | _ => readChars (c :: held) rest
    else
      readChars (c :: held) rest
termination_by text => text.length
decreasing_by
  all_goals simp_wf
  all_goals
    have := (rest.dropWhile_sublist (!isBrace ·)).length_le
    simp_all
    try omega

/-- The segments of a text. -/
def ofChars (text : List Char) : List Segment := readChars [] text

/-- A name that a placeholder can have. -/
def IsName (name : String) : Prop :=
  name ≠ "" ∧ ∀ c ∈ name.toList, isBrace c = false

/-- A list of segments in the form in which a text is read: names are names, literal text is as long
as it can be, and no placeholder is hidden in it. -/
structure Canonical (segments : List Segment) : Prop where
  names : ∀ name ∈ names segments, IsName name
  literals : ∀ text, literal text ∈ segments →
    text ≠ "" ∧ ∀ i e, ¬ PlaceholderAt text.toList i e
  apart : ∀ front a b back, segments ≠ front ++ literal a :: literal b :: back

end Segment

end PathTemplate
