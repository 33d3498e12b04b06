import PathTemplate.Pattern

/-!
# Reading patterns

The other side of writing a pattern: what a pattern text says (`Reads`), and what it finds in a path
(`search?`).  The dialect is small.  A backslash takes the meaning from the special character after
it; the group of a placeholder is one item; an anchor without a backslash is an anchor; every other
character is itself.

`search?` tries places from left to right, and at a group the longest run first.
-/

namespace PathTemplate.Pattern

/-- An item of a pattern. -/
inductive Atom where
  /-- A character that stands for itself. -/
  | char (c : Char)
  /-- A capturing group of one or more characters other than a slash. -/
  | group
  /-- The beginning of the text. -/
  | start
  /-- The end of the text. -/
  | stop
  deriving DecidableEq, Repr

/-- A pattern text read as items. -/
inductive Reads : List Char → List Atom → Prop where
  | done : Reads [] []
  | escaped {c : Char} {rest : List Char} {atoms : List Atom} :
    c ∈ special → Reads rest atoms → Reads ('\\' :: c :: rest) (.char c :: atoms)
  | group {rest : List Char} {atoms : List Atom} :
    Reads rest atoms → Reads (Pattern.group ++ rest) (.group :: atoms)
  | start {rest : List Char} {atoms : List Atom} :
    Reads rest atoms → Reads ('^' :: rest) (.start :: atoms)
  | stop {rest : List Char} {atoms : List Atom} :
    Reads rest atoms → Reads ('$' :: rest) (.stop :: atoms)
  | plain {c : Char} {rest : List Char} {atoms : List Atom} :
    c ∉ ['\\', '^', '$'] → ¬ Pattern.group <+: c :: rest → Reads rest atoms →
      Reads (c :: rest) (.char c :: atoms)

/-- The items that a segment stands for. -/
def Atom.ofSegment : Segment → List Atom
  | .literal text => text.toList.map .char
  | .placeholder _ => [.group]

/-- The items of a whole template. -/
def Atom.ofSegments (segments : List Segment) : List Atom :=
  .start :: (segments.flatMap Atom.ofSegment ++ [.stop])

/-- What the groups take when the items are found at this very place.  `first` tells whether the
place is the beginning of the text. -/
def matchHere? : List Atom → Bool → List Char → Option (List (List Char))
  | [], _, _ => some []
  | .char c :: atoms, _, text =>
    match text with
    | d :: rest => if c = d then matchHere? atoms false rest else none
    | [] => none
  | .group :: atoms, _, text =>
    (List.range (text.takeWhile (· ≠ '/')).length).reverse.findSome? fun k =>
      (matchHere? atoms false (text.drop (k + 1))).map (text.take (k + 1) :: ·)
  | .start :: atoms, first, text => if first then matchHere? atoms first text else none
  | .stop :: atoms, first, text => if text = [] then matchHere? atoms first text else none

/-- What the groups take at the first place where the items are found. -/
def search? (atoms : List Atom) (text : List Char) : Option (List (List Char)) :=
  (List.range (text.length + 1)).findSome? fun i => matchHere? atoms (i == 0) (text.drop i)

end PathTemplate.Pattern
