import PathTemplate.Segment

/-!
# Patterns: a template as a regular expression

A template says the same as a regular expression that is anchored at both ends: literal text stands
for itself, and a placeholder is a group of one or more characters other than a slash.  `ofSegments`
writes that expression.  A literal character that has a meaning of its own in such expressions gets
a backslash before it, so no literal text is ever read as anything else.
-/

namespace PathTemplate.Pattern

variable {α β : Type}

/-- The characters that get a backslash in a pattern. -/
def special : List Char :=
  ['\\', '.', '+', '*', '?', '(', ')', '|', '[', ']', '{', '}', '^', '$', '#', '&', '-', '~']

/-- The group that a placeholder becomes: one or more characters, none of them a slash. -/
def group : List Char :=
  ['(', '[', '^', '/', ']', '+', ')']

/-- A character of literal text as it stands in a pattern. -/
def escape (c : Char) : List Char :=
  if c ∈ special then ['\\', c] else [c]

/-- A segment as it stands in a pattern. -/
def ofSegment : Segment α → List Char
  | .literal text => text.toList.flatMap escape
  | .placeholder _ => group

/-- The pattern of a whole template. -/
def ofSegments (segments : List (Segment α)) : List Char :=
  '^' :: (segments.flatMap ofSegment ++ ['$'])

theorem ofSegment_rename (f : α → β) (segment : Segment α) :
    ofSegment (segment.rename f) = ofSegment segment := by
  cases segment <;> rfl

/-- A pattern does not change with the names. -/
theorem ofSegments_map_rename (f : α → β) (segments : List (Segment α)) :
    ofSegments (segments.map (Segment.rename f)) = ofSegments segments := by
  unfold ofSegments
  rw [List.flatMap_map]
  simp only [ofSegment_rename]

end PathTemplate.Pattern
