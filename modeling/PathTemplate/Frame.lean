import PathTemplate.Segment

/-!
# Frames: the shape of a template, and how a path fills it

For matching, the names of placeholders do not count.  What is left of a template is its `Frame`:
the text before the first placeholder and, for each placeholder, the text that follows it.  A path
has the shape of the frame if it is that text with a value at each placeholder, where a value is one
or more characters and none of them a slash.

One path can often be filled in several ways: `ab` goes into two placeholders side by side, `abc`
goes in two ways.  `captures?` picks the way that gives the first placeholder as much as possible,
then the second, and so on.  It needs no trying back and forth.  Read from the end of the path, that
way is the one in which every placeholder but the first takes as little as possible: each starts as
far right as it can, so the one before it can end as far right as it can.  So the last gap is taken
off the end, each placeholder takes characters until the gap before it follows, and the first one
gets what is left.
-/

namespace PathTemplate

/-- A template without its names. -/
structure Frame where
  /-- The text before the first placeholder, or the whole text where there is none. -/
  lead : List Char
  /-- For each placeholder, the text between it and the next one or the end. -/
  gaps : List (List Char)
  deriving DecidableEq, Repr

namespace Frame

variable {α β : Type}

/-- The frame with one more segment in front. -/
def extend : Segment α → Frame → Frame
  | .literal text, frame => ⟨text.toList ++ frame.lead, frame.gaps⟩
  | .placeholder _, frame => ⟨[], frame.lead :: frame.gaps⟩

/-- The frame of a list of segments. -/
def ofSegments (segments : List (Segment α)) : Frame :=
  segments.foldr extend ⟨[], []⟩

@[simp] theorem ofSegments_nil : ofSegments ([] : List (Segment α)) = ⟨[], []⟩ := rfl

@[simp] theorem ofSegments_literal (text : String) (segments : List (Segment α)) :
    ofSegments (.literal text :: segments) =
      ⟨text.toList ++ (ofSegments segments).lead, (ofSegments segments).gaps⟩ := rfl

@[simp] theorem ofSegments_placeholder (name : α) (segments : List (Segment α)) :
    ofSegments (.placeholder name :: segments) =
      ⟨[], (ofSegments segments).lead :: (ofSegments segments).gaps⟩ := rfl

/-- The frame of a template stays the same under other names. -/
theorem ofSegments_map_rename (f : α → β) (segments : List (Segment α)) :
    ofSegments (segments.map (Segment.rename f)) = ofSegments segments := by
  induction segments with
  | nil => rfl
  | cons segment segments ih =>
    show extend (segment.rename f) (ofSegments (segments.map (Segment.rename f))) =
      extend segment (ofSegments segments)
    rw [ih]
    cases segment with
    | literal text => rfl
    | placeholder name => rfl

/-- A frame has as many gaps as the template has placeholders. -/
theorem length_gaps (segments : List (Segment α)) :
    (ofSegments segments).gaps.length = (Segment.names segments).length := by
  induction segments with
  | nil => rfl
  | cons segment segments ih =>
    cases segment with
    | literal text => exact ih
    | placeholder name => simp [ih]

/-- The shortest value at the end of a text before which `gap` stands, and what stands before
that.  The text and the gap are read backwards; `value` is what has been taken already. -/
def shortest? (gap value : List Char) : List Char → Option (List Char × List Char)
  | [] => none
  | c :: back =>
    if c = '/' then none
    else match gap.isPrefixOf? back with
      | some rest => some (c :: value, rest)
      | none => shortest? gap (c :: value) back

/-- The values in a text that is read backwards, given the gaps between them, last gap first and
each backwards too.  `found` holds the values that come after. -/
def values? (found : List (List Char)) (back : List Char) :
    List (List Char) → Option (List (List Char))
  | [] => if back = [] ∨ '/' ∈ back then none else some (back.reverse :: found)
  | gap :: gaps =>
    match shortest? gap [] back with
    | some (value, rest) => values? (value :: found) rest gaps
    | none => none

/-- The values at the placeholders of a path, in order, if the path has the shape of the frame. -/
def captures? (frame : Frame) (path : List Char) : Option (List (List Char)) :=
  match frame.lead.isPrefixOf? path with
  | none => none
  | some body =>
    match frame.gaps.reverse with
    | [] => if body = [] then some [] else none
    | last :: inner =>
      match last.reverse.isPrefixOf? body.reverse with
      | some back => values? [] back (inner.map List.reverse)
      | none => none

end Frame

end PathTemplate
