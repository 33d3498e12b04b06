/-!
# Segments: what a template is made of

A path template is text with named gaps in it, such as `/user/{id}`.  `Segment` is one stretch of
it: literal text, which a path repeats as it stands, or a placeholder, which a path fills with a
value.  A list of segments in template order is the form every other module works on.

A placeholder is known by its name, or, in a template that is kept for use, by a number that stands
for the name.  `names` lists the names with their repetitions, `rename` puts others in their place,
`render` writes segments as template text again, and `matcherSize` estimates how much room a matcher
for the segments takes.
-/

namespace PathTemplate

/-- One stretch of a template.  Names are text unless another type is given. -/
inductive Segment (α : Type := String) where
  /-- Text that a path repeats as it stands. -/
  | literal (text : String)
  /-- A gap that a path fills with the value called `name`. -/
  | placeholder (name : α)
  deriving DecidableEq, Repr

namespace Segment

variable {α β : Type}

/-- The segment as template text: a placeholder is its name between braces. -/
def source : Segment → String
  | literal text => text
  | placeholder name => "\x7b" ++ name ++ "\x7d"

/-- The name of a placeholder. -/
def name? : Segment α → Option α
  | literal _ => none
  | placeholder name => some name

/-- The segment with another name. -/
def rename (f : α → β) : Segment α → Segment β
  | literal text => literal text
  | placeholder name => placeholder (f name)

/-- Segments as template text. -/
def render (segments : List Segment) : String :=
  String.join (segments.map source)

/-- The placeholders' names in template order, each as often as it occurs. -/
def names (segments : List (Segment α)) : List α :=
  segments.filterMap name?

/-- The room one segment takes in a matcher: 32 for each byte of a literal, 1040 for a
placeholder. -/
def matcherSize : Segment α → Nat
  | literal text => 32 * text.utf8ByteSize
  | placeholder _ => 1040

/-- The room a whole matcher takes: its segments and a frame of 160. -/
def totalMatcherSize (segments : List (Segment α)) : Nat :=
  segments.foldl (fun size segment => size + segment.matcherSize) 160

@[simp] theorem render_nil : render [] = "" := rfl

@[simp] theorem render_cons (segment : Segment) (segments : List Segment) :
    render (segment :: segments) = segment.source ++ render segments := by
  simp [render]

@[simp] theorem render_append (front back : List Segment) :
    render (front ++ back) = render front ++ render back := by
  simp [render]

@[simp] theorem names_nil : names ([] : List (Segment α)) = [] := rfl

@[simp] theorem names_literal (text : String) (segments : List (Segment α)) :
    names (literal text :: segments) = names segments := rfl

@[simp] theorem names_placeholder (name : α) (segments : List (Segment α)) :
    names (placeholder name :: segments) = name :: names segments := rfl

@[simp] theorem names_append (front back : List (Segment α)) :
    names (front ++ back) = names front ++ names back :=
  List.filterMap_append

theorem names_map_rename (f : α → β) (segments : List (Segment α)) :
    names (segments.map (rename f)) = (names segments).map f := by
  induction segments with
  | nil => rfl
  | cons segment segments ih =>
    cases segment with
    | literal text => exact ih
    | placeholder name => exact congrArg (f name :: ·) ih

/-- A segment that is literal text under new names was this text before. -/
theorem rename_eq_literal_iff {f : α → β} {segment : Segment α} {text : String} :
    segment.rename f = literal text ↔ segment = literal text := by
  cases segment with
  | literal other => simp [rename]
  | placeholder name => simp [rename]

/-- Segments are renamed alike by what does the same to their names. -/
theorem map_rename_congr {f g : α → β} {segments : List (Segment α)}
    (h : ∀ name ∈ names segments, f name = g name) :
    segments.map (rename f) = segments.map (rename g) := by
  apply List.map_congr_left
  intro segment hsegment
  cases segment with
  | literal text => rfl
  | placeholder name =>
    exact congrArg placeholder (h name (List.mem_filterMap.mpr ⟨_, hsegment, rfl⟩))

end Segment

end PathTemplate
