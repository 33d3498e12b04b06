import PathTemplate.Segment

/-!
# Assignments: one value for each placeholder

What it means for a path to have the shape of a template, without any search: there are values, one
for each occurrence of a placeholder, that make the path when they are put in their places.
-/

namespace PathTemplate

/-- What can stand at a placeholder: one or more characters, none of them a slash. -/
def IsValue (value : String) : Prop :=
  value ≠ "" ∧ '/' ∉ value.toList

instance (value : String) : Decidable (IsValue value) :=
  inferInstanceAs (Decidable (value ≠ "" ∧ '/' ∉ value.toList))

namespace Segment

/-- The path that values make, taken in order, one for each occurrence of a placeholder.  There is
none if there are too few values or too many. -/
def assemble : List Segment → List String → Option String
  | [], [] => some ""
  | [], _ :: _ => none
  | literal text :: segments, values => (assemble segments values).map (text ++ ·)
  | placeholder _ :: _, [] => none
  | placeholder _ :: segments, value :: values => (assemble segments values).map (value ++ ·)

/-- Values that fit the segments and make a path. -/
structure Assigns (segments : List Segment) (path : String) (values : List String) : Prop where
  assembled : assemble segments values = some path
  fit : ∀ value ∈ values, IsValue value

end Segment

end PathTemplate
