import PathTemplate.Bindings
import PathTemplate.Error
import PathTemplate.Frame
import PathTemplate.Pattern
import PathTemplate.Segment.Scan

/-!
# Routes: templates that are ready for use

A `Route` is a template together with its reading.  It tells whether a path has the template's shape
(`accepts`) and what stands at its placeholders (`captures?`, `capture?`).  Paths are matched with
the shape alone, in which the placeholders have numbers; their names come in where values are bound
or put in.

Every text is the template of a route (`ofTemplate`), but a large one is refused when a route is
made of it (`build`).  That is the only step that can fail.

A template without placeholders has one path, itself, and is compared with it directly.

Routes are equal if their templates are; the reading follows from the template.
-/

namespace PathTemplate

/-- A template with its reading. -/
structure Route where
  template : String
  reading : Reading
  reading_eq : reading = Reading.scan template

namespace Route

instance : DecidableEq Route := fun r s =>
  if h : r.template = s.template then
    .isTrue (by
      cases r with | mk _ _ hr =>
      cases s with | mk _ _ hs =>
      cases h
      cases hr
      cases hs
      rfl)
  else
    .isFalse (fun e => h (congrArg template e))

instance : Hashable Route := ⟨fun r => hash r.template⟩

instance : ToString Route := ⟨template⟩

/-- The route of a template. -/
def ofTemplate (template : String) : Route := ⟨template, Reading.scan template, rfl⟩

/-- The names of the placeholders in template order, each as often as it occurs. -/
def names (r : Route) : List String := r.reading.names.toList

/-- The segments of the template, each placeholder under its name. -/
def segments (r : Route) : List Segment := r.reading.named

/-- The segments of the template, each placeholder under its number. -/
def numbered (r : Route) : List (Segment Nat) := r.reading.segments.toList

/-- Tells whether the template has no placeholders. -/
def isStatic (r : Route) : Bool := r.names.isEmpty

/-- The template as a regular expression. -/
def pattern (r : Route) : String := String.ofList (Pattern.ofSegments r.numbered)

/-- The route by its parts. -/
def debug (r : Route) : String :=
  "Route \x7b format: " ++ Text.quoted r.template ++ ", params: " ++ Text.quotedList r.names
    ++ " \x7d"

/-- The record of a route that was made. -/
def record (r : Route) : LogRecord :=
  ⟨.trace, s!"compiled route '{r.template}' into pattern '{r.pattern}'"⟩

/-- Makes a route of a template, unless its matcher would take too much room. -/
def build (template : String) : Logged (Except BuildError Route) :=
  let r := ofTemplate template
  if Segment.totalMatcherSize r.numbered ≤ matcherSizeLimit then
    ⟨.ok r, [r.record]⟩
  else
    let e : BuildError := ⟨template⟩
    ⟨.error e, [e.record]⟩

theorem ofTemplate_eq_iff {template : String} {r : Route} :
    ofTemplate template = r ↔ r.template = template := by
  obtain ⟨own, reading, rfl⟩ := r
  refine ⟨?_, ?_⟩
  · intro h
    exact (congrArg Route.template h).symm
  · intro h
    cases h
    rfl

/-- A route is made of its template exactly if its matcher would not be too large. -/
theorem build_eq_ok_iff {template : String} {r : Route} :
    (build template).result = .ok r ↔
      r.template = template ∧ Segment.totalMatcherSize r.numbered ≤ matcherSizeLimit := by
  rw [← ofTemplate_eq_iff]
  simp only [build]
  split
  · next hfits =>
    simp only [Except.ok.injEq]
    refine ⟨?_, And.left⟩
    intro h
    exact ⟨h, h ▸ hfits⟩
  · next hlarge =>
    simp only [reduceCtorEq, false_iff, not_and]
    intro h
    exact h ▸ hlarge

/-- A template is refused exactly if its matcher would be too large. -/
theorem build_eq_error_iff {template : String} {e : BuildError} :
    (build template).result = .error e ↔
      e = ⟨template⟩ ∧
        matcherSizeLimit < Segment.totalMatcherSize (ofTemplate template).numbered := by
  simp only [build]
  split
  · next hfits => simp [Nat.not_lt.2 hfits]
  · next hlarge => simp [Nat.not_le.1 hlarge, eq_comm]

/-- The values at the placeholders of a path, one for each occurrence. -/
def captures? (r : Route) (path : String) : Option (List String) :=
  ((Frame.ofSegments r.numbered).captures? path.toList).map (List.map String.ofList)

/-- Tells whether a path has the shape of the template. -/
def accepts (r : Route) (path : String) : Bool :=
  if r.isStatic then path = r.template else (r.captures? path).isSome

/-- The values in a path under their names.  Where a name occurs more than once, the value at its
last occurrence counts. -/
def capture? (r : Route) (path : String) : Option Bindings :=
  if r.isStatic then
    if path = r.template then some .empty else none
  else
    (r.captures? path).map fun values => .ofList (r.names.zip values)

end Route

end PathTemplate
