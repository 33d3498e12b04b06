import PathTemplate.Route
import PathTemplate.Source

/-!
# Making paths

A route and a source of values make a path: the template with each placeholder replaced by its
value.  Values go in as they are, and are not read as template text again.  A value that is missing
or empty stops the making at the first placeholder that wants it.

An empty source counts as no source.  Every refusal is logged, once.
-/

namespace PathTemplate

/-- The text of a segment, or the name of a placeholder for which there is none. -/
def Segment.fill (source : Source) : Segment → Except String String
  | .literal text => .ok text
  | .placeholder name =>
    match source.lookup? name with
    | some value => if value = "" then .error name else .ok value
    | none => .error name

/-- The text of a list of segments, or the first name for which there is none. -/
def Segment.fillAll (source : Source) (segments : List Segment) : Except String String :=
  (segments.mapM (Segment.fill source)).map String.join

namespace Route

/-- A refusal, with its record. -/
def refuse (e : ExpandError) : Logged (Except ExpandError String) :=
  ⟨.error e, [e.record]⟩

/-- The path of a route without placeholders. -/
def expand (r : Route) : Logged (Except ExpandError String) :=
  if r.isStatic then .silent (.ok r.template) else refuse (.unsupplied r.template)

/-- The path that the values of a source make. -/
def expandWith (r : Route) (source : Source) : Logged (Except ExpandError String) :=
  if source.isEmpty then r.expand
  else if r.isStatic then refuse (.unexpected r.template)
  else
    match Segment.fillAll source r.segments with
    | .ok path => .silent (.ok path)
    | .error name => refuse (.missing name r.template)

end Route

end PathTemplate
