import PathTemplate.Log
import PathTemplate.Text.Quoted

/-!
# Errors

Two things can fail.  A template whose matcher would be too large makes no route (`BuildError`), and
a route makes no path where its placeholders and the values at hand do not go together
(`ExpandError`).  Each error has a message for readers, a debug text that shows its parts, and the
record that is logged when it arises.
-/

namespace PathTemplate

/-- The room that a matcher may take. -/
def matcherSizeLimit : Nat := 10485760

/-- A template that was refused because its matcher would take too much room. -/
structure BuildError where
  template : String
  deriving DecidableEq, Repr

namespace BuildError

/-- The error in words. -/
def message (e : BuildError) : String :=
  s!"failed to build matcher for route '{e.template}'"

/-- What lies behind the error, in words. -/
def cause : String :=
  s!"Compiled regex exceeds size limit of {matcherSizeLimit} bytes."

/-- The error by its parts. -/
def debug (e : BuildError) : String :=
  "BuildError \x7b route: " ++ Text.quoted e.template
    ++ s!", source: CompiledTooBig({matcherSizeLimit}) \x7d"

/-- The record of a refused template. -/
def record (e : BuildError) : LogRecord :=
  ⟨.debug, s!"{e.message}: {cause}"⟩

end BuildError

/-- Why a route makes no path. -/
inductive ExpandError where
  /-- Values were given to a template without placeholders. -/
  | unexpected (template : String)
  /-- No values at all were given to a template with placeholders. -/
  | unsupplied (template : String)
  /-- The placeholder `name` has no value, or an empty one. -/
  | missing (name template : String)
  deriving DecidableEq, Repr

namespace ExpandError

/-- The template of the route that failed. -/
def template : ExpandError → String
  | unexpected template => template
  | unsupplied template => template
  | missing _ template => template

/-- The error in words. -/
def message : ExpandError → String
  | unexpected template => s!"route '{template}' does not accept parameters"
  | unsupplied template => s!"route '{template}' requires parameters"
  | missing name template => s!"missing value for parameter '{name}' of route '{template}'"

/-- The error by its parts. -/
def debug : ExpandError → String
  | unexpected template => "UnexpectedParams \x7b route: " ++ Text.quoted template ++ " \x7d"
  | unsupplied template => "MissingParams \x7b route: " ++ Text.quoted template ++ " \x7d"
  | missing name template =>
    "MissingParam \x7b name: " ++ Text.quoted name ++ ", route: " ++ Text.quoted template ++ " \x7d"

/-- The record of a refusal. -/
def record : ExpandError → LogRecord
  | unexpected template => ⟨.debug, s!"static route '{template}' compiled with parameters"⟩
  | unsupplied template => ⟨.debug, s!"route '{template}' compiled without parameters"⟩
  | missing name template => ⟨.debug, s!"route '{template}' is missing parameter '{name}'"⟩

/-- Errors are ordered by kind, then by the name in question, then by template. -/
def compare : ExpandError → ExpandError → Ordering
  | unexpected s, unexpected t => Ord.compare s t
  | unexpected _, _ => .lt
  | unsupplied _, unexpected _ => .gt
  | unsupplied s, unsupplied t => Ord.compare s t
  | unsupplied _, missing _ _ => .lt
  | missing m s, missing n t => (Ord.compare m n).then (Ord.compare s t)
  | missing _ _, _ => .gt

instance : Ord ExpandError := ⟨compare⟩

end ExpandError

end PathTemplate
