/-!
# Log records

What an operation has to say beside its result.  A `Logged` value carries the records that were made
on the way to it, oldest first, so that whoever asked decides where they go.
-/

namespace PathTemplate

/-- How much a record matters. -/
inductive LogLevel where
  | trace
  | debug
  deriving DecidableEq, Repr

/-- One message and its level. -/
structure LogRecord where
  level : LogLevel
  message : String
  deriving DecidableEq, Repr

/-- A result with the records made on the way to it. -/
structure Logged (α : Type) where
  result : α
  log : List LogRecord

/-- A result that nothing has to be said about. -/
def Logged.silent {α : Type} (result : α) : Logged α := ⟨result, []⟩

end PathTemplate
