import PathTemplate.Bindings
import PathTemplate.Text.Quoted

/-!
# Bindings as text

Bindings are shown between braces, names and values quoted, either on one line or with a line for
each entry.
-/

namespace PathTemplate

/-- An entry as text. -/
def Binding.debug (b : Binding) : String :=
  Text.quoted b.name ++ ": " ++ Text.quoted b.value

/-- The entries on one line. -/
def Bindings.debug (b : Bindings) : String :=
  "\x7b" ++ ", ".intercalate (b.toList.map Binding.debug) ++ "\x7d"

/-- The entries on a line each, unless there are none. -/
def Bindings.debugLines (b : Bindings) : String :=
  let lines := b.toList.map fun entry => "    " ++ entry.debug ++ ",\n"
  if lines.isEmpty then "\x7b\x7d" else "\x7b\n" ++ String.join lines ++ "\x7d"

end PathTemplate
