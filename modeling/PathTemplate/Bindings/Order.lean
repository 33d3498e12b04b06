import PathTemplate.Bindings

/-!
# The order of bindings

Bindings are ordered by what they are made of: few entries come before many; few entries are
compared slot by slot and then by their count, many as lists.  Since an unused slot holds the least
entry there is, this is the order of the entries themselves.
-/

namespace PathTemplate

/-- Entries are ordered by name, then by value. -/
def Binding.compare (a b : Binding) : Ordering :=
  (Ord.compare a.name b.name).then (Ord.compare a.value b.value)

instance : Ord Binding := ⟨Binding.compare⟩

/-- Few entries before many; then slots, then counts; many entries as lists. -/
def Bindings.compare : Bindings → Bindings → Ordering
  | inline slots count, inline slots' count' =>
    (slots.toList.compareLex Binding.compare slots'.toList).then (Ord.compare count count')
  | inline _ _, spilled _ => .lt
  | spilled _, inline _ _ => .gt
  | spilled entries, spilled entries' => entries.toList.compareLex Binding.compare entries'.toList

instance : Ord Bindings := ⟨Bindings.compare⟩

end PathTemplate
