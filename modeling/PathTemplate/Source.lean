import PathTemplate.Bindings
import Std.Data.TreeMap

/-!
# Sources of values

Where the values for a template's placeholders come from does not matter to the template.  A
`Source` is all it sees: the value under a name, and whether there is anything at all.  Maps, lists
and arrays of pairs and the bindings taken from a path are sources, and so is a reference to a
source.  Among pairs the last one with a name counts, as it does in a map that was filled with them.
-/

namespace PathTemplate

/-- A supply of values under names. -/
@[ext]
structure Source where
  /-- The value under a name. -/
  lookup? : String → Option String
  /-- Tells whether there is nothing under any name. -/
  isEmpty : Bool

namespace Source

/-- A list of pairs, the last one with a name counting. -/
def ofPairs (pairs : List (String × String)) : Source where
  lookup? name := (pairs.findRev? (·.1 = name)).map Prod.snd
  isEmpty := pairs.isEmpty

/-- An array of pairs, searched as the list of them. -/
def ofArray (pairs : Array (String × String)) : Source where
  lookup? := (ofPairs pairs.toList).lookup?
  isEmpty := pairs.isEmpty

/-- An array of a fixed number of pairs, searched as the list of them. -/
def ofVector {n : Nat} (pairs : Vector (String × String) n) : Source where
  lookup? := (ofPairs pairs.toList).lookup?
  isEmpty := n == 0

/-- A map without order. -/
def ofHashMap (map : Std.HashMap String String) : Source where
  lookup? name := map[name]?
  isEmpty := map.isEmpty

/-- A map in the order of its keys. -/
def ofTreeMap (map : Std.TreeMap String String) : Source where
  lookup? name := map[name]?
  isEmpty := map.isEmpty

/-- The bindings taken from a path. -/
def ofBindings (bindings : Bindings) : Source where
  lookup? := bindings.get?
  isEmpty := bindings.isEmpty

/-- A reference to a source, which passes every question on. -/
def ref (source : Source) : Source where
  lookup? := source.lookup?
  isEmpty := source.isEmpty

end Source

end PathTemplate
