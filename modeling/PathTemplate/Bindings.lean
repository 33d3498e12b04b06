import Std.Data.HashMap

/-!
# Bindings: values under names

`Bindings` is a map from names to values that keeps the order in which names came in.  Most
templates have few placeholders, so up to three entries are kept in a block of fixed size, unused
slots holding the blank entry; the fourth name moves everything into an array.  A name that comes in
again keeps its place and takes the new value.

Which of the two forms is in use, and what the unused slots hold, follows from the entries alone.
`toList` is the view that everything else is stated on.
-/

namespace PathTemplate

/-- A value under its name. -/
structure Binding where
  name : String
  value : String
  deriving DecidableEq, Repr

/-- What an unused slot holds. -/
def Binding.blank : Binding := ⟨"", ""⟩

/-- The binding as a pair. -/
def Binding.pair (b : Binding) : String × String := (b.name, b.value)

/-- How many entries are kept without an array of their own. -/
abbrev Bindings.room : Nat := 3

/-- Values under distinct names, in the order in which the names came in. -/
inductive Bindings where
  /-- Few entries: the first `count` of the slots. -/
  | inline (slots : Vector Binding Bindings.room) (count : Nat)
  /-- More entries than the slots hold. -/
  | spilled (entries : Array Binding)
  deriving DecidableEq

namespace Bindings

/-- No entries. -/
def empty : Bindings := inline (Vector.replicate room Binding.blank) 0

instance : Inhabited Bindings := ⟨empty⟩

/-- The entries, in the order in which their names came in. -/
def toList : Bindings → List Binding
  | inline slots count => slots.toList.take count
  | spilled entries => entries.toList

/-- The number of entries. -/
def size (b : Bindings) : Nat := b.toList.length

/-- Tells whether there are no entries. -/
def isEmpty (b : Bindings) : Bool := b.size == 0

/-- The value under a name. -/
def get? (b : Bindings) (name : String) : Option String :=
  (b.toList.find? (·.name = name)).map Binding.value

/-- Puts a value under a name. -/
def insert (b : Bindings) (name value : String) : Bindings :=
  match b.toList.findIdx? (·.name = name), b with
  | some i, inline slots count => inline (slots.setIfInBounds i ⟨name, value⟩) count
  | some i, spilled entries => spilled (entries.setIfInBounds i ⟨name, value⟩)
  | none, inline slots count =>
    if count < room then inline (slots.setIfInBounds count ⟨name, value⟩) (count + 1)
    else spilled (slots.toArray.push ⟨name, value⟩)
  | none, spilled entries => spilled (entries.push ⟨name, value⟩)

/-- The bindings after all pairs have come in, in order. -/
def ofList (pairs : List (String × String)) : Bindings :=
  pairs.foldl (fun b pair => b.insert pair.1 pair.2) empty

/-- The entries as a map without order. -/
def toMap (b : Bindings) : Std.HashMap String String :=
  Std.HashMap.ofList (b.toList.map Binding.pair)

end Bindings

end PathTemplate
