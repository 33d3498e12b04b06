import PathTemplate.Proofs.OrderedMap
import PathTemplate.Route.Expand

/-!
# Supplying: the same pairs in any form

The same pairs can be handed to a route as they are, in an array, in a map, as bindings, as the map
of those bindings, or behind a reference to any of these (`Source.Form`).  The forms resolve a name
that comes twice each in their own way: a search of the pairs goes from back to front, a map and
bindings overwrite when they are filled, and the map of bindings finds each name once.  They all end
at the last value, so as sources they are one and the same (`Form.source_eq`).

> `Form.interchangeable`: whatever the form, there is the same value under each name, the source is
> empty or not alike, and every route makes the same path or refuses with the same error and the
> same records.
-/

namespace PathTemplate

namespace Source

/-! ## One form at a time -/

section Forms

variable (pairs : List (String × String))

theorem ofArray_toArray : ofArray pairs.toArray = ofPairs pairs := by
  apply Source.ext
  · rfl
  · exact List.isEmpty_toArray pairs

theorem ofVector_toArray : ofVector (Vector.mk pairs.toArray rfl) = ofPairs pairs := by
  apply Source.ext
  · rfl
  · exact List.isEmpty_toArray pairs

theorem ofHashMap_ofList : ofHashMap (Std.HashMap.ofList pairs) = ofPairs pairs := by
  apply Source.ext
  · funext name
    exact Bindings.getElem?_hashMap_ofList pairs name
  · exact Std.HashMap.isEmpty_ofList

/-- A map in the order of its keys that is filled with pairs has the last value of each name. -/
theorem getElem?_treeMap_ofList (name : String) :
    (Std.TreeMap.ofList pairs)[name]? = (pairs.findRev? (·.1 = name)).map Prod.snd := by
  induction pairs using List.reverseRecOn with
  | nil => rw [Std.TreeMap.ofList_nil, Std.TreeMap.getElem?_emptyc]; rfl
  | append_singleton pairs pair ih =>
    rw [Std.TreeMap.ofList_eq_insertMany_empty, Std.TreeMap.insertMany_append,
      Std.TreeMap.insertMany_list_singleton, ← Std.TreeMap.ofList_eq_insertMany_empty,
      Std.TreeMap.getElem?_insert, ih, Bindings.map_findRev?_concat]
    simp only [Std.LawfulEqOrd.compare_eq_iff_eq]

theorem ofTreeMap_ofList : ofTreeMap (Std.TreeMap.ofList pairs) = ofPairs pairs := by
  apply Source.ext
  · funext name
    exact getElem?_treeMap_ofList pairs name
  · exact Std.TreeMap.isEmpty_ofList

theorem ofBindings_ofList : ofBindings (Bindings.ofList pairs) = ofPairs pairs := by
  apply Source.ext
  · funext name
    exact Bindings.get?_ofList pairs name
  · exact Bindings.isEmpty_ofList pairs

end Forms

/-- The map of bindings is the same source as the bindings. -/
theorem ofHashMap_toMap {b : Bindings} (h : b.WellFormed) : ofHashMap b.toMap = ofBindings b := by
  apply Source.ext
  · funext name
    exact Bindings.getElem?_toMap h name
  · show (Std.HashMap.ofList (b.toList.map Binding.pair)).isEmpty = (b.toList.length == 0)
    rw [Std.HashMap.isEmpty_ofList, List.isEmpty_map]
    cases b.toList with
    | nil => rfl
    | cons entry entries => rfl

/-! ## Every form -/

/-- A form in which pairs can be handed over. -/
inductive Form where
  /-- The pairs as they are. -/
  | slice
  /-- An array of them. -/
  | array
  /-- An array of just as many. -/
  | vector
  /-- A map without order, filled with them in order. -/
  | hashMap
  /-- A map in the order of its keys, filled with them in order. -/
  | treeMap
  /-- Bindings into which they came in order. -/
  | bindings
  /-- The map without order of those bindings. -/
  | bindingsMap
  /-- A reference to another form. -/
  | ref (form : Form)
  deriving DecidableEq, Repr

namespace Form

/-- The source that pairs make in a form. -/
def source (pairs : List (String × String)) : Form → Source
  | slice => ofPairs pairs
  | array => ofArray pairs.toArray
  | vector => ofVector (Vector.mk pairs.toArray rfl)
  | hashMap => ofHashMap (Std.HashMap.ofList pairs)
  | treeMap => ofTreeMap (Std.TreeMap.ofList pairs)
  | bindings => ofBindings (Bindings.ofList pairs)
  | bindingsMap => ofHashMap (Bindings.ofList pairs).toMap
  | ref form => Source.ref (form.source pairs)

/-- In any form the pairs make the source that they make as they are. -/
theorem source_eq (pairs : List (String × String)) (form : Form) :
    form.source pairs = ofPairs pairs := by
  induction form with
  | slice => rfl
  | array => exact ofArray_toArray pairs
  | vector => exact ofVector_toArray pairs
  | hashMap => exact ofHashMap_ofList pairs
  | treeMap => exact ofTreeMap_ofList pairs
  | bindings => exact ofBindings_ofList pairs
  | bindingsMap =>
    exact (ofHashMap_toMap (Bindings.wellFormed_ofList pairs)).trans (ofBindings_ofList pairs)
  | ref form ih => exact ih

/-- In any form the value under a name is that of the last pair with the name. -/
theorem lookup?_source_eq_some_iff {pairs : List (String × String)} {form : Form}
    {name value : String} :
    (form.source pairs).lookup? name = some value ↔ LastUnder pairs name value := by
  rw [source_eq]
  exact map_findRev?_eq_some_iff

/-- Two forms of the same pairs have the same value under each name and are empty alike, and every
route does the same with them: it makes the same path, or refuses with the same error, and leaves
the same records. -/
theorem interchangeable (pairs : List (String × String)) (form other : Form) :
    (∀ name, (form.source pairs).lookup? name = (other.source pairs).lookup? name) ∧
      (form.source pairs).isEmpty = (other.source pairs).isEmpty ∧
      ∀ r : Route, (r.expandWith (form.source pairs)).result =
          (r.expandWith (other.source pairs)).result ∧
        (r.expandWith (form.source pairs)).log = (r.expandWith (other.source pairs)).log := by
  have hsame : form.source pairs = other.source pairs :=
    (source_eq pairs form).trans (source_eq pairs other).symm
  rw [hsame]
  exact ⟨fun _ => rfl, rfl, fun _ => ⟨rfl, rfl⟩⟩

/-- The second value of a name counts, in the bindings as in the array. -/
example : ((ref bindings).source [("a", "1"), ("b", "2"), ("a", "3")]).lookup? "a" = some "3" ∧
    (vector.source [("a", "1"), ("b", "2"), ("a", "3")]).lookup? "a" = some "3" := by
  decide

end Form

end Source

end PathTemplate
