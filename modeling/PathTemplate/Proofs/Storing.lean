import PathTemplate.Proofs.OrderedMap

/-!
# Storing: how bindings keep their entries

`Bindings.insert` writes into slots and into an array, and `toList` cuts off the slots that are in
use.  On bindings of any kind these could miss: a count greater than the number of slots, or a place
that is not there.  `toList?` and `insert?` are the same operations, but with nothing in place of
what is not there: they stop.

> `ofList_stored`: on bindings that pairs were put into they never stop, and these bindings are
> well-formed: the entries are in the slots as long as there are at most three, with blanks behind
> them, and in the array otherwise.  So the entries decide how they are kept, and two bindings are
> the same exactly if the same entries are seen in both, whatever has been put in and overwritten.

The count of well-formed bindings is at most the number of slots (`toList?_eq_some`), and an entry
that is found is one of those in use (`lt_length_of_findIdx?`).  Nothing more is needed for the
slots.
-/

namespace PathTemplate.Bindings

/-- The entries, unless more slots are in use than there are. -/
def toList? : Bindings → Option (List Binding)
  | inline slots count => if count ≤ room then some (slots.toList.take count) else none
  | spilled entries => some entries.toList

/-- The slots with an entry in one of them, unless there is no such slot. -/
def setSlot? (slots : Vector Binding room) (i : Nat) (entry : Binding) :
    Option (Vector Binding room) :=
  if h : i < room then some (slots.set i entry h) else none

/-- The array with another entry in one place, unless there is no such place. -/
def setPlace? (entries : Array Binding) (i : Nat) (entry : Binding) : Option (Array Binding) :=
  if h : i < entries.size then some (entries.set i entry h) else none

/-- Puts a value under a name, unless that takes a place which is not there. -/
def insert? (b : Bindings) (name value : String) : Option Bindings :=
  b.toList?.bind fun inUse =>
    match inUse.findIdx? (·.name = name), b with
    | some i, inline slots count => (setSlot? slots i ⟨name, value⟩).map (inline · count)
    | some i, spilled entries => (setPlace? entries i ⟨name, value⟩).map spilled
    | none, inline slots count =>
      if count = room then some (spilled (slots.toArray.push ⟨name, value⟩))
      else (setSlot? slots count ⟨name, value⟩).map (inline · (count + 1))
    | none, spilled entries => some (spilled (entries.push ⟨name, value⟩))

theorem setSlot?_eq_some {i : Nat} (h : i < room) (slots : Vector Binding room) (entry : Binding) :
    setSlot? slots i entry = some (slots.setIfInBounds i entry) := by
  unfold setSlot?
  rw [dif_pos h]
  apply congrArg some
  apply Vector.toArray_inj.mp
  rw [Vector.toArray_set, Vector.toArray_setIfInBounds, Array.setIfInBounds_def, dif_pos]

theorem setPlace?_eq_some {entries : Array Binding} {i : Nat} (h : i < entries.size)
    (entry : Binding) : setPlace? entries i entry = some (entries.setIfInBounds i entry) := by
  unfold setPlace?
  rw [dif_pos h, Array.setIfInBounds_def, dif_pos h]

section WellFormed

variable {b c : Bindings}

/-- In well-formed bindings no more slots are in use than there are. -/
theorem toList?_eq_some (h : b.WellFormed) : b.toList? = some b.toList := by
  cases b with
  | inline slots count => exact if_pos h.1
  | spilled entries => rfl

/-- An entry that is found is one of those in use. -/
theorem lt_length_of_findIdx? {name : String} {i : Nat}
    (h : b.toList.findIdx? (·.name = name) = some i) : i < b.toList.length :=
  (List.findIdx?_eq_some_iff_getElem.mp h).1

/-- Into well-formed bindings a value is put in a place that is there. -/
theorem insert?_eq_some (h : b.WellFormed) (name value : String) :
    b.insert? name value = some (b.insert name value) := by
  unfold insert? insert
  rw [toList?_eq_some h, Option.bind_some]
  cases hfind : b.toList.findIdx? (·.name = name) with
  | some i =>
    have hplace := lt_length_of_findIdx? hfind
    cases b with
    | inline slots count =>
      rw [length_toList_inline h] at hplace
      show (setSlot? slots i ⟨name, value⟩).map (inline · count) = _
      rw [setSlot?_eq_some (Nat.lt_of_lt_of_le hplace h.1), Option.map_some]
    | spilled entries =>
      show (setPlace? entries i ⟨name, value⟩).map spilled = _
      rw [setPlace?_eq_some hplace, Option.map_some]
  | none =>
    cases b with
    | inline slots count =>
      rcases Nat.lt_or_eq_of_le h.1 with hlt | heq
      · simp only [if_neg (Nat.ne_of_lt hlt), if_pos hlt, setSlot?_eq_some hlt, Option.map_some]
      · simp only [if_pos heq, if_neg (Nat.not_lt.mpr (Nat.le_of_eq heq.symm))]
    | spilled entries => rfl

/-- Well-formed bindings are the same exactly if the same entries are seen in both. -/
theorem beq_iff_all_eq (hb : b.WellFormed) (hc : c.WellFormed) :
    (b == c) = true ↔ b.iter.all = c.iter.all := by
  rw [beq_iff_eq, Iter.all_eq_rest, Iter.all_eq_rest]
  refine ⟨?_, eq_of_toList_eq hb hc⟩
  intro h
  rw [h]

end WellFormed

/-- Whatever pairs come in, in whatever order: no more slots are in use than there are, names are
distinct, unused slots are blank, and the array is in use only for more entries than there are
slots; reading the entries and putting in one more find every place that they take; and two such
bindings are the same exactly if the same entries are seen in both. -/
theorem ofList_stored (pairs others : List (String × String)) :
    (ofList pairs).WellFormed ∧
      (ofList pairs).toList? = some (ofList pairs).iter.all ∧
      (∀ name value, (ofList pairs).insert? name value = some ((ofList pairs).insert name value)) ∧
      ((ofList pairs == ofList others) = true ↔
        (ofList pairs).iter.all = (ofList others).iter.all) := by
  have hwell := wellFormed_ofList pairs
  refine ⟨hwell, ?_, insert?_eq_some hwell, beq_iff_all_eq hwell (wellFormed_ofList others)⟩
  rw [Iter.all_eq_rest]
  exact toList?_eq_some hwell

/-- A name that came in twice leaves no trace, in the slots or in the array. -/
example : ofList [("a", "1"), ("b", "2"), ("a", "3")] = ofList [("a", "3"), ("b", "2")] ∧
    ofList [("a", "1"), ("b", "2"), ("c", "3"), ("d", "4"), ("b", "5")] =
      ofList [("a", "1"), ("b", "5"), ("c", "3"), ("d", "4")] := by
  decide

end PathTemplate.Bindings
