import PathTemplate.Proofs.OrderedMap

/-!
# Merging: pairs put into bindings that are there

`Bindings.insertAll` puts pairs into bindings that need not be empty.  Names that are there keep
their places, new ones follow in the order in which they came in, and a value that comes in counts
more than one that was there.

> `insertAll_toList_ofList`: it makes no difference whether pairs are put in as they are or first
> made into bindings whose entries are then put in.
-/

namespace PathTemplate.Bindings

/-- Puts in pairs, in order. -/
def insertAll (b : Bindings) (pairs : List (String × String)) : Bindings :=
  pairs.foldl (fun b pair => b.insert pair.1 pair.2) b

/-- Pairs behind others are put into what the others made. -/
theorem ofList_append (front back : List (String × String)) :
    ofList (front ++ back) = (ofList front).insertAll back :=
  List.foldl_append

theorem insertAll_concat (b : Bindings) (pairs : List (String × String)) (pair : String × String) :
    b.insertAll (pairs ++ [pair]) = (b.insertAll pairs).insert pair.1 pair.2 := by
  unfold insertAll
  rw [List.foldl_append]
  rfl

/-- One more name is new if it is not there and has not come in before. -/
theorem append_new_concat (there names : List String) (name : String) :
    there ++ (names ++ [name]).eraseDups.filter (· ∉ there) =
      if name ∈ there ++ names.eraseDups.filter (· ∉ there) then
        there ++ names.eraseDups.filter (· ∉ there)
      else there ++ names.eraseDups.filter (· ∉ there) ++ [name] := by
  rw [eraseDups_concat]
  by_cases hbefore : name ∈ names
  · simp [hbefore]
  · by_cases hthere : name ∈ there
    · simp [hbefore, hthere]
    · simp [hbefore, hthere]

section WellFormed

variable {b : Bindings}

theorem wellFormed_insertAll (h : b.WellFormed) (pairs : List (String × String)) :
    (b.insertAll pairs).WellFormed := by
  induction pairs using List.reverseRecOn with
  | nil => exact h
  | append_singleton pairs pair ih =>
    rw [insertAll_concat]
    exact wellFormed_insert ih pair.1 pair.2

/-- The names that are there come first, then the new ones in the order in which they came in. -/
theorem map_name_insertAll (h : b.WellFormed) (pairs : List (String × String)) :
    (b.insertAll pairs).toList.map Binding.name =
      b.toList.map Binding.name ++
        (pairs.map Prod.fst).eraseDups.filter (· ∉ b.toList.map Binding.name) := by
  induction pairs using List.reverseRecOn with
  | nil => exact (List.append_nil _).symm
  | append_singleton pairs pair ih =>
    rw [insertAll_concat, toList_insert (wellFormed_insertAll h pairs), map_name_put, ih,
      List.map_append, List.map_singleton, append_new_concat]

/-- A value that came in counts, and where none came in the one that was there. -/
theorem get?_insertAll (h : b.WellFormed) (pairs : List (String × String)) (name : String) :
    (b.insertAll pairs).get? name = ((ofList pairs).get? name).or (b.get? name) := by
  induction pairs using List.reverseRecOn with
  | nil => rfl
  | append_singleton pairs pair ih =>
    rw [insertAll_concat, get?_insert (wellFormed_insertAll h pairs), ih, ofList_concat,
      get?_insert (wellFormed_ofList pairs)]
    split
    · rfl
    · rfl

/-- Pairs may be made into bindings before they are put in. -/
theorem insertAll_toList_ofList (h : b.WellFormed) (pairs : List (String × String)) :
    b.insertAll ((ofList pairs).toList.map Binding.pair) = b.insertAll pairs := by
  have hback : ofList ((ofList pairs).toList.map Binding.pair) = ofList pairs :=
    ofList_toList (wellFormed_ofList pairs)
  have hnames : ((ofList pairs).toList.map Binding.name).eraseDups =
      (pairs.map Prod.fst).eraseDups := by
    rw [← map_fst_pair, ← map_name_ofList, hback, map_name_ofList]
  apply eq_of_get?_eq (wellFormed_insertAll h _) (wellFormed_insertAll h _)
  · rw [map_name_insertAll h, map_name_insertAll h, map_fst_pair, hnames]
  · intro name
    rw [get?_insertAll h, get?_insertAll h, hback]

end WellFormed

end PathTemplate.Bindings
