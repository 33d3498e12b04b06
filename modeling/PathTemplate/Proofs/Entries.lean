import Mathlib.Data.List.Induction
import PathTemplate.Bindings.WellFormed

/-!
# Entries: bindings made of a list of pairs

`Bindings.ofList` puts pairs in one after the other.  What comes of it is said by two facts, both
by induction on the last pair that came in.

> `map_name_ofList`: the names of the entries are the names of the pairs, each once, in the order
> in which they first came in.
> `get?_ofList`: the value under a name is that of the last pair with the name.

The pairs of a route are its names and the values at them, and a value at the last occurrence of a
name is the one that stays (`get?_ofList_zip`).
-/

namespace PathTemplate.Bindings

/-! ## The last pair -/

theorem ofList_concat (pairs : List (String × String)) (pair : String × String) :
    ofList (pairs ++ [pair]) = (ofList pairs).insert pair.1 pair.2 := by
  unfold ofList
  rw [List.foldl_append]
  rfl

theorem wellFormed_ofList (pairs : List (String × String)) : (ofList pairs).WellFormed := by
  induction pairs using List.reverseRecOn with
  | nil => exact wellFormed_empty
  | append_singleton pairs pair ih =>
    rw [ofList_concat]
    exact wellFormed_insert ih pair.1 pair.2

theorem toList_ofList_concat (pairs : List (String × String)) (pair : String × String) :
    (ofList (pairs ++ [pair])).toList = put ⟨pair.1, pair.2⟩ (ofList pairs).toList := by
  rw [ofList_concat]
  exact toList_insert (wellFormed_ofList pairs) pair.1 pair.2

/-! ## Names -/

/-- A name that comes again at the end is not kept. -/
theorem eraseDups_concat (names : List String) (name : String) :
    (names ++ [name]).eraseDups =
      if name ∈ names then names.eraseDups else names.eraseDups ++ [name] := by
  rw [List.eraseDups_append]
  by_cases h : name ∈ names
  · simp [List.removeAll, h]
  · simp [List.removeAll, h, List.eraseDups_cons]

/-- The entries have the names of the pairs, in the order in which they first came in. -/
theorem map_name_ofList (pairs : List (String × String)) :
    (ofList pairs).toList.map Binding.name = (pairs.map Prod.fst).eraseDups := by
  induction pairs using List.reverseRecOn with
  | nil => rfl
  | append_singleton pairs pair ih =>
    rw [toList_ofList_concat, map_name_put, List.map_append, List.map_singleton, eraseDups_concat]
    simp only [ih, List.mem_eraseDups]

/-- There are at most as many different names as names, and as many only if all are different. -/
theorem length_eraseDups (names : List String) :
    names.eraseDups.length ≤ names.length ∧
      (names.eraseDups.length = names.length ↔ names.Nodup) := by
  induction names using List.reverseRecOn with
  | nil => simp
  | append_singleton names name ih =>
    obtain ⟨hle, heq⟩ := ih
    rw [eraseDups_concat, List.length_append, List.length_singleton]
    by_cases h : name ∈ names
    · -- the name has come before: it adds nothing, and the names are not all different
      rw [if_pos h]
      refine ⟨by omega, by omega, ?_⟩
      intro hnodup
      have hdisjoint := (List.nodup_append.mp hnodup).2.2
      exact absurd rfl (hdisjoint name h name (List.mem_singleton_self name))
    · rw [if_neg h, List.length_append, List.length_singleton]
      refine ⟨by omega, ?_⟩
      rw [Nat.add_right_cancel_iff, heq, List.nodup_append]
      refine ⟨?_, ?_⟩
      · intro hnodup
        refine ⟨hnodup, by simp, ?_⟩
        intro a ha b hb hab
        rw [List.mem_singleton] at hb
        exact h (hb ▸ hab ▸ ha)
      · intro hnodup
        exact hnodup.1

theorem size_ofList (pairs : List (String × String)) :
    (ofList pairs).size = (pairs.map Prod.fst).eraseDups.length := by
  rw [← map_name_ofList, List.length_map]
  rfl

theorem isEmpty_ofList (pairs : List (String × String)) :
    (ofList pairs).isEmpty = pairs.isEmpty := by
  unfold isEmpty
  rw [size_ofList]
  cases pairs with
  | nil => rfl
  | cons pair pairs =>
    rw [List.map_cons, List.eraseDups_cons]
    rfl

/-! ## Values -/

/-- Among entries with one more put in, the first one with a name is the new one if it has the
name. -/
theorem find?_put (entry : Binding) (entries : List Binding) (name : String) :
    (put entry entries).find? (·.name = name) =
      if entry.name = name then some entry else entries.find? (·.name = name) := by
  induction entries with
  | nil =>
    by_cases h : entry.name = name
    · simp [put, h]
    · simp [put, h]
  | cons first rest ih =>
    by_cases hfirst : first.name = entry.name
    · rw [put, if_pos hfirst, List.find?_cons, List.find?_cons, hfirst]
      by_cases h : entry.name = name
      · simp [h]
      · simp [h]
    · rw [put, if_neg hfirst, List.find?_cons, List.find?_cons, ih]
      by_cases h : first.name = name
      · have hne : entry.name ≠ name := fun he => hfirst (h.trans he.symm)
        simp [h, hne]
      · simp [h]

/-- A name has the value that was last put under it. -/
theorem get?_insert {b : Bindings} (h : b.WellFormed) (name value key : String) :
    (b.insert name value).get? key = if name = key then some value else b.get? key := by
  unfold get?
  rw [toList_insert h, find?_put]
  by_cases hkey : name = key
  · simp [hkey]
  · simp [hkey]

/-- Of the pairs with a name, the one that comes in at the end is the last. -/
theorem map_findRev?_concat (pairs : List (String × String)) (pair : String × String)
    (name : String) :
    ((pairs ++ [pair]).findRev? (·.1 = name)).map Prod.snd =
      if pair.1 = name then some pair.2 else (pairs.findRev? (·.1 = name)).map Prod.snd := by
  rw [List.findRev?_eq_find?_reverse, List.findRev?_eq_find?_reverse, List.reverse_append,
    List.reverse_singleton, List.singleton_append, List.find?_cons]
  by_cases h : pair.1 = name
  · simp [h]
  · simp [h]

/-- The value under a name is that of the last pair with the name. -/
theorem get?_ofList (pairs : List (String × String)) (name : String) :
    (ofList pairs).get? name = (pairs.findRev? (·.1 = name)).map Prod.snd := by
  induction pairs using List.reverseRecOn with
  | nil => rfl
  | append_singleton pairs pair ih =>
    rw [ofList_concat, get?_insert (wellFormed_ofList pairs), ih, map_findRev?_concat]

/-- A name that came in has a value, and that came in with it. -/
theorem exists_get?_ofList {pairs : List (String × String)} {name : String}
    (h : name ∈ pairs.map Prod.fst) :
    ∃ value, (ofList pairs).get? name = some value ∧ (name, value) ∈ pairs := by
  obtain ⟨pair, hpair, hname⟩ := List.mem_map.mp h
  rw [get?_ofList, List.findRev?_eq_find?_reverse]
  cases hfind : pairs.reverse.find? (·.1 = name) with
  | none =>
    have hnone := List.find?_eq_none.mp hfind pair (List.mem_reverse.mpr hpair)
    exact absurd hname (by simpa using hnone)
  | some last =>
    have hlast : last.1 = name := by simpa using List.find?_some hfind
    refine ⟨last.2, rfl, ?_⟩
    rw [← hlast]
    exact List.mem_reverse.mp (List.mem_of_find?_eq_some hfind)

/-- Under a name is the value that came in with its last occurrence. -/
theorem get?_ofList_zip {front back : List String} {name : String} (hlast : name ∉ back)
    {values : List String} (hlen : values.length = (front ++ name :: back).length) :
    (ofList ((front ++ name :: back).zip values)).get? name = values[front.length]? := by
  have hlt : front.length < values.length := by
    rw [hlen, List.length_append, List.length_cons]
    omega
  have hcut : values = values.take front.length ++ values[front.length] ::
      values.drop (front.length + 1) := by
    rw [← List.drop_eq_getElem_cons hlt, List.take_append_drop]
  have hfront : front.length = (values.take front.length).length := by
    rw [List.length_take]
    omega
  -- no pair behind the last occurrence has the name
  have hnone : (back.zip (values.drop (front.length + 1))).reverse.find? (·.1 = name) = none := by
    rw [List.find?_eq_none]
    intro pair hpair heq
    have hname : pair.1 = name := by simpa using heq
    exact hlast (hname ▸ (List.of_mem_zip (List.mem_reverse.mp hpair)).1)
  rw [get?_ofList, List.findRev?_eq_find?_reverse, List.getElem?_eq_getElem hlt]
  rw [show (front ++ name :: back).zip values = front.zip (values.take front.length) ++
      (name, values[front.length]) :: back.zip (values.drop (front.length + 1)) by
    rw [← List.zip_cons_cons, ← List.zip_append hfront, ← hcut]]
  rw [List.reverse_append, List.reverse_cons, List.find?_append, List.find?_append, hnone]
  simp

end PathTemplate.Bindings
