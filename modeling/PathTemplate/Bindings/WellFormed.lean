import PathTemplate.Bindings

/-!
# Well-formed bindings

What `insert` keeps true of bindings that start out empty: names are distinct, unused slots hold the
blank entry, and the array is in use only where the slots are too few.

Of well-formed bindings the list of entries says everything, and `insert` does to it what `put`
does: an entry whose name is there already replaces the one that has it, and any other goes to the
end (`toList_insert`).
-/

namespace PathTemplate.Bindings

/-- The form that bindings have when they come from `empty` by inserting. -/
def WellFormed : Bindings → Prop
  | inline slots count =>
    count ≤ room ∧ ((slots.toList.take count).map Binding.name).Nodup ∧
      ∀ slot ∈ slots.toList.drop count, slot = Binding.blank
  | spilled entries =>
    room < entries.size ∧ (entries.toList.map Binding.name).Nodup

/-- Entries with one more put in: in place of the first one of its name, or else at the end. -/
def put (entry : Binding) : List Binding → List Binding
  | [] => [entry]
  | first :: rest => if first.name = entry.name then entry :: rest else first :: put entry rest

/-! ## Where `put` puts an entry -/

theorem put_of_findIdx?_none {entry : Binding} {entries : List Binding}
    (h : entries.findIdx? (·.name = entry.name) = none) :
    put entry entries = entries ++ [entry] := by
  induction entries with
  | nil => rfl
  | cons first rest ih =>
    rw [List.findIdx?_cons] at h
    by_cases hn : first.name = entry.name
    · simp [hn] at h
    · simp only [hn, decide_false, Bool.false_eq_true, ↓reduceIte, Option.map_eq_none_iff] at h
      simp [put, hn, ih h]

theorem put_of_findIdx?_some {entry : Binding} {entries : List Binding} {i : Nat}
    (h : entries.findIdx? (·.name = entry.name) = some i) :
    put entry entries = entries.set i entry := by
  induction entries generalizing i with
  | nil => simp at h
  | cons first rest ih =>
    rw [List.findIdx?_cons] at h
    by_cases hn : first.name = entry.name
    · simp only [hn, decide_true, ↓reduceIte, Option.some.injEq] at h
      subst h
      simp [put, hn]
    · simp only [hn, decide_false, Bool.false_eq_true, ↓reduceIte, Option.map_eq_some_iff] at h
      obtain ⟨j, hj, rfl⟩ := h
      simp [put, hn, ih hj]

/-- A name that is there already stays the only one of its kind, and a new one goes to the end. -/
theorem map_name_put (entry : Binding) (entries : List Binding) :
    (put entry entries).map Binding.name =
      if entry.name ∈ entries.map Binding.name then entries.map Binding.name
      else entries.map Binding.name ++ [entry.name] := by
  induction entries with
  | nil => simp [put]
  | cons first rest ih =>
    by_cases hn : first.name = entry.name
    · simp [put, hn]
    · have hn' : entry.name ≠ first.name := fun h => hn h.symm
      simp only [put, if_neg hn, List.map_cons, ih, List.mem_cons, hn', false_or]
      split <;> simp

/-! ## What `insert` does -/

@[simp] theorem toList_empty : empty.toList = [] := rfl

/-- On the entries, `insert` is `put`. -/
theorem toList_insert {b : Bindings} (h : b.WellFormed) (name value : String) :
    (b.insert name value).toList = put ⟨name, value⟩ b.toList := by
  unfold insert
  split
  · next i slots count hi =>
    rw [put_of_findIdx?_some hi]
    simp [toList, List.take_set]
  · next i entries hi =>
    rw [put_of_findIdx?_some hi]
    simp [toList]
  · next slots count hi =>
    rw [put_of_findIdx?_none hi]
    obtain ⟨hc, -, -⟩ := h
    split
    · next hlt =>
      have hlen : count < slots.toList.length := by simpa using hlt
      simp only [toList, Vector.toList_setIfInBounds]
      rw [List.take_set, List.take_add_one, List.getElem?_eq_getElem hlen, Option.toList_some]
      have hcut : (slots.toList.take count).length = count :=
        List.length_take_of_le (Nat.le_of_lt hlen)
      rw [List.set_append_right _ _ (Nat.le_of_eq hcut), hcut, Nat.sub_self]
      rfl
    · next hge =>
      have hcount : count = room := Nat.le_antisymm hc (Nat.not_lt.1 hge)
      subst hcount
      have hall : slots.toList.take room = slots.toList := List.take_of_length_le (by simp)
      simp only [toList, Array.toList_push, hall]
      rfl
  · next entries hi =>
    rw [put_of_findIdx?_none hi]
    simp [toList]

/-! ## What `insert` keeps -/

theorem wellFormed_empty : empty.WellFormed := by
  refine ⟨by decide, List.nodup_nil, ?_⟩
  intro slot h
  exact List.eq_of_mem_replicate h

/-- Putting in an entry keeps names distinct. -/
theorem nodup_names_put {entries : List Binding} (h : (entries.map Binding.name).Nodup)
    (entry : Binding) : ((put entry entries).map Binding.name).Nodup := by
  rw [map_name_put]
  split
  · exact h
  · next hn =>
    rw [List.nodup_append]
    refine ⟨h, by simp, ?_⟩
    intro a ha b hb hab
    rw [List.mem_singleton] at hb
    exact hn (hb ▸ hab ▸ ha)

theorem nodup_names {b : Bindings} (h : b.WellFormed) : (b.toList.map Binding.name).Nodup := by
  cases b with
  | inline slots count => exact h.2.1
  | spilled entries => exact h.2

theorem wellFormed_insert {b : Bindings} (h : b.WellFormed) (name value : String) :
    (b.insert name value).WellFormed := by
  have hnames := nodup_names_put (nodup_names h) ⟨name, value⟩
  rw [← toList_insert h] at hnames
  unfold insert at hnames ⊢
  split
  · next i slots count hi =>
    simp only [hi] at hnames
    refine ⟨h.1, hnames, ?_⟩
    have hcount : i < count := by
      have hlen := (List.findIdx?_eq_some_iff_getElem.1 hi).1
      simp only [toList, List.length_take] at hlen
      omega
    rw [Vector.toList_setIfInBounds, List.drop_set, if_pos hcount]
    exact h.2.2
  · next i entries hi =>
    simp only [hi] at hnames
    exact ⟨by simpa using h.1, hnames⟩
  · next slots count hi =>
    simp only [hi] at hnames
    split
    · next hlt =>
      rw [if_pos hlt] at hnames
      refine ⟨hlt, hnames, ?_⟩
      rw [Vector.toList_setIfInBounds, List.drop_set, if_pos (Nat.lt_succ_self count)]
      intro slot hslot
      rw [← List.drop_drop] at hslot
      exact h.2.2 slot (List.mem_of_mem_drop hslot)
    · next hge =>
      rw [if_neg hge] at hnames
      exact ⟨by simp, hnames⟩
  · next entries hi =>
    simp only [hi] at hnames
    exact ⟨by have := h.1; simp; omega, hnames⟩

end PathTemplate.Bindings
