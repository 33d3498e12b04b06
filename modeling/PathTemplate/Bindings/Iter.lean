import PathTemplate.Bindings

/-!
# Going through bindings one by one

An `Iter` is a place in the entries of some bindings.  It knows exactly how many are left.
-/

namespace PathTemplate.Bindings

/-- A place in the entries: those not yet seen. -/
structure Iter where
  rest : List Binding

/-- The place before the first entry. -/
def iter (b : Bindings) : Iter := ⟨b.toList⟩

namespace Iter

/-- The entry at this place, and the place behind it. -/
def next? (it : Iter) : Option (Binding × Iter) :=
  match it.rest with
  | [] => none
  | entry :: rest => some (entry, ⟨rest⟩)

/-- The number of entries left. -/
def size (it : Iter) : Nat := it.rest.length

/-- The least and the greatest number of entries left. -/
def sizeBounds (it : Iter) : Nat × Nat := (it.size, it.size)

/-- Each entry that is seen leaves one less. -/
theorem size_of_next? {it behind : Iter} {entry : Binding}
    (h : it.next? = some (entry, behind)) : it.size = behind.size + 1 := by
  obtain ⟨rest⟩ := it
  cases rest with
  | nil => exact absurd h (by simp [next?])
  | cons first rest =>
    simp only [next?, Option.some.injEq, Prod.mk.injEq] at h
    rw [← h.2]
    rfl

/-- The entries that are seen from this place on. -/
def all (it : Iter) : List Binding :=
  match _h : it.next? with
  | some (entry, behind) => entry :: behind.all
  | none => []
termination_by it.size
decreasing_by
  have := size_of_next? _h
  omega

/-- All entries that are left are seen, and nothing else. -/
theorem all_eq_rest (it : Iter) : it.all = it.rest := by
  obtain ⟨rest⟩ := it
  induction rest with
  | nil => rw [all]; rfl
  | cons entry rest ih =>
    rw [all]
    exact congrArg (entry :: ·) ih

end Iter

end PathTemplate.Bindings
