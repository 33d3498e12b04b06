import PathTemplate.Proofs.Outcomes

/-!
# Slashes: when a path belongs to the route that made it

A route puts in what its source has, slashes and all, so a path that it makes may have another shape
than its template.  Slashes are the only way out.  The characters of a path are those of the literal
text and those of the values, in some order (`perm_of_assemble`), and so all assignments of one path
have the same number of slashes in their values.  If one of them has none, neither has any other.

> `accepts_expandWith_iff`: a route accepts a path that it made exactly if no value for one of its
> placeholders holds a slash.

It is the literal text that counts, not the template: a name may hold a slash as well.
-/

namespace PathTemplate

namespace Segment

/-- The characters of the literal text, with nothing at the placeholders. -/
def literalText : List Segment → List Char
  | [] => []
  | literal text :: segments => text.toList ++ literalText segments
  | placeholder _ :: segments => literalText segments

/-- A path has the characters of the literal text and those of the values. -/
theorem perm_of_assemble {segments : List Segment} {values : List String} {path : String}
    (h : assemble segments values = some path) :
    path.toList.Perm (literalText segments ++ values.flatMap String.toList) := by
  induction segments generalizing values path with
  | nil =>
    have hnil : values = [] := List.length_eq_zero_iff.mp (length_of_assemble h)
    subst hnil
    rw [← Option.some.inj h]
    exact .refl _
  | cons segment segments ih =>
    cases segment with
    | literal text =>
      rw [assemble_literal, Option.map_eq_some_iff] at h
      obtain ⟨rest, hrest, rfl⟩ := h
      rw [String.toList_append, literalText, List.append_assoc]
      exact (ih hrest).append_left text.toList
    | placeholder name =>
      cases values with
      | nil => exact absurd h (by simp [assemble])
      | cons value values =>
        rw [assemble_placeholder, Option.map_eq_some_iff] at h
        obtain ⟨rest, hrest, rfl⟩ := h
        rw [String.toList_append, literalText, List.flatMap_cons]
        -- the value stands before the rest of the literal text and is counted behind it
        exact ((ih hrest).append_left value.toList).trans (List.perm_append_comm_assoc ..)

/-- Two ways to make one path have the same characters in their values. -/
theorem count_eq_of_assemble {segments : List Segment} {values others : List String} {path : String}
    (hvalues : assemble segments values = some path)
    (hothers : assemble segments others = some path) (c : Char) :
    (values.flatMap String.toList).count c = (others.flatMap String.toList).count c := by
  have hcount := (perm_of_assemble hvalues).count_eq c
  rw [(perm_of_assemble hothers).count_eq c, List.count_append, List.count_append] at hcount
  exact (Nat.add_left_cancel hcount).symm

theorem count_slash_eq_zero_iff {values : List String} :
    (values.flatMap String.toList).count '/' = 0 ↔ ∀ value ∈ values, '/' ∉ value.toList := by
  rw [List.count_eq_zero, List.mem_flatMap]
  simp

/-- A path that is made of some values has an assignment exactly if none of these holds a slash. -/
theorem exists_assigns_iff_of_assemble {segments : List Segment} {values : List String}
    {path : String} (h : assemble segments values = some path)
    (hne : ∀ value ∈ values, value ≠ "") :
    (∃ others, Assigns segments path others) ↔ ∀ value ∈ values, '/' ∉ value.toList := by
  refine ⟨?_, ?_⟩
  · intro ⟨others, hothers⟩
    have hnone := count_slash_eq_zero_iff.mpr fun other hother => (hothers.fit other hother).2
    rw [← count_slash_eq_zero_iff, count_eq_of_assemble h hothers.assembled '/']
    exact hnone
  · intro hslash
    exact ⟨values, h, fun value hvalue => ⟨hne value hvalue, hslash value hvalue⟩⟩

end Segment

/-- What holds of the values that a source supplies holds of what it has under the names. -/
theorem Source.forall_lookup?_iff {source : Source} {names values : List String}
    (h : names.map source.lookup? = values.map some) {p : String → Prop} :
    (∀ name ∈ names, ∀ value, source.lookup? name = some value → p value) ↔
      ∀ value ∈ values, p value := by
  refine ⟨?_, ?_⟩
  · intro hall value hvalue
    obtain ⟨name, hname, hlookup⟩ := exists_lookup?_of_mem h hvalue
    exact hall name hname value hlookup
  · intro hall name hname value hlookup
    have hmem : some value ∈ values.map some := by
      rw [← h, ← hlookup]
      exact List.mem_map_of_mem hname
    obtain ⟨found, hfound, hsame⟩ := List.mem_map.mp hmem
    exact Option.some.inj hsame ▸ hall found hfound

namespace Route

/-- A route accepts a path that it made exactly if the source has no slash in any value for one of
the placeholders. -/
theorem accepts_expandWith_iff (r : Route) (source : Source) (path : String)
    (h : (r.expandWith source).result = .ok path) :
    r.accepts path = true ↔
      ∀ name ∈ r.names, ∀ value, source.lookup? name = some value → '/' ∉ value.toList := by
  obtain ⟨values, hsupplies, hassemble⟩ := exists_supplies_of_expandWith h
  rw [accepts_iff_exists, Source.forall_lookup?_iff hsupplies.lookup]
  exact Segment.exists_assigns_iff_of_assemble hassemble hsupplies.nonempty

/-- The slash in the value of `a` leads out of the route; the one under a name that the template
does not have would not. -/
theorem accepts_expandWith_dashed :
    (dashed.expandWith (.ofPairs [("a", "1/2"), ("b", "3")])).result = .ok "/1/2-3/1/2" ∧
      dashed.accepts "/1/2-3/1/2" = false ∧
      (dashed.expandWith (.ofPairs [("a", "1"), ("b", "3"), ("c", "/")])).result = .ok "/1-3/1" ∧
      dashed.accepts "/1-3/1" = true := by
  have hout : (dashed.expandWith (.ofPairs [("a", "1/2"), ("b", "3")])).result =
      .ok "/1/2-3/1/2" := by decide +kernel
  have hin : (dashed.expandWith (.ofPairs [("a", "1"), ("b", "3"), ("c", "/")])).result =
      .ok "/1-3/1" := by decide +kernel
  have hnames : dashed.names = ["a", "b", "a"] := by decide +kernel
  refine ⟨hout, ?_, hin, ?_⟩
  · rw [Bool.eq_false_iff, ne_eq, accepts_expandWith_iff dashed _ _ hout, hnames]
    intro hall
    exact absurd (hall "a" (by simp) "1/2" (by decide)) (by decide)
  · rw [accepts_expandWith_iff dashed _ _ hin, hnames]
    intro name hname value hlookup
    have hcases : name = "a" ∨ name = "b" := by grind
    rcases hcases with rfl | rfl
    · have hvalue : value = "1" := Option.some.inj (hlookup.symm.trans (by decide))
      rw [hvalue]
      decide
    · have hvalue : value = "3" := Option.some.inj (hlookup.symm.trans (by decide))
      rw [hvalue]
      decide

end Route

end PathTemplate
