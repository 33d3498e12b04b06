import PathTemplate.Proofs.Assigning
import PathTemplate.Proofs.Entries
import PathTemplate.Proofs.Reading

/-!
# Matching: what a route accepts and what it captures

A route accepts a path in one of two ways.  With placeholders it looks for captures; without any it
compares the path with its template.  Both come to the same question, whether there is an
assignment: the frame settles it for the first way, and for the second `render_scan` does, since a
template without placeholders is the text of its segments.

> `accepts_iff_assigns`: a route accepts a path, and captures from it, exactly if there is an
> assignment.
> `capture?_most`: it captures the assignment with the greatest lengths, and binds each name, in
> the order of first appearance, to the value at its last occurrence.
-/

namespace PathTemplate.Route

theorem render_segments (r : Route) : Segment.render r.segments = r.template := by
  rw [segments_eq, Segment.render_scan]

theorem names_eq_nil_of_isStatic {r : Route} (h : r.isStatic = true) : r.names = [] :=
  List.isEmpty_iff.mp h

theorem names_ne_nil_of_isStatic {r : Route} (h : r.isStatic = false) : r.names ≠ [] := by
  intro hnil
  unfold isStatic at h
  rw [hnil] at h
  exact absurd h (by simp)

/-! ## Acceptance -/

/-- A route without placeholders has one assignment, which makes its template. -/
theorem exists_assigns_iff_of_isStatic {r : Route} (h : r.isStatic = true) {path : String} :
    (∃ values, Segment.Assigns r.segments path values) ↔ path = r.template := by
  rw [Segment.exists_assigns_iff_of_names_eq_nil (r.names_eq ▸ names_eq_nil_of_isStatic h),
    render_segments]

/-- A route accepts the paths that have an assignment. -/
theorem accepts_iff_exists {r : Route} {path : String} :
    r.accepts path = true ↔ ∃ values, Segment.Assigns r.segments path values := by
  unfold accepts
  cases hstatic : r.isStatic with
  | true =>
    rw [exists_assigns_iff_of_isStatic hstatic]
    simp
  | false =>
    rw [← isSome_captures?_iff]
    simp

/-- What a route accepts it has captured values for, be they none. -/
theorem exists_captures?_of_accepts {r : Route} {path : String} (h : r.accepts path = true) :
    ∃ values, r.captures? path = some values :=
  Option.isSome_iff_exists.mp (isSome_captures?_iff.mpr (accepts_iff_exists.mp h))

/-- A route accepts a path from which it captures values, be they none. -/
theorem accepts_eq_isSome_captures? (r : Route) (path : String) :
    r.accepts path = (r.captures? path).isSome := by
  rw [Bool.eq_iff_iff, accepts_iff_exists, isSome_captures?_iff]

/-- A route binds names on the paths that it accepts. -/
theorem isSome_capture?_iff {r : Route} {path : String} :
    (r.capture? path).isSome = true ↔ r.accepts path = true := by
  unfold capture? accepts
  cases r.isStatic with
  | true =>
    by_cases h : path = r.template
    · simp [h]
    · simp [h]
  | false => simp

/-- Acceptance, capture and assignment are the same, with placeholders and without. -/
theorem accepts_iff_assigns (r : Route) (path : String) :
    (r.accepts path = true ↔ (r.capture? path).isSome = true) ∧
      ((r.capture? path).isSome = true ↔ ∃ values, Segment.Assigns r.segments path values) :=
  ⟨isSome_capture?_iff.symm, isSome_capture?_iff.trans accepts_iff_exists⟩

/-! ## Capture -/

/-- With placeholders, the bindings are made of the names and the captured values. -/
theorem capture?_of_captures? {r : Route} (hdynamic : r.isStatic = false) {path : String}
    {values : List String} (h : r.captures? path = some values) :
    r.capture? path = some (.ofList (r.names.zip values)) := by
  unfold capture?
  rw [hdynamic, h]
  rfl

/-- With placeholders and without, the bindings are made of the names and the captured values. -/
theorem capture?_eq_map_captures? (r : Route) (path : String) :
    r.capture? path = (r.captures? path).map fun values => .ofList (r.names.zip values) := by
  unfold capture?
  cases hstatic : r.isStatic with
  | false => rfl
  | true =>
    have hnames : r.names = [] := names_eq_nil_of_isStatic hstatic
    cases hcaptures : r.captures? path with
    | some values =>
      have hassigns := (captures?_eq_some_iff.mp hcaptures).toAssigns
      have hpath := (exists_assigns_iff_of_isStatic hstatic).mp ⟨values, hassigns⟩
      rw [if_pos rfl, if_pos hpath, hnames]
      rfl
    | none =>
      have hpath : path ≠ r.template := by
        intro heq
        have hsome := isSome_captures?_iff.mpr ((exists_assigns_iff_of_isStatic hstatic).mpr heq)
        rw [hcaptures] at hsome
        exact absurd hsome (by simp)
      rw [if_pos rfl, if_neg hpath]
      rfl

/-- There is one captured value for each occurrence of a placeholder. -/
theorem length_of_captures? {r : Route} {path : String} {values : List String}
    (h : r.captures? path = some values) : values.length = r.names.length := by
  rw [names_eq]
  exact Segment.length_of_assemble (captures?_eq_some_iff.mp h).assembled

theorem map_fst_zip_of_captures? {r : Route} {path : String} {values : List String}
    (h : r.captures? path = some values) : (r.names.zip values).map Prod.fst = r.names :=
  List.map_fst_zip (Nat.le_of_eq (length_of_captures? h).symm)

/-- A route with placeholders captures, from a path that it accepts, the one assignment with the
greatest lengths; each name is bound once, in the order of first appearance, to the value at its
last occurrence. -/
theorem capture?_most (r : Route) (hdynamic : r.isStatic = false) (path : String)
    (haccepts : r.accepts path = true) :
    ∃ values b, r.captures? path = some values ∧ r.capture? path = some b ∧
      (∀ other, Segment.AssignsMost r.segments path other ↔ other = values) ∧
      b.toList.map Binding.name = r.names.eraseDups ∧
      (∀ front name back, r.names = front ++ name :: back → name ∉ back →
        b.get? name = values[front.length]?) ∧
      (b.size = r.names.length ↔ r.names.Nodup) := by
  obtain ⟨values, hvalues⟩ := exists_captures?_of_accepts haccepts
  have hnames := map_fst_zip_of_captures? hvalues
  refine ⟨values, .ofList (r.names.zip values), hvalues, capture?_of_captures? hdynamic hvalues,
    ?_, ?_, ?_, ?_⟩
  · intro other
    rw [← captures?_eq_some_iff, hvalues, Option.some.injEq, eq_comm]
  · rw [Bindings.map_name_ofList, hnames]
  · intro front name back hsplit hlast
    have hlen := length_of_captures? hvalues
    rw [hsplit] at hlen ⊢
    exact Bindings.get?_ofList_zip hlast hlen
  · rw [Bindings.size_ofList, hnames]
    exact (Bindings.length_eraseDups r.names).2

/-- A route whose template has a repeated name and a path with more than one assignment. -/
def dashed : Route := ofTemplate "/{a}-{b}/{a}"

/-- The first placeholder takes one dash, and the second value of `a` stays. -/
theorem capture?_most_dashed :
    dashed.isStatic = false ∧ dashed.accepts "/1-2-3/4" = true ∧
      ∃ values b, dashed.captures? "/1-2-3/4" = some values ∧
        dashed.capture? "/1-2-3/4" = some b ∧ values = ["1-2", "3", "4"] ∧
        b.toList.map Binding.name = ["a", "b"] ∧ b.get? "a" = some "4" ∧
        b.size ≠ dashed.names.length := by
  have hdynamic : dashed.isStatic = false := by decide +kernel
  have haccepts : dashed.accepts "/1-2-3/4" = true := by decide +kernel
  have hnames : dashed.names = ["a", "b", "a"] := by decide +kernel
  obtain ⟨values, b, hvalues, hb, -, horder, hlast, hsize⟩ :=
    capture?_most dashed hdynamic "/1-2-3/4" haccepts
  have hfound : values = ["1-2", "3", "4"] :=
    Option.some.inj (hvalues.symm.trans (by decide +kernel))
  refine ⟨hdynamic, haccepts, values, b, hvalues, hb, hfound, ?_, ?_, ?_⟩
  · rw [horder, hnames]
    decide
  · rw [hlast ["a", "b"] "a" [] hnames (by simp), hfound]
    rfl
  · rw [ne_eq, hsize, hnames]
    decide

end PathTemplate.Route
