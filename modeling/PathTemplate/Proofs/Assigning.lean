import PathTemplate.Segment.Assignment
import PathTemplate.Proofs.Filling
import PathTemplate.Proofs.Numbering

/-!
# Assignments: from templates to frames

`Segment.Assigns` says in terms of strings and segments what `Frame.Fills` says in terms of
characters and gaps.  `assemble_eq` is the bridge: put together from the segments, the path of some
values is the leading text of the frame and the values woven into its gaps.

Over the bridge the contract of `Frame.captures?` becomes that of the route:

> `captures?_eq_some_iff`: what a route captures from a path is the assignment that gives the first
> placeholder as much as possible, then the second, and so on (`Segment.AssignsMost`).
-/

namespace PathTemplate

theorem isRun_toList_iff {value : String} : Frame.IsRun value.toList ↔ IsValue value := by
  unfold Frame.IsRun IsValue
  rw [ne_eq, String.toList_eq_nil_iff]

theorem map_toList_map_ofList (values : List (List Char)) :
    (values.map String.ofList).map String.toList = values := by
  simp [Function.comp_def]

theorem map_ofList_map_toList (values : List String) :
    (values.map String.toList).map String.ofList = values := by
  simp [Function.comp_def]

namespace Segment

/-- The assignment whose lengths are greatest: the first placeholder takes as much as it can, then
the second, and so on. -/
structure AssignsMost (segments : List Segment) (path : String) (values : List String) : Prop
    extends Assigns segments path values where
  most : ∀ other, Assigns segments path other → other ≠ values →
    List.Lex (· < ·) (other.map String.length) (values.map String.length)

/-! ## Putting a path together -/

@[simp] theorem assemble_literal (text : String) (segments : List Segment) (values : List String) :
    assemble (literal text :: segments) values = (assemble segments values).map (text ++ ·) := by
  cases values <;> rfl

@[simp] theorem assemble_placeholder (name value : String) (segments : List Segment)
    (values : List String) :
    assemble (placeholder name :: segments) (value :: values) =
      (assemble segments values).map (value ++ ·) := rfl

/-- A path is the leading text of the frame and the values woven into its gaps, one for each. -/
theorem assemble_eq (segments : List Segment) (values : List String) :
    assemble segments values =
      if values.length = (names segments).length then
        some (String.ofList ((Frame.ofSegments segments).lead ++
          Frame.weave (Frame.ofSegments segments).gaps (values.map String.toList)))
      else none := by
  induction segments generalizing values with
  | nil => cases values <;> rfl
  | cons segment segments ih =>
    cases segment with
    | literal text =>
      rw [assemble_literal, ih]
      by_cases hlen : values.length = (names segments).length
      · simp [hlen]
      · simp [hlen]
    | placeholder name =>
      cases values with
      | nil => rfl
      | cons value values =>
        rw [assemble_placeholder, ih]
        by_cases hlen : values.length = (names segments).length
        · simp [hlen]
        · simp [hlen]

theorem length_of_assemble {segments : List Segment} {values : List String} {path : String}
    (h : assemble segments values = some path) : values.length = (names segments).length := by
  rw [assemble_eq] at h
  split at h
  · next hlen => exact hlen
  · exact absurd h (by simp)

/-- Without placeholders there is one path, the text of the segments. -/
theorem assemble_of_names_eq_nil {segments : List Segment} (h : names segments = []) :
    assemble segments [] = some (render segments) := by
  induction segments with
  | nil => rfl
  | cons segment segments ih =>
    cases segment with
    | literal text =>
      rw [assemble_literal, ih h, render_cons]
      rfl
    | placeholder name => exact absurd h (by simp)

theorem assigns_iff_fills {segments : List Segment} {path : String} {values : List String} :
    Assigns segments path values ↔
      (Frame.ofSegments segments).Fills path.toList (values.map String.toList) := by
  have hfit : (∀ run ∈ values.map String.toList, Frame.IsRun run) ↔
      ∀ value ∈ values, IsValue value := by
    simp [isRun_toList_iff]
  refine ⟨?_, ?_⟩
  · intro h
    have hlen := length_of_assemble h.assembled
    have hpath := h.assembled
    rw [assemble_eq, if_pos hlen] at hpath
    refine ⟨?_, ?_, hfit.mpr h.fit⟩
    · rw [List.length_map, Frame.length_gaps, hlen]
    · rw [← Option.some.inj hpath, String.toList_ofList]
  · intro h
    have hlen : values.length = (names segments).length := by
      rw [← Frame.length_gaps, ← h.count, List.length_map]
    refine ⟨?_, hfit.mp h.fit⟩
    rw [assemble_eq, if_pos hlen, ← h.text, String.ofList_toList]

/-- Without placeholders there is one assignment, and it makes the text of the segments. -/
theorem exists_assigns_iff_of_names_eq_nil {segments : List Segment} (h : names segments = [])
    {path : String} : (∃ values, Assigns segments path values) ↔ path = render segments := by
  refine ⟨?_, ?_⟩
  · intro ⟨values, hassigns⟩
    have hlen := length_of_assemble hassigns.assembled
    rw [h] at hlen
    have hnil : values = [] := List.length_eq_zero_iff.mp hlen
    have hpath := hassigns.assembled
    rw [hnil, assemble_of_names_eq_nil h] at hpath
    exact (Option.some.inj hpath).symm
  · intro hpath
    exact ⟨[], by rw [assemble_of_names_eq_nil h, hpath], by simp⟩

end Segment

namespace Route

/-! ## What a route captures -/

/-- A route captures strings where its frame captures their characters. -/
theorem captures?_eq_some_iff_toList {r : Route} {path : String} {values : List String} :
    r.captures? path = some values ↔
      (Frame.ofSegments r.segments).captures? path.toList = some (values.map String.toList) := by
  rw [captures?_eq, Option.map_eq_some_iff]
  refine ⟨?_, ?_⟩
  · intro ⟨runs, hruns, hvalues⟩
    rw [hruns, ← hvalues, map_toList_map_ofList]
  · intro h
    exact ⟨_, h, map_ofList_map_toList values⟩

theorem map_length_toList (values : List String) :
    (values.map String.toList).map List.length = values.map String.length := by
  simp [Function.comp_def, String.length_toList]

/-- What a route captures is the assignment with the greatest lengths. -/
theorem captures?_eq_some_iff {r : Route} {path : String} {values : List String} :
    r.captures? path = some values ↔ Segment.AssignsMost r.segments path values := by
  rw [captures?_eq_some_iff_toList, Frame.captures?_eq_some_iff, map_length_toList]
  refine ⟨?_, ?_⟩
  · intro ⟨hfills, hmost⟩
    refine ⟨Segment.assigns_iff_fills.mpr hfills, ?_⟩
    intro other hother hne
    rw [← map_length_toList]
    apply hmost _ (Segment.assigns_iff_fills.mp hother)
    intro heq
    exact hne (by rw [← map_ofList_map_toList other, heq, map_ofList_map_toList])
  · intro h
    refine ⟨Segment.assigns_iff_fills.mp h.toAssigns, ?_⟩
    intro other hother hne
    have hback := map_toList_map_ofList other
    have hlt := h.most (other.map String.ofList)
      (Segment.assigns_iff_fills.mpr (by rw [hback]; exact hother))
      (fun heq => hne (by rw [← hback, heq]))
    rw [← map_length_toList, hback] at hlt
    exact hlt

/-- A route captures something wherever there is an assignment. -/
theorem isSome_captures?_iff {r : Route} {path : String} :
    (r.captures? path).isSome = true ↔ ∃ values, Segment.Assigns r.segments path values := by
  rw [captures?_eq, Option.isSome_map, Frame.isSome_captures?_iff]
  refine ⟨?_, ?_⟩
  · intro ⟨runs, hruns⟩
    refine ⟨runs.map String.ofList, Segment.assigns_iff_fills.mpr ?_⟩
    rw [map_toList_map_ofList]
    exact hruns
  · intro ⟨values, hvalues⟩
    exact ⟨_, Segment.assigns_iff_fills.mp hvalues⟩

end Route

end PathTemplate
