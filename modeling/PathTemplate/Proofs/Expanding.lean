import PathTemplate.Route.Expand
import PathTemplate.Proofs.Assigning

/-!
# Expanding: making a path is putting it together

`Segment.fillAll` asks a source for one value after another, and stops at the first name that the
source lacks (`Source.Lacks`).  What it comes to is said once, by induction on the segments:

> `Segment.fillAll_eq`: the first lacking name, or the text of all segments.

No name is lacking exactly if the source has values for all placeholders, none of them empty
(`Source.Supplies`), and the text of the segments is then what `Segment.assemble` makes of those
values (`Segment.assemble_of_lookup?`).

A source that is empty and has a value all the same would break its own word (`Source.Lawful`), and
none of the sources at hand does.
-/

namespace PathTemplate

namespace Source

/-- An empty source has no value under any name. -/
def Lawful (source : Source) : Prop :=
  source.isEmpty = true → ∀ name, source.lookup? name = none

/-- A source lacks a name if there is no value under it, or an empty one. -/
def Lacks (source : Source) (name : String) : Prop :=
  source.lookup? name = none ∨ source.lookup? name = some ""

instance (source : Source) (name : String) : Decidable (source.Lacks name) :=
  inferInstanceAs (Decidable (_ ∨ _))

/-- The values that a source has under names, none of them empty. -/
structure Supplies (source : Source) (names values : List String) : Prop where
  lookup : names.map source.lookup? = values.map some
  nonempty : ∀ value ∈ values, value ≠ ""

theorem isEmpty_of_lookup? {source : Source} (hlawful : source.Lawful) {name value : String}
    (h : source.lookup? name = some value) : source.isEmpty = false := by
  cases hempty : source.isEmpty with
  | false => rfl
  | true =>
    rw [hlawful hempty name] at h
    exact absurd h (by simp)

theorem lawful_ofPairs (pairs : List (String × String)) : (ofPairs pairs).Lawful := by
  intro hempty name
  have hnil : pairs = [] := List.isEmpty_iff.mp hempty
  subst hnil
  rfl

theorem lawful_ofArray (pairs : Array (String × String)) : (ofArray pairs).Lawful := by
  intro hempty name
  have hnil : pairs = #[] := Array.isEmpty_iff.mp hempty
  subst hnil
  rfl

theorem lawful_ofVector {n : Nat} (pairs : Vector (String × String) n) :
    (ofVector pairs).Lawful := by
  intro hempty name
  have hzero : n = 0 := beq_iff_eq.mp hempty
  subst hzero
  have hnil : pairs = #v[] := Vector.eq_empty
  subst hnil
  rfl

theorem lawful_ref {source : Source} (h : source.Lawful) : (ref source).Lawful := h

theorem lawful_ofHashMap (map : Std.HashMap String String) : (ofHashMap map).Lawful := by
  intro hempty name
  exact Std.HashMap.getElem?_of_isEmpty hempty

theorem lawful_ofTreeMap (map : Std.TreeMap String String) : (ofTreeMap map).Lawful := by
  intro hempty name
  exact Std.TreeMap.getElem?_of_isEmpty hempty

theorem lawful_ofBindings (bindings : Bindings) : (ofBindings bindings).Lawful := by
  intro hempty name
  have hnil : bindings.toList = [] := List.length_eq_zero_iff.mp (beq_iff_eq.mp hempty)
  show (bindings.toList.find? (·.name = name)).map Binding.value = none
  rw [hnil]
  rfl

/-- What a source supplies it has under one of the names. -/
theorem exists_lookup?_of_mem {source : Source} {names values : List String}
    (h : names.map source.lookup? = values.map some) {value : String} (hvalue : value ∈ values) :
    ∃ name ∈ names, source.lookup? name = some value := by
  have hmem : some value ∈ names.map source.lookup? := h ▸ List.mem_map_of_mem hvalue
  exact List.mem_map.mp hmem

theorem not_lacks_iff {source : Source} {name : String} :
    ¬ source.Lacks name ↔ ∃ value, source.lookup? name = some value ∧ value ≠ "" := by
  unfold Lacks
  cases source.lookup? name with
  | none => simp
  | some value => simp

/-- If no name is lacking, there are values for all of them. -/
theorem exists_supplies {source : Source} {names : List String}
    (h : ∀ name ∈ names, ¬ source.Lacks name) : ∃ values, source.Supplies names values := by
  induction names with
  | nil => exact ⟨[], rfl, by simp⟩
  | cons name names ih =>
    obtain ⟨value, hvalue, hne⟩ := not_lacks_iff.mp (h name (List.mem_cons_self ..))
    obtain ⟨values, hvalues⟩ := ih (fun other hother => h other (List.mem_cons_of_mem _ hother))
    refine ⟨value :: values, ?_, ?_⟩
    · rw [List.map_cons, List.map_cons, hvalue, hvalues.lookup]
    · intro other hother
      rcases List.mem_cons.mp hother with hE | hT
      · exact hE ▸ hne
      · exact hvalues.nonempty other hT

/-- No name is lacking for which there is a value. -/
theorem not_lacks_of_supplies {source : Source} {names values : List String}
    (h : source.Supplies names values) {name : String} (hname : name ∈ names) :
    ¬ source.Lacks name := by
  have hmem : source.lookup? name ∈ values.map some := h.lookup ▸ List.mem_map_of_mem hname
  obtain ⟨value, hvalue, hlookup⟩ := List.mem_map.mp hmem
  exact not_lacks_iff.mpr ⟨value, hlookup.symm, h.nonempty value hvalue⟩

/-- The first lacking name is found where it stands. -/
theorem find?_lacks_eq_some_iff {source : Source} {names : List String} {name : String} :
    names.find? (source.Lacks ·) = some name ↔
      ∃ front back, names = front ++ name :: back ∧
        (∀ other ∈ front, ¬ source.Lacks other) ∧ source.Lacks name := by
  rw [List.find?_eq_some_iff_append]
  simp only [decide_eq_true_eq, Bool.not_eq_true', decide_eq_false_iff_not]
  refine ⟨?_, ?_⟩
  · intro ⟨hlacks, front, back, hnames, hfront⟩
    exact ⟨front, back, hnames, hfront, hlacks⟩
  · intro ⟨front, back, hnames, hfront, hlacks⟩
    exact ⟨hlacks, front, back, hnames, hfront⟩

theorem find?_lacks_eq_none_iff {source : Source} {names : List String} :
    names.find? (source.Lacks ·) = none ↔ ∀ name ∈ names, ¬ source.Lacks name := by
  rw [List.find?_eq_none]
  simp only [decide_eq_true_eq]

end Source

namespace Segment

variable {source : Source} {segments : List Segment}

/-- What stands for a segment in a path: its text, or the value under its name. -/
def textFrom (source : Source) : Segment → String
  | literal text => text
  | placeholder name => (source.lookup? name).getD ""

/-- The text of the first segment comes before the text of the others. -/
theorem fillAll_cons (segment : Segment) :
    fillAll source (segment :: segments) =
      match fill source segment with
      | .ok text => (fillAll source segments).map (text ++ ·)
      | .error name => .error name := by
  unfold fillAll
  rw [List.mapM_cons]
  cases fill source segment with
  | error name => rfl
  | ok text =>
    cases segments.mapM (fill source) with
    | error name => rfl
    | ok texts =>
      show Except.ok (String.join (text :: texts)) = _
      rw [String.join_cons]
      rfl

theorem fill_placeholder (name : String) :
    fill source (placeholder name) =
      if source.Lacks name then .error name else .ok (textFrom source (placeholder name)) := by
  cases hlookup : source.lookup? name with
  | none => simp [fill, Source.Lacks, hlookup]
  | some value =>
    by_cases hvalue : value = ""
    · simp [fill, Source.Lacks, hlookup, hvalue]
    · simp [fill, textFrom, Source.Lacks, hlookup, hvalue]

/-- Segments are filled up to the first name that the source lacks, or all of them. -/
theorem fillAll_eq (source : Source) (segments : List Segment) :
    fillAll source segments =
      match (names segments).find? (source.Lacks ·) with
      | some name => .error name
      | none => .ok (String.join (segments.map (textFrom source))) := by
  induction segments with
  | nil => rfl
  | cons segment segments ih =>
    rw [fillAll_cons, ih, List.map_cons, String.join_cons]
    cases segment with
    | literal text =>
      rw [names_literal]
      cases (names segments).find? (source.Lacks ·) with
      | some name => rfl
      | none => rfl
    | placeholder name =>
      rw [fill_placeholder, names_placeholder, List.find?_cons]
      by_cases hlacks : source.Lacks name
      · rw [if_pos hlacks, decide_eq_true hlacks]
      · rw [if_neg hlacks, decide_eq_false hlacks]
        cases (names segments).find? (source.Lacks ·) with
        | some name => rfl
        | none => rfl

/-- A path is made if no name is lacking, and it is the text of the segments. -/
theorem fillAll_eq_ok_iff {path : String} :
    fillAll source segments = .ok path ↔
      (∀ name ∈ names segments, ¬ source.Lacks name) ∧
        String.join (segments.map (textFrom source)) = path := by
  rw [fillAll_eq, ← Source.find?_lacks_eq_none_iff]
  cases (names segments).find? (source.Lacks ·) with
  | some name => simp
  | none => simp

/-- A name is missed if it is the first one that is lacking. -/
theorem fillAll_eq_error_iff {name : String} :
    fillAll source segments = .error name ↔
      (names segments).find? (source.Lacks ·) = some name := by
  rw [fillAll_eq]
  cases (names segments).find? (source.Lacks ·) with
  | some other => simp
  | none => simp

/-- Put together from the values that a source has, segments make their text. -/
theorem assemble_of_lookup? {values : List String}
    (h : (names segments).map source.lookup? = values.map some) :
    assemble segments values = some (String.join (segments.map (textFrom source))) := by
  induction segments generalizing values with
  | nil =>
    have hnil : values = [] := by simpa using h.symm
    subst hnil
    rfl
  | cons segment segments ih =>
    rw [List.map_cons, String.join_cons]
    cases segment with
    | literal text =>
      rw [assemble_literal, ih h]
      rfl
    | placeholder name =>
      cases values with
      | nil => exact absurd h (by simp)
      | cons value values =>
        rw [names_placeholder, List.map_cons, List.map_cons, List.cons.injEq] at h
        rw [assemble_placeholder, ih h.2, textFrom, h.1]
        rfl

end Segment

end PathTemplate
