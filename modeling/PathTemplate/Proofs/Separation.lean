import PathTemplate.Proofs.Expanding

/-!
# Separation: neighbouring placeholders and the text between them

Between two neighbouring placeholders of a template stands some text, or none.  Which values come
out of a path again is a matter of that text and of the value behind it.  `AtNeighbours` asks
something of the two wherever placeholders are neighbours, with the values that a source has, and
`atNeighbours_iff` says it of the frame, where the text behind a placeholder is a gap and the values
are in a list.  Two things are asked that way:

* that the value begins where the text before it last stands (`Settled`).  That is exactly what it
  takes for a route to capture the values again (`captures?_eq_iff_settled`);
* that the text holds a slash, or ends in a character which the value does not have (`Separated`).
  Then the later placeholder cannot begin any later than it does: no value reaches past the slash,
  and the character does not come again.
-/

namespace PathTemplate

namespace Segment

/-- For any two neighbouring placeholders, the text between them and the value that the source has
for the second one are so related. -/
def AtNeighbours (related : List Char → List Char → Prop) (source : Source)
    (segments : List Segment) : Prop :=
  ∀ (front : List Segment) (first : String) (between : List Segment) (second : String)
    (back : List Segment) (value : String),
    segments = front ++ placeholder first :: (between ++ placeholder second :: back) →
    names between = [] → source.lookup? second = some value →
    related (render between).toList value.toList

/-- At any two neighbouring placeholders, the second value begins where the text between them last
stands: if the value loses characters at its front and some are left, the text does not stand before
those. -/
def Settled (source : Source) (segments : List Segment) : Prop :=
  AtNeighbours Frame.Settles source segments

/-- Any two neighbouring placeholders have text between them that keeps their values apart: it holds
a slash, or its last character is not in the value of the second placeholder. -/
def Separated (source : Source) (segments : List Segment) : Prop :=
  AtNeighbours Frame.Separates source segments

/-- Before the first placeholder stands the leading text of the frame. -/
theorem lead_of_names_eq_nil {between : List Segment} (h : names between = []) (name : String)
    (back : List Segment) :
    (Frame.ofSegments (between ++ placeholder name :: back)).lead = (render between).toList := by
  induction between with
  | nil => rfl
  | cons segment between ih =>
    cases segment with
    | literal text =>
      rw [List.cons_append, Frame.ofSegments_literal, ih h, render_cons, String.toList_append]
      rfl
    | placeholder first => exact absurd h (by simp)

/-- A template with placeholders is some text, the first placeholder and the rest. -/
theorem exists_first_placeholder {segments : List Segment} {name : String} {rest : List String}
    (h : names segments = name :: rest) :
    ∃ between back, segments = between ++ placeholder name :: back ∧ names between = [] := by
  induction segments with
  | nil => exact absurd h (by simp)
  | cons segment segments ih =>
    cases segment with
    | literal text =>
      obtain ⟨between, back, hsplit, hnone⟩ := ih h
      exact ⟨literal text :: between, back, by rw [hsplit]; rfl, hnone⟩
    | placeholder first =>
      rw [names_placeholder, List.cons.injEq] at h
      exact ⟨[], segments, by rw [h.1]; rfl, rfl⟩

section AtNeighbours

variable {related : List Char → List Char → Prop} {source : Source}

/-- What comes behind the first segment has no neighbours but those of the whole template. -/
theorem atNeighbours_of_cons {segment : Segment} {segments : List Segment}
    (h : AtNeighbours related source (segment :: segments)) :
    AtNeighbours related source segments := by
  intro front first between second back value hsplit
  exact h (segment :: front) first between second back value (by rw [hsplit]; rfl)

/-- Text in front of a template changes nothing. -/
theorem atNeighbours_literal_iff {text : String} {segments : List Segment} :
    AtNeighbours related source (literal text :: segments) ↔
      AtNeighbours related source segments := by
  refine ⟨?_, ?_⟩
  · exact atNeighbours_of_cons
  · intro h front first between second back value hsplit
    cases front with
    | nil => exact absurd hsplit (by simp)
    | cons segment front =>
      rw [List.cons_append, List.cons.injEq] at hsplit
      exact h front first between second back value hsplit.2

/-- A placeholder in front of a template becomes the neighbour of the first one behind it. -/
theorem atNeighbours_placeholder_iff {name second value : String} {segments : List Segment}
    {rest : List String} (hnames : names segments = second :: rest)
    (hvalue : source.lookup? second = some value) :
    AtNeighbours related source (placeholder name :: segments) ↔
      related (Frame.ofSegments segments).lead value.toList ∧
        AtNeighbours related source segments := by
  refine ⟨?_, ?_⟩
  · intro h
    obtain ⟨between, back, hsplit, hnone⟩ := exists_first_placeholder hnames
    refine ⟨?_, atNeighbours_of_cons h⟩
    rw [hsplit, lead_of_names_eq_nil hnone]
    exact h [] name between second back value (by rw [hsplit]; rfl) hnone hvalue
  · intro ⟨hhere, h⟩ front first between other back found hsplit hnone hfound
    -- two neighbours begin at the placeholder in front, or both are behind it
    cases front with
    | nil =>
      rw [List.nil_append, List.cons.injEq] at hsplit
      rw [hsplit.2, names_append, hnone, List.nil_append, names_placeholder,
        List.cons.injEq] at hnames
      rw [hnames.1, hvalue, Option.some.injEq] at hfound
      rw [hsplit.2, lead_of_names_eq_nil hnone, hfound] at hhere
      exact hhere
    | cons segment front =>
      rw [List.cons_append, List.cons.injEq] at hsplit
      exact h front first between other back found hsplit.2 hnone hfound

/-- The last placeholder has no neighbour behind it. -/
theorem atNeighbours_of_names_eq_nil {name : String} {segments : List Segment}
    (hnames : names segments = []) :
    AtNeighbours related source (placeholder name :: segments) := by
  intro front first between second back value hsplit
  have hnames' := congrArg names hsplit
  rw [names_placeholder, hnames, names_append, names_placeholder, names_append,
    names_placeholder] at hnames'
  have hlength := congrArg List.length hnames'
  simp only [List.length_append, List.length_cons, List.length_nil] at hlength
  omega

/-- Neighbours are related as each gap of the frame is to the value behind it. -/
theorem atNeighbours_iff {segments : List Segment} {values : List String}
    (hlookup : (names segments).map source.lookup? = values.map some) :
    AtNeighbours related source segments ↔
      ∀ pair ∈ (Frame.ofSegments segments).gaps.zip (values.map String.toList).tail,
        related pair.1 pair.2 := by
  induction segments generalizing values with
  | nil =>
    refine ⟨?_, ?_⟩
    · intro h pair hpair
      exact absurd hpair (by simp)
    · intro h front first between second back value hsplit
      exact absurd hsplit (by simp)
  | cons segment segments ih =>
    cases segment with
    | literal text =>
      rw [atNeighbours_literal_iff]
      exact ih hlookup
    | placeholder name =>
      cases values with
      | nil => exact absurd hlookup (by simp)
      | cons head values =>
        rw [names_placeholder, List.map_cons, List.map_cons, List.cons.injEq] at hlookup
        rw [Frame.ofSegments_placeholder, List.map_cons, List.tail_cons]
        cases hnames : names segments with
        | nil =>
          have hnil : values = [] := by
            rw [hnames] at hlookup
            exact List.map_eq_nil_iff.mp hlookup.2.symm
          subst hnil
          refine ⟨?_, ?_⟩
          · intro h pair hpair
            exact absurd hpair (by simp)
          · intro h
            exact atNeighbours_of_names_eq_nil hnames
        | cons second rest =>
          cases values with
          | nil => exact absurd hlookup.2 (by simp [hnames])
          | cons value values =>
            have hvalue : source.lookup? second = some value := by
              have hrest := hlookup.2
              rw [hnames, List.map_cons, List.map_cons, List.cons.injEq] at hrest
              exact hrest.1
            -- the first gap is the text before the second placeholder, the others are behind it
            rw [atNeighbours_placeholder_iff hnames hvalue, ih hlookup.2, List.map_cons,
              List.zip_cons_cons, List.forall_mem_cons]
            rfl

end AtNeighbours

/-- With values that fit, a separated template is settled. -/
theorem settled_of_separated {source : Source} {segments : List Segment}
    (hfit : ∀ name ∈ names segments, ∀ value, source.lookup? name = some value → IsValue value)
    (h : Separated source segments) : Settled source segments := by
  intro front first between second back value hsplit hnone hvalue
  have hsecond : second ∈ names segments := by
    rw [hsplit]
    simp
  exact Frame.settles_of_separates (isRun_toList_iff.mpr (hfit second hsecond value hvalue))
    (h front first between second back value hsplit hnone hvalue)

end Segment

namespace Route

/-- A route captures the values that its template was filled with exactly if each of them begins
where the text before it last stands. -/
theorem captures?_eq_iff_settled {r : Route} {source : Source} {path : String}
    {values : List String} (hassigns : Segment.Assigns r.segments path values)
    (hlookup : r.names.map source.lookup? = values.map some) :
    r.captures? path = some values ↔ Segment.Settled source r.segments := by
  rw [names_eq] at hlookup
  rw [captures?_eq_some_iff_toList,
    Frame.captures?_eq_iff_settles (Segment.assigns_iff_fills.mp hassigns)]
  exact (Segment.atNeighbours_iff hlookup).symm

/-- A route captures the values that a separated template was filled with. -/
theorem captures?_of_separated {r : Route} {source : Source} {path : String} {values : List String}
    (hassigns : Segment.Assigns r.segments path values)
    (hlookup : r.names.map source.lookup? = values.map some)
    (hsep : Segment.Separated source r.segments) : r.captures? path = some values := by
  refine (captures?_eq_iff_settled hassigns hlookup).mpr (Segment.settled_of_separated ?_ hsep)
  intro name hname value hvalue
  rw [← names_eq] at hname
  obtain ⟨found, hfound, hsome⟩ := List.mem_map.mp (hlookup ▸ List.mem_map_of_mem hname)
  have hsame : found = value := Option.some.inj (hsome.trans hvalue)
  exact hassigns.fit value (hsame ▸ hfound)

end Route

end PathTemplate
