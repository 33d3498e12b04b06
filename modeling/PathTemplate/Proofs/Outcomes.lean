import PathTemplate.Proofs.Expanding
import PathTemplate.Proofs.Matching

/-!
# Outcomes: everything that can come of making a path

A route and a source come to one of five things (`Route.Outcome`), by whether the template has
placeholders, whether the source has anything, and whether it lacks a value that the template wants.
A path is made in silence; a refusal leaves its own record and no other.

> `expandWith_eq_iff_outcome`: what comes of a route and a source is exactly what the cases say.

Where values are asked for at all, `Segment.fillAll_eq` says what one run over the segments comes
to.  The placeholders' names stand in template order, each as often as it occurs, so the first of
them that the source lacks is the one in the error; and if none is lacking, the path is the text of
the segments, in which a value stands as it came and is not looked at again.
-/

namespace PathTemplate

namespace Route

/-- What can come of a route and a source: a path without any record, or a refusal with its own. -/
inductive Outcome (r : Route) (source : Source) : Logged (Except ExpandError String) → Prop
  /-- A template without placeholders is its own path. -/
  | template (hstatic : r.isStatic = true) (hempty : source.isEmpty = true) :
    Outcome r source ⟨.ok r.template, []⟩
  /-- It has no use for values. -/
  | unexpected (hstatic : r.isStatic = true) (hempty : source.isEmpty = false) :
    Outcome r source ⟨.error (.unexpected r.template),
      [⟨.debug, s!"static route '{r.template}' compiled with parameters"⟩]⟩
  /-- Placeholders and nothing at all for them. -/
  | unsupplied (hdynamic : r.isStatic = false) (hempty : source.isEmpty = true) :
    Outcome r source ⟨.error (.unsupplied r.template),
      [⟨.debug, s!"route '{r.template}' compiled without parameters"⟩]⟩
  /-- The source has something, but not for this placeholder, and it is the first such. -/
  | missing (hdynamic : r.isStatic = false) (hempty : source.isEmpty = false)
      {front back : List String} {name : String} (hnames : r.names = front ++ name :: back)
      (hfront : ∀ other ∈ front, ¬ source.Lacks other) (hlacks : source.Lacks name) :
    Outcome r source ⟨.error (.missing name r.template),
      [⟨.debug, s!"route '{r.template}' is missing parameter '{name}'"⟩]⟩
  /-- The source has something for every placeholder. -/
  | filled (hdynamic : r.isStatic = false) (hempty : source.isEmpty = false)
      (hall : ∀ name ∈ r.names, ¬ source.Lacks name) :
    Outcome r source ⟨.ok (String.join (r.segments.map (Segment.textFrom source))), []⟩

variable {r : Route} {source : Source}

/-- What comes of a route and a source is one of the outcomes. -/
theorem outcome_expandWith (r : Route) (source : Source) :
    r.Outcome source (r.expandWith source) := by
  unfold expandWith
  cases hempty : source.isEmpty with
  | true =>
    unfold expand
    cases hstatic : r.isStatic with
    | true => exact .template hstatic hempty
    | false => exact .unsupplied hstatic hempty
  | false =>
    cases hstatic : r.isStatic with
    | true => exact .unexpected hstatic hempty
    | false =>
      rw [Segment.fillAll_eq, ← names_eq]
      cases hfind : r.names.find? (source.Lacks ·) with
      | some name =>
        obtain ⟨front, back, hnames, hfront, hlacks⟩ := Source.find?_lacks_eq_some_iff.mp hfind
        exact .missing hstatic hempty hnames hfront hlacks
      | none => exact .filled hstatic hempty (Source.find?_lacks_eq_none_iff.mp hfind)

/-- Each outcome comes of its own case. -/
theorem expandWith_of_outcome {outcome : Logged (Except ExpandError String)}
    (h : r.Outcome source outcome) : r.expandWith source = outcome := by
  unfold expandWith
  cases h with
  | template hstatic hempty =>
    rw [hempty]
    unfold expand
    rw [hstatic]
    rfl
  | unexpected hstatic hempty =>
    rw [hempty, hstatic]
    rfl
  | unsupplied hdynamic hempty =>
    rw [hempty]
    unfold expand
    rw [hdynamic]
    rfl
  | missing hdynamic hempty hnames hfront hlacks =>
    have hfind := Source.find?_lacks_eq_some_iff.mpr ⟨_, _, hnames, hfront, hlacks⟩
    rw [hempty, hdynamic, Segment.fillAll_eq, ← names_eq, hfind]
    rfl
  | filled hdynamic hempty hall =>
    have hfind := Source.find?_lacks_eq_none_iff.mpr hall
    rw [hempty, hdynamic, Segment.fillAll_eq, ← names_eq, hfind]
    rfl

/-- Of a route with placeholders and a source that is not empty comes what comes of the segments. -/
theorem result_expandWith (hdynamic : r.isStatic = false) (hempty : source.isEmpty = false) :
    (r.expandWith source).result =
      (Segment.fillAll source r.segments).mapError (.missing · r.template) := by
  unfold expandWith
  rw [hempty, hdynamic]
  cases hfill : Segment.fillAll source r.segments with
  | ok made => rfl
  | error name => rfl

/-- A route with placeholders and a source that is not empty make the path of the segments. -/
theorem expandWith_eq_ok_iff (hdynamic : r.isStatic = false) (hempty : source.isEmpty = false)
    {path : String} :
    (r.expandWith source).result = .ok path ↔ Segment.fillAll source r.segments = .ok path := by
  rw [result_expandWith hdynamic hempty]
  cases Segment.fillAll source r.segments with
  | ok made => simp [Except.mapError]
  | error name => simp [Except.mapError]

/-- A route with placeholders and a source that is not empty miss the name the segments miss. -/
theorem expandWith_eq_missing_iff (hdynamic : r.isStatic = false)
    (hempty : source.isEmpty = false) {name : String} :
    (r.expandWith source).result = .error (.missing name r.template) ↔
      Segment.fillAll source r.segments = .error name := by
  rw [result_expandWith hdynamic hempty]
  cases Segment.fillAll source r.segments with
  | ok made => simp [Except.mapError]
  | error other => simp [Except.mapError]

/-- If a source supplies all placeholders of a route, the route makes the path of those values. -/
theorem expandWith_of_supplies (hdynamic : r.isStatic = false) (hempty : source.isEmpty = false)
    {values : List String} (h : source.Supplies r.names values) :
    ∃ path, (r.expandWith source).result = .ok path ∧
      Segment.assemble r.segments values = some path := by
  have hall : ∀ name ∈ r.names, ¬ source.Lacks name :=
    fun name hname => Source.not_lacks_of_supplies h hname
  refine ⟨_, ?_, Segment.assemble_of_lookup? (r.names_eq ▸ h.lookup)⟩
  rw [expandWith_of_outcome (.filled hdynamic hempty hall)]

/-- Whatever path a route makes, it makes it of values that the source supplies: with placeholders
and without. -/
theorem exists_supplies_of_expandWith {path : String}
    (h : (r.expandWith source).result = .ok path) :
    ∃ values, source.Supplies r.names values ∧ Segment.assemble r.segments values = some path := by
  have houtcome := outcome_expandWith r source
  generalize r.expandWith source = outcome at h houtcome
  cases houtcome with
  | template hstatic hempty =>
    have hnames : r.names = [] := names_eq_nil_of_isStatic hstatic
    refine ⟨[], ⟨by rw [hnames]; rfl, by simp⟩, ?_⟩
    rw [Segment.assemble_of_names_eq_nil (r.names_eq ▸ hnames), render_segments, Except.ok.inj h]
  | unexpected hstatic hempty => exact absurd h (by simp)
  | unsupplied hdynamic hempty => exact absurd h (by simp)
  | missing hdynamic hempty hnames hfront hlacks => exact absurd h (by simp)
  | filled hdynamic hempty hall =>
    obtain ⟨values, hvalues⟩ := Source.exists_supplies hall
    refine ⟨values, hvalues, ?_⟩
    rw [Segment.assemble_of_lookup? (r.names_eq ▸ hvalues.lookup), Except.ok.inj h]

/-- What comes of a route and a source is exactly what the cases say, and from an empty source it is
what comes of no source. -/
theorem expandWith_eq_iff_outcome (r : Route) (source : Source) :
    (∀ outcome, r.expandWith source = outcome ↔ r.Outcome source outcome) ∧
      (source.isEmpty = true → r.expandWith source = r.expand) := by
  refine ⟨?_, ?_⟩
  · intro outcome
    refine ⟨?_, expandWith_of_outcome⟩
    intro h
    exact h ▸ outcome_expandWith r source
  · intro hempty
    unfold expandWith
    rw [if_pos hempty]

/-- A value of braces and dots goes in as it is, an empty value is lacking where it is first wanted,
and no pairs are no source. -/
theorem expandWith_eq_iff_outcome_dashed :
    dashed.expandWith (.ofPairs [("b", "{a}.*"), ("a", "1")]) = ⟨.ok "/1-{a}.*/1", []⟩ ∧
      dashed.expandWith (.ofPairs [("c", "2"), ("b", ""), ("a", "1")]) =
        ⟨.error (.missing "b" "/{a}-{b}/{a}"),
          [⟨.debug, "route '/{a}-{b}/{a}' is missing parameter 'b'"⟩]⟩ ∧
      dashed.expandWith (.ofPairs []) = dashed.expand := by
  have hdynamic : dashed.isStatic = false := by decide +kernel
  have hnames : dashed.names = ["a", "b", "a"] := by decide +kernel
  refine ⟨?_, ?_, ?_⟩
  · rw [(expandWith_eq_iff_outcome dashed _).1]
    have hpath : "/1-{a}.*/1" = String.join (dashed.segments.map
        (Segment.textFrom (.ofPairs [("b", "{a}.*"), ("a", "1")]))) := by decide +kernel
    rw [hpath]
    refine .filled hdynamic rfl ?_
    rw [hnames]
    decide
  · have hsplit : dashed.names = ["a"] ++ "b" :: ["a"] := hnames
    rw [(expandWith_eq_iff_outcome dashed _).1]
    exact .missing hdynamic rfl hsplit (by decide) (by decide)
  · exact (expandWith_eq_iff_outcome dashed _).2 rfl

end Route

end PathTemplate
