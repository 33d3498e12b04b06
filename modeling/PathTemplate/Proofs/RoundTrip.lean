import Mathlib.Data.List.Nodup
import PathTemplate.Proofs.Outcomes
import PathTemplate.Proofs.Separation

/-!
# Round trips: from paths to bindings and back

What a route captures from a path it can put back.  Each captured value has at least one character,
so none is missing, and the values that go in are values again, so the route accepts what it makes.

> `expandWith_capture?`: expanding the bindings of a path makes a path of the route, and the same
> path if each name had one value.

The other way round there is a condition.  A route captures the assignment with the greatest
lengths, and that need not be the one a path was made with.  It is if the text before each
placeholder cannot be mistaken for a part of the value that goes in there (`Segment.Separated`).

> `capture?_expandWith`: under that condition a route captures the values it was given.
-/

namespace PathTemplate

/-- Pairs with one name have one value. -/
def Consistent (pairs : List (String × String)) : Prop :=
  ∀ first ∈ pairs, ∀ second ∈ pairs, first.1 = second.1 → first.2 = second.2

instance : DecidablePred Consistent := fun pairs =>
  inferInstanceAs (Decidable (∀ first ∈ pairs, ∀ second ∈ pairs, first.1 = second.1 →
    first.2 = second.2))

/-- Pairs with different names cannot disagree. -/
theorem consistent_of_nodup {pairs : List (String × String)} (h : (pairs.map Prod.fst).Nodup) :
    Consistent pairs := by
  intro first hfirst second hsecond hname
  rw [List.inj_on_of_nodup_map h hfirst hsecond hname]

/-! ## Supplies and pairs -/

namespace Source

/-- A source that answers each name with the value paired with it supplies the values. -/
theorem map_lookup?_of_zip {source : Source} {names values : List String}
    (hlen : values.length = names.length)
    (h : ∀ pair ∈ names.zip values, source.lookup? pair.1 = some pair.2) :
    names.map source.lookup? = values.map some := by
  induction names generalizing values with
  | nil =>
    have hnil : values = [] := List.length_eq_zero_iff.mp hlen
    rw [hnil]
    rfl
  | cons name names ih =>
    cases values with
    | nil => exact absurd hlen (by simp)
    | cons value values =>
      have hhere := h (name, value) (List.mem_cons_self ..)
      rw [List.map_cons, List.map_cons, hhere,
        ih (by simpa using hlen) (fun pair hp => h pair (List.mem_cons_of_mem _ hp))]

/-- A source answers each name with the value that it supplies for it. -/
theorem lookup?_of_mem_zip {source : Source} {names values : List String}
    (h : names.map source.lookup? = values.map some) {pair : String × String}
    (hpair : pair ∈ names.zip values) : source.lookup? pair.1 = some pair.2 := by
  induction names generalizing values with
  | nil => exact absurd hpair (by simp)
  | cons name names ih =>
    cases values with
    | nil => exact absurd hpair (by simp)
    | cons value values =>
      rw [List.map_cons, List.map_cons, List.cons.injEq] at h
      rcases List.mem_cons.mp hpair with hE | hT
      · rw [hE]
        exact h.1
      · exact ih h.2 hT

/-- A source that has a value which fits under each name supplies values that fit. -/
theorem exists_supplies_of_isValue {source : Source} {names : List String}
    (h : ∀ name ∈ names, ∃ value, source.lookup? name = some value ∧ IsValue value) :
    ∃ values, source.Supplies names values ∧ ∀ value ∈ values, IsValue value := by
  have hall : ∀ name ∈ names, ¬ source.Lacks name := by
    intro name hname
    obtain ⟨value, hvalue, hfit⟩ := h name hname
    exact not_lacks_iff.mpr ⟨value, hvalue, hfit.1⟩
  obtain ⟨values, hsupplies⟩ := exists_supplies hall
  refine ⟨values, hsupplies, ?_⟩
  intro value hvalue
  -- a value that was supplied was found under some name, and what is found there fits
  obtain ⟨name, hname, hlookup⟩ := exists_lookup?_of_mem hsupplies.lookup hvalue
  obtain ⟨found, hfound, hfit⟩ := h name hname
  have hsame : found = value := Option.some.inj (hfound.symm.trans hlookup)
  exact hsame ▸ hfit

end Source

namespace Route

/-! ## From a path and back -/

section Captured

variable {r : Route} {path : String} {values : List String}

/-- The bindings of a path are a source of values for all placeholders. -/
theorem exists_supplies_of_captures? (h : r.captures? path = some values) :
    ∃ taken, (Source.ofBindings (.ofList (r.names.zip values))).Supplies r.names taken ∧
      ∀ value ∈ taken, IsValue value := by
  apply Source.exists_supplies_of_isValue
  intro name hname
  rw [← map_fst_zip_of_captures? h] at hname
  obtain ⟨value, hvalue, hpair⟩ := Bindings.exists_get?_ofList hname
  exact ⟨value, hvalue, (captures?_eq_some_iff.mp h).fit value (List.of_mem_zip hpair).2⟩

/-- If each name had one value, the bindings of a path supply what was captured. -/
theorem supplies_of_consistent (h : r.captures? path = some values)
    (hconsistent : Consistent (r.names.zip values)) :
    r.names.map (Source.ofBindings (.ofList (r.names.zip values))).lookup? = values.map some := by
  apply Source.map_lookup?_of_zip (length_of_captures? h)
  intro pair hpair
  have hname : pair.1 ∈ (r.names.zip values).map Prod.fst := List.mem_map_of_mem hpair
  obtain ⟨value, hvalue, hfound⟩ := Bindings.exists_get?_ofList hname
  have hsame : value = pair.2 := hconsistent (pair.1, value) hfound pair hpair rfl
  rw [← hsame]
  exact hvalue

theorem isEmpty_ofBindings (hdynamic : r.isStatic = false) (h : r.captures? path = some values) :
    (Source.ofBindings (.ofList (r.names.zip values))).isEmpty = false := by
  show (Bindings.ofList (r.names.zip values)).isEmpty = false
  rw [Bindings.isEmpty_ofList]
  cases hpairs : r.names.zip values with
  | cons => rfl
  | nil =>
    have hnames := map_fst_zip_of_captures? h
    rw [hpairs] at hnames
    exact absurd hnames.symm (names_ne_nil_of_isStatic hdynamic)

/-- With placeholders: the bindings of a path make a path again. -/
theorem expandWith_of_captures? (hdynamic : r.isStatic = false)
    (h : r.captures? path = some values) :
    ∃ made, (r.expandWith (.ofBindings (.ofList (r.names.zip values)))).result = .ok made ∧
      r.accepts made = true ∧ (Consistent (r.names.zip values) → made = path) := by
  obtain ⟨taken, htaken, hfit⟩ := exists_supplies_of_captures? h
  obtain ⟨made, hmade, hassemble⟩ :=
    expandWith_of_supplies hdynamic (isEmpty_ofBindings hdynamic h) htaken
  refine ⟨made, hmade, accepts_iff_exists.mpr ⟨taken, hassemble, hfit⟩, ?_⟩
  intro hconsistent
  have hsame : taken = values :=
    List.map_injective_iff.mpr (fun _ _ => Option.some.inj)
      (htaken.lookup.symm.trans (supplies_of_consistent h hconsistent))
  have hback := (captures?_eq_some_iff.mp h).assembled
  rw [← hsame, hassemble] at hback
  exact Option.some.inj hback

/-- Without placeholders: the empty bindings make the template. -/
theorem expandWith_of_isStatic (hstatic : r.isStatic = true) :
    (r.expandWith (.ofBindings .empty)).result = .ok r.template := by
  rw [expandWith_of_outcome (.template hstatic rfl)]

end Captured

/-- The bindings of a path make a path of the route.  It is the same path if the values at each name
were the same, as they are where names are not repeated and where there are none. -/
theorem expandWith_capture? (r : Route) (path : String) (b : Bindings)
    (h : r.capture? path = some b) :
    ∃ made, (r.expandWith (.ofBindings b)).result = .ok made ∧ r.accepts made = true ∧
      ((∀ values, r.captures? path = some values → Consistent (r.names.zip values)) →
        made = path) ∧
      (r.names.Nodup → made = path) ∧ (r.isStatic = true → made = path) := by
  cases hstatic : r.isStatic with
  | true =>
    -- without placeholders the path is the template, and there are no bindings
    unfold capture? at h
    rw [hstatic] at h
    by_cases hpath : path = r.template
    · simp only [hpath, if_true, Option.some.injEq] at h
      subst h
      have haccepts : r.accepts r.template = true := by
        simp [accepts, hstatic]
      exact ⟨r.template, expandWith_of_isStatic hstatic, haccepts, fun _ => hpath.symm,
        fun _ => hpath.symm, fun _ => hpath.symm⟩
    · simp [hpath] at h
  | false =>
    have haccepts : r.accepts path = true := isSome_capture?_iff.mp (by rw [h]; rfl)
    obtain ⟨values, hvalues⟩ := exists_captures?_of_accepts haccepts
    have hb : b = .ofList (r.names.zip values) :=
      Option.some.inj (h.symm.trans (capture?_of_captures? hstatic hvalues))
    subst hb
    obtain ⟨made, hmade, hagain, hsame⟩ := expandWith_of_captures? hstatic hvalues
    refine ⟨made, hmade, hagain, fun hconsistent => hsame (hconsistent values hvalues), ?_, ?_⟩
    · intro hnodup
      apply hsame
      apply consistent_of_nodup
      rw [map_fst_zip_of_captures? hvalues]
      exact hnodup
    · intro htrue
      exact absurd htrue (by simp)

/-- The two values of `a` are the same, so the path comes back although `a` is repeated. -/
theorem expandWith_capture?_dashed :
    ∃ b, dashed.capture? "/1-2-3/1-2" = some b ∧
      (dashed.expandWith (.ofBindings b)).result = .ok "/1-2-3/1-2" ∧ ¬ dashed.names.Nodup := by
  obtain ⟨b, hb⟩ := Option.isSome_iff_exists.mp
    (by decide +kernel : (dashed.capture? "/1-2-3/1-2").isSome = true)
  obtain ⟨made, hmade, -, hconsistent, -⟩ := expandWith_capture? dashed "/1-2-3/1-2" b hb
  have hsame : made = "/1-2-3/1-2" := by
    apply hconsistent
    intro values hvalues
    have hfound : values = ["1-2", "3", "1-2"] :=
      Option.some.inj (hvalues.symm.trans (by decide +kernel))
    have hnames : dashed.names = ["a", "b", "a"] := by decide +kernel
    rw [hfound, hnames]
    decide
  refine ⟨b, hb, hsame ▸ hmade, by decide +kernel⟩

/-! ## From values and back -/

/-- A route with placeholders, given a value for each of them and a template that keeps these apart,
makes a path, and captures from it each name in the order of first appearance with the value that
the source has. -/
theorem capture?_expandWith (r : Route) (hdynamic : r.isStatic = false) (source : Source)
    (hlawful : source.Lawful)
    (hvalues : ∀ name ∈ r.names, ∃ value, source.lookup? name = some value ∧ IsValue value)
    (hsep : Segment.Separated source r.segments) :
    ∃ path b, (r.expandWith source).result = .ok path ∧ r.capture? path = some b ∧
      b.toList.map Binding.name = r.names.eraseDups ∧
      ∀ name ∈ r.names, b.get? name = source.lookup? name := by
  obtain ⟨name, hname⟩ := List.exists_mem_of_ne_nil _ (names_ne_nil_of_isStatic hdynamic)
  obtain ⟨value, hvalue, -⟩ := hvalues name hname
  have hempty := Source.isEmpty_of_lookup? hlawful hvalue
  obtain ⟨values, hsupplies, hfit⟩ := Source.exists_supplies_of_isValue hvalues
  obtain ⟨path, hpath, hassemble⟩ := expandWith_of_supplies hdynamic hempty hsupplies
  have hassigns : Segment.Assigns r.segments path values := ⟨hassemble, hfit⟩
  have hcaptures := captures?_of_separated hassigns hsupplies.lookup hsep
  have hnames := map_fst_zip_of_captures? hcaptures
  refine ⟨path, _, hpath, capture?_of_captures? hdynamic hcaptures, ?_, ?_⟩
  · rw [Bindings.map_name_ofList, hnames]
  · intro name hname
    rw [← hnames] at hname
    obtain ⟨value, hget, hpair⟩ := Bindings.exists_get?_ofList hname
    rw [hget]
    exact (Source.lookup?_of_mem_zip hsupplies.lookup hpair).symm

/-- The value of `a` holds the dash that stands before `b`, and comes back all the same: `b` has
none. -/
theorem capture?_expandWith_dashed :
    ∃ path b, (dashed.expandWith (.ofPairs [("a", "1-2"), ("b", "3")])).result = .ok path ∧
      path = "/1-2-3/1-2" ∧ dashed.capture? path = some b ∧
      b.toList.map Binding.name = ["a", "b"] ∧ b.get? "a" = some "1-2" ∧ b.get? "b" = some "3" := by
  have hnames : dashed.names = ["a", "b", "a"] := by decide +kernel
  have ha : (Source.ofPairs [("a", "1-2"), ("b", "3")]).lookup? "a" = some "1-2" := by decide
  have hb : (Source.ofPairs [("a", "1-2"), ("b", "3")]).lookup? "b" = some "3" := by decide
  have hlookup : (Segment.names dashed.segments).map
      (Source.ofPairs [("a", "1-2"), ("b", "3")]).lookup? = ["1-2", "3", "1-2"].map some := by
    rw [← names_eq, hnames, List.map_cons, List.map_cons, List.map_cons, ha, hb]
    rfl
  have hvalues : ∀ name ∈ dashed.names, ∃ value,
      (Source.ofPairs [("a", "1-2"), ("b", "3")]).lookup? name = some value ∧ IsValue value := by
    rw [hnames]
    intro name hname
    rcases List.mem_cons.mp hname with hE | hT
    · exact ⟨"1-2", hE ▸ ha, by decide⟩
    rcases List.mem_cons.mp hT with hE | hT
    · exact ⟨"3", hE ▸ hb, by decide⟩
    · exact ⟨"1-2", List.mem_singleton.mp hT ▸ ha, by decide⟩
  have hsep : Segment.Separated (.ofPairs [("a", "1-2"), ("b", "3")]) dashed.segments :=
    (Segment.atNeighbours_iff hlookup).mpr (by decide +kernel)
  obtain ⟨path, b, hpath, hcapture, horder, hback⟩ := capture?_expandWith dashed
    (by decide +kernel) _ (Source.lawful_ofPairs _) hvalues hsep
  rw [hnames] at horder hback
  have hmade : path = "/1-2-3/1-2" := by
    have hresult : (dashed.expandWith (.ofPairs [("a", "1-2"), ("b", "3")])).result =
        .ok "/1-2-3/1-2" := by decide +kernel
    exact Except.ok.inj (hpath.symm.trans hresult)
  refine ⟨path, b, hpath, hmade, hcapture, ?_, ?_, ?_⟩
  · rw [horder]
    decide
  · rw [hback "a" (by simp), ha]
  · rw [hback "b" (by simp), hb]

end Route

end PathTemplate
