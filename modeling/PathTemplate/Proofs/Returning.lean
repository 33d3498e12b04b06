import PathTemplate.Proofs.OrderedMap
import PathTemplate.Proofs.RoundTrip

/-!
# Returning: which values a route gives back

A route makes a path of values and captures values from that path.  These need not be the same:
`{a}{b}` makes `xyz` of `x` and `yz`, and of `xy` and `z` too, and captures the latter.  No way of
capturing could do better, since the path does not tell which of the two it was made of.

> `returns_iff_settled`: what is captured always makes the same path again, and it is what went in
> exactly if each value begins where the text before it last stands (`Segment.Settled`).  A template
> gives all values back exactly if there is a slash between any two neighbouring placeholders.

Names are taken to be distinct here.  For one direction of the second part a value has to be found
that is not given back: behind a text without a slash, the value that repeats the text between two
characters is one (`not_settles_repeating`).
-/

namespace PathTemplate

namespace Source

/-- Under each of the names the source has a value that fits. -/
def HasValues (source : Source) (names : List String) : Prop :=
  ∀ name ∈ names, ∃ value, source.lookup? name = some value ∧ IsValue value

/-- A source that has the value under one name and an `x` under every other. -/
def favouring (name value : String) : Source where
  lookup? other := some (if other = name then value else "x")
  isEmpty := false

theorem lawful_favouring (name value : String) : (favouring name value).Lawful := by
  intro hempty
  exact absurd hempty (by simp [favouring])

theorem lookup?_favouring (name value : String) :
    (favouring name value).lookup? name = some value := by
  simp [favouring]

theorem hasValues_favouring {name value : String} (hvalue : IsValue value) (names : List String) :
    (favouring name value).HasValues names := by
  intro other _
  by_cases h : other = name
  · exact ⟨value, h ▸ lookup?_favouring name value, hvalue⟩
  · exact ⟨"x", by simp [favouring, h], by decide⟩

/-- Values that are found in a source which has only fitting ones fit. -/
theorem isValue_of_hasValues {source : Source} {names : List String} (h : source.HasValues names) :
    ∀ name ∈ names, ∀ value, source.lookup? name = some value → IsValue value := by
  intro name hname value hvalue
  obtain ⟨found, hfound, hfit⟩ := h name hname
  rw [hvalue, Option.some.injEq] at hfound
  exact hfound ▸ hfit

end Source

/-! ## Slashes between placeholders -/

/-- Behind any text, the text between two like characters begins too early: the text stands again
before the second one. -/
theorem Frame.not_settles_repeating (gap : List Char) (c : Char) :
    ¬ Frame.Settles gap (c :: (gap ++ [c])) := by
  intro h
  have hnil : c :: gap = [] := h (c :: gap) [c] (by simp) (by simp) ⟨gap ++ [c], by simp⟩
  exact absurd hnil (by simp)

namespace Segment

/-- Any two neighbouring placeholders have a slash in the text between them. -/
def Slashed (segments : List Segment) : Prop :=
  ∀ (front : List Segment) (first : String) (between : List Segment) (second : String)
    (back : List Segment),
    segments = front ++ placeholder first :: (between ++ placeholder second :: back) →
    names between = [] → '/' ∈ (render between).toList

variable {segments : List Segment}

/-- A slash keeps any two values apart. -/
theorem separated_of_slashed (h : Slashed segments) (source : Source) :
    Separated source segments := by
  intro front first between second back value hsplit hnone _
  have hslash := h front first between second back hsplit hnone
  exact ⟨List.ne_nil_of_mem hslash, .inl hslash⟩

/-- A text without slashes between two characters is a value. -/
theorem isValue_repeating {text : String} (h : '/' ∉ text.toList) :
    IsValue ("x" ++ text ++ "x") := by
  refine ⟨?_, ?_⟩
  · intro hempty
    have hchars := congrArg String.toList hempty
    simp at hchars
  · simp [h]

/-- Templates that are settled whatever the values are have slashes. -/
theorem slashed_of_forall_settled
    (h : ∀ source : Source, source.Lawful → source.HasValues (names segments) →
      Settled source segments) : Slashed segments := by
  intro front first between second back hsplit hnone
  apply Classical.byContradiction
  intro hslash
  -- behind a text without a slash the second placeholder is given that text, an `x` on each side
  have hsettled := h (.favouring second ("x" ++ render between ++ "x"))
    (Source.lawful_favouring _ _) (Source.hasValues_favouring (isValue_repeating hslash) _)
  have hhere := hsettled front first between second back _ hsplit hnone
    (Source.lookup?_favouring _ _)
  have hchars : ("x" ++ render between ++ "x").toList =
      'x' :: ((render between).toList ++ ['x']) := by
    rw [String.toList_append, String.toList_append]
    rfl
  rw [hchars] at hhere
  exact Frame.not_settles_repeating _ _ hhere

/-- A template is settled whatever the values are exactly if it has slashes. -/
theorem forall_settled_iff_slashed :
    (∀ source : Source, source.Lawful → source.HasValues (names segments) →
      Settled source segments) ↔ Slashed segments := by
  refine ⟨slashed_of_forall_settled, ?_⟩
  intro h source _ hvalues
  exact settled_of_separated (Source.isValue_of_hasValues hvalues) (separated_of_slashed h source)

end Segment

namespace Route

/-- A route makes a path of the values of a source, and captures these very values from it. -/
def Returns (r : Route) (source : Source) : Prop :=
  ∃ path b, (r.expandWith source).result = .ok path ∧ r.capture? path = some b ∧
    ∀ name ∈ r.names, b.get? name = source.lookup? name

section Distinct

variable {r : Route} {source : Source} {path : String} {values taken : List String}

theorem nodup_map_fst_zip (hnodup : r.names.Nodup) (h : r.captures? path = some taken) :
    ((r.names.zip taken).map Prod.fst).Nodup := by
  rw [map_fst_zip_of_captures? h]
  exact hnodup

/-- Under distinct names the bindings of a path have the captured values. -/
theorem map_get?_of_captures? (hnodup : r.names.Nodup) (h : r.captures? path = some taken) :
    r.names.map (Bindings.ofList (r.names.zip taken)).get? = taken.map some :=
  supplies_of_consistent h (consistent_of_nodup (nodup_map_fst_zip hnodup h))

/-- Under distinct names, what is captured is what went in if it is so name by name. -/
theorem forall_get?_eq_iff (hnodup : r.names.Nodup) (h : r.captures? path = some taken)
    (hlookup : r.names.map source.lookup? = values.map some) :
    (∀ name ∈ r.names,
      (Bindings.ofList (r.names.zip taken)).get? name = source.lookup? name) ↔ taken = values := by
  rw [← List.map_inj_left, map_get?_of_captures? hnodup h, hlookup]
  exact List.map_inj_right (fun _ _ => Option.some.inj)

/-- Distinct names are bound in template order. -/
theorem map_name_of_nodup (hnodup : r.names.Nodup) (h : r.captures? path = some taken) :
    (Bindings.ofList (r.names.zip taken)).toList.map Binding.name = r.names := by
  rw [← Bindings.map_fst_pair, Bindings.toList_ofList_of_nodup (nodup_map_fst_zip hnodup h),
    map_fst_zip_of_captures? h]

/-- Of values for all its placeholders a route makes a path, and captures bindings from it that make
the same path.  They have the values that went in if and only if these are settled. -/
theorem exists_capture?_of_hasValues (hdynamic : r.isStatic = false) (hnodup : r.names.Nodup)
    (hlawful : source.Lawful) (hvalues : source.HasValues r.names) :
    ∃ path b, (r.expandWith source).result = .ok path ∧ r.capture? path = some b ∧
      b.toList.map Binding.name = r.names ∧
      (r.expandWith (.ofBindings b)).result = .ok path ∧
      ((∀ name ∈ r.names, b.get? name = source.lookup? name) ↔
        Segment.Settled source r.segments) := by
  obtain ⟨name, hname⟩ := List.exists_mem_of_ne_nil _ (names_ne_nil_of_isStatic hdynamic)
  obtain ⟨value, hvalue, -⟩ := hvalues name hname
  have hempty := Source.isEmpty_of_lookup? hlawful hvalue
  obtain ⟨values, hsupplies, hfit⟩ := Source.exists_supplies_of_isValue hvalues
  obtain ⟨path, hpath, hassemble⟩ := expandWith_of_supplies hdynamic hempty hsupplies
  have hassigns : Segment.Assigns r.segments path values := ⟨hassemble, hfit⟩
  -- there is an assignment, so something is captured, if not this assignment
  have haccepts : r.accepts path = true := accepts_iff_exists.mpr ⟨values, hassigns⟩
  obtain ⟨taken, htaken⟩ := exists_captures?_of_accepts haccepts
  obtain ⟨made, hmade, -, hsame⟩ := expandWith_of_captures? hdynamic htaken
  have hagain : made = path := hsame (consistent_of_nodup (nodup_map_fst_zip hnodup htaken))
  refine ⟨path, _, hpath, capture?_of_captures? hdynamic htaken, map_name_of_nodup hnodup htaken,
    hagain ▸ hmade, ?_⟩
  rw [forall_get?_eq_iff hnodup htaken hsupplies.lookup,
    ← captures?_eq_iff_settled hassigns hsupplies.lookup, htaken, Option.some.injEq]

/-- A route gives values back exactly if each of them begins where the text before it last
stands. -/
theorem returns_iff (hdynamic : r.isStatic = false) (hnodup : r.names.Nodup)
    (hlawful : source.Lawful) (hvalues : source.HasValues r.names) :
    r.Returns source ↔ Segment.Settled source r.segments := by
  obtain ⟨path, b, hpath, hb, -, -, hiff⟩ :=
    exists_capture?_of_hasValues hdynamic hnodup hlawful hvalues
  refine ⟨?_, fun hsettled => ⟨path, b, hpath, hb, hiff.mpr hsettled⟩⟩
  intro ⟨path', b', hpath', hb', hback⟩
  have hsame : path' = path := Except.ok.inj (hpath'.symm.trans hpath)
  subst hsame
  have hsame : b' = b := Option.some.inj (hb'.symm.trans hb)
  subst hsame
  exact hiff.mp hback

end Distinct

/-- A route with placeholders of distinct names, given a value for each of them, makes a path and
captures bindings from it.  These have the names in template order and make the same path again;
they have the values that went in exactly if each value begins where the text before it last stands.
All values there can be are given back exactly if there is a slash between any two neighbouring
placeholders. -/
theorem returns_iff_settled (r : Route) (hdynamic : r.isStatic = false) (hnodup : r.names.Nodup) :
    (∀ source : Source, source.Lawful → source.HasValues r.names →
      ∃ path b, (r.expandWith source).result = .ok path ∧ r.capture? path = some b ∧
        b.toList.map Binding.name = r.names ∧
        (r.expandWith (.ofBindings b)).result = .ok path ∧
        ((∀ name ∈ r.names, b.get? name = source.lookup? name) ↔
          Segment.Settled source r.segments)) ∧
      ((∀ source : Source, source.Lawful → source.HasValues r.names → r.Returns source) ↔
        Segment.Slashed r.segments) := by
  refine ⟨fun source => exists_capture?_of_hasValues hdynamic hnodup, ?_⟩
  rw [← Segment.forall_settled_iff_slashed, ← names_eq]
  refine forall_congr' fun source => forall_congr' fun hlawful => forall_congr' fun hvalues => ?_
  exact returns_iff hdynamic hnodup hlawful hvalues

/-- A route with a dot between two placeholders. -/
def dotted : Route := ofTemplate "/users/{id}.{format}"

theorem names_dotted : dotted.names = ["id", "format"] := by decide +kernel

theorem segments_dotted : dotted.segments =
    [.literal "/users/", .placeholder "id", .literal ".", .placeholder "format"] := by
  decide +kernel

theorem hasValues_dotted {id format : String} (hid : IsValue id) (hformat : IsValue format) :
    (Source.ofPairs [("id", id), ("format", format)]).HasValues dotted.names := by
  rw [names_dotted]
  intro name hname
  rcases List.mem_cons.mp hname with hE | hT
  · subst hE
    exact ⟨id, rfl, hid⟩
  · rw [List.mem_singleton] at hT
    subst hT
    exact ⟨format, rfl, hformat⟩

/-- Of the two dots in `/users/1.tar.gz` the last one counts, so `1.tar` and `gz` are given back.
Other values are not, as there is no slash between the placeholders. -/
theorem returns_iff_settled_dotted :
    dotted.Returns (.ofPairs [("id", "1.tar"), ("format", "gz")]) ∧
      ¬ ∀ source : Source, source.Lawful → source.HasValues dotted.names →
        dotted.Returns source := by
  obtain ⟨hback, hall⟩ := returns_iff_settled dotted (by decide +kernel)
    (by rw [names_dotted]; decide)
  refine ⟨?_, ?_⟩
  · have hvalues : (Source.ofPairs [("id", "1.tar"), ("format", "gz")]).HasValues dotted.names :=
      hasValues_dotted (by decide) (by decide)
    obtain ⟨path, b, hpath, hb, -, -, hiff⟩ := hback _ (Source.lawful_ofPairs _) hvalues
    refine ⟨path, b, hpath, hb, hiff.mpr ?_⟩
    rw [names_eq] at hvalues
    apply Segment.settled_of_separated (Source.isValue_of_hasValues hvalues)
    have hlookup : (Segment.names dotted.segments).map
        (Source.ofPairs [("id", "1.tar"), ("format", "gz")]).lookup? =
          ["1.tar", "gz"].map some := by
      rw [segments_dotted]
      rfl
    rw [Segment.Separated, Segment.atNeighbours_iff hlookup, segments_dotted]
    decide
  · rw [hall]
    intro hslashed
    have hslash := hslashed [.literal "/users/"] "id" [.literal "."] "format" [] segments_dotted rfl
    exact absurd hslash (by decide)

/-- Given `1` and `tar.gz`, the route makes the same path, and these values do not come back. -/
theorem not_returns_dotted :
    dotted.isStatic = false ∧ dotted.names.Nodup ∧
      (Source.ofPairs [("id", "1"), ("format", "tar.gz")]).Lawful ∧
      (Source.ofPairs [("id", "1"), ("format", "tar.gz")]).HasValues dotted.names ∧
      (dotted.expandWith (.ofPairs [("id", "1"), ("format", "tar.gz")])).result =
        .ok "/users/1.tar.gz" ∧
      dotted.capture? "/users/1.tar.gz" = some (.ofList [("id", "1.tar"), ("format", "gz")]) ∧
      ¬ dotted.Returns (.ofPairs [("id", "1"), ("format", "tar.gz")]) := by
  have hpath : (dotted.expandWith (.ofPairs [("id", "1"), ("format", "tar.gz")])).result =
      .ok "/users/1.tar.gz" := by decide +kernel
  have hcapture : dotted.capture? "/users/1.tar.gz" =
      some (.ofList [("id", "1.tar"), ("format", "gz")]) := by decide +kernel
  refine ⟨by decide +kernel, by rw [names_dotted]; decide, Source.lawful_ofPairs _,
    hasValues_dotted (by decide) (by decide), hpath, hcapture, ?_⟩
  intro ⟨path, b, hmade, hb, hback⟩
  have hsame : path = "/users/1.tar.gz" := Except.ok.inj (hmade.symm.trans hpath)
  subst hsame
  have hsame : b = .ofList [("id", "1.tar"), ("format", "gz")] :=
    Option.some.inj (hb.symm.trans hcapture)
  subst hsame
  have hid := hback "id" (by rw [names_dotted]; simp)
  exact absurd hid (by decide)

end Route

end PathTemplate
