import PathTemplate.Bindings.Iter
import PathTemplate.Proofs.Escaping
import PathTemplate.Proofs.Rendering

/-!
# Renaming: names only name

A template can be given other names, and nothing else about it changes.  Written with the new names
and read again it has the segments it had, renamed: the new names are names, so no brace of theirs
can open or close anything (`canonical_map_rename`).  The frame and the pattern have no names in
them.

> `capture?_rename`: a renamed route has the new names in the old places, the same pattern and the
> same paths.  If different names stay different, it binds the same values in the same order under
> the new names.  And whether they stay different or not, it makes the path that the route makes
> when each of its names is looked up under the new one, and misses the new name where the route
> misses the old one.

Different names have to stay different where values are bound.  If two of them become one, there is
one entry for both.
-/

namespace PathTemplate

/-- Different names stay different. -/
def KeepsApart (f : String → String) (names : List String) : Prop :=
  ∀ first ∈ names, ∀ second ∈ names, f first = f second → first = second

instance (f : String → String) : DecidablePred (KeepsApart f) := fun names =>
  inferInstanceAs (Decidable (∀ first ∈ names, ∀ second ∈ names, f first = f second →
    first = second))

/-! ## Entries -/

/-- The entry under another name. -/
def Binding.rename (f : String → String) (b : Binding) : Binding := ⟨f b.name, b.value⟩

namespace Bindings

variable {f : String → String}

/-- An entry goes to the same place under another name, if that is the name of no other entry. -/
theorem put_map_rename (entry : Binding) {entries : List Binding}
    (h : ∀ other ∈ entries, f other.name = f entry.name → other.name = entry.name) :
    put (entry.rename f) (entries.map (Binding.rename f)) =
      (put entry entries).map (Binding.rename f) := by
  induction entries with
  | nil => rfl
  | cons first rest ih =>
    have hrest := ih fun other hother => h other (List.mem_cons_of_mem _ hother)
    by_cases hname : first.name = entry.name
    · have hrenamed : (first.rename f).name = (entry.rename f).name := congrArg f hname
      rw [List.map_cons, put, if_pos hrenamed, put, if_pos hname, List.map_cons]
    · have hrenamed : (first.rename f).name ≠ (entry.rename f).name :=
        fun heq => hname (h first (List.mem_cons_self ..) heq)
      rw [List.map_cons, put, if_neg hrenamed, put, if_neg hname, List.map_cons, hrest]

/-- Pairs under other names make the same entries under those names, if different names stay
different. -/
theorem toList_ofList_map {pairs : List (String × String)} (h : KeepsApart f (pairs.map Prod.fst)) :
    (ofList (pairs.map (Prod.map f id))).toList =
      (ofList pairs).toList.map (Binding.rename f) := by
  induction pairs using List.reverseRecOn with
  | nil => rfl
  | append_singleton pairs pair ih =>
    rw [List.map_append] at h
    have hpairs := ih fun first hfirst second hsecond =>
      h first (List.mem_append_left _ hfirst) second (List.mem_append_left _ hsecond)
    rw [List.map_append, List.map_singleton, toList_ofList_concat, toList_ofList_concat, hpairs]
    apply put_map_rename ⟨pair.1, pair.2⟩
    intro other hother
    have hcame : other.name ∈ pairs.map Prod.fst := by
      rw [← List.mem_eraseDups, ← map_name_ofList]
      exact List.mem_map_of_mem hother
    exact h other.name (List.mem_append_left _ hcame) pair.1 (by simp)

/-- Two names that become one have one entry. -/
example : (ofList ([("a", "1"), ("b", "2")].map (Prod.map (fun _ => "c") id))).toList =
    [⟨"c", "2"⟩] := by
  decide

end Bindings

/-! ## Segments -/

namespace Segment

variable {f : String → String} {segments : List Segment}

/-- Renamed with names, segments in the form of a reading are in that form still. -/
theorem canonical_map_rename (h : Canonical segments)
    (hf : ∀ name ∈ names segments, IsName (f name)) : Canonical (segments.map (rename f)) := by
  refine ⟨?_, ?_, ?_⟩
  · intro name hname
    rw [names_map_rename] at hname
    obtain ⟨old, hold, rfl⟩ := List.mem_map.mp hname
    exact hf old hold
  · intro text htext
    obtain ⟨segment, hsegment, hrename⟩ := List.mem_map.mp htext
    exact h.literals text (rename_eq_literal_iff.mp hrename ▸ hsegment)
  · intro front a b back hsplit
    obtain ⟨before, behind, rfl, -, hbehind⟩ := List.map_eq_append_iff.mp hsplit
    obtain ⟨first, rest, rfl, hfirst, hrest⟩ := List.map_eq_cons_iff.mp hbehind
    obtain ⟨second, rest, rfl, hsecond, -⟩ := List.map_eq_cons_iff.mp hrest
    rw [rename_eq_literal_iff] at hfirst hsecond
    exact h.apart before a b rest (by rw [hfirst, hsecond])

section Fill

variable {source looked : Source}

theorem fill_rename {segment : Segment}
    (h : ∀ name ∈ names [segment], looked.lookup? name = source.lookup? (f name)) :
    fill source (segment.rename f) = (fill looked segment).mapError f := by
  cases segment with
  | literal text => rfl
  | placeholder name =>
    have hname := h name (List.mem_cons_self ..)
    simp only [rename, fill, hname]
    cases source.lookup? (f name) with
    | none => rfl
    | some value =>
      by_cases hvalue : value = ""
      · simp only [hvalue, if_true]
        rfl
      · simp only [hvalue, if_false]
        rfl

/-- Renamed segments are filled as the segments are when each name is looked up under the new
one. -/
theorem fillAll_map_rename
    (h : ∀ name ∈ names segments, looked.lookup? name = source.lookup? (f name)) :
    fillAll source (segments.map (rename f)) = (fillAll looked segments).mapError f := by
  induction segments with
  | nil => rfl
  | cons segment segments ih =>
    have hsplit : names (segment :: segments) = names [segment] ++ names segments :=
      names_append [segment] segments
    rw [hsplit] at h
    rw [List.map_cons, fillAll_cons, fillAll_cons,
      fill_rename fun name hname => h name (List.mem_append_left _ hname),
      ih fun name hname => h name (List.mem_append_right _ hname)]
    cases fill looked segment with
    | error name => rfl
    | ok text =>
      cases fillAll looked segments with
      | error name => rfl
      | ok path => rfl

end Fill

end Segment

/-! ## Routes -/

namespace Route

section Renamed

variable {f : String → String} {r renamed : Route}

/-- The template with other names is read as the segments with other names. -/
theorem segments_of_rename (hf : ∀ name ∈ r.names, Segment.IsName (f name))
    (htemplate : renamed.template = Segment.render (r.segments.map (Segment.rename f))) :
    renamed.segments = r.segments.map (Segment.rename f) := by
  rw [names_eq] at hf
  rw [renamed.segments_eq, Segment.scan_eq_iff]
  refine ⟨Segment.canonical_map_rename ?_ hf, htemplate.symm⟩
  rw [r.segments_eq]
  exact Segment.canonical_scan r.template

variable (hsegments : renamed.segments = r.segments.map (Segment.rename f))
include hsegments

theorem names_rename : renamed.names = r.names.map f := by
  rw [names_eq, names_eq, hsegments, Segment.names_map_rename]

theorem isStatic_rename : renamed.isStatic = r.isStatic := by
  unfold isStatic
  rw [names_rename hsegments, List.isEmpty_map]

theorem pattern_rename : renamed.pattern = r.pattern := by
  rw [pattern_eq, pattern_eq, hsegments, Pattern.ofSegments_map_rename]

theorem captures?_rename (path : String) : renamed.captures? path = r.captures? path := by
  rw [captures?_eq, captures?_eq, hsegments, Frame.ofSegments_map_rename]

theorem accepts_rename (path : String) : renamed.accepts path = r.accepts path := by
  rw [accepts_eq_isSome_captures?, accepts_eq_isSome_captures?, captures?_rename hsegments]

/-- A renamed route binds the same values under the new names. -/
theorem map_all_capture?_rename (hapart : KeepsApart f r.names) (path : String) :
    (renamed.capture? path).map (·.iter.all) =
      (r.capture? path).map fun b => b.iter.all.map (Binding.rename f) := by
  rw [capture?_eq_map_captures?, capture?_eq_map_captures?, captures?_rename hsegments,
    names_rename hsegments]
  cases hcaptures : r.captures? path with
  | none => rfl
  | some values =>
    rw [← map_fst_zip_of_captures? hcaptures] at hapart
    simp only [Option.map_some, Bindings.Iter.all_eq_rest]
    rw [List.zip_map_left]
    exact congrArg some (Bindings.toList_ofList_map hapart)

section Expand

variable {source looked : Source}
  (hlookup : ∀ name ∈ r.names, looked.lookup? name = source.lookup? (f name))
include hlookup

theorem fillAll_rename :
    Segment.fillAll source renamed.segments = (Segment.fillAll looked r.segments).mapError f := by
  rw [names_eq] at hlookup
  rw [hsegments, Segment.fillAll_map_rename hlookup]

variable (hdynamic : r.isStatic = false) (hsource : source.isEmpty = false)
  (hlooked : looked.isEmpty = false)
include hdynamic hsource hlooked

/-- A renamed route makes the path that the route makes when each name is looked up under the new
one. -/
theorem expandWith_rename_eq_ok_iff {path : String} :
    (renamed.expandWith source).result = .ok path ↔ (r.expandWith looked).result = .ok path := by
  have hrenamed : renamed.isStatic = false := (isStatic_rename hsegments).trans hdynamic
  rw [expandWith_eq_ok_iff hrenamed hsource, expandWith_eq_ok_iff hdynamic hlooked,
    fillAll_rename hsegments hlookup]
  cases Segment.fillAll looked r.segments with
  | ok made => rfl
  | error name => simp [Except.mapError]

/-- A renamed route misses the new name where the route misses the old one. -/
theorem expandWith_rename_of_missing {name : String}
    (h : (r.expandWith looked).result = .error (.missing name r.template)) :
    (renamed.expandWith source).result = .error (.missing (f name) renamed.template) := by
  have hrenamed : renamed.isStatic = false := (isStatic_rename hsegments).trans hdynamic
  rw [expandWith_eq_missing_iff hdynamic hlooked] at h
  rw [expandWith_eq_missing_iff hrenamed hsource, fillAll_rename hsegments hlookup, h]
  rfl

end Expand

end Renamed

/-- If the template of a route is written with other names and makes a route, this has the new names
in the old places, the same pattern and the same paths.  If different names stay different, it binds
the same values in the same order under the new names.  And from any source that is not empty, it
makes the path that the route makes when each of its names is looked up under the new one, and
misses the new name where the route misses the old one. -/
theorem capture?_rename (r renamed : Route) (f : String → String)
    (hf : ∀ name ∈ r.names, Segment.IsName (f name))
    (htemplate : renamed.template = Segment.render (r.segments.map (Segment.rename f))) :
    renamed.names = r.names.map f ∧ renamed.pattern = r.pattern ∧
      (∀ path, renamed.accepts path = r.accepts path) ∧
      (KeepsApart f r.names → ∀ path, (renamed.capture? path).map (·.iter.all) =
        (r.capture? path).map fun b => b.iter.all.map (Binding.rename f)) ∧
      (r.isStatic = false → ∀ source looked : Source, source.isEmpty = false →
        looked.isEmpty = false →
        (∀ name ∈ r.names, looked.lookup? name = source.lookup? (f name)) →
        (∀ path, (renamed.expandWith source).result = .ok path ↔
          (r.expandWith looked).result = .ok path) ∧
        ∀ name, (r.expandWith looked).result = .error (.missing name r.template) →
          (renamed.expandWith source).result = .error (.missing (f name) renamed.template)) := by
  have hsegments := segments_of_rename hf htemplate
  refine ⟨names_rename hsegments, pattern_rename hsegments, accepts_rename hsegments,
    map_all_capture?_rename hsegments, ?_⟩
  intro hdynamic source looked hsource hlooked hlookup
  exact ⟨fun _ => expandWith_rename_eq_ok_iff hsegments hlookup hdynamic hsource hlooked,
    fun _ => expandWith_rename_of_missing hsegments hlookup hdynamic hsource hlooked⟩

/-- One name with a slash, and the others with a letter that is not ASCII. -/
def slashed (name : String) : String := if name = "a" then "x/y" else "é"

/-- A route that has literal braces between two placeholders, and a name twice: `{a}}{{b}/{a}`. -/
def braced : Route :=
  ofTemplate (Segment.render
    [.placeholder "a", .literal "\x7d\x7b", .placeholder "b", .literal "/", .placeholder "a"])

/-- The same with these names: `{x/y}}{{é}/{x/y}`. -/
def bracedRenamed : Route :=
  ofTemplate (Segment.render
    [.placeholder "x/y", .literal "\x7d\x7b", .placeholder "é", .literal "/", .placeholder "x/y"])

/-- The braces stay literal, the second value of the first name stays, and what the one route misses
the other one misses. -/
theorem capture?_rename_braced :
    bracedRenamed.names = ["x/y", "é", "x/y"] ∧
      (bracedRenamed.capture? (String.ofList ['1', '}', '{', '2', '/', '3'])).map (·.iter.all) =
        some [⟨"x/y", "3"⟩, ⟨"é", "2"⟩] ∧
      (bracedRenamed.expandWith (.ofPairs [("é", "2"), ("x/y", "1")])).result =
        .ok (String.ofList ['1', '}', '{', '2', '/', '1']) ∧
      (bracedRenamed.expandWith (.ofPairs [("b", "2"), ("x/y", "1")])).result =
        .error (.missing "é" bracedRenamed.template) := by
  have hnames : braced.names = ["a", "b", "a"] := by decide +kernel
  have hslashed : ∀ name ∈ braced.names, Segment.IsName (slashed name) := by
    intro name _
    by_cases h : name = "a"
    · simp [slashed, h, Segment.IsName, isBrace]
    · simp [slashed, h, Segment.IsName, isBrace]
  have htemplate : bracedRenamed.template =
      Segment.render (braced.segments.map (Segment.rename slashed)) := by decide +kernel
  obtain ⟨hrenamed, -, -, hcapture, hexpand⟩ :=
    capture?_rename braced bracedRenamed slashed hslashed htemplate
  have hdynamic : braced.isStatic = false := by decide +kernel
  rw [hnames] at hrenamed hcapture hexpand
  refine ⟨hrenamed, ?_, ?_, ?_⟩
  · rw [hcapture (by decide)]
    decide +kernel
  · rw [(hexpand hdynamic _ (.ofPairs [("b", "2"), ("a", "1")]) rfl rfl (by decide)).1]
    decide +kernel
  · apply (hexpand hdynamic _ (.ofPairs [("a", "1")]) rfl rfl (by decide)).2 "b"
    decide +kernel

end Route

end PathTemplate
