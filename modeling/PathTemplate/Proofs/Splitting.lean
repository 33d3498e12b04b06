import PathTemplate.Proofs.Joining
import PathTemplate.Proofs.Merging
import PathTemplate.Proofs.Slashes

/-!
# Splitting: the paths of a template with a slash in it

A path of two templates with a slash between them is a path of the one, a slash and a path of the
other.  There is one place only to split it: all paths of a template have as many slashes as its
literal text (`count_slash_of_assigns`), so the slash at the joint has its number.

What is captured is local to the two parts.  Any other assignment of the whole path splits at the
same slash, and then has lesser lengths in the first part, or the same values there and lesser
lengths in the second (`assignsMost_join`).  A name that both parts have takes its value from the
second, since that comes later.

> `capture?_join`: a route of joined templates accepts the joined paths, captures from each part
> what the route of that part captures, and puts the second bindings into the first.
-/

namespace PathTemplate

namespace Segment

/-! ## Assignments of segments one behind the other -/

section Assigns

variable {segments front back : List Segment} {path : String} {values : List String}

theorem assigns_nil_iff : Assigns [] path values ↔ path = "" ∧ values = [] := by
  refine ⟨?_, ?_⟩
  · intro h
    have hnil : values = [] := List.length_eq_zero_iff.mp (length_of_assemble h.assembled)
    have hpath := h.assembled
    rw [hnil] at hpath
    exact ⟨(Option.some.inj hpath).symm, hnil⟩
  · rintro ⟨rfl, rfl⟩
    exact ⟨rfl, by simp⟩

theorem assigns_literal_iff {text : String} :
    Assigns (literal text :: segments) path values ↔
      ∃ rest, path = text ++ rest ∧ Assigns segments rest values := by
  refine ⟨?_, ?_⟩
  · intro h
    have hpath := h.assembled
    rw [assemble_literal, Option.map_eq_some_iff] at hpath
    obtain ⟨rest, hrest, hjoin⟩ := hpath
    exact ⟨rest, hjoin.symm, hrest, h.fit⟩
  · rintro ⟨rest, rfl, h⟩
    exact ⟨by rw [assemble_literal, h.assembled]; rfl, h.fit⟩

theorem assigns_placeholder_iff {name : String} :
    Assigns (placeholder name :: segments) path values ↔
      ∃ value others rest, path = value ++ rest ∧ values = value :: others ∧ IsValue value ∧
        Assigns segments rest others := by
  refine ⟨?_, ?_⟩
  · intro h
    cases values with
    | nil => exact absurd h.assembled (by simp [assemble])
    | cons value others =>
      have hpath := h.assembled
      rw [assemble_placeholder, Option.map_eq_some_iff] at hpath
      obtain ⟨rest, hrest, hjoin⟩ := hpath
      exact ⟨value, others, rest, hjoin.symm, rfl, h.fit value (List.mem_cons_self ..), hrest,
        fun other hother => h.fit other (List.mem_cons_of_mem _ hother)⟩
  · rintro ⟨value, others, rest, rfl, rfl, hvalue, h⟩
    refine ⟨by rw [assemble_placeholder, h.assembled]; rfl, ?_⟩
    intro other hother
    rcases List.mem_cons.mp hother with hE | hT
    · exact hE ▸ hvalue
    · exact h.fit other hT

/-- A path of segments behind others is a path of the others and one of the segments. -/
theorem assigns_append_iff :
    Assigns (front ++ back) path values ↔
      ∃ p q v w, path = p ++ q ∧ values = v ++ w ∧ Assigns front p v ∧ Assigns back q w := by
  induction front generalizing path values with
  | nil =>
    refine ⟨?_, ?_⟩
    · intro h
      exact ⟨"", path, [], values, by simp, rfl, assigns_nil_iff.mpr ⟨rfl, rfl⟩, h⟩
    · rintro ⟨p, q, v, w, rfl, rfl, hfront, hback⟩
      obtain ⟨rfl, rfl⟩ := assigns_nil_iff.mp hfront
      rw [String.empty_append]
      exact hback
  | cons segment front ih =>
    cases segment with
    | literal text =>
      rw [List.cons_append, assigns_literal_iff]
      refine ⟨?_, ?_⟩
      · rintro ⟨rest, rfl, h⟩
        obtain ⟨p, q, v, w, rfl, rfl, hfront, hback⟩ := ih.mp h
        exact ⟨text ++ p, q, v, w, (String.append_assoc ..).symm, rfl,
          assigns_literal_iff.mpr ⟨p, rfl, hfront⟩, hback⟩
      · rintro ⟨p, q, v, w, rfl, rfl, hfront, hback⟩
        obtain ⟨rest, rfl, hrest⟩ := assigns_literal_iff.mp hfront
        exact ⟨rest ++ q, String.append_assoc .., ih.mpr ⟨rest, q, v, w, rfl, rfl, hrest, hback⟩⟩
    | placeholder name =>
      rw [List.cons_append, assigns_placeholder_iff]
      refine ⟨?_, ?_⟩
      · rintro ⟨value, others, rest, rfl, rfl, hvalue, h⟩
        obtain ⟨p, q, v, w, rfl, rfl, hfront, hback⟩ := ih.mp h
        exact ⟨value ++ p, q, value :: v, w, (String.append_assoc ..).symm, rfl,
          assigns_placeholder_iff.mpr ⟨value, v, p, rfl, rfl, hvalue, hfront⟩, hback⟩
      · rintro ⟨p, q, v, w, rfl, rfl, hfront, hback⟩
        obtain ⟨value, others, rest, rfl, rfl, hvalue, hrest⟩ := assigns_placeholder_iff.mp hfront
        exact ⟨value, others ++ w, rest ++ q, String.append_assoc .., rfl, hvalue,
          ih.mpr ⟨rest, q, others, w, rfl, rfl, hrest, hback⟩⟩

/-- A path of two lists of segments with a slash between them is a path of the one, a slash and a
path of the other. -/
theorem assigns_join_iff :
    Assigns (front ++ literal "/" :: back) path values ↔
      ∃ p q v w, path = p ++ "/" ++ q ∧ values = v ++ w ∧ Assigns front p v ∧ Assigns back q w := by
  rw [assigns_append_iff]
  refine ⟨?_, ?_⟩
  · rintro ⟨p, q, v, w, rfl, rfl, hfront, hback⟩
    obtain ⟨rest, rfl, hrest⟩ := assigns_literal_iff.mp hback
    exact ⟨p, rest, v, w, (String.append_assoc ..).symm, rfl, hfront, hrest⟩
  · rintro ⟨p, q, v, w, rfl, rfl, hfront, hback⟩
    exact ⟨p, "/" ++ q, v, w, String.append_assoc .., rfl, hfront,
      assigns_literal_iff.mpr ⟨q, rfl, hback⟩⟩

/-- Lists of segments that say the same have the same assignments. -/
theorem Alike.assigns_iff (h : Alike front back) :
    Assigns front path values ↔ Assigns back path values := by
  rw [assigns_iff_fills, assigns_iff_fills, h.frame]

theorem Alike.assignsMost_iff (h : Alike front back) :
    AssignsMost front path values ↔ AssignsMost back path values := by
  refine ⟨?_, ?_⟩
  · intro hmost
    exact ⟨h.assigns_iff.mp hmost.toAssigns,
      fun other hother hne => hmost.most other (h.assigns_iff.mpr hother) hne⟩
  · intro hmost
    exact ⟨h.assigns_iff.mpr hmost.toAssigns,
      fun other hother hne => hmost.most other (h.assigns_iff.mp hother) hne⟩

end Assigns

/-! ## Where a path is split -/

/-- A path of a template has as many slashes as the literal text. -/
theorem count_slash_of_assigns {segments : List Segment} {path : String} {values : List String}
    (h : Assigns segments path values) :
    path.toList.count '/' = (literalText segments).count '/' := by
  have hnone : (values.flatMap String.toList).count '/' = 0 :=
    count_slash_eq_zero_iff.mpr fun value hvalue => (h.fit value hvalue).2
  rw [(perm_of_assemble h.assembled).count_eq '/', List.count_append, hnone, Nat.add_zero]

/-- A text is split in one way at the slash that has a certain number of slashes before it. -/
theorem eq_of_append_slash_eq {p q p' q' : List Char} (hcount : p.count '/' = p'.count '/')
    (h : p ++ '/' :: q = p' ++ '/' :: q') : p = p' := by
  -- if one front part were longer, it would have the slash at the end of the other besides
  have hshort : ∀ {p q p' q' part : List Char}, p.count '/' = p'.count '/' →
      p' = p ++ part → '/' :: q = part ++ '/' :: q' → p = p' := by
    intro p q p' q' part hcount hpart hslash
    cases part with
    | nil => rw [hpart, List.append_nil]
    | cons c part =>
      obtain ⟨rfl, -⟩ := List.cons.inj hslash
      rw [hpart, List.count_append, List.count_cons_self] at hcount
      omega
  rcases List.append_eq_append_iff.mp h with ⟨part, hpart, hslash⟩ | ⟨part, hpart, hslash⟩
  · exact hshort hcount hpart hslash
  · exact (hshort hcount.symm hpart hslash).symm

/-- Two paths of one template that begin one text, each with a slash behind it, are the same. -/
theorem eq_of_append_slash {segments : List Segment} {p q p' q' : String} {v v' : List String}
    (h : Assigns segments p v) (h' : Assigns segments p' v')
    (hpath : p ++ "/" ++ q = p' ++ "/" ++ q') : p = p' ∧ q = q' := by
  have hcount : p.toList.count '/' = p'.toList.count '/' := by
    rw [count_slash_of_assigns h, count_slash_of_assigns h']
  have hchars : p.toList ++ '/' :: q.toList = p'.toList ++ '/' :: q'.toList := by
    have htoList := congrArg String.toList hpath
    simpa using htoList
  have hfront := eq_of_append_slash_eq hcount hchars
  rw [hfront] at hchars
  exact ⟨String.toList_inj.mp hfront,
    String.toList_inj.mp (List.cons.inj (List.append_cancel_left hchars)).2⟩

/-! ## The greatest lengths -/

/-- With a slash between them, the assignments with the greatest lengths make the one with the
greatest lengths. -/
theorem assignsMost_join {front back : List Segment} {p q : String} {v w : List String}
    (hfront : AssignsMost front p v) (hback : AssignsMost back q w) :
    AssignsMost (front ++ literal "/" :: back) (p ++ "/" ++ q) (v ++ w) := by
  refine ⟨assigns_join_iff.mpr ⟨p, q, v, w, rfl, rfl, hfront.toAssigns, hback.toAssigns⟩, ?_⟩
  intro other hother hne
  obtain ⟨p', q', v', w', hpath, rfl, hfront', hback'⟩ := assigns_join_iff.mp hother
  obtain ⟨rfl, rfl⟩ := eq_of_append_slash hfront.toAssigns hfront' hpath
  rw [List.map_append, List.map_append]
  by_cases hsame : v' = v
  · -- the same in the first part, so lesser in the second
    subst hsame
    have hlt := hback.most w' hback' (fun heq => hne (by rw [heq]))
    exact List.append_left_lt hlt
  · have hlen : (v'.map String.length).length = (v.map String.length).length := by
      rw [List.length_map, List.length_map, length_of_assemble hfront'.assembled,
        length_of_assemble hfront.assembled]
    exact Frame.lex_append_of_lex (hfront.most v' hfront' hsame) hlen _ _

end Segment

namespace Route

/-! ## Routes of joined templates -/

section Join

variable {r₁ r₂ r : Route}

theorem alike_join (hjoin : r.template = r₁.template ++ "/" ++ r₂.template)
    (hapart : ¬ Straddles r₁.template.toList r₂.template.toList) :
    Segment.Alike r.segments (r₁.segments ++ .literal "/" :: r₂.segments) := by
  rw [r.segments_eq, r₁.segments_eq, r₂.segments_eq, hjoin]
  exact Segment.alike_scan_join hapart

theorem names_join
    (halike : Segment.Alike r.segments (r₁.segments ++ .literal "/" :: r₂.segments)) :
    r.names = r₁.names ++ r₂.names := by
  rw [names_eq, names_eq r₁, names_eq r₂, halike.names, Segment.names_append, Segment.names_literal]

/-- A joined route accepts the paths of the one route with a slash and a path of the other. -/
theorem accepts_join_iff
    (halike : Segment.Alike r.segments (r₁.segments ++ .literal "/" :: r₂.segments))
    {path : String} :
    r.accepts path = true ↔
      ∃ front back, path = front ++ "/" ++ back ∧ r₁.accepts front = true ∧
        r₂.accepts back = true := by
  simp only [accepts_iff_exists, halike.assigns_iff, Segment.assigns_join_iff]
  refine ⟨?_, ?_⟩
  · rintro ⟨values, front, back, v, w, hpath, -, hfront, hback⟩
    exact ⟨front, back, hpath, ⟨v, hfront⟩, w, hback⟩
  · rintro ⟨front, back, hpath, ⟨v, hfront⟩, w, hback⟩
    exact ⟨v ++ w, front, back, v, w, hpath, rfl, hfront, hback⟩

/-- A route accepts at most one beginning of a text that has a slash behind it. -/
theorem eq_of_accepts_append_slash {front back front' back' : String}
    (h : r.accepts front = true) (h' : r.accepts front' = true)
    (hpath : front ++ "/" ++ back = front' ++ "/" ++ back') : front = front' ∧ back = back' := by
  obtain ⟨v, hv⟩ := accepts_iff_exists.mp h
  obtain ⟨v', hv'⟩ := accepts_iff_exists.mp h'
  exact Segment.eq_of_append_slash hv hv' hpath

/-- A joined route captures what the two routes capture, one after the other. -/
theorem captures?_join
    (halike : Segment.Alike r.segments (r₁.segments ++ .literal "/" :: r₂.segments))
    {front back : String} {v w : List String} (hfront : r₁.captures? front = some v)
    (hback : r₂.captures? back = some w) :
    r.captures? (front ++ "/" ++ back) = some (v ++ w) := by
  rw [captures?_eq_some_iff] at hfront hback ⊢
  exact halike.assignsMost_iff.mpr (Segment.assignsMost_join hfront hback)

/-- The names of a path's bindings are those of the template, each once. -/
theorem map_name_of_captures? {path : String} {values : List String}
    (h : r.captures? path = some values) :
    (Bindings.ofList (r.names.zip values)).toList.map Binding.name = r.names.eraseDups := by
  rw [Bindings.map_name_ofList, map_fst_zip_of_captures? h]

theorem get?_of_captures?_eq_none_iff {path : String} {values : List String}
    (h : r.captures? path = some values) {name : String} :
    (Bindings.ofList (r.names.zip values)).get? name = none ↔ name ∉ r.names := by
  rw [Bindings.get?_ofList_eq_none_iff, map_fst_zip_of_captures? h]

/-- Each name of the template has a value in a path's bindings. -/
theorem exists_get?_of_captures? {path : String} {values : List String}
    (h : r.captures? path = some values) {name : String} (hname : name ∈ r.names) :
    ∃ value, (Bindings.ofList (r.names.zip values)).get? name = some value := by
  rw [← map_fst_zip_of_captures? h] at hname
  obtain ⟨value, hvalue, -⟩ := Bindings.exists_get?_ofList hname
  exact ⟨value, hvalue⟩

end Join

/-- Where no placeholder straddles the slash, the route of two joined templates accepts just the
joined paths, each of which splits in one way; and it binds what the second route binds, put into
what the first one binds. -/
theorem capture?_join (r₁ r₂ r : Route) (hjoin : r.template = r₁.template ++ "/" ++ r₂.template)
    (hapart : ¬ Straddles r₁.template.toList r₂.template.toList) (path : String) :
    (r.accepts path = true ↔
        ∃ front back, path = front ++ "/" ++ back ∧ r₁.accepts front = true ∧
          r₂.accepts back = true) ∧
      ∀ front back, path = front ++ "/" ++ back → r₁.accepts front = true →
        r₂.accepts back = true →
        (∀ front' back', path = front' ++ "/" ++ back' → r₁.accepts front' = true →
          r₂.accepts back' = true → front' = front ∧ back' = back) ∧
        ∃ b₁ b₂ b, r₁.capture? front = some b₁ ∧ r₂.capture? back = some b₂ ∧
          r.capture? path = some b ∧ b = b₁.insertAll (b₂.toList.map Binding.pair) ∧
          (∀ name ∈ r₂.names, ∃ value, b₂.get? name = some value ∧ b.get? name = some value) ∧
          (∀ name ∈ r₁.names, name ∉ r₂.names →
            ∃ value, b₁.get? name = some value ∧ b.get? name = some value) ∧
          b.toList.map Binding.name =
            r₁.names.eraseDups ++ r₂.names.eraseDups.filter (· ∉ r₁.names) := by
  have halike := alike_join hjoin hapart
  refine ⟨accepts_join_iff halike, ?_⟩
  rintro front back rfl hfront hback
  refine ⟨fun front' back' hpath hfront' _ => eq_of_accepts_append_slash hfront' hfront hpath.symm,
    ?_⟩
  obtain ⟨v, hv⟩ := exists_captures?_of_accepts hfront
  obtain ⟨w, hw⟩ := exists_captures?_of_accepts hback
  have hwell := Bindings.wellFormed_ofList (r₁.names.zip v)
  have hlen : r₁.names.length = v.length := (length_of_captures? hv).symm
  refine ⟨.ofList (r₁.names.zip v), .ofList (r₂.names.zip w),
    (Bindings.ofList (r₁.names.zip v)).insertAll (r₂.names.zip w), ?_, ?_, ?_, ?_, ?_, ?_, ?_⟩
  · rw [capture?_eq_map_captures?, hv, Option.map_some]
  · rw [capture?_eq_map_captures?, hw, Option.map_some]
  · rw [capture?_eq_map_captures?, captures?_join halike hv hw, Option.map_some, names_join halike,
      List.zip_append hlen, Bindings.ofList_append]
  · rw [Bindings.insertAll_toList_ofList hwell]
  · intro name hname
    obtain ⟨value, hvalue⟩ := exists_get?_of_captures? hw hname
    exact ⟨value, hvalue, by rw [Bindings.get?_insertAll hwell, hvalue, Option.some_or]⟩
  · intro name hname hother
    obtain ⟨value, hvalue⟩ := exists_get?_of_captures? hv hname
    refine ⟨value, hvalue, ?_⟩
    rw [Bindings.get?_insertAll hwell, (get?_of_captures?_eq_none_iff hw).mpr hother,
      Option.none_or, hvalue]
  · rw [Bindings.map_name_insertAll hwell, map_name_of_captures? hv, map_fst_zip_of_captures? hw]
    simp only [List.mem_eraseDups]

/-- A route whose template ends in an opening brace: `{a}{`. -/
def opened : Route := ofTemplate (Segment.render [.placeholder "a", .literal "\x7b"])

/-- A route whose template has a closing brace behind its first placeholder: `{a}}{b}`. -/
def closed : Route :=
  ofTemplate (Segment.render [.placeholder "a", .literal "\x7d", .placeholder "b"])

/-- The two with a slash between them: `{a}{/{a}}{b}`. -/
def openedClosed : Route := ofTemplate (opened.template ++ "/" ++ closed.template)

/-- A path of the first one: `1{{`. -/
def openedPath : String := String.ofList ['1', '{', '{']

/-- A path of the second one: `2}}3`. -/
def closedPath : String := String.ofList ['2', '}', '}', '3']

/-- The opening brace at the end stays literal, as another one comes first; the name that both have
takes the second value and stands in the first place. -/
theorem capture?_join_braces :
    opened.accepts openedPath = true ∧ closed.accepts closedPath = true ∧
      ∃ b, openedClosed.capture? (openedPath ++ "/" ++ closedPath) = some b ∧
        b.toList.map Binding.name = ["a", "b"] ∧
        b.get? "a" = some (String.ofList ['2', '}']) ∧
        (∀ front back, openedPath ++ "/" ++ closedPath = front ++ "/" ++ back →
          opened.accepts front = true → closed.accepts back = true →
          front = openedPath ∧ back = closedPath) := by
  have hapart : ¬ Straddles opened.template.toList closed.template.toList := by decide
  have hfront : opened.accepts openedPath = true := by decide +kernel
  have hback : closed.accepts closedPath = true := by decide +kernel
  have hnames : opened.names = ["a"] ∧ closed.names = ["a", "b"] := by decide +kernel
  obtain ⟨-, hsplit⟩ :=
    capture?_join opened closed openedClosed rfl hapart (openedPath ++ "/" ++ closedPath)
  obtain ⟨honly, b₁, b₂, b, -, hsecond, hb, -, hlater, -, horder⟩ :=
    hsplit openedPath closedPath rfl hfront hback
  rw [hnames.1, hnames.2] at horder
  rw [hnames.2] at hlater
  obtain ⟨value, hvalue, hget⟩ := hlater "a" (by simp)
  have hcaptured : (closed.capture? closedPath).bind (·.get? "a") =
      some (String.ofList ['2', '}']) := by
    decide +kernel
  rw [hsecond, Option.bind_some, hvalue] at hcaptured
  refine ⟨hfront, hback, b, hb, ?_, hcaptured ▸ hget, honly⟩
  rw [horder]
  decide

end Route

end PathTemplate
