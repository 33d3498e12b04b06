import PathTemplate.Proofs.Outcomes
import PathTemplate.Proofs.Places

/-!
# Rendering: reading and writing undo each other

Written as text, segments can run into each other: two literals side by side are read as one, and a
literal that hides a placeholder is read as what it hides.  Segments in the form of a reading
(`Segment.Canonical`) cannot.  A literal may well end in an opening brace and have a placeholder
behind it, but no placeholder comes of that, since the one behind it begins with a brace as well
(`not_placeholderAt_append`).

> `scan_eq_iff`: a list of segments is the reading of a text exactly if it is in the form of a
> reading and written as that text.
> `scan_render_inverse`: so reading and writing are inverse; and a route that puts in each
> placeholder for itself makes its own template.
-/

namespace PathTemplate

namespace Segment

/-! ## Writing and reading again -/

/-- What comes behind the first segment of a reading is in the form of a reading. -/
theorem canonical_of_cons {segment : Segment} {segments : List Segment}
    (h : Canonical (segment :: segments)) : Canonical segments := by
  refine ⟨?_, fun text hmem => h.literals text (List.mem_cons_of_mem _ hmem), ?_⟩
  · intro name hname
    apply h.names name
    cases segment with
    | literal text => exact hname
    | placeholder first => exact List.mem_cons_of_mem _ hname
  · intro front a b back hsplit
    exact h.apart (segment :: front) a b back (by rw [hsplit]; rfl)

theorem isName_of_canonical {name : String} {segments : List Segment}
    (h : Canonical (placeholder name :: segments)) : IsName name :=
  h.names name (List.mem_cons_self ..)

theorem toList_source_append (name : String) (rest : List Char) :
    (placeholder name).source.toList ++ rest = '{' :: (name.toList ++ '}' :: rest) := by
  simp only [source, String.toList_append, List.append_assoc]
  rfl

/-- A placeholder that was written is read again, behind the characters in hand. -/
theorem readChars_source {name : String} (h : IsName name) (held rest : List Char) :
    readChars held ((placeholder name).source.toList ++ rest) =
      ofLiteral held.reverse ++ placeholder name :: readChars [] rest := by
  have hchars : name.toList ≠ [] := fun hnil => h.1 (String.toList_eq_nil_iff.mp hnil)
  rw [toList_source_append, readChars_placeholder hchars h.2, String.ofList_toList]

/-- Text in which no placeholder stands opens none together with a text that begins with an opening
brace. -/
theorem not_placeholderAt_append {text rest : List Char} (h : ∀ i e, ¬ PlaceholderAt text i e)
    (hrest : ∀ c ∈ rest.head?, c = '{') {i e : Nat} (hi : i < text.length) :
    ¬ PlaceholderAt (text ++ rest) i e := by
  intro hplaceholder
  by_cases he : e < text.length
  · exact h i e (placeholderAt_of_append hplaceholder he)
  · -- then the brace at which `rest` begins is the closing one, or stands in the name
    cases rest with
    | nil =>
      have hclosing := hplaceholder.closing
      rw [List.append_nil, List.getElem?_eq_none (by omega)] at hclosing
      exact absurd hclosing (by simp)
    | cons c rest =>
      have hc : c = '{' := hrest c rfl
      subst hc
      have hhead : (text ++ '{' :: rest)[text.length]? = some '{' := by simp
      rcases Nat.lt_or_eq_of_le (Nat.not_lt.mp he) with hlt | heq
      · exact absurd (hplaceholder.unbroken _ hi hlt '{' hhead) (by decide)
      · have hclash := hhead.symm.trans (heq ▸ hplaceholder.closing)
        exact absurd hclash (by decide)

/-- Text in which no placeholder opens is literal. -/
theorem readChars_append_of_not_placeholderAt {held text rest : List Char}
    (h : ∀ i e, i < text.length → ¬ PlaceholderAt (text ++ rest) i e) :
    readChars held (text ++ rest) = readChars (text.reverse ++ held) rest := by
  induction text generalizing held with
  | nil => rfl
  | cons c text ih =>
    have hhead : ∀ e, ¬ PlaceholderAt (c :: (text ++ rest)) 0 e :=
      fun e => h 0 e (by simp)
    rw [List.cons_append, readChars_of_not_placeholderAt hhead, ih]
    · simp
    · intro i e hi hplaceholder
      have hshift := (placeholderAt_append_iff [c]).mpr hplaceholder
      exact h (1 + i) (1 + e) (by rw [List.length_cons]; omega) hshift

/-- Characters in hand become a literal before a placeholder and at the end of the text. -/
theorem readChars_held {held : List Char} {segments : List Segment} (h : Canonical segments)
    (hhead : ∀ text, segments.head? ≠ some (literal text)) :
    readChars held (render segments).toList =
      ofLiteral held.reverse ++ readChars [] (render segments).toList := by
  cases segments with
  | nil =>
    rw [render_nil, String.toList_empty, readChars, readChars]
    exact (List.append_nil _).symm
  | cons segment segments =>
    cases segment with
    | literal text => exact absurd rfl (hhead text)
    | placeholder name =>
      have hname := isName_of_canonical h
      rw [render_cons, String.toList_append, readChars_source hname, readChars_source hname]
      rfl

/-- Segments in the form of a reading are read back as they were written. -/
theorem readChars_render {segments : List Segment} (h : Canonical segments) :
    readChars [] (render segments).toList = segments := by
  induction segments with
  | nil =>
    rw [render_nil, String.toList_empty, readChars]
    rfl
  | cons segment segments ih =>
    have htail := canonical_of_cons h
    rw [render_cons, String.toList_append]
    cases segment with
    | placeholder name =>
      rw [readChars_source (isName_of_canonical h), ih htail]
      rfl
    | literal text =>
      obtain ⟨hne, hnone⟩ := h.literals text (List.mem_cons_self ..)
      have hhead : ∀ other, segments.head? ≠ some (literal other) := by
        intro other hother
        obtain ⟨back, hback⟩ := List.head?_eq_some_iff.mp hother
        exact h.apart [] text other back (by rw [hback]; rfl)
      -- so what comes behind the literal begins with a brace
      have hbrace : ∀ c ∈ (render segments).toList.head?, c = '{' := by
        cases segments with
        | nil => simp
        | cons next segments =>
          cases next with
          | literal other => exact absurd rfl (hhead other)
          | placeholder name =>
            rw [render_cons, String.toList_append, toList_source_append]
            simp
      have hliteral : ofLiteral text.toList = [literal text] := by
        rw [ofLiteral, if_neg (fun hnil => hne (String.toList_eq_nil_iff.mp hnil)),
          String.ofList_toList]
      show readChars [] (text.toList ++ (render segments).toList) = literal text :: segments
      rw [readChars_append_of_not_placeholderAt
          (fun i e hi => not_placeholderAt_append hnone hbrace hi),
        readChars_held htail hhead, ih htail, List.append_nil, List.reverse_reverse, hliteral]
      rfl

/-- A list of segments is the reading of a text exactly if it is in the form of a reading and
written as that text. -/
theorem scan_eq_iff {text : String} {segments : List Segment} :
    scan text = segments ↔ Canonical segments ∧ render segments = text := by
  refine ⟨?_, ?_⟩
  · rintro rfl
    exact ⟨canonical_scan text, render_scan text⟩
  · rintro ⟨hcanonical, rfl⟩
    rw [scan_eq_ofChars, ofChars, readChars_render hcanonical]

/-! ## Putting in each placeholder for itself -/

theorem source_placeholder_ne (name : String) : (placeholder name).source ≠ "" := by
  intro hempty
  have hchars := toList_source_append name []
  rw [hempty] at hchars
  exact absurd hchars (by simp)

/-- A source that has each placeholder under its own name makes the text of the segments. -/
theorem fillAll_of_lookup?_source {source : Source} {segments : List Segment}
    (h : ∀ name ∈ names segments, source.lookup? name = some (placeholder name).source) :
    fillAll source segments = .ok (render segments) := by
  refine fillAll_eq_ok_iff.mpr ⟨?_, ?_⟩
  · intro name hname
    exact Source.not_lacks_iff.mpr ⟨_, h name hname, source_placeholder_ne name⟩
  · apply congrArg String.join
    apply List.map_congr_left
    intro segment hsegment
    cases segment with
    | literal text => rfl
    | placeholder name =>
      have hname : name ∈ names segments := List.mem_filterMap.mpr ⟨_, hsegment, rfl⟩
      show (source.lookup? name).getD "" = (placeholder name).source
      rw [h name hname]
      rfl

/-- Reading a text and writing the segments gives the text, so a route with placeholders makes its
own template of a source that has each placeholder under its own name; and writing segments in the
form of a reading and reading the text gives the segments. -/
theorem scan_render_inverse :
    (∀ text, render (scan text) = text) ∧
      (∀ (r : Route) (source : Source), r.isStatic = false → source.Lawful →
        (∀ name ∈ r.names, source.lookup? name = some ("\x7b" ++ name ++ "\x7d")) →
        (r.expandWith source).result = .ok r.template) ∧
      ∀ segments, Canonical segments → scan (render segments) = segments := by
  refine ⟨render_scan, ?_, fun segments h => scan_eq_iff.mpr ⟨h, rfl⟩⟩
  intro r source hdynamic hlawful hlookup
  obtain ⟨name, hname⟩ := List.exists_mem_of_ne_nil _ (Route.names_ne_nil_of_isStatic hdynamic)
  have hempty := Source.isEmpty_of_lookup? hlawful (hlookup name hname)
  rw [Route.names_eq] at hlookup
  rw [Route.expandWith_eq_ok_iff hdynamic hempty, fillAll_of_lookup?_source hlookup,
    Route.render_segments]

/-- Two placeholders and two literal braces between them, the closing one first: `{a}}{{b}`. -/
def crossed : List Segment := [placeholder "a", literal "\x7d\x7b", placeholder "b"]

theorem canonical_crossed : Canonical crossed := by
  refine ⟨?_, ?_, ?_⟩
  · intro name hname
    have hcases : name = "a" ∨ name = "b" := by simpa [crossed, names, name?, eq_comm] using hname
    rcases hcases with rfl | rfl
    · exact ⟨by decide, by simp [isBrace]⟩
    · exact ⟨by decide, by simp [isBrace]⟩
  · intro text hmem
    have htext : text = "\x7d\x7b" := by simpa [crossed] using hmem
    subst htext
    refine ⟨by decide, ?_⟩
    intro i e h
    -- the only closing brace stands at the very beginning
    have hnamed := h.named
    have he : e < 2 := (List.getElem?_eq_some_iff.mp h.closing).1
    omega
  · intro front a b back hsplit
    rcases front with _ | ⟨first, _ | ⟨second, front⟩⟩
    · simp [crossed] at hsplit
    · simp [crossed] at hsplit
    · have hlen := congrArg List.length hsplit
      simp only [crossed, List.length_cons, List.length_append, List.length_nil] at hlen
      omega

/-- The braces of the template come back through the value of `x`, and the two literal braces are
read as they were written. -/
theorem scan_render_inverse_nested :
    (Route.nested.expandWith (.ofPairs [("x", "{x}")])).result = .ok "/{}{{x}}" ∧
      scan (String.ofList ['{', 'a', '}', '}', '{', '{', 'b', '}']) = crossed := by
  obtain ⟨-, hexpand, hread⟩ := scan_render_inverse
  refine ⟨?_, ?_⟩
  · apply hexpand Route.nested _ (by decide +kernel) (Source.lawful_ofPairs _)
    have hnames : Route.nested.names = ["x"] := by decide +kernel
    intro name hname
    rw [hnames, List.mem_singleton] at hname
    subst hname
    decide
  · have htext : render crossed = String.ofList ['{', 'a', '}', '}', '{', '{', 'b', '}'] := by
      decide
    rw [← htext]
    exact hread crossed canonical_crossed

end Segment

end PathTemplate
