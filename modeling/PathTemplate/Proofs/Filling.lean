import PathTemplate.Proofs.Tiling

/-!
# Fillings: what `Frame.captures?` finds

A *filling* of a frame is the frame read forwards: its leading text, and then in turn a value and
the gap behind it (`Fills`).  `captures?` works on the same path from its end, where a filling is a
tiling.  `fills_iff_tiles` turns the one into the other, and what `Tiling` says about `values?`
becomes the contract of `captures?`:

> `captures?_eq_some_iff`: what `captures?` finds is a filling, and the lengths of any other
> filling are lexicographically less.

In particular `captures?` finds a filling wherever there is one (`isSome_captures?_iff`), and it
never has to choose between two of the same lengths.  Whether it finds the filling that a path was
made of can be told from each gap and the value behind it (`Settles`):

> `captures?_eq_iff_settles`: `captures?` finds this very filling exactly if each gap settles where
> the value behind it begins.
-/

namespace PathTemplate.Frame

/-- The text of values, each with the gap behind it. -/
def weave (gaps values : List (List Char)) : List Char :=
  (List.zipWith (· ++ ·) values gaps).flatten

/-- Values that make a path of a frame, one for each gap. -/
structure Fills (frame : Frame) (path : List Char) (values : List (List Char)) : Prop where
  count : values.length = frame.gaps.length
  text : path = frame.lead ++ weave frame.gaps values
  fit : ∀ value ∈ values, IsRun value

@[simp] theorem weave_nil (values : List (List Char)) : weave [] values = [] := by
  simp [weave]

@[simp] theorem weave_cons (gap value : List Char) (gaps values : List (List Char)) :
    weave (gap :: gaps) (value :: values) = value ++ (gap ++ weave gaps values) := by
  simp [weave]

/-! ## Backwards -/

/-- Backwards, the values and gaps of a text are the reversed ones in reverse order. -/
theorem reverse_weave {gaps values : List (List Char)} (hlen : values.length = gaps.length) :
    (weave gaps values).reverse =
      (List.zipWith (· ++ ·) (gaps.reverse.map List.reverse)
        (values.reverse.map List.reverse)).flatten := by
  rw [weave, List.reverse_flatten, List.map_reverse, List.map_reverse, ← List.reverse_zipWith
    (by simp [hlen]), List.map_zipWith, List.zipWith_map, List.zipWith_comm]
  congr 3
  funext gap value
  exact List.reverse_append

theorem isRun_reverse_iff {run : List Char} : IsRun run.reverse ↔ IsRun run := by
  unfold IsRun
  rw [List.reverse_ne_nil_iff, List.mem_reverse]

/-- A tiling is its runs with the gaps between them. -/
theorem tiles_iff {gaps runs : List (List Char)} {back : List Char} :
    Tiles gaps back runs ↔
      runs.length = gaps.length + 1 ∧ (∀ run ∈ runs, IsRun run) ∧
        back = (List.zipWith (· ++ ·) ([] :: gaps) runs).flatten := by
  induction gaps generalizing back runs with
  | nil =>
    refine ⟨?_, ?_⟩
    · intro h
      cases h with
      | only hrun => exact ⟨rfl, by simpa using hrun, by simp⟩
    · intro ⟨hlen, hfit, hback⟩
      obtain ⟨run, rfl⟩ := List.length_eq_one_iff.mp hlen
      have hrun : back = run := by simpa using hback
      subst hrun
      exact .only (hfit back (List.mem_singleton_self back))
  | cons gap gaps ih =>
    refine ⟨?_, ?_⟩
    · intro h
      cases h with
      | @cons _ run rest _ runs hrun htail =>
        obtain ⟨hlen, hfit, hrest⟩ := ih.mp htail
        obtain ⟨next, runs', rfl⟩ := exists_cons_of_tiles htail
        refine ⟨by simpa using hlen, ?_, by simp [hrest]⟩
        intro r hr
        rcases List.mem_cons.mp hr with hE | hT
        · exact hE ▸ hrun
        · exact hfit r hT
    · intro ⟨hlen, hfit, hback⟩
      rcases runs with _ | ⟨run, _ | ⟨next, runs⟩⟩
      · exact absurd hlen (by simp)
      · exact absurd hlen (by simp)
      · have htail := ih.mpr ⟨by simpa using hlen, fun r hr => hfit r (List.mem_cons_of_mem _ hr),
          rfl⟩
        have htext : back =
            run ++ (gap ++ (List.zipWith (· ++ ·) ([] :: gaps) (next :: runs)).flatten) := by
          rw [hback]
          simp
        rw [htext]
        exact .cons (hfit run (List.mem_cons_self ..)) htail

/-- A frame without gaps has one filling, which takes no values. -/
theorem fills_iff_of_gaps_eq_nil {frame : Frame} (hgaps : frame.gaps = []) {path : List Char}
    {values : List (List Char)} : frame.Fills path values ↔ values = [] ∧ path = frame.lead := by
  refine ⟨?_, ?_⟩
  · intro h
    have hnil : values = [] := List.length_eq_zero_iff.mp (by rw [h.count, hgaps]; rfl)
    refine ⟨hnil, ?_⟩
    rw [h.text, hgaps, weave_nil, List.append_nil]
  · intro ⟨hvalues, hpath⟩
    subst hvalues
    exact ⟨by simp [hgaps], by simp [hgaps, hpath], by simp⟩

theorem isRun_map_reverse_iff {values : List (List Char)} :
    (∀ run ∈ values.reverse.map List.reverse, IsRun run) ↔ ∀ value ∈ values, IsRun value := by
  refine ⟨?_, ?_⟩
  · intro h value hvalue
    exact isRun_reverse_iff.mp (h _ (List.mem_map_of_mem (List.mem_reverse.mpr hvalue)))
  · intro h run hrun
    obtain ⟨value, hvalue, rfl⟩ := List.mem_map.mp hrun
    exact isRun_reverse_iff.mpr (h value (List.mem_reverse.mp hvalue))

/-- Values and gaps backwards are the last gap and then runs with the other gaps between them. -/
theorem weave_eq_reverse {gaps inner values : List (List Char)} {last : List Char}
    (hgaps : gaps.reverse = last :: inner) (hlen : values.length = gaps.length) :
    weave gaps values = (last.reverse ++ (List.zipWith (· ++ ·) ([] :: inner.map List.reverse)
      (values.reverse.map List.reverse)).flatten).reverse := by
  rw [← List.reverse_reverse (weave gaps values), reverse_weave hlen, hgaps]
  -- the gap behind the last value moves out, and nothing is left in its place
  cases hvalues : values.reverse with
  | nil =>
    have hnone : gaps.reverse.length = 0 := by
      rw [List.length_reverse, ← hlen, ← List.length_reverse, hvalues]
      rfl
    exact absurd hnone (by simp [hgaps])
  | cons value rest => simp

/-- Behind the leading text and before the last gap, a filling is a tiling read forwards. -/
theorem fills_iff_tiles {frame : Frame} {last : List Char} {inner : List (List Char)}
    (hgaps : frame.gaps.reverse = last :: inner) {path : List Char} {values : List (List Char)} :
    frame.Fills path values ↔
      ∃ back, path = frame.lead ++ (last.reverse ++ back).reverse ∧
        Tiles (inner.map List.reverse) back (values.reverse.map List.reverse) := by
  have hsize : frame.gaps.length = inner.length + 1 := by
    rw [← List.length_reverse, hgaps]
    rfl
  have hcount : (values.reverse.map List.reverse).length = (inner.map List.reverse).length + 1 ↔
      values.length = frame.gaps.length := by
    rw [List.length_map, List.length_reverse, List.length_map, hsize]
  refine ⟨?_, ?_⟩
  · intro h
    refine ⟨_, ?_, tiles_iff.mpr ⟨hcount.mpr h.count, isRun_map_reverse_iff.mpr h.fit, rfl⟩⟩
    rw [h.text, weave_eq_reverse hgaps h.count]
  · intro ⟨back, hpath, htiles⟩
    obtain ⟨hlen, hruns, hback⟩ := tiles_iff.mp htiles
    refine ⟨hcount.mp hlen, ?_, isRun_map_reverse_iff.mp hruns⟩
    rw [weave_eq_reverse hgaps (hcount.mp hlen), ← hback, hpath]

/-! ## The contract of `captures?` -/

/-- The lengths of a filling are those of its tiling. -/
theorem spans_reverse (values : List (List Char)) :
    spans (values.reverse.map List.reverse) = values.map List.length := by
  simp [spans, Function.comp_def]

/-- The values of a tiling, turned round again, are the filling. -/
theorem valuesOf_reverse (values : List (List Char)) :
    valuesOf (values.reverse.map List.reverse) = values := by
  simp [valuesOf]

theorem reverse_valuesOf (runs : List (List Char)) :
    (valuesOf runs).reverse.map List.reverse = runs := by
  simp [valuesOf]

/-- On the path of a frame with gaps, `captures?` is `values?` on the text between the leading text
and the last gap. -/
theorem captures?_eq_values? {frame : Frame} {last : List Char} {inner : List (List Char)}
    (hgaps : frame.gaps.reverse = last :: inner) (back : List Char) :
    frame.captures? (frame.lead ++ (last.reverse ++ back).reverse) =
      values? [] back (inner.map List.reverse) := by
  have hlead : frame.lead.isPrefixOf? (frame.lead ++ (last.reverse ++ back).reverse) =
      some (last.reverse ++ back).reverse := List.isPrefixOf?_eq_some_iff_append_eq.mpr rfl
  have hlast : last.reverse.isPrefixOf? (last.reverse ++ back).reverse.reverse = some back := by
    rw [List.reverse_reverse]
    exact List.isPrefixOf?_eq_some_iff_append_eq.mpr rfl
  simp only [captures?, hlead, hgaps, hlast]

/-- What `captures?` finds is a filling. -/
theorem fills_of_captures? {frame : Frame} {path : List Char} {values : List (List Char)}
    (h : frame.captures? path = some values) : frame.Fills path values := by
  unfold captures? at h
  split at h
  · exact absurd h (by simp)
  · next body hbody =>
    have hpath := List.isPrefixOf?_eq_some_iff_append_eq.mp hbody
    split at h
    · next hgaps =>
      -- no gaps: the leading text is the whole path
      have hnil : frame.gaps = [] := List.reverse_eq_nil_iff.mp hgaps
      split at h
      · next hempty =>
        refine (fills_iff_of_gaps_eq_nil hnil).mpr ⟨(Option.some.inj h).symm, ?_⟩
        rw [← hpath, hempty, List.append_nil]
      · exact absurd h (by simp)
    · next last inner hgaps =>
      split at h
      · next back hback =>
        -- the last gap is off the end, and what is left is tiled
        obtain ⟨runs, hruns, hvalues⟩ := tiles_of_values? h
        rw [List.append_nil] at hvalues
        refine (fills_iff_tiles hgaps).mpr ⟨back, ?_, ?_⟩
        · rw [List.isPrefixOf?_eq_some_iff_append_eq.mp hback, List.reverse_reverse, hpath]
        · rw [hvalues, reverse_valuesOf]
          exact hruns
      · exact absurd h (by simp)

/-- If a path has a filling, `captures?` finds one, and none has greater lengths. -/
theorem captures?_of_fills {frame : Frame} {path : List Char} {values : List (List Char)}
    (h : frame.Fills path values) :
    ∃ best, frame.captures? path = some best ∧
      (values = best ∨ List.Lex (· < ·) (values.map List.length) (best.map List.length)) := by
  cases hgaps : frame.gaps.reverse with
  | nil =>
    have hnil : frame.gaps = [] := List.reverse_eq_nil_iff.mp hgaps
    obtain ⟨hvalues, hpath⟩ := (fills_iff_of_gaps_eq_nil hnil).mp h
    refine ⟨[], ?_, .inl hvalues⟩
    have hlead := List.isPrefixOf?_eq_some_iff_append_eq.mpr (List.append_nil frame.lead)
    unfold captures?
    rw [hpath, hlead, hgaps]
    rfl
  | cons last inner =>
    obtain ⟨back, hpath, htiles⟩ := (fills_iff_tiles hgaps).mp h
    obtain ⟨best, hbest, -, hle⟩ := values?_of_tiles htiles []
    rw [List.append_nil] at hbest
    refine ⟨valuesOf best, ?_, ?_⟩
    · rw [hpath, captures?_eq_values? hgaps, hbest]
    · rw [← spans_reverse values, ← spans_reverse (valuesOf best), reverse_valuesOf]
      rcases hle with heq | hlt
      · exact .inl (by rw [← heq, valuesOf_reverse])
      · exact .inr hlt

/-- `captures?` finds the filling with the greatest lengths. -/
theorem captures?_eq_some_iff {frame : Frame} {path : List Char} {values : List (List Char)} :
    frame.captures? path = some values ↔ frame.Fills path values ∧
      ∀ other, frame.Fills path other → other ≠ values →
        List.Lex (· < ·) (other.map List.length) (values.map List.length) := by
  refine ⟨?_, ?_⟩
  · intro h
    refine ⟨fills_of_captures? h, ?_⟩
    intro other hother hne
    obtain ⟨best, hbest, hle⟩ := captures?_of_fills hother
    have hsame : best = values := Option.some.inj (hbest.symm.trans h)
    subst hsame
    exact hle.resolve_left hne
  · intro ⟨hfills, hgreatest⟩
    obtain ⟨best, hbest, hle⟩ := captures?_of_fills hfills
    rcases hle with heq | hlt
    · exact heq ▸ hbest
    · -- then each of the two has greater lengths than the other
      have hne : best ≠ values := by
        intro heq
        subst heq
        exact List.lex_irrefl Nat.lt_irrefl _ hlt
      have hgt := hgreatest best (fills_of_captures? hbest) hne
      exact absurd hgt (List.lex_asymm Nat.lt_asymm hlt)

/-- `captures?` finds a filling wherever there is one. -/
theorem isSome_captures?_iff {frame : Frame} {path : List Char} :
    (frame.captures? path).isSome = true ↔ ∃ values, frame.Fills path values := by
  refine ⟨?_, ?_⟩
  · intro h
    obtain ⟨values, hvalues⟩ := Option.isSome_iff_exists.mp h
    exact ⟨values, fills_of_captures? hvalues⟩
  · intro ⟨values, hvalues⟩
    obtain ⟨best, hbest, -⟩ := captures?_of_fills hvalues
    exact Option.isSome_iff_exists.mpr ⟨best, hbest⟩

/-! ## Fillings that are found as they are -/

/-- A gap settles where the value behind it begins if it does not also stand before a shorter rest
of the value, an empty one not counted.  There it would be made of its own end and then of the front
of the value. -/
def Settles (gap value : List Char) : Prop :=
  ∀ extra short, value = extra ++ short → short ≠ [] → gap <:+ gap ++ extra → extra = []

theorem closes_reverse_iff {gap value : List Char} :
    Closes gap.reverse value.reverse ↔ Settles gap value := by
  refine ⟨?_, ?_⟩
  · intro h extra short hsplit hshort hsuffix
    apply List.reverse_eq_nil_iff.mp
    apply h short.reverse extra.reverse
    · rw [hsplit, List.reverse_append]
    · exact List.reverse_ne_nil_iff.mpr hshort
    · rw [← List.reverse_append]
      exact List.reverse_prefix.mpr hsuffix
  · intro h short extra hsplit hshort hprefix
    apply List.reverse_eq_nil_iff.mp
    apply h extra.reverse short.reverse
    · rw [← List.reverse_append, ← hsplit, List.reverse_reverse]
    · exact List.reverse_ne_nil_iff.mpr hshort
    · apply List.reverse_prefix.mp
      rw [List.reverse_append, List.reverse_reverse]
      exact hprefix

/-- Backwards, each gap but the last one stands behind the value that comes after it. -/
theorem zip_reverse {frame : Frame} {last : List Char} {inner values : List (List Char)}
    (hgaps : frame.gaps.reverse = last :: inner) (hlen : values.length = frame.gaps.length) :
    inner.zip values.reverse = (frame.gaps.zip values.tail).reverse := by
  have hfront : frame.gaps = inner.reverse ++ [last] := by
    rw [← List.reverse_reverse frame.gaps, hgaps, List.reverse_cons]
  rw [hfront] at hlen ⊢
  cases values with
  | nil => exact absurd hlen (by simp)
  | cons value values =>
    -- the first value has no gap before it and falls off the end of the reversed list
    have hsize : inner.reverse.length = values.length := by simpa using hlen.symm
    have hback : inner.length = values.reverse.length := by simpa using hsize
    rw [List.tail_cons, List.reverse_cons, ← List.append_nil inner, List.zip_append hback,
      List.append_nil, ← List.append_nil values, List.zip_append (by simpa using hsize)]
    simp only [List.zip, List.append_nil, List.reverse_zipWith hsize, List.reverse_reverse,
      List.zipWith_nil_left, List.zipWith_nil_right]

/-- `captures?` finds the filling at hand exactly if each gap settles where the value behind it
begins. -/
theorem captures?_eq_iff_settles {frame : Frame} {path : List Char} {values : List (List Char)}
    (h : frame.Fills path values) :
    frame.captures? path = some values ↔
      ∀ pair ∈ frame.gaps.zip values.tail, Settles pair.1 pair.2 := by
  cases hgaps : frame.gaps.reverse with
  | nil =>
    -- no placeholders, so any two fillings are the same
    obtain ⟨best, hbest, -⟩ := captures?_of_fills h
    have hnil : frame.gaps = [] := List.reverse_eq_nil_iff.mp hgaps
    have hvalues := ((fills_iff_of_gaps_eq_nil hnil).mp h).1
    have hnone := ((fills_iff_of_gaps_eq_nil hnil).mp (fills_of_captures? hbest)).1
    rw [hbest, hvalues, hnone, hnil]
    simp
  | cons last inner =>
    obtain ⟨back, hpath, htiles⟩ := (fills_iff_tiles hgaps).mp h
    have hfound := values?_eq_iff_closes htiles []
    rw [List.append_nil, valuesOf_reverse] at hfound
    rw [hpath, captures?_eq_values? hgaps, hfound, List.zip_map, List.forall_mem_map]
    simp only [Prod.map_fst, Prod.map_snd, closes_reverse_iff, zip_reverse hgaps h.count,
      List.mem_reverse]

/-! ## Gaps that cannot be mistaken -/

/-- A gap that keeps the value behind it apart from the one before: it holds a slash, or its last
character is not in the value behind it. -/
def Separates (gap value : List Char) : Prop :=
  gap ≠ [] ∧ ('/' ∈ gap ∨ ∀ c ∈ gap.getLast?, c ∉ value)

-- written out, as the instance that is found by itself may go through all characters there are
instance (gap value : List Char) : Decidable (Separates gap value) :=
  have : Decidable (∀ c ∈ gap.getLast?, c ∉ value) := Option.decidableForallMem _
  inferInstanceAs (Decidable (gap ≠ [] ∧ ('/' ∈ gap ∨ ∀ c ∈ gap.getLast?, c ∉ value)))

theorem apart_reverse {gap value : List Char} (h : Separates gap value) :
    Apart gap.reverse value.reverse := by
  unfold Apart
  rw [List.reverse_ne_nil_iff, List.mem_reverse, List.head?_reverse]
  refine ⟨h.1, h.2.imp_right ?_⟩
  intro hlast c hc hmem
  exact hlast c hc (List.mem_reverse.mp hmem)

/-- What keeps a value apart settles where it begins. -/
theorem settles_of_separates {gap value : List Char} (hvalue : IsRun value)
    (h : Separates gap value) : Settles gap value :=
  closes_reverse_iff.mp (closes_of_apart (isRun_reverse_iff.mpr hvalue) (apart_reverse h))

end PathTemplate.Frame
