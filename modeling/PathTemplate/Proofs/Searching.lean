import PathTemplate.Proofs.Escaping
import PathTemplate.Proofs.Matching

/-!
# Searching: what a pattern finds, a frame captures

`Pattern.search?` tries: places from left to right, and at a group the longest run first, going back
to a shorter one where the rest does not follow.  A pattern is anchored at both ends, so only the
first place counts.  And the longest run that lets the rest follow is the greatest length of all
fillings, since what comes behind is again the greatest of what is left (`matchHere?_of_fills`).

So trying back and forth finds what `Frame.captures?` finds from the end of the path:

> `search?_ofSegments`: the groups of a pattern take what the frame captures.
> `pattern_agrees`: the pattern of a route says what its segments say, and finds in any path what
> the route captures, with placeholders and without.
-/

namespace PathTemplate

namespace Frame

/-! ## Fillings, segment by segment -/

section Fills

variable {path : List Char} {values : List (List Char)}

theorem fills_nil_iff : Fills ⟨[], []⟩ path values ↔ path = [] ∧ values = [] := by
  rw [fills_iff_of_gaps_eq_nil rfl]
  exact and_comm

/-- A filling begins with the text of a literal. -/
theorem fills_literal_iff {text : String} {segments : List Segment} :
    (ofSegments (.literal text :: segments)).Fills path values ↔
      ∃ rest, path = text.toList ++ rest ∧ (ofSegments segments).Fills rest values := by
  rw [ofSegments_literal]
  refine ⟨?_, ?_⟩
  · intro h
    refine ⟨_, ?_, h.count, rfl, h.fit⟩
    rw [← List.append_assoc]
    exact h.text
  · intro ⟨rest, hpath, h⟩
    refine ⟨h.count, ?_, h.fit⟩
    rw [hpath, h.text]
    exact (List.append_assoc ..).symm

/-- A filling begins with the value of a placeholder. -/
theorem fills_placeholder_iff {name : String} {segments : List Segment} :
    (ofSegments (.placeholder name :: segments)).Fills path values ↔
      ∃ run rest runs, values = run :: runs ∧ path = run ++ rest ∧ IsRun run ∧
        (ofSegments segments).Fills rest runs := by
  rw [ofSegments_placeholder]
  refine ⟨?_, ?_⟩
  · intro h
    cases values with
    | nil => exact absurd h.count (by simp)
    | cons run runs =>
      have htext := h.text
      rw [weave_cons, List.nil_append] at htext
      refine ⟨run, _, runs, rfl, htext, h.fit run (List.mem_cons_self ..), ?_, rfl, ?_⟩
      · exact Nat.succ.inj h.count
      · exact fun other hother => h.fit other (List.mem_cons_of_mem _ hother)
  · rintro ⟨run, rest, runs, rfl, rfl, hrun, h⟩
    refine ⟨congrArg (· + 1) h.count, ?_, List.forall_mem_cons.mpr ⟨hrun, h.fit⟩⟩
    rw [weave_cons, List.nil_append, ← h.text]

end Fills

end Frame

namespace Pattern

open PathTemplate.Frame (IsRun)

/-! ## The longest run first -/

/-- Counting down, the search stops at the first number that has an answer: no later than at any
number that has one. -/
theorem exists_findSome?_of_some {α : Type} {f : Nat → Option α} {n j : Nat} {a : α} (hj : j < n)
    (h : f j = some a) :
    ∃ k b, j ≤ k ∧ k < n ∧ f k = some b ∧ (List.range n).reverse.findSome? f = some b := by
  induction n with
  | zero => exact absurd hj (Nat.not_lt_zero j)
  | succ n ih =>
    rw [List.range_succ, List.reverse_append, List.reverse_singleton, List.singleton_append,
      List.findSome?_cons]
    cases hn : f n with
    | some b => exact ⟨n, b, Nat.le_of_lt_succ hj, Nat.lt_succ_self n, hn, rfl⟩
    | none =>
      have hne : j ≠ n := by
        intro heq
        rw [heq, hn] at h
        exact absurd h (by simp)
      obtain ⟨k, b, hjk, hk, hb, hfound⟩ := ih (by omega)
      exact ⟨k, b, hjk, Nat.lt_succ_of_lt hk, hb, hfound⟩

/-- What is taken from the beginning of a text, up to the first slash at most, is a run. -/
theorem isRun_take {text : List Char} {k : Nat}
    (hk : k < (text.takeWhile (· ≠ '/')).length) : IsRun (text.take (k + 1)) := by
  refine ⟨?_, ?_⟩
  · cases text with
    | nil => exact absurd hk (by simp)
    | cons c text => simp
  · intro hslash
    rw [← List.takeWhile_append_dropWhile (p := (· ≠ '/')) (l := text),
      List.take_append_of_le_length hk] at hslash
    have hall := List.all_eq_true.mp List.all_takeWhile '/' (List.mem_of_mem_take hslash)
    exact absurd hall (by simp)

/-- A run at the beginning of a text comes before the first slash. -/
theorem length_lt_of_isRun {run rest : List Char} (h : IsRun run) :
    run.length - 1 < ((run ++ rest).takeWhile (· ≠ '/')).length := by
  have hpos := List.length_pos_iff.mpr h.1
  rw [List.takeWhile_append_of_pos, List.length_append]
  · omega
  · intro c hc
    have hne : c ≠ '/' := fun heq => h.2 (heq ▸ hc)
    simpa using hne

/-! ## One item after another -/

/-- The items of some segments and the end of the text. -/
def tail (segments : List Segment) : List Atom :=
  segments.flatMap Atom.ofSegment ++ [.stop]

theorem tail_literal (text : String) (segments : List Segment) :
    tail (.literal text :: segments) = text.toList.map .char ++ tail segments := by
  rw [tail, List.flatMap_cons, List.append_assoc]
  rfl

theorem tail_placeholder (name : String) (segments : List Segment) :
    tail (.placeholder name :: segments) = .group :: tail segments := rfl

/-- Text that is there is passed over. -/
theorem matchHere?_chars (chars : List Char) (atoms : List Atom) (first : Bool) (rest : List Char) :
    ∃ first', matchHere? (chars.map .char ++ atoms) first (chars ++ rest) =
      matchHere? atoms first' rest := by
  induction chars generalizing first with
  | nil => exact ⟨first, rfl⟩
  | cons c chars ih =>
    obtain ⟨first', hrest⟩ := ih false
    refine ⟨first', ?_⟩
    rw [← hrest]
    exact if_pos rfl

/-- Text that is not there is not found. -/
theorem exists_of_matchHere?_chars {chars : List Char} {atoms : List Atom} {first : Bool}
    {text : List Char} {runs : List (List Char)}
    (h : matchHere? (chars.map .char ++ atoms) first text = some runs) :
    ∃ rest first', text = chars ++ rest ∧ matchHere? atoms first' rest = some runs := by
  induction chars generalizing first text with
  | nil => exact ⟨text, first, rfl, h⟩
  | cons c chars ih =>
    rw [List.map_cons, List.cons_append] at h
    cases text with
    | nil => exact absurd h (by simp [matchHere?])
    | cons d text =>
      by_cases hc : c = d
      · subst hc
        have hbehind : matchHere? (chars.map .char ++ atoms) false text = some runs := by
          rw [← h]
          exact (if_pos rfl).symm
        obtain ⟨rest, first', rfl, hrest⟩ := ih hbehind
        exact ⟨rest, first', rfl, hrest⟩
      · simp [matchHere?, hc] at h

/-- What the groups take is a filling of the frame. -/
theorem fills_of_matchHere? {segments : List Segment} {first : Bool} {text : List Char}
    {runs : List (List Char)} (h : matchHere? (tail segments) first text = some runs) :
    (Frame.ofSegments segments).Fills text runs := by
  induction segments generalizing first text runs with
  | nil =>
    have hstop : (if text = [] then some [] else none) = some runs := h
    split at hstop
    · next hnil => exact Frame.fills_nil_iff.mpr ⟨hnil, (Option.some.inj hstop).symm⟩
    · exact absurd hstop (by simp)
  | cons segment segments ih =>
    cases segment with
    | literal chars =>
      rw [tail_literal] at h
      obtain ⟨rest, first', htext, hrest⟩ := exists_of_matchHere?_chars h
      exact Frame.fills_literal_iff.mpr ⟨rest, htext, ih hrest⟩
    | placeholder name =>
      rw [tail_placeholder, matchHere?] at h
      obtain ⟨k, hk, hfound⟩ := List.exists_of_findSome?_eq_some h
      rw [List.mem_reverse, List.mem_range] at hk
      obtain ⟨rest, hrest, hruns⟩ := Option.map_eq_some_iff.mp hfound
      exact Frame.fills_placeholder_iff.mpr ⟨text.take (k + 1), text.drop (k + 1), rest, hruns.symm,
        (List.take_append_drop ..).symm, isRun_take hk, ih hrest⟩

/-- If a text has a filling, the groups take one, and none has greater lengths. -/
theorem matchHere?_of_fills {segments : List Segment} {text : List Char} {runs : List (List Char)}
    (h : (Frame.ofSegments segments).Fills text runs) (first : Bool) :
    ∃ best, matchHere? (tail segments) first text = some best ∧
      (runs = best ∨ List.Lex (· < ·) (runs.map List.length) (best.map List.length)) := by
  induction segments generalizing first text runs with
  | nil =>
    obtain ⟨rfl, rfl⟩ := Frame.fills_nil_iff.mp h
    exact ⟨[], rfl, .inl rfl⟩
  | cons segment segments ih =>
    cases segment with
    | literal chars =>
      obtain ⟨rest, rfl, hrest⟩ := Frame.fills_literal_iff.mp h
      obtain ⟨first', hpass⟩ := matchHere?_chars chars.toList (tail segments) first rest
      rw [tail_literal, hpass]
      exact ih hrest first'
    | placeholder name =>
      obtain ⟨run, rest, runs, rfl, rfl, hrun, hrest⟩ := Frame.fills_placeholder_iff.mp h
      obtain ⟨best, hbest, hle⟩ := ih hrest false
      have hpos := List.length_pos_iff.mpr hrun.1
      have hlen : run.length - 1 + 1 = run.length := by omega
      -- the run of the filling is tried unless a longer one has an answer before
      have hhere : (matchHere? (tail segments) false ((run ++ rest).drop (run.length - 1 + 1))).map
          ((run ++ rest).take (run.length - 1 + 1) :: ·) = some (run :: best) := by
        rw [hlen, List.drop_left, List.take_left, hbest]
        rfl
      obtain ⟨k, found, hk, hkn, hfound, hsome⟩ :=
        exists_findSome?_of_some (f := fun k =>
          (matchHere? (tail segments) false ((run ++ rest).drop (k + 1))).map
            ((run ++ rest).take (k + 1) :: ·)) (length_lt_of_isRun hrun) hhere
      refine ⟨found, hsome, ?_⟩
      rcases Nat.lt_or_eq_of_le hk with hlt | heq
      · obtain ⟨others, -, rfl⟩ := Option.map_eq_some_iff.mp hfound
        refine .inr (.rel ?_)
        have hle := (List.takeWhile_prefix (l := run ++ rest) (· ≠ '/')).length_le
        rw [List.length_take]
        omega
      · subst heq
        have hsame : run :: best = found := Option.some.inj (hhere.symm.trans hfound)
        subst hsame
        rcases hle with heq | hlt
        · exact .inl (by rw [heq])
        · exact .inr (.cons hlt)

/-- Tried back and forth, a pattern finds what the frame captures. -/
theorem matchHere?_eq_captures? (segments : List Segment) (first : Bool) (text : List Char) :
    matchHere? (tail segments) first text = (Frame.ofSegments segments).captures? text := by
  cases hfound : matchHere? (tail segments) first text with
  | some best =>
    symm
    rw [Frame.captures?_eq_some_iff]
    refine ⟨fills_of_matchHere? hfound, ?_⟩
    intro other hother hne
    obtain ⟨best', hbest', hle⟩ := matchHere?_of_fills hother first
    have hsame : best' = best := Option.some.inj (hbest'.symm.trans hfound)
    subst hsame
    exact hle.resolve_left hne
  | none =>
    cases hcaptures : (Frame.ofSegments segments).captures? text with
    | none => rfl
    | some values =>
      obtain ⟨best, hbest, -⟩ := matchHere?_of_fills (Frame.fills_of_captures? hcaptures) first
      exact absurd (hbest.symm.trans hfound) (by simp)

/-- The groups of a pattern take what the frame captures. -/
theorem search?_ofSegments (segments : List Segment) (text : List Char) :
    search? (Atom.ofSegments segments) text = (Frame.ofSegments segments).captures? text := by
  have hfirst : matchHere? (Atom.ofSegments segments) (0 == 0) (text.drop 0) =
      (Frame.ofSegments segments).captures? text := matchHere?_eq_captures? segments true text
  rw [search?, List.range_succ_eq_map, List.findSome?_cons, hfirst]
  cases (Frame.ofSegments segments).captures? text with
  | some runs => rfl
  | none =>
    -- further on the anchor does not hold
    rw [List.findSome?_map, List.findSome?_eq_none_iff]
    intro i _
    rfl

end Pattern

namespace Route

/-! ## The pattern of a route -/

/-- A route captures what its pattern finds. -/
theorem captures?_eq_search? (r : Route) (path : String) :
    r.captures? path = (Pattern.search? (Pattern.Atom.ofSegments r.segments) path.toList).map
      (List.map String.ofList) := by
  rw [Pattern.search?_ofSegments, captures?_eq]

/-- The pattern of a route says just what its segments say, with a group for each placeholder; in
any path it finds what the route accepts and captures, with placeholders and without; and the
patterns of two routes are equal exactly if their segments are the same but for the names. -/
theorem pattern_agrees (r : Route) :
    (∀ atoms, Pattern.Reads r.pattern.toList atoms ↔
        atoms = Pattern.Atom.ofSegments r.segments) ∧
      (Pattern.Atom.ofSegments r.segments).count .group = r.names.length ∧
      (∀ path, r.accepts path =
        (Pattern.search? (Pattern.Atom.ofSegments r.segments) path.toList).isSome) ∧
      (∀ path, r.captures? path =
        (Pattern.search? (Pattern.Atom.ofSegments r.segments) path.toList).map
          (List.map String.ofList)) ∧
      (∀ path, r.capture? path =
        (Pattern.search? (Pattern.Atom.ofSegments r.segments) path.toList).map fun runs =>
          .ofList (r.names.zip (runs.map String.ofList))) ∧
      ∀ s : Route, r.pattern = s.pattern ↔
        r.segments.map (Segment.rename fun _ => "") =
          s.segments.map (Segment.rename fun _ => "") := by
  refine ⟨?_, ?_, ?_, captures?_eq_search? r, ?_, ?_⟩
  · intro atoms
    rw [pattern_eq, String.toList_ofList]
    exact Pattern.reads_iff
  · rw [names_eq]
    exact Pattern.count_group r.segments
  · intro path
    rw [accepts_eq_isSome_captures?, captures?_eq_search?, Option.isSome_map]
  · intro path
    rw [capture?_eq_map_captures?, captures?_eq_search?, Option.map_map]
    rfl
  · intro s
    rw [pattern_eq, pattern_eq, String.ofList_inj, r.segments_eq, s.segments_eq]
    exact Pattern.ofSegments_scan_eq_iff r.template s.template

end Route

end PathTemplate
