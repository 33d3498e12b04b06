import Mathlib.Data.List.Basic
import PathTemplate.Frame

/-!
# Tilings: a path read backwards

`Frame.values?` takes the values off the end of a text, the last gap being gone already.  What it
walks over is a *tiling*: a run of characters for the last placeholder, the gap before it, the run
before that gap, and so on down to the first placeholder, everything read backwards (`Tiles`).

A text can have many tilings.  Where a run could have ended earlier, because the gap also stands
further on, the characters it gives up are made good to the run behind the gap
(`surplus_of_append_eq`, `tiles_append`).  Those characters are no slashes: the gap has the same
slashes on both sides.  So the shortest run never spoils what comes after it:

> `values?_of_tiles`: if there is a tiling at all, `values?` finds one, and of all tilings it is
> the one whose lengths, in the order of the path, are lexicographically greatest.

Which tilings are found as they are can be told gap by gap.  A gap closes a run if no shorter part
of the run has the gap behind it (`Closes`):

> `values?_eq_iff_closes`: `values?` finds this very tiling exactly if each gap closes its run.

A gap that holds a slash, or that begins with a character the run before it does not have, is such a
gap (`closes_of_apart`).
-/

namespace PathTemplate.Frame

/-- What can stand at a placeholder, as characters: at least one, and no slash. -/
def IsRun (run : List Char) : Prop :=
  run ≠ [] ∧ '/' ∉ run

/-- `Tiles gaps back runs`: the text `back` is made of the runs in order, with the gaps between
them, the last one ending the text. -/
inductive Tiles : List (List Char) → List Char → List (List Char) → Prop where
  | only {run : List Char} : IsRun run → Tiles [] run [run]
  | cons {gap run rest : List Char} {gaps runs : List (List Char)} :
    IsRun run → Tiles gaps rest runs → Tiles (gap :: gaps) (run ++ (gap ++ rest)) (run :: runs)

/-- The lengths of runs in the order of the path, which is not the order of the runs. -/
def spans (runs : List (List Char)) : List Nat := (runs.map List.length).reverse

/-- Values in the order of the path, made of runs that were read backwards. -/
def valuesOf (runs : List (List Char)) : List (List Char) := (runs.map List.reverse).reverse

/-! ## One run: `shortest?` -/

/-- What `shortest?` takes is a run, and the gap stands behind it. -/
theorem run_of_shortest? {gap taken back value rest : List Char}
    (h : shortest? gap taken back = some (value, rest)) :
    ∃ run, IsRun run ∧ value = run.reverse ++ taken ∧ back = run ++ (gap ++ rest) := by
  fun_induction shortest? gap taken back with
  | case1 => simp at h
  | case2 => simp at h
  | case3 taken c back hc rest' hgap =>
    simp only [Option.some.injEq, Prod.mk.injEq] at h
    obtain ⟨rfl, rfl⟩ := h
    refine ⟨[c], ⟨by simp, by simpa using fun e => hc e.symm⟩, by simp, ?_⟩
    rw [← List.isPrefixOf?_eq_some_iff_append_eq.mp hgap]
    rfl
  | case4 taken c back hc _ ih =>
    obtain ⟨run, hrun, hvalue, hback⟩ := ih h
    refine ⟨c :: run, ⟨by simp, ?_⟩, by simp [hvalue], by simp [hback]⟩
    intro hmem
    rcases List.mem_cons.mp hmem with hE | hT
    · exact hc hE.symm
    · exact hrun.2 hT

/-- Where a gap stands behind a run, `shortest?` finds the gap there or earlier: it takes a part of
the run, and what it gives up stands behind that part. -/
theorem shortest?_of_run {gap run : List Char} (hrun : IsRun run) (rest taken : List Char) :
    ∃ short extra rest', run = short ++ extra ∧ IsRun short ∧ '/' ∉ extra ∧
      extra ++ (gap ++ rest) = gap ++ rest' ∧
      shortest? gap taken (run ++ (gap ++ rest)) = some (short.reverse ++ taken, rest') := by
  -- it is enough that some part of the run is taken; what is taken is a run by the lemma above
  suffices hpart : ∃ short rest', short <+: run ∧
      shortest? gap taken (run ++ (gap ++ rest)) = some (short.reverse ++ taken, rest') by
    obtain ⟨short, rest', ⟨extra, hextra⟩, hsome⟩ := hpart
    obtain ⟨run', hrun', hvalue, htext⟩ := run_of_shortest? hsome
    have hshort : short = run' := List.reverse_inj.mp (List.append_cancel_right hvalue)
    subst hshort
    subst hextra
    rw [List.append_assoc] at htext
    exact ⟨short, extra, rest', rfl, hrun', fun hmem => hrun.2 (List.mem_append_right _ hmem),
      List.append_cancel_left htext, hsome⟩
  induction run generalizing taken with
  | nil => exact absurd rfl hrun.1
  | cons c run ih =>
    have hc : c ≠ '/' := fun e => hrun.2 (e ▸ List.mem_cons_self ..)
    rw [List.cons_append, shortest?, if_neg hc]
    cases hgap : gap.isPrefixOf? (run ++ (gap ++ rest)) with
    | some rest' => exact ⟨[c], rest', by simp, by simp⟩
    | none =>
      -- the gap stands behind the whole run, so more of the run is to come
      have hne : run ≠ [] := by
        intro hnil
        subst hnil
        rw [List.nil_append, List.isPrefixOf?_eq_some_iff_append_eq.mpr rfl] at hgap
        exact absurd hgap (by simp)
      obtain ⟨short, rest', hpre, hsome⟩ :=
        ih ⟨hne, fun hmem => hrun.2 (List.mem_cons_of_mem _ hmem)⟩ (c :: taken)
      refine ⟨c :: short, rest', ?_, ?_⟩
      · exact List.cons_prefix_cons.mpr ⟨rfl, hpre⟩
      · show shortest? gap (c :: taken) (run ++ (gap ++ rest)) = _
        rw [hsome]
        simp

/-! ## What changes hands at a gap -/

/-- If a gap also stands `extra.length` places earlier, the text behind the earlier gap has as
many characters more, and none of them is a slash if none of `extra` is. -/
theorem surplus_of_append_eq {extra gap rest rest' : List Char} (hextra : '/' ∉ extra)
    (h : extra ++ (gap ++ rest) = gap ++ rest') :
    ∃ more, rest' = more ++ rest ∧ more.length = extra.length ∧ '/' ∉ more := by
  have hlen : extra.length + (gap.length + rest.length) = gap.length + rest'.length := by
    simpa using congrArg List.length h
  have hend : rest <:+ gap ++ rest' := ⟨extra ++ gap, by rw [List.append_assoc, h]⟩
  obtain ⟨more, rfl⟩ : rest <:+ rest' :=
    List.suffix_of_suffix_length_le hend (List.suffix_append gap rest') (by omega)
  have hswap : extra ++ gap = gap ++ more := by
    rw [← List.append_assoc, ← List.append_assoc] at h
    exact List.append_cancel_right h
  refine ⟨more, rfl, ?_, ?_⟩
  · simp only [List.length_append] at hlen
    omega
  · -- the gap has its slashes on both sides
    have hcount := congrArg (List.count '/') hswap
    rw [List.count_append, List.count_append, List.count_eq_zero_of_not_mem hextra] at hcount
    exact List.count_eq_zero.mp (by omega)

/-- A tiling can take more characters at its beginning: they go to the first run. -/
theorem tiles_append {gaps : List (List Char)} {back more run : List Char}
    {runs : List (List Char)} (hmore : '/' ∉ more) (h : Tiles gaps back (run :: runs)) :
    Tiles gaps (more ++ back) ((more ++ run) :: runs) := by
  have hgrown : ∀ {run : List Char}, IsRun run → IsRun (more ++ run) := by
    intro run hrun
    refine ⟨by simp [hrun.1], ?_⟩
    intro hmem
    rcases List.mem_append.mp hmem with hL | hR
    · exact hmore hL
    · exact hrun.2 hR
  cases h with
  | only hrun => exact .only (hgrown hrun)
  | cons hrun htail =>
    rw [← List.append_assoc]
    exact .cons (hgrown hrun) htail

theorem exists_cons_of_tiles {gaps : List (List Char)} {back : List Char}
    {runs : List (List Char)} (h : Tiles gaps back runs) : ∃ run runs', runs = run :: runs' := by
  cases h with
  | only => exact ⟨_, _, rfl⟩
  | cons => exact ⟨_, _, rfl⟩

theorem length_of_tiles {gaps : List (List Char)} {back : List Char} {runs : List (List Char)}
    (h : Tiles gaps back runs) : runs.length = gaps.length + 1 := by
  induction h with
  | only => rfl
  | cons _ _ ih => simp [ih]

/-! ## All runs: `values?` -/

@[simp] theorem spans_cons (run : List Char) (runs : List (List Char)) :
    spans (run :: runs) = spans runs ++ [run.length] := by
  simp [spans]

@[simp] theorem length_spans (runs : List (List Char)) : (spans runs).length = runs.length := by
  simp [spans]

@[simp] theorem valuesOf_cons (run : List Char) (runs : List (List Char)) :
    valuesOf (run :: runs) = valuesOf runs ++ [run.reverse] := by
  simp [valuesOf]

/-- Between lists of one length, what is put behind them does not change which comes first. -/
theorem lex_append_of_lex {a b : List Nat} (h : List.Lex (· < ·) a b) (hlen : a.length = b.length)
    (s t : List Nat) : List.Lex (· < ·) (a ++ s) (b ++ t) := by
  induction h with
  | nil => exact absurd hlen (by simp)
  | rel hlt => exact .rel hlt
  | cons _ ih => exact .cons (ih (by simpa using hlen))

/-- A first run that takes more makes the lengths greater. -/
theorem spans_lt_of_append {more run : List Char} (hmore : more ≠ []) (runs : List (List Char)) :
    List.Lex (· < ·) (spans (run :: runs)) (spans ((more ++ run) :: runs)) := by
  have hpos : 0 < more.length := List.length_pos_iff.mpr hmore
  rw [spans_cons, spans_cons]
  show spans runs ++ [run.length] < spans runs ++ [(more ++ run).length]
  apply List.append_left_lt
  apply List.Lex.rel
  rw [List.length_append]
  omega

/-- What a run gives up at a gap makes the lengths greater: the run behind the gap takes it, and
comes before this one in the path. -/
theorem spans_le_of_surplus {short extra more next : List Char} {runs best : List (List Char)}
    (hlen : more.length = extra.length) (hcount : runs.length + 1 = best.length)
    (hle : (more ++ next) :: runs = best ∨
      List.Lex (· < ·) (spans ((more ++ next) :: runs)) (spans best)) :
    (short ++ extra) :: next :: runs = short :: best ∨
      List.Lex (· < ·) (spans ((short ++ extra) :: next :: runs)) (spans (short :: best)) := by
  have hsame : (spans (next :: runs)).length = (spans best).length := by
    rw [length_spans, length_spans, List.length_cons, hcount]
  by_cases hnil : more = []
  · -- nothing changes hands, so the lengths are told apart further on or not at all
    subst hnil
    have hextra : extra = [] := List.length_eq_zero_iff.mp hlen.symm
    subst hextra
    rw [List.nil_append] at hle
    rw [List.append_nil]
    rcases hle with heq | hlt
    · exact .inl (by rw [heq])
    · refine .inr ?_
      rw [spans_cons short, spans_cons short]
      exact lex_append_of_lex hlt hsame _ _
  · have hgrow : List.Lex (· < ·) (spans (next :: runs)) (spans ((more ++ next) :: runs)) :=
      spans_lt_of_append hnil runs
    have hlt : List.Lex (· < ·) (spans (next :: runs)) (spans best) := by
      rcases hle with heq | hlt
      · exact heq ▸ hgrow
      · exact List.lex_trans Nat.lt_trans hgrow hlt
    refine .inr ?_
    rw [spans_cons (short ++ extra), spans_cons short]
    exact lex_append_of_lex hlt hsame _ _

/-- What `values?` finds comes from a tiling. -/
theorem tiles_of_values? {gaps found values : List (List Char)} {back : List Char}
    (h : values? found back gaps = some values) :
    ∃ runs, Tiles gaps back runs ∧ values = valuesOf runs ++ found := by
  induction gaps generalizing found back with
  | nil =>
    simp only [values?] at h
    split at h
    · exact absurd h (by simp)
    · next hback =>
      rw [not_or] at hback
      refine ⟨[back], .only hback, ?_⟩
      simpa [valuesOf] using h.symm
  | cons gap gaps ih =>
    simp only [values?] at h
    split at h
    · next value rest hshort =>
      obtain ⟨run, hrun, hvalue, hback⟩ := run_of_shortest? hshort
      obtain ⟨runs, hruns, hvalues⟩ := ih h
      refine ⟨run :: runs, hback ▸ .cons hrun hruns, ?_⟩
      simp [hvalues, hvalue]
    · exact absurd h (by simp)

/-- If a text has a tiling, `values?` finds one, and none has greater lengths. -/
theorem values?_of_tiles {gaps runs : List (List Char)} {back : List Char}
    (h : Tiles gaps back runs) (found : List (List Char)) :
    ∃ best, values? found back gaps = some (valuesOf best ++ found) ∧ Tiles gaps back best ∧
      (runs = best ∨ List.Lex (· < ·) (spans runs) (spans best)) := by
  -- for any tiling: behind the gap the best one is compared with a tiling that has changed
  induction gaps generalizing back runs found with
  | nil =>
    cases h with
    | only hrun =>
      have hback : ¬ (back = [] ∨ '/' ∈ back) := not_or.mpr hrun
      exact ⟨[back], by simp [values?, hback, valuesOf], .only hrun, .inl rfl⟩
  | cons gap gaps ih =>
    cases h with
    | @cons _ run rest _ runs hrun htail =>
      obtain ⟨short, extra, rest', rfl, hshortRun, hextra, hbehind, hshort⟩ :=
        shortest?_of_run hrun rest []
      -- what the run gives up is made good to the run behind the gap
      obtain ⟨more, rfl, hlen, hmore⟩ := surplus_of_append_eq hextra hbehind
      obtain ⟨next, runs', rfl⟩ := exists_cons_of_tiles htail
      obtain ⟨best, hbest, hbestTiles, hle⟩ :=
        ih (tiles_append hmore htail) (short.reverse :: found)
      have hcount : runs'.length + 1 = best.length := by
        rw [length_of_tiles hbestTiles, ← length_of_tiles htail]
        rfl
      refine ⟨short :: best, ?_, ?_, ?_⟩
      · rw [values?, hshort]
        show values? ((short.reverse ++ []) :: found) (more ++ rest) gaps = _
        rw [List.append_nil, hbest]
        simp
      · rw [List.append_assoc, hbehind]
        exact .cons hshortRun hbestTiles
      · exact spans_le_of_surplus hlen hcount hle

/-! ## Tilings that are found as they are -/

/-- A gap closes a run if it does not also stand behind a shorter part of the run, an empty one not
counted.  There it would be made of the rest of the run and then of the gap itself. -/
def Closes (gap run : List Char) : Prop :=
  ∀ short extra, run = short ++ extra → short ≠ [] → gap <+: extra ++ gap → extra = []

/-- Where a gap closes a run, `shortest?` takes the whole run. -/
theorem shortest?_of_closes {gap run : List Char} (hrun : IsRun run) (hcloses : Closes gap run)
    (rest taken : List Char) :
    shortest? gap taken (run ++ (gap ++ rest)) = some (run.reverse ++ taken, rest) := by
  obtain ⟨short, extra, rest', hsplit, hshortRun, -, hbehind, hshort⟩ :=
    shortest?_of_run hrun rest taken
  have hprefix : gap <+: extra ++ gap := by
    refine List.prefix_of_prefix_length_le ⟨rest', hbehind.symm⟩ ⟨rest, ?_⟩ (by simp)
    rw [List.append_assoc]
  have hnil : extra = [] := hcloses short extra hsplit hshortRun.1 hprefix
  subst hnil
  have hrest : rest = rest' := List.append_cancel_left hbehind
  rw [List.append_nil] at hsplit
  rw [hshort, hrest, hsplit]

/-- A gap closes a run that `shortest?` takes as a whole. -/
theorem closes_of_shortest? {gap run rest rest' : List Char} (hrun : IsRun run)
    (h : shortest? gap [] (run ++ (gap ++ rest)) = some (run.reverse, rest')) :
    Closes gap run := by
  intro short extra hsplit hne ⟨more, hmore⟩
  have hshortRun : IsRun short :=
    ⟨hne, fun hmem => hrun.2 (hsplit ▸ List.mem_append_left _ hmem)⟩
  -- behind the shorter part the gap stands as well, so no more than that part is taken
  obtain ⟨part, extra', rest'', hpart, -, -, -, hfound⟩ :=
    @shortest?_of_run gap short hshortRun (more ++ rest) []
  have htext : run ++ (gap ++ rest) = short ++ (gap ++ (more ++ rest)) := by
    rw [hsplit, List.append_assoc, ← List.append_assoc gap more, hmore, List.append_assoc]
  rw [htext, hfound, Option.some.injEq, Prod.mk.injEq, List.append_nil] at h
  have hsame : part = run := List.reverse_inj.mp h.1
  have hlength := congrArg List.length hsplit
  rw [← hsame, hpart] at hlength
  simp only [List.length_append] at hlength
  exact List.length_eq_zero_iff.mp (by omega)

theorem length_valuesOf (runs : List (List Char)) : (valuesOf runs).length = runs.length := by
  simp [valuesOf]

/-- The first run of a tiling that `values?` finds is what `shortest?` takes. -/
theorem shortest?_of_values? {gap run rest : List Char} {gaps runs : List (List Char)}
    (hrun : IsRun run) (htail : Tiles gaps rest runs) {found : List (List Char)}
    (h : values? found (run ++ (gap ++ rest)) (gap :: gaps) =
      some (valuesOf (run :: runs) ++ found)) :
    shortest? gap [] (run ++ (gap ++ rest)) = some (run.reverse, rest) := by
  obtain ⟨short, extra, rest', hsplit, -, -, hbehind, hshort⟩ := shortest?_of_run hrun rest []
  rw [List.append_nil] at hshort
  rw [values?, hshort] at h
  obtain ⟨others, hothers, hvalues⟩ := tiles_of_values? h
  -- as many runs are found behind the gap as there are, so the value before them is the same
  have hlength : (valuesOf runs).length = (valuesOf others).length := by
    rw [length_valuesOf, length_valuesOf, length_of_tiles htail, length_of_tiles hothers]
  rw [valuesOf_cons, List.append_assoc] at hvalues
  have hvalue := (List.append_inj hvalues hlength).2
  rw [List.singleton_append, List.cons.injEq] at hvalue
  have hsame : run = short := List.reverse_inj.mp hvalue.1
  have hnil : extra = [] := by
    rw [hsame] at hsplit
    exact List.self_eq_append_right.mp hsplit
  subst hnil
  have hrest : rest = rest' := List.append_cancel_left hbehind
  rw [hshort, hsame, hrest]

/-- `values?` finds the tiling at hand exactly if each gap closes the run before it. -/
theorem values?_eq_iff_closes {gaps runs : List (List Char)} {back : List Char}
    (h : Tiles gaps back runs) (found : List (List Char)) :
    values? found back gaps = some (valuesOf runs ++ found) ↔
      ∀ pair ∈ gaps.zip runs, Closes pair.1 pair.2 := by
  induction h generalizing found with
  | @only run hrun =>
    have hback : ¬ (run = [] ∨ '/' ∈ run) := not_or.mpr hrun
    simp [values?, hback, valuesOf]
  | @cons gap run rest gaps runs hrun htail ih =>
    rw [List.zip_cons_cons, List.forall_mem_cons]
    have hbehind : shortest? gap [] (run ++ (gap ++ rest)) = some (run.reverse, rest) →
        (values? found (run ++ (gap ++ rest)) (gap :: gaps) =
            some (valuesOf (run :: runs) ++ found) ↔
          ∀ pair ∈ gaps.zip runs, Closes pair.1 pair.2) := by
      intro hshort
      rw [← ih (run.reverse :: found), values?, hshort, valuesOf_cons, List.append_assoc]
      rfl
    refine ⟨?_, ?_⟩
    · intro hvalues
      have hshort := shortest?_of_values? hrun htail hvalues
      exact ⟨closes_of_shortest? hrun hshort, (hbehind hshort).mp hvalues⟩
    · intro ⟨hcloses, hothers⟩
      have hshort := shortest?_of_closes hrun hcloses rest []
      rw [List.append_nil] at hshort
      exact (hbehind hshort).mpr hothers

/-! ## Gaps that cannot be mistaken -/

/-- A gap that cannot be mistaken for an earlier part of the run before it: it holds a slash, or it
begins with a character that the run does not have. -/
def Apart (gap run : List Char) : Prop :=
  gap ≠ [] ∧ ('/' ∈ gap ∨ ∀ c ∈ gap.head?, c ∉ run)

/-- Such a gap does not stand before the end of the run. -/
theorem eq_nil_of_apart {gap extra rest rest' : List Char} (hapart : Apart gap extra)
    (hextra : '/' ∉ extra) (h : extra ++ (gap ++ rest) = gap ++ rest') : extra = [] := by
  obtain ⟨hgap, hslash | hhead⟩ := hapart
  · -- the first slash of the text is the first slash of the gap, wherever the gap begins
    have hidx := congrArg (List.idxOf '/') h
    rw [List.idxOf_append, if_neg hextra, List.idxOf_append, if_pos hslash, List.idxOf_append,
      if_pos hslash] at hidx
    exact List.length_eq_zero_iff.mp (by omega)
  · cases gap with
    | nil => exact absurd rfl hgap
    | cons c gap =>
      cases extra with
      | nil => rfl
      | cons d extra =>
        have hdc : d = c := (List.cons.inj h).1
        exact absurd (hdc ▸ List.mem_cons_self ..) (hhead c rfl)

theorem apart_of_suffix {gap extra run : List Char} (hapart : Apart gap run)
    (h : extra <:+ run) : Apart gap extra := by
  refine ⟨hapart.1, ?_⟩
  rcases hapart.2 with hslash | hhead
  · exact .inl hslash
  · exact .inr fun c hc hmem => hhead c hc (h.subset hmem)

/-- So it closes the run. -/
theorem closes_of_apart {gap run : List Char} (hrun : IsRun run) (hapart : Apart gap run) :
    Closes gap run := by
  intro short extra hsplit _ ⟨more, hmore⟩
  have hsuffix : extra <:+ run := ⟨short, hsplit.symm⟩
  have htext : extra ++ (gap ++ []) = gap ++ more := by rw [List.append_nil, hmore]
  exact eq_nil_of_apart (apart_of_suffix hapart hsuffix) (fun hmem => hrun.2 (hsuffix.subset hmem))
    htext

end PathTemplate.Frame
