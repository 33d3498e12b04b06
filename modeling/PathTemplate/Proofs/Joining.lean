import PathTemplate.Proofs.Assigning
import PathTemplate.Proofs.Places

/-!
# Joining: the reading of two texts with a slash between them

Two texts with a slash between them are read as the one and then the other, and the slash as literal
text, unless an opening brace of the first and a closing brace of the second make a placeholder of
what lies between (`Straddles`).  That is the only way in which one text can change the reading of
the other: a placeholder has no brace in its name, so all that counts is the last brace of the first
text and the first brace of the second (`straddles_iff`).

The segments are not just put one behind the other, since literals at the joint become one.  For
matching it does not matter where literals are cut: lists of segments are `Alike` if they have one
frame and the same names.

> `alike_scan_join`: the reading of the whole is alike to the readings of the parts with a slash
> between them.

The induction is on the reading of the first text, whatever characters are in hand.  What it carries
is that no placeholder straddles the joint.
-/

namespace PathTemplate

/-- A placeholder would open in the first text and close in the second. -/
def Straddles (front back : List Char) : Prop :=
  front.findRev? isBrace = some '{' ∧ back.find? isBrace = some '}'

instance (front back : List Char) : Decidable (Straddles front back) :=
  inferInstanceAs (Decidable (front.findRev? isBrace = some '{' ∧ back.find? isBrace = some '}'))

/-! ## Texts that a placeholder straddles -/

section Straddles

variable {front back : List Char}

/-- The first text ends in an opening brace and a part of a name, the second begins with the other
part and a closing brace. -/
theorem straddles_iff_split :
    Straddles front back ↔
      ∃ before name name' after, front = before ++ '{' :: name ∧ back = name' ++ '}' :: after ∧
        (∀ c ∈ name, isBrace c = false) ∧ ∀ c ∈ name', isBrace c = false := by
  unfold Straddles
  rw [List.findRev?_eq_find?_reverse, List.find?_eq_some_iff_append,
    List.find?_eq_some_iff_append]
  refine ⟨?_, ?_⟩
  · rintro ⟨⟨-, name, before, hfront, hname⟩, -, name', after, hback, hname'⟩
    refine ⟨before.reverse, name.reverse, name', after, ?_, hback, ?_, ?_⟩
    · rw [← List.reverse_reverse front, hfront]
      simp
    · intro c hc
      simpa using hname c (List.mem_reverse.mp hc)
    · intro c hc
      simpa using hname' c hc
  · rintro ⟨before, name, name', after, rfl, rfl, hname, hname'⟩
    refine ⟨⟨by decide, name.reverse, before.reverse, by simp, ?_⟩, by decide, name', after, rfl,
      ?_⟩
    · intro c hc
      simpa using hname c (List.mem_reverse.mp hc)
    · intro c hc
      simpa using hname' c hc

/-- What stands before the first text does not matter. -/
theorem straddles_append (before : List Char) (h : Straddles front back) :
    Straddles (before ++ front) back := by
  obtain ⟨start, name, name', after, rfl, hback, hname, hname'⟩ := straddles_iff_split.mp h
  exact straddles_iff_split.mpr
    ⟨before ++ start, name, name', after, (List.append_assoc ..).symm, hback, hname, hname'⟩

/-- A placeholder that opens in the first text is one of that text, unless it straddles the
slash. -/
theorem placeholderAt_or_straddles {i e : Nat} (h : PlaceholderAt (front ++ '/' :: back) i e)
    (hi : i < front.length) : PlaceholderAt front i e ∨ Straddles front back := by
  by_cases he : e < front.length
  · exact .inl (placeholderAt_of_append h he)
  · obtain ⟨before, name, after, htext, -, hname, rfl, rfl⟩ := placeholderAt_iff_split.mp h
    -- the first text ends behind the opening brace
    obtain ⟨rest, rfl⟩ : before ++ ['{'] <+: front := by
      refine List.prefix_of_prefix_length_le ⟨name ++ '}' :: after, ?_⟩
        (List.prefix_append front ('/' :: back)) ?_
      · rw [htext, List.append_assoc]
        rfl
      · rw [List.length_append]
        exact hi
    have hbehind : rest ++ '/' :: back = name ++ '}' :: after := by
      simpa using htext
    -- and before the closing one, so that the slash stands in the name
    obtain ⟨part, hnamed, hback⟩ :
        ∃ part, name = rest ++ part ∧ '/' :: back = part ++ '}' :: after := by
      rcases List.append_eq_append_iff.mp hbehind with hpart | ⟨part, hrest, hafter⟩
      · exact hpart
      · rw [hrest] at he
        simp only [List.length_append, List.length_cons, List.length_nil] at he
        have hnil : part = [] := List.length_eq_zero_iff.mp (by omega)
        subst hnil
        exact absurd (List.cons.inj hafter).1 (by decide)
    refine .inr (straddles_iff_split.mpr ?_)
    cases part with
    | nil => exact absurd (List.cons.inj hback).1 (by decide)
    | cons c part =>
      refine ⟨before, rest, part, after, by simp, (List.cons.inj hback).2, ?_, ?_⟩
      · exact fun d hd => hname d (hnamed ▸ List.mem_append_left _ hd)
      · exact fun d hd => hname d (hnamed ▸ List.mem_append_right _ (List.mem_cons_of_mem _ hd))

/-- The two braces are those of a placeholder around the slash. -/
theorem straddles_iff :
    Straddles front back ↔
      ∃ i e, PlaceholderAt (front ++ '/' :: back) i e ∧ i < front.length ∧ front.length < e := by
  refine ⟨?_, ?_⟩
  · intro h
    obtain ⟨before, name, name', after, rfl, rfl, hname, hname'⟩ := straddles_iff_split.mp h
    refine ⟨before.length, before.length + 1 + (name ++ '/' :: name').length,
      placeholderAt_iff_split.mpr ⟨before, name ++ '/' :: name', after, by simp, by simp, ?_, rfl,
        rfl⟩, by simp, ?_⟩
    · intro c hc
      rcases List.mem_append.mp hc with hL | hR
      · exact hname c hL
      · rcases List.mem_cons.mp hR with hE | hT
        · rw [hE]
          decide
        · exact hname' c hT
    · simp only [List.length_append, List.length_cons]
      omega
  · intro ⟨i, e, h, hi, he⟩
    refine (placeholderAt_or_straddles h hi).resolve_left ?_
    intro hfront
    have hlt := (List.getElem?_eq_some_iff.mp hfront.closing).1
    omega

end Straddles

namespace Segment

/-! ## Segments that say the same -/

/-- Two lists of segments with the same text around the same placeholders, wherever the literals are
cut. -/
structure Alike (segments others : List Segment) : Prop where
  frame : Frame.ofSegments segments = Frame.ofSegments others
  names : names segments = names others

section Alike

variable {a b c : List Segment}

theorem Alike.trans (h : Alike a b) (h' : Alike b c) : Alike a c :=
  ⟨h.frame.trans h'.frame, h.names.trans h'.names⟩

theorem Alike.append_left (front : List Segment) (h : Alike a b) :
    Alike (front ++ a) (front ++ b) := by
  refine ⟨?_, ?_⟩
  · have hframe : a.foldr Frame.extend ⟨[], []⟩ = b.foldr Frame.extend ⟨[], []⟩ := h.frame
    unfold Frame.ofSegments
    rw [List.foldr_append, List.foldr_append, hframe]
  · rw [names_append, names_append, h.names]

/-- Two pieces of literal text are one. -/
theorem alike_ofLiteral_append (front back : List Char) (rest : List Segment) :
    Alike (ofLiteral (front ++ back) ++ rest) (ofLiteral front ++ (ofLiteral back ++ rest)) := by
  have hframe : ∀ (chars : List Char) (rest : List Segment),
      Frame.ofSegments (ofLiteral chars ++ rest) =
        ⟨chars ++ (Frame.ofSegments rest).lead, (Frame.ofSegments rest).gaps⟩ := by
    intro chars rest
    unfold ofLiteral
    by_cases h : chars = []
    · simp [h]
    · simp [h]
  have hnames : ∀ (chars : List Char) (rest : List Segment),
      names (ofLiteral chars ++ rest) = names rest := by
    intro chars rest
    unfold ofLiteral
    by_cases h : chars = []
    · simp [h]
    · simp [h]
  refine ⟨?_, ?_⟩
  · rw [hframe, hframe, hframe, List.append_assoc]
  · rw [hnames, hnames, hnames]

end Alike

/-! ## The reading of a joined text -/

/-- The characters that came in hand first are literal text before what is read with the others. -/
theorem alike_readChars_append (first held text : List Char) :
    Alike (readChars (held ++ first) text) (ofLiteral first.reverse ++ readChars held text) := by
  induction held, text using readChars_induction with
  | nil held =>
    have hcut := alike_ofLiteral_append first.reverse held.reverse []
    rw [List.append_nil, List.append_nil] at hcut
    rw [readChars, readChars, List.reverse_append]
    exact hcut
  | placeholder held name after hne hname _ =>
    rw [readChars_placeholder hne hname, readChars_placeholder hne hname, List.reverse_append]
    exact alike_ofLiteral_append _ _ _
  | literal held c rest hnone ih =>
    rw [readChars_of_not_placeholderAt hnone, readChars_of_not_placeholderAt hnone]
    exact ih

/-- With a slash between them, two texts are read one after the other, unless a placeholder
straddles the slash. -/
theorem alike_readChars_join {back : List Char} (held front : List Char)
    (h : ¬ Straddles front back) :
    Alike (readChars held (front ++ '/' :: back))
      (readChars held front ++ literal "/" :: readChars [] back) := by
  induction held, front using readChars_induction with
  | nil held =>
    have htogether := alike_readChars_append ('/' :: held) [] back
    rw [List.nil_append, List.reverse_cons] at htogether
    rw [List.nil_append, readChars_of_ne (by decide), readChars]
    exact htogether.trans (alike_ofLiteral_append held.reverse ['/'] (readChars [] back))
  | placeholder held name after hne hname ih =>
    have hafter : ¬ Straddles after back := by
      intro hstraddles
      apply h
      have hbefore := straddles_append ('{' :: (name ++ ['}'])) hstraddles
      simpa using hbefore
    rw [readChars_placeholder hne hname, List.cons_append, List.append_assoc, List.cons_append,
      readChars_placeholder hne hname, List.append_assoc, List.cons_append]
    exact ((ih hafter).append_left [_]).append_left _
  | literal held c rest hnone ih =>
    have hrest : ¬ Straddles rest back := fun hstraddles => h (straddles_append [c] hstraddles)
    have hjoined : ∀ e, ¬ PlaceholderAt (c :: (rest ++ '/' :: back)) 0 e := by
      intro e hplaceholder
      exact hnone e ((placeholderAt_or_straddles hplaceholder (Nat.succ_pos _)).resolve_right h)
    rw [List.cons_append, readChars_of_not_placeholderAt hjoined,
      readChars_of_not_placeholderAt hnone]
    exact ih hrest

/-- With a slash between them, two templates have the segments of the one, a slash and the segments
of the other, unless a placeholder straddles the slash. -/
theorem alike_scan_join {front back : String} (h : ¬ Straddles front.toList back.toList) :
    Alike (scan (front ++ "/" ++ back)) (scan front ++ literal "/" :: scan back) := by
  have hchars : (front ++ "/" ++ back).toList = front.toList ++ '/' :: back.toList := by
    rw [String.toList_append, String.toList_append, List.append_assoc]
    rfl
  rw [scan_eq_ofChars, scan_eq_ofChars, scan_eq_ofChars, hchars]
  exact alike_readChars_join [] front.toList h

end Segment

end PathTemplate
