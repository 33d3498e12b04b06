import Mathlib.Data.List.Basic
import PathTemplate.Pattern.Reading
import PathTemplate.Proofs.Places
import PathTemplate.Segment.Assignment

/-!
# Escaping: a pattern says what its segments say

Literal text may hold anything: brackets, anchors, backslashes, even the text of a group.  With a
backslash before each special character none of it is read as syntax (`reads_escape`), and as an
escaped character is complete in itself, none of it takes a part of what comes behind.

The first item of a pattern text is a function of the text (`next?`), so a text has one reading at
most, and a pattern has just the one that was meant.

> `reads_iff`: what a pattern says is the items of its segments, and nothing else.

Names are not in a pattern.  What is left when the names are forgotten is the frame, and from the
frame of a reading its segments come back without their names (`segments_ofSegments`).

> `ofSegments_scan_eq_iff`: two readings have one pattern exactly if they differ in names only.
-/

namespace PathTemplate

namespace Pattern

/-! ## One reading at most -/

/-- The first item of a pattern text, and the text behind it. -/
def next? (text : List Char) : Option (Atom × List Char) :=
  match group.isPrefixOf? text with
  | some rest => some (.group, rest)
  | none =>
    match text with
    | [] => none
    | c :: rest =>
      if c = '\\' then
        match rest with
        | [] => none
        | d :: rest => if d ∈ special then some (.char d, rest) else none
      else if c = '^' then some (.start, rest)
      else if c = '$' then some (.stop, rest)
      else some (.char c, rest)

theorem next?_nil : next? [] = none := rfl

theorem isPrefixOf?_group_eq_none {c : Char} {rest : List Char} (h : c ≠ '(') :
    group.isPrefixOf? (c :: rest) = none := by
  cases hgroup : group.isPrefixOf? (c :: rest) with
  | none => rfl
  | some back =>
    have hhead := List.isPrefixOf?_eq_some_iff_append_eq.mp hgroup
    exact absurd (List.cons.inj hhead).1.symm h

/-- A reading begins with the first item and goes on behind it. -/
theorem next?_of_reads {text : List Char} {atoms : List Atom} (h : Reads text atoms) :
    (atoms = [] ∧ text = []) ∨
      ∃ atom rest back, atoms = atom :: back ∧ next? text = some (atom, rest) ∧
        Reads rest back := by
  cases h with
  | done => exact .inl ⟨rfl, rfl⟩
  | escaped hc h =>
    refine .inr ⟨_, _, _, rfl, ?_, h⟩
    unfold next?
    rw [isPrefixOf?_group_eq_none (by decide)]
    exact if_pos hc
  | group h =>
    refine .inr ⟨_, _, _, rfl, ?_, h⟩
    unfold next?
    rw [List.isPrefixOf?_eq_some_iff_append_eq.mpr rfl]
  | start h =>
    refine .inr ⟨_, _, _, rfl, ?_, h⟩
    unfold next?
    rw [isPrefixOf?_group_eq_none (by decide)]
    rfl
  | stop h =>
    refine .inr ⟨_, _, _, rfl, ?_, h⟩
    unfold next?
    rw [isPrefixOf?_group_eq_none (by decide)]
    rfl
  | @plain c rest back hc hgroup h =>
    refine .inr ⟨_, _, _, rfl, ?_, h⟩
    have hnone : group.isPrefixOf? (c :: rest) = none := by
      cases hsome : group.isPrefixOf? (c :: rest) with
      | none => rfl
      | some back => exact absurd ⟨back, List.isPrefixOf?_eq_some_iff_append_eq.mp hsome⟩ hgroup
    have hne : c ≠ '\\' ∧ c ≠ '^' ∧ c ≠ '$' := by simpa using hc
    unfold next?
    rw [hnone]
    simp only [if_neg hne.1, if_neg hne.2.1, if_neg hne.2.2]

/-- A pattern text has one reading at most. -/
theorem reads_unique {text : List Char} {atoms others : List Atom} (h : Reads text atoms)
    (hothers : Reads text others) : atoms = others := by
  induction atoms generalizing text others with
  | nil =>
    rcases next?_of_reads h with ⟨-, rfl⟩ | ⟨_, _, _, hcons, -⟩
    · rcases next?_of_reads hothers with ⟨hnil, -⟩ | ⟨_, _, _, -, hnext, -⟩
      · exact hnil.symm
      · exact absurd hnext (by simp [next?_nil])
    · exact absurd hcons (by simp)
  | cons atom atoms ih =>
    rcases next?_of_reads h with ⟨hnil, -⟩ | ⟨_, rest, _, heq, hnext, hrest⟩
    · exact absurd hnil (by simp)
    cases heq
    rcases next?_of_reads hothers with ⟨-, rfl⟩ | ⟨_, rest', _, rfl, hnext', hrest'⟩
    · exact absurd hnext (by simp [next?_nil])
    · -- both begin with the same item and go on at the same place
      rw [hnext, Option.some.injEq, Prod.mk.injEq] at hnext'
      obtain ⟨rfl, rfl⟩ := hnext'
      rw [ih hrest hrest']

/-! ## What is meant is read -/

variable {rest : List Char} {atoms : List Atom}

/-- An escaped character is read as itself. -/
theorem reads_escape (c : Char) (h : Reads rest atoms) :
    Reads (escape c ++ rest) (.char c :: atoms) := by
  unfold escape
  by_cases hc : c ∈ special
  · rw [if_pos hc]
    exact .escaped hc h
  · rw [if_neg hc]
    have hne : ∀ d ∈ special, c ≠ d := fun d hd heq => hc (heq ▸ hd)
    refine .plain ?_ ?_ h
    · simp [hne '\\' (by decide), hne '^' (by decide), hne '$' (by decide)]
    · -- a group begins with a special character
      rintro ⟨back, hback⟩
      exact hne '(' (by decide) (List.cons.inj hback).1.symm

/-- Escaped text is read as itself, whatever stands behind it. -/
theorem reads_flatMap_escape (chars : List Char) (h : Reads rest atoms) :
    Reads (chars.flatMap escape ++ rest) (chars.map .char ++ atoms) := by
  induction chars with
  | nil => exact h
  | cons c chars ih =>
    rw [List.flatMap_cons, List.append_assoc, List.map_cons, List.cons_append]
    exact reads_escape c ih

theorem reads_flatMap_ofSegment (segments : List Segment) (h : Reads rest atoms) :
    Reads (segments.flatMap ofSegment ++ rest) (segments.flatMap Atom.ofSegment ++ atoms) := by
  induction segments with
  | nil => exact h
  | cons segment segments ih =>
    rw [List.flatMap_cons, List.append_assoc, List.flatMap_cons, List.append_assoc]
    cases segment with
    | literal text => exact reads_flatMap_escape text.toList ih
    | placeholder name => exact .group ih

/-- A pattern says what the items of its segments say. -/
theorem reads_ofSegments (segments : List Segment) :
    Reads (ofSegments segments) (Atom.ofSegments segments) :=
  .start (reads_flatMap_ofSegment segments (.stop .done))

/-- What a pattern says is the items of its segments, and nothing else. -/
theorem reads_iff {segments : List Segment} :
    Reads (ofSegments segments) atoms ↔ atoms = Atom.ofSegments segments := by
  refine ⟨?_, ?_⟩
  · intro h
    exact reads_unique h (reads_ofSegments segments)
  · rintro rfl
    exact reads_ofSegments segments

/-- Literal text that looks like a group is no group. -/
example : ofSegments [.literal "([^/]+)", .placeholder "x"] =
    "^\\(\\[\\^/\\]\\+\\)([^/]+)$".toList := by decide

/-- A pattern has a group for each placeholder. -/
theorem count_group (segments : List Segment) :
    (Atom.ofSegments segments).count .group = (Segment.names segments).length := by
  have hbody : (segments.flatMap Atom.ofSegment).count .group =
      (Segment.names segments).length := by
    induction segments with
    | nil => rfl
    | cons segment segments ih =>
      rw [List.flatMap_cons, List.count_append, ih]
      cases segment with
      | literal text =>
        have hnone : (Atom.ofSegment (.literal text)).count .group = 0 :=
          List.count_eq_zero.mpr (by simp [Atom.ofSegment])
        rw [hnone, Nat.zero_add, Segment.names_literal]
      | placeholder name =>
        rw [Segment.names_placeholder, List.length_cons, Nat.add_comm]
        rfl
  rw [Atom.ofSegments, List.count_cons_of_ne (by decide), List.count_append, hbody]
  rfl

end Pattern

/-! ## What a pattern leaves out -/

namespace Frame

open Pattern (Atom)

/-- The frame with one more item in front. -/
def extendAtom : Atom → Frame → Frame
  | .char c, frame => ⟨c :: frame.lead, frame.gaps⟩
  | .group, frame => ⟨[], frame.lead :: frame.gaps⟩
  | .start, frame => frame
  | .stop, frame => frame

/-- The frame of the items of a pattern. -/
def ofAtoms (atoms : List Atom) : Frame :=
  atoms.foldr extendAtom ⟨[], []⟩

theorem foldr_extendAtom_chars (chars : List Char) (frame : Frame) :
    (chars.map Atom.char).foldr extendAtom frame = ⟨chars ++ frame.lead, frame.gaps⟩ := by
  induction chars with
  | nil => rfl
  | cons c chars ih => rw [List.map_cons, List.foldr_cons, ih, extendAtom, List.cons_append]

/-- The items of some segments have the frame of the segments. -/
theorem ofAtoms_ofSegments (segments : List Segment) :
    ofAtoms (Atom.ofSegments segments) = ofSegments segments := by
  have hbody : (segments.flatMap Atom.ofSegment).foldr extendAtom ⟨[], []⟩ =
      ofSegments segments := by
    induction segments with
    | nil => rfl
    | cons segment segments ih =>
      rw [List.flatMap_cons, List.foldr_append, ih]
      cases segment with
      | literal text => exact foldr_extendAtom_chars text.toList _
      | placeholder name => rfl
  rw [ofAtoms, Atom.ofSegments, List.foldr_cons, List.foldr_append]
  exact hbody

/-- The segments of a frame: literals for what is not empty, and placeholders without a name. -/
def segments (frame : Frame) : List Segment :=
  Segment.ofLiteral frame.lead ++
    frame.gaps.flatMap fun gap => .placeholder "" :: Segment.ofLiteral gap

/-- The frame of a reading has its segments, but for the names. -/
theorem segments_ofSegments {segments : List Segment}
    (hne : ∀ text, .literal text ∈ segments → text ≠ "")
    (hapart : ∀ front a b back, segments ≠ front ++ .literal a :: .literal b :: back) :
    (ofSegments segments).segments = segments.map (Segment.rename fun _ => "") := by
  induction segments with
  | nil => rfl
  | cons segment segments ih =>
    have htail := ih (fun text hmem => hne text (List.mem_cons_of_mem _ hmem))
      (fun front a b back hsplit => hapart (segment :: front) a b back (by rw [hsplit]; rfl))
    rw [List.map_cons, ← htail]
    cases segment with
    | placeholder name => rfl
    | literal text =>
      -- behind a literal comes a placeholder or nothing, so the leading text is the literal
      have hlead : (ofSegments segments).lead = [] := by
        cases segments with
        | nil => rfl
        | cons next segments =>
          cases next with
          | literal other => exact absurd rfl (hapart [] text other segments)
          | placeholder name => rfl
      have hchars : text.toList ≠ [] := fun hnil =>
        hne text (List.mem_cons_self ..) (String.toList_eq_nil_iff.mp hnil)
      rw [ofSegments_literal, Frame.segments, Frame.segments, hlead, List.append_nil,
        Segment.ofLiteral, if_neg hchars, String.ofList_toList]
      rfl

end Frame

namespace Pattern

/-- Two texts have one pattern exactly if their readings are the same but for the names. -/
theorem ofSegments_scan_eq_iff (text other : String) :
    ofSegments (Segment.scan text) = ofSegments (Segment.scan other) ↔
      (Segment.scan text).map (Segment.rename fun _ => "") =
        (Segment.scan other).map (Segment.rename fun _ => "") := by
  refine ⟨?_, ?_⟩
  · intro h
    have hatoms : Atom.ofSegments (Segment.scan text) = Atom.ofSegments (Segment.scan other) :=
      reads_iff.mp (h ▸ reads_ofSegments (Segment.scan text))
    have hframe := congrArg Frame.ofAtoms hatoms
    rw [Frame.ofAtoms_ofSegments, Frame.ofAtoms_ofSegments] at hframe
    have hshape : ∀ text, (Frame.ofSegments (Segment.scan text)).segments = _ := fun text =>
      Frame.segments_ofSegments
        (fun chars hmem => ((Segment.canonical_scan text).literals chars hmem).1)
        (Segment.canonical_scan text).apart
    rw [← hshape, ← hshape, hframe]
  · intro h
    rw [← ofSegments_map_rename (fun _ => "") (Segment.scan text), h, ofSegments_map_rename]

end Pattern

end PathTemplate
